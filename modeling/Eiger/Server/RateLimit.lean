import Eiger.Api.Auth

/-!
# The keys of the rate limit

With a token configured, `TokenKeyExtractor` gives each request a key, and requests with one key
share a bucket. The key is the token that `rate_limit_token` finds in a request, and it looks for it
otherwise than `authorized` does: a bearer token goes before the query, whether it is the right one
or not, and the query is not read as a form, but `token` and its value are looked for as they are
written, and the value is percent-decoded only.

`token_key_agrees_iff` says when the two agree on who has the token all the same.
-/

namespace Eiger

open Url Text

/-! ## The key of a request -/

/-- `bearer_token`. -/
def bearerToken (headers : HeaderMap) : Option String := headers.bearer.filter (!isBlank ·)

/-- What `query_token` makes of a pair as it is written. -/
def pairToken (codec : UrlCodec) (pair : String × String) : Option String :=
  if pair.1 = "token" ∧ isBlank pair.2 = false then codec.decode pair.2 else none

/-- `query_token`, of the query string that the request has. -/
def queryToken (codec : UrlCodec) (rawQuery : Option String) : Option String :=
  rawQuery.bind fun raw => (rawPairs raw).findSome? (pairToken codec)

/-- `rate_limit_token`. -/
def rateLimitToken (codec : UrlCodec) (headers : HeaderMap) (rawQuery : Option String) :
    Option String :=
  (bearerToken headers).or (queryToken codec rawQuery)

/-- `TokenKeyExtractor::extract`. -/
def tokenKey (codec : UrlCodec) (headers : HeaderMap) (rawQuery : Option String) : String :=
  (rateLimitToken codec headers rawQuery).getD "missing"

/-! ## Where the key and the authorization agree -/

/-- The pairs of a query string that a form has under `token`, as they are written. -/
def tokenPairs (codec : UrlCodec) (raw : String) : List (String × String) :=
  (rawPairs raw).filter (formText codec.lossy ·.1 = "token")

/-- With a bearer token, it is the configured one or the query has not the configured one. Without
one, and without a pair under `token`, the configured token is not `missing`. With such a pair,
either it is written as `token` and a value that is not blank and can be percent-decoded, and then
the value has no `+` or is not the configured token in either reading; or it is not so written, and
then the value is the configured token just if that is `missing`. -/
def KeyAgrees (codec : UrlCodec) (token : String) (headers : HeaderMap)
    (rawQuery : Option String) : Prop :=
  match bearerToken headers with
  | some bearer =>
    bearer = token ∨
      ∀ pair ∈ tokenPairs codec (rawQuery.getD ""), formText codec.lossy pair.2 ≠ token
  | none =>
    match tokenPairs codec (rawQuery.getD "") with
    | [] => token ≠ "missing"
    | pair :: _ =>
      match pairToken codec pair with
      | some value =>
        '+' ∉ pair.2.toList ∨ (formText codec.lossy pair.2 ≠ token ∧ value ≠ token)
      | none => formText codec.lossy pair.2 = token ↔ token = "missing"

section

variable {codec : UrlCodec}

/-- A blank bearer token is not the configured one. -/
theorem bearer_ne_of_bearerToken {headers : HeaderMap} {token : String}
    (h : bearerToken headers = none) (htoken : isBlank token = false) :
    headers.bearer ≠ some token := by
  intro hbearer
  rw [bearerToken, hbearer] at h
  simp [htoken] at h

/-- Only a pair that a form has under `token` can be read by `query_token`. -/
theorem formText_of_pairToken (hcodec : codec.Standard) {pair : String × String} {value : String}
    (h : pairToken codec pair = some value) : formText codec.lossy pair.1 = "token" := by
  rw [pairToken] at h
  split at h
  · next hpair =>
    rw [hpair.1]
    exact hcodec.formText_eq (by decide)
  · cases h

/-- A search finds the same among those elements only that it can find something in. -/
theorem findSome?_filter {α β : Type*} {f : α → Option β} {p : α → Bool}
    (h : ∀ a b, f a = some b → p a = true) (l : List α) :
    (l.filter p).findSome? f = l.findSome? f := by
  induction l with
  | nil => rfl
  | cons a l ih =>
    rw [List.findSome?_cons]
    cases hf : f a with
    | some b => rw [List.filter_cons_of_pos (h a b hf), List.findSome?_cons, hf]
    | none =>
      rw [← ih, List.filter_cons]
      split
      · rw [List.findSome?_cons, hf]
      · rfl

/-- `query_token` finds the value of a pair that a form has under `token`. -/
theorem queryToken_eq (hcodec : codec.Standard) (rawQuery : Option String) :
    queryToken codec rawQuery =
      (tokenPairs codec (rawQuery.getD "")).findSome? (pairToken codec) := by
  rw [tokenPairs, findSome?_filter fun pair value h =>
    decide_eq_true (formText_of_pairToken hcodec h)]
  cases rawQuery with
  | none => exact (show (rawPairs "").findSome? (pairToken codec) = none from rfl).symm
  | some raw => rfl

/-- An accepted query has a pair under `token` once at most, and its value is the query's token. -/
theorem tokenPairs_of_extract (hcodec : codec.Standard) {raw : String} {query : SessionQuery}
    (h : codec.extract raw = some query) :
    query.token.toList = (tokenPairs codec raw).map (formText codec.lossy ·.2) := by
  have hempty : formText codec.lossy "" = "" := hcodec.formText_eq (by decide)
  rw [hcodec.token raw query h, UrlCodec.values,
    formPairs_filter (by rw [hempty]; decide), List.map_map]
  rfl

/-- A value that `query_token` reads is read so by a form, if and only if it has no `+`. -/
theorem formText_eq_iff (hcodec : codec.Standard) {pair : String × String} {value : String}
    (h : pairToken codec pair = some value) :
    formText codec.lossy pair.2 = value ↔ '+' ∉ pair.2.toList := by
  have hvalue : utf8 value = percentDecode (utf8 pair.2) := by
    rw [pairToken] at h
    split at h
    · exact (hcodec.decode _ _).1 h
    · cases h
  obtain ⟨text, htext⟩ := exists_formDecode hvalue
  rw [hcodec.formText_eq htext, ← plus_not_mem_utf8]
  constructor
  · rintro rfl
    exact not_mem_of_formDecode_eq (htext.symm.trans hvalue)
  · intro hplus
    exact utf8_injective ((htext.trans (formDecode_eq hplus)).trans hvalue.symm)

/-- The two readings of such a pair agree on who has the token, if they are one or neither is the
token. -/
theorem pairToken_agrees_iff (hcodec : codec.Standard) {pair : String × String}
    {value token : String} (h : pairToken codec pair = some value) :
    (formText codec.lossy pair.2 = token ↔ value = token) ↔
      '+' ∉ pair.2.toList ∨ (formText codec.lossy pair.2 ≠ token ∧ value ≠ token) := by
  rw [← formText_eq_iff hcodec h]
  constructor
  · intro hagree
    refine or_iff_not_imp_left.2 fun hne => ⟨fun hform => ?_, fun hread => ?_⟩
    · exact hne (hform.trans (hagree.1 hform).symm)
    · exact hne ((hagree.2 hread).trans hread.symm)
  · rintro (heq | ⟨hform, hread⟩)
    · rw [heq]
    · exact ⟨fun h => (hform h).elim, fun h => (hread h).elim⟩

end

/-- **The key agrees with the authorization** of a request that is accepted: a request is authorized
just if its key is the configured token, on exactly the requests of `KeyAgrees`. -/
theorem token_key_agrees_iff {codec : UrlCodec} (hcodec : codec.Standard) {token : String}
    (htoken : isBlank token = false) (headers : HeaderMap) {rawQuery : Option String}
    {query : SessionQuery} (hquery : codec.extract (rawQuery.getD "") = some query) :
    (authorized (some token) headers query.token = true ↔
        tokenKey codec headers rawQuery = token) ↔
      KeyAgrees codec token headers rawQuery := by
  have hpairs := tokenPairs_of_extract hcodec hquery
  rw [authorized_iff, tokenKey, rateLimitToken, queryToken_eq hcodec]
  unfold KeyAgrees
  cases hbearer : bearerToken headers with
  | some bearer =>
    have hsome : headers.bearer = some bearer := (Option.filter_eq_some_iff.1 hbearer).1
    have hquery : query.token = some token ↔
        ∃ pair ∈ tokenPairs codec (rawQuery.getD ""), formText codec.lossy pair.2 = token := by
      rw [← List.mem_map, ← hpairs, Option.mem_toList]
    rw [hsome, hquery, Option.some.injEq]
    show (_ ↔ bearer = token) ↔ _
    constructor
    · intro h
      refine or_iff_not_imp_left.2 fun hne pair hpair heq => ?_
      exact hne (h.1 (.inl ⟨pair, hpair, heq⟩))
    · rintro (rfl | hnone)
      · simp
      · exact or_iff_right fun ⟨pair, hpair, heq⟩ => hnone pair hpair heq
  | none =>
    rw [or_iff_left (bearer_ne_of_bearerToken hbearer htoken), Option.none_or]
    cases htokens : tokenPairs codec (rawQuery.getD "") with
    | nil =>
      rw [htokens] at hpairs
      have hnone : query.token = none := Option.toList_eq_nil_iff.1 hpairs
      rw [hnone]
      show (none = some token ↔ "missing" = token) ↔ _
      simp [eq_comm]
    | cons pair rest =>
      rw [htokens] at hpairs
      cases hgiven : query.token with
      | none =>
        rw [hgiven] at hpairs
        cases hpairs
      | some given =>
        rw [hgiven] at hpairs
        obtain ⟨rfl, hrest⟩ := List.cons.inj hpairs
        obtain rfl := List.map_eq_nil_iff.1 hrest.symm
        rw [Option.some.injEq, List.findSome?_singleton]
        simp only
        cases hvalue : pairToken codec pair with
        | none => exact iff_congr Iff.rfl eq_comm
        | some value =>
          exact pairToken_agrees_iff hcodec hvalue

/-- The theorem at a request with the token in its query: the two agree. -/
theorem token_key_agrees_iff_query :
    KeyAgrees .reference "a b" ⟨none, none, none⟩ (some "token=a%20b") ∧
      (authorized (some "a b") ⟨none, none, none⟩ (some "a b") = true ↔
        tokenKey .reference ⟨none, none, none⟩ (some "token=a%20b") = "a b") := by
  have hquery : UrlCodec.reference.extract "token=a%20b" = some (.ofToken (some "a b")) := by decide
  have hagrees : KeyAgrees .reference "a b" ⟨none, none, none⟩ (some "token=a%20b") :=
    .inl (by decide)
  have hiff := @token_key_agrees_iff _ UrlCodec.standard_reference "a b" (by decide)
    ⟨none, none, none⟩ (some "token=a%20b") _ hquery
  exact ⟨hagrees, hiff.2 hagrees⟩

/-- The configured token in the query, with another bearer token: authorized, under another key. -/
theorem token_key_differs :
    UrlCodec.reference.extract "token=secret" = some (.ofToken (some "secret")) ∧
      tokenKey .reference (bearerHeaders "fresh") (some "token=secret") = "fresh" ∧
      ¬ (authorized (some "secret") (bearerHeaders "fresh") (some "secret") = true ↔
        tokenKey .reference (bearerHeaders "fresh") (some "token=secret") = "secret") := by
  exact ⟨by decide, by decide, by decide⟩

end Eiger
