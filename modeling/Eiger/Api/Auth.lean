import Mathlib.Algebra.GroupWithZero.Nat
import Eiger.Api.Query
import Eiger.Pool.Types

/-!
# Authorization

A request gives the token that it is authorized by in its query string or in its authorization
header. `authorized` accepts it from either place. The URL that a created session is reached at
carries a token as well, so that it can be used without the header; `request_token` chooses it, and
looks at the query string first, whatever is there.

So the URL is of use if the query has no token or the right one: `cdp_url_usable_iff`.
-/

namespace Eiger

open Url Text

/-! ## The token of a request -/

/-- What follows `Bearer ` in the authorization header. -/
def HeaderMap.bearer (headers : HeaderMap) : Option String :=
  (headers.authorization.bind HeaderValue.toStr).bind (stripPrefix · "Bearer ")

/-- `authorized`, at the token that the server is configured with. -/
def authorized (token : Option String) (headers : HeaderMap) (queryToken : Option String) : Bool :=
  match token with
  | none => true
  | some expected => queryToken = some expected || headers.bearer = some expected

/-- `request_token`. -/
def requestToken (headers : HeaderMap) (queryToken : Option String) : Option String :=
  queryToken.or headers.bearer

/-- A request is authorized by the token of its query or of its header. -/
theorem authorized_iff {token : String} {headers : HeaderMap} {queryToken : Option String} :
    authorized (some token) headers queryToken = true ↔
      queryToken = some token ∨ headers.bearer = some token := by
  simp [authorized]

/-! ## The URL of a session -/

/-- An id as it is written: 32 digits in five groups. -/
def Uuid.hyphenated (id : Uuid) : String :=
  let digits := (List.range 32).map fun place => Nat.digitChar (id / 16 ^ (31 - place) % 16)
  .ofList (digits.take 8 ++ '-' :: (digits.drop 8).take 4 ++ '-' :: (digits.drop 12).take 4 ++
    '-' :: (digits.drop 16).take 4 ++ '-' :: digits.drop 20)

example : Uuid.hyphenated 0 = "00000000-0000-0000-0000-000000000000" := by decide

/-- The host that a request names. -/
def HeaderMap.hostName (headers : HeaderMap) : String :=
  (headers.host.bind HeaderValue.toStr).getD "127.0.0.1:3000"

/-- The path of a session's CDP endpoint. -/
def cdpPath (id : Uuid) : String := "/sessions/" ++ id.hyphenated ++ "/cdp"

/-- `cdp_ws_url`. -/
def cdpWsUrl (codec : UrlCodec) (headers : HeaderMap) (id : Uuid) (queryToken : Option String) :
    String :=
  let forwardedProto := (headers.xForwardedProto.bind HeaderValue.toStr).getD "http"
  let scheme := if eqIgnoreAsciiCase forwardedProto "https" then "wss" else "ws"
  let url := scheme ++ "://" ++ headers.hostName ++ cdpPath id
  match queryToken with
  | some token => url ++ "?token=" ++ codec.encode token
  | none => url

/-- The URL that `create_session` returns. -/
def createdUrl (codec : UrlCodec) (headers : HeaderMap) (query : SessionQuery) (id : Uuid) :
    String :=
  cdpWsUrl codec headers id (requestToken headers query.token)

/-- An id is written in hyphens and digits. -/
theorem mem_hyphenated {id : Uuid} {c : Char} (hc : c ∈ id.hyphenated.toList) :
    c = '-' ∨ ∃ n < 16, c = Nat.digitChar n := by
  have hdigits : ∀ c ∈ (List.range 32).map fun place => Nat.digitChar (id / 16 ^ (31 - place) % 16),
      ∃ n < 16, c = Nat.digitChar n := by
    intro c hc
    obtain ⟨place, -, rfl⟩ := List.mem_map.1 hc
    exact ⟨_, Nat.mod_lt _ (by decide), rfl⟩
  rw [Uuid.hyphenated, String.toList_ofList] at hc
  simp only [List.mem_append, List.mem_cons] at hc
  obtain (((hc | hc | hc) | hc | hc) | hc | hc) | hc | hc := hc
  · exact .inr (hdigits c (List.mem_of_mem_take hc))
  · exact .inl hc
  · exact .inr (hdigits c (List.mem_of_mem_drop (List.mem_of_mem_take hc)))
  · exact .inl hc
  · exact .inr (hdigits c (List.mem_of_mem_drop (List.mem_of_mem_take hc)))
  · exact .inl hc
  · exact .inr (hdigits c (List.mem_of_mem_drop (List.mem_of_mem_take hc)))
  · exact .inl hc
  · exact .inr (hdigits c (List.mem_of_mem_drop hc))

/-- An id has no character that ends a path. -/
theorem endsPath_hyphenated (id : Uuid) : ∀ c ∈ id.hyphenated.toList, endsPath c = false := by
  have hdigit : ∀ n < 16, endsPath (Nat.digitChar n) = false := by decide
  intro c hc
  obtain rfl | ⟨n, hn, rfl⟩ := mem_hyphenated hc
  · rfl
  · exact hdigit n hn

/-- The URL with a token has the request's host, the path of the session and the token's
encoding. -/
theorem parse_cdpWsUrl {codec : UrlCodec} (hcodec : codec.Standard) {headers : HeaderMap}
    (hhost : ∀ c ∈ headers.hostName.toList, endsAuthority c = false) (id : Uuid) (token : String) :
    parse (cdpWsUrl codec headers id (some token)) =
      some ⟨headers.hostName, cdpPath id, some ("token=" ++ codec.encode token)⟩ := by
  have hpath : ∀ c ∈ ("sessions/" ++ id.hyphenated ++ "/cdp").toList, endsPath c = false := by
    simp only [String.toList_append, List.forall_mem_append]
    exact ⟨⟨forall_eq_false rfl, endsPath_hyphenated id⟩, forall_eq_false rfl⟩
  have hquery : '#' ∉ ("token=" ++ codec.encode token).toList := by
    rw [String.toList_append, List.mem_append, not_or]
    exact ⟨by decide, hcodec.not_mem_encode (by decide) (by decide) (by decide) token⟩
  have hwritten : cdpPath id = "/" ++ ("sessions/" ++ id.hyphenated ++ "/cdp") := by
    rw [cdpPath, ← String.toList_inj]
    simp [String.toList_append]
  have hmark : ∀ url : String, url ++ "?token=" ++ codec.encode token =
      url ++ "?" ++ ("token=" ++ codec.encode token) := by
    intro url
    rw [← String.toList_inj]
    simp [String.toList_append]
  rw [cdpWsUrl, hmark, hwritten, parse_append (by split <;> decide) hhost hpath hquery]

/-- A query of an encoded token is read as that token. -/
theorem extract_encode {codec : UrlCodec} (hcodec : codec.Standard) (token : String) :
    codec.extract ("token=" ++ codec.encode token) = some (.ofToken (some token)) := by
  apply hcodec.accepts
  have hraw : ("token=" ++ codec.encode token).toList =
      "token".toList ++ '=' :: (codec.encode token).toList := by
    rw [String.toList_append]
    rfl
  have hmark : '&' ∉ "token".toList ++ '=' :: (codec.encode token).toList := by
    rw [List.mem_append, List.mem_cons, not_or, not_or]
    exact ⟨by decide, by decide,
      hcodec.not_mem_encode (by decide) (by decide) (by decide) token⟩
  have hkey : formText codec.lossy "token" = "token" := hcodec.formText_eq (by decide)
  rw [formPairs, hraw, splitOn_single hmark, List.filter_cons_of_pos (by simp), List.filter_nil,
    List.map_singleton, rawPair_append (by decide), hkey, hcodec.formText_encode]

/-- The URL leads to the session at this host, and its query authorizes a request that has no
authorization header. -/
def CdpUrlUsable (codec : UrlCodec) (token host : String) (id : Uuid) (url : String) : Prop :=
  ∃ raw query, parse url = some ⟨host, cdpPath id, some raw⟩ ∧ codec.extract raw = some query ∧
    ∀ headers : HeaderMap, headers.authorization = none →
      authorized (some token) headers query.token = true

/-- A request without an authorization header is authorized by its query's token only. -/
theorem authorized_of_no_header {token : String} {queryToken : Option String} :
    (∀ headers : HeaderMap, headers.authorization = none →
      authorized (some token) headers queryToken = true) ↔ queryToken = some token := by
  constructor
  · intro h
    obtain htoken | hbearer := authorized_iff.1 (h ⟨none, none, none⟩ rfl)
    · exact htoken
    · cases hbearer
  · exact fun h headers _ => authorized_iff.2 (.inl h)

/-- The URL with a token is usable if the host is a plain one and the token is the right one. -/
theorem usable_cdpWsUrl_iff {codec : UrlCodec} (hcodec : codec.Standard) {headers : HeaderMap}
    {token given : String} {id : Uuid} :
    CdpUrlUsable codec token headers.hostName id (cdpWsUrl codec headers id (some given)) ↔
      (∀ c ∈ headers.hostName.toList, endsAuthority c = false) ∧ given = token := by
  constructor
  · rintro ⟨raw, query, hparse, hextract, hauth⟩
    have hhost : ∀ c ∈ headers.hostName.toList, endsAuthority c = false :=
      endsAuthority_of_parse hparse
    refine ⟨hhost, ?_⟩
    cases (parse_cdpWsUrl hcodec hhost id given).symm.trans hparse
    cases (extract_encode hcodec given).symm.trans hextract
    exact Option.some.inj (authorized_of_no_header.1 hauth)
  · rintro ⟨hhost, rfl⟩
    exact ⟨_, _, parse_cdpWsUrl hcodec hhost id given, extract_encode hcodec given,
      authorized_of_no_header.2 rfl⟩

/-- **A session's URL is usable** for a request that was authorized, if and only if the host that
the request names is a plain one and its query has no token or the right one. -/
theorem cdp_url_usable_iff {codec : UrlCodec} (hcodec : codec.Standard) (token : String)
    (headers : HeaderMap) (query : SessionQuery) (id : Uuid)
    (hauth : authorized (some token) headers query.token = true) :
    CdpUrlUsable codec token headers.hostName id (createdUrl codec headers query id) ↔
      (∀ c ∈ headers.hostName.toList, endsAuthority c = false) ∧
        (query.token = none ∨ query.token = some token) := by
  obtain ⟨given, hgiven⟩ : ∃ given, requestToken headers query.token = some given := by
    rw [← Option.isSome_iff_exists, requestToken]
    obtain hquery | hbearer := authorized_iff.1 hauth
    · rw [hquery]
      rfl
    · cases query.token <;> simp [hbearer]
  rw [createdUrl, hgiven, usable_cdpWsUrl_iff hcodec, and_congr_right_iff]
  intro _
  rw [requestToken] at hgiven
  cases hquery : query.token with
  | none =>
    rw [hquery] at hauth hgiven
    have hbearer := (authorized_iff.1 hauth).resolve_left nofun
    cases hgiven.symm.trans hbearer
    simp
  | some other =>
    rw [hquery] at hgiven
    cases hgiven
    simp

/-- The headers of a request to `eiger.local:3000` with a bearer token. -/
def bearerHeaders (token : String) : HeaderMap :=
  { authorization := some (utf8 ("Bearer " ++ token)), host := some (utf8 "eiger.local:3000")
    xForwardedProto := none }

/-- The theorem at a request with a bearer token only: its URL is usable. -/
theorem cdp_url_usable_iff_bearer :
    createdUrl .reference (bearerHeaders "secret") (.ofToken none) 0 =
        "ws://eiger.local:3000/sessions/00000000-0000-0000-0000-000000000000/cdp?token=secret" ∧
      CdpUrlUsable .reference "secret" "eiger.local:3000" 0
        (createdUrl .reference (bearerHeaders "secret") (.ofToken none) 0) := by
  have hauth : authorized (some "secret") (bearerHeaders "secret") none = true := by decide
  have hiff := cdp_url_usable_iff UrlCodec.standard_reference "secret" (bearerHeaders "secret")
    (.ofToken none) 0 hauth
  exact ⟨by decide, hiff.2 ⟨forall_eq_false rfl, .inl rfl⟩⟩

/-- A request with the right bearer token and another one in its query is authorized, and gets a
URL with the wrong token. -/
theorem cdp_url_not_usable :
    authorized (some "secret") (bearerHeaders "secret") (some "stale") = true ∧
      createdUrl .reference (bearerHeaders "secret") (.ofToken (some "stale")) 0 =
        "ws://eiger.local:3000/sessions/00000000-0000-0000-0000-000000000000/cdp?token=stale" ∧
      ¬ CdpUrlUsable .reference "secret" "eiger.local:3000" 0
        (createdUrl .reference (bearerHeaders "secret") (.ofToken (some "stale")) 0) := by
  refine ⟨by decide, by decide, fun h => ?_⟩
  have hhost : (bearerHeaders "secret").hostName = "eiger.local:3000" := by decide
  rw [← hhost] at h
  exact absurd ((usable_cdpWsUrl_iff UrlCodec.standard_reference).1 h).2 (by decide)

end Eiger
