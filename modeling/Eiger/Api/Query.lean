import Eiger.Lib.Text
import Eiger.Lib.Url

/-!
# What a request carries

The parts of a request that say who makes it: two headers and the query string. The libraries that
read a query string and that percent-encode a token are a parameter, a `UrlCodec`. What the server
relies on of them is `UrlCodec.Standard`: a query string is read as a form, in which a key occurs
once at most, and a text is percent-encoded and decoded as UTF-8. A codec that is standard is
`UrlCodec.reference`.
-/

namespace Eiger

open Url

/-- `HeaderValue`: any bytes. -/
abbrev HeaderValue := List UInt8

/-- `HeaderValue::to_str`: the text, if all bytes are visible ASCII, spaces or tabs. -/
def HeaderValue.toStr (value : HeaderValue) : Option String :=
  if value.all fun b => (32 ≤ b.toNat && b.toNat < 127) || b.toNat == 9 then
    some (.ofList (value.map fun b => Char.ofNat b.toNat))
  else none

/-- The headers that are read, each its first value. -/
structure HeaderMap where
  authorization : Option HeaderValue
  host : Option HeaderValue
  xForwardedProto : Option HeaderValue
  deriving DecidableEq, Repr

/-- `SessionQuery`. -/
structure SessionQuery where
  token : Option String
  stealth : Option Bool
  launch : Option String
  proxy : Option String
  extensionPaths : Option String
  persistentProfileId : Option String
  deriving DecidableEq, Repr

/-- The query that gives nothing but a token. -/
def SessionQuery.ofToken (token : Option String) : SessionQuery :=
  { token, stealth := none, launch := none, proxy := none, extensionPaths := none,
    persistentProfileId := none }

/-- The libraries that read and write query strings: the extractor `Query<SessionQuery>`, which
rejects some, with how it makes a text of bytes that are not UTF-8, and `urlencoding`'s two
functions, where `decode` may fail. -/
structure UrlCodec where
  extract : String → Option SessionQuery
  lossy : List UInt8 → String
  decode : String → Option String
  encode : String → String

namespace UrlCodec

/-- The values of the pairs of a form that have this key. -/
def values (codec : UrlCodec) (key raw : String) : List String :=
  ((formPairs codec.lossy raw).filter (·.1 = key)).map (·.2)

/-- What is documented of the libraries. -/
structure Standard (codec : UrlCodec) : Prop where
  /-- Bytes that are UTF-8 are read as their text. -/
  lossy : ∀ s, codec.lossy (utf8 s) = s
  /-- `decode` percent-decodes, and fails where what it gets is not UTF-8. -/
  decode : ∀ s t, codec.decode s = some t ↔ utf8 t = percentDecode (utf8 s)
  /-- `encode` percent-encodes all but unreserved characters. -/
  encode : ∀ s, utf8 (codec.encode s) = percentEncode (utf8 s)
  /-- The token of an accepted query is the value of its only pair under `token`, if it has one. -/
  token : ∀ raw query, codec.extract raw = some query →
    query.token.toList = codec.values "token" raw
  /-- A query of a single pair, under `token`, is accepted. -/
  accepts : ∀ raw value, formPairs codec.lossy raw = [("token", value)] →
    codec.extract raw = some (.ofToken (some value))

section

variable {codec : UrlCodec}

/-- A text that a form's bytes are of is what the form has. -/
theorem Standard.formText_eq (h : codec.Standard) {s t : String}
    (ht : utf8 t = formDecode (utf8 s)) : formText codec.lossy s = t := by
  rw [formText, ← ht, h.lossy]

/-- An encoded text is read back by a form. -/
theorem Standard.formText_encode (h : codec.Standard) (s : String) :
    formText codec.lossy (codec.encode s) = s :=
  h.formText_eq (by rw [h.encode, formDecode_percentEncode])

/-- No byte of an encoded text is other than unreserved or a `%`. -/
theorem Standard.not_mem_encode (h : codec.Standard) {c : Char} (hc : c.toNat < 128)
    (hreserved : isUnreserved (UInt8.ofNat c.toNat) = false) (hpercent : c ≠ '%') (s : String) :
    c ∉ (codec.encode s).toList := by
  intro hmem
  have hbyte : UInt8.ofNat c.toNat ∈ utf8 (codec.encode s) :=
    List.mem_flatMap.2 ⟨c, hmem, by rw [utf8EncodeChar_ascii hc]; exact List.mem_singleton_self _⟩
  rw [h.encode] at hbyte
  obtain hunreserved | heq := mem_percentEncode hbyte
  · exact absurd (hreserved.symm.trans hunreserved) (by decide)
  · apply hpercent
    have hcode := congrArg UInt8.toNat heq
    rw [UInt8.toNat_ofNat', Nat.mod_eq_of_lt (Nat.lt_trans hc (by decide))] at hcode
    exact Char.toNat_inj.1 hcode

end

/-- The value under a key that a form may have once. -/
def field (pairs : List (String × String)) (key : String) : Option (Option String) :=
  match pairs.filter (·.1 = key) with
  | [] => some none
  | [pair] => some (some pair.2)
  | _ => none

/-- `bool::from_str` of a value that may be missing. -/
def readBool : Option String → Option (Option Bool)
  | none => some none
  | some "true" => some (some true)
  | some "false" => some (some false)
  | some _ => none

/-- A codec that is standard. -/
def reference : UrlCodec :=
  { extract := fun raw => do
      let pairs := formPairs (fun bytes => (fromUtf8 bytes).getD "\uFFFD") raw
      return {
        token := ← field pairs "token"
        stealth := ← readBool (← field pairs "stealth")
        launch := ← field pairs "launch"
        proxy := ← field pairs "proxy"
        extensionPaths := ← field pairs "extensionPaths"
        persistentProfileId := ← field pairs "persistentProfileId" }
    lossy := fun bytes => (fromUtf8 bytes).getD "\uFFFD"
    decode := fun s => fromUtf8 (percentDecode (utf8 s))
    encode := fun s => asciiText (percentEncode (utf8 s)) }

/-- The value under a key is that of its only pair. -/
theorem toList_of_field {pairs : List (String × String)} {key : String} {value : Option String}
    (h : field pairs key = some value) :
    value.toList = (pairs.filter (·.1 = key)).map (·.2) := by
  rw [field] at h
  split at h
  · next heq =>
    cases h
    rw [heq]
    rfl
  · next heq =>
    cases h
    rw [heq]
    rfl
  · cases h

/-- The reference is standard. -/
theorem standard_reference : reference.Standard where
  lossy s := by
    show (fromUtf8 (utf8 s)).getD _ = s
    rw [fromUtf8_eq_some_iff.2 rfl]
    rfl
  decode _ _ := fromUtf8_eq_some_iff
  encode s := utf8_asciiText fun _ => toNat_lt_of_mem_percentEncode
  token raw query h := by
    simp only [reference, Option.bind_eq_bind, Option.bind_eq_some_iff] at h
    obtain ⟨token, htoken, _, _, _, _, _, _, _, _, _, _, _, _, hquery⟩ := h
    cases hquery
    exact toList_of_field htoken
  accepts raw value h := by
    simp only [reference] at h ⊢
    simp [h, field, readBool, SessionQuery.ofToken]

end UrlCodec

end Eiger
