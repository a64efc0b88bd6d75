import Eiger.Lib.Text
import Mathlib.Data.List.Forall2
import Mathlib.Data.List.TakeWhile

/-!
# URLs and their encodings

Percent-encoding works on bytes: a text is written as UTF-8, and each byte that is not unreserved as
`%` with two digits. A query string is a form: pairs parted by `&`, each of a key and a value, where
a `+` stands for a space before the percent-encoding is undone.

`percentDecode_percentEncode` and `formDecode_percentEncode` say that both readings undo the
encoding. They are one where there is no literal `+` (`formDecode_eq`), and only there
(`not_mem_of_formDecode_eq`). What the form reading makes of a text that the other one reads is a
text as well: `exists_formDecode`.
-/

namespace Url

open Text (hexValue)

/-! ## UTF-8 -/

/-- The bytes of a text in UTF-8. -/
def utf8 (s : String) : List UInt8 := s.toList.flatMap String.utf8EncodeChar

/-- `String::from_utf8`: the text that has these bytes, if there is one. -/
def fromUtf8 (bytes : List UInt8) : Option String := String.fromUTF8? bytes.toByteArray

/-- The bytes are those that the text consists of. -/
theorem toByteArray_utf8 (s : String) : (utf8 s).toByteArray = s.toByteArray := by
  rw [← String.utf8Encode_toList, List.utf8Encode, utf8]

/-- A list of bytes is read back from its array. -/
theorem toByteArray_injective {bytes other : List UInt8}
    (h : bytes.toByteArray = other.toByteArray) : bytes = other := by
  simpa using congrArg (·.data.toList) h

/-- A text is read back from its bytes, and from no others. -/
theorem fromUtf8_eq_some_iff {bytes : List UInt8} {s : String} :
    fromUtf8 bytes = some s ↔ utf8 s = bytes := by
  rw [fromUtf8, String.fromUTF8?]
  constructor
  · intro h
    split at h
    · next hvalid =>
      cases h
      exact toByteArray_injective (toByteArray_utf8 _)
    · cases h
  · rintro rfl
    have hbytes : (utf8 s).toByteArray = s.toByteArray := toByteArray_utf8 s
    rw [dif_pos (hbytes ▸ s.isValidUTF8), Option.some.injEq, ← String.toByteArray_inj]
    exact hbytes

/-- Different texts have different bytes. -/
theorem utf8_injective {s t : String} (h : utf8 s = utf8 t) : s = t :=
  Option.some.inj ((fromUtf8_eq_some_iff.2 h).symm.trans (fromUtf8_eq_some_iff.2 rfl))

/-- The bytes of an ASCII character. -/
theorem utf8EncodeChar_ascii {c : Char} (h : c.toNat < 128) :
    String.utf8EncodeChar c = [UInt8.ofNat c.toNat] :=
  if_pos (Nat.le_of_lt_succ h)

/-- An ASCII byte is the whole of the character that it is in. -/
theorem mem_utf8EncodeChar {c : Char} {b : UInt8} (h : b ∈ String.utf8EncodeChar c)
    (hb : b.toNat < 128) : c.toNat = b.toNat := by
  unfold String.utf8EncodeChar at h
  simp only at h
  split at h
  · next hle =>
    rw [List.mem_singleton.1 h, UInt8.toNat_ofNat']
    exact (Nat.mod_eq_of_lt (Nat.lt_of_le_of_lt hle (by decide))).symm
  · split at h
    · simp only [List.mem_cons, List.not_mem_nil, or_false] at h
      obtain rfl | rfl := h <;> rw [UInt8.toNat_ofNat'] at hb <;> omega
    · split at h
      · simp only [List.mem_cons, List.not_mem_nil, or_false] at h
        obtain rfl | rfl | rfl := h <;> rw [UInt8.toNat_ofNat'] at hb <;> omega
      · simp only [List.mem_cons, List.not_mem_nil, or_false] at h
        obtain rfl | rfl | rfl | rfl := h <;> rw [UInt8.toNat_ofNat'] at hb <;> omega

/-- A text has no `+` just if its bytes have none. -/
theorem plus_not_mem_utf8 {s : String} : 0x2B ∉ utf8 s ↔ '+' ∉ s.toList := by
  rw [not_iff_not, utf8, List.mem_flatMap]
  constructor
  · rintro ⟨c, hc, hmem⟩
    have hplus : c.toNat = '+'.toNat := mem_utf8EncodeChar hmem (by decide)
    rwa [← Char.toNat_inj.1 hplus]
  · exact fun hmem => ⟨'+', hmem, by decide⟩

/-! ## Percent-encoding -/

/-- The hexadecimal digit of a value. -/
def hexDigit (n : Nat) : UInt8 := if n < 10 then UInt8.ofNat (0x30 + n) else UInt8.ofNat (0x37 + n)

/-- The byte that two digits stand for. -/
def escaped (high low : UInt8) : Option UInt8 := do
  let high ← hexValue high.toNat
  let low ← hexValue low.toNat
  return UInt8.ofNat (16 * high + low)

/-- The byte is a letter, a digit or one of `-._~`. -/
def isUnreserved (b : UInt8) : Bool :=
  let n := b.toNat
  (0x30 ≤ n && n ≤ 0x39) || (0x41 ≤ n && n ≤ 0x5A) || (0x61 ≤ n && n ≤ 0x7A) || n == 0x2D
    || n == 0x2E || n == 0x5F || n == 0x7E

/-- A byte that is written as it is if it is plain, and as its digits if not. -/
def escapeByte (plain : UInt8 → Bool) (b : UInt8) : List UInt8 :=
  if plain b then [b] else [0x25, hexDigit (b.toNat / 16), hexDigit (b.toNat % 16)]

/-- The percent-encoding of some bytes. -/
def percentEncode (bytes : List UInt8) : List UInt8 := bytes.flatMap (escapeByte isUnreserved)

/-- The bytes with percent-encoded ones put back; a `%` without two digits is left. -/
def percentDecode : List UInt8 → List UInt8
  | [] => []
  | [a] => [a]
  | [a, b] => [a, b]
  | a :: high :: low :: rest =>
    if a = 0x25 then
      match escaped high low with
      | some byte => byte :: percentDecode rest
      | none => a :: percentDecode (high :: low :: rest)
    else a :: percentDecode (high :: low :: rest)

/-- A byte other than `%` stands for itself. -/
theorem percentDecode_cons {a : UInt8} (h : a ≠ 0x25) (bytes : List UInt8) :
    percentDecode (a :: bytes) = a :: percentDecode bytes := by
  match bytes with
  | [] => rfl
  | [_] => rfl
  | _ :: _ :: _ => rw [percentDecode, if_neg h]

/-- A `%` with two digits stands for a byte. -/
theorem percentDecode_escaped {high low byte : UInt8} (h : escaped high low = some byte)
    (bytes : List UInt8) :
    percentDecode (0x25 :: high :: low :: bytes) = byte :: percentDecode bytes := by
  rw [percentDecode, if_pos rfl, h]

/-- The digit of a value has that value. -/
theorem hexValue_hexDigit {n : Nat} (h : n < 16) : hexValue (hexDigit n).toNat = some n := by
  decide +revert

/-- The digits of a byte stand for it. -/
theorem escaped_hexDigit (b : UInt8) :
    escaped (hexDigit (b.toNat / 16)) (hexDigit (b.toNat % 16)) = some b := by
  have hb : b.toNat < 256 := b.toNat_lt
  rw [escaped, hexValue_hexDigit (by omega), hexValue_hexDigit (by omega)]
  show some (UInt8.ofNat (16 * (b.toNat / 16) + b.toNat % 16)) = some b
  rw [Nat.div_add_mod, UInt8.ofNat_toNat]

/-- **Decoding undoes encoding.** -/
theorem percentDecode_percentEncode (bytes : List UInt8) :
    percentDecode (percentEncode bytes) = bytes := by
  induction bytes with
  | nil => rfl
  | cons b bytes ih =>
    rw [percentEncode, List.flatMap_cons, escapeByte]
    split
    · next hunreserved =>
      have hne : b ≠ 0x25 := by
        rintro rfl
        exact absurd hunreserved (by decide)
      rw [List.singleton_append, percentDecode_cons hne]
      exact congrArg (b :: ·) ih
    · show percentDecode (0x25 :: _ :: _ :: percentEncode bytes) = _
      rw [percentDecode_escaped (escaped_hexDigit b), ih]

/-- A digit is unreserved. -/
theorem isUnreserved_hexDigit {n : Nat} (h : n < 16) : isUnreserved (hexDigit n) = true := by
  decide +revert

/-- An encoding has unreserved bytes only, and `%`. -/
theorem mem_percentEncode {b : UInt8} {bytes : List UInt8} (h : b ∈ percentEncode bytes) :
    isUnreserved b = true ∨ b = 0x25 := by
  obtain ⟨c, -, hc⟩ := List.mem_flatMap.1 h
  have hlt : c.toNat < 256 := c.toNat_lt
  rw [escapeByte] at hc
  split at hc
  · next hunreserved =>
    rw [List.mem_singleton.1 hc]
    exact .inl hunreserved
  · simp only [List.mem_cons, List.not_mem_nil, or_false] at hc
    obtain rfl | rfl | rfl := hc
    · exact .inr rfl
    · exact .inl (isUnreserved_hexDigit (by omega))
    · exact .inl (isUnreserved_hexDigit (by omega))

/-- The code of an ASCII character is the number that it is made from. -/
theorem toNat_charOfNat {n : Nat} (h : n < 128) : (Char.ofNat n).toNat = n := by
  have hvalid : n.isValidChar := .inl (by omega)
  rw [Char.ofNat, dif_pos hvalid]
  rfl

/-- Bytes as characters, each of its own. -/
def asciiText (bytes : List UInt8) : String := .ofList (bytes.map fun b => Char.ofNat b.toNat)

/-- ASCII bytes are the UTF-8 of their characters. -/
theorem utf8_asciiText {bytes : List UInt8} (h : ∀ b ∈ bytes, b.toNat < 128) :
    utf8 (asciiText bytes) = bytes := by
  rw [utf8, asciiText, String.toList_ofList, List.flatMap_map]
  induction bytes with
  | nil => rfl
  | cons b bytes ih =>
    have hb : b.toNat < 128 := h b List.mem_cons_self
    have hchar := toNat_charOfNat hb
    rw [List.flatMap_cons, ih fun c hc => h c (List.mem_cons_of_mem _ hc),
      utf8EncodeChar_ascii (by rw [hchar]; exact hb), hchar, UInt8.ofNat_toNat]
    rfl

/-- An encoding is ASCII. -/
theorem toNat_lt_of_mem_percentEncode {b : UInt8} {bytes : List UInt8}
    (h : b ∈ percentEncode bytes) : b.toNat < 128 := by
  obtain h | rfl := mem_percentEncode h
  · simp only [isUnreserved, Bool.or_eq_true, Bool.and_eq_true, decide_eq_true_eq, beq_iff_eq] at h
    omega
  · decide

/-! ## Forms -/

/-- What a `+` of a form stands for. -/
def plusToSpace (b : UInt8) : UInt8 := if b = 0x2B then 0x20 else b

/-- The bytes that those of a form stand for. -/
def formDecode (bytes : List UInt8) : List UInt8 := percentDecode (bytes.map plusToSpace)

/-- Bytes without a `+` are left. -/
theorem map_plusToSpace {bytes : List UInt8} (h : 0x2B ∉ bytes) :
    bytes.map plusToSpace = bytes := by
  conv_rhs => rw [← List.map_id bytes]
  refine List.map_congr_left fun b hb => if_neg ?_
  rintro rfl
  exact h hb

/-- Without a `+`, the two readings are one. -/
theorem formDecode_eq {bytes : List UInt8} (h : 0x2B ∉ bytes) :
    formDecode bytes = percentDecode bytes := by
  rw [formDecode, map_plusToSpace h]

/-- **Reading a form undoes the encoding as well.** -/
theorem formDecode_percentEncode (bytes : List UInt8) :
    formDecode (percentEncode bytes) = bytes := by
  rw [formDecode_eq, percentDecode_percentEncode]
  intro hmem
  obtain h | h := mem_percentEncode hmem <;> exact absurd h (by decide)

/-- A `+` is no digit, nor is a space, so that the digits of a byte are the same. -/
theorem escaped_plusToSpace (high low : UInt8) :
    escaped (plusToSpace high) (plusToSpace low) = escaped high low := by
  have hvalue : ∀ b, hexValue (plusToSpace b).toNat = hexValue b.toNat := by
    intro b
    rw [plusToSpace]
    split
    · next h => rw [h]; rfl
    · rfl
  rw [escaped, hvalue, hvalue, escaped]

/-- The form reading of a byte other than `%`. -/
theorem formDecode_cons {a : UInt8} (h : a ≠ 0x25) (bytes : List UInt8) :
    formDecode (a :: bytes) = plusToSpace a :: formDecode bytes := by
  rw [formDecode, List.map_cons, percentDecode_cons]
  · rfl
  · rw [plusToSpace]
    split
    · decide
    · exact h

/-- The form reading of a `%`. -/
theorem formDecode_percent (high low : UInt8) (bytes : List UInt8) :
    formDecode (0x25 :: high :: low :: bytes) =
      match escaped high low with
      | some byte => byte :: formDecode bytes
      | none => 0x25 :: formDecode (high :: low :: bytes) := by
  show percentDecode (0x25 :: plusToSpace high :: plusToSpace low :: bytes.map plusToSpace) = _
  rw [percentDecode, if_pos rfl, escaped_plusToSpace]
  rfl

/-- The byte is the other one, or a space for its `+`. -/
def Blurred (a b : UInt8) : Prop := b = a ∨ a = 0x2B ∧ b = 0x20

/-- A byte that is read as one of a form is the same or a space for a `+`. -/
theorem blurred_plusToSpace (a : UInt8) : Blurred a (plusToSpace a) := by
  rw [plusToSpace]
  split
  · next h => exact .inr ⟨h, rfl⟩
  · exact .inl rfl

/-- The form reading has a space for some of the `+` of the other one. -/
theorem blurred_formDecode (bytes : List UInt8) :
    List.Forall₂ Blurred (percentDecode bytes) (formDecode bytes) := by
  induction bytes using percentDecode.induct with
  | case1 => exact .nil
  | case2 a => exact .cons (blurred_plusToSpace a) .nil
  | case3 a b => exact .cons (blurred_plusToSpace a) (.cons (blurred_plusToSpace b) .nil)
  | case4 high low rest byte hbyte ih =>
    rw [percentDecode_escaped hbyte, formDecode_percent, hbyte]
    exact .cons (.inl rfl) ih
  | case5 high low rest hnone ih =>
    rw [percentDecode, if_pos rfl, formDecode_percent, hnone]
    exact .cons (.inl rfl) ih
  | case6 a high low rest ha ih =>
    rw [percentDecode_cons ha, formDecode_cons ha]
    exact .cons (blurred_plusToSpace a) ih

/-- The digits of a byte are no `+`. -/
theorem ne_plus_of_escaped {high low byte : UInt8} (h : escaped high low = some byte) :
    high ≠ 0x2B ∧ low ≠ 0x2B := by
  rw [escaped] at h
  obtain ⟨_, hhigh, h⟩ := Option.bind_eq_some_iff.1 h
  obtain ⟨_, hlow, -⟩ := Option.bind_eq_some_iff.1 h
  constructor
  · rintro rfl
    cases hhigh
  · rintro rfl
    cases hlow

/-- A byte that stays the same in a form is no `+`. -/
theorem ne_plus_of_plusToSpace {a : UInt8} (h : plusToSpace a = a) : 0x2B ≠ a := by
  rintro rfl
  exact absurd h (by decide)

/-- **Where the two readings are one, there is no `+`.** -/
theorem not_mem_of_formDecode_eq {bytes : List UInt8} (h : formDecode bytes = percentDecode bytes) :
    0x2B ∉ bytes := by
  induction bytes using percentDecode.induct with
  | case1 => nofun
  | case2 a =>
    have ha := ne_plus_of_plusToSpace (List.cons.inj h).1
    simpa using ha
  | case3 a b =>
    obtain ⟨ha, hb⟩ := List.cons.inj h
    have ha := ne_plus_of_plusToSpace ha
    have hb := ne_plus_of_plusToSpace (List.cons.inj hb).1
    simpa using ⟨ha, hb⟩
  | case4 high low rest byte hbyte ih =>
    rw [percentDecode_escaped hbyte, formDecode_percent, hbyte] at h
    obtain ⟨hhigh, hlow⟩ := ne_plus_of_escaped hbyte
    simpa using ⟨hhigh.symm, hlow.symm, ih (List.cons.inj h).2⟩
  | case5 high low rest hnone ih =>
    rw [percentDecode, if_pos rfl, formDecode_percent, hnone] at h
    simpa using ih (List.cons.inj h).2
  | case6 a high low rest ha ih =>
    rw [percentDecode_cons ha, formDecode_cons ha] at h
    obtain ⟨ha, h⟩ := List.cons.inj h
    rw [List.mem_cons, not_or]
    exact ⟨ne_plus_of_plusToSpace ha, ih h⟩

/-- Bytes without a `+` are left as they are. -/
theorem eq_of_blurred {bytes other : List UInt8} (h : List.Forall₂ Blurred bytes other)
    (hplus : 0x2B ∉ bytes) : other = bytes := by
  induction h with
  | nil => rfl
  | cons hab _ ih =>
    rw [List.mem_cons, not_or] at hplus
    obtain rfl | ⟨rfl, -⟩ := hab
    · rw [ih hplus.2]
    · exact (hplus.1 rfl).elim

/-- A `+` is a character of its own, and so is a space. -/
theorem exists_blurred_char {c : Char} {bytes : List UInt8}
    (h : List.Forall₂ Blurred (String.utf8EncodeChar c) bytes) :
    ∃ d, String.utf8EncodeChar d = bytes := by
  by_cases hmem : 0x2B ∈ String.utf8EncodeChar c
  · have hc : c.toNat = '+'.toNat := mem_utf8EncodeChar hmem (by decide)
    obtain rfl := Char.toNat_inj.1 hc
    cases h with
    | cons hab hnil =>
      cases hnil
      obtain rfl | ⟨-, rfl⟩ := hab
      · exact ⟨'+', rfl⟩
      · exact ⟨' ', rfl⟩
  · exact ⟨c, (eq_of_blurred h hmem).symm⟩

/-- Blurred, a text is a text still. -/
theorem exists_blurred {cs : List Char} {bytes : List UInt8}
    (h : List.Forall₂ Blurred (cs.flatMap String.utf8EncodeChar) bytes) :
    ∃ ds : List Char, ds.flatMap String.utf8EncodeChar = bytes := by
  induction cs generalizing bytes with
  | nil =>
    cases h
    exact ⟨[], rfl⟩
  | cons c cs ih =>
    rw [List.flatMap_cons] at h
    have hfirst := List.forall₂_take_append _ _ _ h.flip
    have hrest := List.forall₂_drop_append _ _ _ h.flip
    obtain ⟨d, hd⟩ := exists_blurred_char hfirst.flip
    obtain ⟨ds, hds⟩ := ih hrest.flip
    exact ⟨d :: ds, by rw [List.flatMap_cons, hd, hds, List.take_append_drop]⟩

/-- **What the form reading makes of a text is a text**, where the other reading finds one. -/
theorem exists_formDecode {s t : String} (h : utf8 t = percentDecode (utf8 s)) :
    ∃ u, utf8 u = formDecode (utf8 s) := by
  obtain ⟨ds, hds⟩ := exists_blurred (h ▸ blurred_formDecode (utf8 s))
  exact ⟨String.ofList ds, by rw [utf8, String.toList_ofList, hds]⟩

/-! ## Writing forms -/

/-- The byte is a letter, a digit or one of `*-._`. -/
def isFormPlain (b : UInt8) : Bool :=
  let n := b.toNat
  (0x30 ≤ n && n ≤ 0x39) || (0x41 ≤ n && n ≤ 0x5A) || (0x61 ≤ n && n ≤ 0x7A) || n == 0x2A
    || n == 0x2D || n == 0x2E || n == 0x5F

/-- How a form writes a byte: a space as a `+`. -/
def formEncodeByte (b : UInt8) : List UInt8 :=
  if b = 0x20 then [0x2B] else escapeByte isFormPlain b

/-- How a form writes some bytes. -/
def formEncode (bytes : List UInt8) : List UInt8 := bytes.flatMap formEncodeByte

/-- **Forms are read as they are written.** -/
theorem formDecode_formEncode (bytes : List UInt8) : formDecode (formEncode bytes) = bytes := by
  induction bytes with
  | nil => rfl
  | cons b bytes ih =>
    rw [formEncode, List.flatMap_cons, formEncodeByte]
    split
    · next hspace =>
      rw [List.singleton_append, formDecode_cons (by decide), hspace]
      exact congrArg (plusToSpace 0x2B :: ·) ih
    · rw [escapeByte]
      split
      · next hplain =>
        have hpercent : b ≠ 0x25 := by
          rintro rfl
          exact absurd hplain (by decide)
        have hplus : b ≠ 0x2B := by
          rintro rfl
          exact absurd hplain (by decide)
        rw [List.singleton_append, formDecode_cons hpercent, plusToSpace, if_neg hplus]
        exact congrArg (b :: ·) ih
      · show formDecode (0x25 :: _ :: _ :: formEncode bytes) = _
        rw [formDecode_percent, escaped_hexDigit, ih]

/-- A digit is plain in a form. -/
theorem isFormPlain_hexDigit {n : Nat} (h : n < 16) : isFormPlain (hexDigit n) = true := by
  decide +revert

/-- What a form is written in. -/
theorem mem_formEncode {b : UInt8} {bytes : List UInt8} (h : b ∈ formEncode bytes) :
    isFormPlain b = true ∨ b = 0x2B ∨ b = 0x25 := by
  obtain ⟨c, -, hc⟩ := List.mem_flatMap.1 h
  have hlt : c.toNat < 256 := c.toNat_lt
  rw [formEncodeByte] at hc
  split at hc
  · exact .inr (.inl (List.mem_singleton.1 hc))
  · rw [escapeByte] at hc
    split at hc
    · next hplain =>
      rw [List.mem_singleton.1 hc]
      exact .inl hplain
    · simp only [List.mem_cons, List.not_mem_nil, or_false] at hc
      obtain rfl | rfl | rfl := hc
      · exact .inr (.inr rfl)
      · exact .inl (isFormPlain_hexDigit (by omega))
      · exact .inl (isFormPlain_hexDigit (by omega))

/-- A form is ASCII. -/
theorem toNat_lt_of_mem_formEncode {b : UInt8} {bytes : List UInt8} (h : b ∈ formEncode bytes) :
    b.toNat < 128 := by
  obtain h | rfl | rfl := mem_formEncode h
  · simp only [isFormPlain, Bool.or_eq_true, Bool.and_eq_true, decide_eq_true_eq, beq_iff_eq] at h
    omega
  · decide
  · decide

/-- How a form writes a text. -/
def formWritten (s : String) : String := asciiText (formEncode (utf8 s))

/-- It has none of the marks of a query string. -/
theorem not_mem_formWritten {c : Char} (hc : c.toNat < 128)
    (hplain : isFormPlain (UInt8.ofNat c.toNat) = false) (hplus : c ≠ '+') (hpercent : c ≠ '%')
    (s : String) : c ∉ (formWritten s).toList := by
  intro hmem
  rw [formWritten, asciiText, String.toList_ofList, List.mem_map] at hmem
  obtain ⟨b, hb, rfl⟩ := hmem
  have hcode : (Char.ofNat b.toNat).toNat = b.toNat :=
    toNat_charOfNat (toNat_lt_of_mem_formEncode hb)
  rw [hcode, UInt8.ofNat_toNat] at hplain
  obtain h | rfl | rfl := mem_formEncode hb
  · rw [hplain] at h
    cases h
  · exact hplus rfl
  · exact hpercent rfl

/-! ## Query strings -/

/-- What is taken up to the first character that stops. -/
theorem takeWhile_stop {α : Type*} {p : α → Bool} {l r : List α} {b : α} (hl : ∀ a ∈ l, p a = true)
    (hb : p b = false) : (l ++ b :: r).takeWhile p = l := by
  rw [List.takeWhile_append_of_pos hl, List.takeWhile_cons_of_neg (by simp [hb]), List.append_nil]

/-- What is left from the first character that stops. -/
theorem dropWhile_stop {α : Type*} {p : α → Bool} {l r : List α} {b : α} (hl : ∀ a ∈ l, p a = true)
    (hb : p b = false) : (l ++ b :: r).dropWhile p = b :: r := by
  rw [List.dropWhile_append_of_pos hl, List.dropWhile_cons_of_neg (by simp [hb])]

/-- The parts of a text before and after its first `c`: all of it and nothing, if there is none. -/
def splitOnce (c : Char) (cs : List Char) : List Char × List Char :=
  (cs.takeWhile (· ≠ c), (cs.dropWhile (· ≠ c)).drop 1)

/-- The key and the value of a pair, as they are written. -/
def rawPair (pair : List Char) : String × String :=
  (.ofList (splitOnce '=' pair).1, .ofList (splitOnce '=' pair).2)

/-- The pairs of a query string, as they are written. -/
def rawPairs (raw : String) : List (String × String) := (raw.toList.splitOn '&').map rawPair

/-- A text of a form, as bytes are read as texts. -/
def formText (lossy : List UInt8 → String) (s : String) : String := lossy (formDecode (utf8 s))

/-- The pairs of a form: those of its query string that are not empty, decoded. -/
def formPairs (lossy : List UInt8 → String) (raw : String) : List (String × String) :=
  ((raw.toList.splitOn '&').filter (· ≠ [])).map fun pair =>
    (formText lossy (rawPair pair).1, formText lossy (rawPair pair).2)

/-- A text without `&` is not split. -/
theorem splitOn_single {cs : List Char} (h : '&' ∉ cs) : cs.splitOn '&' = [cs] := by
  rw [List.splitOn, List.splitOnP_eq_singleton]
  intro c hc
  rw [beq_eq_false_iff_ne]
  rintro rfl
  exact h hc

/-- The pair that is written of a key without `=` and a value. -/
theorem rawPair_append {key : String} (h : '=' ∉ key.toList) (value : String) :
    rawPair (key.toList ++ '=' :: value.toList) = (key, value) := by
  have hkey : ∀ c ∈ key.toList, decide (c ≠ '=') = true := fun c hc => by
    rw [decide_eq_true_eq]
    rintro rfl
    exact h hc
  rw [rawPair, splitOnce, takeWhile_stop hkey (by decide), dropWhile_stop hkey (by decide)]
  simp

/-- The pairs of a form under a key other than the empty one are those written under a text of that
key. -/
theorem formPairs_filter {lossy : List UInt8 → String} {key : String}
    (h : formText lossy "" ≠ key) (raw : String) :
    (formPairs lossy raw).filter (·.1 = key) =
      ((rawPairs raw).filter (formText lossy ·.1 = key)).map fun pair =>
        (formText lossy pair.1, formText lossy pair.2) := by
  rw [formPairs, rawPairs, List.filter_map, List.filter_filter, List.filter_map, List.map_map]
  congr 1
  refine List.filter_congr fun pair _ => ?_
  cases pair with
  | nil =>
    have hkey : (rawPair []).1 = "" := rfl
    simpa [hkey] using h
  | cons c pair => simp

/-! ## The parts of a URL -/

/-- The parts of a URL after its scheme. -/
structure Parts where
  authority : String
  path : String
  query : Option String
  deriving DecidableEq, Repr

/-- The character ends the authority of a URL. -/
def endsAuthority (c : Char) : Bool := c = '/' || c = '?' || c = '#'

/-- The character ends the path of a URL. -/
def endsPath (c : Char) : Bool := c = '?' || c = '#'

/-- The parts of what follows `://` in a URL. -/
def parts (cs : List Char) : Parts :=
  let rest := cs.dropWhile (!endsAuthority ·)
  { authority := .ofList (cs.takeWhile (!endsAuthority ·))
    path := .ofList (rest.takeWhile (!endsPath ·))
    query :=
      match rest.dropWhile (!endsPath ·) with
      | '?' :: query => some (.ofList (query.takeWhile (· ≠ '#')))
      | _ => none }

/-- The parts of a URL with a scheme and an authority. -/
def parse (url : String) : Option Parts :=
  match url.toList.dropWhile (· ≠ ':') with
  | ':' :: '/' :: '/' :: rest => some (parts rest)
  | _ => none

/-- The authority of a URL has none of the characters that end it. -/
theorem endsAuthority_of_parse {url : String} {parts : Parts} (h : parse url = some parts) :
    ∀ c ∈ parts.authority.toList, endsAuthority c = false := by
  rw [parse] at h
  split at h
  · next rest _ =>
    cases h
    intro c hc
    have hc : c ∈ rest.takeWhile (!endsAuthority ·) := by simpa [parts] using hc
    simpa using List.mem_takeWhile_imp hc
  · cases h

/-- The parts that a URL is written from are read back. -/
theorem parse_append {scheme host path query : String} (hscheme : ':' ∉ scheme.toList)
    (hhost : ∀ c ∈ host.toList, endsAuthority c = false)
    (hpath : ∀ c ∈ path.toList, endsPath c = false) (hquery : '#' ∉ query.toList) :
    parse (scheme ++ "://" ++ host ++ ("/" ++ path) ++ "?" ++ query) =
      some ⟨host, "/" ++ path, some query⟩ := by
  have hhost : ∀ c ∈ host.toList, (!endsAuthority c) = true := fun c hc => by simp [hhost c hc]
  have hpath : ∀ c ∈ '/' :: path.toList, (!endsPath c) = true := by
    rw [List.forall_mem_cons]
    exact ⟨rfl, fun c hc => by simp [hpath c hc]⟩
  have hscheme : ∀ c ∈ scheme.toList, decide (c ≠ ':') = true := fun c hc => by
    rw [decide_eq_true_eq]
    rintro rfl
    exact hscheme hc
  have hquery : query.toList.takeWhile (· ≠ '#') = query.toList := by
    rw [List.takeWhile_eq_self_iff]
    intro c hc
    rw [decide_eq_true_eq]
    rintro rfl
    exact hquery hc
  have hurl : (scheme ++ "://" ++ host ++ ("/" ++ path) ++ "?" ++ query).toList =
      scheme.toList ++ ':' :: '/' :: '/' :: (host.toList ++ '/' :: (path.toList ++
        '?' :: query.toList)) := by
    simp [String.toList_append]
  have hrest : '/' :: (path.toList ++ '?' :: query.toList) =
      ('/' :: path.toList) ++ '?' :: query.toList := rfl
  have hslash : (!endsAuthority '/') = false := rfl
  have hmark : (!endsPath '?') = false := rfl
  rw [parse, hurl, dropWhile_stop hscheme rfl]
  simp only [parts, takeWhile_stop hhost hslash, dropWhile_stop hhost hslash]
  rw [hrest, takeWhile_stop hpath hmark, dropWhile_stop hpath hmark]
  have hwritten : String.ofList ('/' :: path.toList) = "/" ++ path := by
    rw [← String.toList_inj]
    simp [String.toList_append]
  simp only [hquery, String.ofList_toList, hwritten]

/-- So are those of a URL without a query. -/
theorem parse_append_path {scheme host path : String} (hscheme : ':' ∉ scheme.toList)
    (hhost : ∀ c ∈ host.toList, endsAuthority c = false)
    (hpath : ∀ c ∈ path.toList, endsPath c = false) :
    parse (scheme ++ "://" ++ host ++ ("/" ++ path)) = some ⟨host, "/" ++ path, none⟩ := by
  have hhost : ∀ c ∈ host.toList, (!endsAuthority c) = true := fun c hc => by simp [hhost c hc]
  have hpath : ∀ c ∈ '/' :: path.toList, (!endsPath c) = true := by
    rw [List.forall_mem_cons]
    exact ⟨rfl, fun c hc => by simp [hpath c hc]⟩
  have hscheme : ∀ c ∈ scheme.toList, decide (c ≠ ':') = true := fun c hc => by
    rw [decide_eq_true_eq]
    rintro rfl
    exact hscheme hc
  have hurl : (scheme ++ "://" ++ host ++ ("/" ++ path)).toList =
      scheme.toList ++ ':' :: '/' :: '/' :: (host.toList ++ '/' :: path.toList) := by
    simp [String.toList_append]
  have hslash : (!endsAuthority '/') = false := rfl
  have hwritten : String.ofList ('/' :: path.toList) = "/" ++ path := by
    rw [← String.toList_inj, String.toList_ofList, String.toList_append]
    rfl
  rw [parse, hurl, dropWhile_stop hscheme rfl]
  simp only [parts, takeWhile_stop hhost hslash, dropWhile_stop hhost hslash,
    List.takeWhile_eq_self_iff.2 hpath, List.dropWhile_eq_nil_iff.2 hpath, String.ofList_toList,
    hwritten]

example : parse "ws://h:1/a/b?x=1&y#z" = some ⟨"h:1", "/a/b", some "x=1&y"⟩ := by decide

end Url
