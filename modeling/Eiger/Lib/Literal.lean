import Eiger.Lib.Text
import Mathlib.Data.List.Basic

/-!
# String literals

JSON writes a string in double quotes and escapes the quote, the backslash and the control
characters (`quote`). What it writes is a string literal of JavaScript as well: read after its
opening quote, it ends where it was closed, and its value is the string (`readLiteral_quote`).

`readLiteral` reads what a double-quoted literal of JavaScript may hold, but for octal escapes,
escapes in braces, escapes of what is no character by itself, and most continued lines.
-/

namespace Literal

open Text (hexValue)

/-! ## Writing -/

/-- A character as JSON writes it in a string. -/
def escapeChar (c : Char) : List Char :=
  if c = '"' then ['\\', '"']
  else if c = '\\' then ['\\', '\\']
  else if c = '\x08' then ['\\', 'b']
  else if c = '\t' then ['\\', 't']
  else if c = '\n' then ['\\', 'n']
  else if c = '\x0c' then ['\\', 'f']
  else if c = '\r' then ['\\', 'r']
  else if c.toNat < 32 then
    ['\\', 'u', '0', '0', Nat.digitChar (c.toNat / 16), Nat.digitChar (c.toNat % 16)]
  else [c]

/-- A string as JSON writes it. -/
def quote (s : String) : String := .ofList ('"' :: s.toList.flatMap escapeChar ++ ['"'])

/-! ## Reading -/

/-- Where a reader is in a literal: between characters, after a backslash, or in an escape with so
many digits to come. -/
inductive Mode where
  | plain
  | escape
  | hex (digits value : Nat)
  deriving DecidableEq

/-- The character that a backslash before this one stands for. -/
def unescape (c : Char) : Char :=
  if c = 'b' then '\x08'
  else if c = 'f' then '\x0c'
  else if c = 'n' then '\n'
  else if c = 'r' then '\r'
  else if c = 't' then '\t'
  else if c = 'v' then '\x0b'
  else c

/-- The value of a literal, and what follows it. -/
def readFrom : Mode → List Char → Option (List Char × List Char)
  | _, [] => none
  | .plain, c :: rest =>
    if c = '"' then some ([], rest)
    else if c = '\\' then readFrom .escape rest
    else if c = '\n' ∨ c = '\r' then none
    else (readFrom .plain rest).map fun found => (c :: found.1, found.2)
  | .escape, c :: rest =>
    if c = 'u' then readFrom (.hex 4 0) rest
    else if c = 'x' then readFrom (.hex 2 0) rest
    -- A backslash at the end of a line continues the literal on the next.
    else if c = '\n' then readFrom .plain rest
    else if c = '\r' ∨ c = '\u2028' ∨ c = '\u2029' ∨ c.isDigit then none
    else (readFrom .plain rest).map fun found => (unescape c :: found.1, found.2)
  | .hex digits value, c :: rest =>
    match hexValue c.toNat with
    | none => none
    | some d =>
      if digits = 1 then
        if (16 * value + d).isValidChar then
          (readFrom .plain rest).map fun found => (Char.ofNat (16 * value + d) :: found.1, found.2)
        else none
      else readFrom (.hex (digits - 1) (16 * value + d)) rest

/-- A literal, read after its opening quote. -/
def readLiteral (text : List Char) : Option (List Char × List Char) := readFrom .plain text

/-! ## What is written is read -/

/-- The digits of a byte below 32. -/
theorem hexValue_digitChar {n : Nat} (h : n < 16) : hexValue (Nat.digitChar n).toNat = some n := by
  have hall : ∀ n : Fin 16, hexValue (Nat.digitChar n).toNat = some n.val := by decide
  exact hall ⟨n, h⟩

/-- A digit of an escape, with more to come. -/
theorem readFrom_hex {digits value d : Nat} {c : Char} (hd : hexValue c.toNat = some d)
    (hdigits : digits ≠ 1) (rest : List Char) :
    readFrom (.hex digits value) (c :: rest)
      = readFrom (.hex (digits - 1) (16 * value + d)) rest := by
  rw [readFrom.eq_def]
  simp only [hd, if_neg hdigits]

/-- The last digit of an escape. -/
theorem readFrom_hex_one {value d : Nat} {c : Char} (hd : hexValue c.toNat = some d)
    (hvalid : (16 * value + d).isValidChar) (rest : List Char) :
    readFrom (.hex 1 value) (c :: rest)
      = (readFrom .plain rest).map
          fun found => (Char.ofNat (16 * value + d) :: found.1, found.2) := by
  rw [readFrom.eq_def]
  simp only [hd, if_pos hvalid, if_true]

/-- A character is read as it is written. -/
theorem readFrom_escapeChar (c : Char) (rest : List Char) :
    readFrom .plain (escapeChar c ++ rest)
      = (readFrom .plain rest).map fun found => (c :: found.1, found.2) := by
  unfold escapeChar
  split_ifs with hquote hback hbs htab hnl hff hcr hctrl
  · subst hquote
    rfl
  · subst hback
    rfl
  · subst hbs
    rfl
  · subst htab
    rfl
  · subst hnl
    rfl
  · subst hff
    rfl
  · subst hcr
    rfl
  · have hhigh := hexValue_digitChar (show c.toNat / 16 < 16 by omega)
    have hlow := hexValue_digitChar (show c.toNat % 16 < 16 by omega)
    -- The first two of the four digits are zeros.
    have hvalue : 16 * (16 * (16 * (16 * 0 + 0) + 0) + c.toNat / 16) + c.toNat % 16 = c.toNat := by
      omega
    show readFrom (.hex 2 (16 * (16 * 0 + 0) + 0))
      (Nat.digitChar (c.toNat / 16) :: Nat.digitChar (c.toNat % 16) :: rest) = _
    rw [readFrom_hex hhigh (by decide), readFrom_hex_one hlow (by rw [hvalue]; exact c.valid),
      hvalue, Char.ofNat_toNat]
  · rw [List.singleton_append, readFrom, if_neg hquote, if_neg hback, if_neg (by tauto)]

/-- **What JSON writes of a string is a literal of this value**, and it ends where it was closed. -/
theorem readLiteral_quote (s : String) (rest : List Char) :
    ∃ text, (quote s).toList ++ rest = '"' :: text ∧ readLiteral text = some (s.toList, rest) := by
  refine ⟨s.toList.flatMap escapeChar ++ '"' :: rest, ?_, ?_⟩
  · rw [quote, String.toList_ofList, List.cons_append, List.cons_append, List.append_assoc,
      List.singleton_append]
  · rw [readLiteral]
    induction s.toList with
    | nil => rfl
    | cons c cs ih =>
      rw [List.flatMap_cons, List.append_assoc, readFrom_escapeChar, ih, Option.map_some]

end Literal
