import Eiger.Lib.Replace

/-!
# Unicode text

The operations on strings that Rust's `str` has and Lean's `String` has not, or has with another
meaning: whitespace is the Unicode property `White_Space`, not the four ASCII blanks.
-/

namespace Text

/-- `char::is_whitespace`: the Unicode property `White_Space`. -/
def isWhitespace (c : Char) : Bool :=
  let n := c.toNat
  (0x9 ≤ n && n ≤ 0xD) || n == 0x20 || n == 0x85 || n == 0xA0 || n == 0x1680
    || (0x2000 ≤ n && n ≤ 0x200A) || n == 0x2028 || n == 0x2029 || n == 0x202F || n == 0x205F
    || n == 0x3000

/-- The value of a hexadecimal digit, by its code. -/
def hexValue (code : Nat) : Option Nat :=
  if 0x30 ≤ code ∧ code ≤ 0x39 then some (code - 0x30)
  else if 0x41 ≤ code ∧ code ≤ 0x46 then some (code - 0x37)
  else if 0x61 ≤ code ∧ code ≤ 0x66 then some (code - 0x57)
  else none

/-- The characters of a text without the whitespace at its two ends. -/
def trimChars (cs : List Char) : List Char :=
  ((cs.dropWhile isWhitespace).reverse.dropWhile isWhitespace).reverse

/-- `str::trim`. -/
def trim (s : String) : String := String.ofList (trimChars s.toList)

/-- The text has nothing but whitespace. -/
def isBlank (s : String) : Bool := trim s = ""

/-- `str::starts_with` at a string pattern. -/
def startsWith (s p : String) : Bool := p.toList.isPrefixOf s.toList

/-- `str::strip_prefix` at a string pattern. -/
def stripPrefix (s p : String) : Option String :=
  if startsWith s p then some (.ofList (s.toList.drop p.toList.length)) else none

/-- `str::to_ascii_lowercase`. -/
def toAsciiLowercase (s : String) : String := .ofList (s.toList.map Char.toLower)

/-- `str::eq_ignore_ascii_case`. -/
def eqIgnoreAsciiCase (s t : String) : Bool := s.toList.map Char.toLower = t.toList.map Char.toLower

/-- `str::replace` at a string pattern that is not empty. -/
def replaceAll (s p new : String) : String :=
  .ofList (Replace.replaceAll p.toList new.toList s.toList)

/-- `str::replace` at a character. -/
def replaceChar (s : String) (c : Char) (new : String) : String :=
  .ofList (s.toList.flatMap fun d => if d = c then new.toList else [d])

/-- `str::split_whitespace`. -/
def splitWhitespace (s : String) : List String :=
  ((s.toList.splitOnP isWhitespace).map String.ofList).filter (· ≠ "")

/-- `str::split` at a comma, the parts trimmed and those that are empty left out. -/
def commaSeparated (s : String) : List String :=
  ((s.toList.splitOn ',').map fun part => trim (.ofList part)).filter (· ≠ "")

/-- `str::split` at a character. -/
def splitChar (c : Char) (s : String) : List String := (s.toList.splitOn c).map String.ofList

/-- The first of `str::lines`, without the end of the line. -/
def firstLine (s : String) : Option String :=
  if s = "" then none
  else
    let line := s.toList.takeWhile (· ≠ '\n')
    -- A carriage return belongs to the end of the line before a line feed only.
    some (.ofList (if line.length < s.toList.length ∧ line.getLast? = some '\r' then line.dropLast
      else line))

/-- `str::lines`: the parts between line feeds, without a carriage return before a line feed; there
is no line after the last line feed. -/
def lines (s : String) : List String :=
  let parts := s.toList.splitOn '\n'
  let ended := parts.dropLast.map fun part =>
    if part.getLast? = some '\r' then part.dropLast else part
  (ended ++ parts.getLast?.toList.filter (· ≠ [])).map String.ofList

/-- `FromStr` of an unsigned integer type with `bound` values: decimal digits, after a `+` or
none. -/
def parseUnsigned (bound : Nat) (s : String) : Option Nat :=
  let digits := if startsWith s "+" then s.toList.drop 1 else s.toList
  if digits = [] ∨ ¬ digits.all Char.isDigit then none
  else
    let n := digits.foldl (fun n c => 10 * n + (c.toNat - 48)) 0
    if n < bound then some n else none

/-- Digits without a sign before them, if there is one. -/
def dropSign : List Char → List Char
  | '+' :: cs => cs
  | '-' :: cs => cs
  | cs => cs

/-- The text is one that `FromStr` of a floating-point type accepts: infinity, no number, or decimal
digits, possibly with a point among them, and possibly with an exponent. -/
def isFloat (s : String) : Bool :=
  let number := dropSign (s.toList.map Char.toLower)
  let mantissa := number.takeWhile (· ≠ 'e')
  let whole := mantissa.takeWhile Char.isDigit
  let exponent := (number.dropWhile (· ≠ 'e')).drop 1
  String.ofList number ∈ ["inf", "infinity", "nan"] ||
    ((match mantissa.dropWhile Char.isDigit with
      | [] => whole ≠ []
      | '.' :: fraction => fraction.all Char.isDigit && (whole ≠ [] || fraction ≠ [])
      | _ => false) &&
    (!number.contains 'e' || (dropSign exponent ≠ [] && (dropSign exponent).all Char.isDigit)))

/-- A text has no such character where a search finds none. -/
theorem forall_eq_false {s : String} {p : Char → Bool} (h : s.toList.any p = false) :
    ∀ c ∈ s.toList, p c = false := by
  intro c hc
  exact Bool.eq_false_iff.2 (List.any_eq_false.1 h c hc)

/-- What a text starts with. -/
theorem startsWith_iff {s p : String} : startsWith s p = true ↔ p.toList <+: s.toList :=
  List.isPrefixOf_iff_prefix

/-- A text with one start does not have another start, unless one goes on as the other. -/
theorem startsWith_eq_false {s p q : String} (hs : q.toList <+: s.toList)
    (hpq : ¬ p.toList <+: q.toList) (hqp : ¬ q.toList <+: p.toList) : startsWith s p = false := by
  rw [Bool.eq_false_iff, ne_eq, startsWith_iff]
  intro hp
  obtain h | h := List.prefix_or_prefix_of_prefix hp hs
  · exact hpq h
  · exact hqp h

/-- A number is written in digits. -/
theorem isDigit_of_mem_repr {c : Char} {n : Nat} (h : c ∈ (Nat.repr n).toList) :
    c.isDigit = true := by
  rw [Nat.toList_repr] at h
  exact Nat.isDigit_of_mem_toDigits (by decide) (by decide) h

/-- It has no other character. -/
theorem not_mem_repr {c : Char} (hc : c.isDigit = false) (n : Nat) : c ∉ (Nat.repr n).toList :=
  fun h => Bool.false_ne_true (hc.symm.trans (isDigit_of_mem_repr h))

/-- Digits without a sign are read as a number that has its place. -/
theorem parseUnsigned_of_digits {bound : Nat} {s : String} (hne : s.toList ≠ [])
    (hdigits : ∀ c ∈ s.toList, c.isDigit = true)
    (hbound : s.toList.foldl (fun n c => 10 * n + (c.toNat - 48)) 0 < bound) :
    parseUnsigned bound s = some (s.toList.foldl (fun n c => 10 * n + (c.toNat - 48)) 0) := by
  have hplus : startsWith s "+" = false := by
    rw [Bool.eq_false_iff, ne_eq, startsWith_iff]
    intro hstart
    have hdigit := hdigits '+' (hstart.subset List.mem_cons_self)
    exact absurd hdigit (by decide)
  rw [parseUnsigned, hplus, if_neg Bool.false_ne_true]
  simp only [hbound, if_true]
  refine if_neg ?_
  rintro (hnil | hall)
  · exact hne hnil
  · exact hall (List.all_eq_true.2 hdigits)

/-- The value of the digits of a number. -/
theorem foldl_repr (n : Nat) :
    (Nat.repr n).toList.foldl (fun n c => 10 * n + (c.toNat - 48)) 0 = n := by
  rw [Nat.toList_repr]
  exact (Nat.ofDigitChars_eq_foldl.symm.trans Nat.ofDigitChars_ten_toDigits :)

/-- A number is read back as it is written. -/
theorem parseUnsigned_repr {bound n : Nat} (h : n < bound) :
    parseUnsigned bound (Nat.repr n) = some n := by
  have hne : (Nat.repr n).toList ≠ [] := by
    rw [Nat.toList_repr]
    exact List.ne_nil_of_length_pos Nat.length_toDigits_pos
  have hbound : (Nat.repr n).toList.foldl (fun n c => 10 * n + (c.toNat - 48)) 0 < bound := by
    rw [foldl_repr]
    exact h
  rw [parseUnsigned_of_digits hne (fun _ => isDigit_of_mem_repr) hbound, foldl_repr]

/-- The value of digits grows with each digit. -/
theorem foldl_digits_le (digits : List Char) (n : Nat) :
    n ≤ digits.foldl (fun n c => 10 * n + (c.toNat - 48)) n := by
  induction digits generalizing n with
  | nil => exact Nat.le_refl n
  | cons c digits ih =>
    calc n ≤ 10 * n + (c.toNat - 48) := by omega
      _ ≤ _ := ih _

/-- The first of the digits of a number are those of a smaller one. -/
theorem parseUnsigned_digits {bound n : Nat} {digits : List Char} (hn : n < bound)
    (hdigits : digits <+: (Nat.repr n).toList) (hne : digits ≠ []) :
    ∃ m, parseUnsigned bound (.ofList digits) = some m := by
  have hbound : digits.foldl (fun n c => 10 * n + (c.toNat - 48)) 0 < bound := by
    have hvalue := foldl_repr n
    obtain ⟨rest, hrest⟩ := hdigits
    rw [← hrest, List.foldl_append] at hvalue
    have hle := foldl_digits_le rest (digits.foldl (fun n c => 10 * n + (c.toNat - 48)) 0)
    omega
  have hdigit : ∀ c ∈ digits, c.isDigit = true :=
    fun c hc => isDigit_of_mem_repr (hdigits.subset hc)
  rw [← @String.toList_ofList digits] at hne hdigit hbound
  exact ⟨_, parseUnsigned_of_digits hne hdigit hbound⟩

/-- A text without a line feed is its own first line. -/
theorem firstLine_single {s : String} (hne : s ≠ "") (hs : '\n' ∉ s.toList) :
    firstLine s = some s := by
  have hpass : s.toList.takeWhile (· ≠ '\n') = s.toList := by
    rw [← List.append_nil s.toList, List.takeWhile_append_of_pos, List.takeWhile_nil]
    intro c hc
    exact decide_eq_true fun h => hs (h ▸ hc)
  rw [firstLine, if_neg hne]
  simp only [hpass]
  rw [if_neg fun h => Nat.lt_irrefl _ h.1, String.ofList_toList]

/-- The first line of a text is what is before its first line feed. -/
theorem firstLine_append {line : String} (rest : String) (hline : '\n' ∉ line.toList)
    (hreturn : line.toList.getLast? ≠ some '\r') :
    firstLine (line ++ "\n" ++ rest) = some line := by
  have htext : (line ++ "\n" ++ rest).toList = line.toList ++ '\n' :: rest.toList := by
    simp [String.toList_append]
  have hne : line ++ "\n" ++ rest ≠ "" := by
    rw [ne_eq, ← String.toList_inj, htext]
    exact List.append_ne_nil_of_right_ne_nil _ (List.cons_ne_nil _ _)
  have hbefore : (line.toList ++ '\n' :: rest.toList).takeWhile (· ≠ '\n') = line.toList := by
    have hpass : ∀ c ∈ line.toList, decide (c ≠ '\n') = true := by
      intro c hc
      exact decide_eq_true fun h => hline (h ▸ hc)
    rw [List.takeWhile_append_of_pos hpass, List.takeWhile_cons_of_neg (by simp), List.append_nil]
  rw [firstLine, if_neg hne, htext]
  simp only [hbefore]
  rw [if_neg fun h => hreturn h.2, String.ofList_toList]

/-- A trimmed text has no other characters. -/
theorem mem_of_mem_trim {c : Char} {s : String} (h : c ∈ (trim s).toList) : c ∈ s.toList := by
  rw [trim, String.toList_ofList, trimChars, List.mem_reverse] at h
  have hfront := (List.dropWhile_sublist _).subset h
  exact (List.dropWhile_sublist _).subset (List.mem_reverse.1 hfront)

/-- No part of a split text has the character it is split at. -/
theorem not_mem_of_mem_splitOn {c : Char} {cs : List Char} :
    ∀ part ∈ cs.splitOn c, c ∉ part := by
  induction cs with
  | nil => simp [List.splitOn_nil]
  | cons d cs ih =>
    obtain ⟨first, rest, hsplit⟩ := List.exists_cons_of_ne_nil (List.splitOn_ne_nil c cs)
    rw [List.splitOn_cons_eq_if_modifyHead]
    rw [hsplit, List.forall_mem_cons] at ih
    split
    · next =>
      rw [hsplit, List.forall_mem_cons, List.forall_mem_cons]
      exact ⟨List.not_mem_nil, ih⟩
    · next hd =>
      rw [hsplit, List.modifyHead_cons, List.forall_mem_cons]
      refine ⟨fun hmem => ?_, ih.2⟩
      obtain rfl | hmem := List.mem_cons.1 hmem
      · exact hd (beq_self_eq_true _)
      · exact ih.1 hmem

/-- A text is what its parts between a character are joined to. -/
theorem intercalate_splitChar {c : Char} {sep : String} (hsep : sep.toList = [c]) (s : String) :
    sep.intercalate (splitChar c s) = s := by
  rw [← String.toList_inj, String.toList_intercalate, hsep, splitChar, List.map_map]
  have hparts : (s.toList.splitOn c).map (String.toList ∘ String.ofList) = s.toList.splitOn c :=
    (List.map_congr_left fun part _ => String.toList_ofList).trans (List.map_id _)
  rw [hparts, List.intercalate_splitOn]

/-- Texts that are joined at a character are what the result splits into at it, just where none of
them has the character. -/
theorem splitChar_intercalate_iff {c : Char} {sep : String} {parts : List String}
    (hsep : sep.toList = [c]) (hne : parts ≠ []) :
    splitChar c (sep.intercalate parts) = parts ↔ ∀ part ∈ parts, c ∉ part.toList := by
  constructor
  · intro h part hpart
    rw [← h] at hpart
    obtain ⟨cs, hcs, rfl⟩ := List.mem_map.1 hpart
    rw [String.toList_ofList]
    exact not_mem_of_mem_splitOn cs hcs
  · intro h
    have hchars : ∀ part ∈ parts.map String.toList, c ∉ part := by
      intro part hpart
      obtain ⟨text, htext, rfl⟩ := List.mem_map.1 hpart
      exact h text htext
    rw [splitChar, String.toList_intercalate, hsep,
      List.splitOn_intercalate c hchars (by simpa using hne), List.map_map]
    exact (List.map_congr_left fun part _ => String.ofList_toList).trans (List.map_id _)

end Text
