import Eiger.Lib.Escape

/-!
# A reader of HTML

A browser reads a page as a row of tokens: text, which ends where a tag opens, and tags, in which a
double-quoted value ends at the next double quote. Character references are decoded in text and in
values, in one pass from the left.

`escape` writes a text so that nothing of it opens a tag or ends a value (`not_mem_escape`), and so
that it is decoded as it was (`decode_escape`).
-/

namespace Markup

/-! ## Character references -/

/-- The references that a text is written with. -/
def references : List (List Char) :=
  ["&amp;".toList, "&lt;".toList, "&gt;".toList, "&quot;".toList]

/-- How a character is written. -/
def word (c : Char) : List Char :=
  if c = '&' then "&amp;".toList
  else if c = '<' then "&lt;".toList
  else if c = '>' then "&gt;".toList
  else if c = '"' then "&quot;".toList
  else [c]

/-- How a text is written. -/
def escape (text : List Char) : List Char := text.flatMap word

/-- Decodes the references of a text in one pass from the left. -/
def decode : List Char → List Char
  | '&' :: 'a' :: 'm' :: 'p' :: ';' :: rest => '&' :: decode rest
  | '&' :: 'l' :: 't' :: ';' :: rest => '<' :: decode rest
  | '&' :: 'g' :: 't' :: ';' :: rest => '>' :: decode rest
  | '&' :: 'q' :: 'u' :: 'o' :: 't' :: ';' :: rest => '"' :: decode rest
  | c :: rest => c :: decode rest
  | [] => []

/-- A character that is written with a reference, or as itself. -/
theorem word_cases {motive : Char → List Char → Prop} (amp : motive '&' "&amp;".toList)
    (lt : motive '<' "&lt;".toList) (gt : motive '>' "&gt;".toList)
    (quot : motive '"' "&quot;".toList)
    (plain : ∀ c, c ≠ '&' → c ≠ '<' → c ≠ '>' → c ≠ '"' → motive c [c]) (c : Char) :
    motive c (word c) := by
  unfold word
  split
  · next h => exact h ▸ amp
  · split
    · next h => exact h ▸ lt
    · split
      · next h => exact h ▸ gt
      · split
        · next h => exact h ▸ quot
        · exact plain c ‹_› ‹_› ‹_› ‹_›

/-- What does not start a reference is decoded as it is. -/
theorem decode_cons {c : Char} (h : c ≠ '&') (rest : List Char) :
    decode (c :: rest) = c :: decode rest := by
  rw [decode]
  all_goals
    intro
    intros
    simp_all

/-- A word is decoded to its character. -/
theorem decode_word (c : Char) (rest : List Char) : decode (word c ++ rest) = c :: decode rest := by
  induction c using word_cases with
  | amp | lt | gt | quot => rfl
  | plain c hamp _ _ _ => exact decode_cons hamp rest

/-- A text is decoded as it was. -/
theorem decode_escape (text : List Char) : decode (escape text) = text :=
  Escape.decode_flatMap rfl decode_word text

/-- A word has no character that ends a text or a value. -/
theorem not_mem_word (c : Char) : '<' ∉ word c ∧ '>' ∉ word c ∧ '"' ∉ word c := by
  induction c using word_cases with
  | amp | lt | gt | quot => decide
  | plain c _ hlt hgt hquot =>
    simp only [List.mem_singleton]
    exact ⟨Ne.symm hlt, Ne.symm hgt, Ne.symm hquot⟩

/-- Nor has a text that is written so. -/
theorem not_mem_escape (text : List Char) :
    '<' ∉ escape text ∧ '>' ∉ escape text ∧ '"' ∉ escape text :=
  ⟨Escape.not_mem_flatMap (fun c => (not_mem_word c).1) text,
    Escape.not_mem_flatMap (fun c => (not_mem_word c).2.1) text,
    Escape.not_mem_flatMap (fun c => (not_mem_word c).2.2) text⟩

/-- The rest of a word has no ampersand. -/
theorem not_mem_tail_word (c : Char) : '&' ∉ (word c).tail := by
  induction c using word_cases with
  | amp | lt | gt | quot => decide
  | plain c => exact List.not_mem_nil

/-- So each ampersand that is written starts a reference. -/
theorem reference_of_amp {text rest : List Char} (h : '&' :: rest <:+ escape text) :
    ∃ reference ∈ references, reference <+: '&' :: rest := by
  obtain ⟨c, hc⟩ := Escape.word_of_mark not_mem_tail_word h
  induction c using word_cases with
  | amp => exact ⟨"&amp;".toList, by decide, hc⟩
  | lt => exact ⟨"&lt;".toList, by decide, hc⟩
  | gt => exact ⟨"&gt;".toList, by decide, hc⟩
  | quot => exact ⟨"&quot;".toList, by decide, hc⟩
  | plain c hamp => exact absurd (List.cons_prefix_cons.1 hc).1 hamp

/-- A text without an ampersand is decoded as it is. -/
theorem decode_plain {text : List Char} (h : '&' ∉ text) : decode text = text := by
  induction text with
  | nil => rfl
  | cons c text ih =>
    rw [List.mem_cons, not_or] at h
    rw [decode_cons (Ne.symm h.1), ih h.2]

/-! ## Tokens -/

/-- A token: a text, or a tag with the values that are quoted in it. -/
inductive Token where
  | text (content : String)
  | tag (name : String) (values : List String)
  deriving DecidableEq, Repr

/-- Where a reader is: in a text, a tag or a value, with what it has read of it. -/
inductive Mode where
  | text (content : List Char)
  | tag (name : List Char) (values : List String)
  | value (name : List Char) (values : List String) (content : List Char)
  deriving DecidableEq, Repr

/-- The token of a text, if there is some text. -/
def textTokens (content : List Char) : List Token :=
  if content = [] then [] else [.text (.ofList (decode content))]

/-- What a reader makes of a character: the tokens that it ends, and where it is then. -/
def Mode.step : Mode → Char → List Token × Mode
  | .text content, c =>
    if c = '<' then (textTokens content, .tag [] []) else ([], .text (content ++ [c]))
  | .tag name values, c =>
    if c = '>' then ([.tag (.ofList name) values], .text [])
    else if c = '"' then ([], .value name values [])
    else ([], .tag (name ++ [c]) values)
  | .value name values content, c =>
    if c = '"' then ([], .tag name (values ++ [.ofList (decode content)]))
    else ([], .value name values (content ++ [c]))

/-- What a reader makes of a row of characters. -/
def read : Mode → List Char → List Token × Mode
  | mode, [] => ([], mode)
  | mode, c :: cs =>
    let (tokens, next) := mode.step c
    let (more, last) := read next cs
    (tokens ++ more, last)

/-- The tokens of a page. -/
def tokens (page : String) : List Token :=
  let (tokens, last) := read (.text []) page.toList
  tokens ++ match last with
    | .text content => textTokens content
    | _ => []

/-- A character is read before the rest. -/
theorem read_cons (mode : Mode) (c : Char) (cs : List Char) :
    read mode (c :: cs) = ((mode.step c).1 ++ (read (mode.step c).2 cs).1,
      (read (mode.step c).2 cs).2) :=
  rfl

/-- So is a row of characters. -/
theorem read_append (mode : Mode) (cs ds : List Char) :
    read mode (cs ++ ds) = ((read mode cs).1 ++ (read (read mode cs).2 ds).1,
      (read (read mode cs).2 ds).2) := by
  induction cs generalizing mode with
  | nil => rfl
  | cons c cs ih => rw [List.cons_append, read_cons, ih, read_cons, List.append_assoc]

/-- The characters are read as these tokens, from the one mode to the other. -/
def Reads (mode : Mode) (cs : List Char) (ts : List Token) (last : Mode) : Prop :=
  read mode cs = (ts, last)

section

variable {mode next last : Mode} {cs ds name : List Char} {ts us : List Token}

/-- Two rows of characters are read one after the other. -/
theorem Reads.append (hcs : Reads mode cs ts next) (hds : Reads next ds us last) :
    Reads mode (cs ++ ds) (ts ++ us) last := by
  rw [Reads, read_append, hcs, hds]

/-- Parts of a page that leave nothing open leave nothing open in a row. -/
theorem closed_append (hcs : (read (.text []) cs).2 = .text [])
    (hds : (read (.text []) ds).2 = .text []) : (read (.text []) (cs ++ ds)).2 = .text [] := by
  rw [read_append, hcs]
  exact hds

/-- Where a tag opens, the text before it is left behind. -/
theorem read_opened (h : cs.head? = some '<') (content : List Char) :
    (read (.text content) cs).2 = (read (.text []) cs).2 := by
  cases cs with
  | nil => cases h
  | cons c cs =>
    obtain rfl := Option.some.inj h
    rfl

/-- A text goes on up to where a tag opens. -/
theorem reads_text (h : '<' ∉ cs) (content : List Char) :
    Reads (.text content) cs [] (.text (content ++ cs)) := by
  induction cs generalizing content with
  | nil => rw [List.append_nil, Reads, read]
  | cons c cs ih =>
    rw [List.mem_cons, not_or] at h
    have hstep : (Mode.text content).step c = ([], .text (content ++ [c])) :=
      if_neg (Ne.symm h.1)
    rw [Reads, read_cons, hstep, ih h.2, List.append_assoc]
    rfl

/-- So a text is read from its start. -/
theorem reads_whole_text (h : '<' ∉ cs) : Reads (.text []) cs [] (.text cs) :=
  reads_text h []

/-- A value goes on up to its double quote. -/
theorem reads_value (h : '"' ∉ cs) (values : List String) (content : List Char) :
    Reads (.value name values content) cs [] (.value name values (content ++ cs)) := by
  induction cs generalizing content with
  | nil => rw [List.append_nil, Reads, read]
  | cons c cs ih =>
    rw [List.mem_cons, not_or] at h
    have hstep : (Mode.value name values content).step c =
        ([], .value name values (content ++ [c])) :=
      if_neg (Ne.symm h.1)
    rw [Reads, read_cons, hstep, ih h.2, List.append_assoc]
    rfl

/-- What leaves nothing open is read from one text to another. -/
theorem reads_of_closed (h : (read mode cs).2 = last) : Reads mode cs (read mode cs).1 last := by
  rw [← h]
  rfl

/-- What is read from one text to another stands on its own. -/
theorem tokens_of_reads {page : String} (h : Reads (.text []) page.toList ts (.text [])) :
    tokens page = ts := by
  rw [tokens, h]
  exact List.append_nil ts

end

/-- A text as it is shown. -/
def shown (text : String) : List Token := if text = "" then [] else [.text text]

/-- What is written of a text is read as the text. -/
theorem textTokens_escape (text : String) : textTokens (escape text.toList) = shown text := by
  rw [textTokens, decode_escape, String.ofList_toList, shown]
  refine if_congr ⟨fun h => ?_, fun h => ?_⟩ rfl rfl
  · have hdecode := decode_escape text.toList
    rw [h] at hdecode
    exact String.toList_eq_nil_iff.1 hdecode.symm
  · rw [h]
    rfl

/-- So is a text without an ampersand that is written as it is. -/
theorem textTokens_plain {text : String} (h : '&' ∉ text.toList) :
    textTokens text.toList = shown text := by
  rw [textTokens, decode_plain h, String.ofList_toList, shown]
  exact if_congr String.toList_eq_nil_iff rfl rfl

end Markup
