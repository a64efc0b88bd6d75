import Mathlib.Data.List.Basic
import Mathlib.Data.List.Infix

/-!
# Codes

A code gives each symbol a word, and a list of symbols is written as its words in a row, which is
`List.flatMap`. Where a reader takes one word at a time, it gets the symbols back.
-/

namespace Escape

variable {α β : Type*} {code : α → List β} {mark : β} {rest : List β}

/-- A decoder that takes one word at a time gives back what was written. -/
theorem decode_flatMap {decode : List β → List α} (hnil : decode [] = [])
    (hword : ∀ x rest, decode (code x ++ rest) = x :: decode rest) (xs : List α) :
    decode (xs.flatMap code) = xs := by
  induction xs with
  | nil => exact hnil
  | cons x xs ih => rw [List.flatMap_cons, hword, ih]

/-- A symbol that no word has is not written. -/
theorem not_mem_flatMap (h : ∀ x, mark ∉ code x) (xs : List α) : mark ∉ xs.flatMap code := by
  intro hmem
  obtain ⟨x, -, hx⟩ := List.mem_flatMap.1 hmem
  exact h x hx

/-- An end that starts with the mark is not found in a part without the mark. -/
theorem suffix_of_append {front tail : List β} (hfront : mark ∉ front)
    (h : mark :: rest <:+ front ++ tail) : mark :: rest <:+ tail := by
  induction front with
  | nil => exact h
  | cons b front ih =>
    rw [List.mem_cons, not_or] at hfront
    rw [List.cons_append, List.suffix_cons_iff] at h
    obtain h | h := h
    · exact absurd (List.cons.inj h).1 hfront.1
    · exact ih hfront.2 h

/-- Where only the first symbol of a word may be the mark, the mark is where a word starts. -/
theorem word_of_mark (htail : ∀ x, mark ∉ (code x).tail) {xs : List α}
    (h : mark :: rest <:+ xs.flatMap code) : ∃ x, code x <+: mark :: rest := by
  induction xs with
  | nil => exact absurd (List.suffix_nil.1 h) (List.cons_ne_nil _ _)
  | cons x xs ih =>
    rw [List.flatMap_cons] at h
    cases hx : code x with
    | nil =>
      rw [hx] at h
      exact ih h
    | cons b front =>
      have hfront : mark ∉ front := by
        have htail := htail x
        rwa [hx] at htail
      rw [hx, List.cons_append, List.suffix_cons_iff] at h
      obtain h | h := h
      · refine ⟨x, ?_⟩
        rw [hx, h]
        exact List.prefix_append (b :: front) _
      · exact ih (suffix_of_append hfront h)

end Escape
