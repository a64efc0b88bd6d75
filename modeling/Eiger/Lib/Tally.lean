import Mathlib.Algebra.BigOperators.Group.List.Basic
import Mathlib.Algebra.BigOperators.Intervals
import Mathlib.Algebra.Order.BigOperators.Group.Finset

/-!
# Sums over a list of cells

A concurrent state often is a list of cells (the tasks of a scheduler, the blocks of a heap), of
which a step rewrites one and to which it appends one. `tally f l` is the sum of a weight over
the cells; these lemmas say how the two updates change it and what a bound on it says about two
different cells.
-/

namespace Tally

variable {α : Type*} {f g : α → Nat} {l : List α} {i j : Nat} {x y : α}

/-- The sum of the weight `f` over the cells of `l`. -/
def tally (f : α → Nat) (l : List α) : Nat := (l.map f).sum

@[simp] theorem tally_nil : tally f [] = 0 := rfl

@[simp] theorem tally_cons : tally f (x :: l) = f x + tally f l := by
  simp [tally]

@[simp] theorem tally_append (l m : List α) : tally f (l ++ m) = tally f l + tally f m := by
  simp [tally]

/-- Rewriting a cell exchanges its weight for the new one. -/
theorem tally_set (h : l[i]? = some x) (y : α) :
    tally f (l.set i y) + f x = tally f l + f y := by
  induction l generalizing i with
  | nil => simp at h
  | cons z l ih =>
    cases i with
    | zero =>
      obtain rfl : z = x := by simpa using h
      simp only [List.set_cons_zero, tally_cons]
      omega
    | succ i =>
      have := ih (i := i) (by simpa using h)
      simp only [List.set_cons_succ, tally_cons]
      omega

/-- Modifying a cell in place exchanges its weight for the new one. -/
theorem tally_modify (h : l[i]? = some x) (m : α → α) :
    tally f (l.modify i m) + f x = tally f l + f (m x) := by
  induction l generalizing i with
  | nil => simp at h
  | cons z l ih =>
    cases i with
    | zero =>
      obtain rfl : z = x := by simpa using h
      simp only [List.modify_zero_cons, tally_cons]
      omega
    | succ i =>
      have := ih (i := i) (by simpa using h)
      simp only [List.modify_succ_cons, tally_cons]
      omega

/-- A modification that leaves every weight alone changes no sum. -/
theorem tally_modify_eq (i : Nat) {m : α → α} (hm : ∀ x, f (m x) = f x) :
    tally f (l.modify i m) = tally f l := by
  induction l generalizing i with
  | nil => simp
  | cons z l ih =>
    cases i with
    | zero => simp [hm]
    | succ i => simp [ih]

/-- A cell weighs at most the sum. -/
theorem le_tally (h : l[i]? = some x) : f x ≤ tally f l := by
  induction l generalizing i with
  | nil => simp at h
  | cons z l ih =>
    cases i with
    | zero =>
      obtain rfl : z = x := by simpa using h
      simp
    | succ i =>
      have := ih (i := i) (by simpa using h)
      simp only [tally_cons]
      omega

/-- Two different cells weigh at most the sum together. -/
theorem add_le_tally (hij : i ≠ j) (hi : l[i]? = some x) (hj : l[j]? = some y) :
    f x + f y ≤ tally f l := by
  induction l generalizing i j with
  | nil => simp at hi
  | cons z l ih =>
    cases i with
    | zero =>
      cases j with
      | zero => exact absurd rfl hij
      | succ j =>
        obtain rfl : z = x := by simpa using hi
        have := le_tally (f := f) (l := l) (i := j) (x := y) (by simpa using hj)
        simp only [tally_cons]
        omega
    | succ i =>
      cases j with
      | zero =>
        obtain rfl : z = y := by simpa using hj
        have := le_tally (f := f) (l := l) (i := i) (x := x) (by simpa using hi)
        simp only [tally_cons]
        omega
      | succ j =>
        have := ih (i := i) (j := j) (by omega) (by simpa using hi) (by simpa using hj)
        simp only [tally_cons]
        omega

/-- A sum is positive exactly when some cell's weight is. -/
theorem tally_pos : 0 < tally f l ↔ ∃ (i : Nat) (x : α), l[i]? = some x ∧ 0 < f x := by
  constructor
  · intro h
    induction l with
    | nil => simp at h
    | cons z l ih =>
      by_cases hz : 0 < f z
      · exact ⟨0, z, by simp, hz⟩
      · obtain ⟨i, x, hi, hx⟩ := ih (by simp only [tally_cons] at h; omega)
        exact ⟨i + 1, x, by simpa using hi, hx⟩
  · rintro ⟨i, x, hi, hx⟩
    have := le_tally (f := f) hi
    omega

/-- A sum is zero exactly when every cell's weight is. -/
theorem tally_eq_zero : tally f l = 0 ↔ ∀ (i : Nat) (x : α), l[i]? = some x → f x = 0 := by
  constructor
  · intro h i x hi
    have := le_tally (f := f) hi
    omega
  · intro h
    by_contra hne
    obtain ⟨i, x, hi, hx⟩ := tally_pos.1 (Nat.pos_of_ne_zero hne)
    have := h i x hi
    omega

/-- Sums are monotone in the weight. -/
theorem tally_le_tally (h : ∀ x ∈ l, f x ≤ g x) : tally f l ≤ tally g l := by
  induction l with
  | nil => simp
  | cons z l ih =>
    have h1 := h z (by simp)
    have h2 := ih fun x hx => h x (by simp [hx])
    simp only [tally_cons]
    omega

/-- The sum of two weights is the sum of the sums. -/
theorem tally_add : tally (fun x => f x + g x) l = tally f l + tally g l := by
  induction l with
  | nil => rfl
  | cons z l ih =>
    simp only [tally_cons, ih]
    omega

/-! ## Some cell -/

/-- What holds of some cell holds of this one, or of one of the others. -/
theorem any_eq_or_eraseIdx (p : α → Bool) (h : l[i]? = some x) :
    l.any p = (p x || (l.eraseIdx i).any p) := by
  induction l generalizing i with
  | nil => simp at h
  | cons z l ih =>
    cases i with
    | zero =>
      obtain rfl : z = x := by simpa using h
      rfl
    | succ i =>
      have := @ih i (by simpa using h)
      simp only [List.any_cons, List.eraseIdx_cons_succ, this]
      exact Bool.or_left_comm _ _ _

/-- Rewriting a cell leaves the others as they are. -/
theorem any_set (p : α → Bool) (h : l[i]? = some x) (y : α) :
    (l.set i y).any p = (p y || (l.eraseIdx i).any p) := by
  obtain ⟨hi, -⟩ := List.getElem?_eq_some_iff.1 h
  rw [any_eq_or_eraseIdx p (List.getElem?_set_self hi), List.eraseIdx_set_eq]

/-! ## Sums of sums -/

section

open Finset

variable {ι : Type*} {S : Finset ι}

/-- Sums over indices and over cells commute. -/
theorem sum_tally (S : Finset ι) (f : ι → α → Nat) (l : List α) :
    ∑ i ∈ S, tally (f i) l = tally (fun x => ∑ i ∈ S, f i x) l := by
  induction l with
  | nil => simp
  | cons z l ih => simp only [tally_cons, Finset.sum_add_distrib, ih]

/-- A sum over the cells is the sum over their places. -/
theorem tally_eq_sum_range (f : α → Nat) (l : List α) :
    tally f l = ∑ i ∈ range l.length, (l[i]?.map f).getD 0 := by
  induction l using List.reverseRecOn with
  | nil => rfl
  | append_singleton l x ih =>
    rw [tally_append, ih, List.length_append, List.length_singleton, sum_range_succ]
    congr 1
    · refine sum_congr rfl fun i hi => ?_
      rw [List.getElem?_append_left (mem_range.1 hi)]
    · simp

/-- What has a positive weight at each index has at most as many indices as the weights add to. -/
theorem card_le_sum {w : ι → Nat} (h : ∀ i ∈ S, 0 < w i) : S.card ≤ ∑ i ∈ S, w i := by
  rw [card_eq_sum_ones]
  exact sum_le_sum h

end

/-! ## Counting by the second component -/

section

variable {β γ : Type*} [DecidableEq β] [DecidableEq γ]

/-- The pairs with a given second component, by their first component. -/
theorem count_map_fst_filter (l : List (β × γ)) (a : β) (b : γ) :
    ((l.filter (·.2 = b)).map Prod.fst).count a = l.count (a, b) := by
  induction l with
  | nil => rfl
  | cons x l ih =>
    obtain ⟨a', b'⟩ := x
    by_cases hb : b' = b
    · subst hb
      by_cases ha : a' = a <;> simp [ha, ih]
    · simp [hb, ih]

/-- Counts that compare for each first component compare altogether. -/
theorem countP_snd_le {l : List (β × γ)} {b c : γ} (h : ∀ a, l.count (a, b) ≤ l.count (a, c)) :
    l.countP (·.2 = b) ≤ l.countP (·.2 = c) := by
  have hsub : List.Subperm ((l.filter (·.2 = b)).map Prod.fst)
      ((l.filter (·.2 = c)).map Prod.fst) := by
    refine List.subperm_ext_iff.2 fun a _ => ?_
    rw [count_map_fst_filter, count_map_fst_filter]
    exact h a
  simpa [List.countP_eq_length_filter] using hsub.length_le

end

end Tally
