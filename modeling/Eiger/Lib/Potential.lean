import Eiger.Lib.Run

/-!
# Costs of runs and how they end

Two uses of a measure on the states of a system. As a potential it bounds what a run costs: where
each step pays for itself out of the potential, of a credit that the step is given and of what it
adds to a budget, a run costs no more than these make up over it (`Run.spent_le`). As a rank it
leads to where a system is done: where from each state that is not final some run leads to one of
lower rank, a run leads to a final state (`exists_run_final`).
-/

namespace Transition

variable {σ α : Type*} {step : σ → α → Option σ} {P : σ → α → Prop} {s t u : σ} {as : List α}
  {a : α}

/-- What a run from `s` costs, where a step costs what `cost` says of the state it is taken in. -/
def spent (step : σ → α → Option σ) (cost : σ → α → Nat) (s : σ) (as : List α) : Nat :=
  recorded step (fun s a n => n + cost s a) s 0 as

/-- No step costs nothing. -/
@[simp] theorem spent_nil (cost : σ → α → Nat) : spent step cost s [] = 0 := rfl

/-- The last step of a run adds its cost. -/
theorem Run.spent_snoc {cost : σ → α → Nat} (h : Run step P s as t) (hs : step t a = some u) :
    spent step cost s (as ++ [a]) = spent step cost s as + cost t a :=
  h.recorded_snoc hs

/-- A cost of one for some of the actions counts these. -/
theorem Run.spent_eq_countP (p : α → Bool) (h : Run step P s as t) :
    spent step (fun _ a => if p a then 1 else 0) s as = as.countP p := by
  induction h with
  | nil => rfl
  | snoc h _ hs ih => rw [h.spent_snoc hs, ih, List.countP_append, List.countP_singleton]

/-- A cost that is at most so many times another one at each step is so over a run. -/
theorem Run.spent_le_mul {I : σ → Prop} (cost cost' : σ → α → Nat) (n : Nat)
    (hI : ∀ as t, Run step P s as t → I t) (hle : ∀ s a, I s → cost s a ≤ n * cost' s a)
    (h : Run step P s as t) : spent step cost s as ≤ n * spent step cost' s as := by
  induction h with
  | nil => exact Nat.zero_le _
  | snoc h _ hs ih =>
    rw [h.spent_snoc hs, h.spent_snoc hs, Nat.mul_add]
    exact Nat.add_le_add ih (hle _ _ (hI _ _ h))

/-- **The potential method.** Where each step pays its cost out of the potential, of a credit that
it is given and of what it adds to a budget, so does a run. The steps may need facts `I` about the
states that are reached. -/
theorem Run.spent_le {I : σ → Prop} (cost credit : σ → α → Nat) (potential budget : σ → Nat)
    (hI : ∀ as t, Run step P s as t → I t)
    (hstep : ∀ s a t, I s → I t → P s a → step s a = some t →
      cost s a + potential t + budget s ≤ potential s + budget t + credit s a)
    (h : Run step P s as t) :
    spent step cost s as + potential t + budget s
      ≤ potential s + budget t + spent step credit s as := by
  induction h with
  | nil => simp
  | @snoc as t u a h hp hs ih =>
    have hpaid := hstep _ _ _ (hI _ _ h) (hI _ _ (.snoc h hp hs)) hp hs
    rw [h.spent_snoc hs, h.spent_snoc hs]
    omega

/-- **A system with a rank can finish.** Where from each state with `I` that is not final some run
leads to a state with `I` of lower rank, from each state with `I` some run leads to a final one. -/
theorem exists_run_final (I final : σ → Prop) (rank : σ → Nat)
    (hstep : ∀ s, I s → ¬ final s → ∃ as t, Run step P s as t ∧ I t ∧ rank t < rank s) :
    ∀ s, I s → ∃ as t, Run step P s as t ∧ I t ∧ final t := by
  intro s
  induction hrank : rank s using Nat.strongRecOn generalizing s with
  | ind n ih =>
    intro hs
    by_cases hfinal : final s
    · exact ⟨[], s, .nil, hs, hfinal⟩
    · obtain ⟨as, t, hrun, ht, hlt⟩ := hstep s hs hfinal
      obtain ⟨bs, u, hrun', hu, hfinal'⟩ := ih (rank t) (hrank ▸ hlt) t rfl ht
      exact ⟨as ++ bs, u, hrun.trans hrun', hu, hfinal'⟩

end Transition
