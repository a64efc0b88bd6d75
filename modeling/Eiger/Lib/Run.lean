import Mathlib.Tactic.TypeStar

/-!
# Runs of a partial step function

A system is given by `step : σ → α → Option σ`: the action `a` is enabled in the state `s` when
`step s a` is `some`, and it then leads to that state. `Run step P s as t` is a run from `s` to
`t` by the actions `as`, each of which satisfies the guard `P` in the state it is taken in. An
unguarded run is one at the guard `fun _ _ => True`.

`Run.preserves` turns a step lemma into a run lemma, and `Run.preserves_of` does the same for an
invariant whose step needs facts already known of every state a run reaches.

`recorded` is a history variable: what is written down in the course of a run, which no step reads.
`Run.preserves_recorded` is the invariant rule for a state together with its record.
-/

namespace Transition

variable {σ α : Type*} {step : σ → α → Option σ} {P Q : σ → α → Prop} {s t u : σ}
  {as bs : List α} {a : α}

/-- A run of `step` every action of which meets the guard `P`. It grows at its end, so that an
invariant is an induction on the run itself. -/
inductive Run (step : σ → α → Option σ) (P : σ → α → Prop) (s : σ) : List α → σ → Prop
  | nil : Run step P s [] s
  | snoc {as : List α} {t u : σ} {a : α} (h : Run step P s as t) (hp : P t a)
      (hs : step t a = some u) : Run step P s (as ++ [a]) u

namespace Run

/-- One guarded step is a run. -/
theorem single (hp : P s a) (hs : step s a = some t) : Run step P s [a] t :=
  .snoc .nil hp hs

/-- Runs compose. -/
theorem trans (h : Run step P s as t) (h' : Run step P t bs u) : Run step P s (as ++ bs) u := by
  induction h' with
  | nil => simpa using h
  | snoc _ hp hs ih =>
    rw [← List.append_assoc]
    exact .snoc ih hp hs

/-- A run extended by a step at its start. -/
theorem cons (hp : P s a) (hs : step s a = some t) (h : Run step P t as u) :
    Run step P s (a :: as) u :=
  (single hp hs).trans h

/-- A run under a guard is a run under any weaker guard. -/
theorem mono (hPQ : ∀ s a, P s a → Q s a) (h : Run step P s as t) : Run step Q s as t := by
  induction h with
  | nil => exact .nil
  | snoc _ hp hs ih => exact .snoc ih (hPQ _ _ hp) hs

/-- A run by the images of actions is one by the actions that they are. -/
theorem map {β : Type*} {f : β → α} {bs : List β}
    (h : Run (fun s b => step s (f b)) (fun _ _ => True) s bs t) :
    Run step (fun _ _ => True) s (bs.map f) t := by
  induction h with
  | nil => exact .nil
  | snoc _ _ hs ih =>
    rw [List.map_append]
    exact .snoc ih trivial hs

/-- The last step of a run. -/
theorem snoc_inv (h : Run step P s (as ++ [a]) u) :
    ∃ t, Run step P s as t ∧ P t a ∧ step t a = some u := by
  generalize hl : as ++ [a] = l at h
  cases h with
  | nil => exact absurd hl (List.append_ne_nil_of_right_ne_nil _ (List.cons_ne_nil _ _))
  | snoc h hp hs =>
    obtain ⟨rfl, hlast⟩ := List.append_inj' hl rfl
    obtain rfl := List.head_eq_of_cons_eq hlast
    exact ⟨_, h, hp, hs⟩

/-- The actions of a run determine where it ends, whatever the guards. -/
theorem unique (h : Run step P s as t) (h' : Run step Q s as u) : t = u := by
  induction h generalizing u with
  | nil =>
    generalize hl : ([] : List α) = l at h'
    cases h' with
    | nil => rfl
    | snoc _ _ _ =>
      exact absurd hl.symm (List.append_ne_nil_of_right_ne_nil _ (List.cons_ne_nil _ _))
  | snoc _ _ hs ih =>
    obtain ⟨v, hv, -, hstep⟩ := h'.snoc_inv
    obtain rfl := ih hv
    exact Option.some.inj (hs.symm.trans hstep)

/-- A run by two lists of actions in turn comes apart into two. -/
theorem split (h : Run step P s (as ++ bs) u) : ∃ t, Run step P s as t ∧ Run step P t bs u := by
  induction bs generalizing as with
  | nil => exact ⟨u, by simpa using h, .nil⟩
  | cons b bs ih =>
    rw [List.append_cons] at h
    obtain ⟨t, ht, hrest⟩ := ih h
    obtain ⟨v, hv, hp, hs⟩ := ht.snoc_inv
    exact ⟨v, hv, .cons hp hs hrest⟩

/-- The first step of a run. -/
theorem cons_inv (h : Run step P s (a :: as) u) :
    ∃ t, P s a ∧ step s a = some t ∧ Run step P t as u := by
  obtain ⟨t, hfirst, hrest⟩ := @split _ _ step P s u [a] as h
  obtain ⟨v, hnil, hp, hs⟩ := @snoc_inv _ _ step P s t [] a hfirst
  obtain rfl := unique hnil (.nil : Run step P s [] s)
  exact ⟨t, hp, hs, hrest⟩

/-- A run by one action is a step. -/
theorem single_inv (h : Run step P s [a] t) : P s a ∧ step s a = some t := by
  obtain ⟨v, hp, hs, hnil⟩ := h.cons_inv
  obtain rfl := hnil.unique (.nil : Run step P v [] v)
  exact ⟨hp, hs⟩

/-- **The invariant rule.** What every guarded step preserves holds at the end of a run when it
holds at the start. -/
theorem preserves {I : σ → Prop} (hstep : ∀ s a t, I s → P s a → step s a = some t → I t)
    (h : Run step P s as t) (hs : I s) : I t := by
  induction h with
  | nil => exact hs
  | snoc _ hp hs' ih => exact hstep _ _ _ ih hp hs'

/-- The invariant rule relative to facts `J` known of every state the run reaches. -/
theorem preserves_of {I J : σ → Prop} (hJ : ∀ as t, Run step P s as t → J t)
    (hstep : ∀ s a t, J s → J t → I s → P s a → step s a = some t → I t)
    (h : Run step P s as t) (hs : I s) : I t := by
  induction h with
  | nil => exact hs
  | snoc h hp hs' ih => exact hstep _ _ _ (hJ _ _ h) (hJ _ _ (.snoc h hp hs')) ih hp hs'

end Run

/-- The record of a run from `s`: `next` says what each step adds to it. -/
def recorded {γ : Type*} (step : σ → α → Option σ) (next : σ → α → γ → γ) : σ → γ → List α → γ
  | _, g, [] => g
  | s, g, a :: as =>
    match step s a with
    | some t => recorded step next t (next s a g) as
    | none => g

/-- The last step of a run writes to the record of those before. -/
theorem Run.recorded_snoc {γ : Type*} {next : σ → α → γ → γ} {g : γ} (h : Run step P s as t)
    (hs : step t a = some u) :
    recorded step next s g (as ++ [a]) = next t a (recorded step next s g as) := by
  induction as generalizing s g with
  | nil =>
    obtain rfl := h.unique (.nil : Run step P s [] s)
    simp only [List.nil_append, recorded, hs]
  | cons b as ih =>
    obtain ⟨v, -, hb, hrest⟩ := h.cons_inv
    simp only [List.cons_append, recorded, hb]
    exact ih hrest

/-- The invariant rule for a state and its record. -/
theorem Run.preserves_recorded {γ : Type*} {next : σ → α → γ → γ} {g : γ} {I : σ → γ → Prop}
    (hstep : ∀ s a t g, I s g → P s a → step s a = some t → I t (next s a g))
    (h : Run step P s as t) (hs : I s g) : I t (recorded step next s g as) := by
  induction h with
  | nil => exact hs
  | snoc h hp hs' ih =>
    rw [h.recorded_snoc hs']
    exact hstep _ _ _ _ ih hp hs'

/-- Executes the actions in order as long as each is enabled and meets the guard. -/
def execute (step : σ → α → Option σ) (P : σ → α → Prop) [∀ s a, Decidable (P s a)] :
    σ → List α → Option σ
  | s, [] => some s
  | s, a :: as => if P s a then (step s a).bind (execute step P · as) else none

/-- What `execute` computes is a run. -/
theorem run_of_execute [∀ s a, Decidable (P s a)] {as : List α} :
    ∀ {s t : σ}, execute step P s as = some t → Run step P s as t := by
  induction as with
  | nil =>
    intro s t h
    cases h
    exact .nil
  | cons a as ih =>
    intro s t h
    rw [execute] at h
    split at h
    · next hp =>
      obtain ⟨m, hm, hr⟩ := Option.bind_eq_some_iff.1 h
      exact .cons hp hm (ih hr)
    · cases h

/-- The state after the actions, whatever guard they meet; the same state where one is not
enabled. -/
def after (step : σ → α → Option σ) (s : σ) (as : List α) : σ :=
  (execute step (fun _ _ => True) s as).getD s

/-- An execution under a guard computes what it does under none. -/
theorem execute_unguarded [∀ s a, Decidable (P s a)] {as : List α} :
    ∀ {s t : σ}, execute step P s as = some t → execute step (fun _ _ => True) s as = some t := by
  induction as with
  | nil => exact id
  | cons a as ih =>
    intro s t h
    rw [execute] at h ⊢
    split at h
    · obtain ⟨m, hm, hr⟩ := Option.bind_eq_some_iff.1 h
      rw [if_pos trivial, hm]
      exact ih hr
    · cases h

/-- A successful execution is a run to the state after it. -/
theorem run_after [∀ s a, Decidable (P s a)] {as : List α} {s : σ}
    (h : (execute step P s as).isSome) : Run step P s as (after step s as) := by
  obtain ⟨t, ht⟩ := Option.isSome_iff_exists.1 h
  rw [after, execute_unguarded ht]
  exact run_of_execute ht

end Transition
