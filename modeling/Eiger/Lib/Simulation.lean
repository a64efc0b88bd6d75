import Eiger.Lib.Run

/-!
# Refinement of a specification by a system

A specification is itself a partial step function, over events. A system refines it when each of its
steps is labelled with an event that the specification takes from the step's image to that of the
next state, or with none, and then the image stays as it is (`Refines`). The events of a run, its
`trace`, are then a run of the specification (`Refines.run`), so that what holds of every run of the
specification holds of every trace of the system.

`Run.rank_le` is the rule for the order of events on the specification: what takes it past a rank
that no step lowers cannot come before what needs it below.
-/

namespace Transition

variable {σ α τ ε : Type*} {step : σ → α → Option σ} {P : σ → α → Prop} {s t u : σ}
  {as : List α} {a : α}

/-- The events of a run from `s`, by the labels of its steps. -/
def trace (step : σ → α → Option σ) (label : σ → α → Option ε) (s : σ) (as : List α) : List ε :=
  recorded step (fun s a es => es ++ (label s a).toList) s [] as

/-- The system refines the specification: a step that starts and ends in states with `I` is one of
the specification where it has an event, and none where it has not. -/
structure Refines (step : σ → α → Option σ) (label : σ → α → Option ε)
    (spec : τ → ε → Option τ) (I : σ → Prop) (image : σ → τ) : Prop where
  visible : ∀ s a t e, I s → step s a = some t → label s a = some e →
    spec (image s) e = some (image t)
  silent : ∀ s a t, I s → step s a = some t → label s a = none → image t = image s

/-- The last step of a run adds its event to the trace. -/
theorem Run.trace_snoc {label : σ → α → Option ε} (h : Run step P s as t)
    (hs : step t a = some u) :
    trace step label s (as ++ [a]) = trace step label s as ++ (label t a).toList :=
  h.recorded_snoc hs

/-- **The traces of a refinement are runs of the specification.** -/
theorem Refines.run {label : σ → α → Option ε} {spec : τ → ε → Option τ} {I : σ → Prop}
    {image : σ → τ} (hrefines : Refines step label spec I image)
    (hI : ∀ as t, Run step P s as t → I t) (h : Run step P s as t) :
    Run spec (fun _ _ => True) (image s) (trace step label s as) (image t) := by
  induction h with
  | nil => exact .nil
  | @snoc as t u a h hp hs ih =>
    rw [h.trace_snoc hs]
    cases hlabel : label t a with
    | none =>
      rw [Option.toList_none, List.append_nil, hrefines.silent t a u (hI _ _ h) hs hlabel]
      exact ih
    | some e => exact .snoc ih trivial (hrefines.visible t a u e (hI _ _ h) hs hlabel)

/-- A rank that no step lowers is not lowered by a run. -/
theorem Run.rank_le {rank : σ → Nat} (hstep : ∀ s a t, step s a = some t → rank s ≤ rank t)
    (h : Run step P s as t) : rank s ≤ rank t :=
  h.preserves (I := fun u => rank s ≤ rank u)
    (fun _ _ _ hle _ hs => Nat.le_trans hle (hstep _ _ _ hs)) (Nat.le_refl _)

end Transition
