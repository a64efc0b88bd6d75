import Mathlib.Data.List.Forall2
import Mathlib.Tactic.TypeStar

/-!
# Futures by their timing

A `Future` is what comes of awaiting a future to its end: a value after some time, or nothing, ever.
Sequencing adds the times up, and a sequence that awaits a future that is never ready is never
ready itself. `timeout` always is.

`inTurn` awaits several futures one after another, as a loop does: it gives the values up to the
first future that is never ready. `forall₂_inTurn` says that it gets to all of them exactly when
each is ready.
-/

/-- What comes of awaiting a future: nothing, or a value after some time. -/
inductive Future (α : Type) where
  | never
  | ready (after : Nat) (value : α)
  deriving DecidableEq, Repr

namespace Future

variable {α β : Type} {f : Future α} {g : α → Future β} {wait : Nat}

/-- A future that is started later. -/
def delay (d : Nat) : Future α → Future α
  | .never => .never
  | .ready e a => .ready (d + e) a

/-- Awaits a future, then the one its value gives. -/
def andThen : Future α → (α → Future β) → Future β
  | .never, _ => .never
  | .ready d a, g => (g a).delay d

instance : Monad Future where
  pure a := .ready 0 a
  bind := andThen

/-- The value of a future, if it is ever ready. -/
def value : Future α → Option α
  | .never => none
  | .ready _ a => some a

/-- The time a future takes, if it is ever ready. -/
def after : Future α → Nat
  | .never => 0
  | .ready d _ => d

@[simp] theorem ready_bind (d : Nat) (a : α) (g : α → Future β) :
    (Future.ready d a >>= g) = (g a).delay d := rfl

@[simp] theorem value_never : (Future.never : Future α).value = none := rfl

@[simp] theorem value_ready (d : Nat) (a : α) : (Future.ready d a).value = some a := rfl

@[simp] theorem value_pure (a : α) : (pure a : Future α).value = some a := rfl

@[simp] theorem value_delay (d : Nat) (f : Future α) : (f.delay d).value = f.value := by
  cases f <;> rfl

/-- The value of a sequence is that of its second part, at the value of the first. -/
@[simp] theorem value_bind (f : Future α) (g : α → Future β) :
    (f >>= g).value = f.value.bind fun a => (g a).value := by
  cases f with
  | never => rfl
  | ready d a => rw [ready_bind, value_delay]; rfl

/-- A future is never ready exactly when it has no value. -/
theorem value_eq_none : f.value = none ↔ f = .never := by
  cases f <;> simp [value]

/-- The time of a sequence is at most that of its parts. -/
theorem after_bind_le {d e : Nat} (hf : f.after ≤ d) (hg : ∀ a, (g a).after ≤ e) :
    (f >>= g).after ≤ d + e := by
  cases f with
  | never => exact Nat.zero_le _
  | ready t a =>
    have hga := hg a
    rw [ready_bind]
    cases h : g a with
    | never => exact Nat.zero_le _
    | ready t' b =>
      rw [h] at hga
      exact Nat.add_le_add hf hga

/-! ## Timeouts -/

/-- The value of a future that is ready in time. -/
def within (wait : Nat) : Future α → Option α
  | .never => none
  | .ready d a => if d ≤ wait then some a else none

/-- Awaits a future, but no longer than `wait`. -/
def timeout (wait : Nat) : Future α → Future (Option α)
  | .never => .ready wait none
  | .ready d a => if d ≤ wait then .ready d (some a) else .ready wait none

@[simp] theorem within_ready (d : Nat) (a : α) :
    (Future.ready d a).within wait = if d ≤ wait then some a else none := rfl

/-- What is ready in time is ready. -/
theorem value_of_within {a : α} (h : f.within wait = some a) : f.value = some a := by
  cases f with
  | never => cases h
  | ready d b =>
    rw [within_ready] at h
    split at h
    · exact h
    · cases h

/-- A timeout is always ready. -/
@[simp] theorem value_timeout (wait : Nat) (f : Future α) :
    (timeout wait f).value = some (f.within wait) := by
  cases f with
  | never => rfl
  | ready d a => by_cases h : d ≤ wait <;> simp [timeout, within, h]

/-- A timeout takes no longer than its wait. -/
theorem after_timeout_le (wait : Nat) (f : Future α) : (timeout wait f).after ≤ wait := by
  cases f with
  | never => exact Nat.le_refl _
  | ready d a => by_cases h : d ≤ wait <;> simp [timeout, h, after]

/-- What is ready in time after a delay is ready in what is left of the time. -/
theorem within_delay {d : Nat} :
    (f.delay d).within wait = if d ≤ wait then f.within (wait - d) else none := by
  cases f with
  | never => by_cases h : d ≤ wait <;> simp [delay, within]
  | ready e a =>
    by_cases h : d ≤ wait
    · have hiff : d + e ≤ wait ↔ e ≤ wait - d := by omega
      simp [delay, within, h, hiff]
    · have hgt : ¬ d + e ≤ wait := by omega
      simp [delay, within, h, hgt]

/-! ## One after another -/

/-- Awaits futures in turn: their values, up to the first that is never ready. -/
def inTurn : List (Future α) → List α
  | [] => []
  | .never :: _ => []
  | .ready _ a :: fs => a :: inTurn fs

/-- **Awaiting in turn** gets to every future exactly when each is ready, and then gives their
values. -/
theorem forall₂_inTurn {fs : List (Future α)} :
    List.Forall₂ (fun f a => f.value = some a) fs (inTurn fs) ↔ ∀ f ∈ fs, f ≠ .never := by
  induction fs with
  | nil => simp [inTurn]
  | cons f fs ih =>
    cases f with
    | never => simp [inTurn]
    | ready d a => simp [inTurn, ih]

/-- Awaiting in turn gives one value a future only if each is ready. -/
theorem forall_of_forall₂_inTurn {R : Future α → α → Prop} {fs : List (Future α)}
    (h : List.Forall₂ R fs (inTurn fs)) : ∀ f ∈ fs, f ≠ .never := by
  induction fs with
  | nil => simp
  | cons f fs ih =>
    cases f with
    | never => cases h
    | ready d a =>
      cases h with
      | cons _ h =>
        intro f hf
        rcases List.mem_cons.1 hf with rfl | hf
        · simp
        · exact ih h f hf

/-- The values that awaiting in turn gets are those of the futures that come before every one that
is never ready. -/
theorem mem_zip_inTurn {xs : List β} {g : β → Future α} {x : β} {a : α} :
    (x, a) ∈ xs.zip (inTurn (xs.map g)) ↔ ∃ before after, xs = before ++ x :: after ∧
      (∀ y ∈ before, g y ≠ .never) ∧ (g x).value = some a := by
  induction xs with
  | nil =>
    refine ⟨nofun, ?_⟩
    rintro ⟨before, after, heq, -⟩
    cases before <;> cases heq
  | cons y xs ih =>
    rw [List.map_cons]
    cases hy : g y with
    | never =>
      refine ⟨nofun, ?_⟩
      rintro ⟨_ | ⟨z, before⟩, after, heq, hbefore, hvalue⟩
      · cases heq
        rw [hy] at hvalue
        cases hvalue
      · cases heq
        exact (hbefore _ List.mem_cons_self hy).elim
    | ready d b =>
      rw [inTurn, List.zip_cons_cons, List.mem_cons, ih]
      constructor
      · rintro (heq | ⟨before, after, rfl, hbefore, hvalue⟩)
        · cases heq
          exact ⟨[], xs, rfl, nofun, by rw [hy]; rfl⟩
        · refine ⟨y :: before, after, rfl, List.forall_mem_cons.2 ⟨?_, hbefore⟩, hvalue⟩
          rw [hy]
          exact nofun
      · rintro ⟨_ | ⟨z, before⟩, after, heq, hbefore, hvalue⟩
        · cases heq
          rw [hy] at hvalue
          cases hvalue
          exact .inl rfl
        · cases heq
          exact .inr ⟨before, after, rfl, (List.forall_mem_cons.1 hbefore).2, hvalue⟩

/-! ## Trying one after another -/

section

variable {ι ε : Type} {f : ι → Future (Except ε α)} {xs before after : List ι} {x : ι}

/-- Awaits a future for each of a list in turn, up to the first error. -/
def tryInTurn (f : ι → Future (Except ε α)) : List ι → Future (Except ε Unit)
  | [] => pure (.ok ())
  | x :: xs => do
    match ← f x with
    | .error e => return .error e
    | .ok _ => tryInTurn f xs

/-- The future is ready with a result. -/
def Succeeds (f : Future (Except ε α)) : Prop := ∃ a, f.value = some (.ok a)

/-- What succeeds is passed. -/
theorem value_tryInTurn_append (h : ∀ y ∈ before, (f y).Succeeds) :
    (tryInTurn f (before ++ after)).value = (tryInTurn f after).value := by
  induction before with
  | nil => rfl
  | cons y before ih =>
    obtain ⟨⟨a, ha⟩, h⟩ := List.forall_mem_cons.1 h
    rw [List.cons_append, tryInTurn, value_bind, ha]
    exact ih h

/-- All succeed, or there is a first that does not. -/
theorem succeed_or_first (f : ι → Future (Except ε α)) (xs : List ι) :
    (∀ x ∈ xs, (f x).Succeeds) ∨ ∃ before x after, xs = before ++ x :: after ∧
      (∀ y ∈ before, (f y).Succeeds) ∧ ¬ (f x).Succeeds := by
  induction xs with
  | nil => exact .inl (List.forall_mem_nil _)
  | cons x xs ih =>
    by_cases hx : (f x).Succeeds
    · obtain hall | ⟨before, y, after, rfl, hbefore, hy⟩ := ih
      · exact .inl (List.forall_mem_cons.2 ⟨hx, hall⟩)
      · exact .inr ⟨x :: before, y, after, rfl, List.forall_mem_cons.2 ⟨hx, hbefore⟩, hy⟩
    · exact .inr ⟨[], x, xs, rfl, List.forall_mem_nil _, hx⟩

/-- Where one does not succeed after all before it have, this is how the trying ends. -/
theorem value_tryInTurn_first (h : ∀ y ∈ before, (f y).Succeeds) (hx : ¬ (f x).Succeeds) :
    (tryInTurn f (before ++ x :: after)).value = (f x).value.bind fun r =>
      match r with
      | .error e => some (.error e)
      | .ok _ => none := by
  rw [value_tryInTurn_append h, tryInTurn, value_bind]
  cases hvalue : (f x).value with
  | none => rfl
  | some r =>
    cases r with
    | error e => rfl
    | ok a => exact absurd ⟨a, hvalue⟩ hx

/-- **Trying in turn succeeds** exactly when each does. -/
theorem value_tryInTurn_ok : (tryInTurn f xs).value = some (.ok ()) ↔ ∀ x ∈ xs, (f x).Succeeds := by
  constructor
  · intro h
    obtain hall | ⟨before, x, after, rfl, hbefore, hx⟩ := succeed_or_first f xs
    · exact hall
    · rw [value_tryInTurn_first hbefore hx] at h
      cases hvalue : (f x).value with
      | none =>
        rw [hvalue] at h
        cases h
      | some r =>
        rw [hvalue] at h
        cases r <;> cases h
  · intro h
    have hnil : (tryInTurn f (xs ++ [])).value = (tryInTurn f []).value :=
      value_tryInTurn_append h
    rwa [List.append_nil] at hnil

/-- **It ends with an error** exactly when one does that it comes to. -/
theorem value_tryInTurn_error {e : ε} : (tryInTurn f xs).value = some (.error e) ↔
    ∃ before x after, xs = before ++ x :: after ∧ (∀ y ∈ before, (f y).Succeeds) ∧
      (f x).value = some (.error e) := by
  constructor
  · intro h
    obtain hall | ⟨before, x, after, rfl, hbefore, hx⟩ := succeed_or_first f xs
    · cases (value_tryInTurn_ok.2 hall).symm.trans h
    · rw [value_tryInTurn_first hbefore hx] at h
      obtain ⟨r, hr, hend⟩ := Option.bind_eq_some_iff.1 h
      cases r with
      | error e' =>
        cases hend
        exact ⟨before, x, after, rfl, hbefore, hr⟩
      | ok a => cases hend
  · rintro ⟨before, x, after, rfl, hbefore, hx⟩
    have hnot : ¬ (f x).Succeeds := by
      rintro ⟨a, ha⟩
      cases ha.symm.trans hx
    rw [value_tryInTurn_first hbefore hnot, hx]
    rfl

/-- **It is never ready** exactly when one never is that it comes to. -/
theorem tryInTurn_never : tryInTurn f xs = .never ↔
    ∃ before x after, xs = before ++ x :: after ∧ (∀ y ∈ before, (f y).Succeeds) ∧
      f x = .never := by
  rw [← value_eq_none]
  constructor
  · intro h
    obtain hall | ⟨before, x, after, rfl, hbefore, hx⟩ := succeed_or_first f xs
    · cases (value_tryInTurn_ok.2 hall).symm.trans h
    · rw [value_tryInTurn_first hbefore hx] at h
      refine ⟨before, x, after, rfl, hbefore, value_eq_none.1 ?_⟩
      cases hvalue : (f x).value with
      | none => rfl
      | some r =>
        rw [hvalue] at h
        cases r with
        | error e => cases h
        | ok a => exact absurd ⟨a, hvalue⟩ hx
  · rintro ⟨before, x, after, rfl, hbefore, hx⟩
    have hnot : ¬ (f x).Succeeds := by
      rintro ⟨a, ha⟩
      rw [hx] at ha
      cases ha
    rw [value_tryInTurn_first hbefore hnot, hx]
    rfl

end

end Future
