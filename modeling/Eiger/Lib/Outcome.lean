/-!
# Calls that may panic

An `Outcome` is what comes of a call that returns a `Result` or panics. Both an error and a panic
end a sequence of calls; they differ in that an error is reported to the caller.
-/

/-- What comes of a call: a value, an error, or a panic. -/
inductive Outcome (ε α : Type) where
  | ok (value : α)
  | error (error : ε)
  | panicked
  deriving DecidableEq, Repr

namespace Outcome

variable {ε α β : Type}

/-- A call after another, at its value. -/
def andThen : Outcome ε α → (α → Outcome ε β) → Outcome ε β
  | .ok value, next => next value
  | .error e, _ => .error e
  | .panicked, _ => .panicked

instance : Monad (Outcome ε) where
  pure := .ok
  bind := andThen

@[simp] theorem pure_eq (value : α) : (pure value : Outcome ε α) = .ok value := rfl

@[simp] theorem ok_bind (value : α) (next : α → Outcome ε β) :
    ((.ok value : Outcome ε α) >>= next) = next value := rfl

@[simp] theorem error_bind (e : ε) (next : α → Outcome ε β) :
    ((.error e : Outcome ε α) >>= next) = .error e := rfl

@[simp] theorem panicked_bind (next : α → Outcome ε β) :
    ((.panicked : Outcome ε α) >>= next) = .panicked := rfl

/-- A sequence has a value where both parts have one. -/
theorem bind_eq_ok_iff {call : Outcome ε α} {next : α → Outcome ε β} {value : β} :
    (call >>= next) = .ok value ↔ ∃ first, call = .ok first ∧ next first = .ok value := by
  cases call <;> simp

/-- A sequence panics where its first part does, or its second one at the value of the first. -/
theorem bind_eq_panicked_iff {call : Outcome ε α} {next : α → Outcome ε β} :
    (call >>= next) = .panicked ↔
      call = .panicked ∨ ∃ first, call = .ok first ∧ next first = .panicked := by
  cases call <;> simp

/-- What an operation on an unsigned type with `bound` values comes to, at its exact result: it
panics or wraps where that is no value of the type, as overflow is checked or not. -/
def unsigned (overflowChecks : Bool) (bound n : Nat) : Outcome ε Nat :=
  if n < bound then .ok n
  else if overflowChecks then .panicked
  else .ok (n % bound)

/-- A value of the type is exact. -/
theorem unsigned_of_lt {overflowChecks : Bool} {bound n : Nat} (h : n < bound) :
    (unsigned overflowChecks bound n : Outcome ε Nat) = .ok n := if_pos h

/-- Whatever comes of it is the exact result modulo the number of values. -/
theorem eq_mod_of_unsigned {overflowChecks : Bool} {bound n value : Nat}
    (h : (unsigned overflowChecks bound n : Outcome ε Nat) = .ok value) : value = n % bound := by
  rw [unsigned] at h
  split at h
  · next hlt =>
    cases h
    exact (Nat.mod_eq_of_lt hlt).symm
  · split at h
    · cases h
    · cases h
      rfl

/-- Every error of the call is of this kind. -/
def ErrorsIn (q : ε → Prop) (call : Outcome ε α) : Prop := ∀ e, call = .error e → q e

/-- An operation on an unsigned type is no error. -/
theorem unsigned_errors {overflowChecks : Bool} {bound n : Nat} {q : ε → Prop} :
    (unsigned overflowChecks bound n : Outcome ε Nat).ErrorsIn q := by
  intro e he
  rw [unsigned] at he
  split at he
  · cases he
  · split at he <;> cases he

/-- The errors of a sequence are those of its parts. -/
theorem ErrorsIn.bind {q : ε → Prop} {call : Outcome ε α} {next : α → Outcome ε β}
    (hcall : call.ErrorsIn q) (hnext : ∀ value, (next value).ErrorsIn q) :
    (call >>= next).ErrorsIn q := by
  intro e he
  cases call with
  | ok value => exact hnext value e he
  | error e' =>
    cases he
    exact hcall e rfl
  | panicked => cases he

/-- The call does not panic, and a value it returns satisfies `q`; any error will do. -/
def Yields (q : α → Prop) : Outcome ε α → Prop
  | .ok value => q value
  | .error _ => True
  | .panicked => False

/-- What a sequence yields, as a condition on its first part. -/
theorem yields_bind {q : β → Prop} {call : Outcome ε α} {next : α → Outcome ε β} :
    (call >>= next).Yields q ↔ call.Yields fun value => (next value).Yields q := by
  cases call <;> exact Iff.rfl

/-- What a call yields that does not panic. -/
theorem yields_iff {q : α → Prop} {call : Outcome ε α} (h : call ≠ .panicked) :
    call.Yields q ↔ ∀ value, call = .ok value → q value := by
  cases call with
  | ok value => simp [Yields]
  | error e => simp [Yields]
  | panicked => exact absurd rfl h

/-- What an operation on an unsigned type yields: its exact result, or the wrapped one where
overflow is not checked. -/
theorem unsigned_yields_iff {q : Nat → Prop} {overflowChecks : Bool} {bound n : Nat} :
    (unsigned overflowChecks bound n : Outcome ε Nat).Yields q ↔
      if n < bound then q n else overflowChecks = false ∧ q (n % bound) := by
  rw [unsigned]
  split
  · exact Iff.rfl
  · cases overflowChecks <;> simp [Yields]

end Outcome
