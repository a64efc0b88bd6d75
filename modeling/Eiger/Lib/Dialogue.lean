import Eiger.Lib.Run
import Mathlib.Data.List.Forall2

/-!
# Programs that hold a dialogue

A `Program` works on the state of a connection: it may wait for ever, or it returns, with a result
or an error, and leaves the state as it then is. A `Protocol` says what one exchange over the
connection does to the state, what was asked in it, and whether it failed.

`Converses p scripts` is what there is to know of a program: it follows a script line by line, each
of which says what is asked, which answer is accepted, and which is rejected with which error. The
program returns a result exactly by a dialogue that meets the whole script of that result. It
returns an error exactly by a dialogue that meets the lines of a script up to an exchange that has
failed, or whose answer the line rejects, with this error. And where it waits for ever, what the
next line asks never returns. `Converses.bind` composes scripts as the programs are composed.
-/

namespace Dialogue

open Transition

variable {ε σ ξ κ α β : Type}

/-- A program on a state, with errors: it may not return. -/
abbrev Program (ε σ : Type) := ExceptT ε (StateT σ Option)

/-- What a program returns from a state, and the state then. -/
def exec (p : Program ε σ α) (s : σ) : Option (Except ε α × σ) := p.run.run s

/-- A program that returns at once. -/
@[simp] theorem exec_pure (a : α) (s : σ) : exec (pure a : Program ε σ α) s = some (.ok a, s) := rfl

/-- A program that fails at once. -/
@[simp] theorem exec_throw (e : ε) (s : σ) :
    exec (throw e : Program ε σ α) s = some (.error e, s) := rfl

/-- What is known already, as a program: a result, or an error. -/
def fromExcept (r : Except ε α) : Program ε σ α := ExceptT.mk (pure r)

/-- It is returned at once. -/
@[simp] theorem exec_fromExcept (r : Except ε α) (s : σ) :
    exec (fromExcept r : Program ε σ α) s = some (r, s) := rfl

/-- A program goes on where it has a result. -/
theorem exec_bind_ok {p : Program ε σ α} {f : α → Program ε σ β} {s t : σ} {a : α}
    (h : exec p s = some (.ok a, t)) : exec (p >>= f) s = exec (f a) t := by
  show ((exec p s).bind fun x => ExceptT.bindCont f x.1 x.2) = exec (f a) t
  rw [h]
  rfl

/-- A program ends with its first error. -/
theorem exec_bind_error {p : Program ε σ α} {f : α → Program ε σ β} {s t : σ} {e : ε}
    (h : exec p s = some (.error e, t)) : exec (p >>= f) s = some (.error e, t) := by
  show ((exec p s).bind fun x => ExceptT.bindCont f x.1 x.2) = _
  rw [h]
  rfl

/-- What a program has returned that goes on: the first error, or what it returned then. -/
theorem exec_bind_cases {p : Program ε σ α} {f : α → Program ε σ β} {s u : σ} {r : Except ε β}
    (h : exec (p >>= f) s = some (r, u)) :
    (∃ e, exec p s = some (.error e, u) ∧ r = .error e) ∨
      ∃ a t, exec p s = some (.ok a, t) ∧ exec (f a) t = some (r, u) := by
  cases hp : exec p s with
  | none =>
    have hnone : exec (p >>= f) s = (exec p s).bind fun x => ExceptT.bindCont f x.1 x.2 := rfl
    rw [hnone, hp] at h
    cases h
  | some returned =>
    obtain ⟨result, t⟩ := returned
    cases result with
    | error e =>
      rw [exec_bind_error hp] at h
      cases h
      exact .inl ⟨e, rfl, rfl⟩
    | ok a =>
      rw [exec_bind_ok hp] at h
      exact .inr ⟨a, t, rfl, h⟩

/-- A program waits for ever where its first part does, or what it goes on with. -/
theorem exec_bind_none {p : Program ε σ α} {f : α → Program ε σ β} {s : σ}
    (h : exec (p >>= f) s = none) :
    exec p s = none ∨ ∃ a t, exec p s = some (.ok a, t) ∧ exec (f a) t = none := by
  cases hp : exec p s with
  | none => exact .inl rfl
  | some returned =>
    obtain ⟨result, t⟩ := returned
    cases result with
    | error e =>
      rw [exec_bind_error hp] at h
      cases h
    | ok a =>
      rw [exec_bind_ok hp] at h
      exact .inr ⟨a, t, rfl, h⟩

/-! ## Dialogues -/

/-- What an exchange does to the state, what was asked in it, and how it failed, if it did. -/
structure Protocol (σ ξ κ ε : Type) where
  step : σ → ξ → Option σ
  call : ξ → κ
  failure : ξ → Option ε

/-- A line of a script: what is asked, which exchange is as it should be, and which is rejected with
which error; none is both. -/
structure Line (ξ κ ε : Type) where
  call : κ
  accepts : ξ → Prop
  rejects : ξ → ε → Prop
  apart : ∀ {x e}, accepts x → ¬ rejects x e

namespace Protocol

variable (π : Protocol σ ξ κ ε)

/-- The exchanges lead from one state to another. -/
abbrev Exchanged (s : σ) (xs : List ξ) (t : σ) : Prop := Run π.step (fun _ _ => True) s xs t

/-- An exchange asks what a line asks, and is as it should be. -/
structure Meets (line : Line ξ κ ε) (x : ξ) : Prop where
  call : π.call x = line.call
  fine : π.failure x = none
  accepted : line.accepts x

/-- An exchange asks what a line asks, and ends with this error: it has failed with it, or it has
not failed and the line rejects it with that error. -/
structure Misses (line : Line ξ κ ε) (x : ξ) (e : ε) : Prop where
  call : π.call x = line.call
  error : π.failure x = some e ∨ π.failure x = none ∧ line.rejects x e

/-- How a dialogue ends that follows a script: with the result of the script, when all its lines
have been met; or with the first exchange that misses its line, and with its error. -/
inductive Follows (scripts : α → List (Line ξ κ ε) → Prop) : List ξ → Except ε α → Prop
  | returned {a : α} {script : List (Line ξ κ ε)} {xs : List ξ} (hscript : scripts a script)
    (hmet : List.Forall₂ π.Meets script xs) : Follows scripts xs (.ok a)
  | stopped {a : α} {script rest : List (Line ξ κ ε)} {line : Line ξ κ ε} {xs : List ξ} {x : ξ}
    {e : ε} (hscript : scripts a (script ++ line :: rest))
    (hmet : List.Forall₂ π.Meets script xs) (hmissed : π.Misses line x e) :
    Follows scripts (xs ++ [x]) (.error e)

/-- A dialogue that follows a script waits for ever: the lines so far have been met, and what the
next one asks never returns. -/
structure Hangs (scripts : α → List (Line ξ κ ε) → Prop) (s : σ) : Prop where
  waits : ∃ a script line rest xs t, scripts a (script ++ line :: rest) ∧ π.Exchanged s xs t ∧
    List.Forall₂ π.Meets script xs ∧ ∀ x, π.call x = line.call → π.step t x = none

/-- The program follows the scripts for its results, from any state: it returns as a dialogue that
follows one ends, and waits for ever only where one does. -/
structure Converses (p : Program ε σ α) (scripts : α → List (Line ξ κ ε) → Prop) : Prop where
  live : ∃ a script, scripts a script
  returns : ∀ s r t, exec p s = some (r, t) ↔ ∃ xs, π.Exchanged s xs t ∧ π.Follows scripts xs r
  hangs : ∀ s, exec p s = none → π.Hangs scripts s

variable {π}

/-- What misses a line does not meet it. -/
theorem Misses.not_meets {line : Line ξ κ ε} {x : ξ} {e : ε} (h : π.Misses line x e) :
    ¬ π.Meets line x := by
  intro hmeets
  obtain hfailure | ⟨-, hrejects⟩ := h.error
  · cases hfailure.symm.trans hmeets.fine
  · exact line.apart hmeets.accepted hrejects

/-- What is asked in exchanges that meet their lines. -/
theorem map_call_of_meets {script : List (Line ξ κ ε)} {xs : List ξ}
    (h : List.Forall₂ π.Meets script xs) : xs.map π.call = script.map Line.call := by
  induction h with
  | nil => rfl
  | cons hmeets _ ih => rw [List.map_cons, List.map_cons, hmeets.call, ih]

/-- Such exchanges have not failed. -/
theorem fine_of_meets {script : List (Line ξ κ ε)} {xs : List ξ}
    (h : List.Forall₂ π.Meets script xs) : ∀ x ∈ xs, π.failure x = none := by
  induction h with
  | nil =>
    intro x hx
    cases hx
  | cons hmeets _ ih => exact List.forall_mem_cons.2 ⟨hmeets.fine, ih⟩

/-- Each line has been met by an exchange. -/
theorem exists_of_meets {script : List (Line ξ κ ε)} {xs : List ξ} {line : Line ξ κ ε}
    (h : List.Forall₂ π.Meets script xs) (hline : line ∈ script) : ∃ x ∈ xs, π.Meets line x := by
  induction h with
  | nil => cases hline
  | cons hmeets _ ih =>
    cases hline with
    | head => exact ⟨_, List.mem_cons_self, hmeets⟩
    | tail _ hline =>
      obtain ⟨x, hx, hmeets⟩ := ih hline
      exact ⟨x, List.mem_cons_of_mem _ hx, hmeets⟩

/-- Exchanges that meet two scripts in turn come apart into two dialogues. -/
theorem split_of_meets {first second : List (Line ξ κ ε)} {xs : List ξ}
    (h : List.Forall₂ π.Meets (first ++ second) xs) : ∃ ys zs, xs = ys ++ zs ∧
      List.Forall₂ π.Meets first ys ∧ List.Forall₂ π.Meets second zs :=
  ⟨xs.take first.length, xs.drop first.length, (List.take_append_drop ..).symm,
    (List.forall₂_take_append _ _ _ h.flip).flip, (List.forall₂_drop_append _ _ _ h.flip).flip⟩

/-- A script for what follows on a result comes after one for that result. -/
abbrev InTurn (scripts : α → List (Line ξ κ ε) → Prop) (next : α → β → List (Line ξ κ ε) → Prop) :
    β → List (Line ξ κ ε) → Prop :=
  fun b script => ∃ a first second, script = first ++ second ∧ scripts a first ∧ next a b second

namespace Follows

variable {scripts : α → List (Line ξ κ ε) → Prop} {next : α → β → List (Line ξ κ ε) → Prop}
  {xs ys : List ξ} {a : α} {e : ε} {r : Except ε β}

/-- A dialogue that stops in the first script stops in both. -/
theorem before (h : π.Follows scripts xs (.error e)) (hnext : ∀ a, ∃ b script, next a b script) :
    π.Follows (InTurn scripts next) xs (.error e) := by
  cases h with
  | @stopped a script rest line xs x _ hscript hmet hmissed =>
    obtain ⟨b, second, hsecond⟩ := hnext a
    have hwhole : InTurn scripts next b (script ++ line :: (rest ++ second)) :=
      ⟨a, _, second, by rw [List.append_assoc, List.cons_append], hscript, hsecond⟩
    exact .stopped hwhole hmet hmissed

/-- A dialogue that goes through the first script goes on with the second. -/
theorem append (h : π.Follows scripts xs (.ok a)) (h' : π.Follows (next a) ys r) :
    π.Follows (InTurn scripts next) (xs ++ ys) r := by
  cases h with
  | @returned _ first _ hfirst hmet =>
    cases h' with
    | returned hsecond hmet' =>
      exact .returned ⟨a, first, _, rfl, hfirst, hsecond⟩ (List.rel_append hmet hmet')
    | @stopped b script rest line ys y e hsecond hmet' hmissed =>
      have hwhole : InTurn scripts next b (first ++ script ++ line :: rest) :=
        ⟨a, first, _, List.append_assoc .., hfirst, hsecond⟩
      rw [← List.append_assoc]
      exact .stopped hwhole (List.rel_append hmet hmet') hmissed

/-- A dialogue that follows both stops in the first script, or goes through it and follows the
second. -/
theorem split (h : π.Follows (InTurn scripts next) xs r) :
    (∃ e, r = .error e ∧ π.Follows scripts xs (.error e)) ∨
      ∃ a ys zs, xs = ys ++ zs ∧ π.Follows scripts ys (.ok a) ∧ π.Follows (next a) zs r := by
  cases h with
  | @returned b _ _ hscript hmet =>
    obtain ⟨a, first, second, rfl, hfirst, hsecond⟩ := hscript
    obtain ⟨ys, zs, rfl, hys, hzs⟩ := split_of_meets hmet
    exact .inr ⟨a, ys, zs, rfl, .returned hfirst hys, .returned hsecond hzs⟩
  | @stopped b script rest line xs x e hscript hmet hmissed =>
    obtain ⟨a, first, second, hwhole, hfirst, hsecond⟩ := hscript
    -- the line is missed in the first script, or in the second
    obtain ⟨more, rfl, hmore⟩ | ⟨more, rfl, rfl⟩ := List.append_eq_append_iff.1 hwhole
    · cases more with
      | nil =>
        rw [List.nil_append] at hmore
        subst hmore
        rw [List.append_nil] at hfirst
        exact .inr ⟨a, xs, [x], rfl, .returned hfirst hmet,
          @Follows.stopped _ _ _ _ _ π _ b [] rest line [] x e hsecond .nil hmissed⟩
      | cons line' more =>
        obtain ⟨rfl, -⟩ := List.cons.inj hmore
        exact .inl ⟨e, rfl, .stopped hfirst hmet hmissed⟩
    · obtain ⟨ys, zs, rfl, hys, hzs⟩ := split_of_meets hmet
      exact .inr ⟨a, ys, zs ++ [x], List.append_assoc .., .returned hfirst hys,
        .stopped hsecond hzs hmissed⟩

end Follows

namespace Hangs

variable {scripts : α → List (Line ξ κ ε) → Prop} {next : α → β → List (Line ξ κ ε) → Prop}
  {s t : σ} {xs : List ξ} {a : α}

/-- A dialogue that waits for ever in the first script does so in both. -/
theorem before (h : π.Hangs scripts s) (hnext : ∀ a, ∃ b script, next a b script) :
    π.Hangs (InTurn scripts next) s := by
  obtain ⟨a, script, line, rest, xs, t, hscript, hxs, hmet, hwaits⟩ := h.waits
  obtain ⟨b, second, hsecond⟩ := hnext a
  exact ⟨b, script, line, rest ++ second, xs, t,
    ⟨a, _, second, by rw [List.append_assoc, List.cons_append], hscript, hsecond⟩,
    hxs, hmet, hwaits⟩

/-- So does one that goes through the first script and waits for ever in the second. -/
theorem append (hxs : π.Exchanged s xs t) (hfollows : π.Follows scripts xs (.ok a))
    (h : π.Hangs (next a) t) : π.Hangs (InTurn scripts next) s := by
  cases hfollows with
  | @returned _ first _ hfirst hmet =>
    obtain ⟨b, script, line, rest, ys, u, hsecond, hys, hmet', hwaits⟩ := h.waits
    exact ⟨b, first ++ script, line, rest, xs ++ ys, u,
      ⟨a, first, _, List.append_assoc .., hfirst, hsecond⟩, hxs.trans hys,
      List.rel_append hmet hmet', hwaits⟩

end Hangs

namespace Converses

variable {p : Program ε σ α} {f : α → Program ε σ β}
  {scripts scripts' : α → List (Line ξ κ ε) → Prop} {next : α → β → List (Line ξ κ ε) → Prop}

/-- The scripts may be said otherwise. -/
theorem congr (h : π.Converses p scripts)
    (hsame : ∀ a script, scripts a script ↔ scripts' a script) : π.Converses p scripts' := by
  have heq : scripts = scripts' := funext fun a => funext fun script => propext (hsame a script)
  rwa [← heq]

/-- Nothing is asked for a result that is there. -/
theorem pure (a : α) :
    π.Converses (Pure.pure a : Program ε σ α) fun b script => b = a ∧ script = [] := by
  refine ⟨⟨a, [], rfl, rfl⟩, fun s r t => ⟨fun hexec => ?_, ?_⟩, fun s hexec => by cases hexec⟩
  · cases hexec
    exact ⟨[], .nil, @Follows.returned _ _ _ _ _ π _ a [] [] ⟨rfl, rfl⟩ .nil⟩
  · rintro ⟨xs, hxs, hfollows⟩
    cases hfollows with
    | returned hscript hmet =>
      obtain ⟨rfl, rfl⟩ := hscript
      cases hmet
      obtain rfl := hxs.unique (.nil : Run π.step (fun _ _ => True) s [] s)
      exact exec_pure _ _
    | stopped hscript _ _ =>
      exact absurd hscript.2 (List.append_ne_nil_of_right_ne_nil _ (List.cons_ne_nil _ _))

/-- A program that asks once follows a script of one line, where it returns what the line says of
the exchange, and waits for ever only if what it asks never returns. -/
theorem ask [Nonempty α] {lines : α → Line ξ κ ε}
    (h : ∀ s r t, exec p s = some (r, t) ↔ ∃ x, π.step s x = some t ∧
      ((∃ a, r = .ok a ∧ π.Meets (lines a) x) ∨ ∃ a e, r = .error e ∧ π.Misses (lines a) x e))
    (hhangs : ∀ s a x, exec p s = none → π.call x = (lines a).call → π.step s x = none) :
    π.Converses p fun a script => script = [lines a] := by
  obtain ⟨a⟩ := ‹Nonempty α›
  refine ⟨⟨a, _, rfl⟩, fun s r t => (h s r t).trans ⟨?_, ?_⟩, fun s hexec => ?_⟩
  · rintro ⟨x, hstep, ⟨b, rfl, hmeets⟩ | ⟨b, e, rfl, hmisses⟩⟩
    · exact ⟨[x], .single trivial hstep, .returned rfl (.cons hmeets .nil)⟩
    · exact ⟨[x], .single trivial hstep,
        @Follows.stopped _ _ _ _ _ π _ b [] [] (lines b) [] x e rfl .nil hmisses⟩
  · rintro ⟨xs, hxs, hfollows⟩
    cases hfollows with
    | @returned b _ _ hscript hmet =>
      subst hscript
      obtain ⟨x, ys, hmeets, hrest, rfl⟩ := List.forall₂_cons_left_iff.1 hmet
      cases hrest
      exact ⟨x, hxs.single_inv.2, .inl ⟨b, rfl, hmeets⟩⟩
    | @stopped b script rest line xs x e hscript hmet hmissed =>
      obtain ⟨rfl, hrest⟩ | ⟨script', rfl, hrest⟩ := List.append_eq_cons_iff.1 hscript
      · cases hrest
        cases hmet
        exact ⟨x, hxs.single_inv.2, .inr ⟨b, e, rfl, hmissed⟩⟩
      · exact absurd hrest.symm
          (List.append_ne_nil_of_right_ne_nil _ (List.cons_ne_nil _ _))
  · exact ⟨a, [], lines a, [], [], s, rfl, .nil, .nil, fun x => hhangs s a x hexec⟩

/-- **Scripts are composed as programs are.** -/
theorem bind (hp : π.Converses p scripts) (hf : ∀ a, π.Converses (f a) (next a)) :
    π.Converses (p >>= f) (InTurn scripts next) := by
  have hlive (a : α) : ∃ b script, next a b script := (hf a).live
  refine ⟨?_, fun s r u => ⟨fun hexec => ?_, ?_⟩, fun s hexec => ?_⟩
  · obtain ⟨a, first, hfirst⟩ := hp.live
    obtain ⟨b, second, hsecond⟩ := hlive a
    exact ⟨b, first ++ second, a, first, second, rfl, hfirst, hsecond⟩
  · obtain ⟨e, hfirst, rfl⟩ | ⟨a, t, hfirst, hrest⟩ := exec_bind_cases hexec
    · obtain ⟨xs, hxs, hfollows⟩ := (hp.returns s _ u).1 hfirst
      exact ⟨xs, hxs, hfollows.before hlive⟩
    · obtain ⟨xs, hxs, hfollows⟩ := (hp.returns s _ t).1 hfirst
      obtain ⟨ys, hys, hfollows'⟩ := ((hf a).returns t r u).1 hrest
      exact ⟨xs ++ ys, hxs.trans hys, hfollows.append hfollows'⟩
  · rintro ⟨xs, hxs, hfollows⟩
    obtain ⟨e, rfl, hfirst⟩ | ⟨a, ys, zs, rfl, hfirst, hsecond⟩ := hfollows.split
    · exact exec_bind_error ((hp.returns s (.error e) u).2 ⟨xs, hxs, hfirst⟩)
    · obtain ⟨t, hys, hzs⟩ := hxs.split
      rw [exec_bind_ok ((hp.returns s (.ok a) t).2 ⟨ys, hys, hfirst⟩)]
      exact ((hf a).returns t r u).2 ⟨zs, hzs, hsecond⟩
  · obtain hfirst | ⟨a, t, hfirst, hrest⟩ := exec_bind_none hexec
    · exact (hp.hangs s hfirst).before hlive
    · obtain ⟨xs, hxs, hfollows⟩ := (hp.returns s (.ok a) t).1 hfirst
      exact .append hxs hfollows ((hf a).hangs t hrest)

/-- A script is done when the program is whose result is known. -/
theorem map (g : α → β) (hp : π.Converses p scripts) :
    π.Converses (g <$> p) fun b script => ∃ a, b = g a ∧ scripts a script := by
  rw [map_eq_pure_bind]
  refine (hp.bind fun a => .pure (g a)).congr fun b script => ⟨?_, ?_⟩
  · rintro ⟨a, first, _, rfl, hfirst, rfl, rfl⟩
    exact ⟨a, rfl, by rwa [List.append_nil]⟩
  · rintro ⟨a, rfl, hscript⟩
    exact ⟨a, script, [], (List.append_nil _).symm, hscript, rfl, rfl⟩

end Converses

end Protocol

end Dialogue
