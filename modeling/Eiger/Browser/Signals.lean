import Eiger.Browser.Types
import Eiger.Lib.Run

/-!
# Signals and recycled pids

`send_sigterm` takes the pid that was stored at the launch. Once this process has reaped the child,
the kernel may give that pid to another process, so the signal must not be sent any more. Two
ladders of waits and signals may send it, `LaunchedBrowser::shutdown` and `terminate_child`; and
after `shutdown` there is the `Drop` of the value. The child may exit at any moment in between.

Neither ladder signals a child that has been reaped, whatever the waits return (`signals_unreaped`).
If `waitpid` does not fail, the child has been reaped in the end, or `SIGKILL` has been sent.
-/

namespace Eiger

open Transition

/-! ## A child and its handle -/

/-- The state of the child in the kernel: running, exited and not reaped yet, or reaped. In the last
one its pid may be that of another process. -/
inductive ProcessStatus where
  | running
  | exited
  | reaped
  deriving DecidableEq, Repr

/-- The child and what `tokio::process::Child` knows of it: whether a wait has returned its status,
which the handle keeps. -/
structure ChildHandle where
  process : ProcessStatus
  done : Bool
  deriving DecidableEq, Repr

/-- How an await ends: as it should, with an error, or at the end of its time. -/
inductive Await where
  | completed
  | failed
  | elapsed
  deriving DecidableEq, Repr

/-- What `try_wait` returns: `Ok(Some(_))`, `Ok(None)` or an error. -/
inductive TryWait where
  | exited
  | running
  | failed
  deriving DecidableEq, Repr

namespace ChildHandle

/-- The child is reaped, and its status kept. -/
def collected : ChildHandle := { process := .reaped, done := true }

/-- `Child::try_wait`, where `waitpid` may fail. A status that is kept is returned again. -/
def tryWait (fails : Bool) (child : ChildHandle) : TryWait × ChildHandle :=
  if child.done then (.exited, child)
  else if fails then (.failed, child)
  else
    match child.process with
    | .running => (.running, child)
    | .exited => (.exited, collected)
    | .reaped => (.failed, child)

/-- `Child::wait`, ended like this. It is ready at once where the status is kept, and otherwise
completes when the child has exited. -/
def wait (child : ChildHandle) : Await → Option ChildHandle
  | .completed => if child.done then some child
    else if child.process = .exited then some collected
    else none
  | .failed => if child.done then none else some child
  | .elapsed => if child.done then none else some child

/-- What the handle knows is so. -/
def Consistent (child : ChildHandle) : Prop := child.done = true ↔ child.process = .reaped

end ChildHandle

/-! ## The two ladders -/

/-- A signal. -/
inductive Signal where
  | sigterm
  | sigkill
  deriving DecidableEq, Repr

/-- A signal sent to the stored pid, with the state that the child was in, and whether `Drop` has
sent it. -/
structure SentSignal where
  signal : Signal
  process : ProcessStatus
  byDrop : Bool
  deriving DecidableEq, Repr

/-- `LaunchedBrowser::shutdown`, followed by `Drop`, or `terminate_child`. -/
inductive Ladder where
  | shutdown
  | terminateChild
  deriving DecidableEq, Repr

/-- Where a ladder is. -/
inductive LadderPc where
  /-- Calls `try_wait`. -/
  | checking
  /-- Awaits `Browser.close`, in its timeout. -/
  | closing
  /-- Awaits the exit after `Browser.close`, in a timeout. -/
  | leaving
  /-- Calls `send_sigterm`. -/
  | signalling
  /-- Awaits the exit after `SIGTERM`, in a timeout. -/
  | terminating
  /-- `Child::kill` calls `start_kill`. -/
  | killing
  /-- `Child::kill` awaits the exit. -/
  | collecting
  /-- `shutdown` has returned, or its future is dropped; `Drop` calls `try_wait`. -/
  | returned (kind : Option ShutdownKind)
  /-- `Drop` calls `start_kill`. -/
  | dropping (kind : Option ShutdownKind)
  | dropped (kind : Option ShutdownKind)
  /-- `terminate_child` has returned, or is dropped. -/
  | ended
  deriving DecidableEq, Repr

/-- A ladder on its way, with the signals sent. -/
structure Escalation where
  child : ChildHandle
  pc : LadderPc
  signals : List SentSignal
  deriving DecidableEq, Repr

namespace Escalation

/-- A signal is sent to the stored pid. -/
def send (s : Escalation) (signal : Signal) (byDrop : Bool) : Escalation :=
  { s with signals := s.signals ++ [{ signal, process := s.child.process, byDrop }] }

/-- The end of a ladder. -/
def finish (kind : ShutdownKind) : Ladder → LadderPc
  | .shutdown => .returned (some kind)
  | .terminateChild => .ended

/-- The next step of a ladder, with how its await, its `waitpid` or its `kill` ends. -/
def advance (ladder : Ladder) (s : Escalation) (await : Await) : Option Escalation :=
  match s.pc with
  | .checking =>
    let found := s.child.tryWait (await = .failed)
    let pc := match ladder, found.1 with
      | .shutdown, .exited => .returned (some .alreadyExited)
      | .shutdown, .running | .shutdown, .failed => .closing
      | .terminateChild, .running => .signalling
      | .terminateChild, .exited | .terminateChild, .failed => .ended
    some { s with child := found.2, pc }
  | .closing => some { s with pc := if await = .completed then .leaving else .signalling }
  | .leaving =>
    (s.child.wait await).map fun child =>
      { s with child, pc := if await = .elapsed then .signalling else finish .graceful ladder }
  | .signalling => some { s.send .sigterm false with pc := .terminating }
  | .terminating =>
    (s.child.wait await).map fun child =>
      { s with child, pc := if await = .elapsed then .killing else finish .terminated ladder }
  | .killing =>
    if s.child.done then some { s with pc := finish .killed ladder }
    else
      some { s.send .sigkill false with
        pc := if await = .completed then .collecting else finish .killed ladder }
  | .collecting =>
    if await = .elapsed then none
    else (s.child.wait await).map fun child => { s with child, pc := finish .killed ladder }
  | .returned kind =>
    let found := s.child.tryWait (await = .failed)
    let pc := match found.1 with
      | .running => .dropping kind
      | .exited | .failed => .dropped kind
    some { s with child := found.2, pc }
  | .dropping kind =>
    if s.child.done then some { s with pc := .dropped kind }
    else some { s.send .sigkill true with pc := .dropped kind }
  | .dropped _ => none
  | .ended => none

/-- The future of a ladder is dropped at an await. -/
def cancel (ladder : Ladder) (s : Escalation) : Option Escalation :=
  if s.pc ∈ [.closing, .leaving, .terminating, .collecting] then
    some { s with
      pc := match ladder with
        | .shutdown => .returned none
        | .terminateChild => .ended }
  else none

end Escalation

/-- What may happen: the child exits of its own accord or of a signal, the ladder goes on, or it is
dropped. -/
inductive SignalAction where
  | exit
  | advance (await : Await)
  | cancel
  deriving DecidableEq, Repr

/-- A step. -/
def Escalation.step (ladder : Ladder) (s : Escalation) : SignalAction → Option Escalation
  | .exit =>
    if s.child.process = .running then some { s with child := { s.child with process := .exited } }
    else none
  | .advance await => s.advance ladder await
  | .cancel => s.cancel ladder

/-- The start of a ladder. The child may have exited, and an earlier wait may have reaped it. -/
def Escalation.start (child : ChildHandle) : Escalation := { child, pc := .checking, signals := [] }

/-- The ladder calls `waitpid` next, or awaits it. -/
def LadderPc.waits : LadderPc → Bool
  | .checking | .leaving | .terminating | .collecting | .returned _ => true
  | _ => false

/-- The assumption that `waitpid` does not fail. -/
def WaitpidWorks (s : Escalation) (a : SignalAction) : Prop :=
  s.pc.waits = true → a ≠ .advance .failed

/-- `shutdown` itself has sent `SIGKILL`. -/
def Escalation.Killed (s : Escalation) : Prop :=
  ∃ sent ∈ s.signals, sent.signal = .sigkill ∧ sent.byDrop = false

/-- `SIGKILL` has been sent. -/
def Escalation.SentKill (s : Escalation) : Prop := ∃ sent ∈ s.signals, sent.signal = .sigkill

/-! ## What a step keeps -/

/-- The ladder may still signal the child before it calls `waitpid` again. -/
def LadderPc.signals : LadderPc → Bool
  | .closing | .leaving | .signalling | .terminating | .killing | .dropping _ => true
  | _ => false

/-- No signal has been sent to a child that had been reaped, and none is about to be. -/
structure Escalation.Safe (s : Escalation) : Prop where
  consistent : s.child.Consistent
  unreaped : s.pc.signals = true → s.child.done = false
  signals : ∀ sent ∈ s.signals, sent.process ≠ .reaped

/-- What the end of a ladder says of `SIGKILL` is so, and up to there it has not been sent. -/
def Escalation.Accounted (s : Escalation) : Prop :=
  match s.pc with
  | .returned (some kind) | .dropping (some kind) | .dropped (some kind) =>
    kind = .killed ↔ s.Killed
  | .returned none | .dropping none | .dropped none | .ended => True
  | .collecting => s.Killed
  | _ => ¬ s.Killed

/-- Once the value has been dropped, the child has been reaped, or `SIGKILL` has been sent. -/
def Escalation.Settled (s : Escalation) : Prop :=
  ∀ kind, s.pc = .dropped kind → s.child.process = .reaped ∨ s.SentKill

namespace ChildHandle

variable {child child' : ChildHandle} {fails : Bool} {await : Await}

/-- What `try_wait` finds is kept, and it knows of an exit that has been reaped before. -/
theorem tryWait_spec (h : child.Consistent) :
    (child.tryWait fails).2.Consistent ∧
      ((child.tryWait fails).1 = .exited ↔ (child.tryWait fails).2.done = true) ∧
      (fails = false → (child.tryWait fails).1 ≠ .failed) := by
  obtain ⟨process, done⟩ := child
  rw [Consistent] at h ⊢
  cases done <;> cases fails <;> cases process <;> simp_all [tryWait, collected]

/-- A wait that completes knows the status of the child, which has been reaped; any other one leaves
the child as it was, not known to have exited. -/
theorem wait_spec (h : child.Consistent) (hwait : child.wait await = some child') :
    child'.Consistent ∧ (await = .completed ↔ child'.done = true) := by
  obtain ⟨process, done⟩ := child
  rw [Consistent] at h ⊢
  cases done <;> cases await <;> cases process <;> simp_all [wait, collected]
  all_goals subst hwait; simp

end ChildHandle

namespace Escalation

variable {ladder : Ladder} {s t : Escalation} {a : SignalAction}

/-- A signal to a child that is not known to have exited keeps the signals safe. -/
theorem Safe.send (h : s.Safe) (hdone : s.child.done = false) (signal : Signal) (byDrop : Bool) :
    ∀ sent ∈ (s.send signal byDrop).signals, sent.process ≠ .reaped := by
  intro sent hsent
  rw [Escalation.send, List.mem_append, List.mem_singleton] at hsent
  obtain hsent | rfl := hsent
  · exact h.signals sent hsent
  · intro hreaped
    rw [h.consistent.2 hreaped] at hdone
    cases hdone

/-- A ladder that has ended signals no more. -/
theorem finish_signals (kind : ShutdownKind) : (finish kind ladder).signals = false := by
  cases ladder <;> rfl

/-- Where `try_wait` finds the status of the child, a safe ladder must not signal any more. -/
theorem Safe.looked (h : s.Safe) (fails : Bool) {pc : LadderPc}
    (hpc : (s.child.tryWait fails).1 = .exited → pc.signals = false) :
    Safe { s with child := (s.child.tryWait fails).2, pc } := by
  obtain ⟨hconsistent, hexited, -⟩ := @ChildHandle.tryWait_spec s.child fails h.consistent
  refine ⟨hconsistent, fun hwill => ?_, h.signals⟩
  have hwill : pc.signals = true := hwill
  rw [← Bool.not_eq_true, ← hexited]
  intro hfound
  rw [hpc hfound] at hwill
  cases hwill

/-- Nor where a wait completes. -/
theorem Safe.waited (h : s.Safe) {await : Await} {child : ChildHandle} {pc : LadderPc}
    (hwait : s.child.wait await = some child) (hpc : await = .completed → pc.signals = false) :
    Safe { s with child, pc } := by
  obtain ⟨hconsistent, hdone⟩ := ChildHandle.wait_spec h.consistent hwait
  refine ⟨hconsistent, fun hwill => ?_, h.signals⟩
  have hwill : pc.signals = true := hwill
  rw [← Bool.not_eq_true, ← hdone]
  intro hcompleted
  rw [hpc hcompleted] at hwill
  cases hwill

/-- It may where the child is not known to have exited. -/
theorem Safe.sent (h : s.Safe) (hdone : s.child.done = false) (signal : Signal) (byDrop : Bool)
    (pc : LadderPc) : Safe { s.send signal byDrop with pc } :=
  ⟨h.consistent, fun _ => hdone, h.send hdone signal byDrop⟩

/-- `kill` signals a child that is not known to have exited. -/
theorem advance_killing {child : ChildHandle} {signals : List SentSignal} {await : Await}
    (hdone : child.done = false) :
    (mk child .killing signals).advance ladder await =
      some { (mk child .killing signals).send .sigkill false with
        pc := if await = .completed then .collecting else finish .killed ladder } := by
  simp only [Escalation.advance, hdone, Bool.false_eq_true, if_false]

/-- So does `start_kill` in `Drop`. -/
theorem advance_dropping {child : ChildHandle} {signals : List SentSignal} {await : Await}
    {kind : Option ShutdownKind} (hdone : child.done = false) :
    (mk child (.dropping kind) signals).advance ladder await =
      some { (mk child (.dropping kind) signals).send .sigkill true with pc := .dropped kind } := by
  simp only [Escalation.advance, hdone, Bool.false_eq_true, if_false]

/-- A step of a ladder keeps the signals safe: where a wait has reaped the child, the ladder is past
its signals, and where one has timed out, the child has not been reaped. -/
theorem Safe.advance (h : s.Safe) {await : Await} (hadvance : s.advance ladder await = some t) :
    t.Safe := by
  obtain ⟨child, pc, signals⟩ := s
  have hunreaped : pc.signals = true → child.done = false := h.unreaped
  cases pc with
  | checking =>
    cases hadvance
    refine h.looked (await = .failed) fun hfound => ?_
    have hfound : (child.tryWait (await = .failed)).1 = .exited := hfound
    cases ladder <;> simp [hfound, LadderPc.signals]
  | closing =>
    cases hadvance
    exact ⟨h.consistent, fun _ => hunreaped rfl, h.signals⟩
  | leaving =>
    obtain ⟨child', hwait, rfl⟩ := Option.map_eq_some_iff.1 hadvance
    refine h.waited hwait ?_
    rintro rfl
    exact finish_signals _
  | signalling =>
    cases hadvance
    exact h.sent (hunreaped rfl) _ _ _
  | terminating =>
    obtain ⟨child', hwait, rfl⟩ := Option.map_eq_some_iff.1 hadvance
    refine h.waited hwait ?_
    rintro rfl
    exact finish_signals _
  | killing =>
    cases (advance_killing (hunreaped rfl)).symm.trans hadvance
    exact h.sent (hunreaped rfl) _ _ _
  | collecting =>
    simp only [Escalation.advance, Option.ite_none_left_eq_some] at hadvance
    obtain ⟨child', hwait, rfl⟩ := Option.map_eq_some_iff.1 hadvance.2
    exact h.waited hwait fun _ => finish_signals _
  | returned kind =>
    cases hadvance
    refine h.looked (await = .failed) fun hfound => ?_
    have hfound : (child.tryWait (await = .failed)).1 = .exited := hfound
    rw [hfound]
    rfl
  | dropping kind =>
    cases (advance_dropping (hunreaped rfl)).symm.trans hadvance
    exact h.sent (hunreaped rfl) _ _ _
  | dropped kind => cases hadvance
  | ended => cases hadvance

/-- Dropping the future of a ladder leaves the child and the signals as they are, and no ladder
signals between its end and the next wait. -/
theorem cancel_spec (hcancel : s.cancel ladder = some t) :
    t.child = s.child ∧ t.signals = s.signals ∧ (t.pc = .returned none ∨ t.pc = .ended) := by
  unfold cancel at hcancel
  rw [Option.ite_none_right_eq_some] at hcancel
  obtain ⟨-, hcancel⟩ := hcancel
  cases hcancel
  cases ladder <;> simp

/-- Only a child that runs exits, and its ladder is where it was. -/
theorem exit_spec (hexit : s.step ladder .exit = some t) :
    s.child.process = .running ∧ t = { s with child := { s.child with process := .exited } } := by
  rw [Escalation.step, Option.ite_none_right_eq_some] at hexit
  exact ⟨hexit.1, (Option.some.inj hexit.2).symm⟩

/-- **The signals stay safe.** Whatever happens to the ladder or the child. -/
theorem Safe.step (h : s.Safe) (hstep : s.step ladder a = some t) : t.Safe := by
  cases a with
  | exit =>
    obtain ⟨hrunning, rfl⟩ := exit_spec hstep
    refine ⟨?_, h.unreaped, h.signals⟩
    have hconsistent := h.consistent
    rw [ChildHandle.Consistent, hrunning] at hconsistent
    simpa [ChildHandle.Consistent] using hconsistent
  | advance await => exact h.advance hstep
  | cancel =>
    obtain ⟨hchild, hsignals, hpc⟩ := cancel_spec hstep
    refine ⟨hchild ▸ h.consistent, fun hwill => ?_, hsignals ▸ h.signals⟩
    obtain hpc | hpc := hpc <;> rw [hpc] at hwill <;> cases hwill

/-! ## What the end of a ladder says -/

/-- `SIGKILL` of the ladder itself is the one signal that counts as such. -/
theorem killed_send (signal : Signal) (byDrop : Bool) :
    (s.send signal byDrop).Killed ↔ s.Killed ∨ signal = .sigkill ∧ byDrop = false := by
  simp only [Killed, send, List.mem_append, List.mem_singleton, or_and_right, exists_or,
    exists_eq_left]

/-- A ladder that ends with the right report. -/
theorem accounted_finish {kind : ShutdownKind} (child : ChildHandle)
    (h : kind = .killed ↔ s.Killed) : Accounted { s with child, pc := finish kind ladder } := by
  cases ladder with
  | shutdown => exact h
  | terminateChild => trivial

/-- A step of a ladder keeps the account of `SIGKILL`: it is sent in one place, from where the only
way on is the end of the ladder as `Killed`. -/
theorem Accounted.advance (hsafe : s.Safe) (h : s.Accounted) {await : Await}
    (hadvance : s.advance ladder await = some t) : t.Accounted := by
  obtain ⟨child, pc, signals⟩ := s
  cases pc with
  | checking =>
    cases hadvance
    cases ladder <;> cases (child.tryWait (await = .failed)).1
    case shutdown.exited => exact iff_of_false (by decide) h
    case shutdown.running => exact h
    case shutdown.failed => exact h
    case terminateChild.running => exact h
    all_goals trivial
  | closing =>
    cases hadvance
    cases await <;> exact h
  | leaving =>
    obtain ⟨child', -, rfl⟩ := Option.map_eq_some_iff.1 hadvance
    split
    · exact h
    · exact accounted_finish child' (iff_of_false (by decide) h)
  | signalling =>
    cases hadvance
    have hsend := killed_send (s := mk child .signalling signals) .sigterm false
    exact fun hkilled => h (by simpa using hsend.1 hkilled)
  | terminating =>
    obtain ⟨child', -, rfl⟩ := Option.map_eq_some_iff.1 hadvance
    split
    · exact h
    · exact accounted_finish child' (iff_of_false (by decide) h)
  | killing =>
    have hkilled : ((mk child .killing signals).send .sigkill false).Killed :=
      (killed_send _ _).2 (.inr ⟨rfl, rfl⟩)
    have hdone : child.done = false := hsafe.unreaped rfl
    cases (advance_killing hdone).symm.trans hadvance
    dsimp only
    split
    · exact hkilled
    · exact accounted_finish child (iff_of_true rfl hkilled)
  | collecting =>
    simp only [Escalation.advance, Option.ite_none_left_eq_some] at hadvance
    obtain ⟨child', -, rfl⟩ := Option.map_eq_some_iff.1 hadvance.2
    exact accounted_finish child' (iff_of_true rfl h)
  | returned kind =>
    cases hadvance
    cases (child.tryWait (await = .failed)).1 <;> cases kind <;> exact h
  | dropping kind =>
    have hdone : child.done = false := hsafe.unreaped rfl
    cases (advance_dropping hdone).symm.trans hadvance
    cases kind with
    | none => trivial
    | some kind =>
      have hsend := killed_send (s := mk child (.dropping kind) signals) .sigkill true
      exact h.trans ⟨fun hkilled => hsend.2 (.inl hkilled), fun hkilled => by
        simpa using hsend.1 hkilled⟩
  | dropped kind => cases hadvance
  | ended => cases hadvance

/-- **The account stays right.** Whatever happens to the ladder or the child. -/
theorem Accounted.step (hsafe : s.Safe) (h : s.Accounted) (hstep : s.step ladder a = some t) :
    t.Accounted := by
  cases a with
  | exit =>
    obtain ⟨-, rfl⟩ := exit_spec hstep
    exact h
  | advance await => exact h.advance hsafe hstep
  | cancel =>
    obtain ⟨-, -, hpc⟩ := cancel_spec hstep
    unfold Accounted
    obtain hpc | hpc := hpc <;> rw [hpc] <;> trivial

/-- Only `Drop` ends in a dropped value. -/
theorem pc_of_dropped {await : Await} {kind : Option ShutdownKind}
    (hadvance : s.advance ladder await = some t) (hdropped : t.pc = .dropped kind) :
    s.pc = .returned kind ∨ s.pc = .dropping kind := by
  have hfinish (kind') : finish kind' ladder ≠ .dropped kind := by
    cases ladder <;> nofun
  obtain ⟨child, pc, signals⟩ := s
  cases pc with
  | checking =>
    cases hadvance
    dsimp only at hdropped
    split at hdropped <;> cases hdropped
  | closing =>
    cases hadvance
    cases await <;> cases hdropped
  | leaving =>
    obtain ⟨child', -, rfl⟩ := Option.map_eq_some_iff.1 hadvance
    cases await <;> exact absurd hdropped (by simp [hfinish])
  | signalling =>
    cases hadvance
    cases hdropped
  | terminating =>
    obtain ⟨child', -, rfl⟩ := Option.map_eq_some_iff.1 hadvance
    cases await <;> exact absurd hdropped (by simp [hfinish])
  | killing =>
    simp only [Escalation.advance] at hadvance
    split at hadvance <;> cases hadvance
    · exact absurd hdropped (hfinish _)
    · cases await <;> exact absurd hdropped (by simp [hfinish])
  | collecting =>
    simp only [Escalation.advance, Option.ite_none_left_eq_some] at hadvance
    obtain ⟨child', -, rfl⟩ := Option.map_eq_some_iff.1 hadvance.2
    exact absurd hdropped (hfinish _)
  | returned kind' =>
    cases hadvance
    dsimp only at hdropped
    split at hdropped <;> cases hdropped
    all_goals exact .inl rfl
  | dropping kind' =>
    simp only [Escalation.advance] at hadvance
    split at hadvance <;> cases hadvance <;> cases hdropped <;> exact .inr rfl
  | dropped kind' => cases hadvance
  | ended => cases hadvance

/-- **A dropped value is settled.** `Drop` finds the child reaped, or it sends `SIGKILL`, where its
`try_wait` does not fail. -/
theorem Settled.step (hsafe : s.Safe) (h : s.Settled) (hwaits : WaitpidWorks s a)
    (hstep : s.step ladder a = some t) : t.Settled := by
  intro kind' hdropped
  cases a with
  | exit =>
    obtain ⟨hrunning, rfl⟩ := exit_spec hstep
    obtain hreaped | hkill := h kind' hdropped
    · rw [hrunning] at hreaped
      cases hreaped
    · exact .inr hkill
  | advance await =>
    obtain ⟨child, pc, signals⟩ := s
    have hconsistent : child.Consistent := hsafe.consistent
    obtain rfl | rfl := pc_of_dropped hstep hdropped
    · cases hstep
      obtain ⟨hfound, hexited, hworks⟩ :=
        @ChildHandle.tryWait_spec child (await = .failed) hconsistent
      refine .inl (hfound.1 (hexited.1 ?_))
      have hfails : await ≠ .failed := fun heq => hwaits rfl (heq ▸ rfl)
      have hfailed := hworks (decide_eq_false hfails)
      cases heq : (child.tryWait (await = .failed)).1 with
      | exited => rfl
      | running => simp [heq] at hdropped
      | failed => exact absurd heq hfailed
    · have hdone : child.done = false := hsafe.unreaped rfl
      have hstep : (mk child (.dropping kind') signals).advance ladder await = some t := hstep
      cases (advance_dropping hdone).symm.trans hstep
      exact .inr ⟨_, List.mem_append_right _ (List.mem_singleton_self _), rfl⟩
  | cancel =>
    obtain ⟨-, -, hpc⟩ := cancel_spec hstep
    obtain hpc | hpc := hpc <;> rw [hpc] at hdropped <;> cases hdropped

/-! ## Runs of a ladder -/

section

variable {child : ChildHandle} {actions : List SignalAction}
  {guard : Escalation → SignalAction → Prop}

/-- The start is safe: no signal has been sent, and the first thing is to look for the child. -/
theorem safe_start (h : child.Consistent) : (start child).Safe :=
  ⟨h, nofun, nofun⟩

/-- Every state of a run is safe. -/
theorem Safe.run (h : child.Consistent)
    (hrun : Run (Escalation.step ladder) guard (start child) actions t) :
    t.Safe :=
  hrun.preserves (fun _ _ _ hsafe _ hstep => hsafe.step hstep) (safe_start h)

/-- Every state of a run accounts for `SIGKILL`. -/
theorem Accounted.run (h : child.Consistent)
    (hrun : Run (Escalation.step ladder) guard (start child) actions t) : t.Accounted := by
  refine hrun.preserves_of (J := Safe) (fun _ _ => Safe.run h)
    (fun _ _ _ hsafe _ haccounted _ hstep => haccounted.step hsafe hstep) ?_
  show ¬ Killed _
  rintro ⟨sent, hsent, -⟩
  cases hsent

/-- A value that is dropped in a run without a failing `waitpid` is settled. -/
theorem Settled.run (h : child.Consistent)
    (hrun : Run (Escalation.step ladder) WaitpidWorks (start child) actions t) : t.Settled :=
  hrun.preserves_of (J := Safe) (fun _ _ => Safe.run h)
    (fun _ _ _ hsafe _ hsettled hwaits hstep => hsettled.step hsafe hwaits hstep) nofun

end

end Escalation

/-- **Signals never hit a recycled pid.** Whatever child a ladder starts with, whenever it exits and
however the awaits of the ladder end, or are cut short, no signal is sent to the stored pid once the
child has been reaped. Where `shutdown` has returned and its value is dropped, it has reported
`Killed` just where it has sent `SIGKILL` itself; and where no `waitpid` has failed, the child has
been reaped by then, or `SIGKILL` has been sent to it. -/
theorem signals_unreaped {ladder : Ladder} {child : ChildHandle} {actions : List SignalAction}
    {t : Escalation} (hchild : child.Consistent)
    (hrun : Run (Escalation.step ladder) (fun _ _ => True) (.start child) actions t) :
    (∀ sent ∈ t.signals, sent.process ≠ .reaped) ∧
      (∀ kind, t.pc = .dropped (some kind) → (kind = .killed ↔ t.Killed)) ∧
      (Run (Escalation.step ladder) WaitpidWorks (.start child) actions t →
        ∀ kind, t.pc = .dropped kind → t.child.process = .reaped ∨ t.SentKill) := by
  refine ⟨(Escalation.Safe.run hchild hrun).signals, fun kind hpc => ?_, fun hworks =>
    Escalation.Settled.run hchild hworks⟩
  have haccounted := Escalation.Accounted.run hchild hrun
  rw [Escalation.Accounted, hpc] at haccounted
  exact haccounted

section

/-- A child that runs. -/
def runningChild : ChildHandle := { process := .running, done := false }

/-- `Browser.close` fails, the child outlives `SIGTERM`, and is killed. -/
def killedActions : List SignalAction :=
  [.advance .completed, .advance .failed, .advance .completed, .advance .elapsed,
    .advance .completed, .exit, .advance .completed, .advance .completed]

/-- The end of that ladder. -/
def killedEscalation : Escalation :=
  after (Escalation.step .shutdown) (.start runningChild) killedActions

instance (s : Escalation) (a : SignalAction) : Decidable (WaitpidWorks s a) :=
  inferInstanceAs (Decidable (_ → _ ≠ _))

/-- The theorem for that ladder: no signal came too late, and the child was reaped. -/
theorem signals_unreaped_killed :
    (∀ sent ∈ killedEscalation.signals, sent.process ≠ .reaped) ∧ killedEscalation.Killed ∧
      (killedEscalation.child.process = .reaped ∨ killedEscalation.SentKill) := by
  have hpc : killedEscalation.pc = .dropped (some .killed) := by decide
  have hrun : Run (Escalation.step .shutdown) (fun _ _ => True) (.start runningChild) killedActions
      killedEscalation := run_after (by decide)
  have hworks : Run (Escalation.step .shutdown) WaitpidWorks (.start runningChild) killedActions
      killedEscalation := run_after (by decide)
  have hchild : runningChild.Consistent := ⟨nofun, by rw [runningChild]; nofun⟩
  obtain ⟨hsignals, hkind, hsettled⟩ := signals_unreaped hchild hrun
  exact ⟨hsignals, (hkind _ hpc).1 rfl, hsettled hworks _ hpc⟩

end

end Eiger
