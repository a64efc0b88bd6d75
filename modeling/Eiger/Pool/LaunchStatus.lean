import Eiger.Pool.Readiness

/-!
# The launch status

`create_session` reports how its launch ended in two writes: to the flag `browser_launch_ready`, and
then, once it has the lock, to `last_browser_launch_error`. Two calls can take these in turns, and
then the flag is of one launch and the error of the other, with nobody left to put it right; so it
is too where the handler of a call is dropped between its writes.

`statusKept` says when a step does not do that: when it leaves some call between its writes that the
flag is of, or the two parts in agreement. In a run of such steps the status is, whenever no call is
between its writes, that of one launch (`launch_status_one_outcome`); after a step that is not one,
it is of no launch until another one completes (`launchStatus_iff`).
-/

namespace Eiger

open Transition Tally

/-- How a launch ended: in no error, or in one with this text. -/
abbrev LaunchOutcome := Option String

/-- What the call of the launch writes: the flag and the error. -/
def LaunchOutcome.status (outcome : LaunchOutcome) : Bool × Option String :=
  (outcome.isNone, outcome)

/-- The outcome of the launch of a `create_session` call between its two writes. -/
def Task.betweenWrites : Task → Option LaunchOutcome
  | .creating _ _ (.recording ..) => some none
  | .creating _ _ (.failing error) => some (some error.text)
  | _ => none

/-- The task is a call between its writes, and the flag is of its launch. -/
def Task.shown (ready : Bool) (t : Task) : Bool :=
  t.betweenWrites.any fun outcome => outcome.isNone == ready

namespace State

/-- The status of the last launch, in its two parts. -/
def launchStatus (s : State) : Bool × Option String :=
  (s.memory.browserLaunchReady, s.memory.lastBrowserLaunchError)

/-- The outcome of the launch that an action completes: its call makes the first of its writes. -/
def completes (pool : SessionPool) (s : State) (a : Action) : Option LaunchOutcome :=
  match s.next? pool a with
  | some (.storeReady _, t') => t'.betweenWrites
  | _ => none

/-- The two parts of the status agree. -/
def agrees (s : State) : Bool :=
  s.memory.lastBrowserLaunchError.isNone == s.memory.browserLaunchReady

/-- The status is settled: its parts agree, or the flag is of a call that has its second write
before it. -/
def settled (s : State) : Bool :=
  s.tasks.any (Task.shown s.memory.browserLaunchReady) || s.agrees

/-- The flag is of a call between its writes that is not task `i`. -/
def shownBesides (s : State) (i : Nat) : Bool :=
  (s.tasks.eraseIdx i).any (Task.shown s.memory.browserLaunchReady)

end State

/-- The guard that the status stays settled. A second write is of the launch that the flag is of, or
another such call has it before it; a call is dropped between its writes only where the status is
settled without it. -/
def statusKept (pool : SessionPool) (s : State) : Action → Bool
  | .task i choice =>
    match s.next? pool (.task i choice) with
    | some (.storeError error, _) =>
      s.shownBesides i || error.isNone == s.memory.browserLaunchReady
    | _ => true
  | .dropFuture i =>
    (s.tasks[i]?.bind Task.betweenWrites).isNone || s.shownBesides i || s.agrees
  | _ => true

/-- In the course of a run, a launch completes with this outcome. -/
def Completed (pool : SessionPool) (dirs : Finset PathBuf) (as : List Action)
    (outcome : LaunchOutcome) : Prop :=
  ∃ before a later s, as = before ++ a :: later ∧ Reach pool dirs anyAction before s ∧
    s.completes pool a = some outcome

/-- Some launch has completed in a run to the state `s`, and each step after that keeps the status
settled. -/
def KeptSinceLaunch (pool : SessionPool) (dirs : Finset PathBuf) (as : List Action) (s : State) :
    Prop :=
  ∃ before a later s₁ s₂, as = before ++ a :: later ∧ Reach pool dirs anyAction before s₁ ∧
    (s₁.completes pool a).isSome = true ∧ step pool s₁ a = some s₂ ∧
    Run (step pool) (fun s a => statusKept pool s a = true) s₂ later s

/-! ## What writes the status -/

/-- The operation writes a part of the launch status. -/
def Op.writesStatus : Op → Bool
  | .storeReady _ => true
  | .storeError _ => true
  | _ => false

/-- No other operation changes the launch status. -/
theorem Memory.effect_launchStatus {op : Op} (hop : op.writesStatus = false) (m : Memory) :
    (m.effect op).browserLaunchReady = m.browserLaunchReady ∧
      (m.effect op).lastBrowserLaunchError = m.lastBrowserLaunchError := by
  cases op with
  | storeReady | storeError => cases hop
  | countRecycle id reason =>
    obtain ⟨_, _, h⟩ := m.countRecycle_frame id reason
    rw [h]
    exact ⟨rfl, rfl⟩
  | release frame =>
    obtain ⟨_, _, _, _, h, -⟩ := m.release_frame frame
    simp only [effect, h, and_self]
  | _ => exact ⟨rfl, rfl⟩

/-- What a step of a task is to the launch status: the first write of a call, the second, or
none. -/
inductive StatusStep : Task → Op → Task → Prop
  | first {t t' outcome} (h : t.betweenWrites = none) (h' : t'.betweenWrites = some outcome) :
    StatusStep t (.storeReady outcome.isNone) t'
  | second {t t' outcome} (h : t.betweenWrites = some outcome) (h' : t'.betweenWrites = none) :
    StatusStep t (.storeError outcome) t'
  | other {t op t'} (hop : op.writesStatus = false) (h : t.betweenWrites = none)
    (h' : t'.betweenWrites = none) : StatusStep t op t'

section

variable {pool : SessionPool} {choice : Choice} {op : Op} {t t' : Task}

/-- A pass is no launch. -/
theorem Task.betweenWrites_decide (id : Uuid) (rest : List Uuid) (pc : PassPc)
    (reason : Option String) : (decide id rest pc reason).betweenWrites = none := by
  cases reason with
  | none => rfl
  | some reason => rfl

/-- The steps of `create_session`. -/
theorem CreateStep.status {caller : Caller} {overrides : SessionOverrides} {pc : CreatePc}
    (step : CreateStep pool caller overrides pc choice op t') :
    StatusStep (.creating caller overrides pc) op t' := by
  cases step with
  | storeReady => exact @StatusStep.first _ _ none rfl rfl
  | @storeUnready error => exact @StatusStep.first _ _ (some error.text) rfl rfl
  | clearError | storeError => exact .second rfl rfl
  | count => exact .other rfl rfl (by cases caller <;> rfl)
  | _ => exact .other rfl rfl rfl

/-- The steps of `LaunchedBrowser::shutdown`. -/
theorem ShutdownStep.writesStatus {c : ChildId} {pc pc' : ShutdownPc}
    (step : ShutdownStep c pc choice op pc') : op.writesStatus = false := by
  cases step <;> rfl

/-- The steps of `terminate_session`. -/
theorem TerminateStep.status {caller : Terminator} {id : Uuid} {reason : String} {pc : TermPc}
    (step : TerminateStep caller id reason pc choice op t') :
    StatusStep (.terminating caller id reason pc) op t' := by
  cases step with
  | shut hs => exact .other hs.writesStatus rfl rfl
  | leave => exact .other rfl rfl (by cases caller <;> rfl)
  | _ => exact .other rfl rfl rfl

/-- The steps of a maintenance pass. -/
theorem PassStep.status {options : PoolOptions} {pc : PassPc}
    (step : PassStep options pc choice op t') : StatusStep (.passing pc) op t' := by
  cases step with
  | age | idle | sample | probe => exact .other rfl rfl (Task.betweenWrites_decide _ _ _ _)
  | _ => exact .other rfl rfl rfl

/-- Only `create_session` writes the launch status, and it does so twice. -/
theorem TaskStep.status (step : TaskStep pool t choice op t') : StatusStep t op t' := by
  cases step with
  | create step => exact step.status
  | respond step => cases step <;> exact .other rfl rfl rfl
  | connect step => cases step <;> exact .other rfl rfl rfl
  | terminate step => exact step.status
  | pass step => exact step.status
  | _ => exact .other rfl rfl rfl

end

/-- What an action is to the launch status: the first write of a call, its second, the drop of a
call between the two, or none of these, where the calls between their writes stay the same. -/
inductive StatusChange (pool : SessionPool) (s : State) : Action → State → Prop
  | first {i choice t t' m outcome} (ht : s.tasks[i]? = some t) (h : t.betweenWrites = none)
    (h' : t'.betweenWrites = some outcome)
    (hcompletes : s.completes pool (.task i choice) = some outcome)
    (hready : m.browserLaunchReady = outcome.isNone)
    (herror : m.lastBrowserLaunchError = s.memory.lastBrowserLaunchError) :
    StatusChange pool s (.task i choice) { memory := m, tasks := s.tasks.set i t' }
  | second {i choice t t' m outcome} (ht : s.tasks[i]? = some t)
    (h : t.betweenWrites = some outcome) (h' : t'.betweenWrites = none)
    (hnext : s.next? pool (.task i choice) = some (.storeError outcome, t'))
    (hready : m.browserLaunchReady = s.memory.browserLaunchReady)
    (herror : m.lastBrowserLaunchError = outcome) :
    StatusChange pool s (.task i choice) { memory := m, tasks := s.tasks.set i t' }
  | drop {i t m outcome} (ht : s.tasks[i]? = some t) (h : t.betweenWrites = some outcome)
    (hready : m.browserLaunchReady = s.memory.browserLaunchReady)
    (herror : m.lastBrowserLaunchError = s.memory.lastBrowserLaunchError) :
    StatusChange pool s (.dropFuture i) { memory := m, tasks := s.tasks.set i .done }
  | none {a s'} (hcompletes : s.completes pool a = none) (hkept : statusKept pool s a = true)
    (hready : s'.memory.browserLaunchReady = s.memory.browserLaunchReady)
    (herror : s'.memory.lastBrowserLaunchError = s.memory.lastBrowserLaunchError)
    (hsame : ∀ p : Task → Bool, (∀ t, t.betweenWrites = none → p t = false) →
      s'.tasks.any p = s.tasks.any p) :
    StatusChange pool s a s'

section

variable {pool : SessionPool} {dirs : Finset PathBuf} {P : State → Action → Prop}
  {s s' : State} {a : Action} {as : List Action} {outcome : LaunchOutcome}

/-- Where a call is not between its writes, before or after, those that are stay the same. -/
theorem any_set_eq {i : Nat} {t t' : Task} {tasks : List Task} {p : Task → Bool}
    (ht : tasks[i]? = some t) (h : t.betweenWrites = none) (h' : t'.betweenWrites = none)
    (hp : ∀ t, t.betweenWrites = none → p t = false) : (tasks.set i t').any p = tasks.any p := by
  rw [any_set p ht, any_eq_or_eraseIdx p ht, hp t h, hp t' h']

/-- What an action can be to the launch status. -/
theorem step_statusChange (hs : step pool s a = some s') : StatusChange pool s a s' := by
  rcases step_cases hs with ⟨i, t, op, t', ht, turn, -, rfl⟩ | ⟨request, rfl, rfl⟩ |
    ⟨c, rfl, -, rfl⟩ | ⟨d, rfl, rfl⟩
  · cases turn with
    | @perform choice _ _ hperform =>
      have hnext : s.next? pool (.task i choice) = some (op, t') := by
        simp only [State.next?, ht, Option.bind_some, hperform]
      cases (Task.perform_step hperform).status with
      | first h h' =>
        refine .first ht h h' ?_ rfl rfl
        rw [State.completes, hnext]
        exact h'
      | second h h' => exact .second ht h h' hnext rfl rfl
      | other hop h h' =>
        obtain ⟨hready, herror⟩ := Memory.effect_launchStatus hop s.memory
        refine .none ?_ ?_ hready herror fun p hp => any_set_eq ht h h' hp
        · rw [State.completes, hnext]
          cases op with
          | storeReady ready => cases hop
          | _ => rfl
        · rw [statusKept, hnext]
          cases op with
          | storeError error => cases hop
          | _ => rfl
    | drop hdrop =>
      have hop : (Op.release t.locals).writesStatus = false := rfl
      obtain ⟨hready, herror⟩ := Memory.effect_launchStatus hop s.memory
      cases hbetween : t.betweenWrites with
      | some outcome => exact .drop ht hbetween hready herror
      | none =>
        refine .none rfl ?_ hready herror fun p hp => any_set_eq ht hbetween rfl hp
        rw [statusKept, ht, Option.bind_some, hbetween]
        rfl
  · refine .none rfl rfl rfl rfl fun p hp => ?_
    have hrequest : p request.task = false := hp _ (by cases request <;> rfl)
    rw [List.any_append, List.any_cons, hrequest]
    exact Bool.or_false _
  · exact .none rfl rfl rfl rfl fun p hp => rfl
  · exact .none rfl rfl rfl rfl fun p hp => rfl

/-! ## Where the status is settled -/

/-- The first write of a call settles the status, and any other step leaves it settled just if it
was, and the step keeps it so. -/
theorem settled_step (hs : step pool s a = some s') :
    s'.settled = ((s.completes pool a).isSome || (s.settled && statusKept pool s a)) := by
  cases step_statusChange hs with
  | @first i choice t t' m outcome ht h h' hcompletes hready herror =>
    have hshown : t'.shown m.browserLaunchReady = true := by
      rw [Task.shown, h', hready]
      exact beq_self_eq_true _
    rw [hcompletes, State.settled, any_set _ ht, hshown]
    rfl
  | @second i choice t t' m outcome ht h h' hnext hready herror =>
    have hcompletes : s.completes pool (.task i choice) = none := by rw [State.completes, hnext]
    have hshown : t.shown s.memory.browserLaunchReady =
        (outcome.isNone == s.memory.browserLaunchReady) := by rw [Task.shown, h]; rfl
    have hquiet : t'.shown s.memory.browserLaunchReady = false := by rw [Task.shown, h']; rfl
    rw [hcompletes, State.settled, State.settled, State.agrees, statusKept, hnext]
    simp only [any_set _ ht, any_eq_or_eraseIdx _ ht, hready, herror, hshown, hquiet,
      State.shownBesides]
    cases outcome.isNone == s.memory.browserLaunchReady with
    | true => simp
    | false =>
      cases (s.tasks.eraseIdx i).any (Task.shown s.memory.browserLaunchReady) <;> simp
  | @drop i t m outcome ht h hready herror =>
    have hquiet : Task.done.shown s.memory.browserLaunchReady = false := rfl
    have hcompletes : s.completes pool (.dropFuture i) = none := rfl
    rw [hcompletes, State.settled, State.settled, State.agrees, statusKept, ht, Option.bind_some, h]
    simp only [any_set _ ht, any_eq_or_eraseIdx _ ht, hready, herror, hquiet, State.shownBesides,
      State.agrees]
    cases (s.tasks.eraseIdx i).any (Task.shown s.memory.browserLaunchReady) with
    | true => simp
    | false =>
      cases s.memory.lastBrowserLaunchError.isNone == s.memory.browserLaunchReady <;> simp
  | none hcompletes hkept hready herror hsame =>
    have hquiet : ∀ t : Task, t.betweenWrites = none →
        t.shown s.memory.browserLaunchReady = false := by
      intro t ht
      rw [Task.shown, ht]
      rfl
    rw [hcompletes, hkept, State.settled, State.settled, State.agrees, State.agrees, hready, herror,
      hsame _ hquiet]
    simp

/-- The status is settled just where some launch has completed and each step since has kept it
so. -/
theorem settled_iff_keptSinceLaunch (h : Reach pool dirs P as s) :
    s.settled = true ↔ KeptSinceLaunch pool dirs as s := by
  constructor
  · intro hsettled
    induction h with
    | nil => cases hsettled
    | @snoc as t u a h _ hstep ih =>
      rw [settled_step hstep, Bool.or_eq_true, Bool.and_eq_true] at hsettled
      obtain hcompletes | ⟨hsettled, hkept⟩ := hsettled
      · exact ⟨as, a, [], t, u, rfl, h.mono fun _ _ _ => trivial, hcompletes, hstep, .nil⟩
      · obtain ⟨before, b, later, s₁, s₂, rfl, hbefore, hcompletes, hfirst, hlater⟩ := ih hsettled
        refine ⟨before, b, later ++ [a], s₁, s₂, ?_, hbefore, hcompletes, hfirst,
          hlater.snoc hkept hstep⟩
        rw [List.append_assoc, List.cons_append]
  · rintro ⟨before, b, later, s₁, s₂, -, -, hcompletes, hfirst, hlater⟩
    refine hlater.preserves (I := fun s => s.settled = true) ?_ ?_
    · intro s a s' hsettled hkept hstep
      rw [settled_step hstep, hsettled, hkept]
      exact Bool.or_true _
    · rw [settled_step hfirst, hcompletes]
      rfl

/-! ## Whose the status is -/

/-- What has completed in a run has completed in a longer one. -/
theorem Completed.snoc (h : Completed pool dirs as outcome) (a : Action) :
    Completed pool dirs (as ++ [a]) outcome := by
  obtain ⟨before, b, later, s, rfl, hbefore, hcompletes⟩ := h
  refine ⟨before, b, later ++ [a], s, ?_, hbefore, hcompletes⟩
  rw [List.append_assoc, List.cons_append]

/-- Each part of the status is of a launch that has completed, and so are the calls between their
writes. -/
structure State.Recorded (pool : SessionPool) (dirs : Finset PathBuf) (as : List Action)
    (s : State) : Prop where
  between : ∀ outcome, s.tasks.any (fun t => t.betweenWrites = some outcome) = true →
    Completed pool dirs as outcome
  ready : s.memory.browserLaunchReady = true → Completed pool dirs as none
  error : ∀ error, s.memory.lastBrowserLaunchError = some error →
    Completed pool dirs as (some error)

/-- Every step records what it writes. -/
theorem recorded_step (hreach : Reach pool dirs P as s) (h : s.Recorded pool dirs as)
    (hs : step pool s a = some s') : s'.Recorded pool dirs (as ++ [a]) := by
  have hbetween := fun outcome hany => (h.between outcome hany).snoc a
  have hready := fun hflag => (h.ready hflag).snoc a
  have herror := fun error hlast => (h.error error hlast).snoc a
  cases step_statusChange hs with
  | @first i choice t t' m launched ht h₀ h₁ hcompletes hflag hlast =>
    have hlaunched : Completed pool dirs (as ++ [.task i choice]) launched :=
      ⟨as, _, [], s, rfl, hreach.mono fun _ _ _ => trivial, hcompletes⟩
    refine ⟨fun outcome hany => ?_, fun htrue => ?_, fun error hsome => ?_⟩
    · rw [any_set _ ht, Bool.or_eq_true] at hany
      obtain hown | hbesides := hany
      · obtain rfl : launched = outcome := Option.some.inj (h₁.symm.trans (of_decide_eq_true hown))
        exact hlaunched
      · refine hbetween outcome ?_
        rw [any_eq_or_eraseIdx _ ht, hbesides]
        exact Bool.or_true _
    · obtain rfl : launched = none := Option.isNone_iff_eq_none.1 (hflag.symm.trans htrue)
      exact hlaunched
    · exact herror error (hlast.symm.trans hsome)
  | @second i choice t t' m launched ht h₀ h₁ hnext hflag hlast =>
    refine ⟨fun outcome hany => hbetween outcome ?_, fun htrue => hready (hflag.symm.trans htrue),
      fun error hsome => hbetween _ ?_⟩
    · rw [any_set _ ht, h₁] at hany
      rw [any_eq_or_eraseIdx _ ht, (Bool.false_or _).symm.trans hany]
      exact Bool.or_true _
    · rw [any_eq_or_eraseIdx _ ht, h₀, hlast.symm.trans hsome, decide_eq_true rfl]
      rfl
  | @drop i t m launched ht h₀ hflag hlast =>
    refine ⟨fun outcome hany => hbetween outcome ?_, fun htrue => hready (hflag.symm.trans htrue),
      fun error hsome => herror error (hlast.symm.trans hsome)⟩
    rw [any_set _ ht] at hany
    rw [any_eq_or_eraseIdx _ ht, (Bool.false_or _).symm.trans hany]
    exact Bool.or_true _
  | none hcompletes hkept hflag hlast hsame =>
    refine ⟨fun outcome hany => hbetween outcome ?_, fun htrue => hready (hflag.symm.trans htrue),
      fun error hsome => herror error (hlast.symm.trans hsome)⟩
    rw [← hsame _ fun t ht => by rw [ht]; rfl]
    exact hany

/-- So the parts of the status are of launches that have completed. -/
theorem recorded_of_reach (h : Reach pool dirs P as s) : s.Recorded pool dirs as := by
  induction h with
  | nil =>
    refine ⟨fun outcome hany => ?_, fun hflag => ?_, fun error hlast => ?_⟩
    · cases hany
    · cases hflag
    · cases hlast
  | snoc h _ hs ih => exact recorded_step h ih hs

/-- The status agrees just where it is that of a launch that has completed. -/
theorem agrees_iff_completed (h : Reach pool dirs P as s) :
    s.agrees = true ↔
      ∃ outcome, Completed pool dirs as outcome ∧
        s.launchStatus = LaunchOutcome.status outcome := by
  have hrecorded := recorded_of_reach h
  constructor
  · intro hagrees
    have hflag := eq_of_beq hagrees
    refine ⟨s.memory.lastBrowserLaunchError, ?_, ?_⟩
    · cases hlast : s.memory.lastBrowserLaunchError with
      | none =>
        rw [hlast] at hflag
        exact hrecorded.ready hflag.symm
      | some error => exact hrecorded.error error hlast
    · rw [State.launchStatus, LaunchOutcome.status, hflag]
  · rintro ⟨outcome, -, hstatus⟩
    obtain ⟨hflag, hlast⟩ := Prod.mk.inj hstatus
    rw [State.agrees, hflag, hlast]
    exact beq_self_eq_true _

/-- While no call is between its writes, the status is that of a launch that has completed just if
each step since some launch completed has kept it settled. -/
theorem launchStatus_iff (h : Reach pool dirs P as s)
    (hquiet : ∀ t ∈ s.tasks, t.betweenWrites = none) :
    (∃ outcome, Completed pool dirs as outcome ∧ s.launchStatus = LaunchOutcome.status outcome) ↔
      KeptSinceLaunch pool dirs as s := by
  have hshown : s.tasks.any (Task.shown s.memory.browserLaunchReady) = false := by
    refine List.any_eq_false.2 fun t ht => ?_
    rw [Task.shown, hquiet t ht]
    exact Bool.false_ne_true
  rw [← agrees_iff_completed h, ← settled_iff_keptSinceLaunch h, State.settled, hshown,
    Bool.false_or]

/-- In a run whose steps all keep the status settled, and in which some launch has completed, the
status is that of one launch that has completed, whenever no call is between its writes. So
readiness shows an error just if it shows the node as not ready for launches. -/
theorem launch_status_one_outcome
    (h : Reach pool dirs (fun s a => statusKept pool s a = true) as s)
    (hquiet : ∀ t ∈ s.tasks, t.betweenWrites = none)
    (hlaunch : ∃ outcome, Completed pool dirs as outcome) :
    (∃ outcome, Completed pool dirs as outcome ∧
      s.launchStatus = LaunchOutcome.status outcome) ∧
      ((s.readiness pool).browserLaunchReady = true ↔
        (s.readiness pool).lastBrowserLaunchError = none) := by
  obtain ⟨launched, before, b, later, s₁, rfl, hbefore, hcompletes⟩ := hlaunch
  obtain ⟨t, hrun, hrest⟩ := h.split
  obtain rfl := hrun.unique hbefore
  obtain ⟨s₂, -, hstep, hlater⟩ := hrest.cons_inv
  have hkept : KeptSinceLaunch pool dirs (before ++ b :: later) s :=
    ⟨before, b, later, _, s₂, rfl, hbefore, Option.isSome_of_eq_some hcompletes, hstep, hlater⟩
  have hone := (launchStatus_iff h hquiet).2 hkept
  refine ⟨hone, ?_⟩
  obtain ⟨outcome, -, hstatus⟩ := hone
  obtain ⟨hflag, hlast⟩ := Prod.mk.inj hstatus
  show s.memory.browserLaunchReady = true ↔ s.memory.lastBrowserLaunchError = none
  rw [hflag, hlast]
  exact Option.isNone_iff_eq_none

end

/-! ## Two launches at once -/

/-- Of two `create_session` calls, the first has launched Chrome and has made the first of its
writes. -/
def firstWriteRun : List Action :=
  [.arrive (.create .postSession .default), .arrive (.create .rest .default)] ++
    spawnActions 0 0 "/tmp/eiger-chrome-a" ++
    [.task 0 (.ready exampleReady), .task 0 .go, .task 0 .go]

/-- Then the launch of the second fails, and it makes the first of its own. -/
def firstWritesRun : List Action :=
  firstWriteRun ++ [.task 1 .go, .task 1 .go, .task 1 (.failed .missingExecutable), .task 1 .go]

/-- The second writes of both, in the order of the first ones. -/
def orderlyRun : List Action := firstWritesRun ++ [.task 0 .go, .task 1 .go]

/-- The second writes in the other order. -/
def crossedRun : List Action := firstWritesRun ++ [.task 1 .go, .task 0 .go]

/-- The launch of the first call completes at the end of its first write. -/
theorem completed_first (later : List Action) :
    Completed (examplePool 2) ∅ (firstWriteRun ++ later) none := by
  refine ⟨firstWriteRun.dropLast, .task 0 .go, later,
    exampleState 2 firstWriteRun.dropLast, rfl, run_after (by decide), rfl⟩

/-- The theorem at two calls that write in order: the status is that of the launch that failed. -/
theorem launch_status_one_outcome_orderly :
    ∃ outcome, Completed (examplePool 2) ∅ orderlyRun outcome ∧
      (exampleState 2 orderlyRun).launchStatus = LaunchOutcome.status outcome := by
  have hcompleted : Completed (examplePool 2) ∅ orderlyRun none := completed_first _
  exact (@launch_status_one_outcome (examplePool 2) ∅ _ orderlyRun (run_after (by decide))
    (by decide) ⟨none, hcompleted⟩).1

/-- Where they do not, the node is not ready, and without an error: the status is of no launch. -/
theorem launch_status_mixed :
    Reach (examplePool 2) ∅ anyAction crossedRun (exampleState 2 crossedRun) ∧
      (∀ t ∈ (exampleState 2 crossedRun).tasks, t.betweenWrites = none) ∧
      Completed (examplePool 2) ∅ crossedRun none ∧
      ((exampleState 2 crossedRun).readiness (examplePool 2)).browserLaunchReady = false ∧
      ((exampleState 2 crossedRun).readiness (examplePool 2)).lastBrowserLaunchError = none ∧
      ¬ ∃ outcome,
        (exampleState 2 crossedRun).launchStatus = LaunchOutcome.status outcome := by
  refine ⟨run_after (by decide), by decide, completed_first _, rfl, rfl, ?_⟩
  rintro ⟨outcome, hstatus⟩
  obtain ⟨hflag, hlast⟩ := Prod.mk.inj hstatus
  rw [← hlast] at hflag
  cases hflag

end Eiger
