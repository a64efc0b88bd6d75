import Eiger.Pool.Lifecycle

/-!
# What the recycle counters count

`kill_reason_for` gives its reason as a text, with numbers and the messages of others in it, and
`count_recycle_reason` finds the counter by the start of that text. A `Ledger` is kept along a run
by the checks themselves: which one fired last in which task, and which sessions a pass has removed
for it. The counters are those of the ledger (`recycles_by_cause`): each session that a pass removes
is counted once, for the check that fired for it, and no other termination is counted at all.
-/

namespace Eiger

open Transition Tally Text

/-- The check of `kill_reason_for` that fires at what the pass reads, and the session that it fires
for. -/
def PassPc.fires (options : PoolOptions) : PassPc → Choice → Option (Uuid × RecycleCounter)
  | .aging id _, .elapse age =>
    if age > options.maxSessionLifetime then some (id, .lifetime) else none
  | .idling id _ state, .elapse idleFor =>
    if state = .ready ∧ idleFor > options.maxIdleTime then some (id, .idle) else none
  | .sampling id _, .sample (some sample) =>
    if sample.rssBytes > options.perSessionRssLimitBytes then some (id, .rssLimit) else none
  | .sampling id _, .sample none => some (id, .processExit)
  | .probing id _, .probe (some _) => some (id, .cdpUnhealthy)
  | _, _ => none

/-- What the counters are to count: for each task the check that fired last in it, and for which
session, and the sessions that the passes have removed, with the check that fired for each. -/
structure Ledger where
  cause : Nat → Option (Uuid × RecycleCounter)
  ended : List (Uuid × RecycleCounter)

namespace Ledger

/-- The ledger before a run. -/
def empty : Ledger := { cause := fun _ => none, ended := [] }

/-- What a step of task `i` writes to the ledger: the check that fires, or the session that a pass
removes. -/
def turn (options : PoolOptions) (i : Nat) (t : Task) (choice : Choice) (ledger : Ledger) :
    Ledger :=
  match t with
  | .passing pc =>
    match pc.fires options choice with
    | some fired => { ledger with cause := Function.update ledger.cause i (some fired) }
    | none => ledger
  | .terminating (.pass _) _ _ .removing =>
    if choice = .go then { ledger with ended := (ledger.cause i).toList ++ ledger.ended }
    else ledger
  | _ => ledger

/-- What an action writes to the ledger. -/
def next (pool : SessionPool) (s : State) (a : Action) (ledger : Ledger) : Ledger :=
  match a with
  | .task i choice =>
    match s.tasks[i]? with
    | some t => ledger.turn pool.options i t choice
    | none => ledger
  | _ => ledger

/-- The number of sessions that the passes have removed for a check. -/
def endedFor (ledger : Ledger) (counter : RecycleCounter) : Nat :=
  ledger.ended.countP (·.2 = counter)

end Ledger

/-- The ledger of a run. -/
def ledgerOf (pool : SessionPool) (dirs : Finset PathBuf) (as : List Action) : Ledger :=
  recorded (step pool) (Ledger.next pool) (.init pool dirs) .empty as

/-- 1 if the task is a pass that has removed a session for a reason of this counter, and has not
counted it yet. -/
def Task.awaitsCount (counter : RecycleCounter) : Task → Nat
  | .terminating (.pass _) _ reason pc =>
    if (1 ≤ pc.rank ∧ pc.rank ≤ 3) ∧ recycleCounter reason = some counter then 1 else 0
  | _ => 0

/-! ## The texts of the reasons -/

/-- What a check finds: a reason that is counted for the check that fires, or nothing where none
does. -/
def Found (id : Uuid) : Option String → Option (Uuid × RecycleCounter) → Prop
  | some reason, fired =>
    ∃ counter, fired = some (id, counter) ∧ recycleCounter reason = some counter
  | none, fired => fired = none

section

variable {options : PoolOptions} {id : Uuid} {rest : List Uuid}

/-- The lifetime check. -/
theorem found_lifetime (age : Duration) :
    Found id (options.lifetimeReason age) ((PassPc.aging id rest).fires options (.elapse age)) := by
  rw [PoolOptions.lifetimeReason, PassPc.fires]
  split
  · exact ⟨_, rfl, by decide⟩
  · exact rfl

/-- The idle check. -/
theorem found_idle (state : SessionState) (idleFor : Duration) :
    Found id (options.idleReason state idleFor)
      ((PassPc.idling id rest state).fires options (.elapse idleFor)) := by
  rw [PoolOptions.idleReason, PassPc.fires]
  split
  · exact ⟨_, rfl, by decide⟩
  · exact rfl

/-- The check of the process tree, whatever the numbers. -/
theorem found_sample (sample : Option ProcessSample) :
    Found id (options.sampleReason sample)
      ((PassPc.sampling id rest).fires options (.sample sample)) := by
  cases sample with
  | none => exact ⟨_, rfl, by decide⟩
  | some sample =>
    rw [PoolOptions.sampleReason, PassPc.fires]
    split
    · refine ⟨_, rfl, ?_⟩
      have hstart : "rss limit exceeded".toList <+: "rss limit exceeded: ".toList := by decide
      rw [recycleCounter, if_pos]
      rw [startsWith_iff, String.append_assoc, String.append_assoc, String.toList_append]
      exact hstart.trans (List.prefix_append _ _)
    · exact rfl

/-- The health check, whatever the error. -/
theorem found_health (error : Option BrowserError) :
    Found id (healthReason (Task.probeResult error))
      ((PassPc.probing id rest).fires options (.probe error)) := by
  cases error with
  | none => exact rfl
  | some error =>
    refine ⟨_, rfl, ?_⟩
    have hstart : "cdp health check failed: ".toList <+:
        ("cdp health check failed: " ++ error.text).toList := by
      rw [String.toList_append]
      exact List.prefix_append _ _
    have hother : ∀ text : String, ¬ text.toList <+: "cdp health check failed: ".toList →
        ¬ "cdp health check failed: ".toList <+: text.toList →
        ¬ startsWith ("cdp health check failed: " ++ error.text) text = true := by
      intro text h h'
      rw [startsWith_eq_false hstart h h']
      exact Bool.false_ne_true
    rw [recycleCounter, if_neg (hother _ (by decide) (by decide)),
      if_neg (hother _ (by decide) (by decide)), if_neg (hother _ (by decide) (by decide)),
      if_neg (hother _ (by decide) (by decide)), if_pos]
    rw [startsWith_iff]
    exact List.IsPrefix.trans (by decide) hstart

end

/-! ## A step and the ledger -/

/-- What a counted reason is: that of a pass is counted for the check that fired last in its task,
for the session that it terminates, and that of another call is not counted. -/
def Task.Caused (cause : Option (Uuid × RecycleCounter)) : Task → Prop
  | .terminating (.pass _) id reason _ =>
    ∃ counter, cause = some (id, counter) ∧ recycleCounter reason = some counter
  | .terminating _ _ reason _ => recycleCounter reason = none
  | _ => True

/-- How often an operation increments a counter. -/
def Op.recycles (counter : RecycleCounter) : Op → Nat
  | .countRecycle _ reason => if recycleCounter reason = some counter then 1 else 0
  | _ => 0

/-- A counter is incremented as `Op.recycles` says. -/
theorem Memory.effect_recycledTotal (m : Memory) (op : Op) (counter : RecycleCounter) :
    (m.effect op).recycledTotal counter = m.recycledTotal counter + op.recycles counter := by
  cases op with
  | countRecycle id reason =>
    simp only [effect, Op.recycles]
    cases hreason : recycleCounter reason with
    | none => simp
    | some counted =>
      by_cases h : counted = counter
      · simp [record, h]
      · have hne : counter ≠ counted := fun heq => h heq.symm
        simp [record, h, Function.update_of_ne hne]
  | release frame =>
    obtain ⟨_, _, _, _, h, -⟩ := m.release_frame frame
    simp only [effect_release, h, Op.recycles, Nat.add_zero]
  | _ => rfl

/-- A quiet operation increments none. -/
theorem Op.recycles_quiet {op : Op} (hq : op.quiet = true) (counter : RecycleCounter) :
    op.recycles counter = 0 := by
  cases op <;> first | rfl | cases hq

section

variable {pool : SessionPool} {options : PoolOptions} {choice : Choice} {op : Op} {t t' : Task}

/-- A step of a pass: a check fires, and the pass goes on to terminate the session for a reason that
is counted for the check, or none does. -/
inductive CheckStep (options : PoolOptions) (pc : PassPc) (choice : Choice) : Task → Prop
  | fires {id counter rest reason} (h : pc.fires options choice = some (id, counter))
    (hreason : recycleCounter reason = some counter) :
    CheckStep options pc choice (.terminating (.pass rest) id reason .removing)
  | goesOn {pc'} (h : pc.fires options choice = none) : CheckStep options pc choice (.passing pc')
  | ends (h : pc.fires options choice = none) : CheckStep options pc choice .done

/-- A pass that looked at an entry goes by what it found. -/
theorem checkStep_decide {pc pc' : PassPc} {id : Uuid} {rest : List Uuid} {reason : Option String}
    (h : Found id reason (pc.fires options choice)) :
    CheckStep options pc choice (Task.decide id rest pc' reason) := by
  cases reason with
  | none => exact .goesOn h
  | some reason =>
    obtain ⟨counter, hfires, hreason⟩ := h
    exact .fires hfires hreason

/-- What a pass can do. -/
theorem PassStep.checkStep {pc : PassPc} (step : PassStep options pc choice op t') :
    CheckStep options pc choice t' := by
  cases step with
  | age => exact checkStep_decide (found_lifetime _)
  | idle => exact checkStep_decide (found_idle _ _)
  | sample => exact checkStep_decide (found_sample _)
  | probe => exact checkStep_decide (found_health _)
  | visited => exact .ends rfl
  | _ => exact .goesOn rfl

/-- A step books its task in the ledger: the reason stays that of the check that fired last in the
task, and what a pass removes is counted once, in the step or later. -/
structure Booked (ledger ledger' : Ledger) (i : Nat) (t : Task) (op : Op) (t' : Task) : Prop where
  caused : t'.Caused (ledger'.cause i)
  others : ∀ j, j ≠ i → ledger'.cause j = ledger.cause j
  count : ∀ counter, op.recycles counter + t'.awaitsCount counter + ledger.endedFor counter =
    t.awaitsCount counter + ledger'.endedFor counter

/-- The steps of a pass. -/
theorem booked_passing {pc : PassPc} {i : Nat} {ledger : Ledger}
    (step : PassStep pool.options pc choice op t') :
    Booked ledger (ledger.turn pool.options i (.passing pc) choice) i (.passing pc) op t' := by
  have hrecycles : ∀ counter, op.recycles counter = 0 := by
    intro counter
    cases step.move with
    | pass hq | condemn hq => exact Op.recycles_quiet hq counter
    | passed => rfl
  cases step.checkStep with
  | fires hfires hreason =>
    simp only [Ledger.turn, hfires]
    refine ⟨⟨_, Function.update_self .., hreason⟩, fun j hj => Function.update_of_ne hj .., ?_⟩
    intro counter
    simp only [hrecycles, Task.awaitsCount, TermPc.rank, Ledger.endedFor]
    rfl
  | goesOn hfires | ends hfires =>
    simp only [Ledger.turn, hfires]
    refine ⟨trivial, fun j _ => rfl, fun counter => ?_⟩
    rw [hrecycles]
    rfl

/-- The removal of a session, by a pass or another call. -/
theorem booked_removing {caller : Terminator} {id : Uuid} {reason : String} {i : Nat}
    {ledger : Ledger} (hc : (Task.terminating caller id reason .removing).Caused (ledger.cause i))
    (h : Task.performTerminate caller id reason .removing choice = some (op, t')) :
    Booked ledger (ledger.turn pool.options i (.terminating caller id reason .removing) choice) i
      (.terminating caller id reason .removing) op t' := by
  cases choice with
  | go =>
    cases h
    cases caller with
    | pass rest =>
      refine ⟨hc, fun j _ => rfl, fun counted => ?_⟩
      obtain ⟨counter, hcause, hreason⟩ := hc
      simp only [Ledger.turn, if_true, hcause, Ledger.endedFor, Option.toList_some,
        List.cons_append, List.nil_append, List.countP_cons, Task.awaitsCount, TermPc.rank, hreason,
        Op.recycles, Option.some.injEq, decide_eq_true_eq]
      simp
      omega
    | delete | proxy | rest => exact ⟨hc, fun j _ => rfl, fun counter => rfl⟩
  | missing =>
    cases h
    cases caller with
    | pass rest =>
      refine ⟨hc, fun j _ => rfl, fun counter => ?_⟩
      simp [Ledger.turn, Task.awaitsCount, TermPc.rank, Op.recycles]
    | delete | proxy | rest => exact ⟨hc, fun j _ => rfl, fun counter => rfl⟩
  | _ => cases h

/-- The later steps of a termination, among them the one that counts. -/
theorem booked_terminating {caller : Terminator} {id : Uuid} {reason : String} {pc : TermPc}
    {i : Nat} {ledger : Ledger} (hpc : pc ≠ .removing)
    (hc : (Task.terminating caller id reason pc).Caused (ledger.cause i))
    (move : Move (.terminating caller id reason pc) op t') :
    Booked ledger (ledger.turn pool.options i (.terminating caller id reason pc) choice) i
      (.terminating caller id reason pc) op t' := by
  have hturn :
      ledger.turn pool.options i (.terminating caller id reason pc) choice = ledger := by
    cases caller with
    | pass rest => cases pc <;> first | rfl | exact absurd rfl hpc
    | delete | proxy | rest => rfl
  rw [hturn]
  cases move with
  | remove | missed => exact absurd rfl hpc
  | leave =>
    cases caller <;>
      exact ⟨trivial, fun j _ => rfl, fun counter => by
        simp [Task.awaitsCount, Op.recycles, Task.resume, TermPc.rank]⟩
  | countRecycle =>
    refine ⟨by cases caller <;> exact hc, fun j _ => rfl, fun counter => ?_⟩
    cases caller with
    | pass rest => simp [Task.awaitsCount, Op.recycles, TermPc.rank]
    | delete | proxy | rest =>
      have hnone : recycleCounter reason = none := hc
      simp [Task.awaitsCount, Op.recycles, hnone]
  | shut hq | report hq =>
    refine ⟨by cases caller <;> exact hc, fun j _ => rfl, fun counter => ?_⟩
    rw [Op.recycles_quiet hq]
    cases caller <;> simp [Task.awaitsCount, TermPc.rank]
  | _ =>
    refine ⟨by cases caller <;> exact hc, fun j _ => rfl, fun counter => ?_⟩
    cases caller <;> simp [Task.awaitsCount, Op.recycles, TermPc.rank]

/-- The steps of the other calls. The terminations that they start are not counted. -/
theorem booked_other {i : Nat} {ledger : Ledger} (hpass : ∀ pc, t ≠ .passing pc)
    (hterm : ∀ caller id reason pc, t ≠ .terminating caller id reason pc) (move : Move t op t') :
    Booked ledger (ledger.turn pool.options i t choice) i t op t' := by
  have hturn : ledger.turn pool.options i t choice = ledger := by
    cases t with
    | passing pc => exact absurd rfl (hpass pc)
    | terminating caller id reason pc => exact absurd rfl (hterm caller id reason pc)
    | _ => rfl
  rw [hturn]
  cases move with
  | create hq | respond hq | responded hq | read hq =>
    exact ⟨trivial, fun j _ => rfl, fun counter => by rw [Op.recycles_quiet hq]; rfl⟩
  | @count caller =>
    cases caller <;> exact ⟨trivial, fun j _ => rfl, fun counter => rfl⟩
  | disconnect | complete =>
    refine ⟨?_, fun j _ => rfl, fun counter => rfl⟩
    show recycleCounter _ = none
    decide
  | pass | condemn | passed => exact absurd rfl (hpass _)
  | remove | missed | kill | giveReason | countRecycle | take | noBrowser | shut | dropShut | report
  | die | dropEnded | finish | leave => exact absurd rfl (hterm _ _ _ _)
  | _ => exact ⟨trivial, fun j _ => rfl, fun counter => rfl⟩

/-- Every step of a task is booked. -/
theorem perform_booked {i : Nat} {ledger : Ledger} (hc : t.Caused (ledger.cause i))
    (h : t.perform pool choice = some (op, t')) :
    Booked ledger (ledger.turn pool.options i t choice) i t op t' := by
  cases t with
  | passing pc =>
    cases Task.perform_step h with
    | pass step => exact booked_passing step
  | terminating caller id reason pc =>
    by_cases hpc : pc = .removing
    · subst hpc
      exact booked_removing hc h
    · exact booked_terminating hpc hc (Task.perform_move h)
  | _ =>
    refine booked_other ?_ ?_ (Task.perform_move h)
    · intro pc heq
      cases heq
    · intro caller id reason pc heq
      cases heq

end

/-! ## Runs -/

section

variable {pool : SessionPool} {dirs : Finset PathBuf} {P : State → Action → Prop} {s s' : State}
  {a : Action} {as : List Action} {ledger : Ledger}

/-- The counters are those of the ledger, but for what is still to be counted. -/
structure State.Accounted (s : State) (ledger : Ledger) : Prop where
  caused : ∀ (i : Nat) (t : Task), s.tasks[i]? = some t → t.Caused (ledger.cause i)
  count : ∀ counter, s.memory.recycledTotal counter + s.sum (Task.awaitsCount counter) =
    ledger.endedFor counter

/-- A pass is not dropped, so nothing that is to be counted is. -/
theorem Task.awaitsCount_droppable {t : Task} (h : t.droppable = true) (counter : RecycleCounter) :
    t.awaitsCount counter = 0 := by
  cases t with
  | terminating caller id reason pc =>
    cases caller with
    | pass rest => cases h
    | delete | proxy | rest => rfl
  | _ => rfl

/-- What a request starts as is to be counted for nothing. -/
theorem Request.task_caused (request : Request) (cause : Option (Uuid × RecycleCounter)) :
    request.task.Caused cause := by
  cases request with
  | delete id =>
    show recycleCounter "delete requested" = none
    decide
  | _ => exact trivial

/-- Another task that takes a place has to have its reason in the ledger, and the tasks at the other
places keep theirs. -/
theorem caused_set {i : Nat} {t' : Task} {cause cause' : Nat → Option (Uuid × RecycleCounter)}
    {tasks : List Task} (h : ∀ (i : Nat) (t : Task), tasks[i]? = some t → t.Caused (cause i))
    (ht' : t'.Caused (cause' i)) (hothers : ∀ j, j ≠ i → cause' j = cause j) :
    ∀ (j : Nat) (t : Task), (tasks.set i t')[j]? = some t → t.Caused (cause' j) := by
  intro j t hj
  rw [List.getElem?_set] at hj
  split at hj
  · next hij =>
    subst hij
    split at hj
    · exact Option.some.inj hj ▸ ht'
    · cases hj
  · next hij =>
    rw [hothers j fun heq => hij heq.symm]
    exact h j t hj

/-- Every action keeps the counters accounted for. -/
theorem accounted_step (h : s.Accounted ledger) (hs : step pool s a = some s') :
    s'.Accounted (ledger.next pool s a) := by
  rcases step_cases hs with ⟨i, t, op, t', ht, turn, -, rfl⟩ | ⟨request, rfl, rfl⟩ |
    ⟨c, rfl, -, rfl⟩ | ⟨d, rfl, rfl⟩
  · cases turn with
    | @perform choice _ _ hperform =>
      have hbooked := perform_booked (h.caused i t ht) hperform
      have hnext : ledger.next pool s (.task i choice) =
          ledger.turn pool.options i t choice := by
        simp only [Ledger.next, ht]
      rw [hnext]
      refine ⟨caused_set h.caused hbooked.caused hbooked.others, fun counter => ?_⟩
      have hsum := tally_set (f := Task.awaitsCount counter) ht t'
      have hcount := hbooked.count counter
      have hbefore := h.count counter
      simp only [State.sum, Memory.effect_recycledTotal] at hbefore ⊢
      omega
    | drop hdrop =>
      refine ⟨caused_set h.caused trivial fun _ _ => rfl, fun counter => ?_⟩
      have hsum := tally_set (f := Task.awaitsCount counter) ht .done
      have hzero := Task.awaitsCount_droppable hdrop counter
      have hdone : Task.done.awaitsCount counter = 0 := rfl
      have hop : (Op.release t.locals).recycles counter = 0 := rfl
      have hbefore := h.count counter
      simp only [State.sum, Memory.effect_recycledTotal, Ledger.next] at hbefore ⊢
      omega
  · refine ⟨fun i t ht => ?_, fun counter => ?_⟩
    · rw [List.getElem?_append] at ht
      split at ht
      · exact h.caused i t ht
      · obtain rfl := List.mem_singleton.1 (List.mem_of_getElem? ht)
        exact request.task_caused _
    · rw [State.sum_arrive (by cases request <;> rfl)]
      exact h.count counter
  · exact ⟨h.caused, h.count⟩
  · exact ⟨h.caused, h.count⟩

/-- The counters of a reachable state are accounted for. -/
theorem accounted_of_reach (h : Reach pool dirs P as s) : s.Accounted (ledgerOf pool dirs as) := by
  refine h.preserves_recorded (fun _ _ _ _ hi _ hs => accounted_step hi hs) ⟨?_, fun _ => rfl⟩
  intro i t ht
  cases ht

/-- Only a call of `terminate_session` counts, at one of its steps. -/
theorem Move.recycles {op : Op} {t t' : Task} (move : Move t op t') :
    (∃ caller id reason, t = .terminating caller id reason .counting ∧
      op = .countRecycle id reason) ∨ ∀ counter, op.recycles counter = 0 := by
  cases move with
  | countRecycle => exact .inl ⟨_, _, _, rfl, rfl⟩
  | create hq | respond hq | responded hq | shut hq | report hq | pass hq | condemn hq | read hq =>
    exact .inr fun counter => Op.recycles_quiet hq counter
  | _ => exact .inr fun counter => rfl

/-- A step of the system that is not the counting step of a pass increments no counter, if it is of
a reason that is accounted for. -/
theorem recycledTotal_step (h : s.Accounted ledger) (hs : step pool s a = some s')
    (hpass : ∀ (i : Nat) (rest : List Uuid) (id : Uuid) (reason : String),
      s.tasks[i]? = some (.terminating (.pass rest) id reason .counting) → a ≠ .task i .go) :
    s'.memory.recycledTotal = s.memory.recycledTotal := by
  rcases step_cases hs with ⟨i, t, op, t', ht, turn, -, rfl⟩ | ⟨request, rfl, rfl⟩ |
    ⟨c, rfl, -, rfl⟩ | ⟨d, rfl, rfl⟩
  · have hnone : ∀ counter, op.recycles counter = 0 := by
      cases turn with
      | drop hdrop => exact fun counter => rfl
      | @perform choice _ _ hperform =>
        obtain ⟨caller, id, reason, rfl, rfl⟩ | hnone := (Task.perform_move hperform).recycles
        · have hchoice : choice = .go := by
            cases choice with
            | go => rfl
            | _ => cases hperform
          have hcaused := h.caused i _ ht
          intro counter
          cases caller with
          | pass rest => exact absurd (congrArg (Action.task i) hchoice) (hpass i rest id reason ht)
          | delete | proxy | rest =>
            have hreason : recycleCounter reason = none := hcaused
            rw [Op.recycles, hreason]
            rfl
        · exact hnone
    funext counter
    rw [Memory.effect_recycledTotal, hnone, Nat.add_zero]
  · rfl
  · rfl
  · rfl

/-- The counting step of a pass increments the counter of the check that fired last in it, which was
for the session that it terminates. -/
theorem recycledTotal_pass (h : s.Accounted ledger) {i : Nat} {rest : List Uuid} {id : Uuid}
    {reason : String} (ht : s.tasks[i]? = some (.terminating (.pass rest) id reason .counting))
    (hs : step pool s (.task i .go) = some s') :
    ∃ counter, ledger.cause i = some (id, counter) ∧ s'.memory.recycledTotal =
      Function.update s.memory.recycledTotal counter (s.memory.recycledTotal counter + 1) := by
  obtain ⟨counter, hcause, hreason⟩ := h.caused i _ ht
  refine ⟨counter, hcause, ?_⟩
  have hstep : s'.memory = s.memory.effect (.countRecycle id reason) := by
    rw [step, ht] at hs
    obtain rfl := Option.some.inj hs
    rfl
  rw [hstep]
  simp only [Memory.effect, hreason]
  rfl

/-- **Recycles by their cause.** In every run, a pass that terminates a session does so for the
check that fired last in it, and this was for the session. Each counter is the number of the
sessions that the passes have removed for its check, but for those that they have still to count.
The step at which a pass counts increments just the counter of its check; no other step, of a
request, of the proxy or of anything else, increments one. -/
theorem recycles_by_cause (h : Reach pool dirs anyAction as s) :
    (∀ (i : Nat) (rest : List Uuid) (id : Uuid) (reason : String) (pc : TermPc),
      s.tasks[i]? = some (.terminating (.pass rest) id reason pc) →
      ∃ counter, (ledgerOf pool dirs as).cause i = some (id, counter)) ∧
    (∀ counter, s.memory.recycledTotal counter + s.sum (Task.awaitsCount counter) =
      (ledgerOf pool dirs as).endedFor counter) ∧
    (∀ (i : Nat) (rest : List Uuid) (id : Uuid) (reason : String) (s' : State),
      s.tasks[i]? = some (.terminating (.pass rest) id reason .counting) →
      step pool s (.task i .go) = some s' →
      ∃ counter, (ledgerOf pool dirs as).cause i = some (id, counter) ∧ s'.memory.recycledTotal =
        Function.update s.memory.recycledTotal counter (s.memory.recycledTotal counter + 1)) ∧
    ∀ (a : Action) (s' : State), step pool s a = some s' →
      (∀ (i : Nat) (rest : List Uuid) (id : Uuid) (reason : String),
        s.tasks[i]? = some (.terminating (.pass rest) id reason .counting) → a ≠ .task i .go) →
      s'.memory.recycledTotal = s.memory.recycledTotal := by
  have haccounted := accounted_of_reach h
  refine ⟨?_, haccounted.count, ?_, ?_⟩
  · intro i rest id reason pc ht
    obtain ⟨counter, hcause, -⟩ := haccounted.caused i _ ht
    exact ⟨counter, hcause⟩
  · intro i rest id reason s' ht hs
    exact recycledTotal_pass haccounted ht hs
  · intro a s' hs hpass
    exact recycledTotal_step haccounted hs hpass

/-- A session outlives its lifetime, and a pass recycles it. -/
def lifetimeRun : List Action :=
  .arrive (.create .postSession .default) :: insertActions 0 0 "/tmp/eiger-chrome-a" 0 ++
    [.task 0 .go, .advance (.fromSecs 3600), .arrive .maintenance, .task 1 (.session 0),
      .task 1 .go, .task 1 (.state .ready), .task 1 (.elapse (.fromSecs 3600)), .task 1 .go,
      .task 1 .go, .task 1 .go, .task 1 .go]

/-- The theorem after that: it is counted for its lifetime. -/
theorem recycles_by_cause_lifetime :
    (exampleState 1 lifetimeRun).memory.recycledTotal .lifetime =
        (ledgerOf (examplePool 1) ∅ lifetimeRun).endedFor .lifetime ∧
      (ledgerOf (examplePool 1) ∅ lifetimeRun).ended = [(0, .lifetime)] := by
  have hrun : Reach (examplePool 1) ∅ anyAction lifetimeRun (exampleState 1 lifetimeRun) :=
    run_after (by decide)
  have hcount := (recycles_by_cause hrun).2.1 .lifetime
  have hnone : (exampleState 1 lifetimeRun).sum (Task.awaitsCount .lifetime) = 0 := by decide
  rw [hnone, Nat.add_zero] at hcount
  exact ⟨hcount, by decide⟩

end

end Eiger
