import Eiger.Pool.Moves

/-!
# Termination happens once

The removal from the sessions map linearises the terminators of a session: of any number of
`terminate_session` calls one removes it, and that call alone goes through the steps after the
removal, each once. The history of a reachable state says so (`History`): a step of
`terminate_session` that has been taken for a session, or is still to be taken by the call that
removed it, is matched by the one removal.

From it: `exactly_once`, the at-most-once properties and the conservation of the counters, and
`lifecycle_irreversible`, the order of a session's states. The latter needs that `mark_in_use`,
which does not look at the state it overwrites, meets no session that is killed or dead
(`marksLive`); `mark_revives_killed` is a run in which it does.
-/

namespace Eiger

open Transition Tally

/-! ## The stages of `terminate_session` -/

/-- The steps of `terminate_session` in their order. -/
def TermPc.rank : TermPc → Nat
  | .removing => 0
  | .killing => 1
  | .reasoning => 2
  | .counting => 3
  | .taking => 4
  | .shutting .. => 5
  | .reporting _ => 5
  | .dying => 6
  | .ended => 7
  | .finishing => 7
  | .leaving => 8

/-- The rank of the step that logs a milestone. -/
def Milestone.rank : Milestone → Nat
  | .removed => 0
  | .killing => 1
  | .killReason => 2
  | .recycled => 3
  | .shutdown => 4
  | .dead => 6
  | .returnedTrue => 7

/-- How far a task is in the termination of session `id`; 0 if it has not removed it. -/
def Task.stage (id : Uuid) : Task → Nat
  | .terminating _ j _ pc => if j = id then pc.rank else 0
  | _ => 0

/-- 1 if the task removed session `id` and has a step of rank up to `k` before it. -/
def Task.pending (id : Uuid) (k : Nat) (t : Task) : Nat :=
  if 1 ≤ t.stage id ∧ t.stage id ≤ k then 1 else 0

/-- 1 if the task removed session `id` and has the steps of rank up to `k` behind it. -/
def Task.passed (id : Uuid) (k : Nat) (t : Task) : Nat :=
  if k < t.stage id ∧ t.stage id ≤ 7 then 1 else 0

/-- How often an operation logs a milestone of a session. -/
def Op.logs (op : Op) (id : Uuid) (k : Milestone) : Nat :=
  op.milestone.toList.count (id, k)

/-- A quiet operation logs no milestone. -/
theorem Op.logs_quiet {op : Op} (hq : op.quiet = true) (id : Uuid) (k : Milestone) :
    op.logs id k = 0 := by
  cases op <;> first | rfl | cases hq

/-- An operation logs one milestone at most. -/
theorem Op.logs_exclusive (op : Op) {id : Uuid} {k k' : Milestone} (h : op.logs id k = 1)
    (hne : k ≠ k') : op.logs id k' = 0 := by
  unfold Op.logs at *
  cases hm : op.milestone with
  | none =>
    rw [hm] at h
    cases h
  | some jk =>
    rw [hm] at h
    have hjk : jk = (id, k) := by simpa [List.count_singleton] using h
    simp [hjk, hne]

namespace State

/-- How often a milestone of a session has been logged. -/
def logged (s : State) (id : Uuid) (k : Milestone) : Nat := s.memory.history.count (id, k)

end State

/-- The task that a creation goes on as terminates nothing. -/
@[simp] theorem Task.stage_created (caller : Caller) (id j : Uuid) :
    (Task.created caller j).stage id = 0 := by
  cases caller <;> rfl

/-- What a termination returns to terminates nothing. -/
@[simp] theorem Task.stage_resume (caller : Terminator) (id : Uuid) :
    (Task.resume caller).stage id = 0 := by
  cases caller <;> rfl

namespace Move

variable {t t' : Task} {op : Op}

/-- A call that has removed its session logs each step at most once, and only that call. -/
theorem pending_le (move : Move t op t') (id : Uuid) {k : Milestone} (hk : k ≠ .removed) :
    t'.pending id k.rank + op.logs id k ≤ t.pending id k.rank + op.logs id .removed := by
  cases move with
  | create hq | respond hq | responded hq | pass hq | read hq =>
    simp [Task.pending, Task.stage, Op.logs_quiet hq]
  | condemn hq => simp [Task.pending, Task.stage, Op.logs_quiet hq, TermPc.rank]
  | shut hq =>
    simp only [Task.pending, Task.stage, Op.logs_quiet hq, TermPc.rank]
    exact Nat.le_refl _
  | @report _ j _ _ _ hq =>
    by_cases hj : j = id
    · cases k <;>
        simp [Task.pending, Task.stage, Op.logs_quiet hq, TermPc.rank, Milestone.rank, hj]
    · simp [Task.pending, Task.stage, Op.logs_quiet hq, hj]
  | leave =>
    simp only [Task.pending, Task.stage_resume]
    simp [Op.logs, Op.milestone]
  | @countRecycle _ j reason =>
    by_cases hj : j = id
    · cases k <;> cases hr : recycleCounter reason <;>
        simp [Task.pending, Task.stage, Op.logs, Op.milestone, TermPc.rank, Milestone.rank, hj, hr]
    · cases hr : recycleCounter reason <;>
        simp [Task.pending, Task.stage, Op.logs, Op.milestone, hj, hr]
  | @remove _ j | @missed _ j | @kill _ j | @giveReason _ j | @take _ j | @noBrowser _ j
  | @dropShut _ j | @die _ j | @dropEnded _ j | @finish _ j =>
    by_cases hj : j = id
    · cases k <;>
        simp [Task.pending, Task.stage, Op.logs, Op.milestone, TermPc.rank, Milestone.rank, hj]
          at hk ⊢
    · simp [Task.pending, Task.stage, Op.logs, Op.milestone, hj]
  | count =>
    simp only [Task.pending, Task.stage_created]
    simp [Op.logs, Op.milestone]
  | _ => simp [Task.pending, Task.stage, Op.logs, Op.milestone, TermPc.rank]

/-- A call is past the killing only once it has logged it. -/
theorem passed_le (move : Move t op t') (id : Uuid) :
    t'.passed id 1 ≤ t.passed id 1 + op.logs id .killing := by
  cases move with
  | @report _ j | @countRecycle _ j | @remove _ j | @missed _ j | @kill _ j | @giveReason _ j
  | @take _ j | @noBrowser _ j | @dropShut _ j | @die _ j | @dropEnded _ j | @finish _ j
  | @shut _ j =>
    by_cases hj : j = id <;>
      simp [Task.passed, Task.stage, Op.logs, Op.milestone, TermPc.rank, hj]
  | leave =>
    simp only [Task.passed, Task.stage_resume]
    simp
  | count =>
    simp only [Task.passed, Task.stage_created]
    simp
  | _ => simp [Task.passed, Task.stage, TermPc.rank]

end Move

namespace Turn

variable {pool : SessionPool} {i : Nat} {t t' : Task} {a : Action} {op : Op}

/-- A turn logs each step of a termination at most once. -/
theorem pending_le (turn : Turn pool i t a op t') (id : Uuid) {k : Milestone}
    (hk : k ≠ .removed) :
    t'.pending id k.rank + op.logs id k ≤ t.pending id k.rank + op.logs id .removed := by
  cases turn with
  | perform h => exact (Task.perform_move h).pending_le id hk
  | drop => exact Nat.zero_le _

/-- A turn gets past the killing only by logging it. -/
theorem passed_le (turn : Turn pool i t a op t') (id : Uuid) :
    t'.passed id 1 ≤ t.passed id 1 + op.logs id .killing := by
  cases turn with
  | perform h => exact (Task.perform_move h).passed_le id
  | drop => exact Nat.zero_le _

end Turn

/-- A request has terminated nothing when it starts. -/
@[simp] theorem Request.stage_task (request : Request) (id : Uuid) :
    request.task.stage id = 0 := by
  cases request <;> simp [Request.task, Task.stage, TermPc.rank]

/-! ## The history of reachable states -/

/-- Each step of a termination is matched by the one removal, and a session's removal by its
presence in the map before. -/
structure State.History (s : State) : Prop where
  once : ∀ id k, k ≠ .removed →
    s.sum (Task.pending id k.rank) + s.logged id k ≤ s.logged id .removed
  removed : ∀ id, s.logged id .removed + mapRefs s.memory.sessions id
    = if id < s.memory.heap.length then 1 else 0
  passed : ∀ id, s.sum (Task.passed id 1) ≤ s.logged id .killing

namespace State

variable {s : State} {id : Uuid}

/-- A session is removed at most once. -/
theorem History.removed_le (h : s.History) (id : Uuid) : s.logged id .removed ≤ 1 := by
  have := h.removed id
  split at this <;> omega

/-- Each step of a termination is taken at most once for a session. -/
theorem History.le_one (h : s.History) (id : Uuid) (k : Milestone) : s.logged id k ≤ 1 := by
  by_cases hk : k = .removed
  · rw [hk]
    exact h.removed_le id
  · exact (Nat.le_add_left _ _).trans ((h.once id k hk).trans (h.removed_le id))

/-- A session whose termination is under way is no longer in the map. -/
theorem History.not_mem (h : s.History) (hpos : 0 < s.logged id .removed) :
    id ∉ s.memory.sessions := by
  intro hmem
  have := h.removed id
  rw [mapRefs_of_mem hmem] at this
  split at this <;> omega

end State

section

variable {pool : SessionPool} {dirs : Finset PathBuf} {P : State → Action → Prop} {s s' : State}
  {a : Action} {as as' : List Action} {id : Uuid}

/-- What an operation logs is what it adds to the log. -/
theorem logged_effect (s : State) (tasks : List Task) (op : Op) (id : Uuid) (k : Milestone) :
    ({ memory := s.memory.effect op, tasks } : State).logged id k
      = op.logs id k + s.logged id k := by
  simp only [State.logged, Memory.effect_history, List.count_append, Op.logs]

/-- A removal takes a session out of the map, and an insertion puts a new one in. -/
theorem removed_effect {m : Memory} {op : Op} (he : m.enabled op = true) (id : Uuid)
    (hnew : id = m.heap.length → mapRefs m.sessions id = 0) :
    op.logs id .removed + mapRefs (op.sessions m.sessions) id
        + (if id < m.heap.length then 1 else 0)
      = mapRefs m.sessions id + if id < m.heap.length + op.inserts then 1 else 0 := by
  cases op with
  | insert j stealth b =>
    obtain rfl : j = m.heap.length := by simpa [Memory.enabled] using he
    simp only [Op.sessions, mapRefs_insert, Op.logs, Op.milestone, Op.inserts]
    by_cases hid : id = m.heap.length
    · have hzero := hnew hid
      subst hid
      simp [hzero]
    · have : id < m.heap.length + 1 ↔ id < m.heap.length := by
        constructor
        · intro h
          exact Nat.lt_of_le_of_ne (Nat.lt_succ_iff.1 h) hid
        · exact Nat.lt_succ_of_lt
      simp [hid, this]
  | remove j =>
    have hj : j ∈ m.sessions := by simpa [Memory.enabled] using he
    simp only [Op.sessions, mapRefs_erase, Op.logs, Op.milestone, Op.inserts]
    by_cases hid : id = j
    · subst hid
      simp [hj]
    · have hne : j ≠ id := fun h => hid h.symm
      simp [hid, hne]
  | countRecycle j reason =>
    simp only [Op.logs, Op.milestone, Op.sessions, Op.inserts]
    cases recycleCounter reason <;> simp
  | _ => simp [Op.logs, Op.milestone, Op.sessions, Op.inserts]

/-- Every action keeps the history in order. -/
theorem history_step (h : s.History) (hs : step pool s a = some s') : s'.History := by
  rcases step_cases hs with ⟨i, t, op, t', ht, turn, he, rfl⟩ | ⟨request, rfl, rfl⟩ |
    ⟨c, rfl, -, rfl⟩ | ⟨d, rfl, rfl⟩
  · refine ⟨fun id k hk => ?_, fun id => ?_, fun id => ?_⟩
    · have hsum := tally_set (f := Task.pending id k.rank) ht t'
      have hturn := turn.pending_le id hk
      have hold := h.once id k hk
      rw [logged_effect, logged_effect]
      simp only [State.sum] at hold ⊢
      omega
    · have hold := h.removed id
      have hnew : id = s.memory.heap.length → mapRefs s.memory.sessions id = 0 := by
        intro hid
        rw [if_neg (hid ▸ Nat.lt_irrefl _)] at hold
        omega
      have heff := removed_effect he id hnew
      rw [logged_effect, Memory.effect_sessions, Memory.effect_heap_length]
      omega
    · have hsum := tally_set (f := Task.passed id 1) ht t'
      have hturn := turn.passed_le id
      have hold := h.passed id
      rw [logged_effect]
      simp only [State.sum] at hold ⊢
      omega
  · refine ⟨fun id k hk => ?_, h.removed, fun id => ?_⟩
    · rw [State.sum_arrive (by simp [Task.pending])]
      exact h.once id k hk
    · rw [State.sum_arrive (by simp [Task.passed])]
      exact h.passed id
  · exact ⟨h.once, h.removed, h.passed⟩
  · exact ⟨h.once, h.removed, h.passed⟩

/-- **The history of every reachable state is in order.** -/
theorem history_of_reach (h : Reach pool dirs P as s) : s.History := by
  refine h.preserves (fun _ _ _ hs _ => history_step hs)
    ⟨fun _ _ _ => ?_, fun _ => rfl, fun _ => ?_⟩
  · exact Nat.le_refl 0
  · exact Nat.le_refl 0

end

/-! ## The counters -/

/-- The sum of the five recycle counters. -/
def Memory.recycledSum (m : Memory) : Nat :=
  m.recycledTotal .rssLimit + m.recycledTotal .idle + m.recycledTotal .lifetime
    + m.recycledTotal .processExit + m.recycledTotal .cdpUnhealthy

/-- How often an operation logs a milestone, of any session. -/
def Op.logsAny (op : Op) (k : Milestone) : Nat := op.milestone.toList.countP (·.2 = k)

/-- 1 if the task has inserted a session and not yet counted it. -/
def Task.uncounted : Task → Nat
  | .creating _ _ pc => if pc.hasInserted then 1 else 0
  | _ => 0

namespace State

/-- How often a milestone has been logged, of any session. -/
def total (s : State) (k : Milestone) : Nat := s.memory.history.countP (·.2 = k)

/-- The number of `terminate_session` calls whose removal succeeded. -/
def removals (s : State) : Nat := s.total .removed

/-- No `create_session` call is between its insertion and its count. -/
def BetweenOperations (s : State) : Prop := s.sum Task.uncounted = 0

instance (s : State) : Decidable s.BetweenOperations := inferInstanceAs (Decidable (_ = 0))

/-- The kill reason of a session. -/
def killReason (s : State) (id : Uuid) : Option String :=
  (s.memory.entryAt id).bind (·.killReason)

end State

/-- A recycle counter is incremented when the milestone says so. -/
theorem Memory.effect_recycledSum (m : Memory) (op : Op) :
    (m.effect op).recycledSum = m.recycledSum + op.logsAny .recycled := by
  cases op with
  | countRecycle id reason =>
    simp only [effect, Op.logsAny, Op.milestone]
    cases recycleCounter reason with
    | none => rfl
    | some counter =>
      cases counter <;> simp [recycledSum, record, Function.update] <;> omega
  | release frame =>
    obtain ⟨_, _, _, _, h, _⟩ := m.release_frame frame
    rw [effect_release, h]
    rfl
  | _ => rfl

/-- A quiet operation counts no session. -/
theorem Op.counts_quiet {op : Op} (hq : op.quiet = true) : op.counts = 0 := by
  cases op <;> first | rfl | cases hq

/-- A quiet operation inserts no session. -/
theorem Op.inserts_quiet {op : Op} (hq : op.quiet = true) : op.inserts = 0 := by
  cases op <;> first | rfl | cases hq

/-- A turn counts what it or an earlier one inserted. -/
theorem Turn.uncounted_eq {pool : SessionPool} {i : Nat} {t t' : Task} {a : Action} {op : Op}
    (turn : Turn pool i t a op t') :
    t'.uncounted + op.counts = t.uncounted + op.inserts := by
  cases turn with
  | perform h =>
    cases Task.perform_move h with
    | create hq hpc hpc' =>
      simp [Task.uncounted, hpc, hpc', Op.counts_quiet hq, Op.inserts_quiet hq]
    | respond hq | responded hq | shut hq | report hq | pass hq | condemn hq | read hq =>
      simp [Task.uncounted, Op.counts_quiet hq, Op.inserts_quiet hq]
    | @count caller => cases caller <;> rfl
    | @leave caller => cases caller <;> rfl
    | _ => rfl
  | drop h =>
    cases t with
    | creating caller overrides pc => cases pc <;> first | rfl | cases h
    | _ => rfl

section

variable {pool : SessionPool} {dirs : Finset PathBuf} {P : State → Action → Prop} {s s' : State}
  {a : Action} {as as' : List Action} {id : Uuid}

/-- The counters as the history has them. -/
structure State.Counted (s : State) : Prop where
  recycled : s.memory.recycledSum = s.total .recycled
  created : s.memory.sessionsCreatedTotal + s.sum Task.uncounted
    = s.memory.sessions.card + s.removals

/-- An operation inserts into the map or logs what it removes from it. -/
theorem card_effect {m : Memory} {op : Op} (he : m.enabled op = true)
    (hnew : m.heap.length ∉ m.sessions) :
    (op.sessions m.sessions).card + op.logsAny .removed = m.sessions.card + op.inserts := by
  cases op with
  | insert j stealth b =>
    obtain rfl : j = m.heap.length := by simpa [Memory.enabled] using he
    rw [Op.sessions, Finset.card_insert_of_notMem hnew]
    rfl
  | remove j =>
    have hj : j ∈ m.sessions := by simpa [Memory.enabled] using he
    have hcard := Finset.card_erase_add_one hj
    simpa [Op.sessions, Op.logsAny, Op.milestone, Op.inserts] using hcard
  | countRecycle j reason =>
    simp only [Op.logsAny, Op.milestone, Op.sessions, Op.inserts]
    cases recycleCounter reason <;> rfl
  | _ => rfl

/-- Every action keeps the counters true to the history. -/
theorem counted_step (hh : s.History) (h : s.Counted) (hs : step pool s a = some s') :
    s'.Counted := by
  rcases step_cases hs with ⟨i, t, op, t', ht, turn, he, rfl⟩ | ⟨request, rfl, rfl⟩ |
    ⟨c, rfl, -, rfl⟩ | ⟨d, rfl, rfl⟩
  · have htotal : ∀ k, ({ memory := s.memory.effect op, tasks := s.tasks.set i t' } : State).total k
        = op.logsAny k + s.total k := fun k => by
      simp only [State.total, Memory.effect_history, List.countP_append, Op.logsAny]
    refine ⟨?_, ?_⟩
    · rw [htotal, Memory.effect_recycledSum, h.recycled, Nat.add_comm]
    · have hnew : s.memory.heap.length ∉ s.memory.sessions := by
        intro hmem
        have := hh.removed s.memory.heap.length
        rw [mapRefs_of_mem hmem, if_neg (Nat.lt_irrefl _)] at this
        omega
      have hsum := tally_set (f := Task.uncounted) ht t'
      have hturn := turn.uncounted_eq
      have hcard := card_effect he hnew
      have hold := h.created
      rw [State.removals, htotal, Memory.effect_sessions, Memory.effect_sessionsCreatedTotal]
      simp only [State.removals, State.sum] at hold ⊢
      omega
  · refine ⟨h.recycled, ?_⟩
    have hreq : request.task.uncounted = 0 := by cases request <;> rfl
    have hold := h.created
    simpa [State.sum, State.removals, State.total, hreq] using hold
  · exact ⟨h.recycled, h.created⟩
  · exact ⟨h.recycled, h.created⟩

/-- The counters of every reachable state are true to its history. -/
theorem counted_of_reach (h : Reach pool dirs P as s) : s.Counted :=
  h.preserves_of (J := State.History) (fun _ _ h => history_of_reach h)
    (fun _ _ _ hh _ hc _ hs => counted_step hh hc hs) ⟨rfl, rfl⟩

/-! ## Kill reasons -/

/-- Only `setKillReason` writes an entry's kill reason. -/
theorem Op.rewrite_killReason (op : Op) (now : Instant) (id : Uuid) (e : SessionEntry) :
    (op.rewrite now id e).killReason = e.killReason ∨ op.logs id .killReason = 1 := by
  cases op with
  | setKillReason j reason =>
    by_cases hj : j = id
    · exact .inr (by simp [Op.logs, Op.milestone, hj])
    · exact .inl (by simp [Op.rewrite, hj])
  | checkHealth j since due =>
    by_cases hj : j = id <;> cases due <;> exact .inl (by simp [Op.rewrite, hj])
  | claim j | markInUse j | touch j | setKilling j | takeBrowser j | setDead j =>
    by_cases hj : j = id <;> exact .inl (by simp [Op.rewrite, hj])
  | _ => exact .inl rfl

/-- Every kill reason is one the history has. -/
def State.KillReasonsLogged (s : State) : Prop :=
  ∀ id reason, s.killReason id = some reason → 0 < s.logged id .killReason

/-- Every action keeps the kill reasons within the history. -/
theorem killReasonsLogged_step (h : s.KillReasonsLogged) (hs : step pool s a = some s') :
    s'.KillReasonsLogged := by
  rcases step_cases hs with ⟨i, t, op, t', ht, turn, he, rfl⟩ | ⟨request, rfl, rfl⟩ |
    ⟨c, rfl, -, rfl⟩ | ⟨d, rfl, rfl⟩
  · intro id reason hr
    rw [logged_effect]
    obtain ⟨e', he', hreason⟩ := Option.bind_eq_some_iff.1 hr
    rcases Memory.effect_entryAt_cases he he' with ⟨e, hid, rfl⟩ | ⟨stealth, b, rfl, rfl, -⟩
    · rcases op.rewrite_killReason s.memory.now id e with hsame | hlog
      · have := h id reason (Option.bind_eq_some_iff.2 ⟨e, hid, hsame ▸ hreason⟩)
        omega
      · omega
    · cases hreason
  · exact h
  · exact h
  · exact h

/-- The kill reasons of every reachable state are in its history. -/
theorem killReasonsLogged_of_reach (h : Reach pool dirs P as s) : s.KillReasonsLogged := by
  refine h.preserves (fun _ _ _ hs _ => killReasonsLogged_step hs) fun id reason hr => ?_
  obtain ⟨e, he, -⟩ := Option.bind_eq_some_iff.1 hr
  cases he

/-- No action overwrites a kill reason. -/
theorem killReason_step (hh : s.History) (hk : s.KillReasonsLogged)
    (hs : step pool s a = some s') {reason : String} (hr : s.killReason id = some reason) :
    s'.killReason id = some reason := by
  rcases step_cases hs with ⟨i, t, op, t', ht, turn, he, rfl⟩ | ⟨request, rfl, rfl⟩ |
    ⟨c, rfl, -, rfl⟩ | ⟨d, rfl, rfl⟩
  · obtain ⟨e, hid, hreason⟩ := Option.bind_eq_some_iff.1 hr
    refine Option.bind_eq_some_iff.2 ⟨_, Memory.effect_entryAt_some op hid, ?_⟩
    rcases op.rewrite_killReason s.memory.now id e with hsame | hlog
    · rw [hsame, hreason]
    · -- a second reason would need a call still to give one, next to the reason logged
      have hpos := hk id reason hr
      have hturn := turn.pending_le id (k := .killReason) (by decide)
      have hle := le_tally (f := Task.pending id Milestone.killReason.rank) ht
      have honce := hh.once id .killReason (by decide)
      have hremoved := hh.removed_le id
      have hnot := op.logs_exclusive hlog (show Milestone.killReason ≠ .removed by decide)
      simp only [State.sum] at honce
      omega
  · exact hr
  · exact hr
  · exact hr

/-- A kill reason stays as it was given. -/
theorem killReason_run (h : Reach pool dirs P as s) (h' : Run (step pool) P s as' s')
    {reason : String} (hr : s.killReason id = some reason) : s'.killReason id = some reason := by
  have hinv := h'.preserves
    (I := fun s => s.History ∧ s.KillReasonsLogged ∧ s.killReason id = some reason)
    (fun _ _ _ hi _ hs => ⟨history_step hi.1 hs, killReasonsLogged_step hi.2.1 hs,
      killReason_step hi.1 hi.2.1 hs hi.2.2⟩)
    ⟨history_of_reach h, killReasonsLogged_of_reach h, hr⟩
  exact hinv.2.2

/-! ## Exactly-once termination -/

/-- **Exactly-once termination and conservation.** For every session, at most one
`terminate_session` call returns `true`, the browser is shut down at most once, the kill reason is
given at most once and never overwritten, and at most one recycle counter is incremented. Between
operations the sessions created are those in the map and those removed, and the recycle counters
sum up to no more than them. -/
theorem exactly_once (h : Reach pool dirs anyAction as s) :
    (∀ id, s.logged id .returnedTrue ≤ 1 ∧ s.logged id .shutdown ≤ 1 ∧
      s.logged id .killReason ≤ 1 ∧ s.logged id .recycled ≤ 1) ∧
    (∀ id reason as' s', Run (step pool) anyAction s as' s' → s.killReason id = some reason →
      s'.killReason id = some reason) ∧
    (s.BetweenOperations →
      s.memory.sessionsCreatedTotal = s.memory.sessions.card + s.removals ∧
      s.memory.recycledSum ≤ s.memory.sessionsCreatedTotal) := by
  have hh := history_of_reach h
  have hc := counted_of_reach h
  refine ⟨fun id => ⟨hh.le_one id _, hh.le_one id _, hh.le_one id _, hh.le_one id _⟩, ?_, ?_⟩
  · intro id reason as' s' hrun hr
    exact killReason_run h hrun hr
  · intro hbetween
    have hcreated := hc.created
    rw [hbetween, Nat.add_zero] at hcreated
    have hle : s.total .recycled ≤ s.total .removed := countP_snd_le fun id =>
      (Nat.le_add_left _ _).trans (hh.once id .recycled (by decide))
    refine ⟨hcreated, ?_⟩
    rw [hc.recycled, hcreated]
    exact hle.trans (Nat.le_add_left _ _)

/-- A session is created and deleted. -/
def createThenDelete : List Action :=
  .arrive (.create .rest .default) :: insertActions 0 0 "/tmp/eiger-chrome-a" 0 ++
    .task 0 .go :: .arrive (.delete 0) ::
      terminateActions 1 (exampleBrowser 0 "/tmp/eiger-chrome-a")

/-- The theorem after that: one session was created, and it was removed. -/
theorem exactly_once_deleted :
    (exampleState 1 createThenDelete).memory.sessionsCreatedTotal
        = (exampleState 1 createThenDelete).memory.sessions.card
          + (exampleState 1 createThenDelete).removals ∧
      (exampleState 1 createThenDelete).memory.recycledSum
        ≤ (exampleState 1 createThenDelete).memory.sessionsCreatedTotal := by
  have hrun : Reach (examplePool 1) ∅ anyAction createThenDelete
      (exampleState 1 createThenDelete) := run_after (by decide)
  exact (exactly_once hrun).2.2 (by decide)

end

/-! ## The order of the states -/

/-- The order in which a session goes through its states. No operation writes `Launching` or
`Draining`. -/
def SessionState.rank : SessionState → Nat
  | .launching => 0
  | .ready => 1
  | .inUse => 2
  | .draining => 2
  | .killing => 3
  | .dead => 4

/-- The guard that `mark_in_use` meets no session that is killed or dead. -/
def marksLive (pool : SessionPool) (s : State) (a : Action) : Bool :=
  match s.op? pool a with
  | some (.markInUse id) => s.stateOf id ≠ some .killing && s.stateOf id ≠ some .dead
  | _ => true

/-- A session that is killed or dead has its killing in the log. -/
def State.KillsLogged (s : State) : Prop :=
  ∀ id state, s.stateOf id = some state → SessionState.killing.rank ≤ state.rank →
    0 < s.logged id .killing

section

variable {pool : SessionPool} {dirs : Finset PathBuf} {P : State → Action → Prop} {s s' : State}
  {a : Action} {as as' : List Action} {id : Uuid} {state : SessionState}

/-- Only a call past its killing writes the state of the dead. -/
theorem Turn.setDead_passed {i : Nat} {t t' : Task} (turn : Turn pool i t a (.setDead id) t') :
    t.passed id 1 = 1 := by
  cases turn with
  | perform h =>
    cases Task.perform_move h with
    | die => simp [Task.passed, Task.stage, TermPc.rank]
    | create hq | respond hq | responded hq | shut hq | report hq | pass hq | condemn hq
    | read hq => cases hq

/-- Every action keeps the killings in the log. -/
theorem killsLogged_step (hh : s.History) (h : s.KillsLogged) (hs : step pool s a = some s') :
    s'.KillsLogged := by
  rcases step_cases hs with ⟨i, t, op, t', ht, turn, he, rfl⟩ | ⟨request, rfl, rfl⟩ |
    ⟨c, rfl, -, rfl⟩ | ⟨d, rfl, rfl⟩
  · intro id state hstate hrank
    rw [logged_effect]
    rcases State.stateOf_effect_cases he hstate with ⟨old, hold, rfl⟩ | ⟨_, _, rfl, rfl, -⟩
    · by_cases hlow : SessionState.killing.rank ≤ old.rank
      · exact Nat.lt_of_lt_of_le (h id old hold hlow) (Nat.le_add_left _ _)
      · cases op with
        | setKilling j =>
          by_cases hj : j = id
          · simp only [Op.logs, Op.milestone, hj, Option.toList_some, List.count_singleton_self]
            omega
          · simp [Op.nextState, hj, hlow] at hrank
        | setDead j =>
          by_cases hj : j = id
          · subst hj
            have hpassed := hh.passed j
            have hle := le_tally (f := Task.passed j 1) ht
            rw [turn.setDead_passed] at hle
            simp only [State.sum] at hpassed
            omega
          · simp [Op.nextState, hj, hlow] at hrank
        | claim j =>
          by_cases hj : j = id
          · simp [Op.nextState, hj, SessionState.rank] at hrank
          · simp [Op.nextState, hj, hlow] at hrank
        | markInUse j =>
          by_cases hj : j = id
          · simp [Op.nextState, hj, SessionState.rank] at hrank
          · simp [Op.nextState, hj, hlow] at hrank
        | _ => exact absurd hrank hlow
    · exact absurd hrank (by decide)
  · exact h
  · exact h
  · exact h

/-- In every reachable state the killings are in the log. -/
theorem killsLogged_of_reach (h : Reach pool dirs P as s) : s.KillsLogged := by
  refine h.preserves_of (J := State.History) (fun _ _ h => history_of_reach h)
    (fun _ _ _ hh _ hk _ hs => killsLogged_step hh hk hs) fun id state hstate => ?_
  cases hstate

/-- **A step does not take a session back** in the order of its states, if it marks only what is
live. -/
theorem stateOf_step (hh : s.History) (hk : s.KillsLogged) (hp : marksLive pool s a = true)
    (hs : step pool s a = some s') (hstate : s.stateOf id = some state) :
    ∃ state', s'.stateOf id = some state' ∧ state.rank ≤ state'.rank := by
  rcases step_cases hs with ⟨i, t, op, t', ht, turn, he, rfl⟩ | ⟨request, rfl, rfl⟩ |
    ⟨c, rfl, -, rfl⟩ | ⟨d, rfl, rfl⟩
  · refine ⟨_, State.stateOf_effect_some op _ hstate, ?_⟩
    cases op with
    | claim j =>
      by_cases hj : j = id
      · subst hj
        rw [State.stateOf_of_claim he] at hstate
        obtain rfl := Option.some.inj hstate
        simp [Op.nextState, SessionState.rank]
      · simp [Op.nextState, hj]
    | markInUse j =>
      by_cases hj : j = id
      · subst hj
        -- the guard leaves only states before `Killing`
        rw [marksLive, turn.op_eq ht (fun _ h => by cases h)] at hp
        simp only [hstate] at hp
        cases state <;> simp [Op.nextState, SessionState.rank] at hp ⊢
      · simp [Op.nextState, hj]
    | setKilling j =>
      by_cases hj : j = id
      · subst hj
        have hturn := turn.pending_le j (k := .killing) (by decide)
        have hle := le_tally (f := Task.pending j Milestone.killing.rank) ht
        have honce := hh.once j .killing (by decide)
        have hremoved := hh.removed_le j
        have hlog : (Op.setKilling j).logs j .killing = 1 := by simp [Op.logs, Op.milestone]
        have hnot := Op.logs_exclusive _ hlog (show Milestone.killing ≠ .removed by decide)
        simp only [State.sum] at honce
        -- a killing still to be done means none has been
        have hzero : ¬ 0 < s.logged j .killing := by omega
        have hlow : ¬ SessionState.killing.rank ≤ state.rank := fun h => hzero (hk j state hstate h)
        simp only [Op.nextState, if_true]
        omega
      · simp [Op.nextState, hj]
    | setDead j =>
      by_cases hj : j = id
      · cases state <;> simp [Op.nextState, hj, SessionState.rank]
      · simp [Op.nextState, hj]
    | _ => exact Nat.le_refl _
  · exact ⟨state, hstate, Nat.le_refl _⟩
  · exact ⟨state, hstate, Nat.le_refl _⟩
  · exact ⟨state, hstate, Nat.le_refl _⟩

/-- A run that marks only what is live does not take a session back. -/
theorem stateOf_run (h : Reach pool dirs P as s)
    (h' : Run (step pool) (fun s a => marksLive pool s a = true) s as' s')
    (hstate : s.stateOf id = some state) :
    ∃ state', s'.stateOf id = some state' ∧ state.rank ≤ state'.rank := by
  have hinv := h'.preserves
    (I := fun s => s.History ∧ s.KillsLogged ∧
      ∃ state', s.stateOf id = some state' ∧ state.rank ≤ state'.rank)
    (fun _ _ _ hi hp hs => by
      obtain ⟨hh, hk, state', hstate', hle⟩ := hi
      obtain ⟨state'', hstate'', hle'⟩ := stateOf_step hh hk hp hs hstate'
      exact ⟨history_step hh hs, killsLogged_step hh hk hs, state'', hstate'', hle.trans hle'⟩)
    ⟨history_of_reach h, killsLogged_of_reach h, state, hstate, Nat.le_refl _⟩
  exact hinv.2.2

/-- **The lifecycle is irreversible** in every run that marks only what is live: what is killed is
later killed or dead, what is dead stays dead, and what is in use is not ready again. -/
theorem lifecycle_irreversible
    (h : Reach pool dirs (fun s a => marksLive pool s a = true) as s)
    (h' : Run (step pool) (fun s a => marksLive pool s a = true) s as' s') (id : Uuid) :
    (s.stateOf id = some .killing →
      s'.stateOf id = some .killing ∨ s'.stateOf id = some .dead) ∧
    (s.stateOf id = some .dead → s'.stateOf id = some .dead) ∧
    (s.stateOf id = some .inUse → s'.stateOf id ≠ some .ready) := by
  refine ⟨fun hs => ?_, fun hs => ?_, fun hs => ?_⟩
  all_goals
    obtain ⟨state', hstate', hle⟩ := stateOf_run h h' hs
    rw [hstate']
    cases state' <;> simp [SessionState.rank] at hle ⊢

end

/-! ### Marking what is killed -/

/-- A session is created by a REST request and deleted before the request marks it. The deletion is
past the writes it makes under the lock of the state. -/
def deleteBeforeMark : List Action :=
  .arrive (.create .rest .default) :: insertActions 0 0 "/tmp/eiger-chrome-a" 0 ++
    [.task 0 .go, .arrive (.delete 0), .task 1 .go, .task 1 .go, .task 1 .go]

/-- The theorem on that run: killed, the session is still killed a step later. -/
theorem lifecycle_of_delete :
    (after (step (examplePool 1)) (exampleState 1 deleteBeforeMark) [.task 1 .go]).stateOf 0
        = some .killing ∨
      (after (step (examplePool 1)) (exampleState 1 deleteBeforeMark) [.task 1 .go]).stateOf 0
        = some .dead := by
  have h : Reach (examplePool 1) ∅ (fun s a => marksLive (examplePool 1) s a = true)
      deleteBeforeMark (exampleState 1 deleteBeforeMark) := run_after (by decide)
  have h' : Run (step (examplePool 1)) (fun s a => marksLive (examplePool 1) s a = true)
      (exampleState 1 deleteBeforeMark) [.task 1 .go] _ := run_after (by decide)
  exact (lifecycle_irreversible h h' 0).1 (by decide)

/-- `mark_in_use` does not look at the state it overwrites: the deleted session is in use again. -/
theorem mark_revives_killed :
    ¬ ∀ (pool : SessionPool) (dirs : Finset PathBuf) (as as' : List Action) (s s' : State)
        (id : Uuid), Reach pool dirs anyAction as s → Run (step pool) anyAction s as' s' →
      s.stateOf id = some .killing →
        s'.stateOf id = some .killing ∨ s'.stateOf id = some .dead := by
  intro h
  have hrun := h (examplePool 1) ∅ deleteBeforeMark [.task 0 .go] _ _ 0
    (run_after (by decide)) (run_after (by decide)) (by decide)
  revert hrun
  decide

end Eiger
