import Eiger.Pool.Lifecycle

/-!
# Idle recycling

A maintenance pass reads a session's state, then how long it has been idle, and if it was ready and
idle for too long it terminates it. The reads and the removal are separate steps, so that a client
can connect in between.

`idle_recycled_ready` is what the pass does when none does: what it removes for idleness is ready,
and idle for longer than `max_idle_time`, at the moment of the removal. The guard (`idleUnclaimed`)
is that no session is claimed or marked between the pass's read of its state and its removal;
`connected_recycled` is a run in which a client's `connect_session` has returned and the pass takes
the session from it.
-/

namespace Eiger

open Transition Tally

namespace Task

/-- Whether the task is a pass about to remove session `id` for idleness. -/
def condemned (id : Uuid) : Task → Bool
  | .terminating (.pass _) j reason .removing => j = id && reason = "max idle time exceeded"
  | _ => false

/-- Whether the task is about to touch session `id`, which it has claimed or marked. -/
def touches (id : Uuid) : Task → Bool
  | .connecting j .claimed => j = id
  | .touching _ j => j = id
  | _ => false

end Task

/-- How long a session has been idle. -/
def State.idleFor (s : State) (id : Uuid) : Option Duration :=
  (s.memory.entryAt id).map fun e => s.memory.now - e.lastUsedInstant

/-- The guard that no session is claimed or marked between the pass's read of its state and its
removal for idleness: not when the pass decides to remove it, and not after. -/
def idleUnclaimed (pool : SessionPool) (s : State) (a : Action) : Bool :=
  match s.next? pool a with
  | some (.readIdle id _, t') =>
    !t'.condemned id || id ∉ s.memory.sessions || s.stateOf id = some .ready
  | some (.claim id, _) => s.tasks.all fun t => !t.condemned id
  | some (.markInUse id, _) => s.tasks.all fun t => !t.condemned id
  | _ => true

/-! ## How a pass condemns -/

namespace PoolOptions

/-- The reason for an idle session comes from its idle time. -/
theorem lt_of_idleReason {options : PoolOptions} {state : SessionState} {idleFor : Duration}
    {reason : String} (h : options.idleReason state idleFor = some reason) :
    options.maxIdleTime < idleFor := by
  unfold idleReason at h
  split at h
  · next hidle => exact hidle.2
  · cases h

end PoolOptions

namespace Task

variable {pool : SessionPool} {choice : Choice} {op : Op} {t t' : Task} {id j : Uuid}

/-- What a condemning task is. -/
theorem eq_of_condemned (h : t.condemned id = true) :
    ∃ rest, t = .terminating (.pass rest) id "max idle time exceeded" .removing := by
  unfold condemned at h
  split at h
  · next rest j reason =>
    obtain ⟨rfl, rfl⟩ : j = id ∧ reason = "max idle time exceeded" := by simpa using h
    exact ⟨rest, rfl⟩
  · cases h

/-- A pass that looked at a session condemns that session, and for the reason it found. -/
theorem condemned_decide {rest : List Uuid} {pc : PassPc} {reason : Option String}
    (h : (decide j rest pc reason).condemned id = true) :
    j = id ∧ reason = some "max idle time exceeded" := by
  cases reason with
  | none => cases h
  | some reason =>
    have hboth : j = id ∧ reason = "max idle time exceeded" := by
      simpa [decide, condemned] using h
    exact ⟨hboth.1, congrArg some hboth.2⟩

end Task

section

variable {pool : SessionPool} {choice : Choice} {op : Op} {t t' : Task} {id : Uuid}

/-- A pass condemns a session when it reads its idle time. -/
theorem PassStep.condemned {options : PoolOptions} {pc : PassPc}
    (step : PassStep options pc choice op t') (hc : t'.condemned id = true) :
    ∃ idleFor, op = .readIdle id idleFor ∧ options.maxIdleTime < idleFor := by
  cases step with
  | age => exact absurd (Task.condemned_decide hc).2 (options.lifetimeReason_ne _ (by decide))
  | idle =>
    obtain ⟨rfl, hreason⟩ := Task.condemned_decide hc
    exact ⟨_, rfl, PoolOptions.lt_of_idleReason hreason⟩
  | sample =>
    exact absurd (Task.condemned_decide hc).2
      (options.sampleReason_ne _ (by decide) fun _ => by decide)
  | probe => exact absurd (Task.condemned_decide hc).2 (healthReason_ne _ (by decide))
  | _ => cases hc

/-- So does every task. -/
theorem TaskStep.condemned (step : TaskStep pool t choice op t') (hc : t'.condemned id = true) :
    ∃ idleFor, op = .readIdle id idleFor ∧ pool.options.maxIdleTime < idleFor := by
  obtain ⟨rest, ht'⟩ := Task.eq_of_condemned hc
  cases step with
  | @create caller _ _ _ _ _ step =>
    cases step with
    | count => cases caller <;> cases ht'
    | _ => cases ht'
  | respond step => cases step <;> cases ht'
  | connect step => cases step <;> cases ht'
  | @terminate caller _ _ _ _ _ _ step =>
    cases step with
    | leave => cases caller <;> cases ht'
    | _ => cases ht'
  | pass step => exact step.condemned hc
  | _ => cases ht'

end

/-! ## What is condemned stays idle -/

section

variable {pool : SessionPool} {dirs : Finset PathBuf} {P : State → Action → Prop} {s s' : State}
  {i : Nat} {t t' : Task} {a : Action} {as : List Action} {op : Op} {id : Uuid}

/-- A step of a termination is for a session that is no longer in the map. -/
theorem State.History.not_mem_of_logs (h : s.History) (ht : s.tasks[i]? = some t)
    (turn : Turn pool i t a op t') {k : Milestone} (hk : k ≠ .removed) (hlog : op.logs id k = 1) :
    id ∉ s.memory.sessions := by
  have hturn := turn.pending_le id hk
  have hle := le_tally (f := Task.pending id k.rank) ht
  have honce := h.once id k hk
  have hnot := op.logs_exclusive hlog hk
  simp only [State.sum] at honce
  exact h.not_mem (by omega)

/-- A ready session in the map is made something else only by a claim or a mark. -/
theorem ready_step (hh : s.History) (ht : s.tasks[i]? = some t) (turn : Turn pool i t a op t')
    (hmem : id ∈ s.memory.sessions) (hready : s.stateOf id = some .ready)
    (hclaim : op ≠ .claim id) (hmark : op ≠ .markInUse id) (tasks : List Task) :
    ({ memory := s.memory.effect op, tasks } : State).stateOf id = some .ready := by
  rw [State.stateOf_effect_some op tasks hready]
  have hlogs : ∀ k, k ≠ .removed → op.logs id k ≠ 1 := fun k hk hlog =>
    hh.not_mem_of_logs ht turn hk hlog hmem
  cases op with
  | claim j =>
    have hj : j ≠ id := fun h => hclaim (h ▸ rfl)
    simp [Op.nextState, hj]
  | markInUse j =>
    have hj : j ≠ id := fun h => hmark (h ▸ rfl)
    simp [Op.nextState, hj]
  | setKilling j =>
    have hj : j ≠ id := fun h => hlogs .killing (by decide) (by simp [Op.logs, Op.milestone, h])
    simp [Op.nextState, hj]
  | setDead j =>
    have hj : j ≠ id := fun h => hlogs .dead (by decide) (by simp [Op.logs, Op.milestone, h])
    simp [Op.nextState, hj]
  | _ => rfl

/-- What is about to be touched has been claimed or marked. -/
def State.TouchedTaken (s : State) : Prop :=
  ∀ id, s.stateOf id = some .ready → ∀ t ∈ s.tasks, t.touches id = false

/-- A task comes to touch a session by claiming or marking it. -/
theorem Move.touches_of (move : Move t op t') (h : t'.touches id = true) :
    op = .claim id ∨ op = .markInUse id := by
  cases move with
  | claim => exact .inl (congrArg Op.claim (by simpa [Task.touches] using h))
  | mark => exact .inr (congrArg Op.markInUse (by simpa [Task.touches] using h))
  | @count caller => cases caller <;> cases h
  | @leave caller => cases caller <;> cases h
  | _ => cases h

/-- Only who is about to touches a session. -/
theorem Turn.touches_of (turn : Turn pool i t a (.touch id) t') : t.touches id = true := by
  cases turn with
  | perform h =>
    cases Task.perform_move h with
    | connected => simp [Task.touches]
    | touch => simp [Task.touches]
    | create hq | respond hq | responded hq | shut hq | report hq | pass hq | condemn hq
    | read hq => cases hq

/-- Who is about to touch a session refers to its entry. -/
theorem Task.mem_locals_of_touches (h : t.touches id = true) : .entry id ∈ t.locals := by
  unfold touches at h
  split at h
  · simpa [locals, connectLocals, eq_comm] using h
  · simpa [locals, eq_comm] using h
  · cases h

/-- A task of the new state is the one that took the turn, or was there before. -/
theorem mem_set_or {tasks : List Task} {u : Task} (h : u ∈ tasks.set i t') :
    u = t' ∨ u ∈ tasks :=
  (List.mem_or_eq_of_mem_set h).symm

/-- Every action keeps what is about to be touched taken. -/
theorem touchedTaken_step (hrefs : s.Refs) (h : s.TouchedTaken) (hs : step pool s a = some s') :
    s'.TouchedTaken := by
  rcases step_cases hs with ⟨i, t, op, t', ht, turn, he, rfl⟩ | ⟨request, rfl, rfl⟩ |
    ⟨c, rfl, -, rfl⟩ | ⟨d, rfl, rfl⟩
  · intro id hready u hu
    by_contra htouch
    rw [Bool.not_eq_false] at htouch
    have hnew : u = t' → op = .claim id ∨ op = .markInUse id := by
      rintro rfl
      cases turn with
      | perform hperform => exact (Task.perform_move hperform).touches_of htouch
      | drop => cases htouch
    rcases State.stateOf_effect_cases he hready with ⟨old, hold, hnext⟩ | ⟨_, _, rfl, -, hlen⟩
    · obtain ⟨rfl, hclaim, hmark⟩ := Op.nextState_ready hnext.symm
      rcases mem_set_or hu with rfl | hu
      · exact (hnew rfl).elim hclaim hmark
      · rw [h id hold u hu] at htouch
        cases htouch
    · rcases mem_set_or hu with rfl | hu
      · rcases hnew rfl with hop | hop <;> cases hop
      · obtain ⟨j, hj⟩ := List.mem_iff_getElem?.1 hu
        have hlt := hrefs.lt_of_mem hj (Task.mem_locals_of_touches htouch)
        exact absurd hlt (hlen ▸ Nat.lt_irrefl _)
  · intro id hready u hu
    rcases List.mem_append.1 hu with hu | hu
    · exact h id hready u hu
    · obtain rfl := List.mem_singleton.1 hu
      cases request <;> rfl
  · exact h
  · exact h

/-- What is condemned, as long as it is in the map, is ready and idle for too long. -/
def State.CondemnedIdle (pool : SessionPool) (s : State) : Prop :=
  ∀ id, id ∈ s.memory.sessions → ∀ t ∈ s.tasks, t.condemned id = true →
    s.stateOf id = some .ready ∧
      ∃ idleFor, s.idleFor id = some idleFor ∧ pool.options.maxIdleTime < idleFor

/-- Only a touch writes when a session was last used. -/
theorem Op.rewrite_lastUsedInstant (op : Op) (now : Instant) (e : SessionEntry)
    (h : op ≠ .touch id) : (op.rewrite now id e).lastUsedInstant = e.lastUsedInstant := by
  cases op with
  | touch j =>
    have hj : j ≠ id := fun hj => h (hj ▸ rfl)
    simp [Op.rewrite, hj]
  | claim j | markInUse j | setKilling j | setKillReason j | takeBrowser j | setDead j =>
    by_cases hj : j = id <;> simp [Op.rewrite, hj]
  | checkHealth j since due =>
    by_cases hj : j = id <;> cases due <;> simp [Op.rewrite, hj]
  | _ => rfl

/-- But for a touch, an operation leaves a session as idle as it is. -/
theorem idleFor_effect {idleFor : Duration} (h : s.idleFor id = some idleFor)
    (htouch : op ≠ .touch id) (tasks : List Task) :
    ({ memory := s.memory.effect op, tasks } : State).idleFor id = some idleFor := by
  obtain ⟨e, he, rfl⟩ := Option.map_eq_some_iff.1 h
  refine Option.map_eq_some_iff.2 ⟨_, Memory.effect_entryAt_some op he, ?_⟩
  simp only [Memory.effect_now, op.rewrite_lastUsedInstant _ _ htouch]

/-- A condemning pass refers to the entry it condemns. -/
theorem Task.mem_locals_of_condemned (h : t.condemned id = true) : .entry id ∈ t.locals := by
  obtain ⟨rest, rfl⟩ := eq_of_condemned h
  simp [locals, termLocals, callerFrame]

/-- Every action that the guard allows keeps what is condemned idle. -/
theorem condemnedIdle_step (hh : s.History) (hrefs : s.Refs) (htaken : s.TouchedTaken)
    (h : s.CondemnedIdle pool) (hp : idleUnclaimed pool s a = true)
    (hs : step pool s a = some s') : s'.CondemnedIdle pool := by
  rcases step_cases hs with ⟨i, t, op, t', ht, turn, he, rfl⟩ | ⟨request, rfl, rfl⟩ |
    ⟨c, rfl, -, rfl⟩ | ⟨d, rfl, rfl⟩
  · intro id hmem u hu hcond
    rw [Memory.effect_sessions] at hmem
    rcases mem_set_or hu with rfl | hu
    · -- the pass condemns now: the guard has it ready, and the read has it idle
      cases turn with
      | @perform choice _ _ hperform =>
        obtain ⟨idleFor, rfl, hlt⟩ := (Task.perform_step hperform).condemned hcond
        have hnext : s.next? pool (.task i choice) = some (.readIdle id idleFor, u) := by
          simp only [State.next?, ht, Option.bind_some]
          exact hperform
        rw [idleUnclaimed, hnext] at hp
        have hin : id ∈ s.memory.sessions := hmem
        have hready : s.stateOf id = some .ready := by simpa [hcond, hin] using hp
        refine ⟨hready, idleFor, ?_, hlt⟩
        obtain ⟨e, hid, -⟩ := Option.map_eq_some_iff.1 hready
        have hread : idleFor = s.memory.now - e.lastUsedInstant := by
          simpa [Memory.enabled, hid] using he
        exact Option.map_eq_some_iff.2 ⟨e, hid, hread.symm⟩
      | drop => cases hcond
    · obtain ⟨j, hj⟩ := List.mem_iff_getElem?.1 hu
      have hlt := hrefs.lt_of_mem hj (Task.mem_locals_of_condemned hcond)
      have hin : id ∈ s.memory.sessions := by
        cases op with
        | insert k stealth b =>
          obtain rfl : k = s.memory.heap.length := by simpa [Memory.enabled] using he
          exact Finset.mem_of_mem_insert_of_ne hmem (Nat.ne_of_lt hlt)
        | remove k => exact Finset.mem_of_mem_erase hmem
        | _ => exact hmem
      obtain ⟨hready, idleFor, hidle, hover⟩ := h id hin u hu hcond
      have hopen : ∀ op' : Op, (op' = .claim id ∨ op' = .markInUse id) → op ≠ op' := by
        rintro op' hop' rfl
        have hop : s.op? pool a = some op := turn.op_eq ht (by rintro frame rfl; simp at hop')
        obtain ⟨⟨op₁, t₁⟩, hnext, hop₁⟩ := Option.map_eq_some_iff.1 hop
        have hall : s.tasks.all (fun t => !t.condemned id) = true := by
          rw [idleUnclaimed, hnext] at hp
          rcases hop' with rfl | rfl <;> cases hop₁ <;> exact hp
        have hnot := List.all_eq_true.1 hall u hu
        rw [hcond] at hnot
        cases hnot
      refine ⟨ready_step hh ht turn hin hready (hopen _ (.inl rfl)) (hopen _ (.inr rfl)) _, idleFor,
        idleFor_effect hidle ?_ _, hover⟩
      rintro rfl
      have := htaken id hready t (List.mem_of_getElem? ht)
      rw [turn.touches_of] at this
      cases this
  · intro id hmem u hu hcond
    rcases List.mem_append.1 hu with hu | hu
    · exact h id hmem u hu hcond
    · obtain rfl := List.mem_singleton.1 hu
      cases request <;> cases hcond
  · exact h
  · intro id hmem u hu hcond
    obtain ⟨hready, idleFor, hidle, hover⟩ := h id hmem u hu hcond
    obtain ⟨e, hid, rfl⟩ := Option.map_eq_some_iff.1 hidle
    refine ⟨hready, _, Option.map_eq_some_iff.2 ⟨e, hid, rfl⟩, Nat.lt_of_lt_of_le hover ?_⟩
    exact Nat.sub_le_sub_right (Nat.le_add_right _ _) _

/-- The invariant of idle recycling. -/
structure State.IdleSafe (pool : SessionPool) (s : State) : Prop where
  history : s.History
  refs : s.Refs
  taken : s.TouchedTaken
  idle : s.CondemnedIdle pool

/-- Every state that a run reaches under the guard has the invariant. -/
theorem idleSafe_of_reach
    (h : Reach pool dirs (fun s a => idleUnclaimed pool s a = true) as s) : s.IdleSafe pool := by
  refine h.preserves (fun s a s' hi hp hs => ?_) ⟨?_, ?_, ?_, ?_⟩
  · exact ⟨history_step hi.history hs, refs_step hi.refs hs, touchedTaken_step hi.refs hi.taken hs,
      condemnedIdle_step hi.history hi.refs hi.taken hi.idle hp hs⟩
  · exact history_of_reach (P := anyAction) .nil
  · exact refs_of_reach (P := anyAction) .nil
  · exact fun _ _ _ hu => by cases hu
  · exact fun _ _ _ hu => by cases hu

/-- **Idle recycling takes no session in use**: in every run that claims or marks no session between
the pass's read of its state and its removal, a session a pass removes for idleness is ready, and
has been idle for longer than `max_idle_time`, at the moment of its removal. -/
theorem idle_recycled_ready (h : Reach pool dirs (fun s a => idleUnclaimed pool s a = true) as s)
    {rest : List Uuid}
    (ht : s.tasks[i]? = some (.terminating (.pass rest) id "max idle time exceeded" .removing))
    (hs : step pool s (.task i .go) = some s') :
    s.stateOf id = some .ready ∧
      ∃ idleFor, s.idleFor id = some idleFor ∧ pool.options.maxIdleTime < idleFor := by
  have hmem : id ∈ s.memory.sessions := by
    by_contra hout
    simp [step, ht, Task.perform, Task.performTerminate, Memory.apply, Memory.enabled, hout] at hs
  exact (idleSafe_of_reach h).idle id hmem _ (List.mem_of_getElem? ht) (by simp [Task.condemned])

end

/-- A session is created, and a pass finds it idle for too long. -/
def passCondemns : List Action :=
  .arrive (.create .postSession .default) :: insertActions 0 0 "/tmp/eiger-chrome-a" 0 ++
    [.task 0 .go, .advance (.fromSecs 301), .arrive .maintenance, .task 1 (.session 0), .task 1 .go,
     .task 1 (.state .ready), .task 1 (.elapse (.fromSecs 301)), .task 1 (.state .ready),
     .task 1 (.elapse (.fromSecs 301))]

/-- The theorem on that run. -/
theorem idle_recycled_untouched : (exampleState 1 passCondemns).stateOf 0 = some .ready := by
  have hrun : Reach (examplePool 1) ∅ (fun s a => idleUnclaimed (examplePool 1) s a = true)
      passCondemns (exampleState 1 passCondemns) := run_after (by decide)
  obtain ⟨s', hs⟩ := Option.isSome_iff_exists.1
    (show (step (examplePool 1) (exampleState 1 passCondemns) (.task 1 .go)).isSome by decide)
  have ht : (exampleState 1 passCondemns).tasks[1]?
      = some (.terminating (.pass []) 0 "max idle time exceeded" .removing) := by decide
  exact (idle_recycled_ready hrun ht hs).1

/-- A client's `connect_session` returns between the pass's decision and its removal. -/
def connectAfterCondemned : List Action :=
  passCondemns ++ [.arrive (.connectExisting 0), .task 2 .go, .task 2 .go, .task 2 .go]

/-- Without the guard a client connects in between, and the pass removes the session in use. -/
theorem connected_recycled :
    ¬ ∀ (pool : SessionPool) (dirs : Finset PathBuf) (as : List Action) (s s' : State) (i : Nat)
        (id : Uuid) (rest : List Uuid), Reach pool dirs anyAction as s →
      s.tasks[i]? = some (.terminating (.pass rest) id "max idle time exceeded" .removing) →
      step pool s (.task i .go) = some s' →
        s.stateOf id = some .ready ∧
          ∃ idleFor, s.idleFor id = some idleFor ∧ pool.options.maxIdleTime < idleFor := by
  intro h
  obtain ⟨s', hs⟩ := Option.isSome_iff_exists.1 (show (step (examplePool 1)
    (exampleState 1 connectAfterCondemned) (.task 1 .go)).isSome by decide)
  have hrun := h (examplePool 1) ∅ connectAfterCondemned _ s' 1 0 [] (run_after (by decide))
    (by decide) hs
  obtain ⟨hready, -⟩ := hrun
  revert hready
  decide

end Eiger
