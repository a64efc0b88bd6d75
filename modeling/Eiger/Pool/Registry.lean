import Eiger.Lib.Simulation
import Eiger.Pool.Lifecycle
import Eiger.Pool.Ownership

/-!
# The pool refines a registry of sessions

`Registry` is what the sessions map and the entries' states are for, in the terms of the callers: a
set of live sessions, of which those that nobody has claimed are free. Each of its events is one
answer of the pool to a call, or one step a call takes with a session, and `Registry.step` says
when it is possible and what it changes. There are no tasks, no references and no locks in it.

The calls of the pool take many steps each, in any order and with drops anywhere. What a call has
been told is read off where it goes on (`Task.decides`), and what it returns off what its caller
goes on with (`Task.returns`). `registry_run` says that all the same the answers are those of the
registry, one event at a time, in the order of the steps that decide them, and that each call
returns what its last event says: every call takes effect at one point between its start and its
return. What a client sees of a session follows on the registry alone; `claimed_once` is that
`connect_session` hands a session out once at most, and that it does so on a claim made before
anyone marked or killed the session.
-/

namespace Eiger

open Transition Tally

/-! ## The specification -/

/-- What a call of the pool does with a session, or is told about it. -/
inductive SessionEvent where
  | created (id : Uuid)
  /-- The sessions map has it, and the caller gets a reference. -/
  | found (id : Uuid)
  | missing (id : Uuid)
  /-- `connect_session` makes it the caller's. -/
  | claimed (id : Uuid)
  | rejected (id : Uuid)
  /-- `mark_in_use` on a reference. -/
  | marked (id : Uuid)
  | removed (id : Uuid)
  | killed (id : Uuid)
  | died (id : Uuid)
  deriving DecidableEq, Repr

/-- The sessions so far are numbered below `created`; `live` are those in the map, `free` those
that nobody has claimed, marked or killed. -/
@[ext] structure Registry where
  created : Nat
  live : Finset Uuid
  free : Finset Uuid
  deriving DecidableEq

namespace Registry

/-- No session yet. -/
def empty : Registry := { created := 0, live := ∅, free := ∅ }

/-- A session stays in the map when it is claimed, and is claimed, marked or killed for good. A
reference may outlast the removal of its session, so that a removed session may still be
claimed until it is killed. -/
def step (r : Registry) : SessionEvent → Option Registry
  | .created id =>
    if id = r.created then
      some { created := r.created + 1, live := insert id r.live, free := insert id r.free }
    else none
  | .found id => if id ∈ r.live then some r else none
  | .missing id => if id ∉ r.live then some r else none
  | .claimed id =>
    if id < r.created ∧ id ∈ r.free then some { r with free := r.free.erase id } else none
  | .rejected id => if id < r.created ∧ id ∉ r.free then some r else none
  | .marked id => if id < r.created then some { r with free := r.free.erase id } else none
  | .removed id => if id ∈ r.live then some { r with live := r.live.erase id } else none
  | .killed id =>
    if id < r.created ∧ id ∉ r.live then some { r with free := r.free.erase id } else none
  | .died id =>
    if id < r.created ∧ id ∉ r.live then some { r with free := r.free.erase id } else none

end Registry

/-! ## What a client may rely on -/

namespace SessionEvent

/-- The events that make a session anything but free. -/
def takes (id : Uuid) : SessionEvent → Bool
  | .claimed j => j = id
  | .marked j => j = id
  | .killed j => j = id
  | .died j => j = id
  | _ => false

end SessionEvent

namespace Registry

variable {r r' : Registry} {e : SessionEvent} {es : List SessionEvent} {id : Uuid}

/-- How far a session has come: not created, free, or taken. -/
def stage (id : Uuid) (r : Registry) : Nat :=
  if id < r.created then if id ∈ r.free then 1 else 2 else 0

/-- Taking a session from the free ones takes no session back. -/
theorem stage_erase (id j : Uuid) (r : Registry) :
    r.stage id ≤ stage id { r with free := r.free.erase j } := by
  simp only [stage, Finset.mem_erase]
  split
  · split
    · split <;> omega
    · next hfree => rw [if_neg fun h => hfree h.2]
  · exact Nat.le_refl 0

/-- A session that is taken from the free ones is taken. -/
theorem stage_erase_self (h : id < r.created) :
    stage id { r with free := r.free.erase id } = 2 := by
  rw [stage, if_pos h, if_neg (Finset.notMem_erase id r.free)]

/-- No event takes a session back. -/
theorem stage_le (id : Uuid) (h : r.step e = some r') : r.stage id ≤ r'.stage id := by
  cases e with
  | created j =>
    rw [step, Option.ite_none_right_eq_some] at h
    obtain ⟨rfl, h⟩ := h
    obtain rfl := Option.some.inj h
    simp only [stage, Finset.mem_insert]
    split
    · next hlt =>
      rw [if_pos (Nat.lt_succ_of_lt hlt)]
      have hne : id ≠ r.created := Nat.ne_of_lt hlt
      simp only [hne, false_or, Nat.le_refl]
    · exact Nat.zero_le _
  | found | missing | rejected | removed =>
    rw [step, Option.ite_none_right_eq_some] at h
    obtain ⟨-, h⟩ := h
    obtain rfl := Option.some.inj h
    exact Nat.le_refl _
  | claimed | marked | killed | died =>
    rw [step, Option.ite_none_right_eq_some] at h
    obtain ⟨-, h⟩ := h
    obtain rfl := Option.some.inj h
    exact stage_erase id _ r

/-- What takes a session leaves it taken. -/
theorem stage_takes (id : Uuid) (h : r.step e = some r') (he : e.takes id = true) :
    2 ≤ r'.stage id := by
  cases e with
  | created | found | missing | rejected | removed => cases he
  | claimed j | killed j | died j =>
    obtain rfl : j = id := by simpa [SessionEvent.takes] using he
    rw [step, Option.ite_none_right_eq_some] at h
    obtain ⟨⟨hlt, -⟩, h⟩ := h
    obtain rfl := Option.some.inj h
    exact Nat.le_of_eq (stage_erase_self hlt).symm
  | marked j =>
    obtain rfl : j = id := by simpa [SessionEvent.takes] using he
    rw [step, Option.ite_none_right_eq_some] at h
    obtain ⟨hlt, h⟩ := h
    obtain rfl := Option.some.inj h
    exact Nat.le_of_eq (stage_erase_self hlt).symm

/-- Only a free session is claimed. -/
theorem stage_claimed (h : r.step (.claimed id) = some r') : r.stage id = 1 := by
  rw [step, Option.ite_none_right_eq_some] at h
  obtain ⟨⟨hlt, hfree⟩, -⟩ := h
  rw [stage, if_pos hlt, if_pos hfree]

/-- Only its creation brings a session into being. -/
theorem stage_created (h : r.step e = some r') (hr : r.stage id = 0) (hr' : 0 < r'.stage id) :
    e = .created id := by
  have hnot : ¬ id < r.created := by
    intro hlt
    rw [stage, if_pos hlt] at hr
    split at hr <;> cases hr
  have hlt : id < r'.created := by
    refine Nat.lt_of_not_le fun hge => ?_
    rw [stage, if_neg (Nat.not_lt.2 hge)] at hr'
    exact Nat.lt_irrefl 0 hr'
  cases e with
  | created j =>
    rw [step, Option.ite_none_right_eq_some] at h
    obtain ⟨rfl, h⟩ := h
    obtain rfl := Option.some.inj h
    rw [Nat.le_antisymm (Nat.lt_succ_iff.1 hlt) (Nat.not_lt.1 hnot)]
  | _ =>
    rw [step, Option.ite_none_right_eq_some] at h
    obtain ⟨-, h⟩ := h
    obtain rfl := Option.some.inj h
    exact absurd hlt hnot

/-- A session that exists has been created. -/
theorem created_of_run (h : Run step (fun _ _ => True) .empty es r) (hr : 0 < r.stage id) :
    .created id ∈ es := by
  induction h with
  | nil => exact absurd hr (Nat.lt_irrefl 0)
  | @snoc es r r' e h _ hs ih =>
    rcases Nat.eq_zero_or_pos (r.stage id) with hzero | hpos
    · rw [stage_created hs hzero hr]
      exact List.mem_append_right _ (List.mem_singleton_self _)
    · exact List.mem_append_left _ (ih hpos)

/-- What has taken a session has taken it for good. -/
theorem taken_of_run {s : Registry} (h : Run step (fun _ _ => True) s es r) (he : e ∈ es)
    (htakes : e.takes id = true) : 2 ≤ r.stage id := by
  obtain ⟨before, after, rfl⟩ := List.append_of_mem he
  obtain ⟨u, -, hrest⟩ := h.split
  obtain ⟨v, -, hs, hafter⟩ := hrest.cons_inv
  exact (stage_takes id hs htakes).trans (hafter.rank_le fun _ _ _ => stage_le id)

/-- In a run of the registry a claim comes after the creation of its session, and before all else
that takes the session. -/
theorem claimed_of_run {before after : List SessionEvent}
    (h : Run step (fun _ _ => True) .empty (before ++ .claimed id :: after) r) :
    .created id ∈ before ∧ (∀ e ∈ before, e.takes id = false) ∧ .claimed id ∉ after := by
  obtain ⟨u, hbefore, hrest⟩ := h.split
  obtain ⟨v, -, hclaim, hafter⟩ := hrest.cons_inv
  have hfree := stage_claimed hclaim
  refine ⟨created_of_run hbefore (by omega), fun e he => ?_, fun hagain => ?_⟩
  · cases htakes : e.takes id with
    | false => rfl
    | true =>
      have htaken := taken_of_run hbefore he htakes
      omega
  · obtain ⟨between, later, rfl⟩ := List.append_of_mem hagain
    obtain ⟨w, hbetween, hlast⟩ := hafter.split
    obtain ⟨_, -, hclaim', -⟩ := hlast.cons_inv
    have htaken := stage_takes id hclaim (by simp [SessionEvent.takes])
    have hle := hbetween.rank_le fun _ _ _ => stage_le id
    have hfree' := stage_claimed hclaim'
    omega

/-- A run of the registry claims a session once at most. -/
theorem count_claimed_le_one (h : Run step (fun _ _ => True) .empty es r) (id : Uuid) :
    es.count (.claimed id) ≤ 1 := by
  by_cases hmem : .claimed id ∈ es
  · obtain ⟨before, after, rfl⟩ := List.append_of_mem hmem
    obtain ⟨-, hbefore, hafter⟩ := claimed_of_run h
    have hnot : .claimed id ∉ before := fun he => by simpa [SessionEvent.takes] using hbefore _ he
    rw [List.count_append, List.count_cons_self, List.count_eq_zero_of_not_mem hnot,
      List.count_eq_zero_of_not_mem hafter]
  · rw [List.count_eq_zero_of_not_mem hmem]
    exact Nat.zero_le 1

end Registry

/-! ## What the calls are told -/

namespace Task

/-- The entry that a listing adds to those it holds. -/
def picked (held held' : List Uuid) : Option SessionEvent :=
  if held.length < held'.length then held'.getLast?.map .found else none

/-- What a task has been told by a step, or has done with a session: where it goes on says so. -/
def decides : Task → Task → Option SessionEvent
  | .creating _ _ (.recorded ..), .creating _ _ (.inserted id) => some (.created id)
  | .connecting id .lookup, .connecting _ .found => some (.found id)
  | .connecting id .lookup, .done => some (.missing id)
  | .connecting id .found, .connecting _ .claimed => some (.claimed id)
  | .connecting id .found, .connecting _ .rejected => some (.rejected id)
  | .responding id .looking, .responding _ .informing => some (.found id)
  | .responding id .looking, .responding _ .answering => some (.missing id)
  | .marking _ _ id, .touching _ _ => some (.marked id)
  | .terminating _ id _ .removing, .terminating _ _ _ .killing => some (.removed id)
  | .terminating _ id _ .removing, .terminating _ _ _ .leaving => some (.missing id)
  | .terminating _ id _ .killing, .terminating _ _ _ .reasoning => some (.killed id)
  | .terminating _ id _ .dying, .terminating _ _ _ .ended => some (.died id)
  | .passing (.collecting held), .passing (.collecting held') => picked held held'
  | .reading held, .reading held' => picked held held'
  | _, _ => none

/-- What a call of the pool returns by a step, if it does, by what its caller goes on with:
`create_session` a handle, `connect_session` a handle or one of its errors, `get_session` an entry
or none, `mark_in_use`, and `terminate_session` true or false. -/
def returns : Task → Task → Option SessionEvent
  | .creating .., .responding id _ => some (.created id)
  | .creating .., .upgrading _ id => some (.created id)
  | .creating .., .marking _ _ id => some (.created id)
  | .connecting .., .upgrading _ id => some (.claimed id)
  | .connecting id .lookup, .done => some (.missing id)
  | .connecting id _, .done => some (.rejected id)
  | .responding id .informing, .responding _ .answering => some (.found id)
  | .responding id .looking, .responding _ .answering => some (.missing id)
  | .touching .., .driving _ id => some (.marked id)
  | .terminating _ id _ .removing, .terminating _ _ _ .leaving => some (.missing id)
  | .terminating _ id _ _, .terminating _ _ _ .leaving => some (.died id)
  | _, _ => none

/-- The answer that a call has and has not returned yet. -/
def verdict : Task → Option SessionEvent
  | .creating _ _ (.inserted id) => some (.created id)
  | .connecting id .claimed => some (.claimed id)
  | .connecting id .rejected => some (.rejected id)
  | .responding id .informing => some (.found id)
  | .touching _ id => some (.marked id)
  | .terminating _ id _ .ended => some (.died id)
  | .terminating _ id _ .finishing => some (.died id)
  | _ => none

end Task

namespace State

/-- The task that an action is a step of, before and after it. -/
def turn? (pool : SessionPool) (s : State) : Action → Option (Nat × Task × Task)
  | .task i choice =>
    s.tasks[i]?.bind fun t => (t.perform pool choice).map fun next => (i, t, next.2)
  | _ => none

/-- What a step tells its task. -/
def decided (pool : SessionPool) (s : State) (a : Action) : Option (Nat × SessionEvent) :=
  (s.turn? pool a).bind fun (i, t, t') => (t.decides t').map (i, ·)

/-- What a step returns to the caller of its task. -/
def returned (pool : SessionPool) (s : State) (a : Action) : Option (Nat × SessionEvent) :=
  (s.turn? pool a).bind fun (i, t, t') => (t.returns t').map (i, ·)

end State

/-- What the tasks have been told in a run, in the order of the steps that decide it. -/
def told (pool : SessionPool) (dirs : Finset PathBuf) (as : List Action) :
    List (Nat × SessionEvent) :=
  trace (step pool) (State.decided pool) (.init pool dirs) as

/-- The session that a step of `connect_session` returns to its caller. -/
def State.handed (pool : SessionPool) (s : State) (a : Action) : Option Uuid :=
  match s.returned pool a with
  | some (_, .claimed id) => some id
  | _ => none

/-- The sessions that `connect_session` has returned in a run, one for each return. -/
def handedOut (pool : SessionPool) (dirs : Finset PathBuf) (as : List Action) : List Uuid :=
  trace (step pool) (State.handed pool) (.init pool dirs) as

/-! ## The events of the operations -/

/-- The event of an operation on the memory. -/
def Op.event : Op → Option SessionEvent
  | .insert id _ _ => some (.created id)
  | .cloneEntry id => some (.found id)
  | .notFound id => some (.missing id)
  | .claim id => some (.claimed id)
  | .notConnectable id => some (.rejected id)
  | .markInUse id => some (.marked id)
  | .remove id => some (.removed id)
  | .setKilling id => some (.killed id)
  | .setDead id => some (.died id)
  | _ => none

namespace State

/-- The sessions nobody has claimed, marked or killed. -/
def free (s : State) : Finset Uuid :=
  (Finset.range s.memory.heap.length).filter fun id => s.stateOf id = some .ready

/-- The registry a state stands for. -/
def registry (s : State) : Registry :=
  { created := s.memory.heap.length, live := s.memory.sessions, free := s.free }

variable {s : State} {id : Uuid} {op : Op} {tasks : List Task}

/-- A free session is one whose entry is `Ready`. -/
theorem mem_free : id ∈ s.free ↔ s.stateOf id = some .ready := by
  rw [free, Finset.mem_filter, Finset.mem_range]
  refine ⟨And.right, fun h => ⟨?_, h⟩⟩
  obtain ⟨e, he, -⟩ := Option.map_eq_some_iff.1 h
  exact Memory.lt_of_entryAt he

/-- A session that has an entry and is not free is in another state. -/
theorem not_mem_free (h : s.memory.enabled (.notConnectable id) = true) :
    id < s.memory.heap.length ∧ id ∉ s.free := by
  simp only [Memory.enabled, Option.any_eq_true, decide_eq_true_eq] at h
  obtain ⟨e, he, hstate⟩ := h
  refine ⟨Memory.lt_of_entryAt he, fun hfree => hstate ?_⟩
  rw [mem_free, stateOf, he] at hfree
  exact Option.some.inj hfree

/-- What is free after an operation: what was and is left `Ready`, and a new session. -/
theorem mem_free_effect (he : s.memory.enabled op = true) :
    id ∈ ({ memory := s.memory.effect op, tasks } : State).free ↔
      id ∈ s.free ∧ op.nextState id .ready = .ready ∨
        ∃ stealth b, op = .insert id stealth b := by
  rw [mem_free, mem_free]
  constructor
  · intro h
    rcases stateOf_effect_cases he h with ⟨old, hold, hnext⟩ | ⟨stealth, b, hop, -, -⟩
    · obtain ⟨rfl, -, -⟩ := Op.nextState_ready hnext.symm
      exact .inl ⟨hold, hnext.symm⟩
    · exact .inr ⟨stealth, b, hop⟩
  · rintro (⟨hold, hnext⟩ | ⟨stealth, b, rfl⟩)
    · rw [stateOf_effect_some op tasks hold, hnext]
    · obtain rfl : id = s.memory.heap.length := by simpa [Memory.enabled] using he
      simp [stateOf, Memory.entryAt, Memory.effect, SessionEntry.new]

/-- An operation that overwrites the state of no session and creates none leaves the same ones
free. -/
theorem free_effect (he : s.memory.enabled op = true)
    (hnext : ∀ id, op.nextState id .ready = .ready)
    (hinsert : op.inserts = 0) :
    ({ memory := s.memory.effect op, tasks } : State).free = s.free := by
  ext id
  rw [mem_free_effect he]
  constructor
  · rintro (⟨hfree, -⟩ | ⟨stealth, b, rfl⟩)
    · exact hfree
    · cases hinsert
  · exact fun hfree => .inl ⟨hfree, hnext id⟩

/-- An operation that makes one session anything but `Ready` takes it from the free ones. -/
theorem free_effect_erase (id : Uuid) (he : s.memory.enabled op = true)
    (hinsert : op.inserts = 0) (hnext : ∀ j, op.nextState j .ready = .ready ↔ j ≠ id) :
    ({ memory := s.memory.effect op, tasks } : State).free = s.free.erase id := by
  ext j
  rw [mem_free_effect he, Finset.mem_erase, hnext]
  constructor
  · rintro (⟨hfree, hne⟩ | ⟨stealth, b, rfl⟩)
    · exact ⟨hne, hfree⟩
    · cases hinsert
  · exact fun ⟨hne, hfree⟩ => .inl ⟨hfree, hne⟩

/-- An insertion makes the new session free. -/
theorem free_insert {stealth : Bool} {b : LaunchedBrowser}
    (he : s.memory.enabled (.insert id stealth b) = true) :
    ({ memory := s.memory.effect (.insert id stealth b), tasks } : State).free
      = insert id s.free := by
  ext j
  rw [mem_free_effect he, Finset.mem_insert]
  constructor
  · rintro (⟨hfree, -⟩ | ⟨_, _, hop⟩)
    · exact .inr hfree
    · cases hop
      exact .inl rfl
  · rintro (rfl | hfree)
    · exact .inr ⟨stealth, b, rfl⟩
    · exact .inl ⟨hfree, rfl⟩

end State

/-! ## The refinement -/

namespace Move

variable {t t' : Task} {op : Op} {id : Uuid}

/-- A task that marks a session owns a reference to it. -/
theorem mem_locals_of_mark (move : Move t (.markInUse id) t') : .entry id ∈ t.locals := by
  cases move with
  | mark => exact List.mem_singleton_self _
  | create hq | respond hq | responded hq | shut hq | report hq | pass hq | condemn hq | read hq =>
    cases hq

/-- A task that kills a session owns a reference to it, and has removed it. -/
theorem pending_of_kill (move : Move t (.setKilling id) t') :
    .entry id ∈ t.locals ∧ t.pending id Milestone.killing.rank = 1 := by
  cases move with
  | kill =>
    refine ⟨List.mem_append_left _ (List.mem_append_left _ (List.mem_singleton_self _)), ?_⟩
    simp [Task.pending, Task.stage, TermPc.rank, Milestone.rank]
  | create hq | respond hq | responded hq | shut hq | report hq | pass hq | condemn hq | read hq =>
    cases hq

/-- So does a task that marks a session dead. -/
theorem pending_of_die (move : Move t (.setDead id) t') :
    .entry id ∈ t.locals ∧ t.pending id Milestone.dead.rank = 1 := by
  cases move with
  | die =>
    refine ⟨List.mem_append_left _ (List.mem_append_left _ (List.mem_singleton_self _)), ?_⟩
    simp [Task.pending, Task.stage, TermPc.rank, Milestone.rank]
  | create hq | respond hq | responded hq | shut hq | report hq | pass hq | condemn hq | read hq =>
    cases hq

end Move

/-- A session that a task has removed is not in the map. -/
theorem State.History.not_mem_of_pending {s : State} {i : Nat} {t : Task} {id : Uuid}
    {k : Milestone} (h : s.History) (ht : s.tasks[i]? = some t) (hk : k ≠ .removed)
    (hpending : t.pending id k.rank = 1) : id ∉ s.memory.sessions := by
  apply h.not_mem
  have hle := le_tally (f := Task.pending id k.rank) ht
  have honce := h.once id k hk
  simp only [State.sum] at honce
  omega

namespace State

variable {s : State} {op : Op} {tasks : List Task}

/-- The registry after an operation, from what becomes of the free sessions. -/
theorem registry_effect {free : Finset Uuid}
    (hfree : ({ memory := s.memory.effect op, tasks } : State).free = free) :
    ({ memory := s.memory.effect op, tasks } : State).registry =
      { created := s.memory.heap.length + op.inserts, live := op.sessions s.memory.sessions,
        free } := by
  unfold registry
  rw [hfree, Memory.effect_heap_length, Memory.effect_sessions]

/-- An operation without an event changes no part of the registry. -/
theorem registry_silent (he : s.memory.enabled op = true) (hevent : op.event = none) :
    ({ memory := s.memory.effect op, tasks } : State).registry = s.registry := by
  have hinserts : op.inserts = 0 := by
    cases op with
    | insert => cases hevent
    | _ => rfl
  have hnext : ∀ id, op.nextState id .ready = .ready := by
    intro id
    cases op with
    | claim | markInUse | setKilling | setDead => cases hevent
    | _ => rfl
  have hsessions : op.sessions s.memory.sessions = s.memory.sessions := by
    cases op with
    | insert | remove => cases hevent
    | _ => rfl
  rw [registry_effect (free_effect he hnext hinserts), hinserts, hsessions]
  rfl

/-- **An operation with an event takes the registry the step of that event.** -/
theorem registry_visible {i : Nat} {t t' : Task} {e : SessionEvent} (hrefs : s.Refs)
    (hhist : s.History) (ht : s.tasks[i]? = some t) (move : Move t op t')
    (he : s.memory.enabled op = true) (hevent : op.event = some e) :
    s.registry.step e = some ({ memory := s.memory.effect op, tasks } : State).registry := by
  cases op with
  | insert id stealth b =>
    obtain rfl := Option.some.inj hevent
    have hid : id = s.memory.heap.length := by simpa [Memory.enabled] using he
    rw [registry_effect (free_insert he)]
    exact if_pos hid
  | cloneEntry id =>
    obtain rfl := Option.some.inj hevent
    have hid : id ∈ s.memory.sessions := by simpa [Memory.enabled] using he
    rw [registry_effect (free_effect he (fun _ => rfl) rfl)]
    exact if_pos hid
  | notFound id =>
    obtain rfl := Option.some.inj hevent
    have hid : id ∉ s.memory.sessions := by simpa [Memory.enabled] using he
    rw [registry_effect (free_effect he (fun _ => rfl) rfl)]
    exact if_pos hid
  | claim id =>
    obtain rfl := Option.some.inj hevent
    have hfree := mem_free.2 (stateOf_of_claim he)
    have hlt := Finset.mem_range.1 (Finset.mem_filter.1 hfree).1
    rw [registry_effect (free_effect_erase id he rfl fun j => by simp [Op.nextState, eq_comm])]
    exact if_pos ⟨hlt, hfree⟩
  | notConnectable id =>
    obtain rfl := Option.some.inj hevent
    rw [registry_effect (free_effect he (fun _ => rfl) rfl)]
    exact if_pos (not_mem_free he)
  | markInUse id =>
    obtain rfl := Option.some.inj hevent
    have hlt := hrefs.lt_of_mem ht move.mem_locals_of_mark
    rw [registry_effect (free_effect_erase id he rfl fun j => by simp [Op.nextState, eq_comm])]
    exact if_pos hlt
  | remove id =>
    obtain rfl := Option.some.inj hevent
    have hid : id ∈ s.memory.sessions := by simpa [Memory.enabled] using he
    rw [registry_effect (free_effect he (fun _ => rfl) rfl)]
    exact if_pos hid
  | setKilling id =>
    obtain rfl := Option.some.inj hevent
    obtain ⟨hmem, hpending⟩ := move.pending_of_kill
    have hlt := hrefs.lt_of_mem ht hmem
    have hout := hhist.not_mem_of_pending ht (by decide) hpending
    rw [registry_effect (free_effect_erase id he rfl fun j => by simp [Op.nextState, eq_comm])]
    exact if_pos ⟨hlt, hout⟩
  | setDead id =>
    obtain rfl := Option.some.inj hevent
    obtain ⟨hmem, hpending⟩ := move.pending_of_die
    have hlt := hrefs.lt_of_mem ht hmem
    have hout := hhist.not_mem_of_pending ht (by decide) hpending
    rw [registry_effect (free_effect_erase id he rfl fun j => by simp [Op.nextState, eq_comm])]
    exact if_pos ⟨hlt, hout⟩
  | _ => cases hevent

end State

/-! ## The steps that decide -/

section

variable {pool : SessionPool} {choice : Choice} {op : Op} {t t' : Task} {e : SessionEvent}

/-- A listing that holds an entry more has been given that entry. -/
theorem Task.picked_append (held : List Uuid) (id : Uuid) :
    picked held (held ++ [id]) = some (.found id) := by
  rw [picked, if_pos (by simp), List.getLast?_concat]
  rfl

/-- A pass that looked at an entry has been told nothing of the sessions map. -/
theorem Task.decides_decide {pc pc' : PassPc} (hpc : ∀ held, pc ≠ .collecting held) (id : Uuid)
    (rest : List Uuid) (reason : Option String) :
    (passing pc).decides (decide id rest pc' reason) = none := by
  cases reason with
  | none =>
    cases pc with
    | collecting held => exact absurd rfl (hpc held)
    | _ => rfl
  | some reason => cases pc <;> rfl

/-- A maintenance pass is told what its operation on the memory says. -/
theorem PassStep.decides {options : PoolOptions} {pc : PassPc}
    (step : PassStep options pc choice op t') : (Task.passing pc).decides t' = op.event := by
  cases step with
  | collect => exact Task.picked_append _ _
  | age | idle | sample | probe =>
    exact Task.decides_decide (fun _ h => by cases h) _ _ _
  | _ => rfl

/-- **What a step tells its task is what its operation on the memory says.** -/
theorem TaskStep.decides (step : TaskStep pool t choice op t') : t.decides t' = op.event := by
  cases step with
  | @create caller _ _ _ _ _ step =>
    cases step with
    | count => cases caller <;> rfl
    | _ => rfl
  | respond step => cases step <;> rfl
  | connect step => cases step <;> rfl
  | @terminate caller _ _ _ _ _ _ step =>
    cases step with
    | shut hs => cases hs <;> rfl
    | leave => cases caller <;> rfl
    | _ => rfl
  | pass step => exact step.decides
  | read => exact Task.picked_append _ _
  | drop => exact if_neg (by simp)
  | _ => rfl

/-- What a call has to return, it has just been told or had to return before. -/
theorem TaskStep.verdict (step : TaskStep pool t choice op t') (he : t'.verdict = some e) :
    t.decides t' = some e ∨ t.decides t' = none ∧ t.verdict = some e := by
  cases step with
  | @create caller _ _ _ _ _ step =>
    cases step with
    | insert => exact .inl he
    | count => cases caller <;> cases he
    | _ => cases he
  | respond step =>
    cases step with
    | lookup => exact .inl he
    | _ => cases he
  | connect step =>
    cases step with
    | claim | reject => exact .inl he
    | _ => cases he
  | mark => exact .inl he
  | @terminate caller _ _ _ _ _ _ step =>
    cases step with
    | die => exact .inl he
    | dropEnded => exact .inr ⟨rfl, he⟩
    | leave => cases caller <;> cases he
    | _ => cases he
  | pass step => cases step.move <;> cases he
  | _ => cases he

/-- What a call returns, it has just been told or had to return. -/
theorem TaskStep.returns (step : TaskStep pool t choice op t') (he : t.returns t' = some e) :
    t.decides t' = some e ∨ t.decides t' = none ∧ t.verdict = some e := by
  cases step with
  | @create caller _ _ _ _ _ step =>
    cases step with
    | count => cases caller <;> exact .inr ⟨rfl, he⟩
    | _ => cases he
  | respond step =>
    cases step with
    | inform => exact .inr ⟨rfl, he⟩
    | notFound => exact .inl he
    | _ => cases he
  | connect step =>
    cases step with
    | notFound => exact .inl he
    | touch | leave => exact .inr ⟨rfl, he⟩
    | _ => cases he
  | touch => exact .inr ⟨rfl, he⟩
  | @terminate caller _ _ _ _ _ _ step =>
    cases step with
    | missed => exact .inl he
    | finish => exact .inr ⟨rfl, he⟩
    | leave => cases caller <;> cases he
    | _ => cases he
  | pass step => cases step.move <;> cases he
  | _ => cases he

end

/-! ## The refinement -/

section

variable {pool : SessionPool} {dirs : Finset PathBuf} {P : State → Action → Prop} {s s' : State}
  {as : List Action} {a : Action} {i : Nat} {e : SessionEvent}

namespace State

variable {t t' : Task} {choice : Choice} {op : Op}

/-- What a step of task `i` tells it. -/
theorem decided_task (ht : s.tasks[i]? = some t) (h : t.perform pool choice = some (op, t')) :
    s.decided pool (.task i choice) = (t.decides t').map (i, ·) := by
  simp only [decided, turn?, ht, h, Option.bind_some, Option.map_some]

/-- What a step of task `i` returns. -/
theorem returned_task (ht : s.tasks[i]? = some t) (h : t.perform pool choice = some (op, t')) :
    s.returned pool (.task i choice) = (t.returns t').map (i, ·) := by
  simp only [returned, turn?, ht, h, Option.bind_some, Option.map_some]

end State

/-- The pool refines the registry in the states whose references and history are in order. -/
theorem refines_registry (pool : SessionPool) :
    Refines (step pool) (State.decided pool) (fun r e => Registry.step r e.2)
      (fun s => s.Refs ∧ s.History) State.registry := by
  refine ⟨fun s a s' e hinv hs hdecided => ?_, fun s a s' hinv hs hdecided => ?_⟩
  · obtain ⟨hrefs, hhist⟩ := hinv
    rcases step_cases hs with ⟨i, t, op, t', ht, turn, he, rfl⟩ | ⟨request, rfl, rfl⟩ |
      ⟨c, rfl, -, rfl⟩ | ⟨d, rfl, rfl⟩
    · cases turn with
      | perform h =>
        rw [State.decided_task ht h, (Task.perform_step h).decides] at hdecided
        obtain ⟨event, hevent, rfl⟩ := Option.map_eq_some_iff.1 hdecided
        exact State.registry_visible hrefs hhist ht (Task.perform_move h) he hevent
      | drop => cases hdecided
    · cases hdecided
    · cases hdecided
    · cases hdecided
  · rcases step_cases hs with ⟨i, t, op, t', ht, turn, he, rfl⟩ | ⟨request, rfl, rfl⟩ |
      ⟨c, rfl, -, rfl⟩ | ⟨d, rfl, rfl⟩
    · cases turn with
      | perform h =>
        rw [State.decided_task ht h, (Task.perform_step h).decides] at hdecided
        exact State.registry_silent he (Option.map_eq_none_iff.1 hdecided)
      | drop => exact State.registry_silent he rfl
    · rfl
    · rfl
    · rfl

/-- The references and the history of every reachable state are in order. -/
theorem ordered_of_reach (h : Reach pool dirs P as s) : s.Refs ∧ s.History :=
  ⟨refs_of_reach h, history_of_reach h⟩

/-- What the tasks are told is a run of the registry. -/
theorem told_run (h : Reach pool dirs P as s) :
    Run Registry.step (fun _ _ => True) .empty ((told pool dirs as).map (·.2)) s.registry :=
  ((refines_registry pool).run (fun _ _ => ordered_of_reach) h).map

/-- The last step of a run adds what it tells its task. -/
theorem told_snoc (h : Reach pool dirs P as s) (hs : step pool s a = some s') :
    told pool dirs (as ++ [a]) = told pool dirs as ++ (s.decided pool a).toList :=
  h.trace_snoc hs

/-- 1 if the task has claimed session `id` and not returned it yet. -/
def Task.claimed (id : Uuid) : Task → Nat
  | .connecting j .claimed => if j = id then 1 else 0
  | _ => 0

/-- 1 if the answer is that session `id` is the caller's. -/
def SessionEvent.claims (id : Uuid) (e : Option SessionEvent) : Nat :=
  if e = some (.claimed id) then 1 else 0

/-- A session is returned, or on its way to be, after it has been claimed. -/
theorem TaskStep.claims_le {t t' : Task} {choice : Choice} {op : Op}
    (step : TaskStep pool t choice op t') (id : Uuid) :
    SessionEvent.claims id (t.returns t') + t'.claimed id ≤
      t.claimed id + SessionEvent.claims id (t.decides t') := by
  cases step with
  | @create caller _ _ _ _ _ step =>
    cases step with
    | count => cases caller <;> exact Nat.le_refl _
    | _ => exact Nat.zero_le _
  | respond step => cases step <;> exact Nat.zero_le _
  | connect step =>
    cases step with
    | claim => simp [Task.returns, Task.claimed, Task.decides, SessionEvent.claims]
    | touch => simp [Task.returns, Task.claimed, Task.decides, SessionEvent.claims]
    | _ => exact Nat.zero_le _
  | @terminate caller _ _ _ _ _ _ step =>
    cases step with
    | leave => cases caller <;> exact Nat.zero_le _
    | _ => exact Nat.zero_le _
  | pass step => cases step.move <;> exact Nat.zero_le _
  | _ => exact Nat.zero_le _

/-- What a step of task `i` returns of session `id`. -/
theorem count_handed {t t' : Task} {choice : Choice} {op : Op} (ht : s.tasks[i]? = some t)
    (h : t.perform pool choice = some (op, t')) (id : Uuid) :
    (s.handed pool (.task i choice)).toList.count id = SessionEvent.claims id (t.returns t') := by
  rw [State.handed, State.returned_task ht h]
  cases t.returns t' with
  | none => rfl
  | some e => cases e <;> simp [SessionEvent.claims, List.count_singleton]

/-- What a step of task `i` tells it of session `id`. -/
theorem count_decided {t t' : Task} {choice : Choice} {op : Op} (ht : s.tasks[i]? = some t)
    (h : t.perform pool choice = some (op, t')) (id : Uuid) :
    ((s.decided pool (.task i choice)).toList.map (·.2)).count (.claimed id) =
      SessionEvent.claims id (t.decides t') := by
  rw [State.decided_task ht h]
  cases t.decides t' with
  | none => rfl
  | some e => simp [SessionEvent.claims, List.count_singleton]

/-- A session has been returned by `connect_session`, or is on its way to be, as often as it has
been claimed at most. -/
theorem handed_le (h : Reach pool dirs P as s) (id : Uuid) :
    (handedOut pool dirs as).count id + s.sum (Task.claimed id) ≤
      ((told pool dirs as).map (·.2)).count (.claimed id) := by
  induction h with
  | nil => exact Nat.zero_le _
  | @snoc as s s' a h hp hs ih =>
    have hhanded : handedOut pool dirs (as ++ [a]) =
        handedOut pool dirs as ++ (s.handed pool a).toList := h.trace_snoc hs
    rw [hhanded, told_snoc h hs, List.map_append, List.count_append, List.count_append]
    rcases step_cases hs with ⟨i, t, op, t', ht, turn, -, rfl⟩ | ⟨request, rfl, rfl⟩ |
      ⟨c, rfl, -, rfl⟩ | ⟨d, rfl, rfl⟩
    · have hsum := tally_set (f := Task.claimed id) ht t'
      simp only [State.sum] at ih ⊢
      cases turn with
      | perform hperform =>
        have hle := (Task.perform_step hperform).claims_le id
        rw [count_handed ht hperform, count_decided ht hperform]
        omega
      | drop =>
        have hzero : Task.done.claimed id = 0 := rfl
        simp only [State.handed, State.returned, State.decided, State.turn?]
        simp
        omega
    · have hrequest : request.task.claimed id = 0 := by cases request <;> rfl
      rw [State.sum_arrive hrequest]
      exact ih
    · exact ih
    · exact ih

/-- **A session is handed out once.** In the whole of a run `connect_session` returns a session to
one call at most, on a claim that came after the creation of the session and before any task had
claimed, marked or killed it, and the session is not claimed again. -/
theorem claimed_once (h : Reach pool dirs P as s) :
    (handedOut pool dirs as).Nodup ∧ ∀ id ∈ handedOut pool dirs as, ∃ before after,
      (told pool dirs as).map (·.2) = before ++ .claimed id :: after ∧
        .created id ∈ before ∧ (∀ e ∈ before, e.takes id = false) ∧ .claimed id ∉ after := by
  have hrun := told_run h
  refine ⟨List.nodup_iff_count_le_one.2 fun id => ?_, fun id hid => ?_⟩
  · have hle := handed_le h id
    have honce := Registry.count_claimed_le_one hrun id
    omega
  · have hle := handed_le h id
    have hpos := List.count_pos_iff.2 hid
    have hmem : SessionEvent.claimed id ∈ (told pool dirs as).map (·.2) :=
      List.count_pos_iff.1 (by omega)
    obtain ⟨before, after, heq⟩ := List.append_of_mem hmem
    exact ⟨before, after, heq, Registry.claimed_of_run (heq ▸ hrun)⟩

end

/-- A client connects to a session that was created, up to the last step of its `mark_in_use`. -/
def connectToMarked : List Action := connectToCreated.dropLast

/-- What the tasks are told then. -/
theorem told_connect : told (examplePool 1) ∅ connectToMarked
    = [(0, .created 0), (1, .found 0), (1, .claimed 0), (1, .marked 0)] := by
  decide

/-- And what `connect_session` returns. -/
theorem handedOut_connect : handedOut (examplePool 1) ∅ connectToMarked = [0] := by decide

/-- The second one on that run. -/
theorem claimed_once_connect : [0].Nodup ∧ ∃ before after,
    [SessionEvent.created 0, .found 0, .claimed 0, .marked 0] = before ++ .claimed 0 :: after ∧
      .created 0 ∈ before ∧ (∀ e ∈ before, e.takes 0 = false) ∧ .claimed 0 ∉ after := by
  have hrun : Reach (examplePool 1) ∅ anyAction connectToMarked
      (exampleState 1 connectToMarked) := run_after (by decide)
  obtain ⟨hnodup, honce⟩ := claimed_once hrun
  rw [handedOut_connect] at hnodup honce
  rw [told_connect] at honce
  exact ⟨hnodup, honce 0 (List.mem_singleton_self 0)⟩

end Eiger
