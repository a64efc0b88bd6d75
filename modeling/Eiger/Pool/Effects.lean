import Eiger.Pool.System

/-!
# What an operation does to each part of the memory

One theorem for each part of the memory says what a whole operation makes of it: the sessions
map, the entries, the log of milestones, the counters, the length of the heap. The invariants use
these and never unfold `Memory.effect`. Drop glue reaches only permits, strong counts, children and
directories (`release_frame`), so every other part passes it unchanged.
-/

namespace Eiger

namespace Memory

variable {m m' : Memory} {op : Op} {id : Uuid}

/-! ## Drop glue -/

/-- What the drop of a browser can touch. -/
theorem dropBrowser_frame (m : Memory) (b : LaunchedBrowser) : ∃ children dirs,
    m.dropBrowser b = { m with children, dirs } := by
  unfold dropBrowser dropDir updateChild
  cases b.userDataDir with
  | temporary path => exact ⟨_, _, rfl⟩
  | persistent path => exact ⟨_, _, rfl⟩

/-- What the drop of an entry can touch. -/
theorem dropEntry_frame (m : Memory) (e : SessionEntry) : ∃ permits children dirs,
    m.dropEntry e = { m with permits, children, dirs } := by
  unfold dropEntry
  cases e.browser with
  | none => exact ⟨_, _, _, rfl⟩
  | some b =>
    obtain ⟨children, dirs, h⟩ := m.dropBrowser_frame b
    simp only [h]
    exact ⟨_, _, _, rfl⟩

/-- A reference count is no part of the entry. -/
theorem map_entry_modify (heap : List ArcInner) (id : Uuid) (f : Nat → Nat) :
    (heap.modify id fun a => { a with strong := f a.strong }).map (·.entry)
      = heap.map (·.entry) := by
  apply List.ext_getElem?
  intro j
  simp only [List.getElem?_map, List.getElem?_modify]
  cases heap[j]? with
  | none => rfl
  | some a => by_cases h : id = j <;> simp [h]

/-- What the drop of a reference can touch. No entry is written. -/
theorem dropArc_frame (m : Memory) (id : Uuid) : ∃ permits heap children dirs,
    m.dropArc id = { m with permits, heap, children, dirs } ∧
      heap.map (·.entry) = m.heap.map (·.entry) := by
  unfold dropArc
  split
  · next a _ =>
    have hmap := map_entry_modify m.heap id (· - 1)
    dsimp only
    split
    · obtain ⟨_, _, _, h⟩ := dropEntry_frame
        { m with heap := m.heap.modify id fun a => { a with strong := a.strong - 1 } } a.entry
      exact ⟨_, _, _, _, h, hmap⟩
    · exact ⟨_, _, _, _, rfl, hmap⟩
  · exact ⟨_, _, _, _, rfl, rfl⟩

/-- What the drop of a value can touch. -/
theorem dropLocal_frame (m : Memory) (l : Local) : ∃ permits heap children dirs,
    m.dropLocal l = { m with permits, heap, children, dirs } ∧
      heap.map (·.entry) = m.heap.map (·.entry) := by
  cases l with
  | permit => exact ⟨_, _, _, _, rfl, rfl⟩
  | entry id => exact m.dropArc_frame id
  | child c => exact ⟨_, _, _, _, rfl, rfl⟩
  | dir d =>
    cases d with
    | temporary path => exact ⟨_, _, _, _, rfl, rfl⟩
    | persistent path => exact ⟨_, _, _, _, rfl, rfl⟩
  | browser b =>
    obtain ⟨_, _, h⟩ := m.dropBrowser_frame b
    exact ⟨_, _, _, _, h, rfl⟩

/-- What drop glue can touch: permits, strong counts, children and directories. -/
theorem release_frame (m : Memory) (frame : List Local) : ∃ permits heap children dirs,
    m.release frame = { m with permits, heap, children, dirs } ∧
      heap.map (·.entry) = m.heap.map (·.entry) := by
  induction frame generalizing m with
  | nil => exact ⟨_, _, _, _, rfl, rfl⟩
  | cons l frame ih =>
    obtain ⟨_, _, _, _, h, hmap⟩ := m.dropLocal_frame l
    obtain ⟨_, _, _, _, h', hmap'⟩ := ih (m.dropLocal l)
    rw [h] at h' hmap'
    exact ⟨_, _, _, _, (congrArg (release · frame) h).trans h', hmap'.trans hmap⟩

/-- What the count of a recycle can touch: its counter and the log. -/
theorem countRecycle_frame (m : Memory) (id : Uuid) (reason : String) :
    ∃ recycledTotal history,
      m.effect (.countRecycle id reason) = { m with recycledTotal, history } := by
  rw [effect]
  split
  · exact ⟨_, _, rfl⟩
  · exact ⟨_, _, rfl⟩

end Memory

/-! ## What an operation is to each part -/

namespace Op

/-- The sessions map after an operation. -/
def sessions (ids : Finset Uuid) : Op → Finset Uuid
  | .insert id _ _ => Insert.insert id ids
  | .remove id => ids.erase id
  | _ => ids

/-- The milestone an operation logs. -/
def milestone : Op → Option (Uuid × Milestone)
  | .remove id => some (id, .removed)
  | .setKilling id => some (id, .killing)
  | .setKillReason id _ => some (id, .killReason)
  | .countRecycle id reason => (recycleCounter reason).map fun _ => (id, .recycled)
  | .takeBrowser id _ => some (id, .shutdown)
  | .setDead id => some (id, .dead)
  | .returnTrue id => some (id, .returnedTrue)
  | _ => none

/-- What an operation writes to the entry of session `id`. -/
def rewrite (now : Instant) (id : Uuid) (e : SessionEntry) : Op → SessionEntry
  | .claim j => if j = id then { e with state := .inUse } else e
  | .markInUse j => if j = id then { e with state := .inUse } else e
  | .touch j => if j = id then { e with lastUsedInstant := now } else e
  | .setKilling j => if j = id then { e with state := .killing } else e
  | .setKillReason j reason => if j = id then { e with killReason := some reason } else e
  | .takeBrowser j _ => if j = id then { e with browser := none } else e
  | .setDead j => if j = id then { e with state := .dead } else e
  | .checkHealth j _ due => if j = id ∧ due then { e with lastCdpHealthCheck := now } else e
  | _ => e

/-- The number of entries an operation allocates. -/
def inserts : Op → Nat
  | .insert .. => 1
  | _ => 0

/-- The number of sessions an operation counts as created. -/
def counts : Op → Nat
  | .countCreated => 1
  | _ => 0

end Op

namespace Memory

variable {m : Memory} {id : Uuid} {e : SessionEntry}

/-! ## The sessions map, the log and the counters -/

/-- An operation leaves the sessions map as `Op.sessions` says. -/
@[simp] theorem effect_sessions (m : Memory) (op : Op) :
    (m.effect op).sessions = op.sessions m.sessions := by
  cases op with
  | countRecycle id reason =>
    obtain ⟨_, _, h⟩ := m.countRecycle_frame id reason
    simp only [h, Op.sessions]
  | release frame =>
    obtain ⟨_, _, _, _, h, _⟩ := m.release_frame frame
    simp only [effect_release, h, Op.sessions]
  | _ => rfl

/-- An operation logs the milestone `Op.milestone` says. -/
@[simp] theorem effect_history (m : Memory) (op : Op) :
    (m.effect op).history = op.milestone.toList ++ m.history := by
  cases op with
  | countRecycle id reason =>
    simp only [effect, Op.milestone]
    split
    · next h => simp [h, record]
    · next h => simp [h]
  | release frame =>
    obtain ⟨_, _, _, _, h, _⟩ := m.release_frame frame
    simp only [effect_release, h, Op.milestone, Option.toList_none, List.nil_append]
  | _ => rfl

/-- An operation counts as many created sessions as `Op.counts` says. -/
@[simp] theorem effect_sessionsCreatedTotal (m : Memory) (op : Op) :
    (m.effect op).sessionsCreatedTotal = m.sessionsCreatedTotal + op.counts := by
  cases op with
  | countRecycle id reason =>
    obtain ⟨_, _, h⟩ := m.countRecycle_frame id reason
    simp only [h, Op.counts, Nat.add_zero]
  | release frame =>
    obtain ⟨_, _, _, _, h, _⟩ := m.release_frame frame
    simp only [effect_release, h, Op.counts, Nat.add_zero]
  | _ => rfl

/-- No operation changes the time. -/
@[simp] theorem effect_now (m : Memory) (op : Op) : (m.effect op).now = m.now := by
  cases op with
  | countRecycle id reason =>
    obtain ⟨_, _, h⟩ := m.countRecycle_frame id reason
    rw [h]
  | release frame =>
    obtain ⟨_, _, _, _, h, _⟩ := m.release_frame frame
    rw [effect_release, h]
  | _ => rfl

/-! ## The entries -/

/-- Writing an entry. -/
theorem entryAt_updateEntry (m : Memory) (id j : Uuid) (f : SessionEntry → SessionEntry) :
    (m.updateEntry j f).entryAt id = (m.entryAt id).map fun e => if j = id then f e else e := by
  simp only [entryAt, updateEntry, List.getElem?_modify]
  cases m.heap[id]? with
  | none => rfl
  | some a => by_cases h : j = id <;> simp [h]

/-- Recording a milestone writes no entry. -/
@[simp] theorem entryAt_record (m : Memory) (id j : Uuid) (k : Milestone) :
    (m.record j k).entryAt id = m.entryAt id := rfl

/-- An entry is its part of the entries of the heap. -/
theorem entryAt_eq (m : Memory) (id : Uuid) : m.entryAt id = (m.heap.map (·.entry))[id]? := by
  rw [entryAt, List.getElem?_map]

/-- Drop glue writes no entry. -/
@[simp] theorem entryAt_release (m : Memory) (frame : List Local) (id : Uuid) :
    (m.release frame).entryAt id = m.entryAt id := by
  obtain ⟨_, _, _, _, h, hmap⟩ := m.release_frame frame
  rw [entryAt_eq, entryAt_eq, h, hmap]

/-- An entry's place is within the heap. -/
theorem lt_of_entryAt (h : m.entryAt id = some e) : id < m.heap.length := by
  obtain ⟨a, ha, -⟩ := Option.map_eq_some_iff.1 h
  exact (List.getElem?_eq_some_iff.1 ha).1

/-- Every place of the heap holds an entry. -/
theorem entryAt_of_lt (h : id < m.heap.length) : ∃ e, m.entryAt id = some e := by
  rw [entryAt, List.getElem?_eq_getElem h]
  exact ⟨_, rfl⟩

/-- An operation rewrites an entry that is there as `Op.rewrite` says. -/
theorem effect_entryAt_some (op : Op) (h : m.entryAt id = some e) :
    (m.effect op).entryAt id = some (op.rewrite m.now id e) := by
  cases op with
  | insert j stealth b =>
    have hlt := lt_of_entryAt h
    simp only [effect, entryAt, List.getElem?_append_left hlt]
    exact h
  | cloneEntry j =>
    simp only [effect, entryAt_eq, map_entry_modify m.heap j (· + 1)]
    rw [← entryAt_eq, h]
    rfl
  | countRecycle j reason =>
    obtain ⟨_, _, hframe⟩ := m.countRecycle_frame j reason
    rw [hframe]
    exact h
  | release frame => rw [effect_release, entryAt_release, h]; rfl
  | claim j => rw [effect, entryAt_updateEntry, h]; rfl
  | markInUse j => rw [effect, entryAt_updateEntry, h]; rfl
  | touch j => rw [effect, entryAt_updateEntry, h]; rfl
  | setKilling j => rw [effect, entryAt_record, entryAt_updateEntry, h]; rfl
  | setKillReason j reason => rw [effect, entryAt_record, entryAt_updateEntry, h]; rfl
  | takeBrowser j b => rw [effect, entryAt_record, entryAt_updateEntry, h]; rfl
  | setDead j => rw [effect, entryAt_record, entryAt_updateEntry, h]; rfl
  | checkHealth j since due =>
    rw [effect, entryAt_updateEntry, h]
    cases due <;> simp [Op.rewrite]
  | _ => exact h

/-- The heap only grows, by the entries an operation allocates. -/
@[simp] theorem effect_heap_length (m : Memory) (op : Op) :
    (m.effect op).heap.length = m.heap.length + op.inserts := by
  cases op with
  | countRecycle id reason =>
    obtain ⟨_, _, h⟩ := m.countRecycle_frame id reason
    rw [h]
    rfl
  | release frame =>
    obtain ⟨_, heap, _, _, h, hmap⟩ := m.release_frame frame
    have hlen := congrArg List.length hmap
    rw [List.length_map, List.length_map] at hlen
    rw [effect_release, h]
    exact hlen
  | _ => simp [effect, updateEntry, updateChild, record, Op.inserts]

/-- An entry after an operation is one from before, rewritten, or the one it allocates. -/
theorem effect_entryAt_cases {op : Op} {e' : SessionEntry} (he : m.enabled op = true)
    (h : (m.effect op).entryAt id = some e') :
    (∃ e, m.entryAt id = some e ∧ e' = op.rewrite m.now id e) ∨
    (∃ stealth b, op = .insert id stealth b ∧ e' = .new id stealth m.now b ∧
      id = m.heap.length) := by
  by_cases hlt : id < m.heap.length
  · obtain ⟨e, hid⟩ := entryAt_of_lt hlt
    rw [effect_entryAt_some op hid] at h
    exact .inl ⟨e, hid, (Option.some.inj h).symm⟩
  · have hlen := lt_of_entryAt h
    rw [effect_heap_length] at hlen
    cases op with
    | insert j stealth b =>
      obtain rfl : j = m.heap.length := by simpa [enabled] using he
      obtain rfl : id = m.heap.length :=
        Nat.le_antisymm (Nat.lt_succ_iff.1 hlen) (Nat.not_lt.1 hlt)
      refine .inr ⟨stealth, b, rfl, ?_, rfl⟩
      simpa [effect, entryAt, eq_comm] using h
    | _ => exact absurd hlen hlt

end Memory

/-! ## The states -/

namespace Op

/-- The state an operation leaves session `id` in. -/
def nextState (id : Uuid) (state : SessionState) : Op → SessionState
  | .claim j => if j = id then .inUse else state
  | .markInUse j => if j = id then .inUse else state
  | .setKilling j => if j = id then .killing else state
  | .setDead j => if j = id then .dead else state
  | _ => state

/-- An operation writes the states as `Op.nextState` says. -/
@[simp] theorem rewrite_state (op : Op) (now : Instant) (id : Uuid) (e : SessionEntry) :
    (op.rewrite now id e).state = op.nextState id e.state := by
  cases op with
  | claim j | markInUse j | touch j | setKilling j | setKillReason j | takeBrowser j | setDead j =>
    by_cases hj : j = id <;> simp [rewrite, nextState, hj]
  | checkHealth j since due =>
    by_cases hj : j = id <;> cases due <;> simp [rewrite, nextState, hj]
  | _ => rfl

/-- Only a new session is made ready. -/
theorem nextState_ready {op : Op} {id : Uuid} {state : SessionState}
    (h : op.nextState id state = .ready) :
    state = .ready ∧ op ≠ .claim id ∧ op ≠ .markInUse id := by
  cases op with
  | claim j | markInUse j | setKilling j | setDead j =>
    by_cases hj : j = id <;> simp [nextState, hj] at h ⊢
    exact h
  | _ => exact ⟨h, by simp, by simp⟩

/-- An operation that leaves a session in use found it so, claimed it or marked it. -/
theorem nextState_inUse {op : Op} {id : Uuid} {state : SessionState}
    (h : op.nextState id state = .inUse) :
    state = .inUse ∨ op = .claim id ∨ op = .markInUse id := by
  cases op with
  | claim j | markInUse j | setKilling j | setDead j =>
    by_cases hj : j = id
    · subst hj
      simp [nextState] at h ⊢
    · simp only [nextState, hj, if_false] at h
      exact .inl h
  | _ => exact .inl h

end Op

namespace State

variable {s : State} {id : Uuid} {state : SessionState}

/-- The state of a session that is there, after an operation. -/
theorem stateOf_effect_some (op : Op) (tasks : List Task) (h : s.stateOf id = some state) :
    ({ memory := s.memory.effect op, tasks } : State).stateOf id
      = some (op.nextState id state) := by
  obtain ⟨e, he, rfl⟩ := Option.map_eq_some_iff.1 h
  simp [stateOf, Memory.effect_entryAt_some op he]

/-- A session's state after an operation is one from before, overwritten, or that of a new one. -/
theorem stateOf_effect_cases {op : Op} {tasks : List Task} (he : s.memory.enabled op = true)
    (h : ({ memory := s.memory.effect op, tasks } : State).stateOf id = some state) :
    (∃ old, s.stateOf id = some old ∧ state = op.nextState id old) ∨
    (∃ stealth b, op = .insert id stealth b ∧ state = .ready ∧ id = s.memory.heap.length) := by
  obtain ⟨e', he', rfl⟩ := Option.map_eq_some_iff.1 h
  rcases Memory.effect_entryAt_cases he he' with ⟨e, hid, rfl⟩ | ⟨stealth, b, hop, rfl, hlen⟩
  · exact .inl ⟨e.state, by simp [stateOf, hid], op.rewrite_state _ _ _⟩
  · exact .inr ⟨stealth, b, hop, rfl, hlen⟩

/-- `connect_session` claims only what is ready. -/
theorem stateOf_of_claim (h : s.memory.enabled (.claim id) = true) :
    s.stateOf id = some .ready := by
  simpa [Memory.enabled, stateOf, Option.any_eq_true] using h

end State

end Eiger
