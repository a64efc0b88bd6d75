import Eiger.Pool.Drops
import Eiger.Pool.Moves

/-!
# Capacity

`max_concurrent_sessions` permits are out at any time: each is in the semaphore, with a
`create_session` call, or in an entry that something still refers to (`capacity`). So the sessions
in the map and the available capacity never exceed the maximum together, on any path: after
errors, timeouts and dropped futures too.

What refers to an entry is not only the map, a `SessionHandle` and a running shutdown: a
maintenance pass and the readers hold clones of it as well, and a removed entry keeps its permit
as long as they do (`handles_are_not_all`).
-/

namespace Eiger

open Transition Tally

/-- The permits a `create_session` call in progress holds. -/
def Task.createPermits : Task → Nat
  | .creating _ _ pc => (createLocals pc).countP Local.isPermit
  | _ => 0

namespace State

/-- The permits that `create_session` calls in progress hold. -/
def createPermits (s : State) : Nat := s.sum Task.createPermits

/-- The session entries that are still referenced, by the map or by a value a task owns. -/
def referenced (s : State) : Finset Uuid :=
  (Finset.range s.memory.heap.length).filter fun id =>
    id ∈ s.memory.sessions ∨ ∃ t ∈ s.tasks, .entry id ∈ t.locals

end State

/-! ## Where permits are -/

/-- The references in a list hold nothing of their own. -/
theorem countP_entries {p : Local → Bool} (hp : Local.Plain p) (ids : List Uuid) :
    (ids.map Local.entry).countP p = 0 := by
  rw [List.countP_map]
  exact List.countP_eq_zero.2 fun id _ => by simp [hp id]

/-- Only `create_session` calls hold permits outside of entries. -/
theorem Task.permits_eq (t : Task) : t.locals.countP Local.isPermit = t.createPermits := by
  cases t with
  | creating caller overrides pc => rfl
  | responding id pc => cases pc <;> rfl
  | connecting id pc => cases pc <;> rfl
  | terminating caller id reason pc =>
    have hpc : (termLocals id pc).countP Local.isPermit = 0 := by cases pc <;> rfl
    have hcaller : (callerFrame id caller).countP Local.isPermit = 0 := by cases caller <;> rfl
    simp only [locals, List.countP_append, hpc, hcaller, countP_entries Local.plain_isPermit,
      createPermits]
  | passing pc => exact countP_entries Local.plain_isPermit _
  | reading held => exact countP_entries Local.plain_isPermit _
  | _ => rfl

/-- An entry holds one permit. -/
theorem SessionEntry.contents_permit (e : SessionEntry) :
    e.contents.countP Local.isPermit = 1 := by
  unfold contents
  cases e.browser <;> rfl

/-- The permits in entries are as many as the entries with a reference. -/
theorem held_isPermit (m : Memory) :
    held m.heap Local.isPermit
      = ((Finset.range m.heap.length).filter fun id => 0 < m.strong id).card := by
  unfold held Memory.strong
  simp only [SessionEntry.contents_permit]
  induction m.heap using List.reverseRecOn with
  | nil => rfl
  | append_singleton heap a ih =>
    rw [tally_append, ih, List.length_append, List.length_singleton, Finset.range_add_one,
      Finset.filter_insert]
    have hlow : (Finset.range heap.length).filter
          (fun id => 0 < ((heap ++ [a])[id]?.map (·.strong)).getD 0)
        = (Finset.range heap.length).filter fun id => 0 < (heap[id]?.map (·.strong)).getD 0 := by
      refine Finset.filter_congr fun id hid => ?_
      rw [List.getElem?_append_left (Finset.mem_range.1 hid)]
    rw [hlow]
    by_cases ha : 0 < a.strong
    · rw [if_pos (by simpa using ha), Finset.card_insert_of_notMem (by simp)]
      simp [ha]
    · rw [if_neg (by simpa using ha)]
      simp [ha]

/-! ## The invariant -/

/-- An operation that needs an entry with a reference has one. -/
theorem Turn.target_live {pool : SessionPool} {s : State} {i : Nat} {t t' : Task} {a : Action}
    {op : Op} (h : s.Refs) (ht : s.tasks[i]? = some t) (turn : Turn pool i t a op t')
    (he : s.memory.enabled op = true) {id : Uuid} (hid : op.target = some id) :
    0 < s.memory.strong id := by
  cases op with
  | cloneEntry j =>
    obtain rfl : j = id := Option.some.inj hid
    have hmem : j ∈ s.memory.sessions := by simpa [Memory.enabled] using he
    have hle := h.mapCounted j
    rw [mapRefs_of_mem hmem] at hle
    exact hle
  | takeBrowser j b =>
    obtain rfl : j = id := Option.some.inj hid
    cases turn with
    | perform hp =>
      cases Task.perform_move hp with
      | take =>
        refine Nat.lt_of_lt_of_le ?_ (h.le_strong ht j)
        exact List.countP_pos_iff.2 ⟨.entry j, by simp [Task.locals, Task.termLocals],
          by simp [Local.isRef]⟩
      | create hq | respond hq | responded hq | shut hq | report hq | pass hq | condemn hq
      | read hq => cases hq
  | _ => cases hid

/-- The permits in the semaphore, in entries and with tasks. -/
def State.allPermits (s : State) : Nat :=
  s.memory.permits + held s.memory.heap Local.isPermit
    + s.sum fun t => t.locals.countP Local.isPermit

section

variable {pool : SessionPool} {dirs : Finset PathBuf} {P : State → Action → Prop} {s s' : State}
  {a : Action} {as : List Action}

/-- No action makes or loses a permit. -/
theorem allPermits_step (h : s.Refs) (hs : step pool s a = some s') :
    s'.allPermits = s.allPermits := by
  rcases step_cases hs with ⟨i, t, op, t', ht, turn, he, rfl⟩ | ⟨request, rfl, rfl⟩ |
    ⟨c, rfl, -, rfl⟩ | ⟨d, rfl, rfl⟩
  · have hsum := tally_set (f := fun t : Task => t.locals.countP Local.isPermit) ht t'
    have hb := turn.conserves Local.isPermit
    have hm := Memory.effect_permits he fun _ hid => turn.target_live h ht he hid
    simp only [State.allPermits, State.sum]
    omega
  · simp [State.allPermits, State.sum, request.task_locals]
  · rfl
  · rfl

/-- Every permit is accounted for. -/
theorem allPermits_of_reach (h : Reach pool dirs P as s) :
    s.allPermits = pool.options.maxConcurrentSessions := by
  refine h.preserves_of (I := fun s => s.allPermits = pool.options.maxConcurrentSessions)
    (J := State.Refs) (fun _ _ h => refs_of_reach h) ?_ rfl
  intro s a s' hrefs _ hmax _ hs
  exact (allPermits_step hrefs hs).trans hmax

/-- An entry has a reference when something refers to it. -/
theorem State.Refs.strong_pos (h : s.Refs) (id : Uuid) :
    0 < s.memory.strong id ↔ id ∈ s.memory.sessions ∨ ∃ t ∈ s.tasks, .entry id ∈ t.locals := by
  rw [h id]
  constructor
  · intro hpos
    by_cases hmem : id ∈ s.memory.sessions
    · exact .inl hmem
    · rw [mapRefs_of_not_mem hmem, Nat.zero_add] at hpos
      obtain ⟨i, t, ht, href⟩ := tally_pos.1 hpos
      obtain ⟨l, hl, hid⟩ := List.countP_pos_iff.1 href
      cases l with
      | entry j =>
        obtain rfl : j = id := by simpa [Local.isRef] using hid
        exact .inr ⟨t, List.mem_of_getElem? ht, hl⟩
      | _ => cases hid
  · rintro (hmem | ⟨t, ht, hl⟩)
    · rw [mapRefs_of_mem hmem]
      exact Nat.lt_add_right _ Nat.one_pos
    · obtain ⟨i, hi⟩ := List.mem_iff_getElem?.1 ht
      refine Nat.lt_add_left _ (tally_pos.2 ⟨i, t, hi, ?_⟩)
      exact List.countP_pos_iff.2 ⟨_, hl, by simp [Local.isRef]⟩

/-- The entries with a reference hold as many permits as there are. -/
theorem State.Refs.held_isPermit (h : s.Refs) :
    held s.memory.heap Local.isPermit = s.referenced.card := by
  rw [Eiger.held_isPermit]
  exact congrArg Finset.card (Finset.filter_congr fun id _ => h.strong_pos id)

/-- **Capacity accounting.** In every reachable state the available permits, the permits of
`create_session` calls in progress and the entries still referenced make up the maximum, so that
the sessions in the map and the available capacity never exceed it. -/
theorem capacity (h : Reach pool dirs anyAction as s) :
    s.memory.permits + s.createPermits + s.referenced.card
        = pool.options.maxConcurrentSessions ∧
      s.memory.sessions.card + s.memory.permits ≤ pool.options.maxConcurrentSessions := by
  have hrefs := refs_of_reach h
  have hall := allPermits_of_reach h
  have hcreate : (s.sum fun t => t.locals.countP Local.isPermit) = s.createPermits := by
    simp only [Task.permits_eq, State.createPermits]
  have hsub : s.memory.sessions ⊆ s.referenced := fun id hid =>
    Finset.mem_filter.2 ⟨Finset.mem_range.2 (hrefs.mapCounted.lt hid), .inl hid⟩
  have hcard := Finset.card_le_card hsub
  rw [State.allPermits, hrefs.held_isPermit, hcreate] at hall
  omega

/-- A session is created in a pool with one place. -/
def createOne : List Action :=
  .arrive (.create .rest .default) :: insertActions 0 0 "/tmp/eiger-chrome-a" 0

/-- The equation after that: the session is in the map, and nothing else is referenced. -/
theorem capacity_of_one :
    (exampleState 1 createOne).memory.permits + (exampleState 1 createOne).createPermits
        + (exampleState 1 createOne).referenced.card = 1 ∧
      (exampleState 1 createOne).memory.sessions.card
        + (exampleState 1 createOne).memory.permits ≤ 1 := by
  have hrun : Reach (examplePool 1) ∅ anyAction createOne (exampleState 1 createOne) :=
    run_after (by decide)
  exact capacity hrun

end

/-! ## Maps, handles and shutdowns are not all -/

/-- The entries that a task shuts down. -/
def TermPc.shutsDown (id : Uuid) : TermPc → List Uuid
  | .removing => []
  | .finishing => []
  | .leaving => []
  | _ => [id]

/-- The entries that a task refers to by a `SessionHandle`, or shuts down. -/
def Task.handles : Task → List Uuid
  | .creating _ _ (.inserted id) => [id]
  | .responding id _ => [id]
  | .upgrading _ id => [id]
  | .marking _ _ id => [id]
  | .touching _ id => [id]
  | .driving _ id => [id]
  | .terminating .proxy id _ pc => id :: pc.shutsDown id
  | .terminating _ id _ pc => pc.shutsDown id
  | _ => []

/-- The session entries referenced by the map, by a `SessionHandle` or by a running shutdown. -/
def State.handled (s : State) : Finset Uuid :=
  (Finset.range s.memory.heap.length).filter fun id =>
    id ∈ s.memory.sessions ∨ ∃ t ∈ s.tasks, id ∈ t.handles

/-- A session is deleted while a maintenance pass holds its clone of the entry. -/
def deleteDuringPass : List Action :=
  .arrive (.create .postSession .default) :: insertActions 0 0 "/tmp/eiger-chrome-a" 0 ++
    [.task 0 .go, .task 0 .go, .task 0 .go, .task 0 .go,
     .arrive .maintenance, .task 1 (.session 0), .task 1 .go, .arrive (.delete 0)] ++
    terminateActions 2 (exampleBrowser 0 "/tmp/eiger-chrome-a")

/-- The clones of maintenance and of readers count too: after the deletion neither the map nor a
handle nor a shutdown refers to the entry, and its permit is not back. -/
theorem handles_are_not_all :
    ¬ ∀ (pool : SessionPool) (dirs : Finset PathBuf) (as : List Action) (s : State),
      Reach pool dirs anyAction as s →
        s.memory.permits + s.createPermits + s.handled.card
          = pool.options.maxConcurrentSessions := by
  intro h
  have hrun := h (examplePool 1) ∅ deleteDuringPass _ (run_after (by decide))
  revert hrun
  decide

end Eiger
