import Eiger.Pool.Moves

/-!
# Who owns a session

A session has an owner when a `proxy_and_recycle` task or a REST operation drives it. Two paths
lead there. `connect_session` claims a session, `Ready` to `InUse` under one write lock; the task
that created a session marks it with `mark_in_use`, which does not look at the state. Between its
insertion and that mark the session is listed as ready.

* `one_driver`: at most one task drives a session, in every run that claims no session its creator
  has still to mark (`claimsMarked`). `two_drivers` is a run that does.
* `inUse_owned`: a session that is in use and in the map has an owner, which ends in its
  `terminate_session`, in every run that neither drops an owner nor fails the upgrade of one that
  claimed its session (`keepsOwners`). `inUse_abandoned` is a run that drops one.
-/

namespace Eiger

open Transition Tally

namespace Task

/-- 1 if the task created session `id` to drive it and has not marked it yet. -/
def fresh (id : Uuid) : Task → Nat
  | .creating caller _ (.inserted j) => if j = id ∧ caller ≠ .postSession then 1 else 0
  | .upgrading .created j => if j = id then 1 else 0
  | .marking _ .created j => if j = id then 1 else 0
  | _ => 0

/-- 1 if the task has session `id` to drive: it created, claimed or marked it. -/
def claims (id : Uuid) : Task → Nat
  | .creating caller _ (.inserted j) => if j = id ∧ caller ≠ .postSession then 1 else 0
  | .connecting j .claimed => if j = id then 1 else 0
  | .upgrading _ j => if j = id then 1 else 0
  | .marking _ _ j => if j = id then 1 else 0
  | .touching _ j => if j = id then 1 else 0
  | .driving _ j => if j = id then 1 else 0
  | _ => 0

/-- 1 if the task drives session `id`: its `proxy_and_recycle` or its REST operation has marked
the session and not ended. -/
def drives (id : Uuid) : Task → Nat
  | .touching _ j => if j = id then 1 else 0
  | .driving _ j => if j = id then 1 else 0
  | _ => 0

/-- The session in use that the task owns: it has claimed or marked it, and is on its way to the
`terminate_session` that ends its use. -/
def owned : Task → Option Uuid
  | .connecting id .claimed => some id
  | .upgrading .connected id => some id
  | .marking _ .connected id => some id
  | .touching _ id => some id
  | .driving _ id => some id
  | .terminating .proxy id _ .removing => some id
  | .terminating .rest id _ .removing => some id
  | _ => none

/-- Whether the task awaits the upgrade of a client that claimed its session. -/
def awaitsClaimed : Task → Bool
  | .upgrading .connected _ => true
  | _ => false

/-- 1 if the task owns session `id`. -/
def owns (id : Uuid) (t : Task) : Nat := if t.owned = some id then 1 else 0

variable {t : Task} {id : Uuid}

/-- A creator that has not marked its session has it to drive. -/
theorem fresh_le_claims (id : Uuid) (t : Task) : t.fresh id ≤ t.claims id := by
  unfold fresh
  split
  · exact Nat.le_refl _
  · exact Nat.le_refl _
  · exact Nat.le_refl _
  · exact Nat.zero_le _

/-- Who drives a session has it to drive. -/
theorem drives_le_claims (id : Uuid) (t : Task) : t.drives id ≤ t.claims id := by
  unfold drives
  split
  · exact Nat.le_refl _
  · exact Nat.le_refl _
  · exact Nat.zero_le _

/-- Who has a session to drive refers to its entry. -/
theorem claims_le_refs (id : Uuid) (t : Task) : t.claims id ≤ t.refs id := by
  unfold claims refs
  split
  · simp [locals, createLocals, Local.isRef]
    split <;> split <;> simp_all
  · simp [locals, connectLocals, Local.isRef, List.countP_cons]
  · simp [locals, Local.isRef, List.countP_cons]
  · simp [locals, Local.isRef, List.countP_cons]
  · simp [locals, Local.isRef, List.countP_cons]
  · simp [locals, Local.isRef, List.countP_cons]
  · exact Nat.zero_le _

end Task

/-! ## Who gets a session to drive -/

section

variable {caller : Caller} {overrides : SessionOverrides} {pc : CreatePc} {id : Uuid}

/-- A `create_session` call that has not inserted has no session to drive. -/
theorem Task.claims_creating (h : pc.hasInserted = false) :
    (Task.creating caller overrides pc).claims id = 0 := by
  cases pc <;> first | rfl | cases h

/-- Nor one to mark. -/
theorem Task.fresh_creating (h : pc.hasInserted = false) :
    (Task.creating caller overrides pc).fresh id = 0 := by
  cases pc <;> first | rfl | cases h

end

namespace Move

variable {t t' : Task} {op : Op}

/-- A task gets a session to drive by creating it or by claiming it. -/
theorem claims_le (move : Move t op t') (id : Uuid) (hclaim : op ≠ .claim id)
    (hinsert : ∀ stealth b, op ≠ .insert id stealth b) : t'.claims id ≤ t.claims id := by
  cases move with
  | create hq h h' => rw [Task.claims_creating h']; exact Nat.zero_le _
  | @insert caller overrides options b j =>
    have hj : j ≠ id := fun h => hinsert options.stealth.enabled b (by rw [h])
    simp [Task.claims, hj]
  | @claim j =>
    have hj : j ≠ id := fun h => hclaim (h ▸ rfl)
    simp [Task.claims, hj]
  | @count caller overrides j => cases caller <;> simp [Task.claims, Task.created]
  | @leave caller => cases caller <;> exact Nat.zero_le _
  | connected | upgraded | mark | touch => exact Nat.le_refl _
  | _ => exact Nat.zero_le _

/-- But for a claim and a mark, who has a session to drive unmarked goes on so. -/
theorem claims_fresh (move : Move t op t') (id : Uuid) (hclaim : op ≠ .claim id)
    (hmark : op ≠ .markInUse id) :
    t'.claims id + t.fresh id ≤ t.claims id + t'.fresh id := by
  cases move with
  | create hq h h' =>
    rw [Task.claims_creating h', Task.fresh_creating h]
    exact Nat.zero_le _
  | insert => simp [Task.claims, Task.fresh]
  | @count caller overrides j =>
    cases caller <;> simp [Task.claims, Task.fresh, Task.created]
  | @claim j =>
    have hj : j ≠ id := fun h => hclaim (h ▸ rfl)
    simp [Task.claims, Task.fresh, hj]
  | @mark owner origin j =>
    have hj : j ≠ id := fun h => hmark (h ▸ rfl)
    simp [Task.claims, Task.fresh, hj]
    cases origin <;> simp [hj]
  | @upgraded origin j => cases origin <;> exact Nat.le_refl _
  | @refused origin j => cases origin <;> simp [Task.claims, Task.fresh]
  | @leave caller => cases caller <;> exact Nat.le_refl _
  | _ => simp [Task.claims, Task.fresh]

/-- An owner goes on as one, unless it removes its session or finds it gone, or the upgrade of a
claimed session fails. -/
theorem owned_or (move : Move t op t') {id : Uuid} (h : t.owned = some id) :
    t'.owned = some id ∨ op = .remove id ∨ op = .notFound id ∨
      (t = .upgrading .connected id ∧ op = .release [.entry id]) := by
  cases move with
  | @connected j | @touch owner j =>
    obtain rfl : j = id := Option.some.inj h
    exact .inl rfl
  | @upgraded origin j | @mark _ origin j =>
    cases origin with
    | created => cases h
    | connected =>
      obtain rfl : j = id := Option.some.inj h
      exact .inl rfl
  | @refused origin j =>
    cases origin with
    | created => cases h
    | connected =>
      obtain rfl : j = id := Option.some.inj h
      exact .inr (.inr (.inr ⟨rfl, rfl⟩))
  | @disconnect j | @complete j =>
    obtain rfl : j = id := Option.some.inj h
    exact .inl rfl
  | @remove caller j =>
    have hj : j = id := by cases caller <;> first | exact Option.some.inj h | cases h
    exact .inr (.inl (hj ▸ rfl))
  | @missed caller j =>
    have hj : j = id := by cases caller <;> first | exact Option.some.inj h | cases h
    exact .inr (.inr (.inl (hj ▸ rfl)))
  | @kill caller | @giveReason caller | @countRecycle caller | @take caller | @noBrowser caller
  | @shut caller | @dropShut caller | @report caller | @die caller | @dropEnded caller
  | @finish caller | @leave caller => cases caller <;> cases h
  | _ => cases h

/-- Who claims or marks a session owns it. -/
theorem owned_of_claim (move : Move t op t') {id : Uuid} (h : op = .claim id ∨ op = .markInUse id) :
    t'.owned = some id := by
  cases move with
  | claim =>
    rcases h with h | h
    · exact congrArg some (Op.claim.inj h)
    · cases h
  | mark =>
    rcases h with h | h
    · cases h
    · exact congrArg some (Op.markInUse.inj h)
  | create hq | respond hq | responded hq | shut hq | report hq | pass hq | condemn hq
  | read hq => rcases h with rfl | rfl <;> cases hq
  | _ => rcases h with h | h <;> cases h

end Move

/-! ## One driver -/

/-- The guard that `connect_session` claims no session whose creator has still to mark it. -/
def claimsMarked (pool : SessionPool) (s : State) (a : Action) : Bool :=
  match s.op? pool a with
  | some (.claim id) => s.sum (Task.fresh id) = 0
  | _ => true

/-- At most one task has a session to drive, and while the session is ready only its creator
has. -/
structure State.Exclusive (s : State) : Prop where
  one : ∀ id, s.sum (Task.claims id) ≤ 1
  ready : ∀ id, s.stateOf id = some .ready → s.sum (Task.claims id) ≤ s.sum (Task.fresh id)

/-- A session that has not been allocated is nobody's to drive. -/
theorem State.Refs.claims_new {s : State} (h : s.Refs) :
    s.sum (Task.claims s.memory.heap.length) = 0 := by
  have hstrong : s.memory.strong s.memory.heap.length = 0 := by
    by_contra hne
    exact Nat.lt_irrefl _ (Memory.lt_of_strong (Nat.pos_of_ne_zero hne))
  have hrefs := h s.memory.heap.length
  have hle : s.sum (Task.claims s.memory.heap.length) ≤ s.sum (Task.refs s.memory.heap.length) :=
    tally_le_tally fun t _ => t.claims_le_refs _
  omega

section

variable {pool : SessionPool} {dirs : Finset PathBuf} {P : State → Action → Prop} {s s' : State}
  {i : Nat} {t t' : Task} {a : Action} {as as' : List Action} {op : Op} {id : Uuid}

/-- A turn gives a session to drive only by an insertion or a claim. -/
theorem Turn.claims_le (turn : Turn pool i t a op t') (id : Uuid) (hclaim : op ≠ .claim id)
    (hinsert : ∀ stealth b, op ≠ .insert id stealth b) : t'.claims id ≤ t.claims id := by
  cases turn with
  | perform h => exact (Task.perform_move h).claims_le id hclaim hinsert
  | drop => exact Nat.zero_le _

/-- But for a claim and a mark, a turn leaves no more tasks with a marked session. -/
theorem Turn.claims_fresh (turn : Turn pool i t a op t') (id : Uuid) (hclaim : op ≠ .claim id)
    (hmark : op ≠ .markInUse id) :
    t'.claims id + t.fresh id ≤ t.claims id + t'.fresh id := by
  cases turn with
  | perform h => exact (Task.perform_move h).claims_fresh id hclaim hmark
  | drop => simpa [Task.claims, Task.fresh] using t.fresh_le_claims id

/-- A task has a session to drive once. -/
theorem Task.claims_le_one (id : Uuid) (t : Task) : t.claims id ≤ 1 := by
  unfold claims
  split <;> first | exact Nat.zero_le _ | (split <;> decide)

/-- Every action that claims no unmarked session keeps the sessions exclusive. -/
theorem exclusive_step (hrefs : s.Refs) (h : s.Exclusive) (hp : claimsMarked pool s a = true)
    (hs : step pool s a = some s') : s'.Exclusive := by
  rcases step_cases hs with ⟨i, t, op, t', ht, turn, he, rfl⟩ | ⟨request, rfl, rfl⟩ |
    ⟨c, rfl, -, rfl⟩ | ⟨d, rfl, rfl⟩
  · refine ⟨fun id => ?_, fun id hready => ?_⟩
    · have hsum := tally_set (f := Task.claims id) ht t'
      have hone := h.one id
      simp only [State.sum] at hone ⊢
      by_cases hclaim : op = .claim id
      · -- the guard leaves no creator, and while the session is ready there is nobody else
        subst hclaim
        have hready := h.ready id (State.stateOf_of_claim he)
        rw [claimsMarked, turn.op_eq ht (fun _ h => by cases h)] at hp
        have hfresh : s.sum (Task.fresh id) = 0 := by simpa using hp
        have := t'.claims_le_one id
        simp only [State.sum] at hready hfresh
        omega
      · by_cases hinsert : ∃ stealth b, op = .insert id stealth b
        · obtain ⟨stealth, b, rfl⟩ := hinsert
          obtain rfl : id = s.memory.heap.length := by simpa [Memory.enabled] using he
          have hnew := hrefs.claims_new
          have := t'.claims_le_one s.memory.heap.length
          simp only [State.sum] at hnew
          omega
        · have := turn.claims_le id hclaim fun stealth b h => hinsert ⟨stealth, b, h⟩
          omega
    · have hsum := tally_set (f := Task.claims id) ht t'
      have hsum' := tally_set (f := Task.fresh id) ht t'
      rcases State.stateOf_effect_cases he hready with ⟨old, hold, hnext⟩ | ⟨_, _, rfl, -, hlen⟩
      · obtain ⟨rfl, hclaim, hmark⟩ := Op.nextState_ready hnext.symm
        have hturn := turn.claims_fresh id hclaim hmark
        have hbefore := h.ready id hold
        simp only [State.sum] at hbefore ⊢
        omega
      · have hturn := turn.claims_fresh id (fun h => by cases h) (fun h => by cases h)
        have hnew := hrefs.claims_new
        rw [← hlen] at hnew
        simp only [State.sum] at hnew ⊢
        omega
  · have hclaims : ∀ id, request.task.claims id = 0 := fun id => by cases request <;> rfl
    have hfresh : ∀ id, request.task.fresh id = 0 := fun id => by cases request <;> rfl
    refine ⟨fun id => ?_, fun id hready => ?_⟩
    · rw [State.sum_arrive (hclaims id)]
      exact h.one id
    · rw [State.sum_arrive (hclaims id), State.sum_arrive (hfresh id)]
      exact h.ready id hready
  · exact ⟨h.one, h.ready⟩
  · exact ⟨h.one, h.ready⟩

/-- **One driver.** In every run that claims no session its creator has still to mark, at most one
`proxy_and_recycle` or REST operation drives a session. -/
theorem one_driver (h : Reach pool dirs (fun s a => claimsMarked pool s a = true) as s)
    (id : Uuid) : s.sum (Task.drives id) ≤ 1 := by
  have hexcl : s.Exclusive := h.preserves_of (J := State.Refs) (fun _ _ h => refs_of_reach h)
    (fun _ _ _ hrefs _ he hp hs => exclusive_step hrefs he hp hs)
    ⟨fun _ => Nat.zero_le _, fun _ h => by cases h⟩
  have hle : s.sum (Task.drives id) ≤ s.sum (Task.claims id) :=
    tally_le_tally fun t _ => t.drives_le_claims id
  exact hle.trans (hexcl.one id)

end

/-- A session is created by `POST /sessions`, and a client connects to it. -/
def connectToCreated : List Action :=
  .arrive (.create .postSession .default) :: insertActions 0 0 "/tmp/eiger-chrome-a" 0 ++
    [.task 0 .go, .arrive (.connectExisting 0), .task 1 .go, .task 1 .go, .task 1 .go, .task 1 .go,
     .task 1 .go, .task 1 .go]

/-- The theorem on that run, where the client's task drives the session. -/
theorem one_driver_connected : (exampleState 1 connectToCreated).sum (Task.drives 0) ≤ 1 := by
  have hrun : Reach (examplePool 1) ∅ (fun s a => claimsMarked (examplePool 1) s a = true)
      connectToCreated (exampleState 1 connectToCreated) := run_after (by decide)
  exact one_driver hrun 0

/-- A client opens a new session, and another connects to it before the upgrade of the first. -/
def connectBeforeMark : List Action :=
  .arrive (.create .connectNew .default) :: insertActions 0 0 "/tmp/eiger-chrome-a" 0 ++
    [.task 0 .go, .arrive (.connectExisting 0), .task 1 .go, .task 1 .go, .task 1 .go, .task 1 .go,
     .task 1 .go, .task 1 .go, .task 0 .go, .task 0 .go, .task 0 .go]

/-- Without the guard a session has two drivers: its creator marks it without a look at the claim
of the other. -/
theorem two_drivers :
    ¬ ∀ (pool : SessionPool) (dirs : Finset PathBuf) (as : List Action) (s : State) (id : Uuid),
      Reach pool dirs anyAction as s → s.sum (Task.drives id) ≤ 1 := by
  intro h
  have hrun := h (examplePool 1) ∅ connectBeforeMark _ 0 (run_after (by decide))
  revert hrun
  decide

/-! ## No abandoned session -/

/-- The guard that no owner's future is dropped, and that no upgrade of a client that claimed its
session fails. -/
def keepsOwners (s : State) : Action → Bool
  | .dropFuture i => s.tasks[i]?.all (·.owned = none)
  | .task i .refused => s.tasks[i]?.all fun t => !t.awaitsClaimed
  | _ => true

section

variable {pool : SessionPool} {dirs : Finset PathBuf} {s s' : State} {i : Nat} {t t' : Task}
  {a : Action} {as : List Action} {op : Op} {id : Uuid}

/-- A step that keeps the owners takes an owner on as one, unless it removes its session or finds
it gone. -/
theorem Turn.owned_or (turn : Turn pool i t a op t') (ht : s.tasks[i]? = some t)
    (hp : keepsOwners s a = true) (h : t.owned = some id) :
    t'.owned = some id ∨ op = .remove id ∨ op = .notFound id := by
  cases turn with
  | @perform choice _ _ hperform =>
    rcases (Task.perform_move hperform).owned_or h with ho | ho | ho | ⟨rfl, rfl⟩
    · exact .inl ho
    · exact .inr (.inl ho)
    · exact .inr (.inr ho)
    · -- only a failed upgrade releases the reference there, and the guard excludes it
      cases choice with
      | refused => simp [keepsOwners, ht, Task.awaitsClaimed] at hp
      | _ => cases hperform
  | drop =>
    rw [keepsOwners, ht] at hp
    simp [h] at hp

/-- What is in the map and in use has an owner. -/
def State.InUseOwned (s : State) : Prop :=
  ∀ id ∈ s.memory.sessions, s.stateOf id = some .inUse → 0 < s.sum (Task.owns id)

/-- Every action that keeps the owners keeps what is in use owned. -/
theorem inUseOwned_step (h : s.InUseOwned) (hp : keepsOwners s a = true)
    (hs : step pool s a = some s') : s'.InUseOwned := by
  rcases step_cases hs with ⟨i, t, op, t', ht, turn, he, rfl⟩ | ⟨request, rfl, rfl⟩ |
    ⟨c, rfl, -, rfl⟩ | ⟨d, rfl, rfl⟩
  · intro id hmem huse
    rw [Memory.effect_sessions] at hmem
    have hsum := tally_set (f := Task.owns id) ht t'
    simp only [State.sum]
    rcases State.stateOf_effect_cases he huse with ⟨old, hold, hnext⟩ | ⟨_, _, rfl, hready, -⟩
    · rcases Op.nextState_inUse hnext.symm with rfl | hclaim
      · have hin : id ∈ s.memory.sessions := by
          cases op with
          | insert j stealth b =>
            rcases Finset.mem_insert.1 hmem with rfl | hmem
            · obtain rfl : id = s.memory.heap.length := by simpa [Memory.enabled] using he
              obtain ⟨e, hid, -⟩ := Option.map_eq_some_iff.1 hold
              exact absurd (Memory.lt_of_entryAt hid) (Nat.lt_irrefl _)
            · exact hmem
          | remove j => exact Finset.mem_of_mem_erase hmem
          | _ => exact hmem
        have hbefore := h id hin hold
        simp only [State.sum] at hbefore
        by_cases howns : t.owned = some id
        · rcases turn.owned_or ht hp howns with ho | rfl | rfl
          · have : t'.owns id = 1 := if_pos ho
            have : t.owns id ≤ 1 := by unfold Task.owns; split <;> decide
            omega
          · exact absurd rfl (Finset.ne_of_mem_erase hmem)
          · exact absurd hin (by simpa [Memory.enabled] using he)
        · have : t.owns id = 0 := if_neg howns
          omega
      · have hnew : t'.owned = some id := by
          cases turn with
          | perform hperform => exact (Task.perform_move hperform).owned_of_claim hclaim
          | drop => rcases hclaim with hc | hc <;> cases hc
        have hone : t'.owns id = 1 := if_pos hnew
        have hle := le_tally (f := Task.owns id) (l := s.tasks.set i t') (i := i) (x := t')
          (by simp [(List.getElem?_eq_some_iff.1 ht).1])
        omega
    · cases hready
  · intro id hmem huse
    have hreq : request.task.owns id = 0 := by cases request <;> rfl
    rw [State.sum_arrive hreq]
    exact h id hmem huse
  · exact h
  · exact h

/-- **No abandoned session.** In every run that drops no owner and fails no upgrade of a client that
claimed its session, a session in the map that is in use has an owner, and every further step of
the owner that the guard allows leaves it the owner or is the removal by its
`terminate_session`. -/
theorem inUse_owned (h : Reach pool dirs (fun s a => keepsOwners s a = true) as s)
    (hmem : id ∈ s.memory.sessions) (huse : s.stateOf id = some .inUse) :
    ∃ i t, s.tasks[i]? = some t ∧ t.owned = some id ∧
      ∀ choice op t', keepsOwners s (.task i choice) = true →
        t.perform pool choice = some (op, t') → s.memory.enabled op = true →
        t'.owned = some id ∨ op = .remove id := by
  have hinv : s.InUseOwned :=
    h.preserves (fun _ _ _ hi hp hs => inUseOwned_step hi hp hs) fun _ hmem => by cases hmem
  obtain ⟨i, t, ht, hpos⟩ := tally_pos.1 (hinv id hmem huse)
  have howned : t.owned = some id := by
    by_contra hne
    rw [Task.owns, if_neg hne] at hpos
    exact Nat.lt_irrefl 0 hpos
  refine ⟨i, t, ht, howned, fun choice op t' hp hperform he => ?_⟩
  rcases (Turn.perform (i := i) hperform).owned_or ht hp howned with ho | ho | rfl
  · exact .inl ho
  · exact .inr ho
  · exact absurd hmem (by simpa [Memory.enabled] using he)

end

/-- A REST request drives the session it created. -/
def restDrives : List Action :=
  .arrive (.create .rest .default) :: insertActions 0 0 "/tmp/eiger-chrome-a" 0 ++
    [.task 0 .go, .task 0 .go, .task 0 .go]

/-- The theorem on that run. -/
theorem inUse_owned_rest : ∃ (i : Nat) (t : Task),
    (exampleState 1 restDrives).tasks[i]? = some t ∧ t.owned = some 0 := by
  have hrun : Reach (examplePool 1) ∅ (fun s a => keepsOwners s a = true) restDrives
      (exampleState 1 restDrives) := run_after (by decide)
  have hmem : 0 ∈ (exampleState 1 restDrives).memory.sessions := by decide
  obtain ⟨i, t, ht, howned, -⟩ := inUse_owned hrun hmem (by decide)
  exact ⟨i, t, ht, howned⟩

/-- Dropped there, the request leaves its session in use, in the map and to nobody. -/
theorem inUse_abandoned :
    ¬ ∀ (pool : SessionPool) (dirs : Finset PathBuf) (as : List Action) (s : State) (id : Uuid),
      Reach pool dirs anyAction as s → id ∈ s.memory.sessions → s.stateOf id = some .inUse →
        ∃ t ∈ s.tasks, t.owned = some id := by
  intro h
  have hrun := h (examplePool 1) ∅ (restDrives ++ [.dropFuture 0]) _ 0 (run_after (by decide))
    (by decide) (by decide)
  revert hrun
  decide

end Eiger
