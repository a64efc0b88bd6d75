import Eiger.Pool.Children

/-!
# No orphaned browser

In every run that drops no `create_session` call while it awaits `wait_until_ready`
(`keepsLaunches`), each child that has been neither signalled nor reaped is with a
`create_session` call that holds a permit, or in an entry that is still referenced, or with the
shutdown of such an entry, and there are at most `max_concurrent_sessions` of them
(`no_orphan`). Every other await point of a handler may be a cut.

Between the spawn and the `LaunchedBrowser` the child is a bare `Child`, spawned with
`kill_on_drop(false)`: a call dropped there leaves it running, with nobody to stop it, and gives
its permit back (`orphan_of_dropped_launch`). `terminate_child` on the error path of the same
function and `Drop for LaunchedBrowser` after it both stop the child.
-/

namespace Eiger

open Transition Tally

/-- Whether a `create_session` call awaits `wait_until_ready`. -/
def Task.awaitsReady : Task → Bool
  | .creating _ _ (.waiting ..) => true
  | _ => false

/-- The guard of `no_orphan`: no call is dropped while it awaits `wait_until_ready`. -/
def keepsLaunches (s : State) (a : Action) : Bool := (s.dropped? a).all (!·.awaitsReady)

/-! ## What is dropped -/

/-- No entry holds a bare child. -/
theorem child_not_mem_contents (e : SessionEntry) (c : ChildId) : .child c ∉ e.contents := by
  unfold SessionEntry.contents
  cases e.browser <;> simp

/-- A bare child is dropped only where a frame holds it. -/
theorem mem_of_child_mem_dropped {c : ChildId} {heap : List ArcInner} {frame : List Local}
    (h : .child c ∈ dropped heap frame) : .child c ∈ frame := by
  induction frame generalizing heap with
  | nil => cases h
  | cons l frame ih =>
    cases l with
    | entry id =>
      rcases List.mem_append.1 h with h | h
      · unfold freed at h
        split at h
        · split at h
          · exact absurd h (child_not_mem_contents _ c)
          · cases h
        · cases h
      · exact List.mem_cons_of_mem _ (ih h)
    | _ =>
      rcases List.mem_cons.1 h with h | h
      · exact h ▸ List.mem_cons_self ..
      · exact List.mem_cons_of_mem _ (ih h)

/-- **A bare child that is let go is settled**, unless its call is cut while it awaits
`wait_until_ready`. -/
theorem Turn.child_settled {pool : SessionPool} {s : State} {i : Nat} {t t' : Task} {a : Action}
    {frame : List Local} {c : ChildId} (ht : s.tasks[i]? = some t)
    (turn : Turn pool i t a (.release frame) t') (hp : keepsLaunches s a = true)
    (hc : .child c ∈ frame) : (c, .signalled) ∈ t.knows ∨ (c, .reaped) ∈ t.knows := by
  cases turn with
  | perform h => exact .inr (Task.perform_drops h hc (by simp [Local.holdsChild]))
  | drop hd =>
    rcases Task.holdsChild_cases hc (c := c) (by simp [Local.holdsChild]) with
      ⟨caller, overrides, pc, rfl, hpc⟩ | ⟨_, _, _, _, _, _, h, _⟩
    · -- the await points with a bare child: that of `wait_until_ready`, which the guard excludes,
      -- and the two of `terminate_child` after its signal
      cases pc with
      | waiting => simp [keepsLaunches, State.dropped?, ht, Task.awaitsReady] at hp
      | cleaning j _ _ | killing j _ _ =>
        obtain rfl : c = j := by simpa [Task.createLocals] using hpc
        exact .inl (by simp [Task.knows, CreatePc.knows])
      | unwinding => cases hd
      | _ => simp [Task.createLocals, Task.droppable, Task.createSuspended] at hpc hd
    · cases h

section

variable {pool : SessionPool} {dirs : Finset PathBuf} {s s' : State} {a : Action} {as : List Action}

/-- Each destructor that lets go of a child finds it settled, or settles it. -/
theorem destroyed_settled {i : Nat} {t t' : Task} {op : Op} {l : Local} {c : ChildId}
    (hknown : s.Known) (hp : keepsLaunches s a = true) (ht : s.tasks[i]? = some t)
    (turn : Turn pool i t a op t') (hl : l ∈ op.destroyed s.memory.heap)
    (hc : l.holdsChild c = true) (hlt : c < s.memory.children.length) :
    (s.memory.effect op).childIs ChildProcess.settled c = true := by
  cases op with
  | release frame =>
    cases l with
    | child j =>
      obtain rfl : j = c := of_decide_eq_true hc
      refine Memory.effect_childIs ChildProcess.kept_settled _ ?_
      have htask := hknown.tasks t (List.mem_of_getElem? ht)
      rcases turn.child_settled ht hp (mem_of_child_mem_dropped hl) with h | h
      · refine Memory.childIs_mono (fun ch hch => ?_) (htask _ h)
        simp only [ChildProcess.settled, Bool.or_eq_true]
        exact .inl (Bool.or_eq_true _ _ ▸ hch)
      · refine Memory.childIs_mono (fun ch hch => ?_) (htask _ h)
        simp only [ChildProcess.settled, Bool.or_eq_true]
        exact .inr hch
    | browser b =>
      obtain rfl : b.child = c := of_decide_eq_true hc
      rw [Memory.effect_release, Memory.release_eq]
      exact Memory.dropAll_settles hl hlt
    | _ => cases hc
  | _ => cases hl

/-- Every child is settled or held, while no launch is cut. -/
theorem settled_or_held (h : Reach pool dirs (fun s a => keepsLaunches s a = true) as s) :
    s.Owned ChildProcess.settled := by
  refine h.preserves_of (I := State.Owned ChildProcess.settled)
    (J := fun s => s.Refs ∧ s.Known) (fun _ _ h => ⟨refs_of_reach h, known_of_reach h⟩) ?_ ?_
  · intro s a s' ⟨hrefs, hknown⟩ _ howned hp hs
    exact owned_step ChildProcess.kept_settled hrefs howned
      (fun i t op t' ht turn _ l hl c hc hlt => destroyed_settled hknown hp ht turn hl hc hlt) hs
  · intro c hc
    exact absurd hc (Nat.not_lt_zero c)

end

/-! ## Where the held children are -/

namespace State

/-- The children that have been neither signalled nor reaped. -/
def unsettled (s : State) : Finset ChildId :=
  (Finset.range s.memory.children.length).filter fun c =>
    s.memory.childIs ChildProcess.settled c = false

/-- Child `c` is with a `create_session` call that holds a permit. -/
def InLaunch (s : State) (c : ChildId) : Prop :=
  ∃ caller overrides pc, .creating caller overrides pc ∈ s.tasks ∧
    .permit ∈ Task.createLocals pc ∧ ∃ l ∈ Task.createLocals pc, l.holdsChild c = true

/-- Child `c` is that of the browser in an entry that is still referenced and holds a permit. -/
def InEntry (s : State) (c : ChildId) : Prop :=
  ∃ id ∈ s.referenced, ∃ e b, s.memory.entryAt id = some e ∧ .permit ∈ e.contents ∧
    e.browser = some b ∧ b.child = c

/-- Child `c` is with the shutdown of an entry that is still referenced and holds a permit. -/
def InShutdown (s : State) (c : ChildId) : Prop :=
  ∃ caller id reason b pc, .terminating caller id reason (.shutting b pc) ∈ s.tasks ∧
    b.child = c ∧ id ∈ s.referenced ∧ ∃ e, s.memory.entryAt id = some e ∧ .permit ∈ e.contents

end State

/-- A `create_session` call that holds a child holds a permit. -/
theorem Task.permit_mem_createLocals {pc : CreatePc} {l : Local} {c : ChildId}
    (hl : l ∈ createLocals pc) (hc : l.holdsChild c = true) : .permit ∈ createLocals pc := by
  cases pc with
  | queued | returned => cases hl
  | inserted id =>
    obtain rfl := List.mem_singleton.1 hl
    cases hc
  | _ => simp [createLocals]

/-- Every entry holds a permit. -/
theorem SessionEntry.permit_mem_contents (e : SessionEntry) : .permit ∈ e.contents := by
  simp [contents]

/-- An entry that a task refers to is referenced. -/
theorem State.Refs.mem_referenced {s : State} (h : s.Refs) {t : Task} (ht : t ∈ s.tasks) {id : Uuid}
    (hid : .entry id ∈ t.locals) : id ∈ s.referenced := by
  obtain ⟨i, hi⟩ := List.mem_iff_getElem?.1 ht
  exact Finset.mem_filter.2 ⟨Finset.mem_range.2 (h.lt_of_mem hi hid), .inr ⟨t, ht, hid⟩⟩

/-- **A held child** is in a launch, in an entry or in a shutdown. -/
theorem State.Refs.holdsChild_cases {s : State} (h : s.Refs) {c : ChildId}
    (hpos : 0 < s.holders (Local.holdsChild c)) : s.InLaunch c ∨ s.InEntry c ∨ s.InShutdown c := by
  rcases Nat.add_pos_iff_pos_or_pos.1 hpos with hpos | hpos
  · obtain ⟨i, t, ht, hcount⟩ := tally_pos.1 hpos
    obtain ⟨l, hl, hc⟩ := List.countP_pos_iff.1 hcount
    have htask := List.mem_of_getElem? ht
    rcases Task.holdsChild_cases hl hc with ⟨caller, overrides, pc, rfl, hpc⟩ |
      ⟨caller, id, reason, b, pc, rfl, rfl, hb⟩
    · exact .inl ⟨caller, overrides, pc, htask, Task.permit_mem_createLocals hpc hc, l, hpc, hc⟩
    · have hid : .entry id ∈ (Task.terminating caller id reason (.shutting b pc)).locals := by
        simp [Task.locals, Task.termLocals]
      obtain ⟨e, he⟩ := Memory.entryAt_of_lt (h.lt_of_mem ht hid)
      exact .inr (.inr ⟨caller, id, reason, b, pc, htask, hb, h.mem_referenced htask hid, e, he,
        e.permit_mem_contents⟩)
  · obtain ⟨id, a, ha, hcount⟩ := tally_pos.1 hpos
    split at hcount
    · next hstrong =>
      have he : s.memory.entryAt id = some a.entry := by rw [Memory.entryAt, ha]; rfl
      have hlive : 0 < s.memory.strong id := by simpa [Memory.strong, ha] using hstrong
      have href : id ∈ s.referenced := Finset.mem_filter.2
        ⟨Finset.mem_range.2 (Memory.lt_of_strong hlive), (h.strong_pos id).1 hlive⟩
      obtain ⟨l, hl, hc⟩ := List.countP_pos_iff.1 hcount
      rcases List.mem_append.1 hl with hl | hl
      · obtain ⟨b, hb, rfl⟩ := Option.map_eq_some_iff.1 (Option.mem_toList.1 hl)
        exact .inr (.inl ⟨id, href, a.entry, b, he, a.entry.permit_mem_contents, hb,
          of_decide_eq_true hc⟩)
      · obtain rfl := List.mem_singleton.1 hl
        cases hc
    · cases hcount

/-! ## At most one shutdown an entry -/

/-- The shutdowns of a browser of session `id` that a task runs. -/
def Task.shuts (id : Uuid) : Task → Nat
  | .terminating _ j _ (.shutting ..) => if j = id then 1 else 0
  | _ => 0

/-- The browsers in the entry of session `id`. -/
def Memory.browsers (m : Memory) (id : Uuid) : Nat :=
  if (m.entryAt id).any (·.browser.isSome) then 1 else 0

/-- An entry's browser is in the entry or in one shutdown. -/
def State.ShutOnce (s : State) : Prop := ∀ id, s.sum (Task.shuts id) + s.memory.browsers id ≤ 1

/-- A task that shuts down a session's browser refers to its entry. -/
theorem Task.shuts_le_refs (id : Uuid) (t : Task) : t.shuts id ≤ t.refs id := by
  unfold shuts
  split
  · next j _ _ _ =>
    split
    · next hj =>
      exact List.countP_pos_iff.2
        ⟨.entry j, by simp [locals, termLocals], by simpa [Local.isRef] using hj⟩
    · exact Nat.zero_le _
  · exact Nat.zero_le _

/-- A shutdown starts with the browser taken out of the entry. -/
theorem Turn.shuts_le {pool : SessionPool} {i : Nat} {t t' : Task} {a : Action} {op : Op}
    (turn : Turn pool i t a op t') (id : Uuid) :
    t'.shuts id ≤ t.shuts id ∨ ∃ b, op = .takeBrowser id b := by
  cases turn with
  | perform h =>
    cases Task.perform_move h with
    | @take _ j _ b =>
      by_cases hj : j = id
      · exact .inr ⟨b, by rw [hj]⟩
      · exact .inl (by simp [Task.shuts, hj])
    | shut => exact .inl (Nat.le_refl _)
    | @leave caller => exact .inl (by cases caller <;> exact Nat.zero_le _)
    | @count caller => exact .inl (by cases caller <;> exact Nat.zero_le _)
    | _ => exact .inl (Nat.zero_le _)
  | drop => exact .inl (Nat.zero_le _)

/-- A task runs at most one shutdown. -/
theorem Task.shuts_le_one (id : Uuid) (t : Task) : t.shuts id ≤ 1 := by
  unfold shuts
  split
  · split <;> decide
  · decide

namespace Memory

variable {m : Memory} {id : Uuid}

/-- An entry holds at most one browser. -/
theorem browsers_le_one (m : Memory) (id : Uuid) : m.browsers id ≤ 1 := by
  unfold browsers
  split <;> decide

/-- Only a new entry gets a browser. -/
theorem effect_browsers {op : Op} (he : m.enabled op = true) (id : Uuid) :
    (m.effect op).browsers id ≤ m.browsers id ∨
      id = m.heap.length ∧ ∃ st b, op = .insert id st b := by
  by_cases hpos : (m.effect op).browsers id = 0
  · exact .inl (hpos ▸ Nat.zero_le _)
  · have hsome : ((m.effect op).entryAt id).any (·.browser.isSome) = true := by
      by_contra hne
      exact hpos (if_neg hne)
    obtain ⟨e', hid, hb⟩ := (Option.any_eq_true _ _).1 hsome
    obtain ⟨b, hb⟩ := Option.isSome_iff_exists.1 hb
    rcases effect_entryAt_cases he hid with ⟨e, hold, rfl⟩ | ⟨st, b', rfl, -, hlen⟩
    · have hone : m.browsers id = 1 := if_pos ((Option.any_eq_true _ _).2
        ⟨e, hold, by rw [Op.rewrite_browser hb]; rfl⟩)
      exact .inl (hone ▸ browsers_le_one _ _)
    · exact .inr ⟨hlen, st, b', rfl⟩

/-- The browser that is taken was there, and is not any more. -/
theorem browsers_take {b : LaunchedBrowser} (he : m.enabled (.takeBrowser id b) = true) :
    m.browsers id = 1 ∧ (m.effect (.takeBrowser id b)).browsers id = 0 := by
  obtain ⟨e, hid, hb⟩ := (Option.any_eq_true _ _).1 he
  refine ⟨if_pos ((Option.any_eq_true _ _).2 ⟨e, hid, by rw [of_decide_eq_true hb]; rfl⟩), ?_⟩
  have heff := effect_entryAt_some (.takeBrowser id b) hid
  simp [browsers, heff, Op.rewrite]

end Memory

section

variable {pool : SessionPool} {dirs : Finset PathBuf} {P : State → Action → Prop} {s s' : State}
  {a : Action} {as : List Action}

/-- Every action keeps the browsers apart. -/
theorem shutOnce_step (hrefs : s.Refs) (h : s.ShutOnce) (hs : step pool s a = some s') :
    s'.ShutOnce := by
  rcases step_cases hs with ⟨i, t, op, t', ht, turn, he, rfl⟩ | ⟨request, rfl, rfl⟩ |
    ⟨c, rfl, -, rfl⟩ | ⟨d, rfl, rfl⟩
  · intro id
    have hsum := tally_set (f := Task.shuts id) ht t'
    have hold := h id
    simp only [State.sum] at hold ⊢
    rcases turn.shuts_le id with hle | ⟨b, rfl⟩
    · rcases Memory.effect_browsers he id with hb | ⟨hlen, -⟩
      · omega
      · -- nothing refers to a new entry yet
        have hnone : tally (Task.shuts id) s.tasks = 0 := tally_eq_zero.2 fun j u hu => by
          by_contra hne
          have hpos := Nat.lt_of_lt_of_le (Nat.pos_of_ne_zero hne)
            ((u.shuts_le_refs id).trans (hrefs.le_strong hu id))
          exact Nat.ne_of_lt (Memory.lt_of_strong hpos) hlen
        have := (s.memory.effect op).browsers_le_one id
        omega
    · obtain ⟨hone, hzero⟩ := Memory.browsers_take he
      have := t'.shuts_le_one id
      omega
  · intro id
    have hreq : request.task.shuts id = 0 := by cases request <;> rfl
    rw [State.sum_arrive hreq]
    exact h id
  · exact h
  · exact h

/-- In every reachable state an entry's browser is in the entry or in one shutdown. -/
theorem shutOnce_of_reach (h : Reach pool dirs P as s) : s.ShutOnce := by
  refine h.preserves_of (I := State.ShutOnce) (J := State.Refs) (fun _ _ h => refs_of_reach h) ?_ ?_
  · exact fun s a s' hrefs _ hi _ hs => shutOnce_step hrefs hi hs
  · exact fun id => Nat.zero_le _

end

/-! ## How many there are -/

namespace Local

/-- Whether a value is a child, or a browser, which owns one. -/
def holdsSome : Local → Bool
  | .child _ => true
  | .browser _ => true
  | _ => false

theorem plain_holdsSome : Plain holdsSome := fun _ => rfl

end Local

open Finset in
/-- The values of a list that hold the first children hold one each. -/
theorem sum_countP_holdsChild (n : Nat) (ls : List Local) :
    ∑ c ∈ range n, ls.countP (Local.holdsChild c) ≤ ls.countP Local.holdsSome := by
  induction ls with
  | nil => simp
  | cons l ls ih =>
    have hl : ∑ c ∈ range n, (if l.holdsChild c = true then 1 else 0)
        ≤ if l.holdsSome = true then 1 else 0 := by
      cases l with
      | child j | browser b =>
        simp only [Local.holdsChild, Local.holdsSome, decide_eq_true_eq, if_true, sum_ite_eq]
        split <;> decide
      | _ => simp [Local.holdsChild]
    simp only [List.countP_cons, sum_add_distrib]
    omega

/-- A `create_session` call unwinds with one child at most. -/
def Task.frameHolds : Task → Nat
  | .creating _ _ (.unwinding frame _) => frame.countP Local.holdsSome
  | _ => 0

/-- The frames of `launch_chrome` hold one child at most. -/
theorem CreateStep.frame {pool : SessionPool} {caller : Caller} {overrides : SessionOverrides}
    {pc : CreatePc} {choice : Choice} {op : Op} {t' : Task}
    (step : CreateStep pool caller overrides pc choice op t') : t'.frameHolds ≤ 1 := by
  cases step with
  | noSpawn | foundExited | exited | killed =>
    simp [Task.frameHolds, List.countP_cons, Local.holdsSome]
  | count => cases caller <;> exact Nat.zero_le _
  | _ => exact Nat.zero_le _

/-- So does every task. -/
theorem Task.perform_frame {pool : SessionPool} {choice : Choice} {op : Op} {t t' : Task}
    (h : t.perform pool choice = some (op, t')) : t'.frameHolds ≤ 1 := by
  cases perform_step h with
  | create step => exact step.frame
  | respond step => cases step <;> exact Nat.zero_le _
  | connect step => cases step <;> exact Nat.zero_le _
  | @terminate caller _ _ _ _ _ _ step =>
    cases step with
    | leave => cases caller <;> exact Nat.zero_le _
    | _ => exact Nat.zero_le _
  | pass step => cases step.move <;> exact Nat.zero_le _
  | _ => exact Nat.zero_le _

/-- Where tasks hold children, permits or shutdowns are. -/
theorem Task.holdsSome_le {t : Task} {n : Nat} (hframe : t.frameHolds ≤ 1)
    (hlt : ∀ id, .entry id ∈ t.locals → id < n) :
    t.locals.countP Local.holdsSome
      ≤ t.createPermits + ∑ id ∈ Finset.range n, t.shuts id := by
  have hzero : ∀ ids : List Uuid, (ids.map Local.entry).countP Local.holdsSome = 0 :=
    countP_entries Local.plain_holdsSome
  cases t with
  | creating caller overrides pc =>
    refine Nat.le_add_right_of_le ?_
    cases pc with
    | unwinding frame error =>
      have : frame.countP Local.holdsSome ≤ 1 := hframe
      simp only [locals, createLocals, createPermits, List.countP_append, List.countP_cons,
        List.countP_nil, Local.holdsSome, Local.isPermit, Bool.false_eq_true, if_true, if_false]
      omega
    | _ => simp [locals, createLocals, createPermits, List.countP_cons, Local.holdsSome,
        Local.isPermit]
  | terminating caller id reason pc =>
    have hcaller : (callerFrame id caller).countP Local.holdsSome = 0 := by cases caller <;> rfl
    refine Nat.le_add_left_of_le ?_
    cases pc with
    | shutting b pc =>
      have hid : id < n := hlt id (by simp [locals, termLocals])
      have hone :
          ∑ j ∈ Finset.range n, shuts j (.terminating caller id reason (.shutting b pc)) = 1 := by
        simp only [shuts, Finset.sum_ite_eq, Finset.mem_range, hid, if_true]
      rw [hone]
      simp [locals, termLocals, hcaller, hzero, List.countP_cons, Local.holdsSome]
    | _ => simp [locals, termLocals, hcaller, hzero, Local.holdsSome]
  | passing pc => exact (hzero _).le.trans (Nat.zero_le _)
  | reading held => exact (hzero _).le.trans (Nat.zero_le _)
  | responding id pc =>
    cases pc <;> exact Nat.zero_le _
  | connecting id pc =>
    cases pc <;> exact Nat.zero_le _
  | _ => exact Nat.zero_le _

/-- An entry's browsers, by what it holds. -/
theorem SessionEntry.countP_contents (e : SessionEntry) :
    e.contents.countP Local.holdsSome = if e.browser.isSome then 1 else 0 := by
  unfold contents
  cases e.browser <;> rfl

open Finset in
/-- Where entries hold browsers or are being shut down, permits are. -/
theorem State.Refs.holdsSome_le {s : State} (h : s.Refs) (honce : s.ShutOnce) :
    held s.memory.heap Local.holdsSome
        + ∑ id ∈ range s.memory.heap.length, s.sum (Task.shuts id)
      ≤ held s.memory.heap Local.isPermit := by
  rw [held, held, tally_eq_sum_range, tally_eq_sum_range, ← sum_add_distrib]
  refine sum_le_sum fun id hid => ?_
  obtain ⟨a, ha⟩ : ∃ a, s.memory.heap[id]? = some a :=
    ⟨_, List.getElem?_eq_getElem (mem_range.1 hid)⟩
  have hshuts : s.sum (Task.shuts id) ≤ s.memory.strong id := by
    rw [h id]
    exact Nat.le_add_left_of_le (tally_le_tally fun t _ => t.shuts_le_refs id)
  have hbrowsers : s.memory.browsers id = if a.entry.browser.isSome then 1 else 0 := by
    simp [Memory.browsers, Memory.entryAt, ha]
  have hsum := honce id
  have hstrong : s.memory.strong id = a.strong := by simp [Memory.strong, ha]
  simp only [ha, Option.map_some, Option.getD_some, SessionEntry.countP_contents,
    SessionEntry.contents_permit]
  split
  · omega
  · omega

section

open Finset

variable {pool : SessionPool} {dirs : Finset PathBuf} {P : State → Action → Prop} {s : State}
  {as : List Action}

/-- **Children and permits.** The values that hold a child are never more than the permits. -/
theorem holdsSome_le_of_reach (h : Reach pool dirs P as s) :
    s.holders Local.holdsSome ≤ pool.options.maxConcurrentSessions := by
  have hrefs := refs_of_reach h
  have hframes : ∀ t ∈ s.tasks, t.frameHolds ≤ 1 :=
    tasks_of_reach (fun request => by cases request <;> exact Nat.zero_le _) (Nat.zero_le _)
      (fun _ _ _ _ hp _ => Task.perform_frame hp) h
  have htasks : (s.sum fun t => t.locals.countP Local.holdsSome)
      ≤ s.createPermits + ∑ id ∈ range s.memory.heap.length, s.sum (Task.shuts id) := by
    unfold State.createPermits State.sum
    rw [sum_tally, ← tally_add]
    refine tally_le_tally fun t ht => Task.holdsSome_le (hframes t ht) fun id hid => ?_
    obtain ⟨i, hi⟩ := List.mem_iff_getElem?.1 ht
    exact hrefs.lt_of_mem hi hid
  have hheld := hrefs.holdsSome_le (shutOnce_of_reach h)
  have hpermits := allPermits_of_reach h
  have hcreate : (s.sum fun t => t.locals.countP Local.isPermit) = s.createPermits := by
    simp only [Task.permits_eq, State.createPermits]
  rw [State.allPermits, hcreate] at hpermits
  unfold State.holders
  omega

/-- **No orphaned browser.** In every run that cuts no launch before its browser is ready, each
child that is neither signalled nor reaped is with a launch, an entry or a shutdown that holds a
permit, and there are never more of them than permits. -/
theorem no_orphan (h : Reach pool dirs (fun s a => keepsLaunches s a = true) as s) :
    (∀ c ∈ s.unsettled, s.InLaunch c ∨ s.InEntry c ∨ s.InShutdown c) ∧
      s.unsettled.card ≤ pool.options.maxConcurrentSessions := by
  have hheld : ∀ c ∈ s.unsettled, 0 < s.holders (Local.holdsChild c) := by
    intro c hc
    obtain ⟨hlt, hset⟩ := mem_filter.1 hc
    rcases settled_or_held h c (mem_range.1 hlt) with hset' | hpos
    · rw [hset] at hset'
      cases hset'
    · exact hpos
  refine ⟨fun c hc => (refs_of_reach h).holdsChild_cases (hheld c hc), ?_⟩
  calc s.unsettled.card
      ≤ ∑ c ∈ s.unsettled, s.holders (Local.holdsChild c) := card_le_sum hheld
    _ ≤ ∑ c ∈ range s.memory.children.length, s.holders (Local.holdsChild c) :=
      sum_le_sum_of_subset (filter_subset _ _)
    _ ≤ s.holders Local.holdsSome := by
      unfold State.holders State.sum held
      rw [sum_add_distrib, sum_tally, sum_tally]
      refine Nat.add_le_add (tally_le_tally fun t _ => sum_countP_holdsChild _ _)
        (tally_le_tally fun a _ => ?_)
      split
      · exact sum_countP_holdsChild _ _
      · simp
    _ ≤ pool.options.maxConcurrentSessions := holdsSome_le_of_reach h

end

/-- A deleted session's browser is in its shutdown when the client of the deletion goes away, while
another session is being created. -/
def deleteCut : List Action :=
  .arrive (.create .postSession .default) :: insertActions 0 0 "/tmp/eiger-chrome-a" 0 ++
    [.arrive (.create .rest .default)] ++ spawnActions 1 1 "/tmp/eiger-chrome-b" ++
    [.arrive (.delete 0), .task 2 .go, .task 2 .go, .task 2 .go, .task 2 .go,
     .task 2 (.browser (some (exampleBrowser 0 "/tmp/eiger-chrome-a"))), .task 2 .running,
     .dropFuture 2]

/-- The theorem on that run. -/
theorem no_orphan_delete_cut : (exampleState 2 deleteCut).unsettled.card ≤ 2 := by
  have hrun : Reach (examplePool 2) ∅ (fun s a => keepsLaunches s a = true) deleteCut
      (exampleState 2 deleteCut) := run_after (by decide)
  exact (no_orphan hrun).2

/-- In a pool with one place, a client goes away while its launch awaits `wait_until_ready`, and
another launch follows. -/
def launchCut : List Action :=
  .arrive (.create .postSession .default) :: spawnActions 0 0 "/tmp/eiger-chrome-a" ++
    [.dropFuture 0, .arrive (.create .rest .default)] ++ spawnActions 1 1 "/tmp/eiger-chrome-b"

/-- **A launch that is cut leaves an orphan**: its child runs on, unsignalled and owned by nothing,
and next to the child of the next launch it exceeds the maximum. -/
theorem orphan_of_dropped_launch :
    (¬ ∀ (pool : SessionPool) (dirs : Finset PathBuf) (as : List Action) (s : State),
      Reach pool dirs anyAction as s →
        ∀ c ∈ s.unsettled, s.InLaunch c ∨ s.InEntry c ∨ s.InShutdown c) ∧
    ¬ ∀ (pool : SessionPool) (dirs : Finset PathBuf) (as : List Action) (s : State),
      Reach pool dirs anyAction as s →
        s.unsettled.card ≤ pool.options.maxConcurrentSessions := by
  have hrun : Reach (examplePool 1) ∅ anyAction launchCut (exampleState 1 launchCut) :=
    run_after (by decide)
  have hnone : (exampleState 1 launchCut).referenced = ∅ := by decide
  refine ⟨fun h => ?_, fun h => ?_⟩
  · rcases h _ _ _ _ hrun 0 (by decide) with ⟨caller, overrides, pc, hmem, -, l, hl, hc⟩ |
      ⟨id, hid, -⟩ | ⟨_, id, _, _, _, -, -, hid, -⟩
    · have hfree : ∀ t ∈ (exampleState 1 launchCut).tasks, ∀ l ∈ t.locals,
          l.holdsChild 0 = false := by decide
      rw [hfree _ hmem l hl] at hc
      cases hc
    · rw [hnone] at hid
      cases hid
    · rw [hnone] at hid
      cases hid
  · have hcard := h _ _ _ _ hrun
    revert hcard
    decide

end Eiger
