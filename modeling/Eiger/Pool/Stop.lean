import Eiger.Pool.Isolation
import Eiger.Pool.Quiescence
import Mathlib.Data.Finset.Sort

/-!
# The end of the server

When `main` returns, the runtime drops what there is: the future of each task that has not returned,
that of the maintenance task among them, and with its last reference the pool and its map. No
session is terminated by that: no browser is asked to close and no exit is awaited, and what is done
is done by destructors, in whatever order they run.

They are enough for what has become a browser: its child is sent a `SIGKILL`, if it has not exited,
and no temporary directory is left (`stop_leaves`). They do nothing for a bare `Child` that runs. So
the children that the end of the server leaves running and alone are those of the launches it cuts,
unless a launch has been cut before. After a signal `serve` waits for the requests it is handling,
so that none may be left; what is said here holds whichever tasks are left.
-/

namespace Eiger

open Transition Tally

/-! ## What the server drops -/

/-- What the tasks and the map own. -/
def State.owned (s : State) : List Local :=
  s.tasks.flatMap Task.locals ++ (s.memory.sessions.sort (· ≤ ·)).map .entry

/-- The end of the server leaves this memory: all is dropped, in some order. -/
def State.Leaves (s : State) (m : Memory) : Prop :=
  ∃ frame : List Local, frame.Perm s.owned ∧ m = s.memory.release frame

/-- The value is a browser with this child. -/
def Local.ownsChild (c : ChildId) : Local → Bool
  | .browser b => b.child = c
  | _ => false

/-- The value is this child itself. -/
def Local.isChild (c : ChildId) : Local → Bool
  | .child j => j = c
  | _ => false

/-- Child `c` is that of a browser, which a task has or an entry that is still referenced. -/
def State.HasBrowser (s : State) (c : ChildId) : Prop :=
  (∃ t ∈ s.tasks, ∃ b, .browser b ∈ t.locals ∧ b.child = c) ∨
    ∃ id ∈ s.referenced, ∃ e b, s.memory.entryAt id = some e ∧ e.browser = some b ∧ b.child = c

/-- A child that has not exited. -/
def ChildProcess.runs (ch : ChildProcess) : Bool := ch.status = .running

/-- A child that has been sent a `SIGKILL` or has been reaped. -/
def ChildProcess.ended (ch : ChildProcess) : Bool := ch.sigkill || ch.status = .reaped

namespace ChildProcess

theorem kept_ended : Kept ended where
  reap ch _ := by simp [ended]
  sigterm ch h := h
  sigkill ch _ := by simp [ended]
  exit ch hrun h := by
    simp only [ended, hrun] at h ⊢
    simpa using h

/-- The drop of a browser ends its child. -/
theorem ended_killChild (ch : ChildProcess) : (Memory.killChild ch).ended = true := by
  unfold Memory.killChild ended
  split
  · rfl
  · exact Bool.or_true _
  · next h =>
    rw [h]
    exact Bool.or_true _

/-- A child that has ended is settled. -/
theorem settled_of_ended {ch : ChildProcess} (h : ch.ended = true) : ch.settled = true := by
  unfold ended at h
  unfold settled
  rw [Bool.or_assoc, h, Bool.or_true]

end ChildProcess

/-- Destructors end the child of every browser among their values. -/
theorem Memory.dropAll_ends {m : Memory} {ls : List Local} {b : LaunchedBrowser}
    (hb : .browser b ∈ ls) (hlt : b.child < m.children.length) :
    (m.dropAll ls).childIs ChildProcess.ended b.child = true := by
  obtain ⟨before, after, rfl⟩ := List.append_of_mem hb
  rw [dropAll_append, dropAll_cons]
  refine childIs_dropAll ChildProcess.kept_ended after ?_
  rw [dropPlain, dropBrowser, childIs, dropDir_children]
  exact childIs_update_self ChildProcess.ended_killChild (by rwa [dropAll_length])

/-! ## All is dropped -/

section

variable {s : State} {frame : List Local} {m : Memory} {c : ChildId}

/-- The references of the map. -/
theorem countP_map_entry (ids : Finset Uuid) (id : Uuid) :
    ((ids.sort (· ≤ ·)).map Local.entry).countP (Local.isRef id) = mapRefs ids id := by
  have hcount : ((ids.sort (· ≤ ·)).map Local.entry).countP (Local.isRef id) =
      (ids.sort (· ≤ ·)).count id := by
    rw [List.countP_map]
    rfl
  rw [hcount, (ids.sort_nodup _).count]
  simp only [Finset.mem_sort, mapRefs]

/-- What is owned is counted over the tasks and the map. -/
theorem countP_owned (p : Local → Bool) :
    s.owned.countP p = (s.sum fun t => t.locals.countP p) +
      ((s.memory.sessions.sort (· ≤ ·)).map Local.entry).countP p := by
  rw [State.owned, List.countP_append, List.countP_flatMap]
  rfl

/-- No reference is left. -/
theorem strong_of_leaves (hrefs : s.Refs) (hframe : frame.Perm s.owned) (id : Uuid) :
    (s.memory.release frame).strong id = 0 := by
  rw [Memory.release_strong, hframe.countP_eq, countP_owned, countP_map_entry, hrefs id,
    Nat.add_comm (mapRefs _ _)]
  exact Nat.sub_self _

/-- **Every value that is held is dropped**, be it with a task or in an entry. -/
theorem countP_dropped {p : Local → Bool} (hp : Local.Plain p) (hrefs : s.Refs)
    (hframe : frame.Perm s.owned) : (dropped s.memory.heap frame).countP p = s.holders p := by
  have hbalance := Memory.release_held hp s.memory frame
  have hnone : held (s.memory.release frame).heap p = 0 := by
    refine tally_eq_zero.2 fun id a ha => if_neg fun hpos => ?_
    have hstrong := strong_of_leaves hrefs hframe id
    rw [Memory.strong, ha] at hstrong
    exact Nat.ne_of_gt hpos hstrong
  rw [hnone, Nat.zero_add, hframe.countP_eq, countP_owned, countP_entries hp,
    Nat.add_zero] at hbalance
  rw [hbalance, State.holders, Nat.add_comm]

/-- A browser that a task or an entry has is held. -/
theorem hasBrowser_iff (hrefs : s.Refs) :
    s.HasBrowser c ↔ 0 < s.holders (Local.ownsChild c) := by
  rw [State.holders, Nat.add_pos_iff_pos_or_pos, Memory.held_pos_iff rfl]
  refine or_congr ?_ ?_
  · constructor
    · rintro ⟨t, ht, b, hb, hchild⟩
      obtain ⟨i, hi⟩ := List.mem_iff_getElem?.1 ht
      exact tally_pos.2 ⟨i, t, hi, List.countP_pos_iff.2 ⟨_, hb, decide_eq_true hchild⟩⟩
    · intro hpos
      obtain ⟨i, t, ht, hcount⟩ := tally_pos.1 hpos
      obtain ⟨l, hl, howns⟩ := List.countP_pos_iff.1 hcount
      cases l with
      | browser b => exact ⟨t, List.mem_of_getElem? ht, b, hl, of_decide_eq_true howns⟩
      | _ => cases howns
  · constructor
    · rintro ⟨id, hid, e, b, he, hb, hchild⟩
      exact ⟨id, e, b, (hrefs.strong_pos id).2 (Finset.mem_filter.1 hid).2, he, hb,
        decide_eq_true hchild⟩
    · rintro ⟨id, e, b, hstrong, he, hb, howns⟩
      exact ⟨id, Finset.mem_filter.2
        ⟨Finset.mem_range.2 (Memory.lt_of_strong hstrong), (hrefs.strong_pos id).1 hstrong⟩,
        e, b, he, hb, of_decide_eq_true howns⟩

/-- A child is held bare, or by its browser. -/
theorem countP_holdsChild (ls : List Local) (c : ChildId) : ls.countP (Local.holdsChild c) =
    ls.countP (Local.isChild c) + ls.countP (Local.ownsChild c) := by
  induction ls with
  | nil => rfl
  | cons l ls ih =>
    have hone : ∀ p : Local → Bool, (l :: ls).countP p = ls.countP p + [l].countP p :=
      fun p => by rw [List.countP_cons, List.countP_singleton]
    rw [hone, hone, hone, ih]
    cases l with
    | child j => exact Nat.add_right_comm _ _ _
    | browser b => exact Nat.add_assoc _ _ _
    | _ => rfl

/-- A bare child that is dropped was with a task. -/
theorem mem_locals_of_dropped (hframe : frame.Perm s.owned)
    (h : 0 < (dropped s.memory.heap frame).countP (Local.isChild c)) :
    ∃ t ∈ s.tasks, .child c ∈ t.locals := by
  obtain ⟨l, hl, hchild⟩ := List.countP_pos_iff.1 h
  cases l with
  | child j =>
    obtain rfl : j = c := of_decide_eq_true hchild
    rcases List.mem_append.1 (hframe.mem_iff.1 (mem_of_child_mem_dropped hl)) with hmem | hmem
    · exact List.mem_flatMap.1 hmem
    · obtain ⟨_, -, heq⟩ := List.mem_map.1 hmem
      cases heq
  | _ => cases hchild

/-- A bare child with a task is held. -/
theorem holders_isChild {t : Task} (ht : t ∈ s.tasks) (hc : .child c ∈ t.locals) :
    0 < s.holders (Local.isChild c) := by
  obtain ⟨i, hi⟩ := List.mem_iff_getElem?.1 ht
  refine Nat.add_pos_left (tally_pos.2 ⟨i, t, hi, ?_⟩) _
  exact List.countP_pos_iff.2 ⟨_, hc, decide_eq_true rfl⟩

end

/-! ## What is left -/

section

variable {pool : SessionPool} {dirs : Finset PathBuf} {P : State → Action → Prop} {s : State}
  {as : List Action} {frame : List Local} {m : Memory} {c : ChildId}

/-- A child that no browser holds is left as it is. -/
theorem children_of_leaves (hrefs : s.Refs) (hframe : frame.Perm s.owned)
    (hnone : ¬ s.HasBrowser c) :
    (s.memory.release frame).children[c]? = s.memory.children[c]? := by
  rw [Memory.release_eq]
  refine Memory.dropAll_other fun b hb hchild => hnone ((hasBrowser_iff hrefs).2 ?_)
  rw [← countP_dropped (fun _ => rfl) hrefs hframe]
  exact List.countP_pos_iff.2 ⟨_, hb, decide_eq_true hchild⟩

/-- The child of a browser is ended. -/
theorem ended_of_leaves (hrefs : s.Refs) (hheld : s.HeldOnce) (hframe : frame.Perm s.owned)
    (hhas : s.HasBrowser c) :
    (s.memory.release frame).childIs ChildProcess.ended c = true := by
  have hpos := (hasBrowser_iff hrefs).1 hhas
  have hlt : c < s.memory.children.length := by
    by_contra hge
    have hzero := hheld.none c (Nat.le_of_not_lt hge)
    rw [← countP_dropped (Local.plain_holdsChild c) hrefs hframe, countP_holdsChild,
      countP_dropped (p := Local.ownsChild c) (fun _ => rfl) hrefs hframe] at hzero
    omega
  rw [← countP_dropped (fun _ => rfl) hrefs hframe] at hpos
  obtain ⟨l, hl, howns⟩ := List.countP_pos_iff.1 hpos
  cases l with
  | browser b =>
    obtain rfl : b.child = c := of_decide_eq_true howns
    rw [Memory.release_eq]
    exact Memory.dropAll_ends hl hlt
  | _ => cases howns

/-- Which children have ended then. -/
theorem ended_iff_of_leaves (hrefs : s.Refs) (hheld : s.HeldOnce) (hframe : frame.Perm s.owned) :
    (s.memory.release frame).childIs ChildProcess.ended c = true ↔
      s.memory.childIs ChildProcess.ended c = true ∨ s.HasBrowser c := by
  constructor
  · intro hc
    by_cases hhas : s.HasBrowser c
    · exact .inr hhas
    · refine .inl ?_
      rwa [Memory.childIs, children_of_leaves hrefs hframe hhas] at hc
  · rintro (hc | hhas)
    · rw [Memory.release_eq]
      exact Memory.childIs_dropAll ChildProcess.kept_ended _ hc
    · exact ended_of_leaves hrefs hheld hframe hhas

/-- Which children have been left alone, where each was settled or held. -/
theorem unsettled_iff_of_leaves (hrefs : s.Refs) (hheld : s.HeldOnce)
    (howned : s.Owned ChildProcess.settled) (hframe : frame.Perm s.owned)
    (hc : c < s.memory.children.length) :
    (s.memory.release frame).childIs ChildProcess.settled c = false ↔
      s.memory.childIs ChildProcess.settled c = false ∧ ∃ t ∈ s.tasks, .child c ∈ t.locals := by
  have hsame : ¬ s.HasBrowser c → (s.memory.release frame).childIs ChildProcess.settled c =
      s.memory.childIs ChildProcess.settled c := fun hnone => by
    rw [Memory.childIs, children_of_leaves hrefs hframe hnone, Memory.childIs]
  have hcount := countP_holdsChild (dropped s.memory.heap frame) c
  rw [countP_dropped (Local.plain_holdsChild c) hrefs hframe,
    countP_dropped (p := Local.ownsChild c) (fun _ => rfl) hrefs hframe] at hcount
  constructor
  · intro hunsettled
    have hnone : ¬ s.HasBrowser c := by
      intro hhas
      have hkilled := Memory.childIs_mono (fun _ => ChildProcess.settled_of_ended)
        (ended_of_leaves hrefs hheld hframe hhas)
      exact Bool.false_ne_true (hunsettled.symm.trans hkilled)
    have hown : ¬ 0 < s.holders (Local.ownsChild c) :=
      fun hpos => hnone ((hasBrowser_iff hrefs).2 hpos)
    rw [hsame hnone] at hunsettled
    refine ⟨hunsettled, mem_locals_of_dropped hframe ?_⟩
    obtain hset | hpos := howned c hc
    · exact absurd (hunsettled.symm.trans hset) Bool.false_ne_true
    · omega
  · rintro ⟨hunsettled, t, ht, hbare⟩
    rw [hsame, hunsettled]
    -- a child with a browser too would be held twice
    intro hhas
    have hown := (hasBrowser_iff hrefs).1 hhas
    have hpos := holders_isChild ht hbare
    rw [← countP_dropped (fun _ => rfl) hrefs hframe] at hpos
    have honce := hheld.once c
    omega

/-- **What the end of the server leaves.** In every run, whenever the server ends and in whatever
order what it owns is dropped: each directory that is left was there from the start or is a
persistent one. A child that had been killed or reaped before, or is that of a browser, of a session
in the map or of a task, has been killed or reaped then, and of the children that run no others
have. And where no launch has been cut before, a child that runs is left neither signalled nor
reaped exactly if it had been neither before, and a launch has it that is cut now. -/
theorem stop_leaves (h : Reach pool dirs P as s) (hstop : s.Leaves m) :
    (∀ path ∈ m.dirs, path ∈ dirs ∨ pool.PersistentPath path) ∧
      (∀ c, s.memory.childIs ChildProcess.ended c = true ∨ s.HasBrowser c →
        m.childIs ChildProcess.ended c = true) ∧
      (∀ c, s.memory.childIs ChildProcess.runs c = true → m.childIs ChildProcess.ended c = true →
        s.memory.childIs ChildProcess.ended c = true ∨ s.HasBrowser c) ∧
      (Reach pool dirs (fun s a => keepsLaunches s a = true) as s →
        ∀ c, s.memory.childIs ChildProcess.runs c = true →
          (m.childIs ChildProcess.settled c = false ↔
            s.memory.childIs ChildProcess.settled c = false ∧
              ∃ t ∈ s.tasks, .child c ∈ t.locals)) := by
  obtain ⟨frame, hframe, rfl⟩ := hstop
  have hrefs := refs_of_reach h
  have hheld := heldOnce_of_reach h
  refine ⟨fun path hpath => ?_, fun c => (ended_iff_of_leaves hrefs hheld hframe).2,
    fun c _ => (ended_iff_of_leaves hrefs hheld hframe).1, fun hkeeps c hc =>
    unsettled_iff_of_leaves hrefs hheld (settled_or_held hkeeps) hframe (Memory.lt_of_childIs hc)⟩
  rw [Memory.release_eq] at hpath
  obtain ⟨hmem, hzero⟩ := Memory.mem_of_mem_dropAll hpath
  rw [countP_dropped (Local.plain_holdsTemp path) hrefs hframe] at hzero
  obtain hinit | hpersistent | hpos := dirsHeld_of_reach h path hmem
  · exact .inl hinit
  · exact .inr hpersistent
  · exact absurd hzero (Nat.ne_of_gt hpos)

end

/-- A session is in the map, and a second one is being launched. -/
def launchingSecond : List Action :=
  createOne ++ .task 0 .go :: .arrive (.create .rest .default) ::
    spawnActions 1 1 "/tmp/eiger-chrome-b"

/-- The server ends after that: the browser of the session is killed, and the child of the launch
is left alone. -/
theorem stop_leaves_launching : ∃ m, (exampleState 2 launchingSecond).Leaves m ∧
    m.childIs ChildProcess.ended 0 = true ∧ m.childIs ChildProcess.settled 1 = false := by
  have hrun : Reach (examplePool 2) ∅ (fun s a => keepsLaunches s a = true) launchingSecond
      (exampleState 2 launchingSecond) := run_after (by decide)
  obtain ⟨-, hended, -, hleft⟩ := stop_leaves hrun ⟨_, .refl _, rfl⟩
  have hbrowser : (exampleState 2 launchingSecond).HasBrowser 0 :=
    (hasBrowser_iff (refs_of_reach hrun)).2 (by decide)
  exact ⟨_, ⟨_, .refl _, rfl⟩, hended 0 (.inr hbrowser),
    (hleft hrun 1 (by decide)).2 (by decide)⟩

end Eiger
