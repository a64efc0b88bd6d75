import Eiger.Pool.Capacity

/-!
# Who holds the children

The Chrome children and their user data directories pass from `launch_chrome` into a
`LaunchedBrowser`, from there into an entry and out of it into a shutdown. `holders` counts the
values of a kind over all these places; over a turn it changes only by what the operation makes
and by what destructors run on (`holders_turn`).

What happens to a child process is kept by every operation (`ChildFact.kept`), so a task goes on
knowing what it did to its child: `known_of_reach` says that what the tasks and the entries know
of their children is so. `owned_step` combines the two: while each destructor that lets go of a
child finds it settled, every child is settled or held.
-/

namespace Eiger

open Transition Tally

/-! ## Holders -/

/-- The values that meet `p`, with the tasks and in the entries that have a reference. -/
def State.holders (s : State) (p : Local → Bool) : Nat :=
  (s.sum fun t => t.locals.countP p) + held s.memory.heap p

namespace Op

/-- The values an operation makes. -/
def made : Op → List Local
  | .acquire => [.permit]
  | .createDirAll path => [.dir (.persistent path)]
  | .tempdir path => [.dir (.temporary path)]
  | .spawn c _ => [.child c]
  | _ => []

/-- The values whose destructors an operation runs. -/
def destroyed (heap : List ArcInner) : Op → List Local
  | .release frame => dropped heap frame
  | _ => []

end Op

/-- A predicate that finds in a browser what it finds in its child and its directory. -/
def Local.Splits (p : Local → Bool) : Prop :=
  ∀ b, [Local.browser b].countP p = [Local.child b.child, .dir b.userDataDir].countP p

namespace Local

/-- Whether a value is child `c`, or a browser that owns it. -/
def holdsChild (c : ChildId) : Local → Bool
  | .child j => j = c
  | .browser b => b.child = c
  | _ => false

theorem plain_holdsChild (c : ChildId) : Plain (holdsChild c) := fun _ => rfl

theorem splits_holdsChild (c : ChildId) : Splits (holdsChild c) := fun b => by
  simp [holdsChild, List.countP_cons]

end Local

/-- What an operation moves between tasks and entries, it neither makes nor destroys. -/
theorem Op.balance {p : Local → Bool} (hp : Local.Plain p) (hsp : Local.Splits p) (op : Op)
    (heap : List ArcInner) :
    op.gain.countP p + op.given.countP p + (op.destroyed heap).countP p
      = op.loss.countP p + (op.taken heap).countP p + op.made.countP p := by
  cases op with
  | assemble b =>
    have := hsp b
    simp only [gain, loss, given, taken, destroyed, made, List.countP_nil]
    omega
  | insert id stealth b => simp [gain, loss, given, taken, destroyed, made, hp id]
  | cloneEntry id => simp [gain, loss, given, taken, destroyed, made, hp id]
  | remove id => simp [gain, loss, given, taken, destroyed, made, hp id]
  | release frame => simp [gain, loss, given, taken, destroyed, made]
  | _ => simp [gain, loss, given, taken, destroyed, made]

/-- **Holders over a turn**: only what is made or destroyed changes their number. -/
theorem holders_turn {pool : SessionPool} {s : State} {i : Nat} {t t' : Task} {a : Action} {op : Op}
    {p : Local → Bool} (hp : Local.Plain p) (hsp : Local.Splits p) (hrefs : s.Refs)
    (ht : s.tasks[i]? = some t) (turn : Turn pool i t a op t') (he : s.memory.enabled op = true) :
    ({ memory := s.memory.effect op, tasks := s.tasks.set i t' } : State).holders p
        + (op.destroyed s.memory.heap).countP p
      = s.holders p + op.made.countP p := by
  have hsum := tally_set (f := fun t : Task => t.locals.countP p) ht t'
  have hturn := turn.conserves p
  have hheld := Memory.effect_held hp he fun _ hid => turn.target_live hrefs ht he hid
  have hop := op.balance hp hsp s.memory.heap
  simp only [State.holders, State.sum]
  omega

/-- What a turn drops, its task owned. -/
theorem Turn.mem_locals {pool : SessionPool} {i : Nat} {t t' : Task} {a : Action}
    {frame : List Local} (turn : Turn pool i t a (.release frame) t') {l : Local} (hl : l ∈ frame) :
    l ∈ t.locals := by
  have hb := turn.conserves fun l' => l' = l
  have hpos : 0 < frame.countP fun l' => l' = l := List.countP_pos_iff.2 ⟨l, hl, by simp⟩
  have : 0 < t.locals.countP fun l' => l' = l := by
    simp only [Op.gain, Op.loss, List.countP_nil] at hb
    omega
  obtain ⟨l', hl', he⟩ := List.countP_pos_iff.1 this
  rwa [of_decide_eq_true he] at hl'

/-- The tasks that hold a child: `create_session` calls, and `terminate_session` calls in
`shutdown`. -/
theorem Task.holdsChild_cases {t : Task} {l : Local} {c : ChildId} (hl : l ∈ t.locals)
    (hc : l.holdsChild c = true) :
    (∃ caller overrides pc, t = .creating caller overrides pc ∧ l ∈ createLocals pc) ∨
    (∃ caller id reason b pc, t = .terminating caller id reason (.shutting b pc) ∧
      l = .browser b ∧ b.child = c) := by
  have hentry : ∀ id, l ≠ .entry id := by
    rintro id rfl
    cases hc
  have hentries : ∀ ids : List Uuid, l ∉ ids.map .entry := by
    intro ids hmem
    obtain ⟨id, -, rfl⟩ := List.mem_map.1 hmem
    exact hentry id rfl
  cases t with
  | creating caller overrides pc => exact .inl ⟨caller, overrides, pc, rfl, hl⟩
  | terminating caller id reason pc =>
    right
    have hcaller : l ∉ callerFrame id caller := by cases caller <;> simp [callerFrame, hentry]
    have hpc : l ∈ termLocals id pc := by simpa [locals, hcaller, hentries] using hl
    cases pc with
    | shutting b pc =>
      obtain rfl : l = .browser b := by simpa [termLocals, hentry] using hpc
      exact ⟨caller, id, reason, b, pc, rfl, rfl, of_decide_eq_true hc⟩
    | _ => simp [termLocals, hentry] at hpc
  | responding id pc => cases pc <;> simp [locals, respondLocals, hentry] at hl
  | connecting id pc => cases pc <;> simp [locals, connectLocals, hentry] at hl
  | passing pc => exact absurd hl (hentries _)
  | reading held => exact absurd hl (hentries _)
  | _ => simp [locals, hentry] at hl

/-! ## What stays true of a child -/

namespace ChildProcess

/-- What nothing that happens to a child takes from it. -/
structure Kept (q : ChildProcess → Bool) : Prop where
  reap : ∀ ch, q ch = true → q { ch with status := .reaped } = true
  sigterm : ∀ ch, q ch = true → q { ch with sigterm := true } = true
  sigkill : ∀ ch, q ch = true → q { ch with sigkill := true } = true
  exit : ∀ ch, ch.status = .running → q ch = true → q { ch with status := .exited } = true

/-- A child that has been signalled or reaped. -/
def settled (ch : ChildProcess) : Bool := ch.sigterm || ch.sigkill || ch.status = .reaped

theorem kept_settled : Kept settled where
  reap ch _ := by simp [settled]
  sigterm ch _ := by simp [settled]
  sigkill ch _ := by simp [settled]
  exit ch hrun h := by
    simp only [settled, hrun] at h ⊢
    simpa using h

/-- The drop of a browser takes nothing from its child either. -/
theorem Kept.killChild {q : ChildProcess → Bool} (hq : Kept q) (ch : ChildProcess)
    (h : q ch = true) : q (Memory.killChild ch) = true := by
  unfold Memory.killChild
  split
  · exact hq.sigkill ch h
  · exact hq.reap ch h
  · exact h

/-- The drop of a browser settles its child. -/
theorem settled_killChild (ch : ChildProcess) : (Memory.killChild ch).settled = true := by
  unfold Memory.killChild settled
  split
  · simp
  · simp
  · next h => simp [h]

end ChildProcess

/-- What a task or an entry knows of a child it holds. -/
inductive ChildFact where
  /-- It was launched on this directory. -/
  | dir (d : UserDataDir)
  | signalled
  | reaped
  deriving DecidableEq, Repr

namespace ChildFact

/-- The fact about a child. -/
def holds : ChildFact → ChildProcess → Bool
  | .dir d, ch => ch.userDataDir = d
  | .signalled, ch => ch.sigterm || ch.sigkill
  | .reaped, ch => ch.status = .reaped

/-- Such facts stay true. -/
theorem kept (k : ChildFact) : ChildProcess.Kept k.holds where
  reap ch h := by
    cases k with
    | reaped => rfl
    | _ => exact h
  sigterm ch h := by
    cases k with
    | signalled => rfl
    | _ => exact h
  sigkill ch h := by
    cases k with
    | signalled => simp [holds]
    | _ => exact h
  exit ch hrun h := by
    cases k with
    | reaped => simp [holds, hrun] at h
    | _ => exact h

end ChildFact

namespace Memory

variable {m : Memory} {q : ChildProcess → Bool} {c : ChildId}

/-- Whether child `c` is there and meets `q`. -/
def childIs (m : Memory) (q : ChildProcess → Bool) (c : ChildId) : Bool := m.children[c]?.any q

/-- A child that meets something is there. -/
theorem lt_of_childIs (h : m.childIs q c = true) : c < m.children.length := by
  obtain ⟨ch, hc, -⟩ := (Option.any_eq_true _ _).1 h
  exact (List.getElem?_eq_some_iff.1 hc).1

/-- What follows from what a child meets. -/
theorem childIs_mono {q' : ChildProcess → Bool} (hq : ∀ ch, q ch = true → q' ch = true)
    (h : m.childIs q c = true) : m.childIs q' c = true := by
  obtain ⟨ch, hc, hch⟩ := (Option.any_eq_true _ _).1 h
  exact (Option.any_eq_true _ _).2 ⟨ch, hc, hq ch hch⟩

/-- An update that keeps `q` where it is made. -/
theorem childIs_updateChild {j : ChildId} {f : ChildProcess → ChildProcess}
    (hf : ∀ ch, q ch = true → q (f ch) = true) (h : m.childIs q c = true) :
    (m.updateChild j f).childIs q c = true := by
  obtain ⟨ch, hc, hch⟩ := (Option.any_eq_true _ _).1 h
  simp only [childIs, updateChild, List.getElem?_modify, hc]
  by_cases hj : j = c
  · simpa [hj] using hf ch hch
  · simpa [hj] using hch

/-- An update that brings `q` about. -/
theorem childIs_update_self {f : ChildProcess → ChildProcess} (hf : ∀ ch, q (f ch) = true)
    (h : c < m.children.length) : (m.updateChild c f).childIs q c = true := by
  simp [childIs, updateChild, List.getElem?_eq_getElem h, hf]

/-- Directories are no part of the children. -/
theorem dropDir_children (m : Memory) (d : UserDataDir) : (m.dropDir d).children = m.children := by
  cases d <;> rfl

/-- A destructor makes no child. -/
theorem dropPlain_length (m : Memory) (l : Local) :
    (m.dropPlain l).children.length = m.children.length := by
  cases l with
  | dir d => exact congrArg List.length (m.dropDir_children d)
  | browser b =>
    simp only [dropPlain, dropBrowser, dropDir_children, updateChild, List.length_modify]
  | _ => rfl

/-- Nor do several. -/
theorem dropAll_length (m : Memory) (ls : List Local) :
    (m.dropAll ls).children.length = m.children.length := by
  induction ls generalizing m with
  | nil => rfl
  | cons l ls ih => rw [dropAll_cons, ih, dropPlain_length]

/-- What is true of a child stays true while a destructor runs. -/
theorem childIs_dropPlain (hq : ChildProcess.Kept q) (l : Local) (h : m.childIs q c = true) :
    (m.dropPlain l).childIs q c = true := by
  cases l with
  | dir d => rwa [dropPlain, childIs, dropDir_children]
  | browser b =>
    rw [dropPlain, dropBrowser, childIs, dropDir_children]
    exact childIs_updateChild hq.killChild h
  | _ => exact h

/-- What is true of a child stays true while destructors run. -/
theorem childIs_dropAll (hq : ChildProcess.Kept q) (ls : List Local) (h : m.childIs q c = true) :
    (m.dropAll ls).childIs q c = true := by
  induction ls generalizing m with
  | nil => exact h
  | cons l ls ih => exact ih (childIs_dropPlain hq l h)

/-- Destructors settle the child of every browser among their values. -/
theorem dropAll_settles {ls : List Local} {b : LaunchedBrowser} (hb : .browser b ∈ ls)
    (hlt : b.child < m.children.length) :
    (m.dropAll ls).childIs ChildProcess.settled b.child = true := by
  induction ls generalizing m with
  | nil => cases hb
  | cons l ls ih =>
    rw [dropAll_cons]
    rcases List.mem_cons.1 hb with rfl | hb
    · refine childIs_dropAll ChildProcess.kept_settled ls ?_
      rw [dropPlain, dropBrowser, childIs, dropDir_children]
      exact childIs_update_self ChildProcess.settled_killChild hlt
    · exact ih hb (by rwa [dropPlain_length])

/-- What is true of a child stays true when a running child exits. -/
theorem childIs_exit (hq : ChildProcess.Kept q) {j : ChildId}
    (hrun : m.children[j]?.any (·.status = .running) = true) (h : m.childIs q c = true) :
    (m.updateChild j fun ch => { ch with status := .exited }).childIs q c = true := by
  obtain ⟨ch, hc, hch⟩ := (Option.any_eq_true _ _).1 h
  simp only [childIs, updateChild, List.getElem?_modify, hc]
  by_cases hj : j = c
  · subst hj
    rw [hc] at hrun
    simpa using hq.exit ch (by simpa using hrun) hch
  · simpa [hj] using hch

/-- **What is true of a child stays true** over every operation. -/
theorem effect_childIs (hq : ChildProcess.Kept q) (op : Op) (h : m.childIs q c = true) :
    (m.effect op).childIs q c = true := by
  cases op with
  | spawn j dir =>
    have hlt := lt_of_childIs h
    simp only [effect, childIs, List.getElem?_append_left hlt]
    exact h
  | reap j => exact childIs_updateChild hq.reap h
  | sigterm j => exact childIs_updateChild hq.sigterm h
  | sigkill j => exact childIs_updateChild hq.sigkill h
  | release frame =>
    rw [effect_release, release_eq]
    exact childIs_dropAll hq _ h
  | countRecycle id reason =>
    obtain ⟨_, _, hframe⟩ := m.countRecycle_frame id reason
    rw [hframe]
    exact h
  | _ => exact h

/-- A child after an operation was there before it, or is the one it spawns. -/
theorem lt_effect_children {op : Op} (he : m.enabled op = true)
    (h : c < (m.effect op).children.length) :
    c < m.children.length ∨ ∃ dir, op = .spawn c dir := by
  cases op with
  | spawn j dir =>
    obtain rfl : j = m.children.length := by simpa [enabled] using he
    simp only [effect, List.length_append, List.length_singleton] at h
    rcases Nat.lt_succ_iff_lt_or_eq.1 h with hlt | rfl
    · exact .inl hlt
    · exact .inr ⟨dir, rfl⟩
  | reap j => exact .inl (by simpa [effect, updateChild] using h)
  | sigterm j => exact .inl (by simpa [effect, updateChild] using h)
  | sigkill j => exact .inl (by simpa [effect, updateChild] using h)
  | release frame =>
    rw [effect_release, release_eq] at h
    exact .inl ((m.dropAll_length _).symm ▸ h)
  | countRecycle id reason =>
    obtain ⟨_, _, hframe⟩ := m.countRecycle_frame id reason
    rw [hframe] at h
    exact .inl h
  | _ => exact .inl h

end Memory

/-! ## What tasks know of their children -/

/-- What a `create_session` call knows of the children it holds. -/
def CreatePc.knows : CreatePc → List (ChildId × ChildFact)
  | .waiting _ c dir => [(c, .dir dir)]
  | .stopping c dir _ => [(c, .dir dir)]
  | .signalling c dir _ => [(c, .dir dir)]
  | .cleaning c dir _ => [(c, .dir dir), (c, .signalled)]
  | .killing c dir _ => [(c, .dir dir), (c, .signalled)]
  | .unwinding frame _ => frame.filterMap fun
    | .child c => some (c, .reaped)
    | .browser b => some (b.child, .reaped)
    | _ => none
  | .injecting _ b => [(b.child, .dir b.userDataDir)]
  | .launched _ b => [(b.child, .dir b.userDataDir)]
  | .recording _ b => [(b.child, .dir b.userDataDir)]
  | .recorded _ b => [(b.child, .dir b.userDataDir)]
  | _ => []

/-- What `shutdown` has found out about its child. -/
def ShutdownPc.knows (c : ChildId) : ShutdownPc → List (ChildId × ChildFact)
  | .shut _ => [(c, .reaped)]
  | _ => []

/-- What a task knows of the children it holds. -/
def Task.knows : Task → List (ChildId × ChildFact)
  | .creating _ _ pc => pc.knows
  | .terminating _ _ _ (.shutting b pc) => (b.child, .dir b.userDataDir) :: pc.knows b.child
  | _ => []

/-- What an operation tells its task about a child. -/
def Op.teaches : Op → List (ChildId × ChildFact)
  | .spawn c dir => [(c, .dir dir)]
  | .reap c => [(c, .reaped)]
  | .sigterm c => [(c, .signalled)]
  | .sigkill c => [(c, .signalled)]
  | .takeBrowser _ b => [(b.child, .dir b.userDataDir)]
  | _ => []

section

variable {pool : SessionPool} {choice : Choice} {op : Op} {t t' : Task} {x : ChildId × ChildFact}

/-- A `create_session` call knows only what it knew or has been told. -/
theorem CreateStep.knows {caller : Caller} {overrides : SessionOverrides} {pc : CreatePc}
    (step : CreateStep pool caller overrides pc choice op t') (hx : x ∈ t'.knows) :
    x ∈ pc.knows ∨ x ∈ op.teaches := by
  cases step with
  | count => cases caller <;> cases hx
  | readyStealth hb | readyPlain hb =>
    obtain rfl := hb
    exact .inl hx
  | noSpawn => cases hx
  | spawn => exact .inr hx
  | foundExited | exited | killed => exact .inr hx
  | signal | outlasted =>
    simp only [Task.knows, CreatePc.knows, Op.teaches, List.mem_cons, List.not_mem_nil,
      or_false] at hx ⊢
    tauto
  | unready | foundRunning | injected | storeReady | clearError => exact .inl hx
  | _ => cases hx

/-- The frames a `create_session` call drops at its steps. -/
theorem CreateStep.releases {caller : Caller} {overrides : SessionOverrides} {pc : CreatePc}
    {frame : List Local} (step : CreateStep pool caller overrides pc choice (.release frame) t') :
    (∃ error, pc = .unwinding frame error) ∨ frame = [.permit] := by
  cases step with
  | unwind => exact .inl ⟨_, rfl⟩
  | giveBack => exact .inr rfl

/-- `shutdown` knows no more than its operations tell it. -/
theorem ShutdownStep.knows {c : ChildId} {pc pc' : ShutdownPc}
    (step : ShutdownStep c pc choice op pc') (hx : x ∈ pc'.knows c) : x ∈ op.teaches := by
  cases step with
  | foundExited | exited | terminated | killed => exact hx
  | _ => cases hx

/-- A `terminate_session` call knows only what it knew or has been told. -/
theorem TerminateStep.knows {caller : Terminator} {id : Uuid} {reason : String} {pc : TermPc}
    (step : TerminateStep caller id reason pc choice op t') (hx : x ∈ t'.knows) :
    x ∈ (Task.terminating caller id reason pc).knows ∨ x ∈ op.teaches := by
  cases step with
  | take => exact .inr (by simpa [Task.knows, ShutdownPc.knows, Op.teaches] using hx)
  | shut hs =>
    rcases List.mem_cons.1 hx with rfl | hx
    · exact .inl (List.mem_cons_self ..)
    · exact .inr (hs.knows hx)
  | leave => cases caller <;> cases hx
  | _ => cases hx

/-- **A task knows only what it knew or has been told.** -/
theorem Task.perform_knows (h : t.perform pool choice = some (op, t')) (hx : x ∈ t'.knows) :
    x ∈ t.knows ∨ x ∈ op.teaches := by
  cases perform_step h with
  | create step => exact step.knows hx
  | terminate step => exact step.knows hx
  | pass step => cases step.move <;> cases hx
  | respond step => cases step <;> cases hx
  | connect step => cases step <;> cases hx
  | _ => cases hx

end

/-- **A child that a step drops has been reaped.** -/
theorem Task.perform_drops {pool : SessionPool} {choice : Choice} {t t' : Task} {frame : List Local}
    {l : Local} {c : ChildId} (h : t.perform pool choice = some (.release frame, t'))
    (hl : l ∈ frame) (hc : l.holdsChild c = true) : (c, .reaped) ∈ t.knows := by
  have hlocal : l ∈ t.locals := (Turn.perform (i := 0) h).mem_locals hl
  rcases Task.holdsChild_cases hlocal hc with ⟨caller, overrides, pc, rfl, -⟩ |
    ⟨caller, id, reason, b, pc, rfl, rfl, rfl⟩
  · rcases (performCreate_step h).releases with ⟨error, rfl⟩ | rfl
    · refine List.mem_filterMap.2 ⟨l, hl, ?_⟩
      cases l with
      | child j | browser b =>
        obtain rfl := of_decide_eq_true hc
        rfl
      | _ => cases hc
    · rw [List.mem_singleton.1 hl] at hc
      cases hc
  · cases perform_step h with
    | terminate step =>
      cases step with
      | shut hs => cases hs
      | dropShut => exact List.mem_cons_of_mem _ (List.mem_singleton_self _)

/-- A task that is dropped knows nothing any more. -/
theorem Turn.knows {pool : SessionPool} {i : Nat} {t t' : Task} {a : Action} {op : Op}
    {x : ChildId × ChildFact} (turn : Turn pool i t a op t') (hx : x ∈ t'.knows) :
    x ∈ t.knows ∨ x ∈ op.teaches := by
  cases turn with
  | perform h => exact Task.perform_knows h hx
  | drop => cases hx

/-- The browser that is inserted is one that its task knows. -/
theorem Turn.insert_knows {pool : SessionPool} {i : Nat} {t t' : Task} {a : Action} {id : Uuid}
    {stealth : Bool} {b : LaunchedBrowser} (turn : Turn pool i t a (.insert id stealth b) t') :
    (b.child, .dir b.userDataDir) ∈ t.knows := by
  cases turn with
  | perform h =>
    cases Task.perform_move h with
    | insert => exact List.mem_singleton_self _
    | create hq | respond hq | responded hq | shut hq | report hq | pass hq | condemn hq
    | read hq => cases hq

/-- What the tasks and the entries know of their children is so. -/
structure State.Known (s : State) : Prop where
  tasks : ∀ t ∈ s.tasks, ∀ x ∈ t.knows, s.memory.childIs x.2.holds x.1 = true
  entries : ∀ id e b, s.memory.entryAt id = some e → e.browser = some b →
    s.memory.childIs (ChildFact.dir b.userDataDir).holds b.child = true

/-- What an operation tells is so. -/
theorem Memory.effect_teaches {m : Memory} {op : Op} (he : m.enabled op = true)
    (hb : ∀ id b, op = .takeBrowser id b →
      m.childIs (ChildFact.dir b.userDataDir).holds b.child = true)
    {x : ChildId × ChildFact} (hx : x ∈ op.teaches) :
    (m.effect op).childIs x.2.holds x.1 = true := by
  cases op with
  | spawn c dir =>
    obtain rfl : c = m.children.length := by simpa [enabled] using he
    obtain rfl := List.mem_singleton.1 hx
    simp [effect, childIs, ChildFact.holds]
  | reap c =>
    obtain rfl := List.mem_singleton.1 hx
    have hc : m.childIs (fun ch => decide (ch.status ≠ .running)) c = true := he
    exact childIs_update_self (fun _ => rfl) (lt_of_childIs hc)
  | sigterm c =>
    obtain rfl := List.mem_singleton.1 hx
    exact childIs_update_self (fun _ => rfl) (by simpa [enabled] using he)
  | sigkill c =>
    obtain rfl := List.mem_singleton.1 hx
    exact childIs_update_self (fun ch => by simp [ChildFact.holds]) (by simpa [enabled] using he)
  | takeBrowser id b =>
    obtain rfl := List.mem_singleton.1 hx
    exact hb id b rfl
  | _ => cases hx

/-- No operation puts a browser into an entry that is there. -/
theorem Op.rewrite_browser {op : Op} {now : Instant} {id : Uuid} {e : SessionEntry}
    {b : LaunchedBrowser} (h : (op.rewrite now id e).browser = some b) : e.browser = some b := by
  cases op with
  | claim j | markInUse j | touch j | setKilling j | setKillReason j _ | setDead j =>
    by_cases hj : j = id <;> simpa [rewrite, hj] using h
  | takeBrowser j _ =>
    by_cases hj : j = id
    · simp [rewrite, hj] at h
    · simpa [rewrite, hj] using h
  | checkHealth j since due =>
    by_cases hj : j = id <;> cases due <;> simpa [rewrite, hj] using h
  | _ => exact h

section

variable {pool : SessionPool} {dirs : Finset PathBuf} {P : State → Action → Prop} {s s' : State}
  {a : Action} {as : List Action}

/-- What is true of a child stays true over every action. -/
theorem childIs_step {q : ChildProcess → Bool} {c : ChildId} (hq : ChildProcess.Kept q)
    (hs : step pool s a = some s') (h : s.memory.childIs q c = true) :
    s'.memory.childIs q c = true := by
  rcases step_cases hs with ⟨i, t, op, t', -, -, -, rfl⟩ | ⟨request, rfl, rfl⟩ |
    ⟨c, rfl, hrun, rfl⟩ | ⟨d, rfl, rfl⟩
  · exact Memory.effect_childIs hq op h
  · exact h
  · exact Memory.childIs_exit hq hrun h
  · exact h

/-- Every action keeps what is known. -/
theorem known_step (h : s.Known) (hs : step pool s a = some s') : s'.Known := by
  rcases step_cases hs with ⟨i, t, op, t', ht, turn, he, rfl⟩ | ⟨request, rfl, rfl⟩ |
    ⟨c, rfl, hrun, rfl⟩ | ⟨d, rfl, rfl⟩
  · refine ⟨fun u hu x hx => ?_, fun id e b hid hb => ?_⟩
    · have hkept : x ∈ t.knows ∨ (∃ v ∈ s.tasks, x ∈ v.knows) →
          (s.memory.effect op).childIs x.2.holds x.1 = true := by
        rintro (hx | ⟨v, hv, hx⟩)
        · exact Memory.effect_childIs x.2.kept op (h.tasks t (List.mem_of_getElem? ht) x hx)
        · exact Memory.effect_childIs x.2.kept op (h.tasks v hv x hx)
      rcases List.mem_or_eq_of_mem_set hu with hu | rfl
      · exact hkept (.inr ⟨u, hu, hx⟩)
      · rcases turn.knows hx with hx | hx
        · exact hkept (.inl hx)
        · refine Memory.effect_teaches he (fun id b hop => ?_) hx
          subst hop
          obtain ⟨e, hid, hb⟩ := (Option.any_eq_true _ _).1 he
          exact h.entries id e b hid (by simpa using hb)
    · rcases Memory.effect_entryAt_cases he hid with ⟨e, hold, rfl⟩ | ⟨stealth, b', rfl, rfl, -⟩
      · exact Memory.effect_childIs (ChildFact.kept _) op
          (h.entries id e b hold (Op.rewrite_browser hb))
      · obtain rfl : b' = b := Option.some.inj hb
        exact Memory.effect_childIs (ChildFact.kept _) _
          (h.tasks t (List.mem_of_getElem? ht) _ turn.insert_knows)
  · refine ⟨fun u hu x hx => ?_, h.entries⟩
    rcases List.mem_append.1 hu with hu | hu
    · exact h.tasks u hu x hx
    · obtain rfl := List.mem_singleton.1 hu
      cases request <;> cases hx
  · exact ⟨fun u hu x hx => Memory.childIs_exit x.2.kept hrun (h.tasks u hu x hx),
      fun id e b hid hb => Memory.childIs_exit (ChildFact.kept _) hrun (h.entries id e b hid hb)⟩
  · exact ⟨h.tasks, h.entries⟩

/-- **What is known of the children is so** in every reachable state. -/
theorem known_of_reach (h : Reach pool dirs P as s) : s.Known := by
  refine h.preserves (fun _ _ _ hs _ => known_step hs) ⟨fun t ht => ?_, fun id e b hid => ?_⟩
  · cases ht
  · cases hid

/-! ## Settled or held -/

/-- Every child is settled, in the sense of `q`, or held. -/
def State.Owned (q : ChildProcess → Bool) (s : State) : Prop :=
  ∀ c, c < s.memory.children.length →
    s.memory.childIs q c = true ∨ 0 < s.holders (Local.holdsChild c)

/-- **Children stay settled or held** while each destructor that lets go of one finds it settled,
or settles it. -/
theorem owned_step {q : ChildProcess → Bool} (hq : ChildProcess.Kept q) (hrefs : s.Refs)
    (h : s.Owned q)
    (hdestroyed : ∀ i t op t', s.tasks[i]? = some t → Turn pool i t a op t' →
      s.memory.enabled op = true → ∀ l ∈ op.destroyed s.memory.heap, ∀ c, l.holdsChild c = true →
        c < s.memory.children.length → (s.memory.effect op).childIs q c = true)
    (hs : step pool s a = some s') : s'.Owned q := by
  rcases step_cases hs with ⟨i, t, op, t', ht, turn, he, rfl⟩ | ⟨request, rfl, rfl⟩ |
    ⟨c, rfl, hrun, rfl⟩ | ⟨d, rfl, rfl⟩
  · intro c hc
    have hbal := holders_turn (Local.plain_holdsChild c) (Local.splits_holdsChild c) hrefs ht
      turn he
    rcases Memory.lt_effect_children he hc with hlt | ⟨dir, rfl⟩
    · rcases h c hlt with hset | hpos
      · exact .inl (Memory.effect_childIs hq op hset)
      · by_cases hnone : (op.destroyed s.memory.heap).countP (Local.holdsChild c) = 0
        · right
          omega
        · obtain ⟨l, hl, hlc⟩ := List.countP_pos_iff.1 (Nat.pos_of_ne_zero hnone)
          exact .inl (hdestroyed i t op t' ht turn he l hl c hlc hlt)
    · right
      have hmade : (Op.spawn c dir).made.countP (Local.holdsChild c) = 1 := by
        simp [Op.made, Local.holdsChild]
      have hdes : ((Op.spawn c dir).destroyed s.memory.heap).countP (Local.holdsChild c) = 0 := rfl
      omega
  · intro c hc
    have := h c hc
    simpa [State.holders, State.sum, request.task_locals] using this
  · intro j hj
    rcases h j (by simpa [Memory.updateChild] using hj) with hset | hpos
    · exact .inl (Memory.childIs_exit hq hrun hset)
    · exact .inr hpos
  · exact h

end

end Eiger
