import Eiger.Pool.Lifecycle
import Eiger.Pool.Orphans

/-!
# Sessions are isolated from each other

What is done for one session reaches no other one. A child is held by one value at a time, in a
launch, in an entry or in a shutdown (`State.HeldOnce`), and a signal or a `waitpid` of the server
goes to a child that its task holds, or that a destructor of the task's runs on (`Turn.touches`).
So a session that is in the map still has its own browser, whose child nobody has signalled or
reaped, whatever else goes on (`live_untouched`), and what a termination shuts down is the browser
that its session was created with, and that of no other session (`shuts_own_browser`).
-/

namespace Eiger

open Transition Tally

/-! ## What an operation does to the children -/

/-- The operation signals or reaps child `c`. -/
def Op.touches (heap : List ArcInner) (c : ChildId) : Op → Bool
  | .reap j => j = c
  | .sigterm j => j = c
  | .sigkill j => j = c
  | .release frame => (dropped heap frame).any (Local.holdsChild c)
  | _ => false

namespace Memory

variable {m : Memory} {c : ChildId}

/-- An update of another child. -/
theorem updateChild_other {j : ChildId} (f : ChildProcess → ChildProcess) (h : j ≠ c) :
    (m.updateChild j f).children[c]? = m.children[c]? :=
  List.getElem?_modify_ne f m.children h

/-- A destructor leaves a child alone that is not its browser's. -/
theorem dropPlain_other {l : Local} (h : ∀ b, l = .browser b → b.child ≠ c) :
    (m.dropPlain l).children[c]? = m.children[c]? := by
  cases l with
  | dir d => rw [dropPlain, dropDir_children]
  | browser b =>
    rw [dropPlain, dropBrowser, dropDir_children]
    exact updateChild_other killChild (h b rfl)
  | _ => rfl

/-- So do several. -/
theorem dropAll_other {ls : List Local} (h : ∀ b, .browser b ∈ ls → b.child ≠ c) :
    (m.dropAll ls).children[c]? = m.children[c]? := by
  induction ls generalizing m with
  | nil => rfl
  | cons l ls ih =>
    rw [dropAll_cons, ih fun b hb => h b (List.mem_cons_of_mem _ hb),
      dropPlain_other fun b hb => h b (hb ▸ List.mem_cons_self)]

/-- **An operation leaves the children alone that it does not touch.** -/
theorem effect_other {op : Op} (hc : c < m.children.length)
    (h : op.touches m.heap c = false) : (m.effect op).children[c]? = m.children[c]? := by
  cases op with
  | spawn j dir => exact List.getElem?_append_left hc
  | reap j => exact updateChild_other _ (of_decide_eq_false h)
  | sigterm j => exact updateChild_other _ (of_decide_eq_false h)
  | sigkill j => exact updateChild_other _ (of_decide_eq_false h)
  | release frame =>
    rw [effect_release, release_eq]
    refine dropAll_other fun b hb heq => ?_
    rw [Op.touches, List.any_eq_false] at h
    exact h (.browser b) hb (decide_eq_true heq)
  | countRecycle id reason =>
    obtain ⟨_, _, hframe⟩ := m.countRecycle_frame id reason
    rw [hframe]
  | _ => rfl

/-- No operation makes the children fewer. -/
theorem children_length_le (m : Memory) (op : Op) :
    m.children.length ≤ (m.effect op).children.length := by
  cases op with
  | spawn j dir =>
    rw [effect, List.length_append]
    exact Nat.le_add_right _ _
  | release frame =>
    rw [effect_release, release_eq]
    exact Nat.le_of_eq (m.dropAll_length _).symm
  | countRecycle id reason =>
    obtain ⟨_, _, hframe⟩ := m.countRecycle_frame id reason
    rw [hframe]
  | reap j | sigterm j | sigkill j =>
    simp only [effect, updateChild, List.length_modify]
    exact Nat.le_refl _
  | _ => exact Nat.le_refl _

end Memory

/-! ## Who touches a child -/

section

variable {pool : SessionPool} {choice : Choice} {op : Op} {t t' : Task} {heap : List ArcInner}
  {c : ChildId}

/-- What a frame's drop touches is among what its destructors run on. -/
theorem destroyed_of_touches {frame : List Local}
    (h : (Op.release frame).touches heap c = true) :
    0 < ((Op.release frame).destroyed heap).countP (Local.holdsChild c) :=
  List.countP_pos_iff.2 (List.any_eq_true.1 h)

/-- A `create_session` call signals and reaps the child that it holds. -/
theorem CreateStep.touches {caller : Caller} {overrides : SessionOverrides} {pc : CreatePc}
    (step : CreateStep pool caller overrides pc choice op t')
    (htouches : op.touches heap c = true) :
    0 < (op.destroyed heap).countP (Local.holdsChild c) ∨ .child c ∈ Task.createLocals pc := by
  cases step with
  | unwind | giveBack => exact .inl (destroyed_of_touches htouches)
  | foundExited | signal | exited | outlasted | killed =>
    obtain rfl := of_decide_eq_true htouches
    exact .inr List.mem_cons_self
  | _ => cases htouches

/-- A `connect_session` call touches no child but one that it lets go of. -/
theorem ConnectStep.touches {id : Uuid} {pc : ConnectPc} (step : ConnectStep id pc choice op t')
    (htouches : op.touches heap c = true) :
    0 < (op.destroyed heap).countP (Local.holdsChild c) := by
  cases step with
  | leave => exact destroyed_of_touches htouches
  | _ => cases htouches

/-- Nor does the handler of `POST /sessions`. -/
theorem RespondStep.touches {id : Uuid} {pc : RespondPc} (step : RespondStep id pc choice op t')
    (htouches : op.touches heap c = true) :
    0 < (op.destroyed heap).countP (Local.holdsChild c) := by
  cases step with
  | inform | answer => exact destroyed_of_touches htouches
  | _ => cases htouches

/-- `shutdown` signals and reaps its own child. -/
theorem ShutdownStep.touches {j : ChildId} {pc pc' : ShutdownPc}
    (step : ShutdownStep j pc choice op pc') (htouches : op.touches heap c = true) : j = c := by
  cases step with
  | foundExited | exited | signal | terminated | unterminated | killed =>
    exact of_decide_eq_true htouches
  | _ => cases htouches

/-- A `terminate_session` call signals and reaps the child that it shuts down. -/
theorem TerminateStep.touches {caller : Terminator} {id : Uuid} {reason : String} {pc : TermPc}
    (step : TerminateStep caller id reason pc choice op t')
    (htouches : op.touches heap c = true) :
    0 < (op.destroyed heap).countP (Local.holdsChild c) ∨
      ∃ b, .browser b ∈ Task.termLocals id pc ∧ b.child = c := by
  cases step with
  | shut hs => exact .inr ⟨_, List.mem_cons_self, hs.touches htouches⟩
  | dropShut | dropEnded | leave => exact .inl (destroyed_of_touches htouches)
  | _ => cases htouches

/-- A maintenance pass touches no child but one that it lets go of. -/
theorem PassStep.touches {options : PoolOptions} {pc : PassPc}
    (step : PassStep options pc choice op t') (htouches : op.touches heap c = true) :
    0 < (op.destroyed heap).countP (Local.holdsChild c) := by
  cases step with
  | keep => exact destroyed_of_touches htouches
  | _ => cases htouches

/-- **A task touches a child that it holds**, or that it lets go of. -/
theorem TaskStep.touches (step : TaskStep pool t choice op t')
    (htouches : op.touches heap c = true) :
    0 < (op.destroyed heap).countP (Local.holdsChild c) ∨
      0 < t.locals.countP (Local.holdsChild c) := by
  cases step with
  | create step =>
    obtain hdestroyed | hheld := step.touches htouches
    · exact .inl hdestroyed
    · exact .inr (List.countP_pos_iff.2 ⟨_, hheld, decide_eq_true rfl⟩)
  | respond step => exact .inl (step.touches htouches)
  | connect step => exact .inl (step.touches htouches)
  | terminate step =>
    obtain hdestroyed | ⟨b, hb, hc⟩ := step.touches htouches
    · exact .inl hdestroyed
    · refine .inr (List.countP_pos_iff.2 ⟨.browser b, ?_, decide_eq_true hc⟩)
      exact List.mem_append_left _ (List.mem_append_left _ hb)
  | pass step => exact .inl (step.touches htouches)
  | notUpgraded | complete | drop => exact .inl (destroyed_of_touches htouches)
  | _ => cases htouches

/-- So does a turn of a task. -/
theorem Turn.touches {i : Nat} {a : Action} (turn : Turn pool i t a op t')
    (htouches : op.touches heap c = true) :
    0 < (op.destroyed heap).countP (Local.holdsChild c) ∨
      0 < t.locals.countP (Local.holdsChild c) := by
  cases turn with
  | perform h => exact (Task.perform_step h).touches htouches
  | drop => exact .inl (destroyed_of_touches htouches)

end

/-! ## A child has one holder -/

/-- A child has one holder at most, and none before it is spawned. -/
structure State.HeldOnce (s : State) : Prop where
  once : ∀ c, s.holders (Local.holdsChild c) ≤ 1
  none : ∀ c, s.memory.children.length ≤ c → s.holders (Local.holdsChild c) = 0

section

variable {pool : SessionPool} {dirs : Finset PathBuf} {P : State → Action → Prop} {s s' : State}
  {a : Action} {as : List Action} {c : ChildId}

/-- An operation makes the child that it spawns, and no other one. -/
theorem Op.made_holdsChild {m : Memory} {op : Op} (he : m.enabled op = true) (c : ChildId) :
    op.made.countP (Local.holdsChild c) = 0 ∨
      op.made.countP (Local.holdsChild c) = 1 ∧ c = m.children.length ∧
        c < (m.effect op).children.length := by
  cases op with
  | spawn j dir =>
    obtain rfl : j = m.children.length := by simpa [Memory.enabled] using he
    by_cases hc : m.children.length = c
    · subst hc
      refine .inr ⟨by simp [made, Local.holdsChild], rfl, ?_⟩
      rw [Memory.effect, List.length_append]
      exact Nat.lt_succ_self _
    · exact .inl (by simp [made, Local.holdsChild, hc])
  | _ => exact .inl rfl

/-- Every action keeps it so. -/
theorem heldOnce_step (hrefs : s.Refs) (h : s.HeldOnce) (hs : step pool s a = some s') :
    s'.HeldOnce := by
  rcases step_cases hs with ⟨i, t, op, t', ht, turn, he, rfl⟩ | ⟨request, rfl, rfl⟩ |
    ⟨j, rfl, -, rfl⟩ | ⟨d, rfl, rfl⟩
  · have hturn : ∀ c, ({ memory := s.memory.effect op, tasks := s.tasks.set i t' } : State).holders
        (Local.holdsChild c) ≤
          s.holders (Local.holdsChild c) + op.made.countP (Local.holdsChild c) := by
      intro c
      have hbal := holders_turn (Local.plain_holdsChild c) (Local.splits_holdsChild c) hrefs ht
        turn he
      omega
    refine ⟨fun c => ?_, fun c hc => ?_⟩
    · have hle := hturn c
      obtain hmade | ⟨hmade, hnew, -⟩ := Op.made_holdsChild he c
      · have honce := h.once c
        omega
      · have hnone := h.none c (Nat.le_of_eq hnew.symm)
        omega
    · have hle := hturn c
      have hgrows := s.memory.children_length_le op
      have hnone := h.none c (Nat.le_trans hgrows hc)
      obtain hmade | ⟨-, -, hlt⟩ := Op.made_holdsChild he c
      · omega
      · exact absurd hlt (Nat.not_lt.2 hc)
  · have hsame : ∀ p, ({ s with tasks := s.tasks ++ [request.task] } : State).holders p
        = s.holders p := by
      intro p
      simp [State.holders, State.sum, request.task_locals]
    exact ⟨fun c => (hsame _).symm ▸ h.once c, fun c hc => (hsame _).trans (h.none c hc)⟩
  · refine ⟨h.once, fun c hc => h.none c ?_⟩
    rwa [Memory.updateChild, List.length_modify] at hc
  · exact ⟨h.once, h.none⟩

/-- Every child of a reachable state has one holder at most. -/
theorem heldOnce_of_reach (h : Reach pool dirs P as s) : s.HeldOnce :=
  h.preserves_of (J := State.Refs) (fun _ _ h => refs_of_reach h)
    (fun _ _ _ hrefs _ h _ hs => heldOnce_step hrefs h hs) ⟨fun _ => Nat.zero_le _, fun _ _ => rfl⟩

/-- A turn does not touch a child that another holder keeps. -/
theorem Turn.not_touches {i : Nat} {t t' : Task} {op : Op} (hrefs : s.Refs) (honce : s.HeldOnce)
    (ht : s.tasks[i]? = some t) (turn : Turn pool i t a op t') (he : s.memory.enabled op = true)
    (hc : c < s.memory.children.length) (hbefore : t.locals.countP (Local.holdsChild c) = 0)
    (hafter : 0 < ({ memory := s.memory.effect op, tasks := s.tasks.set i t' } : State).holders
      (Local.holdsChild c)) :
    op.touches s.memory.heap c = false := by
  cases htouches : op.touches s.memory.heap c with
  | false => rfl
  | true =>
    have hbal := holders_turn (Local.plain_holdsChild c) (Local.splits_holdsChild c) hrefs ht
      turn he
    have hmade : op.made.countP (Local.holdsChild c) = 0 := by
      obtain hmade | ⟨-, hnew, -⟩ := Op.made_holdsChild he c
      · exact hmade
      · exact absurd hc (Nat.not_lt.2 (Nat.le_of_eq hnew.symm))
    have hle := honce.once c
    obtain hdestroyed | hheld := turn.touches htouches
    · omega
    · omega

/-- The entry of a session in the map holds its browser. -/
theorem held_of_live {id : Uuid} {e : SessionEntry} {b : LaunchedBrowser} (hrefs : s.Refs)
    (hid : id ∈ s.memory.sessions) (he : s.memory.entryAt id = some e) (hb : e.browser = some b) :
    ∃ a, s.memory.heap[id]? = some a ∧
      0 < if 0 < a.strong then a.entry.contents.countP (Local.holdsChild b.child) else 0 := by
  obtain ⟨a, ha, hstrong⟩ := Memory.exists_of_strong ((hrefs.strong_pos id).2 (.inl hid))
  have hentry : a.entry = e := by
    rw [Memory.entryAt, ha] at he
    exact Option.some.inj he
  refine ⟨a, ha, ?_⟩
  rw [if_pos hstrong, hentry]
  refine List.countP_pos_iff.2 ⟨.browser b, ?_, decide_eq_true rfl⟩
  rw [SessionEntry.contents, hb]
  exact List.mem_cons_self

/-- So the entries hold its child. -/
theorem held_pos_of_live {id : Uuid} {e : SessionEntry} {b : LaunchedBrowser} (hrefs : s.Refs)
    (hid : id ∈ s.memory.sessions) (he : s.memory.entryAt id = some e) (hb : e.browser = some b) :
    0 < held s.memory.heap (Local.holdsChild b.child) :=
  (Memory.held_pos_iff rfl).2
    ⟨id, e, b, (hrefs.strong_pos id).2 (.inl hid), he, hb, decide_eq_true rfl⟩

/-! ## Untouched children -/

/-- The server has neither signalled nor reaped the child. -/
def ChildProcess.untouched (ch : ChildProcess) : Bool :=
  !ch.sigterm && !ch.sigkill && ch.status ≠ .reaped

/-- The child of a `create_session` call whose launch has not failed. -/
def CreatePc.launchingChild : CreatePc → Option ChildId
  | .waiting _ c _ => some c
  | .injecting _ b => some b.child
  | .launched _ b => some b.child
  | .recording _ b => some b.child
  | .recorded _ b => some b.child
  | _ => none

/-- The child that a task is launching. -/
def Task.launchingChild : Task → Option ChildId
  | .creating _ _ pc => pc.launchingChild
  | _ => none

/-- It holds the child. -/
theorem Task.holds_launching {t : Task} (h : t.launchingChild = some c) :
    0 < t.locals.countP (Local.holdsChild c) := by
  cases t with
  | creating caller overrides pc =>
    cases pc with
    | waiting options j dir =>
      cases h
      exact List.countP_pos_iff.2 ⟨.child c, List.mem_cons_self, decide_eq_true rfl⟩
    | injecting options b | launched options b | recording options b | recorded options b =>
      cases h
      exact List.countP_pos_iff.2 ⟨.browser b, List.mem_cons_self, decide_eq_true rfl⟩
    | _ => cases h
  | _ => cases h

/-- A launch begins with the spawn of its child, and touches it no more. -/
theorem CreateStep.launching {caller : Caller} {overrides : SessionOverrides} {pc : CreatePc}
    {choice : Choice} {op : Op} {t' : Task} (heap : List ArcInner)
    (step : CreateStep pool caller overrides pc choice op t')
    (hlaunching : t'.launchingChild = some c) :
    pc.launchingChild = some c ∧ op.touches heap c = false ∨ ∃ dir, op = .spawn c dir := by
  cases step with
  | spawn =>
    cases hlaunching
    exact .inr ⟨_, rfl⟩
  | readyStealth hb | readyPlain hb =>
    obtain rfl := hb
    cases hlaunching
    exact .inl ⟨rfl, rfl⟩
  | injected | storeReady | clearError =>
    cases hlaunching
    exact .inl ⟨rfl, rfl⟩
  | count => cases caller <;> cases hlaunching
  | _ => cases hlaunching

/-- So it is with every task. -/
theorem TaskStep.launching {t t' : Task} {choice : Choice} {op : Op} (heap : List ArcInner)
    (step : TaskStep pool t choice op t') (hlaunching : t'.launchingChild = some c) :
    t.launchingChild = some c ∧ op.touches heap c = false ∨ ∃ dir, op = .spawn c dir := by
  cases step with
  | create step => exact step.launching heap hlaunching
  | @terminate caller _ _ _ _ _ _ step =>
    cases step with
    | leave => cases caller <;> cases hlaunching
    | _ => cases hlaunching
  | respond step => cases step <;> cases hlaunching
  | connect step => cases step <;> cases hlaunching
  | pass step => cases step.move <;> cases hlaunching
  | _ => cases hlaunching

/-- A request launches nothing when it starts. -/
theorem Request.task_launching (request : Request) : request.task.launchingChild = none := by
  cases request <;> rfl

/-- The browser that is inserted is that of a launch. -/
theorem Turn.insert_launching {i : Nat} {t t' : Task} {id : Uuid} {stealth : Bool}
    {b : LaunchedBrowser} (turn : Turn pool i t a (.insert id stealth b) t') :
    t.launchingChild = some b.child := by
  cases turn with
  | perform h =>
    cases Task.perform_move h with
    | insert => rfl
    | create hq | respond hq | responded hq | shut hq | report hq | pass hq | condemn hq
    | read hq => cases hq

/-- The browser of a session is taken after the session has been removed. -/
theorem Turn.take_removed {i : Nat} {t t' : Task} {id : Uuid} {b : LaunchedBrowser}
    (hhist : s.History) (ht : s.tasks[i]? = some t)
    (turn : Turn pool i t a (.takeBrowser id b) t') :
    id ∉ s.memory.sessions ∧ ∃ caller reason,
      t' = .terminating caller id reason (.shutting b .start) := by
  cases turn with
  | perform h =>
    cases Task.perform_move h with
    | @take caller _ reason =>
      refine ⟨?_, caller, reason, rfl⟩
      have hpending : (Task.terminating caller id reason .taking).pending id Milestone.shutdown.rank
          = 1 := by
        simp [Task.pending, Task.stage, TermPc.rank, Milestone.rank]
      apply hhist.not_mem
      have hle := le_tally (f := Task.pending id Milestone.shutdown.rank) ht
      have honce := hhist.once id .shutdown (by decide)
      simp only [State.sum] at honce
      omega
    | create hq | respond hq | responded hq | shut hq | report hq | pass hq | condemn hq
    | read hq => cases hq

/-- What an operation leaves of an entry's fixed fields. -/
theorem Op.rewrite_fixed (op : Op) (now : Instant) (id : Uuid) (e : SessionEntry) :
    (op.rewrite now id e).pid = e.pid ∧ (op.rewrite now id e).browserWsUrl = e.browserWsUrl := by
  cases op with
  | claim j | markInUse j | touch j | setKilling j | setKillReason j | takeBrowser j | setDead j =>
    by_cases hj : j = id <;> simp [rewrite, hj]
  | checkHealth j since due => by_cases hj : j = id <;> cases due <;> simp [rewrite, hj]
  | _ => exact ⟨rfl, rfl⟩

/-- Only `takeBrowser` takes an entry's browser. -/
theorem Op.rewrite_keeps {op : Op} {id : Uuid} (h : ∀ b, op ≠ .takeBrowser id b) (now : Instant)
    (e : SessionEntry) : (op.rewrite now id e).browser = e.browser := by
  cases op with
  | takeBrowser j b =>
    have hj : j ≠ id := fun heq => h b (heq ▸ rfl)
    simp [rewrite, hj]
  | claim j | markInUse j | touch j | setKilling j | setKillReason j | setDead j =>
    by_cases hj : j = id <;> simp [rewrite, hj]
  | checkHealth j since due => by_cases hj : j = id <;> cases due <;> simp [rewrite, hj]
  | _ => rfl

/-- The children of the launches and of the sessions in the map are untouched. -/
structure State.Untouched (s : State) : Prop where
  launches : ∀ t ∈ s.tasks, ∀ c, t.launchingChild = some c →
    s.memory.childIs ChildProcess.untouched c = true
  live : ∀ id ∈ s.memory.sessions, ∃ e b, s.memory.entryAt id = some e ∧ e.browser = some b ∧
    s.memory.childIs ChildProcess.untouched b.child = true

/-- What is true of a child stays true over an operation that does not touch it. -/
theorem Memory.childIs_other {m : Memory} {op : Op} {q : ChildProcess → Bool}
    (h : m.childIs q c = true) (htouches : op.touches m.heap c = false) :
    (m.effect op).childIs q c = true := by
  rw [childIs, effect_other (lt_of_childIs h) htouches]
  exact h

/-- The exit of a child is not the server's doing. -/
theorem Memory.untouched_exit {m : Memory} {j : ChildId}
    (h : m.childIs ChildProcess.untouched c = true) :
    (m.updateChild j fun ch => { ch with status := .exited }).childIs ChildProcess.untouched c
      = true := by
  refine childIs_updateChild (fun ch hch => ?_) h
  simp only [ChildProcess.untouched, Bool.and_eq_true] at hch ⊢
  exact ⟨hch.1, rfl⟩

/-- A turn leaves the launches of the other tasks alone, and its own. -/
theorem Untouched.launches_turn {i : Nat} {t t' : Task} {op : Op} (hrefs : s.Refs)
    (honce : s.HeldOnce) (h : s.Untouched) (ht : s.tasks[i]? = some t)
    (turn : Turn pool i t a op t') (he : s.memory.enabled op = true) {j : Nat} {u : Task}
    (hu : (s.tasks.set i t')[j]? = some u) (hlaunching : u.launchingChild = some c) :
    (s.memory.effect op).childIs ChildProcess.untouched c = true := by
  rw [List.getElem?_set] at hu
  split at hu
  · next hij =>
    split at hu
    · cases hu
      cases turn with
      | perform hperform =>
        obtain ⟨hold, htouches⟩ | ⟨dir, rfl⟩ :=
          (Task.perform_step hperform).launching s.memory.heap hlaunching
        · exact Memory.childIs_other (h.launches t (List.mem_of_getElem? ht) c hold) htouches
        · obtain rfl : c = s.memory.children.length := by simpa [Memory.enabled] using he
          simp [Memory.effect, Memory.childIs, ChildProcess.untouched]
      | drop => cases hlaunching
    · cases hu
  · next hij =>
    have hchild := h.launches u (List.mem_of_getElem? hu) c hlaunching
    have hholds := Task.holds_launching hlaunching
    have hsum := add_le_tally (f := fun t : Task => t.locals.countP (Local.holdsChild c)) hij ht hu
    have hle := honce.once c
    refine Memory.childIs_other hchild
      (turn.not_touches hrefs honce ht he (Memory.lt_of_childIs hchild) ?_ ?_)
    · simp only [State.holders, State.sum] at hle
      omega
    · have hkept : (s.tasks.set i t')[j]? = some u := by rw [List.getElem?_set, if_neg hij, hu]
      have hpos := le_tally (f := fun t : Task => t.locals.countP (Local.holdsChild c)) hkept
      simp only [State.holders, State.sum]
      omega

/-- A turn leaves the children of the sessions alone that stay in the map. -/
theorem Untouched.live_turn {i : Nat} {t t' : Task} {op : Op} (hrefs : s.Refs)
    (hhist : s.History) (honce : s.HeldOnce) (h : s.Untouched) (ht : s.tasks[i]? = some t)
    (turn : Turn pool i t a op t') (he : s.memory.enabled op = true)
    (hrefs' : ({ memory := s.memory.effect op, tasks := s.tasks.set i t' } : State).Refs)
    {id : Uuid} (hid : id ∈ op.sessions s.memory.sessions) :
    ∃ e b, (s.memory.effect op).entryAt id = some e ∧ e.browser = some b ∧
      (s.memory.effect op).childIs ChildProcess.untouched b.child = true := by
  have hmem : id ∈ (s.memory.effect op).sessions := by rwa [Memory.effect_sessions]
  by_cases hinsert : ∃ stealth b, op = .insert id stealth b
  · obtain ⟨stealth, b, rfl⟩ := hinsert
    obtain rfl : id = s.memory.heap.length := by simpa [Memory.enabled] using he
    have hchild := h.launches t (List.mem_of_getElem? ht) b.child turn.insert_launching
    refine ⟨.new s.memory.heap.length stealth s.memory.now b, b, ?_, rfl,
      Memory.childIs_other hchild rfl⟩
    simp [Memory.effect, Memory.entryAt]
  · have hold : id ∈ s.memory.sessions := by
      cases op with
      | insert j stealth b =>
        obtain rfl | hold := Finset.mem_insert.1 hid
        · exact absurd ⟨_, _, rfl⟩ hinsert
        · exact hold
      | remove j => exact Finset.mem_of_mem_erase hid
      | _ => exact hid
    obtain ⟨e, b, hentry, hb, hchild⟩ := h.live id hold
    have hkeeps : (op.rewrite s.memory.now id e).browser = some b := by
      rw [Op.rewrite_keeps ?_ s.memory.now e, hb]
      rintro b' rfl
      exact (turn.take_removed hhist ht).1 hold
    have hentry' := Memory.effect_entryAt_some op hentry
    have hle := honce.once b.child
    have hbefore : t.locals.countP (Local.holdsChild b.child) = 0 := by
      have hheld := held_pos_of_live hrefs hold hentry hb
      have htask := le_tally (f := fun t : Task => t.locals.countP (Local.holdsChild b.child)) ht
      simp only [State.holders, State.sum] at hle
      omega
    have hafter := held_pos_of_live hrefs' hmem hentry' hkeeps
    exact ⟨_, b, hentry', hkeeps, Memory.childIs_other hchild
      (turn.not_touches hrefs honce ht he (Memory.lt_of_childIs hchild) hbefore
        (Nat.lt_of_lt_of_le hafter (Nat.le_add_left _ _)))⟩

/-- Every action keeps the children of the launches and of the sessions untouched. -/
theorem untouched_step (hrefs : s.Refs) (hhist : s.History) (honce : s.HeldOnce)
    (h : s.Untouched) (hs : step pool s a = some s') : s'.Untouched := by
  have hrefs' := refs_step hrefs hs
  rcases step_cases hs with ⟨i, t, op, t', ht, turn, he, rfl⟩ | ⟨request, rfl, rfl⟩ |
    ⟨j, rfl, -, rfl⟩ | ⟨d, rfl, rfl⟩
  · refine ⟨fun u hu c hlaunching => ?_, fun id hid => ?_⟩
    · obtain ⟨j, hj⟩ := List.mem_iff_getElem?.1 hu
      exact Untouched.launches_turn hrefs honce h ht turn he hj hlaunching
    · rw [Memory.effect_sessions] at hid
      exact Untouched.live_turn hrefs hhist honce h ht turn he hrefs' hid
  · refine ⟨fun u hu c hlaunching => ?_, h.live⟩
    obtain hu | hu := List.mem_append.1 hu
    · exact h.launches u hu c hlaunching
    · rw [List.mem_singleton.1 hu, request.task_launching] at hlaunching
      cases hlaunching
  · refine ⟨fun u hu c hlaunching => Memory.untouched_exit (h.launches u hu c hlaunching),
      fun id hid => ?_⟩
    obtain ⟨e, b, hentry, hb, hchild⟩ := h.live id hid
    exact ⟨e, b, hentry, hb, Memory.untouched_exit hchild⟩
  · exact ⟨h.launches, h.live⟩

/-- They are so in every reachable state. -/
theorem untouched_of_reach (h : Reach pool dirs P as s) : s.Untouched := by
  refine h.preserves_of (J := fun s => s.Refs ∧ s.History ∧ s.HeldOnce)
    (fun _ _ h => ⟨refs_of_reach h, history_of_reach h, heldOnce_of_reach h⟩)
    (fun _ _ _ hj _ h _ hs => untouched_step hj.1 hj.2.1 hj.2.2 h hs) ⟨?_, ?_⟩
  · intro t ht
    cases ht
  · intro id hid
    exact absurd hid (Finset.notMem_empty id)

/-! ## The browser of a session -/

/-- The browser in an entry, or taken from it by a shutdown, is the one it was made for. -/
structure State.Matched (s : State) : Prop where
  entries : ∀ id e b, s.memory.entryAt id = some e → e.browser = some b →
    e.pid = b.child ∧ e.browserWsUrl = b.browserWsUrl
  shutdowns : ∀ t ∈ s.tasks, ∀ caller id reason b pc,
    t = .terminating caller id reason (.shutting b pc) →
    ∃ e, s.memory.entryAt id = some e ∧ e.pid = b.child ∧ e.browserWsUrl = b.browserWsUrl

/-- A shutdown goes on with its browser, or has just taken it. -/
theorem Turn.shutting {i : Nat} {t : Task} {op : Op} {caller : Terminator} {id : Uuid}
    {reason : String} {b : LaunchedBrowser} {pc : ShutdownPc}
    (turn : Turn pool i t a op (.terminating caller id reason (.shutting b pc))) :
    (∃ pc', t = .terminating caller id reason (.shutting b pc')) ∨ op = .takeBrowser id b := by
  cases turn with
  | perform h =>
    generalize ht' : Task.terminating caller id reason (.shutting b pc) = t' at h
    cases Task.perform_move h with
    | take =>
      cases ht'
      exact .inr rfl
    | shut =>
      cases ht'
      exact .inl ⟨_, rfl⟩
    | @count caller => cases caller <;> cases ht'
    | @leave caller => cases caller <;> cases ht'
    | _ => cases ht'

/-- Every action keeps the browsers with their sessions. -/
theorem matched_step (h : s.Matched) (hs : step pool s a = some s') : s'.Matched := by
  rcases step_cases hs with ⟨i, t, op, t', ht, turn, he, rfl⟩ | ⟨request, rfl, rfl⟩ |
    ⟨j, rfl, -, rfl⟩ | ⟨d, rfl, rfl⟩
  · have hkept : ∀ id e, s.memory.entryAt id = some e → ∃ e',
        (s.memory.effect op).entryAt id = some e' ∧ e'.pid = e.pid ∧
          e'.browserWsUrl = e.browserWsUrl := by
      intro id e hentry
      exact ⟨_, Memory.effect_entryAt_some op hentry, op.rewrite_fixed s.memory.now id e⟩
    refine ⟨fun id e b hentry hb => ?_, fun u hu caller id reason b pc hpc => ?_⟩
    · obtain ⟨old, hold, rfl⟩ | ⟨stealth, b', -, rfl, -⟩ := Memory.effect_entryAt_cases he hentry
      · rw [(op.rewrite_fixed _ _ _).1, (op.rewrite_fixed _ _ _).2]
        exact h.entries id old b hold (Op.rewrite_browser hb)
      · obtain rfl : b' = b := Option.some.inj hb
        exact ⟨rfl, rfl⟩
    · have hfound : ∃ e, s.memory.entryAt id = some e ∧ e.pid = b.child ∧
          e.browserWsUrl = b.browserWsUrl := by
        obtain hu | rfl := List.mem_or_eq_of_mem_set hu
        · exact h.shutdowns u hu caller id reason b pc hpc
        · subst hpc
          obtain ⟨pc', rfl⟩ | rfl := turn.shutting
          · exact h.shutdowns _ (List.mem_of_getElem? ht) caller id reason b pc' rfl
          · obtain ⟨e, hentry, hb⟩ := (Option.any_eq_true _ _).1 he
            exact ⟨e, hentry, h.entries id e b hentry (of_decide_eq_true hb)⟩
      obtain ⟨e, hentry, hpid, hurl⟩ := hfound
      obtain ⟨e', hentry', hpid', hurl'⟩ := hkept id e hentry
      exact ⟨e', hentry', hpid'.trans hpid, hurl'.trans hurl⟩
  · refine ⟨h.entries, fun u hu caller id reason b pc hpc => ?_⟩
    obtain hu | hu := List.mem_append.1 hu
    · exact h.shutdowns u hu caller id reason b pc hpc
    · rw [List.mem_singleton.1 hu] at hpc
      cases request <;> cases hpc
  · exact ⟨h.entries, h.shutdowns⟩
  · exact ⟨h.entries, h.shutdowns⟩

/-- They are so in every reachable state. -/
theorem matched_of_reach (h : Reach pool dirs P as s) : s.Matched := by
  refine h.preserves (fun _ _ _ h _ hs => matched_step h hs) ⟨?_, ?_⟩
  · intro id e b hentry
    cases hentry
  · intro t ht
    cases ht

/-- Two sessions in the map have different children. -/
theorem pid_injective {id j : Uuid} {e e' : SessionEntry} (h : Reach pool dirs P as s)
    (hid : id ∈ s.memory.sessions) (hj : j ∈ s.memory.sessions)
    (he : s.memory.entryAt id = some e) (he' : s.memory.entryAt j = some e')
    (hpid : e.pid = e'.pid) : id = j := by
  have hrefs := refs_of_reach h
  have hmatched := matched_of_reach h
  obtain ⟨_, b, hentry, hb, -⟩ := (untouched_of_reach h).live id hid
  obtain ⟨_, b', hentry', hb', -⟩ := (untouched_of_reach h).live j hj
  cases he.symm.trans hentry
  cases he'.symm.trans hentry'
  have hchild : b'.child = b.child := by
    rw [← (hmatched.entries id e b he hb).1, ← (hmatched.entries j e' b' he' hb').1, hpid]
  by_contra hne
  obtain ⟨arc, harc, hpos⟩ := held_of_live hrefs hid he hb
  obtain ⟨arc', harc', hpos'⟩ := held_of_live hrefs hj he' hb'
  rw [hchild] at hpos'
  have hle := (heldOnce_of_reach h).once b.child
  have htwo := add_le_tally (f := fun a : ArcInner =>
    if 0 < a.strong then a.entry.contents.countP (Local.holdsChild b.child) else 0) hne harc harc'
  simp only [State.holders, held] at hle
  omega

/-- **Sessions in the map are untouched.** In every run, with drops and terminations of other
sessions anywhere, a session in the map has the browser in its entry that it was created with. The
child of this browser has been neither signalled nor reaped by the server, and no other session in
the map has it. -/
theorem live_untouched {id : Uuid} (h : Reach pool dirs P as s) (hid : id ∈ s.memory.sessions) :
    ∃ e b ch, s.memory.entryAt id = some e ∧ e.browser = some b ∧ e.pid = b.child ∧
      e.browserWsUrl = b.browserWsUrl ∧ s.memory.children[b.child]? = some ch ∧
      ch.sigterm = false ∧ ch.sigkill = false ∧ ch.status ≠ .reaped ∧
      ∀ j ∈ s.memory.sessions, ∀ e', s.memory.entryAt j = some e' → e'.pid = e.pid → j = id := by
  obtain ⟨e, b, hentry, hb, hchild⟩ := (untouched_of_reach h).live id hid
  obtain ⟨hpid, hurl⟩ := (matched_of_reach h).entries id e b hentry hb
  obtain ⟨ch, hch, huntouched⟩ := (Option.any_eq_true _ _).1 hchild
  simp only [ChildProcess.untouched, Bool.and_eq_true, Bool.not_eq_true', decide_eq_true_eq]
    at huntouched
  obtain ⟨⟨hterm, hkill⟩, hreaped⟩ := huntouched
  exact ⟨e, b, ch, hentry, hb, hpid, hurl, hch, hterm, hkill, hreaped,
    fun j hj e' he' heq => pid_injective h hj hid he' hentry heq⟩

/-- **A termination shuts down its own browser.** In every run, the browser that a
`terminate_session` call shuts down is the one that its session was created with, and no session in
the map has the child of it. -/
theorem shuts_own_browser {caller : Terminator} {id : Uuid} {reason : String}
    {b : LaunchedBrowser} {pc : ShutdownPc} (h : Reach pool dirs P as s)
    (ht : .terminating caller id reason (.shutting b pc) ∈ s.tasks) :
    (∃ e, s.memory.entryAt id = some e ∧ e.pid = b.child ∧ e.browserWsUrl = b.browserWsUrl) ∧
      ∀ j ∈ s.memory.sessions, ∀ e', s.memory.entryAt j = some e' → e'.pid ≠ b.child := by
  refine ⟨(matched_of_reach h).shutdowns _ ht caller id reason b pc rfl,
    fun j hj e' he' hpid => ?_⟩
  obtain ⟨_, b', hentry, hb', -⟩ := (untouched_of_reach h).live j hj
  cases he'.symm.trans hentry
  have hchild : b'.child = b.child := by
    rw [← ((matched_of_reach h).entries j e' b' he' hb').1, hpid]
  obtain ⟨i, hi⟩ := List.mem_iff_getElem?.1 ht
  have hheld := held_pos_of_live (refs_of_reach h) hj he' hb'
  rw [hchild] at hheld
  have htask := le_tally (f := fun t : Task => t.locals.countP (Local.holdsChild b.child)) hi
  have hholds : 0 < (Task.terminating caller id reason (.shutting b pc)).locals.countP
      (Local.holdsChild b.child) := List.countP_pos_iff.2 ⟨.browser b,
    List.mem_append_left _ (List.mem_append_left _ List.mem_cons_self), decide_eq_true rfl⟩
  have hle := (heldOnce_of_reach h).once b.child
  simp only [State.holders, State.sum] at hle
  omega

end

/-- Two sessions are created; the first is deleted, up to the signals to its browser. -/
def deleteFirst : List Action :=
  .arrive (.create .rest .default) :: insertActions 0 0 "/tmp/eiger-chrome-a" 0 ++
    .task 0 .go :: .arrive (.create .rest .default) ::
      insertActions 1 1 "/tmp/eiger-chrome-b" 1 ++
    .task 1 .go :: .arrive (.delete 0) ::
      (terminateActions 2 (exampleBrowser 0 "/tmp/eiger-chrome-a")).take 9

/-- After that the first child has been killed, and the second session is as it was. -/
theorem live_untouched_second :
    (exampleState 2 deleteFirst).memory.children[0]?.map (·.sigkill) = some true ∧
    ∃ e b ch, (exampleState 2 deleteFirst).memory.entryAt 1 = some e ∧ e.browser = some b ∧
      (exampleState 2 deleteFirst).memory.children[b.child]? = some ch ∧ ch.sigterm = false ∧
      ch.sigkill = false := by
  have hrun : Reach (examplePool 2) ∅ anyAction deleteFirst (exampleState 2 deleteFirst) :=
    run_after (by decide)
  obtain ⟨e, b, ch, hentry, hb, -, -, hch, hterm, hkill, -⟩ :=
    @live_untouched _ _ _ _ _ 1 hrun (by decide)
  exact ⟨by decide, e, b, ch, hentry, hb, hch, hterm, hkill⟩

/-- The deletion has shut down the browser of the first session. -/
theorem shuts_own_browser_first :
    ∃ e, (exampleState 2 deleteFirst).memory.entryAt 0 = some e ∧ e.pid = 0 := by
  have hrun : Reach (examplePool 2) ∅ anyAction deleteFirst (exampleState 2 deleteFirst) :=
    run_after (by decide)
  obtain ⟨⟨e, hentry, hpid, -⟩, -⟩ := @shuts_own_browser _ _ _ _ _ .delete 0 "delete requested"
    (exampleBrowser 0 "/tmp/eiger-chrome-a") .awaitKill hrun (by decide)
  exact ⟨e, hentry, hpid⟩

end Eiger
