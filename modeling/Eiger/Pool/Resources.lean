import Eiger.Pool.Effects
import Eiger.Pool.Steps

/-!
# Ownership of resources

Permits, entry references, children, user data directories and browsers are owned by tasks and
by entries, and are handed on by the operations. `Op.gain` and `Op.loss` say what an operation
hands to its task and takes from it; `Turn.conserves` is the balance over one turn, of a step as
of a drop: what a task owned and gains is what it owns after and loses.

From it, `refs_of_reach`: in every reachable state an entry's strong count is the number of its
owners, the sessions map and the tasks that hold a reference.
-/

namespace Eiger

open Transition Tally

namespace Op

/-- What an operation hands to the task that performs it. -/
def gain : Op → List Local
  | .acquire => [.permit]
  | .createDirAll path => [.dir (.persistent path)]
  | .tempdir path => [.dir (.temporary path)]
  | .spawn c _ => [.child c]
  | .assemble b => [.browser b]
  | .insert id _ _ => [.entry id]
  | .cloneEntry id => [.entry id]
  | .remove id => [.entry id]
  | .takeBrowser _ b => [.browser b]
  | _ => []

/-- What an operation takes from the task that performs it. -/
def loss : Op → List Local
  | .assemble b => [.child b.child, .dir b.userDataDir]
  | .insert _ _ b => [.browser b, .permit]
  | .release frame => frame
  | _ => []

end Op

/-! ## The balance of a turn -/

/-- The task that took the step owned what it owns now and lost, less what it gained. -/
def Balanced (t : Task) (op : Op) (t' : Task) : Prop :=
  ∀ p : Local → Bool, t.locals.countP p + op.gain.countP p = t'.locals.countP p + op.loss.countP p

section

variable {pool : SessionPool} {choice : Choice} {op : Op} {t t' : Task} {id : Uuid}

/-- A `create_session` call keeps the balance. -/
theorem CreateStep.balanced {caller : Caller} {overrides : SessionOverrides} {pc : CreatePc}
    (step : CreateStep pool caller overrides pc choice op t') :
    Balanced (.creating caller overrides pc) op t' := by
  intro p
  cases step with
  | persistent | temporary | spawn | insert | count =>
    cases caller <;>
      simp [Task.locals, Task.createLocals, Op.gain, Op.loss, Task.created, Task.respondLocals,
        List.countP_cons] <;> omega
  | readyStealth hb | readyPlain hb =>
    obtain rfl := hb
    simp [Task.locals, Task.createLocals, Op.gain, Op.loss, List.countP_cons]
    omega
  | _ => simp [Task.locals, Task.createLocals, Op.gain, Op.loss, List.countP_cons] <;> omega

/-- A `connect_session` call keeps the balance. -/
theorem ConnectStep.balanced {pc : ConnectPc} (step : ConnectStep id pc choice op t') :
    Balanced (.connecting id pc) op t' := by
  intro p
  cases step <;> simp [Task.locals, Task.connectLocals, Op.gain, Op.loss]

/-- The `POST /sessions` handler keeps the balance. -/
theorem RespondStep.balanced {pc : RespondPc} (step : RespondStep id pc choice op t') :
    Balanced (.responding id pc) op t' := by
  intro p
  cases step <;> simp [Task.locals, Task.respondLocals, Op.gain, Op.loss, List.countP_cons]

/-- `LaunchedBrowser::shutdown` gains and loses nothing until the drop at its end. -/
theorem ShutdownStep.gain {c : ChildId} {pc pc' : ShutdownPc}
    (step : ShutdownStep c pc choice op pc') : op.gain = [] ∧ op.loss = [] := by
  cases step <;> exact ⟨rfl, rfl⟩

/-- What the caller of `terminate_session` goes on with. -/
theorem Task.resume_locals (caller : Terminator) :
    (resume caller).locals = (laterEntries caller).map .entry := by
  cases caller <;> rfl

/-- A `terminate_session` call keeps the balance. -/
theorem TerminateStep.balanced {caller : Terminator} {reason : String} {pc : TermPc}
    (step : TerminateStep caller id reason pc choice op t') :
    Balanced (.terminating caller id reason pc) op t' := by
  intro p
  cases step with
  | shut hs =>
    obtain ⟨hg, hl⟩ := hs.gain
    simp [Task.locals, Task.termLocals, hg, hl]
  | leave =>
    rw [Task.resume_locals]
    simp [Task.locals, Task.termLocals, Op.gain, Op.loss]
    omega
  | _ => simp [Task.locals, Task.termLocals, Op.gain, Op.loss, List.countP_cons]

/-- Whether a pass kills an entry or goes on, it owns the same. -/
theorem Task.decide_locals {rest : List Uuid} {pc : PassPc} (hpc : passEntries pc = id :: rest)
    (reason : Option String) : (decide id rest pc reason).locals = (id :: rest).map .entry := by
  cases reason with
  | none => simp [decide, locals, hpc]
  | some reason => rfl

/-- A maintenance pass keeps the balance. -/
theorem PassStep.balanced {options : PoolOptions} {pc : PassPc}
    (step : PassStep options pc choice op t') : Balanced (.passing pc) op t' := by
  intro p
  cases step with
  | age | idle | sample | probe =>
    rw [Task.decide_locals rfl]
    rfl
  | _ => simp [Task.locals, Task.passEntries, Op.gain, Op.loss, List.countP_cons]

/-- Every step of a task keeps the balance. -/
theorem TaskStep.balanced (step : TaskStep pool t choice op t') : Balanced t op t' := by
  cases step with
  | create h => exact h.balanced
  | respond h => exact h.balanced
  | connect h => exact h.balanced
  | terminate h => exact h.balanced
  | pass h => exact h.balanced
  | _ =>
    intro p
    simp [Task.locals, Task.termLocals, Task.callerFrame, Task.laterEntries, Op.gain, Op.loss,
      List.countP_cons]

end

/-- **The balance of a turn**, of a step as of a drop. -/
theorem Turn.conserves {pool : SessionPool} {i : Nat} {t t' : Task} {a : Action} {op : Op}
    (h : Turn pool i t a op t') : Balanced t op t' := by
  cases h with
  | perform h => exact (Task.perform_step h).balanced
  | drop => exact fun p => by simp [Op.gain, Op.loss, Task.locals]

/-! ## References -/

namespace Local

/-- Whether a value is a permit. -/
def isPermit : Local → Bool
  | .permit => true
  | _ => false

/-- Whether a value is a reference to the entry of session `id`. -/
def isRef (id : Uuid) : Local → Bool
  | .entry j => j = id
  | _ => false

end Local

/-- The references to the entry of session `id` that a task holds. -/
def Task.refs (id : Uuid) (t : Task) : Nat := t.locals.countP (Local.isRef id)

/-- The references a sessions map of these sessions holds to the entry of session `id`. -/
def mapRefs (ids : Finset Uuid) (id : Uuid) : Nat := if id ∈ ids then 1 else 0

@[simp] theorem mapRefs_of_mem {ids : Finset Uuid} {id : Uuid} (h : id ∈ ids) :
    mapRefs ids id = 1 := if_pos h

@[simp] theorem mapRefs_of_not_mem {ids : Finset Uuid} {id : Uuid} (h : id ∉ ids) :
    mapRefs ids id = 0 := if_neg h

theorem mapRefs_insert (ids : Finset Uuid) (j id : Uuid) :
    mapRefs (insert j ids) id = if id = j then 1 else mapRefs ids id := by
  by_cases h : id = j <;> simp [mapRefs, h]

theorem mapRefs_erase (ids : Finset Uuid) (j id : Uuid) :
    mapRefs (ids.erase j) id = if id = j then 0 else mapRefs ids id := by
  by_cases h : id = j <;> simp [mapRefs, h]

namespace Memory

variable {m : Memory} {id : Uuid}

/-- The strong count of a session's entry. -/
def strong (m : Memory) (id : Uuid) : Nat := (m.heap[id]?.map (·.strong)).getD 0

/-- An entry with a reference has a place in the heap. -/
theorem lt_of_strong (h : 0 < m.strong id) : id < m.heap.length := by
  by_contra hge
  rw [strong, List.getElem?_eq_none (Nat.not_lt.1 hge)] at h
  exact absurd h (Nat.lt_irrefl 0)

/-- Dropping a reference counts down, whether or not it frees the entry. -/
theorem dropArc_heap (m : Memory) (id : Uuid) :
    (m.dropArc id).heap = m.heap.modify id fun a => { a with strong := a.strong - 1 } := by
  unfold dropArc
  split
  · next a ha =>
    dsimp only
    split
    · obtain ⟨_, _, _, h⟩ := dropEntry_frame
        { m with heap := m.heap.modify id fun a => { a with strong := a.strong - 1 } } a.entry
      rw [h]
    · rfl
  · next ha =>
    apply List.ext_getElem?
    intro j
    rw [List.getElem?_modify]
    by_cases h : id = j
    · subst h
      rw [ha]
      rfl
    · simp [h]

/-- Counting an entry's references up or down. -/
theorem strong_modify (m : Memory) (id j : Uuid) (f : Nat → Nat) :
    ({ m with heap := m.heap.modify j fun a => { a with strong := f a.strong } } : Memory).strong id
      = if j = id ∧ id < m.heap.length then f (m.strong id) else m.strong id := by
  simp only [strong, List.getElem?_modify]
  by_cases hlt : id < m.heap.length
  · by_cases hj : j = id <;> simp [hj, hlt]
  · simp [hlt]

/-- Dropping a value takes the reference it is from the count. -/
theorem dropLocal_strong (m : Memory) (l : Local) (id : Uuid) :
    (m.dropLocal l).strong id = m.strong id - [l].countP (Local.isRef id) := by
  cases l with
  | entry j =>
    show (m.dropArc j).strong id = _
    rw [strong, dropArc_heap]
    refine (m.strong_modify id j (· - 1)).trans ?_
    by_cases hj : j = id
    · by_cases hlt : id < m.heap.length
      · simp [hj, hlt, Local.isRef]
      · have : m.strong id = 0 := by
          by_contra hne
          exact hlt (lt_of_strong (Nat.pos_of_ne_zero hne))
        simp [hlt, this]
    · simp [hj, Local.isRef]
  | permit => rfl
  | child c => rfl
  | dir d => cases d <;> rfl
  | browser b =>
    obtain ⟨_, _, h⟩ := m.dropBrowser_frame b
    show (m.dropBrowser b).strong id = _
    rw [h]
    rfl

/-- Dropping a frame takes its references from the count. -/
theorem release_strong (m : Memory) (frame : List Local) (id : Uuid) :
    (m.release frame).strong id = m.strong id - frame.countP (Local.isRef id) := by
  induction frame generalizing m with
  | nil => rfl
  | cons l frame ih =>
    have h : (m.release (l :: frame)).strong id = ((m.dropLocal l).release frame).strong id := rfl
    rw [h, ih, dropLocal_strong, Nat.sub_sub]
    congr 1
    rw [← List.countP_append, List.singleton_append]

/-- The map's references are counted among the entry's. -/
def MapCounted (m : Memory) : Prop := ∀ id, mapRefs m.sessions id ≤ m.strong id

/-- A session in the map has an entry in the heap. -/
theorem MapCounted.lt (hm : m.MapCounted) (h : id ∈ m.sessions) : id < m.heap.length := by
  have := hm id
  rw [mapRefs_of_mem h] at this
  exact lt_of_strong this

/-- Writing an entry leaves its count alone. -/
@[simp] theorem strong_updateEntry (m : Memory) (id j : Uuid) (f : SessionEntry → SessionEntry) :
    (m.updateEntry j f).strong id = m.strong id := by
  simp only [strong, updateEntry, List.getElem?_modify]
  cases m.heap[id]? with
  | none => rfl
  | some a => by_cases h : j = id <;> simp [h]

/-- Recording a milestone leaves the counts alone. -/
@[simp] theorem strong_record (m : Memory) (id j : Uuid) (k : Milestone) :
    (m.record j k).strong id = m.strong id := rfl

/-- A new entry has a reference from the map and one from the handle. -/
theorem strong_insert (m : Memory) (id : Uuid) (stealth : Bool) (b : LaunchedBrowser) :
    (m.effect (.insert m.heap.length stealth b)).strong id
      = if id = m.heap.length then 2 else m.strong id := by
  simp only [effect, strong, List.getElem?_append]
  split
  · next hlt => rw [if_neg (Nat.ne_of_lt hlt)]
  · next hge =>
    split
    · next he => simp [he]
    · next hne =>
      have hgt : m.heap.length < id := Nat.lt_of_le_of_ne (Nat.not_lt.1 hge) (Ne.symm hne)
      rw [List.getElem?_eq_none (l := m.heap) (Nat.not_lt.1 hge), List.getElem?_eq_none]
      simp only [List.length_singleton]
      omega

/-- **The balance of the references.** What an operation changes in an entry's strong count is
what it changes in the references of the map and of its task. -/
theorem effect_strong {op : Op} (hm : m.MapCounted) (he : m.enabled op = true) (id : Uuid)
    (hl : op.loss.countP (Local.isRef id) ≤ m.strong id) :
    (m.effect op).strong id + mapRefs m.sessions id + op.loss.countP (Local.isRef id)
      = m.strong id + mapRefs (m.effect op).sessions id + op.gain.countP (Local.isRef id) := by
  rw [effect_sessions]
  cases op with
  | insert j stealth b =>
    obtain rfl : j = m.heap.length := by simpa [enabled] using he
    have hnew : m.heap.length ∉ m.sessions := fun h => Nat.lt_irrefl _ (hm.lt h)
    have hzero : m.strong m.heap.length = 0 := by
      by_contra hne
      exact Nat.lt_irrefl _ (lt_of_strong (Nat.pos_of_ne_zero hne))
    rw [strong_insert, Op.sessions, mapRefs_insert]
    by_cases hid : id = m.heap.length
    · simp [hid, hnew, hzero, Op.gain, Op.loss, Local.isRef]
    · have hne : m.heap.length ≠ id := fun h => hid h.symm
      simp [hid, hne, Op.gain, Op.loss, Local.isRef]
  | cloneEntry j =>
    have hj : j < m.heap.length := hm.lt (by simpa [enabled] using he)
    have hs : (m.effect (.cloneEntry j)).strong id = _ := m.strong_modify id j (· + 1)
    rw [hs]
    by_cases hid : j = id
    · subst hid
      simp [hj, Op.sessions, Op.gain, Op.loss, Local.isRef]
      omega
    · simp [hid, Op.sessions, Op.gain, Op.loss, Local.isRef]
  | remove j =>
    have hj : j ∈ m.sessions := by simpa [enabled] using he
    have hs : (m.effect (.remove j)).strong id = m.strong id := rfl
    rw [hs, Op.sessions, mapRefs_erase]
    by_cases hid : id = j
    · subst hid
      simp [hj, Op.gain, Op.loss, Local.isRef]
    · have hne : j ≠ id := fun h => hid h.symm
      simp [hid, hne, Op.gain, Op.loss, Local.isRef]
  | release frame =>
    have hs : (m.effect (.release frame)).strong id = _ := m.release_strong frame id
    simp only [Op.loss] at hl
    simp only [hs, Op.sessions, Op.loss, Op.gain, List.countP_nil]
    omega
  | countRecycle j reason =>
    obtain ⟨_, _, h⟩ := m.countRecycle_frame j reason
    rw [h]
    rfl
  | claim j => rw [effect, strong_updateEntry]; rfl
  | markInUse j => rw [effect, strong_updateEntry]; rfl
  | touch j => rw [effect, strong_updateEntry]; rfl
  | setKilling j => rw [effect, strong_record, strong_updateEntry]; rfl
  | setKillReason j reason => rw [effect, strong_record, strong_updateEntry]; rfl
  | takeBrowser j b => rw [effect, strong_record, strong_updateEntry]; rfl
  | setDead j => rw [effect, strong_record, strong_updateEntry]; rfl
  | checkHealth j since due => rw [effect, strong_updateEntry]; rfl
  | _ => rfl

end Memory

/-! ## The references of reachable states -/

/-- An entry's strong count is the number of its owners. -/
def State.Refs (s : State) : Prop :=
  ∀ id, s.memory.strong id = mapRefs s.memory.sessions id + s.sum (Task.refs id)

namespace State

variable {s : State} {id : Uuid} {i : Nat} {t : Task}

/-- In such a state the map's references are counted. -/
theorem Refs.mapCounted (h : s.Refs) : s.memory.MapCounted := fun id => by
  rw [h id]
  exact Nat.le_add_right _ _

/-- A task's references are counted. -/
theorem Refs.le_strong (h : s.Refs) (ht : s.tasks[i]? = some t) (id : Uuid) :
    t.refs id ≤ s.memory.strong id := by
  have := le_tally (f := Task.refs id) ht
  rw [h id]
  exact Nat.le_add_left_of_le this

/-- An entry that a task refers to has a place in the heap. -/
theorem Refs.lt_of_mem (h : s.Refs) (ht : s.tasks[i]? = some t) (hid : .entry id ∈ t.locals) :
    id < s.memory.heap.length := by
  refine Memory.lt_of_strong (Nat.lt_of_lt_of_le ?_ (h.le_strong ht id))
  exact List.countP_pos_iff.2 ⟨_, hid, by simp [Local.isRef]⟩

end State

/-- No operation both hands its task something and takes a reference from it. -/
theorem Op.gain_or_loss (op : Op) (id : Uuid) :
    op.gain = [] ∨ op.loss.countP (Local.isRef id) = 0 := by
  cases op <;> first | exact .inl rfl | exact .inr rfl

/-- A turn loses only references its task has. -/
theorem Turn.loss_le {pool : SessionPool} {i : Nat} {t t' : Task} {a : Action} {op : Op}
    (h : Turn pool i t a op t') (id : Uuid) : op.loss.countP (Local.isRef id) ≤ t.refs id := by
  have hb := h.conserves (Local.isRef id)
  rcases op.gain_or_loss id with hg | hl
  · rw [hg] at hb
    have : t.refs id = t.locals.countP (Local.isRef id) := rfl
    simp only [List.countP_nil] at hb
    omega
  · omega

/-- A request owns nothing when it starts. -/
theorem Request.task_locals (request : Request) : request.task.locals = [] := by
  cases request <;> rfl

section

variable {pool : SessionPool} {dirs : Finset PathBuf} {P : State → Action → Prop} {s s' : State}
  {a : Action} {as : List Action}

/-- Every action keeps the count of the references. -/
theorem refs_step (h : s.Refs) (hs : step pool s a = some s') : s'.Refs := by
  rcases step_cases hs with ⟨i, t, op, t', ht, turn, he, rfl⟩ | ⟨request, rfl, rfl⟩ |
    ⟨c, rfl, -, rfl⟩ | ⟨d, rfl, rfl⟩
  · intro id
    have hsum := tally_set (f := Task.refs id) ht t'
    have hb := turn.conserves (Local.isRef id)
    have hold := h id
    have heff := Memory.effect_strong h.mapCounted he id
      ((turn.loss_le id).trans (h.le_strong ht id))
    simp only [Task.refs, State.sum] at hsum hold ⊢
    omega
  · intro id
    have := h id
    simpa [State.sum, Task.refs, request.task_locals] using this
  · exact h
  · exact h

/-- **The references of every reachable state are counted.** -/
theorem refs_of_reach (h : Reach pool dirs P as s) : s.Refs :=
  h.preserves (fun _ _ _ hs _ => refs_step hs) fun _ => rfl

end

end Eiger
