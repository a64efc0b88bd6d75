import Eiger.Pool.Resources

/-!
# What drop glue runs on

An entry that still has a reference holds its browser and its permit. Dropping a frame runs the
destructors of the frame's own values, and of the contents of every entry whose last reference
was in it: `dropped` lists them. `Memory.release_eq` is drop glue in these terms: the counts go
down, then each destructor on the list runs. What a frame's drop does to the permits, to what the
entries hold, to the children and to the directories follows from the list.
-/

namespace Eiger

open Tally

/-- What an entry holds, in the order of its fields. -/
def SessionEntry.contents (e : SessionEntry) : List Local :=
  (e.browser.map Local.browser).toList ++ [.permit]

/-- A predicate on the values that have destructors of their own: no reference meets it. -/
def Local.Plain (p : Local → Bool) : Prop := ∀ id, p (.entry id) = false

theorem Local.plain_isPermit : Plain isPermit := fun _ => rfl

/-- The heap after a reference is counted down. -/
def countDown (heap : List ArcInner) (id : Uuid) : List ArcInner :=
  heap.modify id fun a => { a with strong := a.strong - 1 }

/-- What the drop of a reference frees: the contents of the entry, if it is the last one. -/
def freed (heap : List ArcInner) (id : Uuid) : List Local :=
  match heap[id]? with
  | some a => if a.strong = 1 then a.entry.contents else []
  | none => []

/-- The values whose destructors run when a frame is dropped. -/
def dropped (heap : List ArcInner) : List Local → List Local
  | [] => []
  | .entry id :: frame => freed heap id ++ dropped (countDown heap id) frame
  | l :: frame => l :: dropped heap frame

/-- The heap after the references of a frame are counted down. -/
def counted (heap : List ArcInner) : List Local → List ArcInner
  | [] => heap
  | .entry id :: frame => counted (countDown heap id) frame
  | _ :: frame => counted heap frame

/-- What the entries with a reference hold: their values that meet `p`. -/
def held (heap : List ArcInner) (p : Local → Bool) : Nat :=
  tally (fun a => if 0 < a.strong then a.entry.contents.countP p else 0) heap

/-- Counting a reference down takes what it frees from what is held. -/
theorem held_countDown (heap : List ArcInner) (id : Uuid) (p : Local → Bool) :
    held (countDown heap id) p + (freed heap id).countP p = held heap p := by
  unfold held countDown freed
  cases ha : heap[id]? with
  | none =>
    have hid : heap.modify id (fun a => { a with strong := a.strong - 1 }) = heap := by
      apply List.ext_getElem?
      intro j
      rw [List.getElem?_modify]
      by_cases h : id = j
      · subst h
        rw [ha]
        rfl
      · simp [h]
    rw [hid]
    rfl
  | some a =>
    have h := tally_modify (f := fun a : ArcInner =>
      if 0 < a.strong then a.entry.contents.countP p else 0) ha
      fun a => { a with strong := a.strong - 1 }
    dsimp only at h ⊢
    by_cases h1 : a.strong = 1
    · simp [h1] at h ⊢
      exact h
    · rw [if_neg h1]
      have hiff : (0 < a.strong - 1) ↔ 0 < a.strong := by omega
      simp only [hiff] at h
      simpa using h

/-- **Dropping a frame takes what its destructors run on from what is held**, but for the frame's
own values. -/
theorem held_counted {p : Local → Bool} (hp : Local.Plain p) (heap : List ArcInner)
    (frame : List Local) :
    held (counted heap frame) p + (dropped heap frame).countP p
      = held heap p + frame.countP p := by
  induction frame generalizing heap with
  | nil => rfl
  | cons l frame ih =>
    cases l with
    | entry id =>
      have h := ih (countDown heap id)
      have hc := held_countDown heap id p
      simp only [counted, dropped, List.countP_append, List.countP_cons, hp id, Bool.false_eq_true,
        if_false]
      omega
    | _ =>
      have h := ih heap
      simp only [counted, dropped, List.countP_cons]
      omega

namespace Memory

/-- Replaces the heap. -/
def withHeap (m : Memory) (heap : List ArcInner) : Memory := { m with heap }

@[simp] theorem withHeap_heap (m : Memory) (heap : List ArcInner) :
    (m.withHeap heap).heap = heap := rfl

@[simp] theorem withHeap_withHeap (m : Memory) (heap heap' : List ArcInner) :
    (m.withHeap heap).withHeap heap' = m.withHeap heap' := rfl

@[simp] theorem withHeap_self (m : Memory) : m.withHeap m.heap = m := rfl

/-- Drops one value that is no reference. -/
def dropPlain (m : Memory) : Local → Memory
  | .permit => { m with permits := m.permits + 1 }
  | .entry _ => m
  | .child _ => m
  | .dir d => m.dropDir d
  | .browser b => m.dropBrowser b

/-- Runs destructors in order. -/
def dropAll (m : Memory) (ls : List Local) : Memory := ls.foldl dropPlain m

@[simp] theorem dropAll_cons (m : Memory) (l : Local) (ls : List Local) :
    m.dropAll (l :: ls) = (m.dropPlain l).dropAll ls := rfl

theorem dropAll_append (m : Memory) (ls ls' : List Local) :
    m.dropAll (ls ++ ls') = (m.dropAll ls).dropAll ls' := List.foldl_append

/-- An entry's drop is the drop of its contents. -/
theorem dropEntry_eq (m : Memory) (e : SessionEntry) : m.dropEntry e = m.dropAll e.contents := by
  unfold dropEntry SessionEntry.contents
  cases e.browser <;> rfl

/-- Counting a reference down is the change of the heap, then the drop of what it frees. -/
theorem dropArc_eq (m : Memory) (id : Uuid) :
    m.dropArc id = (m.withHeap (countDown m.heap id)).dropAll (freed m.heap id) := by
  have hheap := m.dropArc_heap id
  cases ha : m.heap[id]? with
  | none =>
    have hm : m.dropArc id = m := by simp only [dropArc, ha]
    rw [hm] at hheap ⊢
    simp only [freed, ha]
    exact congrArg m.withHeap hheap
  | some a =>
    simp only [dropArc, freed, ha]
    split
    · exact dropEntry_eq _ _
    · rfl

/-- No destructor touches the heap, and none looks at it. -/
theorem dropPlain_withHeap (m : Memory) (l : Local) (heap : List ArcInner) :
    (m.withHeap heap).dropPlain l = (m.dropPlain l).withHeap heap := by
  cases l with
  | dir d => cases d <;> rfl
  | browser b =>
    simp only [dropPlain, dropBrowser, dropDir, updateChild]
    cases b.userDataDir <;> rfl
  | _ => rfl

/-- Nor do several. -/
theorem dropAll_withHeap (m : Memory) (ls : List Local) (heap : List ArcInner) :
    (m.withHeap heap).dropAll ls = (m.dropAll ls).withHeap heap := by
  induction ls generalizing m with
  | nil => rfl
  | cons l ls ih => rw [dropAll_cons, dropPlain_withHeap, ih, dropAll_cons]

/-- **Drop glue**: the counts go down, then each destructor runs. -/
theorem release_eq (m : Memory) (frame : List Local) :
    m.release frame = (m.dropAll (dropped m.heap frame)).withHeap (counted m.heap frame) := by
  induction frame generalizing m with
  | nil => rfl
  | cons l frame ih =>
    have hcons : m.release (l :: frame) = (m.dropLocal l).release frame := rfl
    -- a value that is no reference has its destructor run and leaves the heap alone
    have hplain : m.dropLocal l = m.dropPlain l →
        dropped m.heap (l :: frame) = l :: dropped m.heap frame →
        counted m.heap (l :: frame) = counted m.heap frame →
        m.release (l :: frame)
          = (m.dropAll (dropped m.heap (l :: frame))).withHeap (counted m.heap (l :: frame)) := by
      intro hl hd hc
      have hheap : (m.dropPlain l).heap = m.heap := by
        rw [← withHeap_self m, dropPlain_withHeap, withHeap_heap, withHeap_heap]
      rw [hcons, ih, hl, hd, hc, hheap, dropAll_cons]
    cases l with
    | entry id =>
      have harc : m.dropLocal (.entry id) = _ := m.dropArc_eq id
      rw [hcons, ih, harc, dropAll_withHeap, withHeap_heap, dropAll_withHeap, withHeap_withHeap,
        dropped, counted, dropAll_append]
    | _ => exact hplain rfl rfl rfl

/-! ## What the destructors change -/

/-- Destructors give back the permits among their values. -/
theorem dropAll_permits (m : Memory) (ls : List Local) :
    (m.dropAll ls).permits = m.permits + ls.countP Local.isPermit := by
  induction ls generalizing m with
  | nil => rfl
  | cons l ls ih =>
    rw [dropAll_cons, ih, List.countP_cons]
    cases l with
    | permit =>
      simp only [dropPlain, Local.isPermit, if_true]
      omega
    | dir d => cases d <;> rfl
    | browser b =>
      simp only [dropPlain, dropBrowser, dropDir, updateChild]
      cases b.userDataDir <;> rfl
    | _ => rfl

/-- What is held after a frame's drop is no more than before it. -/
theorem release_held {p : Local → Bool} (hp : Local.Plain p) (m : Memory) (frame : List Local) :
    held (m.release frame).heap p + (dropped m.heap frame).countP p
      = held m.heap p + frame.countP p := by
  rw [release_eq, withHeap_heap]
  exact held_counted hp m.heap frame

end Memory

/-! ## What the entries hold after an operation -/

namespace Op

/-- What an operation puts into an entry, or drops. -/
def given : Op → List Local
  | .insert _ _ b => [.browser b, .permit]
  | .release frame => frame
  | _ => []

/-- What an operation takes out of an entry, or destroys. -/
def taken (heap : List ArcInner) : Op → List Local
  | .takeBrowser _ b => [.browser b]
  | .release frame => dropped heap frame
  | _ => []

/-- The entry an operation needs to have a reference. -/
def target : Op → Option Uuid
  | .cloneEntry id => some id
  | .takeBrowser id _ => some id
  | _ => none

end Op

namespace Memory

variable {m : Memory} {p : Local → Bool}

/-- Writing entries without changing what they hold. -/
theorem held_updateEntry (m : Memory) (id : Uuid) (f : SessionEntry → SessionEntry)
    (hf : ∀ e, (f e).contents = e.contents) (p : Local → Bool) :
    held (m.updateEntry id f).heap p = held m.heap p :=
  tally_modify_eq id fun a => by simp only [hf]

/-- What an operation touches is on the heap, and strongly referenced. -/
theorem exists_of_strong {id : Uuid} (h : 0 < m.strong id) :
    ∃ a, m.heap[id]? = some a ∧ 0 < a.strong := by
  obtain ⟨a, ha⟩ : ∃ a, m.heap[id]? = some a :=
    ⟨_, List.getElem?_eq_getElem (lt_of_strong h)⟩
  exact ⟨a, ha, by simpa [strong, ha] using h⟩

/-- What the entries hold, unless it is a permit: the browsers of those with a reference. -/
theorem held_pos_iff (hp : p .permit = false) : 0 < held m.heap p ↔
    ∃ id e b, 0 < m.strong id ∧ m.entryAt id = some e ∧ e.browser = some b ∧
      p (.browser b) = true := by
  constructor
  · intro hpos
    obtain ⟨id, a, ha, hcount⟩ := tally_pos.1 hpos
    split at hcount
    · next hstrong =>
      obtain ⟨l, hl, hmeets⟩ := List.countP_pos_iff.1 hcount
      rcases List.mem_append.1 hl with hl | hl
      · obtain ⟨b, hb, rfl⟩ := Option.map_eq_some_iff.1 (Option.mem_toList.1 hl)
        exact ⟨id, a.entry, b, by simpa [strong, ha] using hstrong, by simp [entryAt, ha], hb,
          hmeets⟩
      · rw [List.mem_singleton.1 hl, hp] at hmeets
        cases hmeets
    · cases hcount
  · rintro ⟨id, e, b, hstrong, he, hb, hmeets⟩
    obtain ⟨a, ha, hlive⟩ := exists_of_strong hstrong
    rw [entryAt, ha] at he
    cases he
    refine tally_pos.2 ⟨id, a, ha, ?_⟩
    rw [if_pos hlive]
    refine List.countP_pos_iff.2 ⟨.browser b, ?_, hmeets⟩
    rw [SessionEntry.contents, hb]
    exact List.mem_cons_self

/-- **The balance of what the entries hold** over an operation. -/
theorem effect_held {op : Op} (hp : Local.Plain p) (he : m.enabled op = true)
    (hl : ∀ id, op.target = some id → 0 < m.strong id) :
    held (m.effect op).heap p + (op.taken m.heap).countP p
      = held m.heap p + op.given.countP p := by
  cases op with
  | insert id stealth b =>
    simp [effect, held, Op.taken, Op.given, SessionEntry.new, SessionEntry.contents,
      List.countP_cons, Nat.add_comm]
  | cloneEntry id =>
    obtain ⟨a, ha, hstrong⟩ := exists_of_strong (hl id rfl)
    have h := tally_modify (f := fun a : ArcInner =>
      if 0 < a.strong then a.entry.contents.countP p else 0) ha
      fun a => { a with strong := a.strong + 1 }
    simp only [hstrong, Nat.succ_pos, if_true] at h
    simp only [effect, held, Op.taken, Op.given, List.countP_nil]
    omega
  | takeBrowser id b =>
    obtain ⟨a, ha, hstrong⟩ := exists_of_strong (hl id rfl)
    have hb : a.entry.browser = some b := by simpa [enabled, entryAt, ha] using he
    have h := tally_modify (f := fun a : ArcInner =>
      if 0 < a.strong then a.entry.contents.countP p else 0) ha
      fun a => { a with entry := { a.entry with browser := none } }
    have hold : a.entry.contents.countP p =
        [Local.browser b].countP p + [Local.permit].countP p := by
      rw [← List.countP_append, SessionEntry.contents, hb]
      rfl
    have hnew : ({ a.entry with browser := none } : SessionEntry).contents.countP p
        = [Local.permit].countP p := rfl
    simp only [hstrong, if_true, hold, hnew] at h
    simp only [effect, record, updateEntry, held, Op.taken, Op.given, List.countP_nil]
    omega
  | release frame => exact release_held hp m frame
  | countRecycle id reason =>
    obtain ⟨_, _, h⟩ := m.countRecycle_frame id reason
    rw [h]
    rfl
  | claim id => exact m.held_updateEntry id (fun e => { e with state := .inUse }) (fun _ => rfl) p
  | markInUse id =>
    exact m.held_updateEntry id (fun e => { e with state := .inUse }) (fun _ => rfl) p
  | touch id =>
    exact m.held_updateEntry id (fun e => { e with lastUsedInstant := m.now }) (fun _ => rfl) p
  | setKilling id =>
    exact m.held_updateEntry id (fun e => { e with state := .killing }) (fun _ => rfl) p
  | setKillReason id reason =>
    exact m.held_updateEntry id (fun e => { e with killReason := some reason }) (fun _ => rfl) p
  | setDead id => exact m.held_updateEntry id (fun e => { e with state := .dead }) (fun _ => rfl) p
  | checkHealth id since due =>
    exact m.held_updateEntry id
      (fun e => if due then { e with lastCdpHealthCheck := m.now } else e)
      (fun e => by cases due <;> rfl) p
  | _ => rfl

/-- The permits available change by those handed out and those the destructors give back. -/
theorem effect_available {op : Op} (he : m.enabled op = true) :
    (m.effect op).permits + op.gain.countP Local.isPermit
      = m.permits + (op.taken m.heap).countP Local.isPermit := by
  cases op with
  | acquire =>
    have hpos : 0 < m.permits := by simpa [enabled] using he
    simp only [effect, Op.gain, Op.taken, List.countP_cons, List.countP_nil, Local.isPermit,
      if_true]
    omega
  | release frame =>
    have h : (m.effect (.release frame)).permits = _ := congrArg permits (m.release_eq frame)
    rw [h]
    exact m.dropAll_permits _
  | countRecycle id reason =>
    obtain ⟨_, _, h⟩ := m.countRecycle_frame id reason
    rw [h]
    rfl
  | _ => rfl

/-- **The balance of the permits.** What is available and what the entries hold changes by what
the operation takes from its task and hands to it. -/
theorem effect_permits {op : Op} (he : m.enabled op = true)
    (hl : ∀ id, op.target = some id → 0 < m.strong id) :
    (m.effect op).permits + held (m.effect op).heap Local.isPermit
        + op.gain.countP Local.isPermit
      = m.permits + held m.heap Local.isPermit + op.loss.countP Local.isPermit := by
  have hheld := effect_held Local.plain_isPermit he hl
  have havail := effect_available he
  have hgiven : op.given.countP Local.isPermit = op.loss.countP Local.isPermit := by
    cases op <;> rfl
  omega

end Memory

end Eiger
