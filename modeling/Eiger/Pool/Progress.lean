import Eiger.Lib.Potential
import Eiger.Pool.Orphans

/-!
# The tasks get on, and get done

`Task.work` bounds the steps a task has before it. Every step takes at least one from it, but for
those by which a listing, that of a maintenance pass or of a reader, picks up another entry: so a
request costs the pool a bounded number of steps, and a pass one that is linear in the sessions
there have been (`turns_bounded`). No run is a livelock.
-/

namespace Eiger

open Transition Tally

/-! ## The work before a task -/

/-- The steps before a `shutdown`, the drop of its browser included. -/
def ShutdownPc.work : ShutdownPc → Nat
  | .start => 7
  | .closing => 6
  | .awaitExit => 5
  | .sigterming => 4
  | .awaitTerm => 3
  | .awaitKill => 2
  | .shut _ => 1

/-- The steps before a `terminate_session` call until it returns. -/
def TermPc.work : TermPc → Nat
  | .removing => 17
  | .killing => 16
  | .reasoning => 15
  | .counting => 14
  | .taking => 13
  | .shutting _ pc => pc.work + 5
  | .reporting _ => 5
  | .dying => 4
  | .ended => 3
  | .finishing => 2
  | .leaving => 1

/-- The steps before the owner of a session that is yet to be marked, its termination included. -/
def ownerWork : Nat := TermPc.removing.work + 3

/-- The steps before a `create_session` call and its caller. -/
def CreatePc.work : CreatePc → Nat
  | .queued => ownerWork + 11
  | .granted => ownerWork + 10
  | .starting _ => ownerWork + 9
  | .prepared .. => ownerWork + 8
  | .waiting .. => ownerWork + 7
  | .injecting .. => ownerWork + 6
  | .launched .. => ownerWork + 5
  | .recording .. => ownerWork + 4
  | .recorded .. => ownerWork + 3
  | .inserted _ => ownerWork + 2
  | .stopping .. => 8
  | .signalling .. => 7
  | .cleaning .. => 6
  | .killing .. => 5
  | .unwinding .. => 4
  | .failed _ => 3
  | .failing _ => 2
  | .returning _ => 1
  | .returned _ => 0

/-- The steps before a pass that visits these entries, one of which may take the checks and a
termination. -/
def visitWork (rest : List Uuid) : Nat := (TermPc.removing.work + 7) * rest.length + 1

/-- The steps before a pass. -/
def PassPc.work : PassPc → Nat
  | .collecting held => visitWork held + 1
  | .visiting rest => visitWork rest
  | .aging _ rest => visitWork rest + TermPc.removing.work + 6
  | .stating _ rest => visitWork rest + TermPc.removing.work + 5
  | .idling _ rest _ => visitWork rest + TermPc.removing.work + 4
  | .sampling _ rest => visitWork rest + TermPc.removing.work + 3
  | .checking _ rest => visitWork rest + TermPc.removing.work + 2
  | .probing _ rest => visitWork rest + TermPc.removing.work + 1
  | .keeping _ rest => visitWork rest + 1

/-- The steps before the caller of `terminate_session` after it. -/
def Terminator.work : Terminator → Nat
  | .pass later => visitWork later
  | _ => 0

/-- **The steps before a task**, if no listing picks up more. -/
def Task.work : Task → Nat
  | .creating _ _ pc => pc.work
  | .responding _ .looking => 3
  | .responding _ .informing => 2
  | .responding _ .answering => 1
  | .connecting _ .lookup => ownerWork + 4
  | .connecting _ .found => ownerWork + 3
  | .connecting _ .claimed => ownerWork + 2
  | .connecting _ .rejected => 1
  | .upgrading .. => ownerWork + 1
  | .marking .. => ownerWork
  | .touching .. => TermPc.removing.work + 2
  | .driving .. => TermPc.removing.work + 1
  | .terminating caller _ _ pc => pc.work + caller.work
  | .passing pc => pc.work
  | .reading held => held.length + 1
  | .done => 0

/-- A task that has returned. -/
def Task.finished : Task → Bool
  | .creating _ _ (.returned _) => true
  | .done => true
  | _ => false

/-- Only a task that has returned has nothing before it. -/
theorem Task.work_pos {t : Task} (h : t.finished = false) : 0 < t.work := by
  cases t with
  | creating caller overrides pc =>
    cases pc with
    | returned => cases h
    | _ => exact Nat.succ_pos _
  | responding id pc => cases pc <;> exact Nat.succ_pos _
  | connecting id pc => cases pc <;> exact Nat.succ_pos _
  | terminating caller id reason pc =>
    cases pc <;> exact Nat.lt_of_lt_of_le (by simp [TermPc.work]) (Nat.le_add_right _ _)
  | passing pc => cases pc <;> exact Nat.succ_pos _
  | done => cases h
  | _ => exact Nat.succ_pos _

/-- What a step by which a listing picks up an entry may add to the work, with itself. -/
def Task.listing : Task → Choice → Nat
  | .passing (.collecting _), .session _ => TermPc.removing.work + 8
  | .reading _, .session _ => 2
  | _, _ => 0

section

variable {pool : SessionPool} {choice : Choice} {op : Op} {t t' : Task} {id : Uuid}

/-- A step of a creation leaves less to do. -/
theorem CreateStep.work {caller : Caller} {overrides : SessionOverrides} {pc : CreatePc}
    (step : CreateStep pool caller overrides pc choice op t') : t'.work < pc.work := by
  cases step with
  | count => cases caller <;> simp [Task.work, Task.created, CreatePc.work, ownerWork]
  | unready => simp [Task.work, CreatePc.work, ownerWork]
  | _ => simp [Task.work, CreatePc.work]

/-- A step of `connect_session` leaves less to do. -/
theorem ConnectStep.work {pc : ConnectPc} (step : ConnectStep id pc choice op t') :
    t'.work < (Task.connecting id pc).work := by
  cases step <;> simp [Task.work]

/-- A step of the `POST /sessions` handler leaves less to do. -/
theorem RespondStep.work {pc : RespondPc} (step : RespondStep id pc choice op t') :
    t'.work < (Task.responding id pc).work := by
  cases step <;> simp [Task.work]

/-- A step of `shutdown` leaves less to do. -/
theorem ShutdownStep.work {c : ChildId} {pc pc' : ShutdownPc}
    (step : ShutdownStep c pc choice op pc') : pc'.work < pc.work := by
  cases step <;> decide

/-- What the caller of `terminate_session` goes on with. -/
theorem Task.resume_work (caller : Terminator) : (resume caller).work = caller.work := by
  cases caller <;> rfl

/-- A step of `terminate_session` leaves less to do. -/
theorem TerminateStep.work {caller : Terminator} {reason : String} {pc : TermPc}
    (step : TerminateStep caller id reason pc choice op t') : t'.work < pc.work + caller.work := by
  cases step with
  | shut hs =>
    have := hs.work
    simp only [Task.work, TermPc.work]
    omega
  | leave =>
    rw [Task.resume_work]
    simp [TermPc.work]
  | _ => simp [Task.work, TermPc.work, ShutdownPc.work]

/-- Where a pass goes on from the check of an entry, there is less to do than before it. -/
theorem Task.decide_work {rest : List Uuid} {pc : PassPc} {n : Nat} (hpc : pc.work < n)
    (hn : visitWork rest + TermPc.removing.work < n) (reason : Option String) :
    (decide id rest pc reason).work < n := by
  cases reason with
  | none => exact hpc
  | some reason =>
    rw [Nat.add_comm] at hn
    exact hn

/-- A step of a maintenance pass leaves less to do, but for what it lists. -/
theorem PassStep.work {options : PoolOptions} {pc : PassPc}
    (step : PassStep options pc choice op t') :
    t'.work + 1 ≤ pc.work + (Task.passing pc).listing choice := by
  cases step with
  | age | idle | sample | probe =>
    apply Task.decide_work <;> simp only [PassPc.work, TermPc.work] <;> omega
  | _ =>
    simp [Task.work, PassPc.work, visitWork, TermPc.work, Task.listing] <;> omega

/-- **A step leaves less to do**, but for what it lists. -/
theorem TaskStep.work (step : TaskStep pool t choice op t') :
    t'.work + 1 ≤ t.work + t.listing choice := by
  cases step with
  | create h => exact h.work
  | respond h => exact h.work
  | connect h => exact h.work
  | terminate h => exact h.work
  | pass h => exact h.work
  | _ => simp [Task.work, TermPc.work, Terminator.work, ownerWork, Task.listing]

end

/-! ## How many turns a request takes -/

/-- Whether an action is a turn of task `i`. -/
def Action.turns (i : Nat) : Action → Bool
  | .task j _ => j = i
  | .dropFuture j => j = i
  | _ => false

/-- Whether an action picks up an entry for task `i`. -/
def Action.lists (i : Nat) : Action → Bool
  | .task j (.session _) => j = i
  | _ => false

/-- The turns that the task of a request takes at most, where so many sessions have been created by
then and a reader has picked up so many entries. -/
def Request.turnLimit (created listed : Nat) : Request → Nat
  | .create .. => 31
  | .connectExisting _ => 24
  | .delete _ => 17
  | .maintenance => 25 * created + 2
  | .inspect => 2 * listed + 1

/-- What the step of task `i` that an action is may add to its work, with itself. -/
def State.listing (i : Nat) (s : State) : Action → Nat
  | .task j choice => if j = i then (s.tasks[i]?.map (·.listing choice)).getD 0 else 0
  | _ => 0

/-- The work before task `i`. -/
def State.work (i : Nat) (s : State) : Nat := (s.tasks[i]?.map Task.work).getD 0

/-- Whether a task may pick up entries. -/
def Task.lists : Task → Bool
  | .passing (.collecting _) => true
  | .reading _ => true
  | _ => false

/-- What the entries that a pass has not listed yet may add to its work. -/
def Task.unlisted (created : Nat) : Task → Nat
  | .passing (.collecting held) => 25 * (created - held.length)
  | _ => 0

/-- What the entries that task `i` has not listed yet may add to its work. -/
def State.unlisted (i : Nat) (s : State) : Nat :=
  (s.tasks[i]?.map (Task.unlisted s.memory.heap.length)).getD 0

/-- A pass that has looked at an entry lists no more. -/
theorem Task.decide_ne_collecting {id : Uuid} {rest held : List Uuid} {pc : PassPc}
    (hpc : pc ≠ .collecting held) (reason : Option String) :
    decide id rest pc reason ≠ .passing (.collecting held) := by
  cases reason with
  | none => exact fun h => hpc (Task.passing.inj h)
  | some reason => nofun

/-- A pass goes on listing with an entry that it has not listed. -/
theorem PassStep.collecting {options : PoolOptions} {pc : PassPc} {choice : Choice} {op : Op}
    {t' : Task} {held : List Uuid} (step : PassStep options pc choice op t')
    (ht' : t' = .passing (.collecting held)) :
    ∃ before id, pc = .collecting before ∧ choice = .session id ∧ id ∉ before ∧
      op = .cloneEntry id ∧ held = before ++ [id] := by
  cases step with
  | collect hnew =>
    cases ht'
    exact ⟨_, _, rfl, rfl, hnew, rfl, rfl⟩
  | age | idle | sample | probe => exact absurd ht' (Task.decide_ne_collecting (by simp) _)
  | _ => cases ht'

namespace Task

variable {pool : SessionPool} {choice : Choice} {op : Op} {t t' : Task}

/-- A task that is suspended has not returned. -/
theorem finished_of_droppable (h : t.droppable = true) : t.finished = false := by
  cases t with
  | creating caller overrides pc =>
    cases pc with
    | returned => cases h
    | _ => rfl
  | done => cases h
  | _ => rfl

/-- A listing pass comes from one that has listed less. -/
theorem perform_collecting {held : List Uuid} (h : t.perform pool choice = some (op, t'))
    (ht' : t' = .passing (.collecting held)) :
    ∃ before id, t = .passing (.collecting before) ∧ choice = .session id ∧ id ∉ before ∧
      op = .cloneEntry id ∧ held = before ++ [id] := by
  cases perform_step h with
  | pass step =>
    obtain ⟨before, id, rfl, hrest⟩ := step.collecting ht'
    exact ⟨before, id, rfl, hrest⟩
  | @create caller _ _ _ _ _ step =>
    cases step with
    | count => cases caller <;> cases ht'
    | _ => cases ht'
  | respond step => cases step <;> cases ht'
  | connect step => cases step <;> cases ht'
  | @terminate caller _ _ _ _ _ _ step =>
    cases step with
    | leave => cases caller <;> cases ht'
    | _ => cases ht'
  | _ => cases ht'

/-- A reader was one before. -/
theorem perform_reading {held : List Uuid} (h : t.perform pool choice = some (op, t'))
    (ht' : t' = .reading held) : ∃ before, t = .reading before := by
  cases perform_move h with
  | read => exact ⟨_, rfl⟩
  | @count caller => cases caller <;> cases ht'
  | @leave caller => cases caller <;> cases ht'
  | _ => cases ht'

/-- A task that picks up no entries goes on as one. -/
theorem perform_lists (h : t.perform pool choice = some (op, t')) (ht : t.lists = false) :
    t'.lists = false := by
  by_contra hne
  cases t' with
  | passing pc =>
    cases pc with
    | collecting held =>
      obtain ⟨before, id, rfl, -⟩ := perform_collecting h rfl
      cases ht
    | _ => exact hne rfl
  | reading held =>
    obtain ⟨before, rfl⟩ := perform_reading h rfl
    cases ht
  | _ => exact hne rfl

/-- A task that picks up no entries is given nothing for them. -/
theorem listing_eq_zero (h : t.lists = false) (choice : Choice) : t.listing choice = 0 := by
  unfold listing
  split
  · cases h
  · cases h
  · rfl

/-- Sessions that are created give a pass its share of them, and other tasks nothing. -/
theorem unlisted_mono (t : Task) {created later : Nat} (h : created ≤ later) :
    t.unlisted later + 25 * created ≤ t.unlisted created + 25 * later := by
  unfold unlisted
  split
  · omega
  · omega

/-- A pass is given for an entry what it has for one of those that it has not listed. -/
theorem perform_unlisted (created : Nat) (h : t.perform pool choice = some (op, t'))
    (ht : ∀ held, t ≠ .reading held)
    (hheld : ∀ held, t' = .passing (.collecting held) → held.length ≤ created) :
    t.listing choice + t'.unlisted created ≤ t.unlisted created := by
  by_cases hlisting : ∃ held, t' = .passing (.collecting held)
  · obtain ⟨held, rfl⟩ := hlisting
    obtain ⟨before, id, rfl, rfl, -, -, rfl⟩ := perform_collecting h rfl
    have hle := hheld _ rfl
    simp only [listing, unlisted, TermPc.work, List.length_append, List.length_singleton] at hle ⊢
    omega
  · have hzero : t'.unlisted created = 0 := by
      unfold unlisted
      split
      · exact absurd ⟨_, rfl⟩ hlisting
      · rfl
    have hcredit : t.listing choice = 0 := by
      unfold listing
      split
      · -- with an entry more, the pass is still listing
        have h : performPass pool.options (.collecting _) (.session _) = some (op, t') := h
        rw [performPass] at h
        split at h <;> cases h
        exact absurd ⟨_, rfl⟩ hlisting
      · exact absurd rfl (ht _)
      · rfl
    omega

end Task

section

variable {pool : SessionPool} {dirs : Finset PathBuf} {P : State → Action → Prop} {s s' : State}
  {a : Action} {as as' : List Action} {i : Nat} {t : Task}

/-- A pass has listed no more entries than there have been. -/
def State.ListsBounded (s : State) : Prop :=
  ∀ held, .passing (.collecting held) ∈ s.tasks → held.length ≤ s.memory.heap.length

/-- It lists an entry once, while it refers to it. -/
theorem listsBounded_of_reach (h : Reach pool dirs P as s) : s.ListsBounded := by
  intro held hheld
  have hnodup : held.Nodup := by
    refine tasks_of_reach (Q := fun t => ∀ held, t = .passing (.collecting held) → held.Nodup)
      ?_ nofun ?_ h _ hheld held rfl
    · intro request held h
      cases request <;> cases h
      exact .nil
    · intro t choice op t' hperform ht held ht'
      obtain ⟨before, id, rfl, -, hid, -, rfl⟩ := Task.perform_collecting hperform ht'
      exact List.nodup_append.2 ⟨ht before rfl, List.nodup_singleton id,
        fun j hj k hk heq => hid (List.mem_singleton.1 hk ▸ heq ▸ hj)⟩
  have hlt : held.toFinset ⊆ Finset.range s.memory.heap.length := by
    intro id hid
    obtain ⟨j, hj⟩ := List.mem_iff_getElem?.1 hheld
    refine Finset.mem_range.2 ((refs_of_reach h).lt_of_mem hj ?_)
    exact List.mem_map_of_mem (List.mem_toFinset.1 hid)
  have hcard := Finset.card_le_card hlt
  rwa [List.toFinset_card_of_nodup hnodup, Finset.card_range] at hcard

/-- What a step is to task `i`: a turn of it, or none that concerns it. -/
theorem task_step (ht : s.tasks[i]? = some t) (hs : step pool s a = some s') :
    (∃ op t', Turn pool i t a op t' ∧ a.turns i = true ∧ s.memory.enabled op = true ∧
      s'.tasks[i]? = some t' ∧ s'.memory = s.memory.effect op) ∨
    (a.turns i = false ∧ s'.tasks[i]? = some t ∧
      s.memory.heap.length ≤ s'.memory.heap.length) := by
  have hlt := (List.getElem?_eq_some_iff.1 ht).1
  rcases step_cases hs with ⟨j, u, op, u', hu, turn, he, rfl⟩ | ⟨request, rfl, rfl⟩ |
    ⟨c, rfl, -, rfl⟩ | ⟨d, rfl, rfl⟩
  · by_cases hj : j = i
    · subst hj
      obtain rfl := Option.some.inj (hu.symm.trans ht)
      exact .inl ⟨op, u', turn, by cases turn <;> simp [Action.turns], he,
        List.getElem?_set_self hlt, rfl⟩
    · refine .inr ⟨by cases turn <;> simp [Action.turns, hj], ?_, ?_⟩
      · rw [List.getElem?_set_ne hj]
        exact ht
      · rw [Memory.effect_heap_length]
        exact Nat.le_add_right _ _
  · exact .inr ⟨rfl, (List.getElem?_append_left hlt).trans ht, Nat.le_refl _⟩
  · exact .inr ⟨rfl, ht, Nat.le_refl _⟩
  · exact .inr ⟨rfl, ht, Nat.le_refl _⟩

/-- **The rule for one task.** What its turns keep is true of it after a run. -/
theorem task_of_run {Q : Task → Prop}
    (hturn : ∀ t a op t', Turn pool i t a op t' → Q t → Q t') (h : Run (step pool) P s as s')
    (hs : ∃ t, s.tasks[i]? = some t ∧ Q t) : ∃ t, s'.tasks[i]? = some t ∧ Q t := by
  refine h.preserves (I := fun s => ∃ t, s.tasks[i]? = some t ∧ Q t) ?_ hs
  rintro s a s' ⟨t, ht, hQ⟩ - hstep
  rcases task_step ht hstep with ⟨op, t', turn, -, -, ht', -⟩ | ⟨-, ht', -⟩
  · exact ⟨t', ht', hturn t a op t' turn hQ⟩
  · exact ⟨t, ht', hQ⟩

/-- A task that picks up no entries goes on as one. -/
theorem Turn.lists {op : Op} {t' : Task} (turn : Turn pool i t a op t') (h : t.lists = false) :
    t'.lists = false := by
  cases turn with
  | perform hperform => exact Task.perform_lists hperform h
  | drop => rfl

/-- What is no turn of task `i` lists nothing for it. -/
theorem listing_of_turns (h : a.turns i = false) : s.listing i a = 0 := by
  cases a with
  | task j choice => exact if_neg (of_decide_eq_false h)
  | _ => rfl

/-- What the step of a task that an action is lists. -/
theorem Turn.listing_cases {op : Op} {t' : Task} (turn : Turn pool i t a op t')
    (ht : s.tasks[i]? = some t) :
    (∃ choice, t.perform pool choice = some (op, t') ∧ a = .task i choice ∧
      s.listing i a = t.listing choice) ∨ t.droppable = true ∧ t' = .done ∧ s.listing i a = 0 := by
  cases turn with
  | @perform choice _ _ h => exact .inl ⟨choice, h, rfl, by simp [State.listing, ht]⟩
  | drop h => exact .inr ⟨h, rfl, rfl⟩

/-- A turn takes from the work before its task, and nothing else does. -/
theorem work_step (ht : s.tasks[i]? = some t) (hs : step pool s a = some s') :
    (if a.turns i then 1 else 0) + s'.work i + 0 ≤ s.work i + 0 + s.listing i a := by
  rcases task_step ht hs with ⟨op, t', turn, hturn, -, ht', -⟩ | ⟨hturn, ht', -⟩
  · simp only [State.work, ht, ht', hturn, if_true, Option.map_some, Option.getD_some]
    rcases turn.listing_cases ht with ⟨choice, hperform, -, hlisting⟩ | ⟨hdrop, rfl, hlisting⟩
    · have := (Task.perform_step hperform).work
      omega
    · have := Task.work_pos (Task.finished_of_droppable hdrop)
      have hdone : Task.done.work = 0 := rfl
      omega
  · simp [State.work, ht, ht', hturn]

/-- What a pass lists was not listed before, or has been created since. -/
theorem unlisted_step {u : Task} (ht : s.tasks[i]? = some u) (hu : ∀ held, u ≠ .reading held)
    (hlists : s'.ListsBounded) (hs : step pool s a = some s') :
    s.listing i a + s'.unlisted i + 25 * s.memory.heap.length
      ≤ s.unlisted i + 25 * s'.memory.heap.length + 0 := by
  rcases task_step ht hs with ⟨op, t', turn, -, -, ht', hmem⟩ | ⟨hturn, ht', hle⟩
  · have hle : s.memory.heap.length ≤ s'.memory.heap.length := by
      rw [hmem, Memory.effect_heap_length]
      exact Nat.le_add_right _ _
    have hmono := u.unlisted_mono hle
    simp only [State.unlisted, ht, ht', Option.map_some, Option.getD_some]
    rcases turn.listing_cases ht with ⟨choice, hperform, -, hlisting⟩ | ⟨-, rfl, hlisting⟩
    · have hunlisted := Task.perform_unlisted s'.memory.heap.length hperform hu
        fun held hheld => hlists held (hheld ▸ List.mem_of_getElem? ht')
      omega
    · have hdone : Task.done.unlisted s'.memory.heap.length = 0 := rfl
      omega
  · have hmono := u.unlisted_mono hle
    rw [listing_of_turns hturn]
    simp only [State.unlisted, ht, ht', Option.map_some, Option.getD_some]
    omega

/-- The turns of a task are within the work before it and what its listing adds to that. -/
theorem turns_le (ht : s.tasks[i]? = some t) (h : Run (step pool) P s as s') :
    as.countP (Action.turns i) ≤ t.work + spent (step pool) (State.listing i) s as := by
  have hpaid := h.spent_le (I := fun s => ∃ t, s.tasks[i]? = some t ∧ True)
    (fun _ a => if a.turns i then 1 else 0) (State.listing i) (State.work i) (fun _ => 0)
    (fun bs u hbs => task_of_run (fun _ _ _ _ _ _ => trivial) hbs ⟨t, ht, trivial⟩)
    (fun u a v hu _ _ hs => by
      obtain ⟨t', ht', -⟩ := hu
      exact work_step ht' hs)
  rw [h.spent_eq_countP] at hpaid
  have hwork : s.work i = t.work := by simp [State.work, ht]
  omega

/-- What does not list is given nothing. -/
theorem listing_none (ht : s.tasks[i]? = some t) (hlists : t.lists = false)
    (h : Run (step pool) P s as s') : spent (step pool) (State.listing i) s as = 0 := by
  have hle := h.spent_le_mul (I := fun s => ∃ t, s.tasks[i]? = some t ∧ t.lists = false)
    (State.listing i) (fun _ _ => 0) 0
    (fun bs u hbs => task_of_run (fun _ _ _ _ turn => turn.lists) hbs ⟨t, ht, hlists⟩)
    (fun u a hu => by
      obtain ⟨t', ht', hlists'⟩ := hu
      cases a with
      | task j choice => simp [State.listing, ht', Task.listing_eq_zero hlists']
      | _ => exact Nat.zero_le _)
  omega

/-- A reader is given two turns for each entry that it picks up. -/
theorem listing_reader (ht : s.tasks[i]? = some (.reading [])) (h : Run (step pool) P s as s') :
    spent (step pool) (State.listing i) s as ≤ 2 * as.countP (Action.lists i) := by
  have hle := h.spent_le_mul
    (I := fun s => ∃ t, s.tasks[i]? = some t ∧ ((∃ held, t = .reading held) ∨ t = .done))
    (State.listing i) (fun _ a => if a.lists i then 1 else 0) 2 ?_ ?_
  · rwa [h.spent_eq_countP] at hle
  · refine fun bs u hbs => task_of_run ?_ hbs ⟨_, ht, .inl ⟨[], rfl⟩⟩
    rintro t a op t' turn ht
    cases turn with
    | perform hperform =>
      rcases ht with ⟨held, rfl⟩ | rfl
      · cases Task.perform_move hperform with
        | read => exact .inl ⟨_, rfl⟩
        | readAll => exact .inr rfl
      · cases hperform
    | drop => exact .inr rfl
  · rintro u a ⟨t, ht, hreads⟩
    cases a with
    | task j choice =>
      by_cases hj : j = i
      · rcases hreads with ⟨held, rfl⟩ | rfl
        · cases choice <;> simp [State.listing, ht, hj, Task.listing, Action.lists]
        · simp [State.listing, ht, Task.listing]
      · simp [State.listing, hj]
    | _ => exact Nat.zero_le _

/-- A pass is given its share of each session that has been created. -/
theorem listing_pass (h : Reach pool dirs P as s)
    (ht : s.tasks[i]? = some (.passing (.collecting []))) (h' : Run (step pool) P s as' s') :
    spent (step pool) (State.listing i) s as' ≤ 25 * s'.memory.heap.length := by
  have hpaid := h'.spent_le
    (I := fun s => (∃ t, s.tasks[i]? = some t ∧ ∀ held, t ≠ .reading held) ∧ s.ListsBounded)
    (State.listing i) (fun _ _ => 0) (State.unlisted i) (25 * ·.memory.heap.length) ?_ ?_
  · have hnone : spent (step pool) (fun _ _ => 0) s as' ≤ 0 * _ :=
      h'.spent_le_mul (I := fun _ => True) _ (State.listing i) 0 (fun _ _ _ => trivial)
        fun _ _ _ => Nat.zero_le _
    have hall : s.unlisted i = 25 * s.memory.heap.length := by
      simp [State.unlisted, ht, Task.unlisted]
    omega
  · refine fun bs u hbs => ⟨task_of_run ?_ hbs ⟨_, ht, nofun⟩, listsBounded_of_reach (h.trans hbs)⟩
    rintro t a op t' turn hne held rfl
    cases turn with
    | perform hperform =>
      obtain ⟨before, rfl⟩ := Task.perform_reading hperform rfl
      exact hne before rfl
  · rintro u a v ⟨⟨t, ht, hne⟩, -⟩ ⟨-, hlists⟩ - hs
    exact unlisted_step ht hne hlists hs

/-- **A request takes a bounded number of turns**, in any interleaving with all else: a maintenance
pass a number that is linear in the sessions created by then, a reader in the entries that it picks
up, and every other request a constant one, up to the end of the session that it may come to own. -/
theorem turns_bounded (h : Reach pool dirs P as s) (request : Request)
    (h' : Run (step pool) P s (.arrive request :: as') s') :
    as'.countP (Action.turns s.tasks.length)
      ≤ request.turnLimit s'.memory.heap.length (as'.countP (Action.lists s.tasks.length)) := by
  obtain ⟨s₁, hp, harrive, hrun⟩ := h'.cons_inv
  have hreach : Reach pool dirs P (as ++ [.arrive request]) s₁ := .snoc h hp harrive
  have ht : s₁.tasks[s.tasks.length]? = some request.task := by
    obtain rfl := Option.some.inj harrive
    simp
  have hle := turns_le ht hrun
  cases request with
  | create | connectExisting | delete =>
    rw [listing_none ht rfl hrun] at hle
    exact hle
  | maintenance =>
    have hlisting := listing_pass hreach ht hrun
    have hwork : Request.maintenance.task.work = 2 := rfl
    rw [Request.turnLimit]
    omega
  | inspect =>
    have hlisting := listing_reader ht hrun
    have hwork : Request.inspect.task.work = 1 := rfl
    rw [Request.turnLimit]
    omega

/-- A session is created by a REST request: its task takes nine turns. -/
theorem turns_bounded_create :
    (insertActions 0 0 "/tmp/eiger-chrome-a" 0).countP (Action.turns 0) ≤ 31 := by
  have hstart : Reach (examplePool 1) ∅ anyAction [] (.init (examplePool 1) ∅) := .nil
  have hrun : Run (step (examplePool 1)) anyAction (.init (examplePool 1) ∅) createOne
      (exampleState 1 createOne) := run_after (by decide)
  exact turns_bounded hstart (.create .rest .default) hrun

end

end Eiger
