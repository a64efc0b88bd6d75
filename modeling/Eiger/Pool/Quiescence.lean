import Eiger.Pool.Lifecycle
import Eiger.Pool.Profiles
import Eiger.Pool.Waits

/-!
# The pool at rest

A state is at rest when every task in it has returned. What is there then belongs to a session in
the map: each permit that is not available, each entry that is still allocated, each temporary
directory that the pool has made, and, if no launch has been cut, each child that has been neither
signalled nor reaped (`rest_clean`). It is so after any run, with whatever timeouts, failures,
dropped handlers and concurrent terminations in it.

And a pool can always get there: from every reachable state the tasks can be run to their ends and
the sessions deleted, after which every permit is available (`recovers`).
-/

namespace Eiger

open Transition Tally

/-! ## Directories -/

/-- The path of a persistent profile, or of the directory all browsers share. -/
def SessionPool.PersistentPath (pool : SessionPool) (path : PathBuf) : Prop :=
  pool.browserOptions.userDataDir = some path ∨
    ∃ base profileId, pool.options.profileStorageDir = some base ∧
      profilePath base profileId = .ok path

/-- Launch options select a persistent path, if any. -/
theorem SessionPool.persistentPath_of_launchOptions {pool : SessionPool}
    {overrides : SessionOverrides} {options : ChromeLaunchOptions} {path : PathBuf}
    (h : pool.launchOptions overrides = .ok options) (hpath : options.userDataDir = some path) :
    pool.PersistentPath path := by
  have hdir := launchOptions_userDataDir h
  rw [hpath] at hdir
  cases hid : overrides.persistentProfileId with
  | none =>
    rw [hid] at hdir
    exact .inl (Except.ok.inj hdir)
  | some profileId =>
    rw [hid, userDataDir] at hdir
    cases hbase : pool.options.profileStorageDir with
    | none =>
      rw [hbase] at hdir
      cases hdir
    | some base =>
      rw [hbase] at hdir
      cases hprofile : profilePath base profileId with
      | error e =>
        simp only [hprofile] at hdir
        cases hdir
      | ok path' =>
        simp only [hprofile] at hdir
        cases hdir
        exact .inr ⟨base, profileId, hbase, hprofile⟩

/-- A directory is created for a launch that selects it. -/
theorem Task.perform_createDirAll {pool : SessionPool} {choice : Choice} {t t' : Task}
    {path : PathBuf} (h : t.perform pool choice = some (.createDirAll path, t')) :
    ∃ caller overrides options, t = .creating caller overrides (.starting options) ∧
      options.userDataDir = some path := by
  cases perform_step h with
  | create step =>
    cases step with
    | persistent hdir => exact ⟨_, _, _, rfl, hdir⟩
  | respond step => cases step
  | connect step => cases step
  | terminate step =>
    cases step with
    | shut hs => cases hs
  | pass step => cases step

namespace Memory

variable {m : Memory} {path : PathBuf}

/-- A directory is gone with the `TempDir` that holds it. -/
theorem not_mem_dropPlain {l : Local} (h : l.holdsTemp path = true) :
    path ∉ (m.dropPlain l).dirs := by
  cases l with
  | dir d =>
    obtain rfl := of_decide_eq_true h
    exact Finset.notMem_erase path m.dirs
  | browser b =>
    have hd : b.userDataDir = .temporary path := of_decide_eq_true h
    rw [dropPlain, dropBrowser, hd]
    exact Finset.notMem_erase path _
  | _ => cases h

/-- A destructor makes no directory. -/
theorem dropPlain_dirs (m : Memory) (l : Local) : (m.dropPlain l).dirs ⊆ m.dirs := by
  have hdir : ∀ (m : Memory) (d : UserDataDir), (m.dropDir d).dirs ⊆ m.dirs := by
    intro m d
    cases d with
    | temporary path => exact Finset.erase_subset path m.dirs
    | persistent path => exact Finset.Subset.refl _
  cases l with
  | dir d => exact hdir m d
  | browser b => exact hdir (m.updateChild b.child killChild) b.userDataDir
  | _ => exact Finset.Subset.refl _

/-- A directory that destructors leave is held by none of their values. -/
theorem mem_of_mem_dropAll {ls : List Local} (h : path ∈ (m.dropAll ls).dirs) :
    path ∈ m.dirs ∧ ls.countP (Local.holdsTemp path) = 0 := by
  induction ls generalizing m with
  | nil => exact ⟨h, rfl⟩
  | cons l ls ih =>
    obtain ⟨hmem, hzero⟩ := ih h
    refine ⟨m.dropPlain_dirs l hmem, ?_⟩
    rw [List.countP_cons, hzero, if_neg fun hl => not_mem_dropPlain hl hmem]

/-- A directory after an operation was there before it and is not destroyed, or it is made by it. -/
theorem mem_dirs_of_effect {op : Op} (h : path ∈ (m.effect op).dirs) :
    path ∈ m.dirs ∧ (op.destroyed m.heap).countP (Local.holdsTemp path) = 0 ∨
      op = .tempdir path ∨ op = .createDirAll path := by
  cases op with
  | release frame =>
    rw [effect_release, release_eq] at h
    exact .inl (mem_of_mem_dropAll h)
  | createDirAll p =>
    rcases Finset.mem_insert.1 h with rfl | h
    · exact .inr (.inr rfl)
    · exact .inl ⟨h, rfl⟩
  | tempdir p =>
    rcases Finset.mem_insert.1 h with rfl | h
    · exact .inr (.inl rfl)
    · exact .inl ⟨h, rfl⟩
  | countRecycle id reason =>
    obtain ⟨_, _, hframe⟩ := m.countRecycle_frame id reason
    rw [hframe] at h
    exact .inl ⟨h, rfl⟩
  | _ => exact .inl ⟨h, rfl⟩

end Memory

/-- Each directory was there from the start, or is a persistent one, or is held by its `TempDir`. -/
def State.DirsHeld (pool : SessionPool) (dirs : Finset PathBuf) (s : State) : Prop :=
  ∀ path ∈ s.memory.dirs, path ∈ dirs ∨ pool.PersistentPath path ∨
    0 < s.holders (Local.holdsTemp path)

section

variable {pool : SessionPool} {dirs : Finset PathBuf} {P : State → Action → Prop} {s s' : State}
  {a : Action} {as as' : List Action}

/-- Every action keeps the directories held. -/
theorem dirsHeld_step (hrefs : s.Refs) (hlaunch : ∀ t ∈ s.tasks, t.launchesOn pool)
    (h : s.DirsHeld pool dirs) (hs : step pool s a = some s') : s'.DirsHeld pool dirs := by
  rcases step_cases hs with ⟨i, t, op, t', ht, turn, he, rfl⟩ | ⟨request, rfl, rfl⟩ |
    ⟨c, rfl, -, rfl⟩ | ⟨d, rfl, rfl⟩
  · intro path hpath
    have hbal := holders_turn (Local.plain_holdsTemp path) (Local.splits_holdsTemp path) hrefs ht
      turn he
    rcases Memory.mem_dirs_of_effect hpath with ⟨hmem, hzero⟩ | rfl | rfl
    · refine (h path hmem).imp_right fun hcases => hcases.imp_right fun hpos => ?_
      omega
    · have hmade : (Op.tempdir path).made.countP (Local.holdsTemp path) = 1 := by
        simp [Op.made, Local.holdsTemp]
      have hdes : ((Op.tempdir path).destroyed s.memory.heap).countP (Local.holdsTemp path) = 0 :=
        rfl
      exact .inr (.inr (by omega))
    · cases turn with
      | perform hperform =>
        obtain ⟨caller, overrides, options, rfl, hdir⟩ := Task.perform_createDirAll hperform
        exact .inr (.inl (SessionPool.persistentPath_of_launchOptions
          (hlaunch _ (List.mem_of_getElem? ht)) hdir))
  · intro path hpath
    have := h path hpath
    simpa [State.holders, State.sum, request.task_locals] using this
  · exact h
  · exact h

/-- In every reachable state the directories are held. -/
theorem dirsHeld_of_reach (h : Reach pool dirs P as s) : s.DirsHeld pool dirs := by
  refine h.preserves_of (I := State.DirsHeld pool dirs)
    (J := fun s => s.Refs ∧ ∀ t ∈ s.tasks, t.launchesOn pool)
    (fun _ _ h => ⟨refs_of_reach h, launchesOn_of_reach h⟩)
    (fun _ _ _ hJ _ hi _ hs => dirsHeld_step hJ.1 hJ.2 hi hs) fun path hpath => .inl hpath

end

/-! ## At rest -/

/-- A task that has returned owns nothing. -/
theorem Task.locals_of_finished {t : Task} (h : t.finished = true) : t.locals = [] := by
  cases t with
  | creating caller overrides pc => cases pc <;> first | rfl | cases h
  | done => rfl
  | _ => cases h

namespace State

/-- Every task has returned. -/
def AtRest (s : State) : Prop := ∀ t ∈ s.tasks, t.finished = true

instance (s : State) : Decidable s.AtRest := inferInstanceAs (Decidable (∀ t ∈ s.tasks, _))

/-- The browser of session `id`, which is in the map. -/
def BrowserOf (s : State) (id : Uuid) (b : LaunchedBrowser) : Prop :=
  id ∈ s.memory.sessions ∧ ∃ e, s.memory.entryAt id = some e ∧ e.browser = some b

/-- **What is there belongs to the sessions in the map**: the permits that are not available, the
references to entries, the temporary directories and the sessions counted as created that have not
been removed. -/
structure Clean (pool : SessionPool) (dirs : Finset PathBuf) (s : State) : Prop where
  permits : s.memory.permits + s.memory.sessions.card = pool.options.maxConcurrentSessions
  strong : ∀ id, s.memory.strong id = if id ∈ s.memory.sessions then 1 else 0
  dirs : ∀ path ∈ s.memory.dirs, path ∈ dirs ∨ pool.PersistentPath path ∨
    ∃ id b, s.BrowserOf id b ∧ b.userDataDir = .temporary path
  created : s.memory.sessionsCreatedTotal = s.memory.sessions.card + s.removals

variable {s : State}

/-- At rest the tasks add nothing to a sum of what they own. -/
theorem AtRest.sum_eq_zero (h : s.AtRest) {f : Task → Nat}
    (hf : ∀ t : Task, t.finished = true → f t = 0) : s.sum f = 0 :=
  tally_eq_zero.2 fun _ _ ht => hf _ (h _ (List.mem_of_getElem? ht))

/-- At rest the map alone refers to entries. -/
theorem AtRest.strong_eq (h : s.AtRest) (hrefs : s.Refs) (id : Uuid) :
    s.memory.strong id = if id ∈ s.memory.sessions then 1 else 0 := by
  rw [hrefs id, h.sum_eq_zero fun t ht => by simp [Task.refs, Task.locals_of_finished ht],
    Nat.add_zero]
  rfl

/-- At rest a value that is held is the browser of a session, unless it is a permit. -/
theorem AtRest.holders_pos (h : s.AtRest) (hrefs : s.Refs) {p : Local → Bool}
    (hp : p .permit = false) (hpos : 0 < s.holders p) :
    ∃ id b, s.BrowserOf id b ∧ p (.browser b) = true := by
  have htasks : s.sum (fun t => t.locals.countP p) = 0 :=
    h.sum_eq_zero fun t ht => by rw [Task.locals_of_finished ht]; rfl
  rw [holders, htasks, Nat.zero_add] at hpos
  obtain ⟨id, e, b, hlive, he, hb, hmeets⟩ := (Memory.held_pos_iff hp).1 hpos
  have hid : id ∈ s.memory.sessions := by
    by_contra hne
    rw [h.strong_eq hrefs, if_neg hne] at hlive
    exact Nat.lt_irrefl 0 hlive
  exact ⟨id, b, ⟨hid, e, he, hb⟩, hmeets⟩

end State

section

variable {pool : SessionPool} {dirs : Finset PathBuf} {P : State → Action → Prop} {s s' : State}
  {a : Action} {as as' : List Action}

/-- A pool at rest is clean. -/
theorem State.AtRest.clean (hrest : s.AtRest) (h : Reach pool dirs anyAction as s) :
    s.Clean pool dirs := by
  have hrefs := refs_of_reach h
  refine ⟨?_, hrest.strong_eq hrefs, ?_, ?_⟩
  · have hall := allPermits_of_reach h
    have htasks : s.sum (fun t => t.locals.countP Local.isPermit) = 0 :=
      hrest.sum_eq_zero fun t ht => by rw [Task.locals_of_finished ht]; rfl
    have hreferenced : s.referenced = s.memory.sessions := by
      ext id
      rw [State.referenced, Finset.mem_filter, Finset.mem_range]
      constructor
      · rintro ⟨-, hmem | ⟨t, ht, hl⟩⟩
        · exact hmem
        · rw [Task.locals_of_finished (hrest t ht)] at hl
          cases hl
      · exact fun hmem => ⟨hrefs.mapCounted.lt hmem, .inl hmem⟩
    rw [State.allPermits, htasks, hrefs.held_isPermit, hreferenced] at hall
    exact hall
  · intro path hpath
    refine (dirsHeld_of_reach h path hpath).imp_right fun hcases => hcases.imp_right fun hpos => ?_
    obtain ⟨id, b, hb, hd⟩ := hrest.holders_pos hrefs rfl hpos
    exact ⟨id, b, hb, of_decide_eq_true hd⟩
  · have hcreated := (counted_of_reach h).created
    rwa [hrest.sum_eq_zero, Nat.add_zero] at hcreated
    intro t ht
    cases t with
    | creating caller overrides pc => cases pc <;> first | rfl | cases ht
    | _ => rfl

/-- **A pool at rest is clean**, whatever timeouts, failures, dropped handlers and terminations
there have been; and where no launch has been cut, each child that has been neither signalled nor
reaped is the browser of a session in the map. -/
theorem rest_clean (h : Reach pool dirs anyAction as s) (hrest : s.AtRest) :
    s.Clean pool dirs ∧
      (Reach pool dirs (fun s a => keepsLaunches s a = true) as s →
        ∀ c ∈ s.unsettled, ∃ id b, s.BrowserOf id b ∧ b.child = c) := by
  refine ⟨hrest.clean h, fun hkeeps c hc => ?_⟩
  obtain ⟨hlt, hunsettled⟩ := Finset.mem_filter.1 hc
  rcases settled_or_held hkeeps c (Finset.mem_range.1 hlt) with hsettled | hpos
  · rw [hunsettled] at hsettled
    cases hsettled
  · obtain ⟨id, b, hb, hchild⟩ := hrest.holders_pos (refs_of_reach h) rfl hpos
    exact ⟨id, b, hb, of_decide_eq_true hchild⟩

end

/-- A session is created by a REST request that the client drops while it drives the browser. -/
def restDropped : List Action :=
  createOne ++ [.task 0 .go, .task 0 .go, .task 0 .go, .dropFuture 0]

/-- The theorem after that: the pool is at rest, and its permit is with the session in the map. -/
theorem rest_clean_dropped :
    (exampleState 1 restDropped).memory.permits
      + (exampleState 1 restDropped).memory.sessions.card = 1 := by
  have hrun : Reach (examplePool 1) ∅ anyAction restDropped (exampleState 1 restDropped) :=
    run_after (by decide)
  exact (rest_clean hrun (by decide)).1.permits

/-! ## Getting there -/

/-- The guard of a recovery: tasks step, children exit that have been sent a `SIGKILL`, and sessions
that are in the map are deleted. -/
def recovering (s : State) : Action → Bool
  | .task .. => true
  | .exit c => s.memory.childIs ChildProcess.sigkill c
  | .arrive (.delete id) => id ∈ s.memory.sessions
  | _ => false

/-- Whether a `create_session` call may still insert a session. -/
def CreatePc.launches : CreatePc → Bool
  | .queued => true
  | .granted => true
  | .starting _ => true
  | .prepared .. => true
  | .waiting .. => true
  | .injecting .. => true
  | .launched .. => true
  | .recording .. => true
  | .recorded .. => true
  | _ => false

/-- 1 if the task may still insert a session. -/
def Task.launches : Task → Nat
  | .creating _ _ pc => if pc.launches then 1 else 0
  | _ => 0

section

variable {pool : SessionPool} {choice : Choice} {op : Op} {t t' : Task}

/-- A creation inserts one session at most. -/
theorem CreateStep.launches {caller : Caller} {overrides : SessionOverrides} {pc : CreatePc}
    (step : CreateStep pool caller overrides pc choice op t') :
    t'.launches + op.inserts ≤ (Task.creating caller overrides pc).launches := by
  cases step with
  | count => cases caller <;> exact Nat.le_refl _
  | noPlan | noStart | noSpawn | unready => exact Nat.zero_le _
  | closed | timedOut => exact Nat.zero_le _
  | _ => exact Nat.le_refl _

/-- So does a task. -/
theorem TaskStep.launches (step : TaskStep pool t choice op t') :
    t'.launches + op.inserts ≤ t.launches := by
  cases step with
  | create step => exact step.launches
  | respond step => cases step <;> exact Nat.le_refl _
  | connect step => cases step <;> exact Nat.le_refl _
  | @terminate caller _ _ _ _ _ _ step =>
    cases step with
    | shut hs => cases hs <;> exact Nat.le_refl _
    | leave => cases caller <;> exact Nat.le_refl _
    | _ => exact Nat.le_refl _
  | pass step =>
    cases step.move with
    | pass hq | condemn hq =>
      rw [Op.inserts_quiet hq]
      exact Nat.le_refl _
    | passed => exact Nat.le_refl _
  | _ => exact Nat.le_refl _

end

/-- How far a pool is from rest: the work before its tasks, and before the deletions of its
sessions, those that are yet to be inserted among them. -/
def State.distance (s : State) : Nat :=
  s.sum Task.work + TermPc.removing.work * (s.sum Task.launches + s.memory.sessions.card)

section

variable {pool : SessionPool} {dirs : Finset PathBuf} {P : State → Action → Prop} {s s' : State}
  {a : Action} {as as' : List Action}

/-- An operation adds the sessions that it inserts to the map. -/
theorem Op.card_sessions_le (op : Op) (ids : Finset Uuid) :
    (op.sessions ids).card ≤ ids.card + op.inserts := by
  cases op with
  | insert id stealth b => exact Finset.card_insert_le id ids
  | remove id => exact Finset.card_le_card (Finset.erase_subset id ids)
  | _ => exact Nat.le_refl _

/-- A step that takes from the work of its task brings the pool nearer to rest. -/
theorem distance_step {i : Nat} {t t' : Task} {choice : Choice} {op : Op}
    (ht : s.tasks[i]? = some t) (h : t.perform pool choice = some (op, t'))
    (hwork : t'.work < t.work) :
    ({ memory := s.memory.effect op, tasks := s.tasks.set i t' } : State).distance <
      s.distance := by
  have hsum := tally_set (f := Task.work) ht t'
  have hlaunches := tally_set (f := Task.launches) ht t'
  have hinserts := (Task.perform_step h).launches
  have hcard := op.card_sessions_le s.memory.sessions
  simp only [State.distance, State.sum, Memory.effect_sessions, TermPc.work]
  omega

/-- Where a task can step, the pool can get nearer to rest. -/
theorem CanStep.exists_step {i : Nat} {t : Task} (h : CanStep pool s.memory t)
    (ht : s.tasks[i]? = some t) :
    ∃ choice s', step pool s (.task i choice) = some s' ∧ s'.distance < s.distance := by
  obtain ⟨choice, op, t', hperform, he, hwork⟩ := h
  refine ⟨choice, { memory := s.memory.effect op, tasks := s.tasks.set i t' }, ?_,
    distance_step ht hperform hwork⟩
  simp [step, ht, hperform, Memory.apply, he]

/-- Where a task has not returned, the pool can get nearer to rest by a step of it, after the exit
of its child if it awaits one. -/
theorem exists_run_task {i : Nat} {t : Task} (h : Reach pool dirs anyAction as s)
    (ht : s.tasks[i]? = some t) (hfinished : t.finished = false) :
    ∃ as' s', Run (step pool) (fun s a => recovering s a = true) s as' s' ∧
      s'.distance < s.distance := by
  have hwork := Task.work_pos hfinished
  rcases canStep_or_awaits (known_of_reach h) (refs_of_reach h) ht hwork with
    hcan | ⟨c, hc, hrunning⟩
  · obtain ⟨choice, s', hstep, hlt⟩ := hcan.exists_step ht
    exact ⟨_, s', .single rfl hstep, hlt⟩
  · have hexit : step pool s (.exit c) = some { s with
        memory := s.memory.updateChild c fun ch => { ch with status := .exited } } :=
      if_pos hrunning
    have hreach := Run.snoc h trivial hexit
    rcases canStep_or_awaits (known_of_reach hreach) (refs_of_reach hreach) ht hwork with
      hcan | ⟨c', hc', hrunning'⟩
    · obtain ⟨choice, s', hstep, hlt⟩ := hcan.exists_step ht
      have hguard : recovering s (.exit c) = true :=
        awaitsKilled_of_reach h t (List.mem_of_getElem? ht) c hc
      exact ⟨_, s', .cons hguard hexit (.single rfl hstep), hlt⟩
    · -- the child whose exit is awaited has just exited
      obtain rfl := Option.some.inj (hc.symm.trans hc')
      exfalso
      obtain ⟨ch, hch, -⟩ := (Option.any_eq_true _ _).1 hrunning
      simp [Memory.enabled, Memory.updateChild, hch] at hrunning'

/-- Where a session is in the map of a pool at rest, a deletion brings it nearer to be empty. -/
theorem exists_run_delete {id : Uuid} (hid : id ∈ s.memory.sessions) :
    ∃ as' s', Run (step pool) (fun s a => recovering s a = true) s as' s' ∧
      s'.distance < s.distance := by
  let deletion : Task := .terminating .delete id "delete requested" .removing
  let deleting : Task := .terminating .delete id "delete requested" .killing
  have harrive : step pool s (.arrive (.delete id))
      = some { s with tasks := s.tasks ++ [deletion] } := rfl
  have hget : (s.tasks ++ [deletion])[s.tasks.length]? = some deletion := by simp
  have hremove : step pool { s with tasks := s.tasks ++ [deletion] } (.task s.tasks.length .go)
      = some { memory := s.memory.effect (.remove id),
               tasks := (s.tasks ++ [deletion]).set s.tasks.length deleting } := by
    simp [step, Task.perform, Task.performTerminate, Memory.apply, Memory.enabled, deletion,
      deleting, hid]
  have hguard : recovering s (.arrive (.delete id)) = true := decide_eq_true hid
  refine ⟨_, _, .cons hguard harrive (.single rfl hremove), ?_⟩
  have hcard := Finset.card_erase_add_one hid
  have hwork := tally_set (f := Task.work) hget deleting
  have hlaunches := tally_set (f := Task.launches) hget deleting
  have hdeletion : deletion.work = 17 ∧ deleting.work = 16 := ⟨rfl, rfl⟩
  have hnone : deletion.launches = 0 ∧ deleting.launches = 0 := ⟨rfl, rfl⟩
  simp only [tally_append, tally_cons, tally_nil] at hwork hlaunches
  simp only [State.distance, State.sum, Memory.effect_sessions, Op.sessions, TermPc.work]
  omega

/-- **A pool can always recover.** From every reachable state, whatever has been dropped, has failed
or hangs on the way to it, the tasks can be run to their ends and the sessions deleted, with no help
but the exits of children that have been sent a `SIGKILL`: then no session is left, and every permit
is available. -/
theorem recovers (h : Reach pool dirs anyAction as s) :
    ∃ as' s', Run (step pool) (fun s a => recovering s a = true) s as' s' ∧ s'.AtRest ∧
      s'.memory.sessions = ∅ ∧ s'.memory.permits = pool.options.maxConcurrentSessions ∧
      s'.Clean pool dirs := by
  have hnearer : ∀ s, (∃ as, Reach pool dirs anyAction as s) →
      ¬ (s.AtRest ∧ s.memory.sessions = ∅) →
      ∃ as' s', Run (step pool) (fun s a => recovering s a = true) s as' s' ∧
        (∃ as, Reach pool dirs anyAction as s') ∧ s'.distance < s.distance := by
    rintro s ⟨as, h⟩ hfinal
    have hnext : ∃ as' s', Run (step pool) (fun s a => recovering s a = true) s as' s' ∧
        s'.distance < s.distance := by
      by_cases hrest : s.AtRest
      · obtain ⟨id, hid⟩ := Finset.nonempty_iff_ne_empty.2 fun hempty => hfinal ⟨hrest, hempty⟩
        exact exists_run_delete hid
      · simp only [State.AtRest, not_forall] at hrest
        obtain ⟨t, ht, hfinished⟩ := hrest
        obtain ⟨i, hi⟩ := List.mem_iff_getElem?.1 ht
        exact exists_run_task h hi (Bool.eq_false_iff.2 hfinished)
    obtain ⟨as', s', hrun, hlt⟩ := hnext
    exact ⟨as', s', hrun, ⟨as ++ as', h.trans (hrun.mono fun _ _ _ => trivial)⟩, hlt⟩
  obtain ⟨as', s', hrun, ⟨bs, hreach⟩, hrest, hempty⟩ :=
    exists_run_final _ _ State.distance hnearer s ⟨as, h⟩
  have hclean := hrest.clean hreach
  have hpermits := hclean.permits
  rw [hempty, Finset.card_empty, Nat.add_zero] at hpermits
  exact ⟨as', s', hrun, hrest, hempty, hpermits, hclean⟩

/-- The pool of the example gets its permit back. -/
theorem recovers_dropped :
    ∃ as' s', Run (step (examplePool 1)) (fun s a => recovering s a = true)
        (exampleState 1 restDropped) as' s' ∧ s'.AtRest ∧ s'.memory.sessions = ∅ ∧
      s'.memory.permits = 1 ∧ s'.Clean (examplePool 1) ∅ := by
  have hrun : Reach (examplePool 1) ∅ anyAction restDropped (exampleState 1 restDropped) :=
    run_after (by decide)
  exact recovers hrun

end

end Eiger
