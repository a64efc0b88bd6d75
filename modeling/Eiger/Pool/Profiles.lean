import Eiger.Browser.Launch
import Eiger.Pool.Orphans

/-!
# User data directories

A session without a persistent profile runs on a temporary directory of its own: in every run
that drops no handler future, two browsers are live on one directory only if one of them was
launched with a `persistent_profile_id` whose `profile_path` that directory is
(`profile_exclusive`). A browser is live from its spawn until it has been reaped, which is how
`shutdown` and `terminate_child` end.

The pool keeps no record of the persistent profiles in use: two calls with one id run two browsers
on its directory (`profile_shared`).

Three facts make up the proof. A temporary directory has one holder (`temp_of_reach`). An entry
that is out of the map keeps its browser only while its `terminate_session` has still to take it
(`browserKept_of_reach`), so no reference that is dropped frees a browser; every child that has
not been reaped is therefore held (`reaped_or_held`), together with its directory. And a call
launches on a persistent directory only where its overrides select one (`spawnedWith_of_reach`).
-/

namespace Eiger

open Transition Tally

/-! ## Temporary directories -/

namespace Local

/-- Whether a value is the temporary directory at `path`, or a browser that owns it. -/
def holdsTemp (path : PathBuf) : Local → Bool
  | .dir d => d = .temporary path
  | .browser b => b.userDataDir = .temporary path
  | _ => false

theorem plain_holdsTemp (path : PathBuf) : Plain (holdsTemp path) := fun _ => rfl

theorem splits_holdsTemp (path : PathBuf) : Splits (holdsTemp path) := fun b => by
  simp [holdsTemp, List.countP_cons]

end Local

namespace Memory

variable {m : Memory} {path : PathBuf}

/-- A directory is removed only with its `TempDir`. -/
theorem mem_dropDir {d : UserDataDir} (h : path ∈ m.dirs) :
    path ∈ (m.dropDir d).dirs ∨ d = .temporary path := by
  cases d with
  | temporary p =>
    by_cases hp : path = p
    · exact .inr (by rw [hp])
    · exact .inl (Finset.mem_erase.2 ⟨hp, h⟩)
  | persistent p => exact .inl h

/-- A destructor leaves a directory alone, or its `TempDir` is in the value. -/
theorem mem_dropPlain {l : Local} (h : path ∈ m.dirs) :
    path ∈ (m.dropPlain l).dirs ∨ l.holdsTemp path = true := by
  cases l with
  | dir d => exact (mem_dropDir h).imp_right fun hd => by simp [Local.holdsTemp, hd]
  | browser b =>
    have h' : path ∈ (m.updateChild b.child killChild).dirs := h
    exact (mem_dropDir h').imp_right fun hd => by simp [Local.holdsTemp, hd]
  | _ => exact .inl h

/-- Destructors leave a directory alone, or its `TempDir` is among their values. -/
theorem mem_dropAll {ls : List Local} (h : path ∈ m.dirs) :
    path ∈ (m.dropAll ls).dirs ∨ 0 < ls.countP (Local.holdsTemp path) := by
  induction ls generalizing m with
  | nil => exact .inl h
  | cons l ls ih =>
    rcases mem_dropPlain (l := l) h with hl | hl
    · refine (ih hl).imp_right fun hpos => ?_
      rw [List.countP_cons]
      exact Nat.add_pos_left hpos _
    · exact .inr (List.countP_pos_iff.2 ⟨l, List.mem_cons_self .., hl⟩)

/-- An operation leaves a directory alone, or destroys its `TempDir`. -/
theorem mem_effect_dirs (op : Op) (h : path ∈ m.dirs) :
    path ∈ (m.effect op).dirs ∨ 0 < (op.destroyed m.heap).countP (Local.holdsTemp path) := by
  cases op with
  | release frame =>
    rw [effect_release, release_eq]
    exact mem_dropAll h
  | createDirAll p => exact .inl (Finset.mem_insert_of_mem h)
  | tempdir p => exact .inl (Finset.mem_insert_of_mem h)
  | countRecycle id reason =>
    obtain ⟨_, _, hframe⟩ := m.countRecycle_frame id reason
    rw [hframe]
    exact .inl h
  | _ => exact .inl h

end Memory

/-- A temporary directory has at most one holder, and exists while it has one. -/
def State.TempOnce (s : State) : Prop :=
  ∀ path, s.holders (Local.holdsTemp path) ≤ 1 ∧
    (0 < s.holders (Local.holdsTemp path) → path ∈ s.memory.dirs)

section

variable {pool : SessionPool} {dirs : Finset PathBuf} {P : State → Action → Prop} {s s' : State}
  {a : Action} {as : List Action}

/-- Every action keeps temporary directories apart. -/
theorem tempOnce_step (hrefs : s.Refs) (h : s.TempOnce) (hs : step pool s a = some s') :
    s'.TempOnce := by
  rcases step_cases hs with ⟨i, t, op, t', ht, turn, he, rfl⟩ | ⟨request, rfl, rfl⟩ |
    ⟨c, rfl, -, rfl⟩ | ⟨d, rfl, rfl⟩
  · intro path
    obtain ⟨hone, hmem⟩ := h path
    have hbal := holders_turn (Local.plain_holdsTemp path) (Local.splits_holdsTemp path) hrefs ht
      turn he
    by_cases htemp : op = .tempdir path
    · -- a new directory is one that did not exist, so that it had no holder
      subst htemp
      have hnone : s.holders (Local.holdsTemp path) = 0 := by
        by_contra hne
        exact absurd (hmem (Nat.pos_of_ne_zero hne)) (by simpa [Memory.enabled] using he)
      have hmade : (Op.tempdir path).made.countP (Local.holdsTemp path) = 1 := by
        simp [Op.made, Local.holdsTemp]
      refine ⟨by omega, fun _ => Finset.mem_insert_self _ _⟩
    · have hmade : op.made.countP (Local.holdsTemp path) = 0 := by
        cases op with
        | tempdir p =>
          have hne : p ≠ path := fun hp => htemp (by rw [hp])
          simp [Op.made, Local.holdsTemp, hne]
        | _ => rfl
      refine ⟨by omega, fun hpos => ?_⟩
      rcases Memory.mem_effect_dirs op (hmem (by omega)) with hd | hd
      · exact hd
      · omega
  · intro path
    have := h path
    simpa [State.holders, State.sum, request.task_locals] using this
  · exact h
  · exact h

/-- **A temporary directory has one holder** in every reachable state. -/
theorem temp_of_reach (h : Reach pool dirs P as s) : s.TempOnce := by
  refine h.preserves_of (I := State.TempOnce) (J := State.Refs) (fun _ _ h => refs_of_reach h) ?_ ?_
  · exact fun s a s' hrefs _ hi _ hs => tempOnce_step hrefs hi hs
  · exact fun path => ⟨Nat.zero_le _, fun h => absurd h (Nat.lt_irrefl 0)⟩

end

/-! ## Entries keep their browser for its shutdown -/

/-- The guard of `profile_exclusive`: no handler future is dropped. -/
def noDrops : State → Action → Bool
  | _, .dropFuture _ => false
  | _, _ => true

/-- The calls of `terminate_session` that have removed session `id` and not yet taken its
browser. -/
def Task.removes (id : Uuid) : Task → Nat
  | .terminating _ j _ .killing => if j = id then 1 else 0
  | .terminating _ j _ .reasoning => if j = id then 1 else 0
  | .terminating _ j _ .counting => if j = id then 1 else 0
  | .terminating _ j _ .taking => if j = id then 1 else 0
  | _ => 0

/-- A call that has still to take a browser refers to its entry. -/
theorem Task.removes_le_refs (id : Uuid) (t : Task) : t.removes id ≤ t.refs id := by
  have hrefs : ∀ j, .entry j ∈ t.locals → (if j = id then 1 else 0) ≤ t.refs id := by
    intro j hj
    split
    · next h => exact List.countP_pos_iff.2 ⟨.entry j, hj, by simpa [Local.isRef] using h⟩
    · exact Nat.zero_le _
  cases t with
  | terminating caller j reason pc =>
    cases pc with
    | killing | reasoning | counting | taking => exact hrefs j (by simp [locals, termLocals])
    | _ => exact Nat.zero_le _
  | _ => exact Nat.zero_le _

/-- A call that has still to take a browser goes on to do so. -/
theorem Move.removes {op : Op} {t t' : Task} (h : Move t op t') (id : Uuid) :
    t.removes id ≤ t'.removes id ∨ (∃ b, op = .takeBrowser id b) ∨ op = .noBrowser id := by
  cases h with
  | @take _ j _ b =>
    by_cases hj : j = id
    · exact .inr (.inl ⟨b, by rw [hj]⟩)
    · exact .inl (by simp [Task.removes, hj])
  | @noBrowser _ j =>
    by_cases hj : j = id
    · exact .inr (.inr (by rw [hj]))
    · exact .inl (by simp [Task.removes, hj])
  | kill | giveReason | countRecycle => exact .inl (Nat.le_refl _)
  | _ => exact .inl (Nat.zero_le _)

/-- The removal of a session from the map starts such a call. -/
theorem Move.removes_of_remove {id : Uuid} {t t' : Task} (h : Move t (.remove id) t') :
    t'.removes id = 1 := by
  cases h with
  | remove => exact if_pos rfl
  | create hq | respond hq | responded hq | shut hq | report hq | pass hq | condemn hq
  | read hq => cases hq

/-- Such a call drops nothing. -/
theorem Move.removes_release {frame : List Local} {t t' : Task}
    (h : Move t (.release frame) t') (id : Uuid) : t.removes id = 0 := by
  cases h with
  | _ => rfl

/-- An entry with a browser is in the map, or a call has still to take it. -/
def State.BrowserKept (s : State) : Prop :=
  ∀ id e, s.memory.entryAt id = some e → e.browser.isSome = true →
    id ∈ s.memory.sessions ∨ 0 < s.sum (Task.removes id)

section

variable {pool : SessionPool} {dirs : Finset PathBuf} {s s' : State} {a : Action} {as : List Action}

/-- A turn of a run without drops is a step. -/
theorem Turn.move {i : Nat} {t t' : Task} {op : Op} (turn : Turn pool i t a op t')
    (hp : noDrops s a = true) : Move t op t' := by
  cases turn with
  | perform h => exact Task.perform_move h
  | drop => cases hp

/-- Every action but a drop keeps the browsers of the entries. -/
theorem browserKept_step (h : s.BrowserKept) (hp : noDrops s a = true)
    (hs : step pool s a = some s') : s'.BrowserKept := by
  rcases step_cases hs with ⟨i, t, op, t', ht, turn, he, rfl⟩ | ⟨request, rfl, rfl⟩ |
    ⟨c, rfl, -, rfl⟩ | ⟨d, rfl, rfl⟩
  · intro id e' hid hb
    have hsum := tally_set (f := Task.removes id) ht t'
    have hmove := turn.move hp
    simp only [State.sum, Memory.effect_sessions]
    obtain ⟨b, hb⟩ := Option.isSome_iff_exists.1 hb
    rcases Memory.effect_entryAt_cases he hid with ⟨e, hold, rfl⟩ | ⟨stealth, b', rfl, -, -⟩
    · have hbold := Op.rewrite_browser hb
      rcases h id e hold (by rw [hbold]; rfl) with hmem | hpos
      · by_cases hrm : op = .remove id
        · subst hrm
          have hone := hmove.removes_of_remove
          have hle := le_tally (f := Task.removes id) ht
          right
          omega
        · left
          cases op with
          | remove j => exact Finset.mem_erase.2 ⟨fun hj => hrm (by rw [hj]), hmem⟩
          | insert j _ _ => exact Finset.mem_insert_of_mem hmem
          | _ => exact hmem
      · right
        simp only [State.sum] at hpos
        rcases hmove.removes id with hle | ⟨b', rfl⟩ | rfl
        · omega
        · simp [Op.rewrite] at hb
        · simp [Memory.enabled, hold, hbold] at he
    · exact .inl (Finset.mem_insert_self _ _)
  · intro id e hid hb
    refine (h id e hid hb).imp_right fun hpos => ?_
    simp only [State.sum, tally_append] at hpos ⊢
    exact Nat.add_pos_left hpos _
  · exact h
  · exact h

/-- **Entries keep their browser for its shutdown**, in every run that drops no future. -/
theorem browserKept_of_reach (h : Reach pool dirs (fun s a => noDrops s a = true) as s) :
    s.BrowserKept := by
  refine h.preserves (fun _ _ _ hi hp hs => browserKept_step hi hp hs) fun id e hid => ?_
  cases hid

end

/-- A reference that frees a browser is the last one to its entry. -/
theorem browser_mem_freed {b : LaunchedBrowser} {heap : List ArcInner} {id : Uuid}
    (h : .browser b ∈ freed heap id) :
    ∃ arc, heap[id]? = some arc ∧ arc.entry.browser = some b ∧ arc.strong = 1 := by
  unfold freed at h
  split at h
  · next arc harc =>
    split at h
    · next hone =>
      refine ⟨arc, harc, ?_, hone⟩
      rcases List.mem_append.1 h with h | h
      · obtain ⟨b', hb, he⟩ := Option.map_eq_some_iff.1 (Option.mem_toList.1 h)
        cases he
        exact hb
      · cases List.mem_singleton.1 h
    · cases h
  · cases h

/-- A browser is dropped where a frame holds it, or all the references to its entry. -/
theorem browser_mem_dropped {b : LaunchedBrowser} {heap : List ArcInner} {frame : List Local}
    (h : .browser b ∈ dropped heap frame) :
    .browser b ∈ frame ∨ ∃ id arc, heap[id]? = some arc ∧ arc.entry.browser = some b ∧
      0 < arc.strong ∧ arc.strong ≤ frame.countP (Local.isRef id) := by
  induction frame generalizing heap with
  | nil => cases h
  | cons l frame ih =>
    cases l with
    | entry j =>
      rcases List.mem_append.1 h with h | h
      · obtain ⟨arc, harc, hb, hone⟩ := browser_mem_freed h
        refine .inr ⟨j, arc, harc, hb, by omega, ?_⟩
        simp [Local.isRef, hone]
      · rcases ih h with h | ⟨id, arc, harc, hb, hpos, hle⟩
        · exact .inl (List.mem_cons_of_mem _ h)
        · right
          rw [countDown, List.getElem?_modify] at harc
          obtain ⟨arc', harc', rfl⟩ := Option.map_eq_some_iff.1 harc
          refine ⟨id, arc', harc', ?_⟩
          rw [List.countP_cons]
          by_cases hj : j = id
          · simp only [hj, if_true, Local.isRef] at hb hpos hle ⊢
            refine ⟨hb, by omega, ?_⟩
            simp only [decide_true, if_true]
            omega
          · simp only [hj, if_false] at hb hpos hle ⊢
            exact ⟨hb, hpos, Nat.le_add_right_of_le hle⟩
    | _ =>
      rcases List.mem_cons.1 h with h | h
      · exact .inl (h ▸ List.mem_cons_self ..)
      · rcases ih h with h | ⟨id, arc, harc, hb, hpos, hle⟩
        · exact .inl (List.mem_cons_of_mem _ h)
        · refine .inr ⟨id, arc, harc, hb, hpos, ?_⟩
          rw [List.countP_cons]
          exact Nat.le_add_right_of_le hle

section

variable {pool : SessionPool} {dirs : Finset PathBuf} {s s' : State} {a : Action} {as : List Action}

/-- No dropped reference frees a browser, in a run that drops no future. -/
theorem freed_none {i : Nat} {t t' : Task} {frame : List Local} {id : Uuid} {arc : ArcInner}
    (hrefs : s.Refs) (hkept : s.BrowserKept) (hp : noDrops s a = true) (ht : s.tasks[i]? = some t)
    (turn : Turn pool i t a (.release frame) t') (harc : s.memory.heap[id]? = some arc)
    (hb : arc.entry.browser.isSome = true) (hle : arc.strong ≤ frame.countP (Local.isRef id)) :
    False := by
  have hloss : frame.countP (Local.isRef id) ≤ t.refs id := turn.loss_le id
  have hstrong : s.memory.strong id = arc.strong := by simp [Memory.strong, harc]
  have hcount := hrefs id
  have htask := le_tally (f := Task.refs id) ht
  have hentry : s.memory.entryAt id = some arc.entry := by rw [Memory.entryAt, harc]; rfl
  simp only [State.sum] at hcount
  rcases hkept id arc.entry hentry hb with hmem | hremoves
  · rw [mapRefs_of_mem hmem] at hcount
    omega
  · obtain ⟨j, u, hu, hur⟩ := tally_pos.1 hremoves
    have hzero := (turn.move hp).removes_release id
    by_cases hij : i = j
    · subst hij
      obtain rfl : t = u := Option.some.inj (ht.symm.trans hu)
      omega
    · have htwo := add_le_tally (f := Task.refs id) hij ht hu
      have := u.removes_le_refs id
      omega

/-- Each destructor that lets go of a child finds it reaped, in such a run. -/
theorem destroyed_reaped {i : Nat} {t t' : Task} {op : Op} {l : Local} {c : ChildId}
    (hrefs : s.Refs) (hknown : s.Known) (hkept : s.BrowserKept) (hp : noDrops s a = true)
    (ht : s.tasks[i]? = some t) (turn : Turn pool i t a op t')
    (hl : l ∈ op.destroyed s.memory.heap) (hc : l.holdsChild c = true) :
    (s.memory.effect op).childIs ChildFact.reaped.holds c = true := by
  cases op with
  | release frame =>
    refine Memory.effect_childIs (ChildFact.kept _) _ ?_
    have hframe : l ∈ frame := by
      cases l with
      | child j => exact mem_of_child_mem_dropped hl
      | browser b =>
        rcases browser_mem_dropped hl with h | ⟨id, arc, harc, hb, -, hle⟩
        · exact h
        · exact (freed_none hrefs hkept hp ht turn harc (by rw [hb]; rfl) hle).elim
      | _ => cases hc
    cases turn with
    | perform h => exact hknown.tasks t (List.mem_of_getElem? ht) _ (Task.perform_drops h hframe hc)
    | drop => cases hp
  | _ => cases hl

/-- **Every child is reaped or held**, in every run that drops no future. -/
theorem reaped_or_held (h : Reach pool dirs (fun s a => noDrops s a = true) as s) :
    s.Owned ChildFact.reaped.holds := by
  refine h.preserves_of (I := State.Owned ChildFact.reaped.holds)
    (J := fun s => s.Refs ∧ s.Known ∧ s.BrowserKept)
    (fun _ _ h => ⟨refs_of_reach h, known_of_reach h, browserKept_of_reach h⟩) ?_ ?_
  · intro s a s' ⟨hrefs, hknown, hkept⟩ _ howned hp hs
    exact owned_step (ChildFact.kept _) hrefs howned
      (fun i t op t' ht turn _ l hl c hc _ =>
        destroyed_reaped hrefs hknown hkept hp ht turn hl hc) hs
  · intro c hc
    exact absurd hc (Nat.not_lt_zero c)

end

/-! ## Where persistent directories come from -/

/-- The launch options carry the directory that the overrides select. -/
theorem SessionPool.launchOptions_userDataDir {pool : SessionPool} {overrides : SessionOverrides}
    {options : ChromeLaunchOptions} (h : pool.launchOptions overrides = .ok options) :
    pool.userDataDir overrides.persistentProfileId = .ok options.userDataDir := by
  unfold launchOptions at h
  cases hd : pool.userDataDir overrides.persistentProfileId with
  | error e =>
    rw [hd] at h
    cases h
  | ok d =>
    rw [hd] at h
    cases h
    rfl

/-- A `create_session` call launches with the options that its overrides come to, on the directory
that `prepare_user_data_dir` returns for them: this is the one that Chrome is started with, and the
one that `wait_until_ready` polls. -/
def Task.launchesOn (pool : SessionPool) : Task → Prop
  | .creating _ overrides (.starting options) => pool.launchOptions overrides = .ok options
  | .creating _ overrides (.prepared options dir) =>
    pool.launchOptions overrides = .ok options ∧
      ∃ fresh, dir = prepareUserDataDir options.userDataDir fresh
  | .creating _ overrides (.waiting options _ dir) =>
    pool.launchOptions overrides = .ok options ∧
      ∃ fresh, dir = prepareUserDataDir options.userDataDir fresh
  | _ => True

/-- A directory that is prepared and persistent is the one that was asked for. -/
theorem userDataDir_of_persistent {userDataDir : Option PathBuf} {fresh path : PathBuf}
    (h : prepareUserDataDir userDataDir fresh = .persistent path) : userDataDir = some path := by
  cases userDataDir with
  | none => cases h
  | some asked =>
    cases h
    rfl

section

variable {pool : SessionPool} {choice : Choice} {op : Op} {t t' : Task}

/-- So it does after each of its steps. -/
theorem CreateStep.launchesOn {caller : Caller} {overrides : SessionOverrides} {pc : CreatePc}
    (step : CreateStep pool caller overrides pc choice op t')
    (ht : (Task.creating caller overrides pc).launchesOn pool) : t'.launchesOn pool := by
  cases step with
  | plan hoptions => exact hoptions
  | @persistent _ temp path hdir =>
    refine ⟨ht, temp, ?_⟩
    rw [hdir]
    rfl
  | @temporary _ temp hdir =>
    refine ⟨ht, temp, ?_⟩
    rw [hdir]
    rfl
  | spawn => exact ht
  | count => cases caller <;> trivial
  | _ => trivial

/-- Every task launches so. -/
theorem TaskStep.launchesOn (step : TaskStep pool t choice op t') (ht : t.launchesOn pool) :
    t'.launchesOn pool := by
  cases step with
  | create step => exact step.launchesOn ht
  | respond step => cases step <;> trivial
  | connect step => cases step <;> trivial
  | @terminate caller _ _ _ _ _ _ step =>
    cases step with
    | leave => cases caller <;> trivial
    | _ => trivial
  | pass step => cases step.move <;> trivial
  | _ => trivial

/-- A spawn is a step of `launch_chrome`. -/
theorem Task.perform_spawn {c : ChildId} {dir : UserDataDir}
    (h : t.perform pool choice = some (.spawn c dir, t')) :
    choice = .child c ∧ ∃ caller overrides options,
      t = .creating caller overrides (.prepared options dir) := by
  cases perform_step h with
  | create step =>
    cases step with
    | spawn => exact ⟨rfl, _, _, _, rfl⟩
  | respond step => cases step
  | connect step => cases step
  | terminate step =>
    cases step with
    | shut hs => cases hs
  | pass step => cases step

end

/-- In the run `as`, child `c` was spawned by a `create_session` call with these overrides. -/
def SpawnedWith (pool : SessionPool) (dirs : Finset PathBuf) (as : List Action) (c : ChildId)
    (overrides : SessionOverrides) : Prop :=
  ∃ as₁ as₂ s i caller options dir, as = as₁ ++ .task i (.child c) :: as₂ ∧
    Reach pool dirs anyAction as₁ s ∧
    s.tasks[i]? = some (.creating caller overrides (.prepared options dir))

section

variable {pool : SessionPool} {dirs : Finset PathBuf} {P : State → Action → Prop} {s s' : State}
  {a : Action} {as : List Action}

/-- **In every reachable state** the calls launch so. -/
theorem launchesOn_of_reach (h : Reach pool dirs P as s) : ∀ t ∈ s.tasks, t.launchesOn pool :=
  tasks_of_reach (fun request => by cases request <;> trivial) trivial
    (fun _ _ _ _ hp ht => (Task.perform_step hp).launchesOn ht) h

/-- A longer run spawned its children as the shorter one did. -/
theorem SpawnedWith.snoc {c : ChildId} {overrides : SessionOverrides}
    (h : SpawnedWith pool dirs as c overrides) (a : Action) :
    SpawnedWith pool dirs (as ++ [a]) c overrides := by
  obtain ⟨as₁, as₂, s, i, caller, options, dir, rfl, hrun, ht⟩ := h
  exact ⟨as₁, as₂ ++ [a], s, i, caller, options, dir, by simp, hrun, ht⟩

/-- A child that is there keeps its directory over every action. -/
theorem childIs_dir_of_step {c : ChildId} {d : UserDataDir} (hs : step pool s a = some s')
    (hc : c < s.memory.children.length)
    (hd : s'.memory.childIs (ChildFact.dir d).holds c = true) :
    s.memory.childIs (ChildFact.dir d).holds c = true := by
  have hch := List.getElem?_eq_getElem hc
  have hold : s.memory.childIs (ChildFact.dir s.memory.children[c].userDataDir).holds c = true := by
    simp [Memory.childIs, hch, ChildFact.holds]
  obtain ⟨ch', hc', hd'⟩ := (Option.any_eq_true _ _).1 hd
  obtain ⟨ch'', hc'', hold'⟩ := (Option.any_eq_true _ _).1 (childIs_step (ChildFact.kept _) hs hold)
  obtain rfl : ch' = ch'' := Option.some.inj (hc'.symm.trans hc'')
  have he : d = s.memory.children[c].userDataDir :=
    (of_decide_eq_true hd').symm.trans (of_decide_eq_true hold')
  rwa [he]

/-- **A child on a persistent directory** was spawned by a call whose overrides select it. -/
theorem spawnedWith_of_reach (h : Reach pool dirs P as s) :
    ∀ c, c < s.memory.children.length → ∃ overrides, SpawnedWith pool dirs as c overrides ∧
      ∀ path, s.memory.childIs (ChildFact.dir (.persistent path)).holds c = true →
        pool.userDataDir overrides.persistentProfileId = .ok (some path) := by
  induction h with
  | nil =>
    intro c hc
    exact absurd hc (Nat.not_lt_zero c)
  | @snoc as s s' a h hp hs ih =>
    intro c hc
    by_cases hold : c < s.memory.children.length
    · obtain ⟨overrides, hspawn, hdir⟩ := ih c hold
      exact ⟨overrides, hspawn.snoc a, fun path hd => hdir path (childIs_dir_of_step hs hold hd)⟩
    · rcases step_cases hs with ⟨i, t, op, t', ht, turn, he, rfl⟩ | ⟨request, rfl, rfl⟩ |
        ⟨j, rfl, -, rfl⟩ | ⟨d, rfl, rfl⟩
      · rcases Memory.lt_effect_children he hc with hlt | ⟨dir, rfl⟩
        · exact absurd hlt hold
        · cases turn with
          | perform hperform =>
            obtain ⟨rfl, caller, overrides, options, rfl⟩ := Task.perform_spawn hperform
            refine ⟨overrides, ⟨as, [], s, i, caller, options, dir, rfl,
              h.mono fun _ _ _ => trivial, ht⟩, fun path hd => ?_⟩
            obtain rfl : c = s.memory.children.length := by simpa [Memory.enabled] using he
            have hpath : dir = .persistent path := by
              simpa [Memory.childIs, Memory.effect, ChildFact.holds] using hd
            obtain ⟨hoptions, fresh, hdir⟩ := launchesOn_of_reach h _ (List.mem_of_getElem? ht)
            rw [← userDataDir_of_persistent (hdir.symm.trans hpath)]
            exact SessionPool.launchOptions_userDataDir hoptions
      · exact absurd hc hold
      · exact absurd (by simpa [Memory.updateChild] using hc) hold
      · exact absurd hc hold

end

/-! ## Exclusivity -/

namespace State

/-- The browsers that are live: spawned and not yet reaped. -/
def live (s : State) : Finset ChildId :=
  (Finset.range s.memory.children.length).filter fun c =>
    s.memory.childIs ChildFact.reaped.holds c = false

/-- The path of the user data directory a child was launched on. -/
def dirPath (s : State) (c : ChildId) : Option PathBuf :=
  s.memory.children[c]?.map (·.userDataDir.path)

/-- Child `c` and the temporary directory at `path` are with one task. -/
def TempWithTask (s : State) (c : ChildId) (path : PathBuf) (i : Nat) (t : Task) : Prop :=
  s.tasks[i]? = some t ∧ (c, .dir (.temporary path)) ∈ t.knows ∧
    0 < t.locals.countP (Local.holdsTemp path)

/-- Child `c` and the temporary directory at `path` are those of a browser in one entry. -/
def TempInEntry (s : State) (c : ChildId) (path : PathBuf) (id : Uuid) (arc : ArcInner) : Prop :=
  s.memory.heap[id]? = some arc ∧ 0 < arc.strong ∧
    ∃ b, arc.entry.browser = some b ∧ b.child = c ∧ b.userDataDir = .temporary path

end State

/-- A task knows the directory of one child at most. -/
theorem Task.knows_dir_unique {t : Task} {c c' : ChildId} {d d' : UserDataDir}
    (h : (c, .dir d) ∈ t.knows) (h' : (c', .dir d') ∈ t.knows) : c = c' := by
  cases t with
  | creating caller overrides pc =>
    cases pc with
    | unwinding frame error =>
      obtain ⟨l, -, hl⟩ := List.mem_filterMap.1 h
      split at hl <;> cases hl
    | _ => simp [knows, CreatePc.knows] at h h' <;> rw [h.1, h'.1]
  | terminating caller id reason pc =>
    cases pc with
    | shutting b pc =>
      cases pc <;> simp [knows, ShutdownPc.knows] at h h' <;> rw [h.1, h'.1]
    | _ => cases h
  | _ => cases h

/-- A task that holds a child which it has not reaped knows its directory, and holds it. -/
theorem Task.knows_dir_of_holds {t : Task} {l : Local} {c : ChildId} (hl : l ∈ t.locals)
    (hc : l.holdsChild c = true) :
    (c, .reaped) ∈ t.knows ∨ ∃ d, (c, .dir d) ∈ t.knows ∧
      ∀ path, d = .temporary path → ∃ l' ∈ t.locals, l'.holdsTemp path = true := by
  rcases holdsChild_cases hl hc with ⟨caller, overrides, pc, rfl, hpc⟩ |
    ⟨caller, id, reason, b, pc, rfl, rfl, rfl⟩
  · cases pc with
    | waiting _ j dir | stopping j dir _ | signalling j dir _ | cleaning j dir _
    | killing j dir _ =>
      right
      obtain rfl : j = c := by
        rcases hpc with _ | ⟨_, _ | ⟨_, _ | ⟨_, h⟩⟩⟩
        · exact of_decide_eq_true hc
        · cases hc
        · cases hc
        · cases h
      refine ⟨dir, by simp [knows, CreatePc.knows], fun path hp => ⟨.dir dir, ?_, ?_⟩⟩
      · simp [locals, createLocals]
      · simpa [Local.holdsTemp] using hp
    | injecting _ b | launched _ b | recording _ b | recorded _ b =>
      right
      obtain rfl : b.child = c := by
        rcases hpc with _ | ⟨_, _ | ⟨_, h⟩⟩
        · exact of_decide_eq_true hc
        · cases hc
        · cases h
      refine ⟨b.userDataDir, List.mem_singleton_self _, fun path hp => ⟨.browser b, ?_, ?_⟩⟩
      · simp [locals, createLocals]
      · simpa [Local.holdsTemp] using hp
    | unwinding frame error =>
      left
      rcases List.mem_append.1 hpc with hframe | hpermit
      · refine List.mem_filterMap.2 ⟨l, hframe, ?_⟩
        cases l with
        | child j | browser b =>
          obtain rfl := of_decide_eq_true hc
          rfl
        | _ => cases hc
      · rw [List.mem_singleton.1 hpermit] at hc
        cases hc
    | inserted id =>
      rw [List.mem_singleton.1 hpc] at hc
      cases hc
    | prepared _ dir =>
      rcases hpc with _ | ⟨_, _ | ⟨_, h⟩⟩
      · cases hc
      · cases hc
      · cases h
    | queued | returned => cases hpc
    | _ =>
      rw [List.mem_singleton.1 hpc] at hc
      cases hc
  · refine .inr ⟨b.userDataDir, List.mem_cons_self .., fun path hp => ⟨.browser b, hl, ?_⟩⟩
    simpa [Local.holdsTemp] using hp

section

variable {dirs : Finset PathBuf} {P : State → Action → Prop} {s : State} {as : List Action}
  {c c' : ChildId} {path : PathBuf}

/-- **Where a live browser on a temporary directory is**: with a task or in an entry, and the
directory with it. -/
theorem State.Known.temp_cases (h : s.Known)
    (hlive : s.memory.childIs ChildFact.reaped.holds c = false)
    (hpos : 0 < s.holders (Local.holdsChild c))
    (hd : s.memory.childIs (ChildFact.dir (.temporary path)).holds c = true) :
    (∃ i t, s.TempWithTask c path i t) ∨ ∃ id arc, s.TempInEntry c path id arc := by
  -- what is known of the child's directory agrees with what it is
  have hdir : ∀ d, s.memory.childIs (ChildFact.dir d).holds c = true → d = .temporary path := by
    intro d hd'
    obtain ⟨ch, hch, hd⟩ := (Option.any_eq_true _ _).1 hd
    obtain ⟨ch', hch', hd'⟩ := (Option.any_eq_true _ _).1 hd'
    obtain rfl : ch = ch' := Option.some.inj (hch.symm.trans hch')
    exact (of_decide_eq_true hd').symm.trans (of_decide_eq_true hd)
  rcases Nat.add_pos_iff_pos_or_pos.1 hpos with hpos | hpos
  · left
    obtain ⟨i, t, ht, hcount⟩ := tally_pos.1 hpos
    obtain ⟨l, hl, hc⟩ := List.countP_pos_iff.1 hcount
    have htask := h.tasks t (List.mem_of_getElem? ht)
    rcases Task.knows_dir_of_holds hl hc with hreaped | ⟨d, hknows, htemp⟩
    · rw [htask _ hreaped] at hlive
      cases hlive
    · obtain rfl := hdir d (htask _ hknows)
      exact ⟨i, t, ht, hknows, List.countP_pos_iff.2 (htemp path rfl)⟩
  · right
    obtain ⟨id, arc, harc, hcount⟩ := tally_pos.1 hpos
    split at hcount
    · next hstrong =>
      obtain ⟨l, hl, hc⟩ := List.countP_pos_iff.1 hcount
      rcases List.mem_append.1 hl with hl | hl
      · obtain ⟨b, hb, rfl⟩ := Option.map_eq_some_iff.1 (Option.mem_toList.1 hl)
        obtain rfl : b.child = c := of_decide_eq_true hc
        have hentry : s.memory.entryAt id = some arc.entry := by rw [Memory.entryAt, harc]; rfl
        exact ⟨id, arc, harc, hstrong, b, hb, rfl, hdir _ (h.entries id _ b hentry hb)⟩
      · rw [List.mem_singleton.1 hl] at hc
        cases hc
    · cases hcount

/-- What an entry with such a browser holds. -/
theorem State.TempInEntry.pos {id : Uuid} {arc : ArcInner} (h : s.TempInEntry c path id arc) :
    0 < if 0 < arc.strong then arc.entry.contents.countP (Local.holdsTemp path) else 0 := by
  obtain ⟨-, hstrong, b, hb, -, hd⟩ := h
  rw [if_pos hstrong]
  refine List.countP_pos_iff.2 ⟨.browser b, ?_, by simp [Local.holdsTemp, hd]⟩
  simp [SessionEntry.contents, hb]

/-- **One browser at a time** runs on a temporary directory. -/
theorem State.TempOnce.unique (h : s.TempOnce)
    (hc : (∃ i t, s.TempWithTask c path i t) ∨ ∃ id arc, s.TempInEntry c path id arc)
    (hc' : (∃ i t, s.TempWithTask c' path i t) ∨ ∃ id arc, s.TempInEntry c' path id arc) :
    c = c' := by
  have hone := (h path).1
  unfold State.holders State.sum at hone
  rcases hc with ⟨i, t, ht, hk, hpos⟩ | ⟨id, arc, hentry⟩ <;>
    rcases hc' with ⟨j, u, hu, hk', hpos'⟩ | ⟨id', arc', hentry'⟩
  · by_cases hij : i = j
    · subst hij
      obtain rfl : t = u := Option.some.inj (ht.symm.trans hu)
      exact Task.knows_dir_unique hk hk'
    · have := add_le_tally (f := fun t : Task => t.locals.countP (Local.holdsTemp path)) hij ht hu
      omega
  · have hi := le_tally (f := fun t : Task => t.locals.countP (Local.holdsTemp path)) ht
    have hj := le_tally (f := fun a : ArcInner =>
      if 0 < a.strong then a.entry.contents.countP (Local.holdsTemp path) else 0) hentry'.1
    have := hentry'.pos
    unfold held at hone
    omega
  · have hi := le_tally (f := fun t : Task => t.locals.countP (Local.holdsTemp path)) hu
    have hj := le_tally (f := fun a : ArcInner =>
      if 0 < a.strong then a.entry.contents.countP (Local.holdsTemp path) else 0) hentry.1
    have := hentry.pos
    unfold held at hone
    omega
  · by_cases hij : id = id'
    · subst hij
      obtain rfl : arc = arc' := Option.some.inj (hentry.1.symm.trans hentry'.1)
      obtain ⟨-, -, b, hb, rfl, -⟩ := hentry
      obtain ⟨-, -, b', hb', rfl, -⟩ := hentry'
      rw [Option.some.inj (hb.symm.trans hb')]
    · have := add_le_tally (f := fun a : ArcInner =>
        if 0 < a.strong then a.entry.contents.countP (Local.holdsTemp path) else 0) hij
        hentry.1 hentry'.1
      have := hentry.pos
      have := hentry'.pos
      unfold held at hone
      omega

/-- In the run `as`, child `c` was spawned by a `create_session` call with a `persistent_profile_id`
whose `profile_path` is `path`. -/
def SpawnedForProfile (config : AppConfig) (dirs : Finset PathBuf) (as : List Action) (c : ChildId)
    (path : PathBuf) : Prop :=
  ∃ overrides profileId base, SpawnedWith (.fromConfig config) dirs as c overrides ∧
    overrides.persistentProfileId = some profileId ∧
    config.browser.profileStorageDir = some base ∧ profilePath base profileId = .ok path

/-- A child is on a temporary directory, or was spawned for a persistent profile. -/
theorem dir_cases_of_reach {config : AppConfig} (h : Reach (.fromConfig config) dirs P as s)
    (hc : c < s.memory.children.length) : ∃ path, s.dirPath c = some path ∧
      (s.memory.childIs (ChildFact.dir (.temporary path)).holds c = true ∨
        SpawnedForProfile config dirs as c path) := by
  have hget := List.getElem?_eq_getElem hc
  have hpath : s.dirPath c = some s.memory.children[c].userDataDir.path := by
    rw [State.dirPath, hget]
    rfl
  have hdir : s.memory.childIs (ChildFact.dir s.memory.children[c].userDataDir).holds c = true := by
    simp [Memory.childIs, hget, ChildFact.holds]
  refine ⟨_, hpath, ?_⟩
  cases hd : s.memory.children[c].userDataDir with
  | temporary path => exact .inl (hd ▸ hdir)
  | persistent path =>
    obtain ⟨overrides, hspawn, hselect⟩ := spawnedWith_of_reach h c hc
    obtain ⟨-, hnone⟩ | ⟨profileId, base, path', hid, hbase, hpath, hsome⟩ :=
      SessionPool.fromConfig_userDataDir (hselect path (hd ▸ hdir))
    · cases hnone
    · cases hsome
      exact .inr ⟨overrides, profileId, base, hspawn, hid, hbase, hpath⟩

/-- **Profile exclusivity.** In every run that drops no handler future, two browsers that are live
on one directory are not both on a temporary one: one of them was spawned for a persistent profile
whose path the directory is. -/
theorem profile_exclusive {config : AppConfig}
    (h : Reach (.fromConfig config) dirs (fun s a => noDrops s a = true) as s)
    (hc : c ∈ s.live) (hc' : c' ∈ s.live) (hne : c ≠ c') (hdir : s.dirPath c = s.dirPath c') :
    ∃ path, s.dirPath c = some path ∧
      (SpawnedForProfile config dirs as c path ∨ SpawnedForProfile config dirs as c' path) := by
  obtain ⟨hlt, hlive⟩ := Finset.mem_filter.1 hc
  obtain ⟨hlt', hlive'⟩ := Finset.mem_filter.1 hc'
  obtain ⟨path, hpath, htemp | hprofile⟩ := dir_cases_of_reach h (Finset.mem_range.1 hlt)
  · obtain ⟨path', hpath', htemp' | hprofile'⟩ := dir_cases_of_reach h (Finset.mem_range.1 hlt')
    · obtain rfl : path = path' := Option.some.inj (hpath.symm.trans (hdir.trans hpath'))
      have hheld : ∀ j, j < s.memory.children.length →
          s.memory.childIs ChildFact.reaped.holds j = false →
          0 < s.holders (Local.holdsChild j) := by
        intro j hj hjlive
        rcases reaped_or_held h j hj with hreaped | hpos
        · rw [hjlive] at hreaped
          cases hreaped
        · exact hpos
      have hknown := known_of_reach h
      exact absurd ((temp_of_reach h).unique
        (hknown.temp_cases hlive (hheld c (Finset.mem_range.1 hlt) hlive) htemp)
        (hknown.temp_cases hlive' (hheld c' (Finset.mem_range.1 hlt') hlive') htemp')) hne
    · obtain rfl : path = path' := Option.some.inj (hpath.symm.trans (hdir.trans hpath'))
      exact ⟨path, hpath, .inr hprofile'⟩
  · exact ⟨path, hpath, .inl hprofile⟩

end

/-! ## Persistent profiles are shared -/

/-- A configuration with persistent profiles. -/
def profileConfig : AppConfig :=
  { AppConfig.default with browser :=
      { AppConfig.default.browser with profileStorageDir := some "/var/lib/eiger-profiles" } }

/-- Two calls ask for one persistent profile at the same time. -/
def sharedProfile : List Action :=
  let overrides := { SessionOverrides.default with persistentProfileId := some "cookie-profile" }
  [.arrive (.create .rest overrides), .arrive (.create .rest overrides)] ++
    spawnActions 0 0 "/tmp/eiger-chrome-a" ++ spawnActions 1 1 "/tmp/eiger-chrome-b"

/-- The state after that. -/
def sharedState : State :=
  after (step (.fromConfig profileConfig)) (.init (.fromConfig profileConfig) ∅) sharedProfile

/-- The theorem on that run. -/
theorem profile_exclusive_shared : ∃ path, sharedState.dirPath 0 = some path ∧
    (SpawnedForProfile profileConfig ∅ sharedProfile 0 path ∨
      SpawnedForProfile profileConfig ∅ sharedProfile 1 path) := by
  have hrun : Reach (.fromConfig profileConfig) ∅ (fun s a => noDrops s a = true) sharedProfile
      sharedState := run_after (by decide)
  have hlive : 0 ∈ sharedState.live := by decide
  have hlive' : 1 ∈ sharedState.live := by decide
  exact profile_exclusive hrun hlive hlive' (by decide) (by decide)

/-- **One profile, two browsers**: both are live on the directory of the profile. -/
theorem profile_shared :
    ¬ ∀ (config : AppConfig) (dirs : Finset PathBuf) (as : List Action) (s : State)
      (c c' : ChildId), Reach (.fromConfig config) dirs (fun s a => noDrops s a = true) as s →
        c ∈ s.live → c' ∈ s.live → c ≠ c' → s.dirPath c ≠ s.dirPath c' := by
  intro h
  have hrun : Reach (.fromConfig profileConfig) ∅ (fun s a => noDrops s a = true) sharedProfile
      sharedState := run_after (by decide)
  exact h _ _ _ _ 0 1 hrun (by decide) (by decide) (by decide) (by decide)

end Eiger
