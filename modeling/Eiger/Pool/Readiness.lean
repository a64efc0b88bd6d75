import Eiger.Pool.Moves

/-!
# Readiness

`readiness` tells load balancers whether the node can accept sessions: a permit is free, and the
last Chrome that was launched came up. So the flag is not one of the node but of its last launch,
whatever the options were that the client asked for.

A `create_session` call that fails, while nothing else runs, leaves the map, the permits and the
number of created sessions as they were (`FailedCall.kept`). It leaves the node ready exactly if it
fails before it launches Chrome: `failed_call_restores_iff`.
-/

namespace Eiger

open Transition

/-- `PoolReadiness`. -/
structure PoolReadiness where
  status : String
  canAcceptSessions : Bool
  activeSessions : Nat
  maxConcurrentSessions : Nat
  availableCapacity : Nat
  browserLaunchReady : Bool
  lastBrowserLaunchError : Option String
  deriving DecidableEq, Repr

/-- `SessionPool::readiness`, while nothing else runs. -/
def State.readiness (pool : SessionPool) (s : State) : PoolReadiness :=
  let canAcceptSessions := decide (0 < s.memory.permits) && s.memory.browserLaunchReady
  { status := if canAcceptSessions then "ready" else "not_ready"
    canAcceptSessions
    activeSessions := s.memory.sessions.card
    maxConcurrentSessions := pool.options.maxConcurrentSessions
    availableCapacity := s.memory.permits
    browserLaunchReady := s.memory.browserLaunchReady
    lastBrowserLaunchError := s.memory.lastBrowserLaunchError }

/-! ## A call that fails -/

/-- Nothing runs but task `i`: it takes its steps, Chrome processes exit, and time passes. -/
def Alone (i : Nat) (_ : State) : Action → Prop
  | .task j _ => j = i
  | .exit _ => True
  | .advance _ => True
  | .arrive _ => False
  | .dropFuture _ => False

instance {i : Nat} {s : State} : (a : Action) → Decidable (Alone i s a)
  | .task j _ => inferInstanceAs (Decidable (j = i))
  | .exit _ => inferInstanceAs (Decidable True)
  | .advance _ => inferInstanceAs (Decidable True)
  | .arrive _ => inferInstanceAs (Decidable False)
  | .dropFuture _ => inferInstanceAs (Decidable False)

/-- The state once a request has arrived. -/
def State.arrived (s : State) (request : Request) : State :=
  { s with tasks := s.tasks ++ [request.task] }

/-- From the state `s`, a `create_session` call runs alone by the actions `as`, and has returned
this error in `s'`. -/
structure FailedCall (pool : SessionPool) (s : State) (caller : Caller)
    (overrides : SessionOverrides) (as : List Action) (error : PoolError) (s' : State) : Prop where
  run : Run (step pool) (Alone s.tasks.length) (s.arrived (.create caller overrides)) as s'
  returned : s'.tasks[s.tasks.length]? = some (.creating caller overrides (.returned error))

/-- The semaphore lets task `i`, a `create_session` call, in: its first await goes on. -/
def LetIn (i : Nat) (as : List Action) : Prop := .task i .go ∈ as

/-- The errors by which a call is turned away. -/
def PoolError.isRejection : PoolError → Bool
  | .atCapacity => true
  | .capacityTimeout => true
  | _ => false

/-- A call that fails leaves the node ready, as it was: only the rejections are counted. -/
structure Restored (pool : SessionPool) (s s' : State) (error : PoolError) : Prop where
  ready : (s'.readiness pool).canAcceptSessions = true
  sessions : s'.memory.sessions = s.memory.sessions
  capacity : (s'.readiness pool).availableCapacity = (s.readiness pool).availableCapacity
  created : s'.memory.sessionsCreatedTotal = s.memory.sessionsCreatedTotal
  rejected : s'.memory.sessionsRejectedTotal =
    s.memory.sessionsRejectedTotal + if error.isRejection then 1 else 0

/-! ## The steps of a call -/

/-- A value that a launch owns: a child, or its directory. -/
def Local.isLaunch : Local → Bool
  | .child _ => true
  | .dir _ => true
  | _ => false

/-- An operation of a launch: it touches neither the map nor a counter, a permit or the flag. -/
def Op.isLaunch : Op → Bool
  | .nothing => true
  | .createDirAll _ => true
  | .tempdir _ => true
  | .spawn .. => true
  | .stillRunning _ => true
  | .reap _ => true
  | .sigterm _ => true
  | .sigkill _ => true
  | .storeError _ => true
  | .release frame => frame.all Local.isLaunch
  | _ => false

namespace CreatePc

/-- `launch_chrome` runs, or has returned an error. -/
def launching : CreatePc → Bool
  | .starting _ => true
  | .prepared .. => true
  | .waiting .. => true
  | .stopping .. => true
  | .signalling .. => true
  | .cleaning .. => true
  | .killing .. => true
  | .unwinding frame _ => frame.all Local.isLaunch
  | .failed _ => true
  | _ => false

/-- Chrome has come up. -/
def cameUp : CreatePc → Bool
  | .injecting .. => true
  | .launched .. => true
  | .recording .. => true
  | .recorded .. => true
  | .inserted _ => true
  | _ => false

/-- What is released while a launch that failed is unwound is what the launch owns. -/
def unwinds : CreatePc → Bool
  | .unwinding frame _ => frame.all Local.isLaunch
  | _ => true

end CreatePc

/-- The steps of a `create_session` call, as far as readiness notices. -/
inductive CallStep (pool : SessionPool) (overrides : SessionOverrides) :
    CreatePc → Choice → Op → CreatePc → Prop
  | enter : CallStep pool overrides .queued .go .acquire .granted
  | reject : CallStep pool overrides .queued .refused .rejectAtCapacity (.returned .atCapacity)
  | expire : CallStep pool overrides .queued .elapsed .rejectTimeout (.returned .capacityTimeout)
  | start {options} (h : pool.launchOptions overrides = .ok options) :
    CallStep pool overrides .granted .go .nothing (.starting options)
  | invalid {error} (h : pool.launchOptions overrides = .error error) :
    CallStep pool overrides .granted .go .nothing (.returning error)
  | launch {pc choice op pc'} (h : pc.launching = true) (hop : op.isLaunch = true)
    (h' : pc'.launching = true) : CallStep pool overrides pc choice op pc'
  | comeUp {pc choice op pc'} (h : pc.launching = true ∨ pc.cameUp = true)
    (h' : pc'.cameUp = true) : CallStep pool overrides pc choice op pc'
  | fail {error} :
    CallStep pool overrides (.failed error) .go (.storeReady false) (.failing error)
  | record {error} : CallStep pool overrides (.failing error) .go (.storeError (some error.text))
      (.returning (.browser error))
  | leave {error} : CallStep pool overrides (.returning error) .go (.release [.permit])
      (.returned error)

/-- What a call can do. -/
theorem CreateStep.callStep {pool : SessionPool} {caller : Caller} {overrides : SessionOverrides}
    {pc : CreatePc} {choice : Choice} {op : Op} {t' : Task} (hpc : pc.unwinds = true)
    (step : CreateStep pool caller overrides pc choice op t') :
    (∃ pc', t' = .creating caller overrides pc' ∧ CallStep pool overrides pc choice op pc') ∨
      ∃ id, pc = .inserted id ∧ t' = Task.created caller id := by
  cases step with
  | acquire => exact .inl ⟨_, rfl, .enter⟩
  | closed => exact .inl ⟨_, rfl, .reject⟩
  | timedOut => exact .inl ⟨_, rfl, .expire⟩
  | plan h => exact .inl ⟨_, rfl, .start h⟩
  | noPlan h => exact .inl ⟨_, rfl, .invalid h⟩
  | readyStealth | readyPlain => exact .inl ⟨_, rfl, .comeUp (.inl rfl) rfl⟩
  | injected | storeReady | clearError | insert =>
    exact .inl ⟨_, rfl, .comeUp (.inr rfl) rfl⟩
  | count => exact .inr ⟨_, rfl, rfl⟩
  | storeUnready => exact .inl ⟨_, rfl, .fail⟩
  | storeError => exact .inl ⟨_, rfl, .record⟩
  | giveBack => exact .inl ⟨_, rfl, .leave⟩
  | unwind => exact .inl ⟨_, rfl, .launch hpc hpc rfl⟩
  | _ => exact .inl ⟨_, rfl, .launch rfl rfl rfl⟩

/-! ## What a call keeps -/

/-- The memory `m` is `m₀`, but for `held` permits that are out, `rejected` more rejections and the
flag, as far as readiness notices. -/
structure Kept (m₀ m : Memory) (held rejected : Nat) (ready : Bool) : Prop where
  sessions : m.sessions = m₀.sessions
  created : m.sessionsCreatedTotal = m₀.sessionsCreatedTotal
  permits : m.permits + held = m₀.permits
  rejected : m.sessionsRejectedTotal = m₀.sessionsRejectedTotal + rejected
  ready : m.browserLaunchReady = ready

section

variable {m₀ m : Memory} {held rejected : Nat} {ready : Bool}

/-- The drop of what a launch owns keeps all. -/
theorem Kept.release {frame : List Local} (hframe : frame.all Local.isLaunch = true)
    (h : Kept m₀ m held rejected ready) : Kept m₀ (m.release frame) held rejected ready := by
  rw [Memory.release]
  induction frame generalizing m with
  | nil => exact h
  | cons l frame ih =>
    rw [List.all_cons, Bool.and_eq_true] at hframe
    refine ih hframe.2 ?_
    obtain ⟨hl, -⟩ := hframe
    cases l with
    | child c => exact h
    | dir d =>
      cases d with
      | temporary path => exact ⟨h.sessions, h.created, h.permits, h.rejected, h.ready⟩
      | persistent path => exact h
    | permit => cases hl
    | entry id => cases hl
    | browser b => cases hl

/-- An operation of a launch keeps all. -/
theorem Kept.effect_isLaunch {op : Op} (hop : op.isLaunch = true)
    (h : Kept m₀ m held rejected ready) : Kept m₀ (m.effect op) held rejected ready := by
  cases op with
  | release frame => exact h.release hop
  | nothing | stillRunning => exact h
  | createDirAll | tempdir | spawn | reap | sigterm | sigkill | storeError =>
    exact ⟨h.sessions, h.created, h.permits, h.rejected, h.ready⟩
  | _ => cases hop

end

/-- The error of the launch options is no rejection. -/
theorem SessionPool.launchOptions_error {pool : SessionPool} {overrides : SessionOverrides}
    {error : PoolError} (h : pool.launchOptions overrides = .error error) :
    error.isRejection = false := by
  rw [SessionPool.launchOptions] at h
  cases hdir : pool.userDataDir overrides.persistentProfileId with
  | ok dir =>
    rw [hdir] at h
    cases h
  | error error' =>
    rw [hdir] at h
    cases h
    unfold SessionPool.userDataDir at hdir
    split at hdir
    · cases hdir
    · split at hdir
      · cases hdir
        rfl
      · next baseDir _ =>
        unfold profilePath at hdir
        dsimp only at hdir
        split at hdir <;> cases hdir
        rfl

/-- How far a call is, from the memory `m₀` on, and what it has kept. It may have been let in. -/
inductive Progress (pool : SessionPool) (caller : Caller) (overrides : SessionOverrides)
    (m₀ : Memory) (letIn : Prop) : Task → Memory → Prop
  | queued {m} (hin : ¬ letIn) (h : Kept m₀ m 0 0 m₀.browserLaunchReady) :
    Progress pool caller overrides m₀ letIn (.creating caller overrides .queued) m
  | rejected {m error} (hin : ¬ letIn) (herror : error.isRejection = true)
    (h : Kept m₀ m 0 1 m₀.browserLaunchReady) :
    Progress pool caller overrides m₀ letIn (.creating caller overrides (.returned error)) m
  | granted {m} (hin : letIn) (h : Kept m₀ m 1 0 m₀.browserLaunchReady) :
    Progress pool caller overrides m₀ letIn (.creating caller overrides .granted) m
  | launching {m pc options} (hin : letIn) (hpc : pc.launching = true)
    (hoptions : pool.launchOptions overrides = .ok options)
    (h : Kept m₀ m 1 0 m₀.browserLaunchReady) :
    Progress pool caller overrides m₀ letIn (.creating caller overrides pc) m
  | failing {m error options} (hin : letIn) (hoptions : pool.launchOptions overrides = .ok options)
    (h : Kept m₀ m 1 0 false) :
    Progress pool caller overrides m₀ letIn (.creating caller overrides (.failing error)) m
  | failed {m error options} (hin : letIn) (hoptions : pool.launchOptions overrides = .ok options)
    (h : Kept m₀ m 1 0 false) :
    Progress pool caller overrides m₀ letIn
      (.creating caller overrides (.returning (.browser error))) m
  | hasFailed {m error options} (hin : letIn)
    (hoptions : pool.launchOptions overrides = .ok options) (h : Kept m₀ m 0 0 false) :
    Progress pool caller overrides m₀ letIn
      (.creating caller overrides (.returned (.browser error))) m
  | refused {m error} (hin : letIn) (hoptions : pool.launchOptions overrides = .error error)
    (h : Kept m₀ m 1 0 m₀.browserLaunchReady) :
    Progress pool caller overrides m₀ letIn (.creating caller overrides (.returning error)) m
  | hasRefused {m error} (hin : letIn) (hoptions : pool.launchOptions overrides = .error error)
    (h : Kept m₀ m 0 0 m₀.browserLaunchReady) :
    Progress pool caller overrides m₀ letIn (.creating caller overrides (.returned error)) m
  | cameUp {m pc} (hpc : pc.cameUp = true) :
    Progress pool caller overrides m₀ letIn (.creating caller overrides pc) m
  | gone {m t} (ht : ∀ caller overrides pc, t ≠ .creating caller overrides pc) :
    Progress pool caller overrides m₀ letIn t m

/-- A task that is no `create_session` call does not become one. -/
theorem Task.perform_gone {pool : SessionPool} {t t' : Task} {choice : Choice} {op : Op}
    (h : t.perform pool choice = some (op, t'))
    (ht : ∀ caller overrides pc, t ≠ .creating caller overrides pc) :
    ∀ caller overrides pc, t' ≠ .creating caller overrides pc := by
  rintro caller overrides pc rfl
  generalize hnext : Task.creating caller overrides pc = next at h
  cases perform_move h with
  | create => exact ht _ _ _ rfl
  | insert => exact ht _ _ _ rfl
  | count => exact ht _ _ _ rfl
  | @leave caller' => cases caller' <;> cases hnext
  | _ => cases hnext

/-- What returns to the caller with a session is no `create_session` call. -/
theorem Task.created_gone (caller : Caller) (id : Uuid) :
    ∀ caller' overrides pc, Task.created caller id ≠ .creating caller' overrides pc := by
  intro caller' overrides pc h
  cases caller <;> cases h

namespace CreatePc

/-- While a launch runs, what it unwinds is its own. -/
theorem unwinds_of_launching {pc : CreatePc} (h : pc.launching = true) : pc.unwinds = true := by
  cases pc with
  | unwinding frame error => exact h
  | _ => rfl

/-- So it is once Chrome has come up. -/
theorem unwinds_of_cameUp {pc : CreatePc} (h : pc.cameUp = true) : pc.unwinds = true := by
  cases pc with
  | unwinding frame error => cases h
  | _ => rfl

/-- A launch that runs has not come up. -/
theorem not_cameUp_of_launching {pc : CreatePc} (h : pc.launching = true) :
    pc.cameUp = false := by
  cases pc with
  | injecting => cases h
  | launched => cases h
  | recording => cases h
  | recorded => cases h
  | inserted => cases h
  | _ => rfl

end CreatePc

section

variable {pool : SessionPool} {caller : Caller} {overrides : SessionOverrides} {m₀ m : Memory}
  {letIn letIn' : Prop}

/-- What a call has kept is kept where nothing changes that readiness notices. -/
theorem Progress.congr {t : Task} {m' : Memory} (hin : letIn' ↔ letIn)
    (hm : ∀ held rejected ready, Kept m₀ m held rejected ready → Kept m₀ m' held rejected ready)
    (h : Progress pool caller overrides m₀ letIn t m) :
    Progress pool caller overrides m₀ letIn' t m' := by
  obtain rfl : letIn' = letIn := propext hin
  cases h with
  | queued hin h => exact .queued hin (hm _ _ _ h)
  | rejected hin herror h => exact .rejected hin herror (hm _ _ _ h)
  | granted hin h => exact .granted hin (hm _ _ _ h)
  | launching hin hpc hoptions h => exact .launching hin hpc hoptions (hm _ _ _ h)
  | failing hin hoptions h => exact .failing hin hoptions (hm _ _ _ h)
  | failed hin hoptions h => exact .failed hin hoptions (hm _ _ _ h)
  | hasFailed hin hoptions h => exact .hasFailed hin hoptions (hm _ _ _ h)
  | refused hin hoptions h => exact .refused hin hoptions (hm _ _ _ h)
  | hasRefused hin hoptions h => exact .hasRefused hin hoptions (hm _ _ _ h)
  | cameUp hpc => exact .cameUp hpc
  | gone ht => exact .gone ht

/-- A step of a call keeps its progress. -/
theorem Progress.step {t t' : Task} {choice : Choice} {op : Op}
    (hin' : letIn' ↔ letIn ∨ choice = .go) (he : m.enabled op = true)
    (hperform : t.perform pool choice = some (op, t'))
    (h : Progress pool caller overrides m₀ letIn t m) :
    Progress pool caller overrides m₀ letIn' t' (m.effect op) := by
  cases h with
  | queued hin h =>
    obtain ⟨pc', rfl, hstep⟩ | ⟨id, hid, -⟩ := (Task.perform_step hperform).creating.callStep rfl
    · cases hstep with
      | enter =>
        have hpermits : 0 < m.permits := of_decide_eq_true he
        refine .granted (hin'.2 (.inr rfl)) ⟨h.sessions, h.created, ?_, h.rejected, h.ready⟩
        exact (Nat.sub_add_cancel hpermits).trans h.permits
      | reject =>
        refine .rejected (fun h => ?_) rfl
          ⟨h.sessions, h.created, h.permits, congrArg (· + 1) h.rejected, h.ready⟩
        exact (hin'.1 h).elim hin nofun
      | expire =>
        refine .rejected (fun h => ?_) rfl
          ⟨h.sessions, h.created, h.permits, congrArg (· + 1) h.rejected, h.ready⟩
        exact (hin'.1 h).elim hin nofun
      | launch h => cases h
      | comeUp h => obtain h | h := h <;> cases h
    · cases hid
  | granted hin h =>
    obtain ⟨pc', rfl, hstep⟩ | ⟨id, hid, -⟩ := (Task.perform_step hperform).creating.callStep rfl
    · cases hstep with
      | start hoptions => exact .launching (hin'.2 (.inl hin)) rfl hoptions h
      | invalid hoptions => exact .refused (hin'.2 (.inl hin)) hoptions h
      | launch h => cases h
      | comeUp h => obtain h | h := h <;> cases h
    · cases hid
  | launching hin hpc hoptions h =>
    obtain ⟨pc', rfl, hstep⟩ | ⟨id, rfl, -⟩ :=
      (Task.perform_step hperform).creating.callStep (CreatePc.unwinds_of_launching hpc)
    · cases hstep with
      | launch _ hop hpc' =>
        exact .launching (hin'.2 (.inl hin)) hpc' hoptions (h.effect_isLaunch hop)
      | comeUp _ hpc' => exact .cameUp hpc'
      | fail =>
        exact .failing (hin'.2 (.inl hin)) hoptions
          ⟨h.sessions, h.created, h.permits, h.rejected, rfl⟩
      | _ => cases hpc
    · cases hpc
  | failing hin hoptions h =>
    obtain ⟨pc', rfl, hstep⟩ | ⟨id, hid, -⟩ := (Task.perform_step hperform).creating.callStep rfl
    · cases hstep with
      | record =>
        exact .failed (hin'.2 (.inl hin)) hoptions (h.effect_isLaunch rfl)
      | launch h => cases h
      | comeUp h => obtain h | h := h <;> cases h
    · cases hid
  | failed hin hoptions h =>
    obtain ⟨pc', rfl, hstep⟩ | ⟨id, hid, -⟩ := (Task.perform_step hperform).creating.callStep rfl
    · cases hstep with
      | leave =>
        exact .hasFailed (hin'.2 (.inl hin)) hoptions
          ⟨h.sessions, h.created, h.permits, h.rejected, h.ready⟩
      | launch h => cases h
      | comeUp h => obtain h | h := h <;> cases h
    · cases hid
  | refused hin hoptions h =>
    obtain ⟨pc', rfl, hstep⟩ | ⟨id, hid, -⟩ := (Task.perform_step hperform).creating.callStep rfl
    · cases hstep with
      | leave =>
        exact .hasRefused (hin'.2 (.inl hin)) hoptions
          ⟨h.sessions, h.created, h.permits, h.rejected, h.ready⟩
      | launch h => cases h
      | comeUp h => obtain h | h := h <;> cases h
    · cases hid
  | rejected => cases hperform
  | hasFailed => cases hperform
  | hasRefused => cases hperform
  | cameUp hpc =>
    obtain ⟨pc', rfl, hstep⟩ | ⟨id, rfl, rfl⟩ :=
      (Task.perform_step hperform).creating.callStep (CreatePc.unwinds_of_cameUp hpc)
    · cases hstep with
      | launch hlaunching =>
        rw [CreatePc.not_cameUp_of_launching hlaunching] at hpc
        cases hpc
      | comeUp _ hpc' => exact .cameUp hpc'
      | _ => cases hpc
    · exact .gone (Task.created_gone caller id)
  | gone ht => exact .gone (Task.perform_gone hperform ht)

/-- Where nothing else runs, a call keeps its progress. -/
theorem progress_of_run {s s' : State} {i : Nat} {as : List Action} {t : Task}
    (hrun : Run (Eiger.step pool) (Alone i) s as s') (ht : s.tasks[i]? = some t)
    (h : Progress pool caller overrides m₀ False t s.memory) :
    ∃ t', s'.tasks[i]? = some t' ∧
      Progress pool caller overrides m₀ (LetIn i as) t' s'.memory := by
  induction hrun with
  | nil => exact ⟨t, ht, h.congr (by simp [LetIn]) fun _ _ _ => id⟩
  | @snoc as s' s'' a hrun hp hstep ih =>
    obtain ⟨t', ht', hprogress⟩ := ih
    cases a with
    | task j choice =>
      obtain rfl : j = i := hp
      have hin : LetIn j (as ++ [.task j choice]) ↔ LetIn j as ∨ choice = .go := by
        simp [LetIn, eq_comm]
      obtain ⟨k, u, op, u', hu, turn, he, rfl⟩ | ⟨_, ha, -⟩ | ⟨_, ha, -⟩ | ⟨_, ha, -⟩ :=
        step_cases hstep
      · cases turn with
        | perform hperform =>
          obtain rfl : u = t' := Option.some.inj (hu.symm.trans ht')
          exact ⟨u', List.getElem?_set_self (List.getElem?_eq_some_iff.1 ht').1,
            hprogress.step hin he hperform⟩
      · cases ha
      · cases ha
      · cases ha
    | exit c =>
      have hin : LetIn i (as ++ [.exit c]) ↔ LetIn i as := by simp [LetIn]
      obtain ⟨_, _, _, _, _, turn, -⟩ | ⟨_, ha, -⟩ | ⟨_, -, -, rfl⟩ | ⟨_, ha, -⟩ :=
        step_cases hstep
      · cases turn
      · cases ha
      · refine ⟨t', ht', Progress.congr hin (fun held rejected ready h => ?_) hprogress⟩
        exact ⟨h.sessions, h.created, h.permits, h.rejected, h.ready⟩
      · cases ha
    | advance d =>
      have hin : LetIn i (as ++ [.advance d]) ↔ LetIn i as := by simp [LetIn]
      obtain ⟨_, _, _, _, _, turn, -⟩ | ⟨_, ha, -⟩ | ⟨_, ha, -⟩ | ⟨_, -, rfl⟩ :=
        step_cases hstep
      · cases turn
      · cases ha
      · cases ha
      · refine ⟨t', ht', Progress.congr hin (fun held rejected ready h => ?_) hprogress⟩
        exact ⟨h.sessions, h.created, h.permits, h.rejected, h.ready⟩
    | arrive request => cases hp
    | dropFuture j => cases hp

/-- A call that has failed was turned away, was refused for its options, or has launched Chrome in
vain, and has kept the rest. -/
theorem FailedCall.kept {s s' : State} {as : List Action} {error : PoolError}
    (h : FailedCall pool s caller overrides as error s') :
    (¬ LetIn s.tasks.length as ∧ error.isRejection = true ∧
      Kept s.memory s'.memory 0 1 s.memory.browserLaunchReady) ∨
    (LetIn s.tasks.length as ∧ error.isRejection = false ∧
      pool.launchOptions overrides = .error error ∧
      Kept s.memory s'.memory 0 0 s.memory.browserLaunchReady) ∨
    (LetIn s.tasks.length as ∧ error.isRejection = false ∧
      (∃ options, pool.launchOptions overrides = .ok options) ∧
      Kept s.memory s'.memory 0 0 false) := by
  have hqueued : Progress pool caller overrides s.memory False
      (.creating caller overrides .queued) s.memory :=
    .queued not_false ⟨rfl, rfl, rfl, rfl, rfl⟩
  obtain ⟨t, ht, hprogress⟩ := progress_of_run h.run List.getElem?_concat_length hqueued
  obtain rfl := Option.some.inj (ht.symm.trans h.returned)
  cases hprogress with
  | rejected hin herror h => exact .inl ⟨hin, herror, h⟩
  | hasRefused hin hoptions h =>
    exact .inr (.inl ⟨hin, SessionPool.launchOptions_error hoptions, hoptions, h⟩)
  | hasFailed hin hoptions h => exact .inr (.inr ⟨hin, rfl, ⟨_, hoptions⟩, h⟩)
  | launching _ hpc => cases hpc
  | cameUp hpc => cases hpc
  | gone ht => exact (ht _ _ _ rfl).elim

/-- A call that fails, from a state that is ready and while nothing else runs, restores it exactly
if the semaphore does not let it in, or its overrides have no launch options. -/
theorem failed_call_restores_iff {as : List Action} {s s' : State} {error : PoolError}
    (hready : (s.readiness pool).canAcceptSessions = true)
    (hcall : FailedCall pool s caller overrides as error s') :
    Restored pool s s' error ↔ ¬ LetIn s.tasks.length as ∨
      ∃ error, pool.launchOptions overrides = .error error := by
  have hpermits : 0 < s.memory.permits ∧ s.memory.browserLaunchReady = true := by
    simpa [State.readiness] using hready
  have hrestored : ∀ {rejected : Nat}, rejected = (if error.isRejection then 1 else 0) →
      Kept s.memory s'.memory 0 rejected s.memory.browserLaunchReady →
      Restored pool s s' error := by
    rintro rejected rfl h
    refine ⟨?_, h.sessions, h.permits, h.created, h.rejected⟩
    have hpermits' : s'.memory.permits = s.memory.permits := h.permits
    simp [State.readiness, hpermits', h.ready, hpermits]
  obtain ⟨hin, herror, h⟩ | ⟨hin, herror, hoptions, h⟩ | ⟨hin, -, ⟨options, hoptions⟩, h⟩ :=
    hcall.kept
  · exact iff_of_true (hrestored (by rw [herror]; rfl) h) (.inl hin)
  · exact iff_of_true (hrestored (by rw [herror]; rfl) h) (.inr ⟨error, hoptions⟩)
  · refine iff_of_false (fun hrestored => ?_) ?_
    · have hflag := hrestored.ready
      simp [State.readiness, h.ready] at hflag
    · rintro (hout | ⟨error, herror⟩)
      · exact hout hin
      · rw [hoptions] at herror
        cases herror

end

/-- A session was created in a pool with two places. -/
def readyRun : List Action :=
  .arrive (.create .postSession .default) :: insertActions 0 0 "/tmp/eiger-chrome-a" 0 ++
    [.task 0 .go]

/-- A request for a profile, where none are configured. -/
def profileOverrides : SessionOverrides :=
  { SessionOverrides.default with persistentProfileId := some "team" }

/-- The call for it is refused. -/
def refusedCall : List Action := [.task 1 .go, .task 1 .go, .task 1 .go]

/-- The state after a call for these overrides, which runs alone. -/
def afterCall (overrides : SessionOverrides) (as : List Action) : State :=
  after (step (examplePool 2)) ((exampleState 2 readyRun).arrived (.create .postSession overrides))
    as

/-- The theorem at this call: the node stays ready. -/
theorem failed_call_restores_profile :
    Reach (examplePool 2) ∅ anyAction readyRun (exampleState 2 readyRun) ∧
      Restored (examplePool 2) (exampleState 2 readyRun) (afterCall profileOverrides refusedCall)
        .persistentProfilesDisabled :=
  ⟨run_after (by decide), (@failed_call_restores_iff _ .postSession profileOverrides _ _ _ _
    (by decide) ⟨run_after (by decide), by decide⟩).2 (.inr ⟨_, rfl⟩)⟩

/-- A request with an argument at which Chrome prints its version and exits. -/
def versionOverrides : SessionOverrides :=
  { SessionOverrides.default with extraChromeArgs := ["--version"] }

/-- The call for it launches Chrome, which exits early. -/
def exitedCall : List Action :=
  spawnActions 1 1 "/tmp/eiger-chrome-b" ++
    [.exit 1, .task 1 (.failed (.exitedEarly "exit status: 0")), .task 1 .go, .task 1 .go,
      .task 1 .go, .task 1 .go, .task 1 .go]

/-- One request for it, and the node is not ready any more, though nothing runs and a place is
free. -/
theorem failed_call_not_restored :
    Reach (examplePool 2) ∅ anyAction readyRun (exampleState 2 readyRun) ∧
      ((exampleState 2 readyRun).readiness (examplePool 2)).canAcceptSessions = true ∧
      FailedCall (examplePool 2) (exampleState 2 readyRun) .postSession versionOverrides exitedCall
        (.browser (.exitedEarly "exit status: 0")) (afterCall versionOverrides exitedCall) ∧
      ¬ Restored (examplePool 2) (exampleState 2 readyRun) (afterCall versionOverrides exitedCall)
        (.browser (.exitedEarly "exit status: 0")) := by
  refine ⟨run_after (by decide), by decide, ⟨run_after (by decide), by decide⟩, fun h => ?_⟩
  exact absurd h.ready (by decide)

end Eiger
