import Eiger.Pool.System

/-!
# The steps of the pool's calls

`Task.perform` computes the next step of a task. The relations here list the same steps one by one,
a relation for each method of the source and a constructor for each of its steps, and the inversion
lemma beside each relation says that there are no others. What holds of every step of a method is
proved by cases on its relation.
-/

namespace Eiger

/-! ## `create_session` -/

/-- The steps of `SessionPool::create_session` and of `launch_chrome` in it. -/
inductive CreateStep (pool : SessionPool) (caller : Caller) (overrides : SessionOverrides) :
    CreatePc → Choice → Op → Task → Prop
  | acquire :
    CreateStep pool caller overrides .queued .go .acquire (.creating caller overrides .granted)
  | closed : CreateStep pool caller overrides .queued .refused .rejectAtCapacity
      (.creating caller overrides (.returned .atCapacity))
  | timedOut : CreateStep pool caller overrides .queued .elapsed .rejectTimeout
      (.creating caller overrides (.returned .capacityTimeout))
  | plan {options} (h : pool.launchOptions overrides = .ok options) :
    CreateStep pool caller overrides .granted .go .nothing
      (.creating caller overrides (.starting options))
  | noPlan {error} (h : pool.launchOptions overrides = .error error) :
    CreateStep pool caller overrides .granted .go .nothing
      (.creating caller overrides (.returning error))
  | noStart {options error} : CreateStep pool caller overrides (.starting options) (.failed error)
      .nothing (.creating caller overrides (.failed error))
  | persistent {options temp path} (h : options.userDataDir = some path) :
    CreateStep pool caller overrides (.starting options) (.dir temp) (.createDirAll path)
      (.creating caller overrides (.prepared options (.persistent path)))
  | temporary {options temp} (h : options.userDataDir = none) :
    CreateStep pool caller overrides (.starting options) (.dir temp) (.tempdir temp)
      (.creating caller overrides (.prepared options (.temporary temp)))
  | noSpawn {options dir error} :
    CreateStep pool caller overrides (.prepared options dir) (.failed error) .nothing
      (.creating caller overrides (.unwinding [.dir dir] error))
  | spawn {options dir c} : CreateStep pool caller overrides (.prepared options dir) (.child c)
      (.spawn c dir) (.creating caller overrides (.waiting options c dir))
  /-- The browser is ready, and the stealth scripts go into its targets. -/
  | readyStealth {options c dir r b}
      (hb : b = { child := c, httpBaseUrl := r.httpBaseUrl, browserWsUrl := r.browserWsUrl,
                  userDataDir := dir })
      (h : options.stealth.enabled = true) :
    CreateStep pool caller overrides (.waiting options c dir) (.ready r) (.assemble b)
      (.creating caller overrides (.injecting options b))
  | readyPlain {options c dir r b}
      (hb : b = { child := c, httpBaseUrl := r.httpBaseUrl, browserWsUrl := r.browserWsUrl,
                  userDataDir := dir })
      (h : options.stealth.enabled = false) :
    CreateStep pool caller overrides (.waiting options c dir) (.ready r) (.assemble b)
      (.creating caller overrides (.launched options b))
  | unready {options c dir error} :
    CreateStep pool caller overrides (.waiting options c dir) (.failed error) .nothing
      (.creating caller overrides (.stopping c dir error))
  | foundExited {c dir error} : CreateStep pool caller overrides (.stopping c dir error) .go
      (.reap c) (.creating caller overrides (.unwinding [.child c, .dir dir] error))
  | foundRunning {c dir error} : CreateStep pool caller overrides (.stopping c dir error) .running
      (.stillRunning c) (.creating caller overrides (.signalling c dir error))
  | signal {c dir error} : CreateStep pool caller overrides (.signalling c dir error) .go
      (.sigterm c) (.creating caller overrides (.cleaning c dir error))
  | exited {c dir error} : CreateStep pool caller overrides (.cleaning c dir error) .go
      (.reap c) (.creating caller overrides (.unwinding [.child c, .dir dir] error))
  | outlasted {c dir error} : CreateStep pool caller overrides (.cleaning c dir error) .elapsed
      (.sigkill c) (.creating caller overrides (.killing c dir error))
  | killed {c dir error} : CreateStep pool caller overrides (.killing c dir error) .go
      (.reap c) (.creating caller overrides (.unwinding [.child c, .dir dir] error))
  | unwind {frame error} : CreateStep pool caller overrides (.unwinding frame error) .go
      (.release frame) (.creating caller overrides (.failed error))
  | injected {options b} : CreateStep pool caller overrides (.injecting options b) .go .nothing
      (.creating caller overrides (.launched options b))
  | storeReady {options b} : CreateStep pool caller overrides (.launched options b) .go
      (.storeReady true) (.creating caller overrides (.recording options b))
  | clearError {options b} : CreateStep pool caller overrides (.recording options b) .go
      (.storeError none) (.creating caller overrides (.recorded options b))
  | insert {options b id} : CreateStep pool caller overrides (.recorded options b) (.session id)
      (.insert id options.stealth.enabled b) (.creating caller overrides (.inserted id))
  | count {id} : CreateStep pool caller overrides (.inserted id) .go .countCreated
      (Task.created caller id)
  | storeUnready {error} : CreateStep pool caller overrides (.failed error) .go
      (.storeReady false) (.creating caller overrides (.failing error))
  | storeError {error} : CreateStep pool caller overrides (.failing error) .go
      (.storeError (some error.text)) (.creating caller overrides (.returning (.browser error)))
  | giveBack {error} : CreateStep pool caller overrides (.returning error) .go
      (.release [.permit]) (.creating caller overrides (.returned error))

/-- `create_session` takes no other steps. -/
theorem Task.performCreate_step {pool : SessionPool} {caller : Caller}
    {overrides : SessionOverrides} {pc : CreatePc} {choice : Choice} {op : Op} {t' : Task}
    (h : performCreate pool caller overrides pc choice = some (op, t')) :
    CreateStep pool caller overrides pc choice op t' := by
  cases pc with
  | granted =>
    cases choice with
    | go =>
      cases hplan : pool.launchOptions overrides with
      | ok options =>
        simp only [performCreate, hplan] at h
        cases h
        exact .plan hplan
      | error error =>
        simp only [performCreate, hplan] at h
        cases h
        exact .noPlan hplan
    | _ => cases h
  | starting options =>
    cases choice with
    | failed error =>
      cases h
      exact .noStart
    | dir temp =>
      cases hdir : options.userDataDir with
      | some path =>
        simp only [performCreate, hdir] at h
        cases h
        exact .persistent hdir
      | none =>
        simp only [performCreate, hdir] at h
        cases h
        exact .temporary hdir
    | _ => cases h
  | waiting options c dir =>
    cases choice with
    | ready r =>
      cases hstealth : options.stealth.enabled with
      | true =>
        simp only [performCreate, hstealth, if_pos] at h
        cases h
        exact .readyStealth rfl hstealth
      | false =>
        simp only [performCreate, hstealth, Bool.false_eq_true, if_false] at h
        cases h
        exact .readyPlain rfl hstealth
    | failed error =>
      cases h
      exact .unready
    | _ => cases h
  | _ => cases choice <;> cases h <;> constructor

/-! ## `connect_session` and the handler of `POST /sessions` -/

/-- The steps of `SessionPool::connect_session`, and of `connect_existing_session` after it. -/
inductive ConnectStep (id : Uuid) : ConnectPc → Choice → Op → Task → Prop
  | lookup : ConnectStep id .lookup .go (.cloneEntry id) (.connecting id .found)
  | notFound : ConnectStep id .lookup .missing (.notFound id) .done
  | claim : ConnectStep id .found .go (.claim id) (.connecting id .claimed)
  | reject : ConnectStep id .found .refused (.notConnectable id) (.connecting id .rejected)
  | touch : ConnectStep id .claimed .go (.touch id) (.upgrading .connected id)
  | leave : ConnectStep id .rejected .go (.release [.entry id]) .done

/-- `connect_session` takes no other steps. -/
theorem Task.performConnect_step {id : Uuid} {pc : ConnectPc} {choice : Choice} {op : Op}
    {t' : Task} (h : performConnect id pc choice = some (op, t')) :
    ConnectStep id pc choice op t' := by
  cases pc <;> cases choice <;> cases h <;> constructor

/-- The steps of the `POST /sessions` handler after `create_session`. -/
inductive RespondStep (id : Uuid) : RespondPc → Choice → Op → Task → Prop
  | lookup : RespondStep id .looking .go (.cloneEntry id) (.responding id .informing)
  | notFound : RespondStep id .looking .missing (.notFound id) (.responding id .answering)
  | inform : RespondStep id .informing .go (.release [.entry id]) (.responding id .answering)
  | answer : RespondStep id .answering .go (.release [.entry id]) .done

/-- The handler takes no other steps. -/
theorem Task.performRespond_step {id : Uuid} {pc : RespondPc} {choice : Choice} {op : Op}
    {t' : Task} (h : performRespond id pc choice = some (op, t')) :
    RespondStep id pc choice op t' := by
  cases pc <;> cases choice <;> cases h <;> constructor

/-! ## `terminate_session` -/

/-- The steps of `LaunchedBrowser::shutdown`. -/
inductive ShutdownStep (c : ChildId) : ShutdownPc → Choice → Op → ShutdownPc → Prop
  | foundExited : ShutdownStep c .start .go (.reap c) (.shut .alreadyExited)
  | foundRunning : ShutdownStep c .start .running (.stillRunning c) .closing
  | closed : ShutdownStep c .closing .go .nothing .awaitExit
  | unclosed : ShutdownStep c .closing .refused .nothing .sigterming
  | exited : ShutdownStep c .awaitExit .go (.reap c) (.shut .graceful)
  | outlasted : ShutdownStep c .awaitExit .elapsed .nothing .sigterming
  | signal : ShutdownStep c .sigterming .go (.sigterm c) .awaitTerm
  | terminated : ShutdownStep c .awaitTerm .go (.reap c) (.shut .terminated)
  | unterminated : ShutdownStep c .awaitTerm .elapsed (.sigkill c) .awaitKill
  | killed : ShutdownStep c .awaitKill .go (.reap c) (.shut .killed)

/-- `shutdown` takes no other steps. -/
theorem Task.performShutdown_step {c : ChildId} {pc pc' : ShutdownPc} {choice : Choice} {op : Op}
    (h : performShutdown c pc choice = some (op, pc')) : ShutdownStep c pc choice op pc' := by
  cases pc <;> cases choice <;> cases h <;> constructor

/-- The steps of `SessionPool::terminate_session` and `shutdown_entry`. -/
inductive TerminateStep (caller : Terminator) (id : Uuid) (reason : String) :
    TermPc → Choice → Op → Task → Prop
  | remove : TerminateStep caller id reason .removing .go (.remove id)
      (.terminating caller id reason .killing)
  | missed : TerminateStep caller id reason .removing .missing (.notFound id)
      (.terminating caller id reason .leaving)
  | kill : TerminateStep caller id reason .killing .go (.setKilling id)
      (.terminating caller id reason .reasoning)
  | giveReason : TerminateStep caller id reason .reasoning .go (.setKillReason id reason)
      (.terminating caller id reason .counting)
  | countRecycle : TerminateStep caller id reason .counting .go (.countRecycle id reason)
      (.terminating caller id reason .taking)
  | take {b} : TerminateStep caller id reason .taking (.browser (some b)) (.takeBrowser id b)
      (.terminating caller id reason (.shutting b .start))
  | noBrowser : TerminateStep caller id reason .taking (.browser none) (.noBrowser id)
      (.terminating caller id reason .dying)
  | shut {b pc choice op pc'} (h : ShutdownStep b.child pc choice op pc') :
    TerminateStep caller id reason (.shutting b pc) choice op
      (.terminating caller id reason (.shutting b pc'))
  | dropShut {b kind} : TerminateStep caller id reason (.shutting b (.shut kind)) .go
      (.release [.browser b]) (.terminating caller id reason (.reporting kind))
  | countKilled : TerminateStep caller id reason (.reporting .killed) .go .countHardKilled
      (.terminating caller id reason .dying)
  | report {kind} (h : kind ≠ .killed) : TerminateStep caller id reason (.reporting kind) .go
      .nothing (.terminating caller id reason .dying)
  | die : TerminateStep caller id reason .dying .go (.setDead id)
      (.terminating caller id reason .ended)
  | dropEnded : TerminateStep caller id reason .ended .go (.release [.entry id])
      (.terminating caller id reason .finishing)
  | finish : TerminateStep caller id reason .finishing .go (.returnTrue id)
      (.terminating caller id reason .leaving)
  | leave : TerminateStep caller id reason .leaving .go
      (.release (Task.callerFrame id caller)) (Task.resume caller)

/-- `terminate_session` takes no other steps. -/
theorem Task.performTerminate_step {caller : Terminator} {id : Uuid} {reason : String} {pc : TermPc}
    {choice : Choice} {op : Op} {t' : Task}
    (h : performTerminate caller id reason pc choice = some (op, t')) :
    TerminateStep caller id reason pc choice op t' := by
  cases pc with
  | taking =>
    cases choice with
    | browser b => cases b <;> cases h <;> constructor
    | _ => cases h
  | shutting b pc =>
    change performShutting caller id reason b pc choice = some (op, t') at h
    unfold performShutting at h
    split at h
    · cases h
      exact .dropShut
    · obtain ⟨⟨op', pc'⟩, hs, he⟩ := Option.map_eq_some_iff.1 h
      cases he
      exact .shut (performShutdown_step hs)
  | reporting kind =>
    cases choice with
    | go =>
      cases kind with
      | killed =>
        cases h
        exact .countKilled
      | _ =>
        cases h
        exact .report (by decide)
    | _ => cases kind <;> cases h
  | _ => cases choice <;> cases h <;> constructor

/-! ## `maintenance_pass` -/

/-- The steps of `SessionPool::maintenance_pass` and `kill_reason_for`. -/
inductive PassStep (options : PoolOptions) : PassPc → Choice → Op → Task → Prop
  | collect {held id} (h : id ∉ held) : PassStep options (.collecting held) (.session id)
      (.cloneEntry id) (.passing (.collecting (held ++ [id])))
  | collected {held} : PassStep options (.collecting held) .go .nothing (.passing (.visiting held))
  | visited : PassStep options (.visiting []) .go .nothing .done
  | skip {id rest state} (h : state = .killing ∨ state = .dead) :
    PassStep options (.visiting (id :: rest)) (.state state) (.readState id state)
      (.passing (.keeping id rest))
  | look {id rest state} (h : ¬ (state = .killing ∨ state = .dead)) :
    PassStep options (.visiting (id :: rest)) (.state state) (.readState id state)
      (.passing (.aging id rest))
  | age {id rest age} : PassStep options (.aging id rest) (.elapse age) (.readAge id age)
      (Task.decide id rest (.stating id rest) (options.lifetimeReason age))
  | state {id rest state} : PassStep options (.stating id rest) (.state state)
      (.readState id state) (.passing (.idling id rest state))
  | idle {id rest state idleFor} : PassStep options (.idling id rest state) (.elapse idleFor)
      (.readIdle id idleFor)
      (Task.decide id rest (.sampling id rest) (options.idleReason state idleFor))
  | sample {id rest sample} : PassStep options (.sampling id rest) (.sample sample) .nothing
      (Task.decide id rest (.checking id rest) (options.sampleReason sample))
  | due {id rest sinceCheck} (h : options.healthCheckDue sinceCheck = true) :
    PassStep options (.checking id rest) (.elapse sinceCheck) (.checkHealth id sinceCheck true)
      (.passing (.probing id rest))
  | notDue {id rest sinceCheck} (h : options.healthCheckDue sinceCheck = false) :
    PassStep options (.checking id rest) (.elapse sinceCheck) (.checkHealth id sinceCheck false)
      (.passing (.keeping id rest))
  | probe {id rest error} : PassStep options (.probing id rest) (.probe error) .nothing
      (Task.decide id rest (.keeping id rest) (healthReason (Task.probeResult error)))
  | keep {id rest} : PassStep options (.keeping id rest) .go (.release [.entry id])
      (.passing (.visiting rest))

/-- A maintenance pass takes no other steps. -/
theorem Task.performPass_step {options : PoolOptions} {pc : PassPc} {choice : Choice} {op : Op}
    {t' : Task} (h : performPass options pc choice = some (op, t')) :
    PassStep options pc choice op t' := by
  cases pc with
  | collecting held =>
    cases choice with
    | session id =>
      simp only [performPass, Option.ite_none_left_eq_some] at h
      obtain ⟨hnew, h⟩ := h
      cases h
      exact .collect hnew
    | go =>
      cases h
      exact .collected
    | _ => cases h
  | visiting rest =>
    cases rest with
    | nil =>
      cases choice with
      | go =>
        cases h
        exact .visited
      | _ => cases h
    | cons id rest =>
      cases choice with
      | state state =>
        simp only [performPass] at h
        split at h
        · next hover =>
          cases h
          exact .skip hover
        · next hlive =>
          cases h
          exact .look hlive
      | _ => cases h
  | checking id rest =>
    cases choice with
    | elapse sinceCheck =>
      cases hdue : options.healthCheckDue sinceCheck with
      | true =>
        simp only [performPass, hdue, if_pos] at h
        cases h
        exact .due hdue
      | false =>
        simp only [performPass, hdue, Bool.false_eq_true, if_false] at h
        cases h
        exact .notDue hdue
    | _ => cases h
  | _ =>
    cases choice <;> cases h
    constructor

/-! ## The tasks -/

/-- The steps of a task: those of the call it is in, and those between the calls. -/
inductive TaskStep (pool : SessionPool) : Task → Choice → Op → Task → Prop
  | create {caller overrides pc choice op t'}
      (h : CreateStep pool caller overrides pc choice op t') :
    TaskStep pool (.creating caller overrides pc) choice op t'
  | respond {id pc choice op t'} (h : RespondStep id pc choice op t') :
    TaskStep pool (.responding id pc) choice op t'
  | connect {id pc choice op t'} (h : ConnectStep id pc choice op t') :
    TaskStep pool (.connecting id pc) choice op t'
  | upgraded {origin id} :
    TaskStep pool (.upgrading origin id) .go .nothing (.marking .proxy origin id)
  | notUpgraded {origin id} :
    TaskStep pool (.upgrading origin id) .refused (.release [.entry id]) .done
  | mark {owner origin id} :
    TaskStep pool (.marking owner origin id) .go (.markInUse id) (.touching owner id)
  | touch {owner id} : TaskStep pool (.touching owner id) .go (.touch id) (.driving owner id)
  | disconnect {id} : TaskStep pool (.driving .proxy id) .go .nothing
      (.terminating .proxy id "cdp websocket disconnected" .removing)
  | complete {id} : TaskStep pool (.driving .rest id) .go (.release [.entry id])
      (.terminating .rest id "rest endpoint completed" .removing)
  | terminate {caller id reason pc choice op t'}
      (h : TerminateStep caller id reason pc choice op t') :
    TaskStep pool (.terminating caller id reason pc) choice op t'
  | pass {pc choice op t'} (h : PassStep pool.options pc choice op t') :
    TaskStep pool (.passing pc) choice op t'
  | read {held id} :
    TaskStep pool (.reading held) (.session id) (.cloneEntry id) (.reading (held ++ [id]))
  | drop {id held} :
    TaskStep pool (.reading (id :: held)) .go (.release [.entry id]) (.reading held)
  | readAll : TaskStep pool (.reading []) .go .nothing .done

/-- The steps of a task in `create_session` are those of `create_session`. -/
theorem TaskStep.creating {pool : SessionPool} {caller : Caller} {overrides : SessionOverrides}
    {pc : CreatePc} {choice : Choice} {op : Op} {t' : Task}
    (step : TaskStep pool (.creating caller overrides pc) choice op t') :
    CreateStep pool caller overrides pc choice op t' := by
  cases step with
  | create step => exact step

/-- **A task takes no other steps.** -/
theorem Task.perform_step {pool : SessionPool} {t t' : Task} {choice : Choice} {op : Op}
    (h : t.perform pool choice = some (op, t')) : TaskStep pool t choice op t' := by
  cases t with
  | creating => exact .create (performCreate_step h)
  | responding => exact .respond (performRespond_step h)
  | connecting => exact .connect (performConnect_step h)
  | terminating => exact .terminate (performTerminate_step h)
  | passing => exact .pass (performPass_step h)
  | driving owner => cases owner <;> cases choice <;> cases h <;> constructor
  | reading held => cases held <;> cases choice <;> cases h <;> constructor
  | _ => cases choice <;> cases h <;> constructor

end Eiger
