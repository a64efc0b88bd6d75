import Eiger.Pool.Memory

/-!
# The pool's tasks

A `Task` is an async call at one of its await points or between two atomic steps: a handler
future, the task that `on_upgrade` spawns, or a maintenance pass. `Task.perform` is its next
step: given what the environment decides there (`Choice`: how an await ends, what a read sees),
the operation it performs on the shared memory and the task after it. The functions are those of
the source, in its order:

* `performCreate`: `SessionPool::create_session` with `launch_chrome` and `terminate_child`;
* `performConnect`: `SessionPool::connect_session` in `connect_existing_session`;
* `performTerminate`: `SessionPool::terminate_session`, `shutdown_entry` and
  `LaunchedBrowser::shutdown`;
* `performPass`: `SessionPool::maintenance_pass` with `kill_reason_for`.

`shutdown_entry` holds the lock of the state from its write of `Killing` to that of the kill reason;
the model leaves it open there, and so has every interleaving of the source and some more. A
`waitpid` or `kill` on a child that has not been waited for does not fail.

`Task.locals` are the values a task owns, in the order their drop takes place, and
`Task.droppable` says whether the task is a handler future suspended at an await point, which is
where the server may drop it.
-/

namespace Eiger

/-- Who called `create_session`: the handler of `POST /sessions`, `connect_new_session` or
`with_rest_session`. -/
inductive Caller where
  | postSession
  | connectNew
  | rest
  deriving DecidableEq, Repr

/-- Where a `create_session` call is. -/
inductive CreatePc where
  /-- Awaits a permit, at most `launch_queue_timeout` long. -/
  | queued
  | granted
  /-- `launch_chrome` resolves the executable and prepares the user data directory. -/
  | starting (options : ChromeLaunchOptions)
  | prepared (options : ChromeLaunchOptions) (dir : UserDataDir)
  /-- Awaits `wait_until_ready`. -/
  | waiting (options : ChromeLaunchOptions) (c : ChildId) (dir : UserDataDir)
  /-- `terminate_child`: `try_wait`, `send_sigterm`, then the two waits. -/
  | stopping (c : ChildId) (dir : UserDataDir) (error : BrowserError)
  | signalling (c : ChildId) (dir : UserDataDir) (error : BrowserError)
  | cleaning (c : ChildId) (dir : UserDataDir) (error : BrowserError)
  | killing (c : ChildId) (dir : UserDataDir) (error : BrowserError)
  /-- `launch_chrome` returns an error and drops its locals. -/
  | unwinding (frame : List Local) (error : BrowserError)
  /-- Awaits `inject_stealth_into_existing_targets`. -/
  | injecting (options : ChromeLaunchOptions) (b : LaunchedBrowser)
  | launched (options : ChromeLaunchOptions) (b : LaunchedBrowser)
  /-- Awaits the lock of the last launch error. -/
  | recording (options : ChromeLaunchOptions) (b : LaunchedBrowser)
  | recorded (options : ChromeLaunchOptions) (b : LaunchedBrowser)
  | inserted (id : Uuid)
  | failed (error : BrowserError)
  /-- Awaits the lock of the last launch error. -/
  | failing (error : BrowserError)
  | returning (error : PoolError)
  /-- The call has returned an error. -/
  | returned (error : PoolError)
  deriving DecidableEq, Repr

/-- Where a `connect_session` call is. -/
inductive ConnectPc where
  | lookup
  /-- Awaits the state's write lock, with a clone of the entry. -/
  | found
  /-- The session is claimed; awaits the locks of `touch`. -/
  | claimed
  | rejected
  deriving DecidableEq, Repr

/-- Where the handler of `POST /sessions` is after `create_session`. -/
inductive RespondPc where
  | looking
  | informing
  | answering
  deriving DecidableEq, Repr

/-- What an owner of a session does with it. -/
inductive Owner where
  | proxy
  | rest
  deriving DecidableEq, Repr

/-- How the owner-to-be got the session: it created it, or it claimed it in `connect_session`. -/
inductive Origin where
  | created
  | connected
  deriving DecidableEq, Repr

/-- Who called `terminate_session`. A maintenance pass goes on with the entries in `rest`. -/
inductive Terminator where
  | delete
  | proxy
  | rest
  | pass (rest : List Uuid)
  deriving DecidableEq, Repr

/-- Where `LaunchedBrowser::shutdown` is. -/
inductive ShutdownPc where
  | start
  /-- Awaits `Browser.close`, at most `close_timeout` long. -/
  | closing
  /-- Awaits the child's exit, at most `terminate_timeout` long. -/
  | awaitExit
  | sigterming
  | awaitTerm
  /-- Awaits `Child::kill`. -/
  | awaitKill
  | shut (kind : ShutdownKind)
  deriving DecidableEq, Repr

/-- Where a `terminate_session` call is. -/
inductive TermPc where
  | removing
  /-- Owns the removed entry; awaits the state's lock. -/
  | killing
  /-- Awaits the lock of the kill reason. -/
  | reasoning
  | counting
  /-- Awaits the browser's lock. -/
  | taking
  | shutting (b : LaunchedBrowser) (pc : ShutdownPc)
  | reporting (kind : ShutdownKind)
  /-- Awaits the state's lock. -/
  | dying
  | ended
  | finishing
  /-- The call has returned; its caller drops its own reference. -/
  | leaving
  deriving DecidableEq, Repr

/-- Where a maintenance pass is; `id` is the entry being decided, `rest` are those after it. -/
inductive PassPc where
  | collecting (held : List Uuid)
  | visiting (rest : List Uuid)
  | aging (id : Uuid) (rest : List Uuid)
  | stating (id : Uuid) (rest : List Uuid)
  | idling (id : Uuid) (rest : List Uuid) (state : SessionState)
  | sampling (id : Uuid) (rest : List Uuid)
  | checking (id : Uuid) (rest : List Uuid)
  | probing (id : Uuid) (rest : List Uuid)
  /-- The entry stays; its clone is dropped. -/
  | keeping (id : Uuid) (rest : List Uuid)
  deriving DecidableEq, Repr

/-- An async call at one of its points. -/
inductive Task where
  | creating (caller : Caller) (overrides : SessionOverrides) (pc : CreatePc)
  | responding (id : Uuid) (pc : RespondPc)
  | connecting (id : Uuid) (pc : ConnectPc)
  /-- The task `on_upgrade` spawned: it awaits the upgrade, then runs `proxy_and_recycle`. -/
  | upgrading (origin : Origin) (id : Uuid)
  /-- `mark_in_use` awaits the state's lock. -/
  | marking (owner : Owner) (origin : Origin) (id : Uuid)
  /-- `mark_in_use` awaits the locks of `touch`. -/
  | touching (owner : Owner) (id : Uuid)
  /-- `proxy_websocket` or the REST operation runs. -/
  | driving (owner : Owner) (id : Uuid)
  | terminating (caller : Terminator) (id : Uuid) (reason : String) (pc : TermPc)
  | passing (pc : PassPc)
  /-- `get_session`, `list_sessions` or `metrics`, with the clones it still holds. -/
  | reading (held : List Uuid)
  | done
  deriving DecidableEq, Repr

/-- What the environment decides at a task's step. -/
inductive Choice where
  /-- The await or the check ends the way the call goes on. -/
  | go
  /-- The timeout around the await fires. -/
  | elapsed
  /-- The await or the check ends the other way. -/
  | refused
  /-- The map has no such entry. -/
  | missing
  /-- `try_wait` finds the child running. -/
  | running
  | failed (error : BrowserError)
  | dir (path : PathBuf)
  | child (c : ChildId)
  | ready (r : BrowserReady)
  | session (id : Uuid)
  | state (state : SessionState)
  | elapse (d : Duration)
  | sample (sample : Option ProcessSample)
  | browser (b : Option LaunchedBrowser)
  | probe (error : Option BrowserError)
  deriving DecidableEq, Repr

namespace Task

/-- `create_session` returned the handle of session `id` to its caller. -/
def created (caller : Caller) (id : Uuid) : Task :=
  match caller with
  | .postSession => .responding id .looking
  | .connectNew => .upgrading .created id
  | .rest => .marking .rest .created id

/-- The steps of `SessionPool::create_session` and of `launch_chrome` in it. -/
def performCreate (pool : SessionPool) (caller : Caller) (overrides : SessionOverrides) :
    CreatePc → Choice → Option (Op × Task)
  | .queued, .go => some (.acquire, .creating caller overrides .granted)
  | .queued, .refused =>
    some (.rejectAtCapacity, .creating caller overrides (.returned .atCapacity))
  | .queued, .elapsed =>
    some (.rejectTimeout, .creating caller overrides (.returned .capacityTimeout))
  | .granted, .go =>
    match pool.launchOptions overrides with
    | .ok options => some (.nothing, .creating caller overrides (.starting options))
    | .error error => some (.nothing, .creating caller overrides (.returning error))
  | .starting _, .failed error => some (.nothing, .creating caller overrides (.failed error))
  | .starting options, .dir temp =>
    match options.userDataDir with
    | some path =>
      some (.createDirAll path, .creating caller overrides (.prepared options (.persistent path)))
    | none => some (.tempdir temp, .creating caller overrides (.prepared options (.temporary temp)))
  | .prepared _ dir, .failed error =>
    some (.nothing, .creating caller overrides (.unwinding [.dir dir] error))
  | .prepared options dir, .child c =>
    some (.spawn c dir, .creating caller overrides (.waiting options c dir))
  | .waiting options c dir, .ready r =>
    let b := { child := c, httpBaseUrl := r.httpBaseUrl, browserWsUrl := r.browserWsUrl,
               userDataDir := dir }
    some (.assemble b, .creating caller overrides
      (if options.stealth.enabled then .injecting options b else .launched options b))
  | .waiting _ c dir, .failed error =>
    some (.nothing, .creating caller overrides (.stopping c dir error))
  | .stopping c dir error, .go =>
    some (.reap c, .creating caller overrides (.unwinding [.child c, .dir dir] error))
  | .stopping c dir error, .running =>
    some (.stillRunning c, .creating caller overrides (.signalling c dir error))
  | .signalling c dir error, .go =>
    some (.sigterm c, .creating caller overrides (.cleaning c dir error))
  | .cleaning c dir error, .go =>
    some (.reap c, .creating caller overrides (.unwinding [.child c, .dir dir] error))
  | .cleaning c dir error, .elapsed =>
    some (.sigkill c, .creating caller overrides (.killing c dir error))
  | .killing c dir error, .go =>
    some (.reap c, .creating caller overrides (.unwinding [.child c, .dir dir] error))
  | .unwinding frame error, .go =>
    some (.release frame, .creating caller overrides (.failed error))
  | .injecting options b, .go => some (.nothing, .creating caller overrides (.launched options b))
  | .launched options b, .go =>
    some (.storeReady true, .creating caller overrides (.recording options b))
  | .recording options b, .go =>
    some (.storeError none, .creating caller overrides (.recorded options b))
  | .recorded options b, .session id =>
    some (.insert id options.stealth.enabled b, .creating caller overrides (.inserted id))
  | .inserted id, .go => some (.countCreated, created caller id)
  | .failed error, .go => some (.storeReady false, .creating caller overrides (.failing error))
  | .failing error, .go =>
    some (.storeError (some error.text), .creating caller overrides (.returning (.browser error)))
  | .returning error, .go => some (.release [.permit], .creating caller overrides (.returned error))
  | _, _ => none

/-- The steps of `SessionPool::connect_session`, and of `connect_existing_session` after it. -/
def performConnect (id : Uuid) : ConnectPc → Choice → Option (Op × Task)
  | .lookup, .go => some (.cloneEntry id, .connecting id .found)
  | .lookup, .missing => some (.notFound id, .done)
  | .found, .go => some (.claim id, .connecting id .claimed)
  | .found, .refused => some (.notConnectable id, .connecting id .rejected)
  | .claimed, .go => some (.touch id, .upgrading .connected id)
  | .rejected, .go => some (.release [.entry id], .done)
  | _, _ => none

/-- The steps of the `POST /sessions` handler after `create_session`. -/
def performRespond (id : Uuid) : RespondPc → Choice → Option (Op × Task)
  | .looking, .go => some (.cloneEntry id, .responding id .informing)
  | .looking, .missing => some (.notFound id, .responding id .answering)
  | .informing, .go => some (.release [.entry id], .responding id .answering)
  | .answering, .go => some (.release [.entry id], .done)
  | _, _ => none

/-- The steps of `LaunchedBrowser::shutdown`, up to the drop of the browser at its end. -/
def performShutdown (c : ChildId) : ShutdownPc → Choice → Option (Op × ShutdownPc)
  | .start, .go => some (.reap c, .shut .alreadyExited)
  | .start, .running => some (.stillRunning c, .closing)
  | .closing, .go => some (.nothing, .awaitExit)
  | .closing, .refused => some (.nothing, .sigterming)
  | .awaitExit, .go => some (.reap c, .shut .graceful)
  | .awaitExit, .elapsed => some (.nothing, .sigterming)
  | .sigterming, .go => some (.sigterm c, .awaitTerm)
  | .awaitTerm, .go => some (.reap c, .shut .terminated)
  | .awaitTerm, .elapsed => some (.sigkill c, .awaitKill)
  | .awaitKill, .go => some (.reap c, .shut .killed)
  | _, _ => none

/-- The references a caller of `terminate_session` holds itself: `proxy_and_recycle` its handle,
a maintenance pass its clone of the entry. -/
def callerFrame (id : Uuid) : Terminator → List Local
  | .delete => []
  | .proxy => [.entry id]
  | .rest => []
  | .pass _ => [.entry id]

/-- What the caller of `terminate_session` does next. -/
def resume : Terminator → Task
  | .delete => .done
  | .proxy => .done
  | .rest => .done
  | .pass rest => .passing (.visiting rest)

/-- The steps of `terminate_session` while it shuts a browser down, and the drop of the browser. -/
def performShutting (caller : Terminator) (id : Uuid) (reason : String) (b : LaunchedBrowser) :
    ShutdownPc → Choice → Option (Op × Task)
  | .shut kind, .go =>
    some (.release [.browser b], .terminating caller id reason (.reporting kind))
  | pc, choice =>
    (performShutdown b.child pc choice).map fun (op, pc) =>
      (op, .terminating caller id reason (.shutting b pc))

/-- The steps of `SessionPool::terminate_session` and `shutdown_entry`. -/
def performTerminate (caller : Terminator) (id : Uuid) (reason : String) :
    TermPc → Choice → Option (Op × Task)
  | .removing, .go => some (.remove id, .terminating caller id reason .killing)
  | .removing, .missing => some (.notFound id, .terminating caller id reason .leaving)
  | .killing, .go => some (.setKilling id, .terminating caller id reason .reasoning)
  | .reasoning, .go => some (.setKillReason id reason, .terminating caller id reason .counting)
  | .counting, .go => some (.countRecycle id reason, .terminating caller id reason .taking)
  | .taking, .browser (some b) =>
    some (.takeBrowser id b, .terminating caller id reason (.shutting b .start))
  | .taking, .browser none => some (.noBrowser id, .terminating caller id reason .dying)
  | .shutting b pc, choice => performShutting caller id reason b pc choice
  | .reporting .killed, .go => some (.countHardKilled, .terminating caller id reason .dying)
  | .reporting _, .go => some (.nothing, .terminating caller id reason .dying)
  | .dying, .go => some (.setDead id, .terminating caller id reason .ended)
  | .ended, .go => some (.release [.entry id], .terminating caller id reason .finishing)
  | .finishing, .go => some (.returnTrue id, .terminating caller id reason .leaving)
  | .leaving, .go => some (.release (callerFrame id caller), resume caller)
  | _, _ => none

/-- A pass that found a reason to kill `id` calls `terminate_session`, else it goes on at `pc`. -/
def decide (id : Uuid) (rest : List Uuid) (pc : PassPc) : Option String → Task
  | some reason => .terminating (.pass rest) id reason .removing
  | none => .passing pc

/-- The result of a health check, by the error it ends in, if any. -/
def probeResult : Option BrowserError → Except BrowserError Unit
  | some error => .error error
  | none => .ok ()

/-- The steps of `SessionPool::maintenance_pass` and `kill_reason_for`. -/
def performPass (options : PoolOptions) : PassPc → Choice → Option (Op × Task)
  | .collecting held, .session id =>
    if id ∈ held then none else some (.cloneEntry id, .passing (.collecting (held ++ [id])))
  | .collecting held, .go => some (.nothing, .passing (.visiting held))
  | .visiting [], .go => some (.nothing, .done)
  | .visiting (id :: rest), .state state =>
    some (.readState id state, .passing
      (if state = .killing ∨ state = .dead then .keeping id rest else .aging id rest))
  | .aging id rest, .elapse age =>
    some (.readAge id age, decide id rest (.stating id rest) (options.lifetimeReason age))
  | .stating id rest, .state state => some (.readState id state, .passing (.idling id rest state))
  | .idling id rest state, .elapse idleFor =>
    some (.readIdle id idleFor,
      decide id rest (.sampling id rest) (options.idleReason state idleFor))
  | .sampling id rest, .sample sample =>
    some (.nothing, decide id rest (.checking id rest) (options.sampleReason sample))
  | .checking id rest, .elapse sinceCheck =>
    let due := options.healthCheckDue sinceCheck
    some (.checkHealth id sinceCheck due,
      .passing (if due then .probing id rest else .keeping id rest))
  | .probing id rest, .probe error =>
    some (.nothing, decide id rest (.keeping id rest) (healthReason (probeResult error)))
  | .keeping id rest, .go => some (.release [.entry id], .passing (.visiting rest))
  | _, _ => none

/-- The next step of a task: its operation on the shared memory, and the task after it. -/
def perform (pool : SessionPool) : Task → Choice → Option (Op × Task)
  | .creating caller overrides pc, choice => performCreate pool caller overrides pc choice
  | .responding id pc, choice => performRespond id pc choice
  | .connecting id pc, choice => performConnect id pc choice
  | .upgrading origin id, .go => some (.nothing, .marking .proxy origin id)
  | .upgrading _ id, .refused => some (.release [.entry id], .done)
  | .marking owner _ id, .go => some (.markInUse id, .touching owner id)
  | .touching owner id, .go => some (.touch id, .driving owner id)
  | .driving .proxy id, .go =>
    some (.nothing, .terminating .proxy id "cdp websocket disconnected" .removing)
  | .driving .rest id, .go =>
    some (.release [.entry id], .terminating .rest id "rest endpoint completed" .removing)
  | .terminating caller id reason pc, choice => performTerminate caller id reason pc choice
  | .passing pc, choice => performPass pool.options pc choice
  | .reading held, .session id => some (.cloneEntry id, .reading (held ++ [id]))
  | .reading (id :: held), .go => some (.release [.entry id], .reading held)
  | .reading [], .go => some (.nothing, .done)
  | _, _ => none

/-! ## What a task owns -/

/-- The values a `create_session` call owns. -/
def createLocals : CreatePc → List Local
  | .queued => []
  | .granted => [.permit]
  | .starting _ => [.permit]
  | .prepared _ dir => [.dir dir, .permit]
  | .waiting _ c dir => [.child c, .dir dir, .permit]
  | .stopping c dir _ => [.child c, .dir dir, .permit]
  | .signalling c dir _ => [.child c, .dir dir, .permit]
  | .cleaning c dir _ => [.child c, .dir dir, .permit]
  | .killing c dir _ => [.child c, .dir dir, .permit]
  | .unwinding frame _ => frame ++ [.permit]
  | .injecting _ b => [.browser b, .permit]
  | .launched _ b => [.browser b, .permit]
  | .recording _ b => [.browser b, .permit]
  | .recorded _ b => [.browser b, .permit]
  | .inserted id => [.entry id]
  | .failed _ => [.permit]
  | .failing _ => [.permit]
  | .returning _ => [.permit]
  | .returned _ => []

/-- The values a `connect_session` call owns. -/
def connectLocals (id : Uuid) : ConnectPc → List Local
  | .lookup => []
  | .found => [.entry id]
  | .claimed => [.entry id]
  | .rejected => [.entry id]

/-- The values the `POST /sessions` handler owns: the handle, and the entry `get_session` reads. -/
def respondLocals (id : Uuid) : RespondPc → List Local
  | .looking => [.entry id]
  | .informing => [.entry id, .entry id]
  | .answering => [.entry id]

/-- The values a `terminate_session` call owns itself. -/
def termLocals (id : Uuid) : TermPc → List Local
  | .removing => []
  | .killing => [.entry id]
  | .reasoning => [.entry id]
  | .counting => [.entry id]
  | .taking => [.entry id]
  | .shutting b _ => [.browser b, .entry id]
  | .reporting _ => [.entry id]
  | .dying => [.entry id]
  | .ended => [.entry id]
  | .finishing => []
  | .leaving => []

/-- The entries a maintenance pass still holds clones of while it is in `terminate_session`. -/
def laterEntries : Terminator → List Uuid
  | .delete => []
  | .proxy => []
  | .rest => []
  | .pass rest => rest

/-- The entries a maintenance pass holds clones of. -/
def passEntries : PassPc → List Uuid
  | .collecting held => held
  | .visiting rest => rest
  | .aging id rest => id :: rest
  | .stating id rest => id :: rest
  | .idling id rest _ => id :: rest
  | .sampling id rest => id :: rest
  | .checking id rest => id :: rest
  | .probing id rest => id :: rest
  | .keeping id rest => id :: rest

/-- The values a task owns, in the order in which dropping the task drops them. -/
def locals : Task → List Local
  | .creating _ _ pc => createLocals pc
  | .responding id pc => respondLocals id pc
  | .connecting id pc => connectLocals id pc
  | .upgrading _ id => [.entry id]
  | .marking _ _ id => [.entry id]
  | .touching _ id => [.entry id]
  | .driving _ id => [.entry id]
  | .terminating caller id _ pc =>
    termLocals id pc ++ callerFrame id caller ++ (laterEntries caller).map .entry
  | .passing pc => (passEntries pc).map .entry
  | .reading held => held.map .entry
  | .done => []

/-! ## Where a handler future may be dropped -/

/-- Whether `create_session` is suspended. -/
def createSuspended : CreatePc → Bool
  | .queued => true
  | .granted => true
  | .starting options => options.userDataDir.isSome
  | .waiting .. => true
  | .cleaning .. => true
  | .killing .. => true
  | .injecting .. => true
  | .recording .. => true
  | .failing _ => true
  | _ => false

/-- Whether `shutdown` is suspended. -/
def shutdownSuspended : ShutdownPc → Bool
  | .closing => true
  | .awaitExit => true
  | .awaitTerm => true
  | .awaitKill => true
  | _ => false

/-- Whether `terminate_session` is suspended, after its first step. -/
def termSuspended : TermPc → Bool
  | .killing => true
  | .reasoning => true
  | .taking => true
  | .shutting _ pc => shutdownSuspended pc
  | .dying => true
  | _ => false

/-- Whether the task is a handler future at a point where the server may drop it. A REST handler
calls `terminate_session` with no await between, and `DELETE` may be dropped before it starts. -/
def droppable : Task → Bool
  | .creating _ _ pc => createSuspended pc
  | .responding _ pc => pc = .informing
  | .connecting _ pc => pc ≠ .rejected
  | .marking .rest _ _ => true
  | .touching .rest _ => true
  | .driving .rest _ => true
  | .terminating .delete _ _ pc => pc = .removing || termSuspended pc
  | .terminating .rest _ _ pc => termSuspended pc
  | .reading _ => true
  | _ => false

end Task

end Eiger
