import Eiger.Pool.Types
import Mathlib.Data.Finset.Card

/-!
# The memory the pool's tasks share

`Memory` is all that the concurrent calls of the pool read and write: the mutable fields of
`SessionPool`, the allocated `Arc<SessionEntry>`s, the Chrome children, the directories that
exist, and the clock. `Op` lists the atomic steps on it, one lock acquisition, atomic
instruction, system call or map operation each; `Memory.enabled` says where it can take place and
`Memory.effect` what it does. An operation that reads carries what it saw, and is enabled only
where that is what the memory holds.

Dropping a value is an operation too. `Local` lists the values a future owns whose drop has an
effect, and `Memory.release` is Rust's drop glue on them: a permit goes back to the semaphore, an
`Arc` counts down and frees its entry with the last reference, a `LaunchedBrowser` kills its
child and removes a temporary user data directory, and a bare `Child` does nothing, because it is
spawned with `kill_on_drop(false)`.
-/

namespace Eiger

/-- A Chrome child: running, exited but not yet waited for, or reaped. -/
inductive ChildStatus where
  | running
  | exited
  | reaped
  deriving DecidableEq, Repr

/-- A spawned Chrome child: the directory on its command line, its status, and the signals this
process has sent it. -/
structure ChildProcess where
  userDataDir : UserDataDir
  status : ChildStatus
  sigterm : Bool
  sigkill : Bool
  deriving DecidableEq, Repr

/-- An allocated `Arc<SessionEntry>`: its strong count and the entry. -/
structure ArcInner where
  strong : Nat
  entry : SessionEntry
  deriving DecidableEq, Repr

/-- The steps of `terminate_session` that the history records. -/
inductive Milestone where
  | removed
  | killing
  | killReason
  | recycled
  | shutdown
  | dead
  | returnedTrue
  deriving DecidableEq, Repr

/-- The shared memory. `heap` holds the entry of session `id` at place `id`. `history` is not in
the source: it records the steps of `terminate_session` taken so far, the last one first. -/
structure Memory where
  now : Instant
  permits : Nat
  closed : Bool
  sessions : Finset Uuid
  heap : List ArcInner
  children : List ChildProcess
  dirs : Finset PathBuf
  sessionsCreatedTotal : Nat
  sessionsHardKilledTotal : Nat
  sessionsRejectedTotal : Nat
  recycledTotal : RecycleCounter → Nat
  browserLaunchReady : Bool
  lastBrowserLaunchError : Option String
  history : List (Uuid × Milestone)

/-- The memory `SessionPool::from_config` builds, among the directories that exist. -/
def Memory.init (pool : SessionPool) (dirs : Finset PathBuf) : Memory :=
  { now := 0, permits := pool.options.maxConcurrentSessions, closed := false, sessions := ∅,
    heap := [], children := [], dirs, sessionsCreatedTotal := 0, sessionsHardKilledTotal := 0,
    sessionsRejectedTotal := 0, recycledTotal := fun _ => 0, browserLaunchReady := false,
    lastBrowserLaunchError := none, history := [] }

/-- A value a future owns whose drop has an effect. -/
inductive Local where
  | permit
  | entry (id : Uuid)
  | child (c : ChildId)
  | dir (d : UserDataDir)
  | browser (b : LaunchedBrowser)
  deriving DecidableEq, Repr

/-- The atomic steps on the shared memory. -/
inductive Op where
  /-- A step that touches no shared memory. -/
  | nothing
  | acquire
  | rejectAtCapacity
  | rejectTimeout
  | createDirAll (path : PathBuf)
  | tempdir (path : PathBuf)
  | spawn (c : ChildId) (dir : UserDataDir)
  /-- `try_wait` finds the child still running. -/
  | stillRunning (c : ChildId)
  /-- `try_wait` or `wait` collects the exited child. -/
  | reap (c : ChildId)
  | sigterm (c : ChildId)
  | sigkill (c : ChildId)
  /-- The child and its directory are moved into a `LaunchedBrowser`. -/
  | assemble (b : LaunchedBrowser)
  | storeReady (ready : Bool)
  | storeError (error : Option String)
  | insert (id : Uuid) (stealth : Bool) (b : LaunchedBrowser)
  | countCreated
  | cloneEntry (id : Uuid)
  | notFound (id : Uuid)
  /-- `connect_session` finds the entry `Ready` and makes it `InUse`, under one write lock. -/
  | claim (id : Uuid)
  | notConnectable (id : Uuid)
  | markInUse (id : Uuid)
  | touch (id : Uuid)
  | remove (id : Uuid)
  | setKilling (id : Uuid)
  | setKillReason (id : Uuid) (reason : String)
  | countRecycle (id : Uuid) (reason : String)
  | takeBrowser (id : Uuid) (b : LaunchedBrowser)
  /-- `browser.lock().await.take()` finds nothing. -/
  | noBrowser (id : Uuid)
  | countHardKilled
  | setDead (id : Uuid)
  | returnTrue (id : Uuid)
  | readState (id : Uuid) (state : SessionState)
  | readAge (id : Uuid) (age : Duration)
  | readIdle (id : Uuid) (idleFor : Duration)
  | checkHealth (id : Uuid) (sinceCheck : Duration) (due : Bool)
  | release (frame : List Local)
  deriving DecidableEq, Repr

namespace Memory

variable (m : Memory)

/-- The entry of a session. -/
def entryAt (id : Uuid) : Option SessionEntry := m.heap[id]?.map (·.entry)

/-- Writes the entry of a session. -/
def updateEntry (id : Uuid) (f : SessionEntry → SessionEntry) : Memory :=
  { m with heap := m.heap.modify id fun a => { a with entry := f a.entry } }

/-- Writes the record of a child. -/
def updateChild (c : ChildId) (f : ChildProcess → ChildProcess) : Memory :=
  { m with children := m.children.modify c f }

/-- Records a step of `terminate_session`. -/
def record (id : Uuid) (step : Milestone) : Memory :=
  { m with history := (id, step) :: m.history }

/-! ## Drop glue -/

/-- Dropping a user data directory removes it when it is a `TempDir`. -/
def dropDir : UserDataDir → Memory
  | .temporary path => { m with dirs := m.dirs.erase path }
  | .persistent _ => m

/-- `try_wait`, then `start_kill` if the child still runs. -/
def killChild (ch : ChildProcess) : ChildProcess :=
  match ch.status with
  | .running => { ch with sigkill := true }
  | .exited => { ch with status := .reaped }
  | .reaped => ch

/-- `Drop for LaunchedBrowser`, and the drop of its fields. -/
def dropBrowser (b : LaunchedBrowser) : Memory :=
  (m.updateChild b.child killChild).dropDir b.userDataDir

/-- The drop of a `SessionEntry`: the browser it still owns, then its permit. -/
def dropEntry (e : SessionEntry) : Memory :=
  let m := match e.browser with
    | some b => m.dropBrowser b
    | none => m
  { m with permits := m.permits + 1 }

/-- Dropping an `Arc<SessionEntry>`: the last reference drops the entry. -/
def dropArc (id : Uuid) : Memory :=
  match m.heap[id]? with
  | some a =>
    let m' := { m with heap := m.heap.modify id fun a => { a with strong := a.strong - 1 } }
    if a.strong = 1 then m'.dropEntry a.entry else m'
  | none => m

/-- Drops one value. A bare `Child` is left as it is: it was spawned with `kill_on_drop(false)`, so
that its drop sends no signal. One that has exited may be reaped by its drop, which is left out. -/
def dropLocal : Local → Memory
  | .permit => { m with permits := m.permits + 1 }
  | .entry id => m.dropArc id
  | .child _ => m
  | .dir d => m.dropDir d
  | .browser b => m.dropBrowser b

/-- Drops the values of a frame in order. -/
def release (frame : List Local) : Memory := frame.foldl dropLocal m

/-! ## The operations -/

/-- Where an operation can take place. -/
def enabled : Op → Bool
  | .acquire => 0 < m.permits
  | .rejectAtCapacity => m.closed
  | .tempdir path => path ∉ m.dirs
  | .spawn c _ => c = m.children.length
  | .stillRunning c => m.children[c]?.any (·.status = .running)
  | .reap c => m.children[c]?.any (·.status ≠ .running)
  | .sigterm c => c < m.children.length
  | .sigkill c => c < m.children.length
  | .insert id _ _ => id = m.heap.length
  | .cloneEntry id => id ∈ m.sessions
  | .notFound id => id ∉ m.sessions
  | .claim id => (m.entryAt id).any (·.state = .ready)
  | .notConnectable id => (m.entryAt id).any (·.state ≠ .ready)
  | .remove id => id ∈ m.sessions
  | .takeBrowser id b => (m.entryAt id).any (·.browser = some b)
  | .noBrowser id => (m.entryAt id).any (·.browser = none)
  | .readState id state => (m.entryAt id).any (·.state = state)
  | .readAge id age => (m.entryAt id).any fun e => age = m.now - e.createdInstant
  | .readIdle id idleFor => (m.entryAt id).any fun e => idleFor = m.now - e.lastUsedInstant
  | .checkHealth id sinceCheck _ =>
    (m.entryAt id).any fun e => sinceCheck = m.now - e.lastCdpHealthCheck
  | _ => true

/-- What an operation does. -/
def effect : Op → Memory
  | .acquire => { m with permits := m.permits - 1 }
  | .rejectAtCapacity => { m with sessionsRejectedTotal := m.sessionsRejectedTotal + 1 }
  | .rejectTimeout => { m with sessionsRejectedTotal := m.sessionsRejectedTotal + 1 }
  | .createDirAll path => { m with dirs := insert path m.dirs }
  | .tempdir path => { m with dirs := insert path m.dirs }
  | .spawn _ dir => { m with children := m.children ++
      [{ userDataDir := dir, status := .running, sigterm := false, sigkill := false }] }
  | .reap c => m.updateChild c fun ch => { ch with status := .reaped }
  | .sigterm c => m.updateChild c fun ch => { ch with sigterm := true }
  | .sigkill c => m.updateChild c fun ch => { ch with sigkill := true }
  | .storeReady ready => { m with browserLaunchReady := ready }
  | .storeError error => { m with lastBrowserLaunchError := error }
  | .insert id stealth b =>
    -- one reference for the map, one for the `SessionHandle`
    { m with
      heap := m.heap ++ [{ strong := 2, entry := .new id stealth m.now b }]
      sessions := insert id m.sessions }
  | .countCreated => { m with sessionsCreatedTotal := m.sessionsCreatedTotal + 1 }
  | .cloneEntry id =>
    { m with heap := m.heap.modify id fun a => { a with strong := a.strong + 1 } }
  | .claim id => m.updateEntry id fun e => { e with state := .inUse }
  | .markInUse id => m.updateEntry id fun e => { e with state := .inUse }
  | .touch id => m.updateEntry id fun e => { e with lastUsedInstant := m.now }
  | .remove id => { m with sessions := m.sessions.erase id }.record id .removed
  | .setKilling id => (m.updateEntry id fun e => { e with state := .killing }).record id .killing
  | .setKillReason id reason =>
    (m.updateEntry id fun e => { e with killReason := some reason }).record id .killReason
  | .countRecycle id reason =>
    match recycleCounter reason with
    | some counter =>
      { m with recycledTotal :=
        Function.update m.recycledTotal counter (m.recycledTotal counter + 1) }.record id .recycled
    | none => m
  | .takeBrowser id _ => (m.updateEntry id fun e => { e with browser := none }).record id .shutdown
  | .countHardKilled => { m with sessionsHardKilledTotal := m.sessionsHardKilledTotal + 1 }
  | .setDead id => (m.updateEntry id fun e => { e with state := .dead }).record id .dead
  | .returnTrue id => m.record id .returnedTrue
  | .checkHealth id _ due =>
    m.updateEntry id fun e => if due then { e with lastCdpHealthCheck := m.now } else e
  | .release frame => m.release frame
  | _ => m

/-- Drop glue, as an operation. -/
theorem effect_release (frame : List Local) : m.effect (.release frame) = m.release frame := by
  rw [effect]

/-- An operation, where it is enabled. -/
def apply (op : Op) : Option Memory := if m.enabled op then some (m.effect op) else none

end Memory

end Eiger
