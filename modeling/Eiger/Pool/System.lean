import Eiger.Lib.Run
import Eiger.Lib.Tally
import Eiger.Pool.Task

/-!
# The pool as a system

A `State` is the shared memory and the tasks that run on it. One `Action` is one atomic step of
one task, the drop of a suspended handler future, the arrival of a request, the exit of a Chrome
process, or the passing of time; `step` is what it does, where it is enabled. A `Reach` is a run
from the state `SessionPool::from_config` builds, over any interleaving of any number of tasks,
under a guard on its actions.

`step_cases` says once what an action can do. The invariants of the modules after this one are
proved from it: what a `Turn` of a task does to the task, and what its operation does to the
memory, are looked up separately.
-/

namespace Eiger

open Transition Tally

/-- The state of the server's pool. -/
structure State where
  memory : Memory
  tasks : List Task

/-- What starts a task: a request, a tick of the maintenance interval, or a reader's request. -/
inductive Request where
  | create (caller : Caller) (overrides : SessionOverrides)
  | connectExisting (id : Uuid)
  | delete (id : Uuid)
  | maintenance
  | inspect
  deriving DecidableEq, Repr

/-- The task a request starts as. -/
def Request.task : Request → Task
  | .create caller overrides => .creating caller overrides .queued
  | .connectExisting id => .connecting id .lookup
  | .delete id => .terminating .delete id "delete requested" .removing
  | .maintenance => .passing (.collecting [])
  | .inspect => .reading []

/-- One step of the system. -/
inductive Action where
  /-- Task `i` takes its next step. -/
  | task (i : Nat) (choice : Choice)
  /-- The server drops the handler future of task `i`. -/
  | dropFuture (i : Nat)
  | arrive (request : Request)
  /-- The process of child `c` exits. -/
  | exit (c : ChildId)
  | advance (d : Duration)
  deriving DecidableEq, Repr

namespace State

/-- The state a server with the given directories starts in. -/
def init (pool : SessionPool) (dirs : Finset PathBuf) : State :=
  { memory := .init pool dirs, tasks := [] }

/-- The operation and the next task of the task step that an action is. -/
def next? (pool : SessionPool) (s : State) : Action → Option (Op × Task)
  | .task i choice => s.tasks[i]?.bind (·.perform pool choice)
  | _ => none

/-- The operation of the task step that an action is. -/
def op? (pool : SessionPool) (s : State) (a : Action) : Option Op :=
  (s.next? pool a).map (·.1)

/-- The task whose future an action drops. -/
def dropped? (s : State) : Action → Option Task
  | .dropFuture i => s.tasks[i]?
  | _ => none

/-- The state of a session. -/
def stateOf (s : State) (id : Uuid) : Option SessionState := (s.memory.entryAt id).map (·.state)

/-- The sum of a weight over the tasks. -/
def sum (s : State) (f : Task → Nat) : Nat := tally f s.tasks

end State

/-- What an action does, where it is enabled. -/
def step (pool : SessionPool) (s : State) : Action → Option State
  | .task i choice => do
    let t ← s.tasks[i]?
    let (op, t') ← t.perform pool choice
    let m ← s.memory.apply op
    return { memory := m, tasks := s.tasks.set i t' }
  | .dropFuture i => do
    let t ← s.tasks[i]?
    if t.droppable then
      return { memory := s.memory.release t.locals, tasks := s.tasks.set i .done }
    else none
  | .arrive request => some { s with tasks := s.tasks ++ [request.task] }
  | .exit c =>
    if s.memory.children[c]?.any (·.status = .running) then
      some { s with memory := s.memory.updateChild c fun ch => { ch with status := .exited } }
    else none
  | .advance d => some { s with memory := { s.memory with now := s.memory.now + d } }

/-- A run from the start whose every action meets the guard `P`. -/
abbrev Reach (pool : SessionPool) (dirs : Finset PathBuf) (P : State → Action → Prop)
    (as : List Action) (s : State) : Prop :=
  Run (step pool) P (.init pool dirs) as s

/-- The guard every action meets. -/
abbrev anyAction : State → Action → Prop := fun _ _ => True

/-- A turn of task `i`: its next step, or its drop, which releases all it owns. -/
inductive Turn (pool : SessionPool) (i : Nat) (t : Task) : Action → Op → Task → Prop
  | perform {choice : Choice} {op : Op} {t' : Task} (h : t.perform pool choice = some (op, t')) :
    Turn pool i t (.task i choice) op t'
  | drop (h : t.droppable = true) : Turn pool i t (.dropFuture i) (.release t.locals) .done

/-- A turn that is no drop performs the operation of its action. -/
theorem Turn.op_eq {pool : SessionPool} {s : State} {i : Nat} {t t' : Task} {a : Action} {op : Op}
    (turn : Turn pool i t a op t') (ht : s.tasks[i]? = some t)
    (hop : ∀ frame, op ≠ .release frame) : s.op? pool a = some op := by
  cases turn with
  | perform h => simp [State.op?, State.next?, ht, h]
  | drop => exact absurd rfl (hop _)

/-- What an action can do: a turn of one task, or a change of the environment. -/
theorem step_cases {pool : SessionPool} {s s' : State} {a : Action} (h : step pool s a = some s') :
    (∃ i t op t', s.tasks[i]? = some t ∧ Turn pool i t a op t' ∧ s.memory.enabled op = true ∧
      s' = { memory := s.memory.effect op, tasks := s.tasks.set i t' }) ∨
    (∃ request, a = .arrive request ∧ s' = { s with tasks := s.tasks ++ [request.task] }) ∨
    (∃ c, a = .exit c ∧ s.memory.children[c]?.any (·.status = .running) = true ∧
      s' = { s with memory := s.memory.updateChild c fun ch => { ch with status := .exited } }) ∨
    (∃ d, a = .advance d ∧
      s' = { s with memory := { s.memory with now := s.memory.now + d } }) := by
  cases a with
  | task i choice =>
    simp only [step, Option.bind_eq_bind, Option.bind_eq_some_iff, Memory.apply] at h
    obtain ⟨t, ht, ⟨op, t'⟩, hp, m, hm, hs⟩ := h
    split at hm
    · next he =>
      obtain rfl := Option.some.inj hm
      exact .inl ⟨i, t, op, t', ht, .perform hp, he, (Option.some.inj hs).symm⟩
    · cases hm
  | dropFuture i =>
    simp only [step, Option.bind_eq_bind, Option.bind_eq_some_iff] at h
    obtain ⟨t, ht, h⟩ := h
    split at h
    · next hd => exact .inl ⟨i, t, _, .done, ht, .drop hd, rfl, (Option.some.inj h).symm⟩
    · cases h
  | arrive request => exact .inr (.inl ⟨request, rfl, (Option.some.inj h).symm⟩)
  | exit c =>
    simp only [step] at h
    split at h
    · next hr => exact .inr (.inr (.inl ⟨c, rfl, hr, (Option.some.inj h).symm⟩))
    · cases h
  | advance d => exact .inr (.inr (.inr ⟨d, rfl, (Option.some.inj h).symm⟩))

/-- **The rule for tasks.** What every request starts with and every step of a task keeps is true of
every task of a reachable state. -/
theorem tasks_of_reach {pool : SessionPool} {dirs : Finset PathBuf} {P : State → Action → Prop}
    {as : List Action} {s : State} {Q : Task → Prop}
    (hrequest : ∀ request : Request, Q request.task) (hdone : Q .done)
    (hperform : ∀ t choice op t', t.perform pool choice = some (op, t') → Q t → Q t')
    (h : Reach pool dirs P as s) : ∀ t ∈ s.tasks, Q t := by
  refine h.preserves (I := fun s => ∀ t ∈ s.tasks, Q t) ?_ fun t ht => by cases ht
  intro s a s' hs _ hstep u hu
  rcases step_cases hstep with ⟨i, t, op, t', ht, turn, -, rfl⟩ | ⟨request, rfl, rfl⟩ |
    ⟨c, rfl, -, rfl⟩ | ⟨d, rfl, rfl⟩
  · rcases List.mem_or_eq_of_mem_set hu with hu | rfl
    · exact hs u hu
    · cases turn with
      | perform h => exact hperform t _ op u h (hs t (List.mem_of_getElem? ht))
      | drop => exact hdone
  · rcases List.mem_append.1 hu with hu | hu
    · exact hs u hu
    · exact List.mem_singleton.1 hu ▸ hrequest request
  · exact hs u hu
  · exact hs u hu

/-- A request that arrives adds nothing to a sum in which it weighs nothing. -/
theorem State.sum_arrive {s : State} {request : Request} {f : Task → Nat}
    (hf : f request.task = 0) :
    ({ s with tasks := s.tasks ++ [request.task] } : State).sum f = s.sum f := by
  simp [sum, hf]

/-! ## Example runs -/

/-- The default configuration with room for `n` sessions. -/
def exampleConfig (n : Nat) : AppConfig :=
  { AppConfig.default with pool := { AppConfig.default.pool with maxConcurrentSessions := n } }

/-- The pool of the default configuration with room for `n` sessions. -/
def examplePool (n : Nat) : SessionPool := .fromConfig (exampleConfig n)

/-- The state an example run reaches. -/
def exampleState (n : Nat) (as : List Action) : State :=
  after (step (examplePool n)) (.init (examplePool n) ∅) as

/-- Where the browser of an example run listens. -/
def exampleReady : BrowserReady :=
  { httpBaseUrl := "http://127.0.0.1:9222"
    browserWsUrl := "ws://127.0.0.1:9222/devtools/browser/1" }

/-- A queued `create_session` call, task `i`, spawns child `c`. -/
def spawnActions (i : Nat) (c : ChildId) (dir : PathBuf) : List Action :=
  [.task i .go, .task i .go, .task i (.dir dir), .task i (.child c)]

/-- A queued `create_session` call, task `i`, launches child `c` and inserts session `id`. -/
def insertActions (i : Nat) (c : ChildId) (dir : PathBuf) (id : Uuid) : List Action :=
  spawnActions i c dir ++
    [.task i (.ready exampleReady), .task i .go, .task i .go, .task i .go, .task i (.session id)]

/-- The browser that the launch of child `c` in a temporary directory gives. -/
def exampleBrowser (c : ChildId) (dir : PathBuf) : LaunchedBrowser :=
  { child := c, httpBaseUrl := exampleReady.httpBaseUrl, browserWsUrl := exampleReady.browserWsUrl,
    userDataDir := .temporary dir }

/-- A `terminate_session` call, task `i`, removes its session and shuts its browser down, which
has to be killed; the call is at its end. -/
def terminateActions (i : Nat) (b : LaunchedBrowser) : List Action :=
  [.task i .go, .task i .go, .task i .go, .task i .go, .task i (.browser (some b)),
   .task i .running, .task i .refused, .task i .go, .task i .elapsed, .exit b.child, .task i .go,
   .task i .go, .task i .go, .task i .go, .task i .go, .task i .go, .task i .go]

end Eiger
