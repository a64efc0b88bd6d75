import Eiger.Pool.Progress

/-!
# What the tasks wait for

A task goes on unaided or waits. What it does unaided is set by the memory and by the timeouts
around its awaits (`Task.unaided`): the permit, `Browser.close` and the exits after it are awaited
for a limited time each. Some awaits have no timeout: the file system, the start of a browser, the
stealth scripts, the upgrade, the client, `ps`, the handshake of a health check, and the exit of a
child after `Child::kill` (`Task.awaits`). Such an await may never end, and a task stays there then.

`never_stuck` says that there is nothing else: in every reachable state a task that has not returned
goes on unaided, or goes on however the await of its kind ends, and what it waits to exit has been
sent a `SIGKILL`.
-/

namespace Eiger

open Transition Tally

/-! ## Exits after a kill -/

/-- The child whose exit a task awaits, with no time limit, after it has sent it a `SIGKILL`. -/
def Task.awaitsKilled : Task → Option ChildId
  | .creating _ _ (.killing c _ _) => some c
  | .terminating _ _ _ (.shutting b .awaitKill) => some b.child
  | _ => none

/-- A `SIGKILL` stays sent. -/
theorem ChildProcess.kept_sigkill : Kept sigkill where
  reap _ h := h
  sigterm _ h := h
  sigkill _ _ := rfl
  exit _ _ h := h

/-- A child whose exit is awaited so has been sent a `SIGKILL`. -/
def State.AwaitsKilled (s : State) : Prop :=
  ∀ t ∈ s.tasks, ∀ c, t.awaitsKilled = some c → s.memory.childIs ChildProcess.sigkill c = true

section

variable {pool : SessionPool} {choice : Choice} {op : Op} {t t' : Task} {c : ChildId}

/-- `create_session` awaits the exit after it has sent the signal. -/
theorem CreateStep.awaitsKilled {caller : Caller} {overrides : SessionOverrides} {pc : CreatePc}
    (step : CreateStep pool caller overrides pc choice op t') (hc : t'.awaitsKilled = some c) :
    op = .sigkill c := by
  cases step with
  | outlasted =>
    obtain rfl := Option.some.inj hc
    rfl
  | count => cases caller <;> cases hc
  | _ => cases hc

/-- So does `shutdown`. -/
theorem ShutdownStep.awaitsKilled {pc : ShutdownPc}
    (step : ShutdownStep c pc choice op .awaitKill) : op = .sigkill c := by
  cases step
  rfl

/-- So does every task. -/
theorem TaskStep.awaitsKilled (step : TaskStep pool t choice op t')
    (hc : t'.awaitsKilled = some c) : op = .sigkill c := by
  cases step with
  | create step => exact step.awaitsKilled hc
  | @terminate caller _ _ _ _ _ _ step =>
    cases step with
    | @shut b pc choice op pc' hs =>
      cases pc' with
      | awaitKill =>
        obtain rfl := Option.some.inj hc
        exact hs.awaitsKilled
      | _ => cases hc
    | leave => cases caller <;> cases hc
    | _ => cases hc
  | respond step => cases step <;> cases hc
  | connect step => cases step <;> cases hc
  | pass step => cases step.move <;> cases hc
  | _ => cases hc

end

section

variable {pool : SessionPool} {dirs : Finset PathBuf} {P : State → Action → Prop} {s s' : State}
  {a : Action} {as : List Action} {i : Nat} {t : Task}

/-- Every action keeps the signals sent. -/
theorem awaitsKilled_step (h : s.AwaitsKilled) (hs : step pool s a = some s') :
    s'.AwaitsKilled := by
  rcases step_cases hs with ⟨i, t, op, t', ht, turn, he, rfl⟩ | ⟨request, rfl, rfl⟩ |
    ⟨c, rfl, hrun, rfl⟩ | ⟨d, rfl, rfl⟩
  · intro u hu c hc
    rcases List.mem_or_eq_of_mem_set hu with hu | rfl
    · exact Memory.effect_childIs ChildProcess.kept_sigkill op (h u hu c hc)
    · cases turn with
      | perform hperform =>
        obtain rfl := (Task.perform_step hperform).awaitsKilled hc
        exact Memory.childIs_update_self (fun _ => rfl) (by simpa [Memory.enabled] using he)
      | drop => cases hc
  · intro u hu c hc
    rcases List.mem_append.1 hu with hu | hu
    · exact h u hu c hc
    · obtain rfl := List.mem_singleton.1 hu
      cases request <;> cases hc
  · exact fun u hu j hj => Memory.childIs_exit ChildProcess.kept_sigkill hrun (h u hu j hj)
  · exact h

/-- In every reachable state the children whose exits are awaited so have been killed. -/
theorem awaitsKilled_of_reach (h : Reach pool dirs P as s) : s.AwaitsKilled :=
  h.preserves (fun _ _ _ hs _ hstep => awaitsKilled_step hs hstep)
    fun _ ht => absurd ht List.not_mem_nil

end

/-! ## What the outside has to give -/

/-- What a task waits for without a time of the server's own. -/
inductive Outside where
  /-- `prepare_user_data_dir`: the path that is to be created, or a fresh one. -/
  | directory (path : Option PathBuf)
  /-- `Command::spawn`. -/
  | spawn
  /-- `wait_until_ready`, whose requests have no timeout. -/
  | ready
  /-- `inject_stealth_into_existing_targets`, whose handshakes have none. -/
  | injection
  /-- The upgrade of the client's connection. -/
  | upgrade
  /-- The end of the proxied connection or of the REST operation. -/
  | driving
  /-- `sample_process_tree` in a maintenance pass, which awaits `ps`. -/
  | sample
  /-- The same, in `session_info`. -/
  | info
  /-- The handshake of a health check. -/
  | probe
  /-- The exit of a child. -/
  | exit (c : ChildId)
  deriving DecidableEq, Repr

/-- How the wait may end. -/
def Outside.Ends (m : Memory) : Outside → Choice → Prop
  | .directory path, choice =>
    (∃ error, choice = .failed error) ∨
      ∃ dir, choice = .dir dir ∧ (path = none → dir ∉ m.dirs)
  | .spawn, choice => (∃ error, choice = .failed error) ∨ choice = .child m.children.length
  | .ready, choice => (∃ error, choice = .failed error) ∨ ∃ r, choice = .ready r
  | .injection, choice => choice = .go
  | .upgrade, choice => choice = .go ∨ choice = .refused
  | .driving, choice => choice = .go
  | .sample, choice => ∃ sample, choice = .sample sample
  | .info, choice => choice = .go
  | .probe, choice => ∃ error, choice = .probe error
  | .exit c, choice => choice = .go ∧ m.childIs (fun ch => ch.status ≠ .running) c = true

namespace Task

/-- What a `create_session` call waits for. -/
def createAwaits : CreatePc → Option Outside
  | .starting options => some (.directory options.userDataDir)
  | .prepared .. => some .spawn
  | .waiting .. => some .ready
  | .killing c _ _ => some (.exit c)
  | .injecting .. => some .injection
  | _ => none

/-- What a maintenance pass waits for. -/
def passAwaits : PassPc → Option Outside
  | .sampling .. => some .sample
  | .probing .. => some .probe
  | _ => none

/-- What a task waits for from outside, if it does. -/
def awaits : Task → Option Outside
  | .creating _ _ pc => createAwaits pc
  | .responding _ .informing => some .info
  | .upgrading .. => some .upgrade
  | .driving .. => some .driving
  | .terminating _ _ _ (.shutting b .awaitKill) => some (.exit b.child)
  | .passing pc => passAwaits pc
  | .reading (_ :: _) => some .info
  | _ => none

end Task

/-! ## What a task does unaided -/

namespace Memory

/-- What a lookup in the sessions map finds. -/
def looked (m : Memory) (id : Uuid) : Choice := if id ∈ m.sessions then .go else .missing

/-- What `try_wait` finds. -/
def polled (m : Memory) (c : ChildId) : Choice :=
  if m.enabled (.stillRunning c) then .running else .go

/-- What a read of an entry finds. -/
def read (m : Memory) (id : Uuid) (f : SessionEntry → Choice) : Choice :=
  ((m.entryAt id).map f).getD .go

end Memory

namespace Task

/-- How a `create_session` call goes on unaided. -/
def createUnaided (m : Memory) : CreatePc → Choice
  | .queued => .elapsed
  | .stopping c _ _ => m.polled c
  | .cleaning .. => .elapsed
  | .recorded .. => .session m.heap.length
  | _ => .go

/-- How `shutdown` goes on unaided. -/
def shutdownUnaided (m : Memory) (c : ChildId) : ShutdownPc → Choice
  | .start => m.polled c
  | .closing => .refused
  | .awaitExit => .elapsed
  | .awaitTerm => .elapsed
  | _ => .go

/-- How a `terminate_session` call goes on unaided. -/
def termUnaided (m : Memory) (id : Uuid) : TermPc → Choice
  | .removing => m.looked id
  | .taking => m.read id fun e => .browser e.browser
  | .shutting b pc => shutdownUnaided m b.child pc
  | _ => .go

/-- How a maintenance pass goes on unaided. -/
def passUnaided (m : Memory) : PassPc → Choice
  | .visiting (id :: _) => m.read id fun e => .state e.state
  | .aging id _ => m.read id fun e => .elapse (m.now - e.createdInstant)
  | .stating id _ => m.read id fun e => .state e.state
  | .idling id _ _ => m.read id fun e => .elapse (m.now - e.lastUsedInstant)
  | .checking id _ => m.read id fun e => .elapse (m.now - e.lastCdpHealthCheck)
  | _ => .go

/-- How a task goes on that waits for nothing from outside: by what it finds in the memory, and
when the timeout fires that it waits with. -/
def unaided (m : Memory) : Task → Choice
  | .creating _ _ pc => createUnaided m pc
  | .responding id .looking => m.looked id
  | .connecting id .lookup => m.looked id
  | .connecting id .found => m.read id fun e => if e.state = .ready then .go else .refused
  | .terminating _ id _ pc => termUnaided m id pc
  | .passing pc => passUnaided m pc
  | _ => .go

end Task

section

variable {pool : SessionPool} {dirs : Finset PathBuf} {P : State → Action → Prop} {s : State}
  {as : List Action} {i : Nat} {t t' : Task} {choice : Choice} {op : Op} {what : Outside}
  {m : Memory} {c : ChildId} {id : Uuid}

/-- What a lookup finds is so. -/
theorem Memory.looked_cases (m : Memory) (id : Uuid) :
    m.looked id = .go ∧ m.enabled (.cloneEntry id) = true ∧ m.enabled (.remove id) = true ∨
      m.looked id = .missing ∧ m.enabled (.notFound id) = true := by
  by_cases hid : id ∈ m.sessions
  · exact .inl ⟨if_pos hid, decide_eq_true hid, decide_eq_true hid⟩
  · exact .inr ⟨if_neg hid, decide_eq_true hid⟩

/-- A child is running, or can be waited for. -/
theorem Memory.polled_cases (h : c < m.children.length) :
    m.polled c = .running ∧ m.enabled (.stillRunning c) = true ∨
      m.polled c = .go ∧ m.enabled (.reap c) = true := by
  cases hrun : m.enabled (.stillRunning c) with
  | true => exact .inl ⟨if_pos hrun, rfl⟩
  | false =>
    refine .inr ⟨if_neg (Bool.eq_false_iff.1 hrun), ?_⟩
    simp only [enabled, List.getElem?_eq_getElem h, Option.any_some, decide_eq_false_iff_not,
      decide_eq_true_eq] at hrun ⊢
    exact hrun

/-- A read of an entry that is there finds it. -/
theorem Memory.read_eq {e : SessionEntry} {f : SessionEntry → Choice}
    (he : m.entryAt id = some e) : m.read id f = f e := by
  rw [read, he]
  rfl

/-- A `create_session` call that waits for nothing from outside goes on unaided. -/
theorem Task.createUnaided_steps {caller : Caller} {overrides : SessionOverrides} {pc : CreatePc}
    (hknows : ∀ x ∈ pc.knows, m.childIs x.2.holds x.1 = true) (hpc : 0 < pc.work)
    (hawaits : createAwaits pc = none) :
    ∃ op t', performCreate pool caller overrides pc (createUnaided m pc) = some (op, t') ∧
      m.enabled op = true := by
  have hchild : ∀ c dir, (c, ChildFact.dir dir) ∈ pc.knows → c < m.children.length :=
    fun c dir hmem => Memory.lt_of_childIs (hknows _ hmem)
  cases pc with
  | granted =>
    cases hoptions : pool.launchOptions overrides with
    | ok options =>
      exact ⟨.nothing, _, by simp only [performCreate, createUnaided, hoptions]; rfl, rfl⟩
    | error error =>
      exact ⟨.nothing, _, by simp only [performCreate, createUnaided, hoptions]; rfl, rfl⟩
  | stopping c dir error =>
    have hlt := hchild c dir (List.mem_singleton_self _)
    rcases Memory.polled_cases hlt with ⟨hpolled, he⟩ | ⟨hpolled, he⟩
    · exact ⟨.stillRunning c, _, by simp only [createUnaided, hpolled]; rfl, he⟩
    · exact ⟨.reap c, _, by simp only [createUnaided, hpolled]; rfl, he⟩
  | signalling c dir error =>
    exact ⟨_, _, rfl, decide_eq_true (hchild c dir (List.mem_singleton_self _))⟩
  | cleaning c dir error =>
    exact ⟨_, _, rfl, decide_eq_true (hchild c dir List.mem_cons_self)⟩
  | recorded => exact ⟨_, _, rfl, decide_eq_true rfl⟩
  | starting | prepared | waiting | killing | injecting => cases hawaits
  | returned => exact absurd hpc (Nat.lt_irrefl 0)
  | _ => exact ⟨_, _, rfl, rfl⟩

/-- So does `shutdown`. -/
theorem Task.shutdownUnaided_steps {pc : ShutdownPc} (hc : c < m.children.length)
    (hpc : ∀ kind, pc ≠ .shut kind) (hawaits : pc ≠ .awaitKill) :
    ∃ op pc', performShutdown c pc (shutdownUnaided m c pc) = some (op, pc') ∧
      m.enabled op = true := by
  cases pc with
  | start =>
    rcases Memory.polled_cases hc with ⟨hpolled, he⟩ | ⟨hpolled, he⟩
    · exact ⟨.stillRunning c, _, by simp only [shutdownUnaided, hpolled]; rfl, he⟩
    · exact ⟨.reap c, _, by simp only [shutdownUnaided, hpolled]; rfl, he⟩
  | closing => exact ⟨_, _, rfl, rfl⟩
  | awaitExit => exact ⟨_, _, rfl, rfl⟩
  | sigterming => exact ⟨_, _, rfl, decide_eq_true hc⟩
  | awaitTerm => exact ⟨_, _, rfl, decide_eq_true hc⟩
  | awaitKill => exact absurd rfl hawaits
  | shut kind => exact absurd rfl (hpc kind)

/-- So does a `terminate_session` call. -/
theorem Task.termUnaided_steps {caller : Terminator} {reason : String} {pc : TermPc}
    (hentry : pc = .taking → ∃ e, m.entryAt id = some e)
    (hchild : ∀ b spc, pc = .shutting b spc → b.child < m.children.length)
    (hawaits : (terminating caller id reason pc).awaits = none) :
    ∃ op t', performTerminate caller id reason pc (termUnaided m id pc) = some (op, t') ∧
      m.enabled op = true := by
  cases pc with
  | removing =>
    rcases m.looked_cases id with ⟨hlooked, -, he⟩ | ⟨hlooked, he⟩
    · exact ⟨.remove id, _, by simp only [termUnaided, hlooked]; rfl, he⟩
    · exact ⟨.notFound id, _, by simp only [termUnaided, hlooked]; rfl, he⟩
  | taking =>
    obtain ⟨e, he⟩ := hentry rfl
    have hread : m.read id (fun e => .browser e.browser) = .browser e.browser := Memory.read_eq he
    cases hb : e.browser with
    | none =>
      have hnone : m.enabled (.noBrowser id) = true := by simp [Memory.enabled, he, hb]
      exact ⟨.noBrowser id, _, by simp only [termUnaided, hread, hb]; rfl, hnone⟩
    | some b =>
      have htake : m.enabled (.takeBrowser id b) = true := by simp [Memory.enabled, he, hb]
      exact ⟨.takeBrowser id b, _, by simp only [termUnaided, hread, hb]; rfl, htake⟩
  | shutting b spc =>
    by_cases hshut : ∃ kind, spc = .shut kind
    · obtain ⟨kind, rfl⟩ := hshut
      exact ⟨_, _, rfl, rfl⟩
    · have hkill : spc ≠ .awaitKill := by
        rintro rfl
        cases hawaits
      obtain ⟨op, pc', hs, he⟩ := shutdownUnaided_steps (hchild b spc rfl)
        (fun kind h => hshut ⟨kind, h⟩) hkill
      refine ⟨op, terminating caller id reason (.shutting b pc'), ?_, he⟩
      cases spc with
      | shut kind => exact absurd ⟨kind, rfl⟩ hshut
      | _ => simp only [performTerminate, performShutting, termUnaided, hs, Option.map_some]
  | reporting kind => cases kind <;> exact ⟨_, _, rfl, rfl⟩
  | _ => exact ⟨_, _, rfl, rfl⟩

/-- So does a maintenance pass. -/
theorem Task.passUnaided_steps {options : PoolOptions} {pc : PassPc}
    (hentry : ∀ id ∈ passEntries pc, ∃ e, m.entryAt id = some e) (hawaits : passAwaits pc = none) :
    ∃ op t', performPass options pc (passUnaided m pc) = some (op, t') ∧ m.enabled op = true ∧
      (passing pc).listing (passUnaided m pc) = 0 := by
  cases pc with
  | visiting rest =>
    cases rest with
    | nil => exact ⟨_, _, rfl, rfl, rfl⟩
    | cons id rest =>
      obtain ⟨e, he⟩ := hentry id List.mem_cons_self
      have hread : m.enabled (.readState id e.state) = true := by simp [Memory.enabled, he]
      have hsees : passUnaided m (.visiting (id :: rest)) = .state e.state := Memory.read_eq he
      rw [hsees]
      exact ⟨_, _, rfl, hread, rfl⟩
  | aging id rest =>
    obtain ⟨e, he⟩ := hentry id List.mem_cons_self
    have hread : m.enabled (.readAge id (m.now - e.createdInstant)) = true := by
      simp [Memory.enabled, he]
    have hsees : passUnaided m (.aging id rest) = .elapse (m.now - e.createdInstant) :=
      Memory.read_eq he
    rw [hsees]
    exact ⟨_, _, rfl, hread, rfl⟩
  | stating id rest =>
    obtain ⟨e, he⟩ := hentry id List.mem_cons_self
    have hread : m.enabled (.readState id e.state) = true := by simp [Memory.enabled, he]
    have hsees : passUnaided m (.stating id rest) = .state e.state := Memory.read_eq he
    rw [hsees]
    exact ⟨_, _, rfl, hread, rfl⟩
  | idling id rest state =>
    obtain ⟨e, he⟩ := hentry id List.mem_cons_self
    have hread : m.enabled (.readIdle id (m.now - e.lastUsedInstant)) = true := by
      simp [Memory.enabled, he]
    have hsees : passUnaided m (.idling id rest state) = .elapse (m.now - e.lastUsedInstant) :=
      Memory.read_eq he
    rw [hsees]
    exact ⟨_, _, rfl, hread, rfl⟩
  | checking id rest =>
    obtain ⟨e, he⟩ := hentry id List.mem_cons_self
    have hread : ∀ due, m.enabled (.checkHealth id (m.now - e.lastCdpHealthCheck) due) = true := by
      simp [Memory.enabled, he]
    have hsees : passUnaided m (.checking id rest) = .elapse (m.now - e.lastCdpHealthCheck) :=
      Memory.read_eq he
    rw [hsees]
    exact ⟨_, _, rfl, hread _, rfl⟩
  | sampling | probing => cases hawaits
  | collecting | keeping => exact ⟨_, _, rfl, rfl, rfl⟩

/-- **A task that waits for nothing from outside goes on unaided.** -/
theorem Task.unaided_steps (pool : SessionPool) (hknown : s.Known) (hrefs : s.Refs)
    (ht : s.tasks[i]? = some t) (hwork : 0 < t.work) (hawaits : t.awaits = none) :
    ∃ op t', t.perform pool (t.unaided s.memory) = some (op, t') ∧ s.memory.enabled op = true ∧
      t.listing (t.unaided s.memory) = 0 := by
  have hentry : ∀ id, .entry id ∈ t.locals → ∃ e, s.memory.entryAt id = some e :=
    fun id hid => Memory.entryAt_of_lt (hrefs.lt_of_mem ht hid)
  have hknows := hknown.tasks t (List.mem_of_getElem? ht)
  cases t with
  | creating caller overrides pc =>
    obtain ⟨op, t', h, he⟩ := createUnaided_steps hknows hwork hawaits
    exact ⟨op, t', h, he, rfl⟩
  | responding id pc =>
    cases pc with
    | looking =>
      rcases s.memory.looked_cases id with ⟨hlooked, he, -⟩ | ⟨hlooked, he⟩
      · exact ⟨.cloneEntry id, _, by simp only [unaided, hlooked]; rfl, he, rfl⟩
      · exact ⟨.notFound id, _, by simp only [unaided, hlooked]; rfl, he, rfl⟩
    | informing => cases hawaits
    | answering => exact ⟨_, _, rfl, rfl, rfl⟩
  | connecting id pc =>
    cases pc with
    | lookup =>
      rcases s.memory.looked_cases id with ⟨hlooked, he, -⟩ | ⟨hlooked, he⟩
      · exact ⟨.cloneEntry id, _, by simp only [unaided, hlooked]; rfl, he, rfl⟩
      · exact ⟨.notFound id, _, by simp only [unaided, hlooked]; rfl, he, rfl⟩
    | found =>
      obtain ⟨e, he⟩ := hentry id (List.mem_singleton_self _)
      by_cases hready : e.state = .ready
      · have hclaim : s.memory.enabled (.claim id) = true := by
          simp [Memory.enabled, he, hready]
        have hsees : unaided s.memory (.connecting id .found) = .go :=
          (Memory.read_eq he).trans (if_pos hready)
        rw [hsees]
        exact ⟨_, _, rfl, hclaim, rfl⟩
      · have hreject : s.memory.enabled (.notConnectable id) = true := by
          simp [Memory.enabled, he, hready]
        have hsees : unaided s.memory (.connecting id .found) = .refused :=
          (Memory.read_eq he).trans (if_neg hready)
        rw [hsees]
        exact ⟨_, _, rfl, hreject, rfl⟩
    | claimed | rejected => exact ⟨_, _, rfl, rfl, rfl⟩
  | marking owner origin id => exact ⟨_, _, rfl, rfl, rfl⟩
  | touching owner id => exact ⟨_, _, rfl, rfl, rfl⟩
  | terminating caller id reason pc =>
    have hentered : pc = .taking → ∃ e, s.memory.entryAt id = some e := by
      rintro rfl
      exact hentry id (List.mem_append_left _ (List.mem_append_left _ (List.mem_singleton_self _)))
    have hchild : ∀ b spc, pc = .shutting b spc → b.child < s.memory.children.length := by
      rintro b spc rfl
      exact Memory.lt_of_childIs (hknows _ List.mem_cons_self)
    obtain ⟨op, t', h, he⟩ := termUnaided_steps hentered hchild hawaits
    exact ⟨op, t', h, he, rfl⟩
  | passing pc =>
    exact passUnaided_steps (fun id hid => hentry id (List.mem_map_of_mem hid)) hawaits
  | reading held =>
    cases held with
    | nil => exact ⟨_, _, rfl, rfl, rfl⟩
    | cons id held => cases hawaits
  | done => exact absurd hwork (Nat.lt_irrefl 0)
  | upgrading | driving => cases hawaits

/-! ## How a wait ends -/

/-- The children whose exits are awaited are those that have been killed before. -/
theorem Task.awaits_exit : t.awaits = some (.exit c) ↔ t.awaitsKilled = some c := by
  cases t with
  | creating caller overrides pc => cases pc <;> simp [awaits, createAwaits, awaitsKilled]
  | responding id pc => cases pc <;> simp [awaits, awaitsKilled]
  | terminating caller id reason pc =>
    cases pc with
    | shutting b pc => cases pc <;> simp [awaits, awaitsKilled]
    | _ => simp [awaits, awaitsKilled]
  | passing pc => cases pc <;> simp [awaits, passAwaits, awaitsKilled]
  | reading held => cases held <;> simp [awaits, awaitsKilled]
  | _ => simp [awaits, awaitsKilled]

/-- A child whose exit is awaited after a kill has been spawned. -/
theorem State.Known.lt_of_awaitsKilled (hknown : s.Known) (ht : s.tasks[i]? = some t)
    (hc : t.awaitsKilled = some c) : c < s.memory.children.length := by
  have hknows := hknown.tasks t (List.mem_of_getElem? ht)
  cases t with
  | creating caller overrides pc =>
    cases pc with
    | killing =>
      obtain rfl := Option.some.inj hc
      exact Memory.lt_of_childIs (hknows _ List.mem_cons_self)
    | _ => cases hc
  | terminating caller id reason pc =>
    cases pc with
    | shutting b pc =>
      cases pc with
      | awaitKill =>
        obtain rfl := Option.some.inj hc
        exact Memory.lt_of_childIs (hknows _ List.mem_cons_self)
      | _ => cases hc
    | _ => cases hc
  | _ => cases hc

/-- Every wait may end, but for the exit of a child that is running. -/
theorem Outside.exists_ends (m : Memory) (what : Outside)
    (hexit : ∀ c, what = .exit c → m.childIs (fun ch => ch.status ≠ .running) c = true) :
    ∃ choice, what.Ends m choice := by
  cases what with
  | directory path => exact ⟨.failed .missingExecutable, .inl ⟨_, rfl⟩⟩
  | spawn => exact ⟨.child m.children.length, .inr rfl⟩
  | ready => exact ⟨.failed .missingExecutable, .inl ⟨_, rfl⟩⟩
  | injection => exact ⟨.go, rfl⟩
  | upgrade => exact ⟨.go, .inl rfl⟩
  | driving => exact ⟨.go, rfl⟩
  | sample => exact ⟨.sample none, none, rfl⟩
  | info => exact ⟨.go, rfl⟩
  | probe => exact ⟨.probe none, none, rfl⟩
  | exit c => exact ⟨.go, rfl, hexit c rfl⟩

/-- However the wait of a `create_session` call ends, the call goes on. -/
theorem Task.createAwaits_ends {caller : Caller} {overrides : SessionOverrides}
    {pc : CreatePc} (hawaits : createAwaits pc = some what) (hends : what.Ends m choice) :
    ∃ op t', performCreate pool caller overrides pc choice = some (op, t') ∧
      m.enabled op = true := by
  cases pc with
  | starting options =>
    obtain rfl := Option.some.inj hawaits
    rcases hends with ⟨error, rfl⟩ | ⟨dir, rfl, hfresh⟩
    · exact ⟨_, _, rfl, rfl⟩
    · cases hdir : options.userDataDir with
      | some path => exact ⟨.createDirAll path, _, by simp only [performCreate, hdir]; rfl, rfl⟩
      | none =>
        have hfree : m.enabled (.tempdir dir) = true := decide_eq_true (hfresh hdir)
        exact ⟨.tempdir dir, _, by simp only [performCreate, hdir]; rfl, hfree⟩
  | prepared =>
    obtain rfl := Option.some.inj hawaits
    rcases hends with ⟨error, rfl⟩ | rfl
    · exact ⟨_, _, rfl, rfl⟩
    · exact ⟨_, _, rfl, decide_eq_true rfl⟩
  | waiting =>
    obtain rfl := Option.some.inj hawaits
    rcases hends with ⟨error, rfl⟩ | ⟨r, rfl⟩ <;> exact ⟨_, _, rfl, rfl⟩
  | killing =>
    obtain rfl := Option.some.inj hawaits
    obtain ⟨rfl, hexited⟩ := hends
    exact ⟨_, _, rfl, hexited⟩
  | injecting =>
    obtain rfl := Option.some.inj hawaits
    obtain rfl := hends
    exact ⟨_, _, rfl, rfl⟩
  | _ => cases hawaits

/-- However the wait of a task ends, the task goes on. -/
theorem Task.awaits_ends (pool : SessionPool) (hawaits : t.awaits = some what)
    (hends : what.Ends m choice) :
    ∃ op t', t.perform pool choice = some (op, t') ∧ m.enabled op = true ∧
      t.listing choice = 0 := by
  cases t with
  | creating caller overrides pc =>
    obtain ⟨op, t', h, he⟩ := createAwaits_ends hawaits hends
    exact ⟨op, t', h, he, rfl⟩
  | responding id pc =>
    cases pc with
    | informing =>
      obtain rfl := Option.some.inj hawaits
      obtain rfl := hends
      exact ⟨_, _, rfl, rfl, rfl⟩
    | _ => cases hawaits
  | upgrading origin id =>
    obtain rfl := Option.some.inj hawaits
    rcases hends with rfl | rfl <;> exact ⟨_, _, rfl, rfl, rfl⟩
  | driving owner id =>
    obtain rfl := Option.some.inj hawaits
    obtain rfl := hends
    cases owner <;> exact ⟨_, _, rfl, rfl, rfl⟩
  | terminating caller id reason pc =>
    cases pc with
    | shutting b pc =>
      cases pc with
      | awaitKill =>
        obtain rfl := Option.some.inj hawaits
        obtain ⟨rfl, hexited⟩ := hends
        exact ⟨_, _, rfl, hexited, rfl⟩
      | _ => cases hawaits
    | _ => cases hawaits
  | passing pc =>
    cases pc with
    | sampling | probing =>
      obtain rfl := Option.some.inj hawaits
      obtain ⟨_, rfl⟩ := hends
      exact ⟨_, _, rfl, rfl, rfl⟩
    | _ => cases hawaits
  | reading held =>
    cases held with
    | cons id held =>
      obtain rfl := Option.some.inj hawaits
      obtain rfl := hends
      exact ⟨_, _, rfl, rfl, rfl⟩
    | nil => cases hawaits
  | _ => cases hawaits

/-! ## No task gets stuck -/

/-- Some step of the task is enabled that takes from its work. -/
def CanStep (pool : SessionPool) (m : Memory) (t : Task) : Prop :=
  ∃ choice op t', t.perform pool choice = some (op, t') ∧ m.enabled op = true ∧ t'.work < t.work

/-- A step that lists nothing takes from the work. -/
theorem Task.work_lt (h : t.perform pool choice = some (op, t')) (hlisting : t.listing choice = 0) :
    t'.work < t.work := by
  have hwork := (perform_step h).work
  rw [hlisting] at hwork
  exact hwork

/-- A task with something before it can step, or awaits a child that has been killed. -/
theorem canStep_or_awaits (hknown : s.Known) (hrefs : s.Refs) (ht : s.tasks[i]? = some t)
    (hwork : 0 < t.work) :
    CanStep pool s.memory t ∨
      ∃ c, t.awaitsKilled = some c ∧ s.memory.enabled (.stillRunning c) = true := by
  cases hawaits : t.awaits with
  | none =>
    obtain ⟨op, t', h, he, hlisting⟩ := Task.unaided_steps pool hknown hrefs ht hwork hawaits
    exact .inl ⟨_, op, t', h, he, Task.work_lt h hlisting⟩
  | some what =>
    by_cases hrun : ∃ c, what = .exit c ∧ s.memory.enabled (.stillRunning c) = true
    · obtain ⟨c, rfl, hrun⟩ := hrun
      exact .inr ⟨c, Task.awaits_exit.1 hawaits, hrun⟩
    · have hexit : ∀ c, what = .exit c → s.memory.enabled (.reap c) = true := by
        rintro c rfl
        have hlt := hknown.lt_of_awaitsKilled ht (Task.awaits_exit.1 hawaits)
        rcases Memory.polled_cases hlt with ⟨-, he⟩ | ⟨-, he⟩
        · exact absurd ⟨c, rfl, he⟩ hrun
        · exact he
      obtain ⟨choice, hends⟩ := what.exists_ends s.memory hexit
      obtain ⟨op, t', h, he, hlisting⟩ := Task.awaits_ends pool hawaits hends
      exact .inl ⟨choice, op, t', h, he, Task.work_lt h hlisting⟩

/-- Task `i` can take its next step with this choice, and has less before it then. -/
def State.Proceeds (pool : SessionPool) (i : Nat) (s : State) (choice : Choice) : Prop :=
  ∃ s', step pool s (.task i choice) = some s' ∧ s'.work i < s.work i

/-- A step of task `i` that the memory allows and that lists nothing. -/
theorem State.Proceeds.of_perform (ht : s.tasks[i]? = some t)
    (h : t.perform pool choice = some (op, t')) (he : s.memory.enabled op = true)
    (hlisting : t.listing choice = 0) : s.Proceeds pool i choice := by
  have hlt := (List.getElem?_eq_some_iff.1 ht).1
  refine ⟨{ memory := s.memory.effect op, tasks := s.tasks.set i t' }, ?_, ?_⟩
  · simp [step, ht, h, Memory.apply, he]
  · simpa [State.work, ht, List.getElem?_set_self hlt] using Task.work_lt h hlisting

/-- **No task gets stuck but on what the outside owes it.** In every reachable state, whatever has
been dropped on the way to it, each task that has not returned goes on unaided, by an enabled step
that takes from the work before it, or it waits for something that the server has set no time for;
then it goes on however this ends, and a child whose exit it waits for has been sent a `SIGKILL`. -/
theorem never_stuck (h : Reach pool dirs P as s) (ht : s.tasks[i]? = some t)
    (hfinished : t.finished = false) :
    (t.awaits = none → s.Proceeds pool i (t.unaided s.memory)) ∧
      ∀ what, t.awaits = some what →
        (∀ choice, what.Ends s.memory choice → s.Proceeds pool i choice) ∧
        ∀ c, what = .exit c → s.memory.childIs ChildProcess.sigkill c = true := by
  refine ⟨fun hawaits => ?_, fun what hawaits => ⟨fun choice hends => ?_, ?_⟩⟩
  · obtain ⟨op, t', hperform, he, hlisting⟩ := Task.unaided_steps pool
      (known_of_reach h) (refs_of_reach h) ht (Task.work_pos hfinished) hawaits
    exact .of_perform ht hperform he hlisting
  · obtain ⟨op, t', hperform, he, hlisting⟩ := Task.awaits_ends pool hawaits hends
    exact .of_perform ht hperform he hlisting
  · rintro c rfl
    exact awaitsKilled_of_reach h t (List.mem_of_getElem? ht) c (Task.awaits_exit.1 hawaits)

/-- A call that waits for its browser goes on when the browser is ready. -/
theorem never_stuck_launching :
    (exampleState 1 (.arrive (.create .rest .default) ::
      spawnActions 0 0 "/tmp/eiger-chrome-a")).Proceeds (examplePool 1) 0
        (.ready exampleReady) := by
  have hrun : Reach (examplePool 1) ∅ anyAction
      (.arrive (.create .rest .default) :: spawnActions 0 0 "/tmp/eiger-chrome-a")
      (exampleState 1 (.arrive (.create .rest .default) ::
        spawnActions 0 0 "/tmp/eiger-chrome-a")) := run_after (by decide)
  exact ((never_stuck hrun rfl rfl).2 .ready rfl).1 _ (.inr ⟨_, rfl⟩)

end

end Eiger
