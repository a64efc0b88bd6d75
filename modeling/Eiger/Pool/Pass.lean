import Eiger.Browser.Cdp
import Eiger.Pool.System

/-!
# A maintenance pass in time

`maintenance_pass` visits its entries one after another and awaits, at each, the health check and
the shutdown it needs. A `Visit` is all that it finds at one entry: what it reads, what the CDP
endpoint does with the health check, what the browser does while it is shut down.

A decision is right (`Visit.Right`) when an entry over one of its limits, or whose process has
exited, is terminated, and so is one whose endpoint does not answer a due health check within two
seconds of its send, and every other one is kept. `pass_isolated`: the pass decides every entry, and
rightly, exactly when no health check that it makes is of an endpoint whose handshake never ends.
Such a handshake is awaited outside of every timeout, and the pass stays there (`pass_stuck`);
`shutdown` awaits the same command within a timeout.

`performPass_visit` connects this to the tasks: the same readings lead the pass of the system to the
same decision.
-/

namespace Eiger

open Json

/-- The time a health check waits for its response. -/
def healthCheckWait : Duration := .fromSecs 2

/-- What a maintenance pass finds at one entry: the state, age, state and idle time it reads, the
sample of the process tree, the time since the last health check, what the endpoint does with the
next one, whether the session still is in the map when it is to be terminated, and what its
browser does then, if it is still in the entry. The locks it takes on the way are held by nobody
for longer than it takes to read or write what they guard. -/
structure Visit where
  id : Uuid
  state : SessionState
  age : Duration
  stateAgain : SessionState
  idleFor : Duration
  sample : Option ProcessSample
  sinceCheck : Duration
  endpoint : Endpoint
  inMap : Bool
  browser : Option Dying

/-- What a pass does with an entry. -/
inductive Decision where
  /-- The entry is being shut down already. -/
  | skipped
  | kept
  | terminated (reason : String)
  /-- There was a reason, but `terminate_session` found the session gone from the map. -/
  | gone (reason : String)
  deriving DecidableEq, Repr

namespace Visit

variable (json : Codec) (options : PoolOptions) (v : Visit)

/-- `SessionPool::kill_reason_for`. -/
def killReasonFor : Future (Option String) :=
  match options.lifetimeReason v.age with
  | some reason => return some reason
  | none =>
    match options.idleReason v.stateAgain v.idleFor with
    | some reason => return some reason
    | none =>
      match options.sampleReason v.sample with
      | some reason => return some reason
      | none => do
        if options.healthCheckDue v.sinceCheck then
          let result ← healthCheckBrowserWs json v.endpoint healthCheckWait
          return healthReason result
        else
          return none

/-- `SessionPool::shutdown_entry`, as far as it awaits the browser. -/
def shutdownEntry : Future Unit :=
  match v.browser with
  | some browser => do
    let _ ← browser.shutdown json
    return ()
  | none => return ()

/-- `SessionPool::terminate_session`. -/
def terminateSession : Future Bool := do
  if v.inMap then
    v.shutdownEntry json
    return true
  else
    return false

/-- The body of the loop of `maintenance_pass`. -/
def decide : Future Decision := do
  if v.state = .killing ∨ v.state = .dead then
    return .skipped
  else
    match ← v.killReasonFor json options with
    | none => return .kept
    | some reason =>
      let removed ← v.terminateSession json
      return if removed then .terminated reason else .gone reason

end Visit

/-- `SessionPool::maintenance_pass`: the decisions it gets to. -/
def maintenancePass (json : Codec) (options : PoolOptions) (visits : List Visit) : List Decision :=
  Future.inTurn (visits.map (·.decide json options))

/-! ## What a pass is for -/

namespace Visit

variable (json : Codec) (options : PoolOptions) (v : Visit)

/-- The entry exceeds its lifetime, idle or RSS limit, or its process has exited. -/
def Exceeds : Prop :=
  v.age > options.maxSessionLifetime ∨
  (v.stateAgain = .ready ∧ v.idleFor > options.maxIdleTime) ∨
  (∃ sample, v.sample = some sample ∧ sample.rssBytes > options.perSessionRssLimitBytes) ∨
  v.sample = none

/-- The session is removed and shut down for a reason, unless it has been removed before. -/
def ended (reason : String) : Decision := if v.inMap then .terminated reason else .gone reason

/-- A right decision: an entry that exceeds a limit is ended, one whose health check is due and not
answered is ended as unhealthy, and any other one is kept. -/
def Right (d : Decision) : Prop :=
  if v.state = .killing ∨ v.state = .dead then d = .skipped
  else (v.Exceeds options ∧ ∃ reason, d = v.ended reason) ∨
    (¬ v.Exceeds options ∧
      ((options.healthCheckDue v.sinceCheck = true ∧ ¬ v.endpoint.Answers json healthCheckWait ∧
        ∃ error : BrowserError, d = v.ended ("cdp health check failed: " ++ error.text)) ∨
      ((options.healthCheckDue v.sinceCheck = true → v.endpoint.Answers json healthCheckWait) ∧
        d = .kept)))

/-- The pass makes a health check: the entry is not being shut down, exceeds no limit, and its check
is due. -/
def Probed : Prop :=
  ¬ (v.state = .killing ∨ v.state = .dead) ∧ ¬ v.Exceeds options ∧
    options.healthCheckDue v.sinceCheck = true

end Visit

/-! ## When a pass does it -/

section

variable {json : Codec} {options : PoolOptions} {v : Visit}

/-- The checks before the health check find a reason exactly when the entry exceeds a limit. -/
theorem Visit.exceeds_iff : v.Exceeds options ↔
    (options.lifetimeReason v.age).isSome ∨ (options.idleReason v.stateAgain v.idleFor).isSome ∨
      (options.sampleReason v.sample).isSome := by
  unfold Exceeds PoolOptions.lifetimeReason PoolOptions.idleReason PoolOptions.sampleReason
  cases v.sample with
  | none => simp
  | some sample => simp [Option.isSome_ite]

/-- Below the limits, `kill_reason_for` is its health check. -/
theorem Visit.killReasonFor_of_not_exceeds (h : ¬ v.Exceeds options) :
    v.killReasonFor json options =
      if options.healthCheckDue v.sinceCheck then
        healthCheckBrowserWs json v.endpoint healthCheckWait >>= fun result =>
          return healthReason result
      else return none := by
  rw [exceeds_iff] at h
  simp only [not_or, Option.not_isSome_iff_eq_none] at h
  obtain ⟨hlifetime, hidle, hsample⟩ := h
  simp only [killReasonFor, hlifetime, hidle, hsample]

/-- Above them, it gives a reason at once. -/
theorem Visit.killReasonFor_of_exceeds (h : v.Exceeds options) :
    ∃ reason, v.killReasonFor json options = return some reason := by
  unfold killReasonFor
  cases hlifetime : options.lifetimeReason v.age with
  | some reason => exact ⟨reason, rfl⟩
  | none =>
    cases hidle : options.idleReason v.stateAgain v.idleFor with
    | some reason => exact ⟨reason, rfl⟩
    | none =>
      cases hsample : options.sampleReason v.sample with
      | some reason => exact ⟨reason, rfl⟩
      | none => simp [exceeds_iff, hlifetime, hidle, hsample] at h

/-- `terminate_session` is always ready. -/
theorem Visit.terminateSession_value : (v.terminateSession json).value = some v.inMap := by
  unfold terminateSession
  cases v.inMap with
  | false => rfl
  | true =>
    have hentry : (v.shutdownEntry json).value = some () := by
      unfold shutdownEntry
      cases v.browser with
      | none => rfl
      | some browser =>
        have hready := (browser.shutdown_ready json).1
        rw [ne_eq, ← Future.value_eq_none] at hready
        cases hvalue : (browser.shutdown json).value with
        | none => exact absurd hvalue hready
        | some kind => simp [hvalue]
    simp [hentry]

/-- What a visit comes to, once `kill_reason_for` has. -/
theorem Visit.decide_value : (v.decide json options).value =
    if v.state = .killing ∨ v.state = .dead then some .skipped
    else (v.killReasonFor json options).value.map fun
      | none => .kept
      | some reason => v.ended reason := by
  unfold decide
  split
  · rfl
  · rw [Future.value_bind]
    cases (v.killReasonFor json options).value with
    | none => rfl
    | some reason =>
      cases reason with
      | none => rfl
      | some reason => simp [terminateSession_value, ended]

/-- **A visit is never ready** exactly when it makes a health check of an endpoint whose handshake
never ends. -/
theorem Visit.decide_never : v.decide json options = .never ↔
    v.Probed options ∧ v.endpoint.connect = .never := by
  rw [← Future.value_eq_none, decide_value]
  by_cases hstate : v.state = .killing ∨ v.state = .dead
  · simp [hstate, Probed]
  · rw [if_neg hstate, Option.map_eq_none_iff]
    by_cases hexceeds : v.Exceeds options
    · obtain ⟨reason, hreason⟩ : ∃ reason, v.killReasonFor json options = return some reason :=
        killReasonFor_of_exceeds hexceeds
      simp [hreason, hexceeds, Probed]
    · rw [killReasonFor_of_not_exceeds hexceeds]
      cases hdue : options.healthCheckDue v.sinceCheck with
      | false => simp [Probed, hdue]
      | true =>
        have hcheck : (healthCheckBrowserWs json v.endpoint healthCheckWait).value = none ↔
            v.endpoint.connect = .never :=
          Future.value_eq_none.trans healthCheckBrowserWs_never
        rw [if_pos rfl, Future.value_bind, ← hcheck]
        cases (healthCheckBrowserWs json v.endpoint healthCheckWait).value <;>
          simp [Probed, hdue, hstate, hexceeds]

/-- **A visit that is ready decides rightly.** -/
theorem Visit.decide_right {d : Decision} (h : (v.decide json options).value = some d) :
    v.Right json options d := by
  rw [decide_value] at h
  unfold Right
  by_cases hstate : v.state = .killing ∨ v.state = .dead
  · rw [if_pos hstate] at h ⊢
    exact (Option.some.inj h).symm
  · rw [if_neg hstate] at h ⊢
    by_cases hexceeds : v.Exceeds options
    · obtain ⟨reason, hreason⟩ : ∃ reason, v.killReasonFor json options = return some reason :=
        killReasonFor_of_exceeds hexceeds
      rw [hreason] at h
      exact .inl ⟨hexceeds, reason, (Option.some.inj h).symm⟩
    · refine .inr ⟨hexceeds, ?_⟩
      rw [killReasonFor_of_not_exceeds hexceeds] at h
      cases hdue : options.healthCheckDue v.sinceCheck with
      | false =>
        rw [hdue] at h
        exact .inr ⟨fun hdue => absurd hdue Bool.false_ne_true, (Option.some.inj h).symm⟩
      | true =>
        rw [hdue, if_pos rfl, Future.value_bind] at h
        cases hconnect : v.endpoint.connect with
        | never =>
          have hnever : (healthCheckBrowserWs json v.endpoint healthCheckWait).value = none :=
            Future.value_eq_none.2 (healthCheckBrowserWs_never.2 hconnect)
          rw [hnever] at h
          cases h
        | ready t connected =>
          obtain ⟨result, hresult, hok⟩ : ∃ result,
              (healthCheckBrowserWs json v.endpoint healthCheckWait).value = some result ∧
                (result = .ok () ↔ v.endpoint.Answers json healthCheckWait) :=
            healthCheckBrowserWs_ok hconnect
          rw [hresult] at h
          cases result with
          | error error =>
            have hno : ¬ v.endpoint.Answers json healthCheckWait := fun hanswers => by
              cases hok.2 hanswers
            exact .inl ⟨rfl, hno, error, (Option.some.inj h).symm⟩
          | ok u => exact .inr ⟨fun _ => hok.1 rfl, (Option.some.inj h).symm⟩

/-- **Maintenance isolation.** A pass decides every entry, and rightly, exactly when it makes no
health check of an endpoint whose handshake never ends. -/
theorem pass_isolated (json : Codec) (options : PoolOptions) (visits : List Visit) :
    List.Forall₂ (Visit.Right json options) visits (maintenancePass json options visits) ↔
      ∀ v ∈ visits, v.Probed options → v.endpoint.connect ≠ .never := by
  unfold maintenancePass
  constructor
  · intro h v hv hprobed hnever
    have hall : List.Forall₂ (fun _ _ => True) (visits.map (·.decide json options))
        (Future.inTurn (visits.map (·.decide json options))) :=
      List.forall₂_map_left_iff.2 (h.imp fun _ _ _ => trivial)
    refine Future.forall_of_forall₂_inTurn hall _ (List.mem_map_of_mem hv) ?_
    exact Visit.decide_never.2 ⟨hprobed, hnever⟩
  · intro h
    have hready : ∀ f ∈ visits.map (·.decide json options), f ≠ .never := by
      intro f hf
      obtain ⟨v, hv, rfl⟩ := List.mem_map.1 hf
      intro hnever
      obtain ⟨hprobed, hconnect⟩ := Visit.decide_never.1 hnever
      exact h v hv hprobed hconnect
    have hvalues := List.forall₂_map_left_iff.1 (Future.forall₂_inTurn.2 hready)
    exact hvalues.imp fun _ _ hv => Visit.decide_right hv

end

/-! ## A handshake that never ends -/

/-- A codec for endpoints that send nothing. -/
def silentCodec : Codec :=
  { fromStr := fun _ => .error "EOF while parsing a value at line 1 column 0"
    toString := fun _ => "null" }

/-- An endpoint that accepts the connection and never completes the handshake. -/
def hungEndpoint : Endpoint :=
  { connect := .never, send := (0, .ok ()), incoming := [], closed := .never, close := 0 }

/-- A ready session within its limits whose health check is due and whose endpoint hangs. -/
def hungVisit : Visit :=
  { id := 0, state := .ready, age := .fromSecs 60, stateAgain := .ready, idleFor := .fromSecs 60,
    sample := some { pid := 0, rssBytes := 0, processCount := 1 }, sinceCheck := .fromSecs 60,
    endpoint := hungEndpoint, inMap := true, browser := none }

/-- A session beyond its lifetime. -/
def agedVisit : Visit :=
  { hungVisit with id := 1, age := .fromSecs 3600 }

/-- **A pass can get stuck.** After a session whose endpoint hangs, the pass gets to no other:
neither is the hung one recycled, nor the one after it, which is beyond its lifetime. -/
theorem pass_stuck :
    agedVisit.Exceeds (examplePool 1).options ∧
    maintenancePass silentCodec (examplePool 1).options [hungVisit, agedVisit] = [] ∧
    ¬ List.Forall₂ (Visit.Right silentCodec (examplePool 1).options) [hungVisit, agedVisit]
      (maintenancePass silentCodec (examplePool 1).options [hungVisit, agedVisit]) := by
  have hstuck :
      maintenancePass silentCodec (examplePool 1).options [hungVisit, agedVisit] = [] := by decide
  refine ⟨.inl (by decide), hstuck, fun h => ?_⟩
  rw [hstuck] at h
  cases h

/-! ## The pass of the system -/

/-- The task after a pass has decided an entry. -/
def Decision.task (id : Uuid) (rest : List Uuid) : Decision → Task
  | .skipped => .passing (.keeping id rest)
  | .kept => .passing (.keeping id rest)
  | .terminated reason => .terminating (.pass rest) id reason .removing
  | .gone reason => .terminating (.pass rest) id reason .removing

/-- The error a visit's health check ends in, if any. -/
def Visit.probe (json : Codec) (v : Visit) : Option BrowserError :=
  match (healthCheckBrowserWs json v.endpoint healthCheckWait).value with
  | some (.error error) => some error
  | _ => none

/-- What a visit finds, in the order in which the pass looks. -/
def Visit.readings (json : Codec) (v : Visit) : List Choice :=
  [.state v.state, .elapse v.age, .state v.stateAgain, .elapse v.idleFor, .sample v.sample,
   .elapse v.sinceCheck, .probe (v.probe json)]

/-- A task after several of its steps. -/
def Task.follow (pool : SessionPool) (t : Task) (choices : List Choice) : Option Task :=
  choices.foldlM (fun t choice => (t.perform pool choice).map (·.2)) t

/-- A session that a visit ends is terminated by the pass. -/
theorem Visit.ended_task (v : Visit) (reason : String) (rest : List Uuid) :
    (v.ended reason).task v.id rest = .terminating (.pass rest) v.id reason .removing := by
  unfold ended
  split <;> rfl

section

variable {pool : SessionPool} {id : Uuid} {rest : List Uuid} {choices : List Choice}

/-- A pass looks closer at an entry that is not being shut down. -/
theorem follow_visiting {state : SessionState} (h : ¬ (state = .killing ∨ state = .dead)) :
    Task.follow pool (.passing (.visiting (id :: rest))) (.state state :: choices)
      = Task.follow pool (.passing (.aging id rest)) choices := by
  rw [Task.follow, List.foldlM_cons, Task.perform, Task.performPass, if_neg h]
  rfl

/-- The entry's age comes first. -/
theorem follow_aging {age : Duration} :
    Task.follow pool (.passing (.aging id rest)) (.elapse age :: choices) =
      Task.follow pool
        (.decide id rest (.stating id rest) (pool.options.lifetimeReason age)) choices := rfl

/-- Then its state is read again, -/
theorem follow_stating {state : SessionState} :
    Task.follow pool (.passing (.stating id rest)) (.state state :: choices)
      = Task.follow pool (.passing (.idling id rest state)) choices := rfl

/-- and it decides whether the idle time counts. -/
theorem follow_idling {state : SessionState} {idleFor : Duration} :
    Task.follow pool (.passing (.idling id rest state)) (.elapse idleFor :: choices) =
      Task.follow pool
        (.decide id rest (.sampling id rest) (pool.options.idleReason state idleFor)) choices := rfl

/-- Then the process, -/
theorem follow_sampling {sample : Option ProcessSample} :
    Task.follow pool (.passing (.sampling id rest)) (.sample sample :: choices) =
      Task.follow pool
        (.decide id rest (.checking id rest) (pool.options.sampleReason sample)) choices := rfl

/-- and whether a health check is due. -/
theorem follow_checking {sinceCheck : Duration} {due : Bool}
    (h : pool.options.healthCheckDue sinceCheck = due) :
    Task.follow pool (.passing (.checking id rest)) (.elapse sinceCheck :: choices) =
      Task.follow pool (.passing (if due then .probing id rest else .keeping id rest)) choices := by
  rw [← h]
  rfl

/-- The health check's error comes last. -/
theorem follow_probing {error : Option BrowserError} :
    Task.follow pool (.passing (.probing id rest)) (.probe error :: choices) =
      Task.follow pool (.decide id rest (.keeping id rest)
        (healthReason (Task.probeResult error))) choices := rfl

end

/-- **The pass of the system decides as the visit does**: at the same readings, as far as it looks.
-/
theorem performPass_visit {json : Codec} {pool : SessionPool} {v : Visit} {d : Decision}
    (rest : List Uuid) (h : (v.decide json pool.options).value = some d) :
    ∃ n, Task.follow pool (.passing (.visiting (v.id :: rest))) ((v.readings json).take n)
      = some (d.task v.id rest) := by
  rw [Visit.decide_value] at h
  by_cases hstate : v.state = .killing ∨ v.state = .dead
  · rw [if_pos hstate] at h
    cases h
    refine ⟨1, ?_⟩
    change Task.follow pool _ [.state v.state] = _
    rw [Task.follow, List.foldlM_cons, Task.perform, Task.performPass, if_pos hstate]
    rfl
  · rw [if_neg hstate] at h
    -- each check that finds a reason ends the visit, after the readings it took
    unfold Visit.killReasonFor at h
    cases hlifetime : pool.options.lifetimeReason v.age with
    | some reason =>
      simp only [hlifetime] at h
      cases h
      refine ⟨2, ?_⟩
      change Task.follow pool _ [.state v.state, .elapse v.age] = _
      rw [follow_visiting hstate, follow_aging, hlifetime, Visit.ended_task]
      rfl
    | none =>
      cases hidle : pool.options.idleReason v.stateAgain v.idleFor with
      | some reason =>
        simp only [hlifetime, hidle] at h
        cases h
        refine ⟨4, ?_⟩
        change Task.follow pool _
          [.state v.state, .elapse v.age, .state v.stateAgain, .elapse v.idleFor] = _
        rw [follow_visiting hstate, follow_aging, hlifetime, Task.decide, follow_stating,
          follow_idling, hidle, Visit.ended_task]
        rfl
      | none =>
        have hsampling : ∀ choices, Task.follow pool (.passing (.visiting (v.id :: rest)))
              (.state v.state :: .elapse v.age :: .state v.stateAgain :: .elapse v.idleFor
                :: .sample v.sample :: choices)
            = Task.follow pool (Task.decide v.id rest (.checking v.id rest)
                (pool.options.sampleReason v.sample)) choices := by
          intro choices
          rw [follow_visiting hstate, follow_aging, hlifetime, Task.decide, follow_stating,
            follow_idling, hidle, Task.decide, follow_sampling]
        cases hsample : pool.options.sampleReason v.sample with
        | some reason =>
          simp only [hlifetime, hidle, hsample] at h
          cases h
          refine ⟨5, (hsampling []).trans ?_⟩
          rw [hsample, Visit.ended_task]
          rfl
        | none =>
          rw [hsample, Task.decide] at hsampling
          cases hdue : pool.options.healthCheckDue v.sinceCheck with
          | false =>
            simp only [hlifetime, hidle, hsample, hdue] at h
            cases h
            refine ⟨6, (hsampling [.elapse v.sinceCheck]).trans ?_⟩
            rw [follow_checking hdue]
            rfl
          | true =>
            simp only [hlifetime, hidle, hsample, hdue, if_true, Future.value_bind] at h
            refine ⟨7, (hsampling [.elapse v.sinceCheck, .probe (v.probe json)]).trans ?_⟩
            rw [follow_checking hdue, if_pos rfl, follow_probing, Visit.probe]
            cases hcheck : (healthCheckBrowserWs json v.endpoint healthCheckWait).value with
            | none =>
              rw [hcheck] at h
              cases h
            | some result =>
              rw [hcheck] at h
              cases result with
              | error error =>
                cases h
                exact congrArg some (v.ended_task _ rest).symm
              | ok u =>
                cases h
                rfl

end Eiger
