import Eiger.Config.Env
import Eiger.Pool.Types

/-!
# Starting the server

What `main` builds from the configuration before it listens: the pool with its semaphore, the task
that does a maintenance pass at each tick, and the layers around the routes. The libraries have
demands of their own on what they are given. Where one of them is not met, some of these calls
report an error and some panic; the maintenance task panics by itself, and the server then runs
without it.

`runnable_iff` says from which environments the server runs.
-/

namespace Eiger

open Text

/-! ## The pool and its maintenance -/

/-- `Semaphore::MAX_PERMITS`. -/
def maxPermits : Nat := (2 ^ 64 - 1) >>> 3

/-- `Semaphore::new`. -/
def semaphoreNew (permits : Nat) : Outcome Empty Nat :=
  if permits ≤ maxPermits then .ok permits else .panicked

/-- `SessionPool::from_config`: the semaphore's permits, and the pool's fixed fields. -/
def SessionPool.withSemaphore (config : AppConfig) : Outcome Empty (Nat × SessionPool) := do
  let permits ← semaphoreNew config.pool.maxConcurrentSessions
  return (permits, .fromConfig config)

/-- `tokio::time::interval`: how long after its start each tick is due, the first one at once. -/
def interval (period : Duration) : Outcome Empty (Nat → Duration) :=
  if period = 0 then .panicked else .ok (· * period)

/-- The task of `spawn_maintenance`: how long after its start each pass is due. -/
def SessionPool.spawnMaintenance (pool : SessionPool) : Outcome Empty (Nat → Duration) :=
  interval pool.options.maintenanceInterval

/-! ## The layers -/

/-- `GovernorConfig`: one request is let through for each period, and a burst of them at once. -/
structure GovernorConfig where
  period : Duration
  burstSize : Nat
  deriving DecidableEq, Repr

/-- `GovernorConfigBuilder::finish`. -/
def GovernorConfig.finish (period : Duration) (burstSize : Nat) : Option GovernorConfig :=
  if period = 0 ∨ burstSize = 0 then none else some { period, burstSize }

/-- `rate_limit_period`. The division panics at zero. -/
def rateLimitPeriod (requestsPerSecond : Nat) : Outcome String Duration :=
  if requestsPerSecond = 0 then .panicked
  else .ok (max (1000000000 / requestsPerSecond) 1)

/-- A layer of the router. -/
inductive Layer where
  | peerIpRateLimit (config : GovernorConfig)
  | tokenRateLimit (config : GovernorConfig)
  | cors (origins : List String)
  | requestBodyLimit (bytes : Nat)
  | trace
  deriving DecidableEq, Repr

/-- What is built and finished for either layer of the rate limit. -/
def governorConfig (config : ServerConfig) : Outcome String GovernorConfig := do
  let period ← rateLimitPeriod config.rateLimit.requestsPerSecond
  match GovernorConfig.finish period config.rateLimit.burst with
  | some governor => return governor
  | none => .error "invalid rate limit config"

/-- `add_rate_limit_layers`. The innermost layer is first. -/
def addRateLimitLayers (app : List Layer) (config : ServerConfig) :
    Outcome String (List Layer) := do
  let peerIpConfig ← governorConfig config
  let app := app ++ [.peerIpRateLimit peerIpConfig]
  match config.token with
  | some _ =>
    let tokenConfig ← governorConfig config
    return app ++ [.tokenRateLimit tokenConfig]
  | none => return app

/-- `HeaderValue::from_str` for each origin. The first that is not valid is reported. -/
def headerValues (valid : String → Bool) : List String → Outcome String (List String)
  | [] => .ok []
  | origin :: origins =>
    if valid origin then do
      let values ← headerValues valid origins
      return origin :: values
    else .error ("invalid EIGER_CORS_ORIGINS origin: " ++ origin)

/-- `cors_layer`. A list of origins must not have the wildcard. -/
def corsLayer (valid : String → Bool) (config : ServerConfig) : Outcome String Layer := do
  let origins ← headerValues valid config.http.corsOrigins
  if "*" ∈ origins then .panicked else return .cors origins

/-- The routes' layers: those of the API alone, and those of the whole server. -/
structure Layers where
  api : List Layer
  app : List Layer
  deriving DecidableEq, Repr

/-- `server_layers`. -/
def serverLayers (valid : String → Bool) (config : ServerConfig) : Outcome String Layers := do
  let api ← addRateLimitLayers [] config
  let outer := [.requestBodyLimit config.http.requestBodyLimitBytes, .trace]
  if config.http.corsOrigins = [] then return { api, app := outer }
  else
    let cors ← corsLayer valid config
    return { api, app := cors :: outer }

/-! ## Configurations that run -/

/-- The pool is built, a pass is due after any time, and the layers are built or an error says why
they are not. -/
structure Runnable (valid : String → Bool) (config : ServerConfig) : Prop where
  pool : SessionPool.withSemaphore config.toAppConfig ≠ .panicked
  maintenance : ∃ passes,
    (SessionPool.fromConfig config.toAppConfig).spawnMaintenance = .ok passes ∧
      ∀ elapsed, ∃ n, elapsed ≤ passes n
  layers : serverLayers valid config ≠ .panicked

/-- The environment sets a variable to such a number. -/
def Sets (env : Env) (name : String) (p : Nat → Prop) : Prop :=
  ∃ value, (env name).bind parseU64 = some value ∧ p value

/-- The environment has a maintenance interval of zero, more sessions than a semaphore has permits,
or the wildcard among origins that are all valid. -/
def Unworkable (valid : String → Bool) (env : Env) : Prop :=
  Sets env "EIGER_MAINTENANCE_INTERVAL_SECS" (· = 0) ∨
    Sets env "EIGER_MAX_CONCURRENT_SESSIONS" (maxPermits < ·) ∨
    ("*" ∈ commaSeparatedEnv env "EIGER_CORS_ORIGINS" ∧
      ∀ origin ∈ commaSeparatedEnv env "EIGER_CORS_ORIGINS", valid origin = true)

section

variable {valid : String → Bool} {config : ServerConfig}

/-- A semaphore panics above its permits. -/
theorem semaphoreNew_eq_panicked_iff {permits : Nat} :
    semaphoreNew permits = .panicked ↔ maxPermits < permits := by
  rw [semaphoreNew]
  split <;> simp <;> omega

/-- The pool is built where its semaphore is. -/
theorem withSemaphore_eq_panicked_iff (config : AppConfig) :
    SessionPool.withSemaphore config = .panicked ↔
      maxPermits < config.pool.maxConcurrentSessions := by
  rw [SessionPool.withSemaphore, Outcome.bind_eq_panicked_iff, semaphoreNew_eq_panicked_iff]
  simp

/-- The maintenance goes on for ever, if and only if its interval is not zero. -/
theorem maintenance_live_iff {pool : SessionPool} :
    (∃ passes, pool.spawnMaintenance = .ok passes ∧ ∀ elapsed, ∃ n, elapsed ≤ passes n) ↔
      pool.options.maintenanceInterval ≠ 0 := by
  rw [SessionPool.spawnMaintenance, interval]
  constructor
  · rintro ⟨passes, hpasses, -⟩ hzero
    rw [if_pos hzero] at hpasses
    cases hpasses
  · intro hne
    refine ⟨_, if_neg hne, fun elapsed => ⟨elapsed, ?_⟩⟩
    exact Nat.le_mul_of_pos_right elapsed (Nat.pos_of_ne_zero hne)

/-- A rate limit that is positive is accepted. -/
theorem governorConfig_of_pos (hrps : 0 < config.rateLimit.requestsPerSecond)
    (hburst : 0 < config.rateLimit.burst) : ∃ governor, governorConfig config = .ok governor := by
  have hperiod : max (1000000000 / config.rateLimit.requestsPerSecond) 1 ≠ 0 := by omega
  rw [governorConfig, rateLimitPeriod, if_neg (Nat.ne_of_gt hrps), Outcome.ok_bind,
    GovernorConfig.finish, if_neg (not_or.2 ⟨hperiod, Nat.ne_of_gt hburst⟩)]
  exact ⟨_, rfl⟩

/-- So the layers of the rate limit are added. -/
theorem addRateLimitLayers_of_pos (hrps : 0 < config.rateLimit.requestsPerSecond)
    (hburst : 0 < config.rateLimit.burst) (app : List Layer) :
    ∃ layers, addRateLimitLayers app config = .ok layers := by
  obtain ⟨governor, hgovernor⟩ := governorConfig_of_pos hrps hburst
  rw [addRateLimitLayers, hgovernor, Outcome.ok_bind]
  cases config.token with
  | none => exact ⟨_, rfl⟩
  | some token => exact ⟨_, rfl⟩

/-- The origins are header values, or one of them is reported. -/
theorem headerValues_cases (valid : String → Bool) (origins : List String) :
    ((∀ origin ∈ origins, valid origin = true) ∧ headerValues valid origins = .ok origins) ∨
      ∃ origin ∈ origins, valid origin = false ∧ headerValues valid origins =
        .error ("invalid EIGER_CORS_ORIGINS origin: " ++ origin) := by
  induction origins with
  | nil => exact .inl ⟨nofun, rfl⟩
  | cons origin origins ih =>
    rw [headerValues]
    cases hvalid : valid origin with
    | false => exact .inr ⟨origin, List.mem_cons_self, hvalid, rfl⟩
    | true =>
      obtain ⟨hall, hok⟩ | ⟨bad, hmem, hbad, herror⟩ := ih
      · rw [hok]
        exact .inl ⟨List.forall_mem_cons.2 ⟨hvalid, hall⟩, rfl⟩
      · rw [herror]
        exact .inr ⟨bad, List.mem_cons_of_mem _ hmem, hbad, rfl⟩

/-- The wildcard makes the origins' layer panic, if no origin is reported before. -/
theorem corsLayer_eq_panicked_iff :
    corsLayer valid config = .panicked ↔
      "*" ∈ config.http.corsOrigins ∧ ∀ origin ∈ config.http.corsOrigins, valid origin = true := by
  rw [corsLayer]
  obtain ⟨hall, hok⟩ | ⟨bad, hmem, hbad, herror⟩ := headerValues_cases valid config.http.corsOrigins
  · rw [hok, Outcome.ok_bind]
    split
    · next hwildcard => exact iff_of_true rfl ⟨hwildcard, hall⟩
    · next hwildcard => exact iff_of_false nofun fun h => hwildcard h.1
  · rw [herror, Outcome.error_bind]
    refine iff_of_false nofun fun h => ?_
    rw [h.2 bad hmem] at hbad
    cases hbad

/-- With a positive rate limit, the layers panic where the origins' one does. -/
theorem serverLayers_eq_panicked_iff (hrps : 0 < config.rateLimit.requestsPerSecond)
    (hburst : 0 < config.rateLimit.burst) :
    serverLayers valid config = .panicked ↔
      "*" ∈ config.http.corsOrigins ∧ ∀ origin ∈ config.http.corsOrigins, valid origin = true := by
  obtain ⟨api, hapi⟩ := addRateLimitLayers_of_pos hrps hburst []
  rw [serverLayers, hapi, Outcome.ok_bind, ← corsLayer_eq_panicked_iff]
  split
  · next hnone =>
    refine iff_of_false nofun ?_
    rw [corsLayer_eq_panicked_iff, hnone]
    exact fun h => nomatch h.1
  · simp [Outcome.bind_eq_panicked_iff]

/-- A number is read of a variable or of its default. Where the default is not such a number, the
environment sets the variable to such a one just if one is read. -/
theorem sets_iff {env : Env} {name default : String} {p : Nat → Prop} {value preset : Nat}
    (hvalue : parseU64 ((env name).getD default) = some value)
    (hdefault : parseU64 default = some preset) (hp : ¬ p preset) : Sets env name p ↔ p value := by
  rw [Sets]
  cases hname : env name with
  | none =>
    rw [hname, Option.getD_none, hdefault] at hvalue
    cases hvalue
    exact iff_of_false nofun hp
  | some text =>
    rw [hname, Option.getD_some] at hvalue
    rw [Option.bind_some, hvalue]
    constructor
    · rintro ⟨_, hsome, h⟩
      cases hsome
      exact h
    · exact fun h => ⟨value, rfl, h⟩

/-- **Accepted configurations run**, but for what `Unworkable` says: `from_env` rejects a rate limit
of zero and a body limit of zero, and no other zero, no number of sessions and no origin. -/
theorem runnable_iff {parseSocketAddr : String → Option String} {overflowChecks : Bool} {env : Env}
    (h : fromEnv parseSocketAddr overflowChecks env = .ok config) :
    Runnable valid config ↔ ¬ Unworkable valid env := by
  obtain ⟨hsessions, ⟨secs, hsecs, hinterval⟩, horigins, hrps, hburst, -⟩ := fromEnv_ok h
  have hpool := sets_iff hsessions (parseUnsigned_repr (by decide))
    (show ¬ maxPermits < 4 by decide)
  have hmaintenance := sets_iff (p := (· = 0)) hsecs (parseUnsigned_repr (by decide)) (by decide)
  have hzero : secs = 0 ↔ config.pool.maintenanceInterval = 0 := by
    rw [← hinterval]
    show secs = 0 ↔ secs * 1000000000 = 0
    omega
  rw [Unworkable, hpool, hmaintenance, hzero, ← horigins,
    ← serverLayers_eq_panicked_iff hrps hburst,
    ← withSemaphore_eq_panicked_iff config.toAppConfig, not_or, not_or]
  constructor
  · rintro ⟨hpool, hlive, hlayers⟩
    exact ⟨maintenance_live_iff.1 hlive, hpool, hlayers⟩
  · rintro ⟨hne, hpool, hlayers⟩
    exact ⟨hpool, maintenance_live_iff.2 hne, hlayers⟩

end

/-- `SocketAddr::from_str`, as far as the default address. -/
def parseDefaultAddr (addr : String) : Option String :=
  if addr = "0.0.0.0:3000" then some addr else none

/-- The server runs from an environment that sets nothing. -/
theorem runnable_default : ∃ config,
    fromEnv parseDefaultAddr true (fun _ => none) = .ok config ∧
      Runnable (fun _ => true) config := by
  have hconfig := @fromEnv_default parseDefaultAddr true "0.0.0.0:3000" rfl
  refine ⟨_, hconfig, (runnable_iff hconfig).2 ?_⟩
  rintro (⟨_, hnone, -⟩ | ⟨_, hnone, -⟩ | ⟨hmem, -⟩)
  · cases hnone
  · cases hnone
  · exact absurd hmem (by decide)

/-- An environment that sets a maintenance interval of zero. -/
def zeroInterval : Env
  | "EIGER_MAINTENANCE_INTERVAL_SECS" => some "0"
  | _ => none

/-- A maintenance interval of zero is accepted, and no maintenance is done. -/
theorem zero_interval_not_runnable : ∃ config,
    fromEnv parseDefaultAddr true zeroInterval = .ok config ∧
      ¬ Runnable (fun _ => true) config := by
  refine ⟨{ AppConfig.default with
    pool := { AppConfig.default.pool with maintenanceInterval := 0 }
    bindAddr := "0.0.0.0:3000"
    token := none
    http := { corsOrigins := [], requestBodyLimitBytes := 64 * 1024 }
    rateLimit := { requestsPerSecond := 10, burst := 20 } }, ?_, ?_⟩
  · decide
  · rintro ⟨-, ⟨passes, hpasses, -⟩, -⟩
    cases hpasses

end Eiger
