import Mathlib.Algebra.GroupWithZero.Nat
import Eiger.Config.Types
import Eiger.Lib.Outcome
import Eiger.Lib.Text

/-!
# The environment

`AppConfig::from_env` reads the configuration from environment variables, each by a parser with a
default. It returns the first error there is. Some of the parsers reject zero, most do not.

The size of a session's memory limit is computed from megabytes: where that overflows, the program
panics or wraps, as it was compiled.
-/

namespace Eiger

open Text

/-- The environment: the value of a variable, if it has one and this is Unicode. -/
abbrev Env := String → Option String

/-- `ConfigError`. -/
inductive ConfigError where
  | invalidValue (name value : String)
  deriving DecidableEq, Repr

/-- `ConfigError`'s `Display`. -/
def ConfigError.text : ConfigError → String
  | .invalidValue name value => "invalid value for " ++ name ++ ": " ++ value

/-- `HttpConfig`. -/
structure HttpConfig where
  corsOrigins : List String
  requestBodyLimitBytes : Nat
  deriving DecidableEq, Repr

/-- `RateLimitConfig`. -/
structure RateLimitConfig where
  requestsPerSecond : Nat
  burst : Nat
  deriving DecidableEq, Repr

/-- `AppConfig`, with the parts only the server reads. A `SocketAddr` is its text. -/
structure ServerConfig extends AppConfig where
  bindAddr : String
  token : Option String
  http : HttpConfig
  rateLimit : RateLimitConfig
  deriving DecidableEq, Repr

/-! ## The parsers -/

/-- `optional_env`. -/
def optionalEnv (env : Env) (name : String) : Option String := (env name).filter (!isBlank ·)

/-- `comma_separated_env`. -/
def commaSeparatedEnv (env : Env) (name : String) : List String :=
  ((optionalEnv env name).map commaSeparated).getD []

/-- `parse_env`. -/
def parseEnv {α : Type} (env : Env) (parse : String → Option α) (name default : String) :
    Outcome ConfigError α :=
  let value := (env name).getD default
  match parse value with
  | some parsed => .ok parsed
  | none => .error (.invalidValue name value)

/-- `u64::from_str`, and `usize::from_str` on a machine of 64 bits. -/
def parseU64 : String → Option Nat := parseUnsigned (2 ^ 64)

/-- `u32::from_str`. -/
def parseU32 : String → Option Nat := parseUnsigned (2 ^ 32)

/-- `bool::from_str`. -/
def parseBool : String → Option Bool
  | "true" => some true
  | "false" => some false
  | _ => none

/-- `seconds_env`. -/
def secondsEnv (env : Env) (name : String) (default : Nat) : Outcome ConfigError Duration := do
  let secs ← parseEnv env parseU64 name (Nat.repr default)
  return .fromSecs secs

/-- `mb_env`. -/
def mbEnv (env : Env) (name : String) (default : Nat) : Outcome ConfigError Nat :=
  parseEnv env parseU64 name (Nat.repr default)

/-- The parsers that reject zero. -/
def positiveEnv (parse : String → Option Nat) (env : Env) (name : String) (default : Nat) :
    Outcome ConfigError Nat := do
  let value ← parseEnv env parse name (Nat.repr default)
  if value = 0 then .error (.invalidValue name (Nat.repr value)) else return value

/-- `positive_u32_env`. -/
def positiveU32Env : Env → String → Nat → Outcome ConfigError Nat := positiveEnv parseU32

/-- `positive_usize_env`. -/
def positiveUsizeEnv : Env → String → Nat → Outcome ConfigError Nat := positiveEnv parseU64

/-- The product of two `u64`s, where overflow is checked or not. -/
def mulU64 (overflowChecks : Bool) (a b : Nat) : Outcome ConfigError Nat :=
  .unsigned overflowChecks (2 ^ 64) (a * b)

/-- `AppConfig::from_env`, with `SocketAddr::from_str`. -/
def fromEnv (parseSocketAddr : String → Option String) (overflowChecks : Bool) (env : Env) :
    Outcome ConfigError ServerConfig := do
  let bindAddr ← parseEnv env parseSocketAddr "EIGER_BIND_ADDR" "0.0.0.0:3000"
  let token := optionalEnv env "EIGER_TOKEN"
  let corsOrigins := commaSeparatedEnv env "EIGER_CORS_ORIGINS"
  let requestBodyLimitBytes ←
    positiveUsizeEnv env "EIGER_REQUEST_BODY_LIMIT_BYTES" (64 * 1024)
  let rateLimitRps ← positiveU32Env env "EIGER_RATE_LIMIT_RPS" 10
  let rateLimitBurst ← positiveU32Env env "EIGER_RATE_LIMIT_BURST" 20
  let executable := optionalEnv env "EIGER_CHROME_EXECUTABLE"
  let noSandbox ← parseEnv env parseBool "EIGER_CHROME_NO_SANDBOX" "true"
  let launchTimeout ← secondsEnv env "EIGER_BROWSER_LAUNCH_TIMEOUT_SECS" 10
  let closeTimeout ← secondsEnv env "EIGER_BROWSER_CLOSE_TIMEOUT_SECS" 3
  let terminateTimeout ← secondsEnv env "EIGER_BROWSER_TERMINATE_TIMEOUT_SECS" 2
  let additionalArgs := ((optionalEnv env "EIGER_CHROME_ARGS").map splitWhitespace).getD []
  let userAgent := optionalEnv env "EIGER_USER_AGENT"
  let profileStorageDir := optionalEnv env "EIGER_PROFILE_STORAGE_DIR"
  let maxConcurrentSessions ← parseEnv env parseU64 "EIGER_MAX_CONCURRENT_SESSIONS" (Nat.repr 4)
  let launchQueueTimeout ← secondsEnv env "EIGER_LAUNCH_QUEUE_TIMEOUT_SECS" 15
  let maxSessionLifetime ← secondsEnv env "EIGER_MAX_SESSION_LIFETIME_SECS" (30 * 60)
  let maxIdleTime ← secondsEnv env "EIGER_MAX_IDLE_TIME_SECS" (5 * 60)
  let perSessionRssLimitKb ←
    mulU64 overflowChecks (← mbEnv env "EIGER_PER_SESSION_RSS_LIMIT_MB" 1536) 1024
  let perSessionRssLimitBytes ← mulU64 overflowChecks perSessionRssLimitKb 1024
  let maintenanceInterval ← secondsEnv env "EIGER_MAINTENANCE_INTERVAL_SECS" 5
  let cdpHealthInterval ← secondsEnv env "EIGER_CDP_HEALTH_INTERVAL_SECS" 30
  let stealthEnabled ← parseEnv env parseBool "EIGER_STEALTH_ENABLED" "true"
  return {
    bindAddr
    token
    http := { corsOrigins, requestBodyLimitBytes }
    rateLimit := { requestsPerSecond := rateLimitRps, burst := rateLimitBurst }
    browser :=
      { executable, noSandbox, launchTimeout, closeTimeout, terminateTimeout, additionalArgs,
        userAgent, profileStorageDir }
    pool :=
      { maxConcurrentSessions, launchQueueTimeout, maxSessionLifetime, maxIdleTime,
        perSessionRssLimitBytes, maintenanceInterval, cdpHealthInterval }
    stealth := { enabled := stealthEnabled } }

/-! ## What is read -/

section

variable {env : Env} {name default : String}

/-- What `parse_env` reads is the variable, or the default, parsed. -/
theorem parseEnv_ok_iff {α : Type} {parse : String → Option α} {value : α} :
    parseEnv env parse name default = .ok value ↔
      parse ((env name).getD default) = some value := by
  rw [parseEnv]
  cases parse ((env name).getD default) <;> simp

/-- What `seconds_env` reads is a number of seconds. -/
theorem secondsEnv_ok_iff {n : Nat} {value : Duration} :
    secondsEnv env name n = .ok value ↔
      ∃ secs, parseU64 ((env name).getD (Nat.repr n)) = some secs ∧
        Duration.fromSecs secs = value := by
  rw [secondsEnv, Outcome.bind_eq_ok_iff]
  simp [parseEnv_ok_iff]

/-- What a parser reads that rejects zero is positive. -/
theorem pos_of_positiveEnv {parse : String → Option Nat} {n value : Nat}
    (h : positiveEnv parse env name n = .ok value) : 0 < value := by
  obtain ⟨read, -, hread⟩ := Outcome.bind_eq_ok_iff.1 h
  split at hread
  · cases hread
  · next hne =>
    cases hread
    exact Nat.pos_of_ne_zero hne

/-- What `optional_env` reads is not blank. -/
theorem optionalEnv_not_blank {value : String} (h : optionalEnv env name = some value) :
    isBlank value = false := by
  simpa using (Option.filter_eq_some_iff.1 h).2

/-- The error is about a variable that is set, and says its value, or that this is zero. -/
def ConfigError.Blames (env : Env) (e : ConfigError) : Prop :=
  ∃ name value, env name = some value ∧ (e = .invalidValue name value ∨ e = .invalidValue name "0")

/-- Where the default is accepted, an error of `parse_env` is about a variable that is set. -/
theorem parseEnv_errors {α : Type} {parse : String → Option α} {parsed : α}
    (hdefault : parse default = some parsed) :
    (parseEnv env parse name default).ErrorsIn (ConfigError.Blames env) := by
  intro e he
  cases hname : env name with
  | none => simp [parseEnv, hname, hdefault] at he
  | some value =>
    rw [parseEnv, hname, Option.getD_some] at he
    split at he
    · cases he
    · cases he
      exact ⟨name, value, hname, .inl rfl⟩

/-- A number that a parser is given by default is accepted. -/
theorem parseUnsigned_errors {bound n : Nat} (hn : n < bound) :
    (parseEnv env (parseUnsigned bound) name (Nat.repr n)).ErrorsIn (ConfigError.Blames env) :=
  parseEnv_errors (parseUnsigned_repr hn)

/-- So it is with a number of seconds. -/
theorem secondsEnv_errors {n : Nat} (hn : n < 2 ^ 64) :
    (secondsEnv env name n).ErrorsIn (ConfigError.Blames env) :=
  (parseUnsigned_errors hn).bind fun _ => nofun

/-- And with a parser that rejects zero, of a default that is not zero. -/
theorem positiveEnv_errors {bound n : Nat} (hn : n < bound) (hpos : 0 < n) :
    (positiveEnv (parseUnsigned bound) env name n).ErrorsIn (ConfigError.Blames env) := by
  intro e he
  cases hread : parseEnv env (parseUnsigned bound) name (Nat.repr n) with
  | error e' =>
    rw [positiveEnv, hread] at he
    cases he
    exact parseUnsigned_errors hn e hread
  | panicked =>
    rw [positiveEnv, hread] at he
    cases he
  | ok value =>
    rw [positiveEnv, hread, Outcome.ok_bind] at he
    split at he
    · next hzero =>
      cases he
      cases hname : env name with
      | some raw => exact ⟨name, raw, hname, .inr (by rw [hzero]; rfl)⟩
      | none =>
        rw [parseEnv_ok_iff, hname, Option.getD_none, parseUnsigned_repr hn] at hread
        cases hread
        omega
    · cases he

/-- **What is rejected is named.** An error of `from_env` is about a variable that is set; no
default is rejected. -/
theorem fromEnv_errors {parseSocketAddr : String → Option String} {overflowChecks : Bool}
    {bindAddr : String} (haddr : parseSocketAddr "0.0.0.0:3000" = some bindAddr) :
    (fromEnv parseSocketAddr overflowChecks env).ErrorsIn (ConfigError.Blames env) := by
  have hbool : ∀ {name},
      (parseEnv env parseBool name "true").ErrorsIn (ConfigError.Blames env) :=
    parseEnv_errors (show parseBool "true" = some true from rfl)
  refine (parseEnv_errors haddr).bind fun _ => ?_
  refine (positiveEnv_errors (by decide) (by decide)).bind fun _ => ?_
  refine (positiveEnv_errors (by decide) (by decide)).bind fun _ => ?_
  refine (positiveEnv_errors (by decide) (by decide)).bind fun _ => ?_
  refine hbool.bind fun _ => ?_
  refine (secondsEnv_errors (by decide)).bind fun _ => ?_
  refine (secondsEnv_errors (by decide)).bind fun _ => ?_
  refine (secondsEnv_errors (by decide)).bind fun _ => ?_
  refine (parseUnsigned_errors (by decide)).bind fun _ => ?_
  refine (secondsEnv_errors (by decide)).bind fun _ => ?_
  refine (secondsEnv_errors (by decide)).bind fun _ => ?_
  refine (secondsEnv_errors (by decide)).bind fun _ => ?_
  refine (parseUnsigned_errors (by decide)).bind fun _ => Outcome.unsigned_errors.bind fun _ => ?_
  refine Outcome.unsigned_errors.bind fun _ => (secondsEnv_errors (by decide)).bind fun _ => ?_
  refine (secondsEnv_errors (by decide)).bind fun _ => ?_
  exact hbool.bind fun _ => nofun

/-- What is read of the variables that decide whether the server can run: the number of sessions,
the maintenance interval, the origins and the rate limit. The token is none, or not blank. -/
theorem fromEnv_ok {parseSocketAddr : String → Option String} {overflowChecks : Bool}
    {config : ServerConfig} (h : fromEnv parseSocketAddr overflowChecks env = .ok config) :
    parseU64 ((env "EIGER_MAX_CONCURRENT_SESSIONS").getD (Nat.repr 4)) =
        some config.pool.maxConcurrentSessions ∧
      (∃ secs, parseU64 ((env "EIGER_MAINTENANCE_INTERVAL_SECS").getD (Nat.repr 5)) = some secs ∧
        Duration.fromSecs secs = config.pool.maintenanceInterval) ∧
      config.http.corsOrigins = commaSeparatedEnv env "EIGER_CORS_ORIGINS" ∧
      0 < config.rateLimit.requestsPerSecond ∧ 0 < config.rateLimit.burst ∧
      ∀ token, config.token = some token → isBlank token = false := by
  simp only [fromEnv, Outcome.bind_eq_ok_iff, Outcome.pure_eq] at h
  obtain ⟨bindAddr, -, bodyLimit, -, rps, hrps, burst, hburst, noSandbox, -, launch, -, close, -,
    terminate, -, sessions, hsessions, queue, -, lifetime, -, idle, -, mb, -, kb, -, bytes, -,
    interval, hinterval, health, -, stealth, -, hconfig⟩ := h
  cases hconfig
  exact ⟨parseEnv_ok_iff.1 hsessions, secondsEnv_ok_iff.1 hinterval, rfl, pos_of_positiveEnv hrps,
    pos_of_positiveEnv hburst, fun token htoken => optionalEnv_not_blank htoken⟩

/-- With no variable set the defaults are read, and all of them are accepted. -/
theorem fromEnv_default {parseSocketAddr : String → Option String} {overflowChecks : Bool}
    {bindAddr : String} (h : parseSocketAddr "0.0.0.0:3000" = some bindAddr) :
    fromEnv parseSocketAddr overflowChecks (fun _ => none) = .ok
      { AppConfig.default with
        bindAddr
        token := none
        http := { corsOrigins := [], requestBodyLimitBytes := 64 * 1024 }
        rateLimit := { requestsPerSecond := 10, burst := 20 } } := by
  have haddr : parseEnv (fun _ => none) parseSocketAddr "EIGER_BIND_ADDR" "0.0.0.0:3000" =
      .ok bindAddr := parseEnv_ok_iff.2 h
  have hnumber : ∀ bound name n, n < bound →
      parseEnv (fun _ => none) (parseUnsigned bound) name (Nat.repr n) = .ok n :=
    fun bound name n hn => parseEnv_ok_iff.2 (parseUnsigned_repr hn)
  have hbool : ∀ name, parseEnv (fun _ => none) parseBool name "true" = .ok true :=
    fun name => parseEnv_ok_iff.2 rfl
  simp [fromEnv, haddr, hbool, hnumber, secondsEnv, mbEnv, positiveU32Env, positiveUsizeEnv,
    positiveEnv, parseU64, parseU32, mulU64, Outcome.unsigned, optionalEnv, commaSeparatedEnv,
    AppConfig.default]

end

end Eiger
