import Eiger.Config.Types
import Eiger.Lib.Text

/-!
# The pool's data

The types of `eiger-pool`, and those of its functions that compute a value from their arguments
alone: how a request's overrides become launch options, where a persistent profile lives, and
which recycle counter a kill reason belongs to.
-/

namespace Eiger

open Text

/-- A session's id. `Uuid::new_v4` gives each session an id that no session has had; ids are only
compared for equality, so sessions are numbered in the order of their creation. -/
abbrev Uuid := Nat

/-- `SessionState`. -/
inductive SessionState where
  | launching
  | ready
  | inUse
  | draining
  | killing
  | dead
  deriving DecidableEq, Repr

/-- `SessionOverrides`. -/
structure SessionOverrides where
  stealthEnabled : Option Bool
  extraChromeArgs : List String
  proxy : Option String
  extensionPaths : List PathBuf
  persistentProfileId : Option String
  deriving DecidableEq, Repr

/-- `SessionOverrides::default`. -/
def SessionOverrides.default : SessionOverrides :=
  { stealthEnabled := none, extraChromeArgs := [], proxy := none, extensionPaths := [],
    persistentProfileId := none }

/-- `PoolOptions`. -/
structure PoolOptions where
  maxConcurrentSessions : Nat
  launchQueueTimeout : Duration
  maxSessionLifetime : Duration
  maxIdleTime : Duration
  perSessionRssLimitBytes : Nat
  maintenanceInterval : Duration
  cdpHealthInterval : Duration
  profileStorageDir : Option PathBuf
  deriving DecidableEq, Repr

/-- The fields of `SessionPool` that no operation writes. -/
structure SessionPool where
  options : PoolOptions
  browserOptions : ChromeLaunchOptions
  deriving DecidableEq, Repr

/-- The fixed fields of the pool `SessionPool::from_config` builds. -/
def SessionPool.fromConfig (config : AppConfig) : SessionPool :=
  { options :=
      { maxConcurrentSessions := config.pool.maxConcurrentSessions
        launchQueueTimeout := config.pool.launchQueueTimeout
        maxSessionLifetime := config.pool.maxSessionLifetime
        maxIdleTime := config.pool.maxIdleTime
        perSessionRssLimitBytes := config.pool.perSessionRssLimitBytes
        maintenanceInterval := config.pool.maintenanceInterval
        cdpHealthInterval := config.pool.cdpHealthInterval
        profileStorageDir := config.browser.profileStorageDir }
    browserOptions :=
      { executable := config.browser.executable
        noSandbox := config.browser.noSandbox
        launchTimeout := config.browser.launchTimeout
        closeTimeout := config.browser.closeTimeout
        terminateTimeout := config.browser.terminateTimeout
        additionalArgs := config.browser.additionalArgs
        proxy := none
        extensionPaths := []
        userDataDir := none
        stealth := .new config.stealth.enabled config.browser.userAgent } }

/-- `PoolError`. -/
inductive PoolError where
  | atCapacity
  | capacityTimeout
  | notFound (id : Uuid)
  | notConnectable (id : Uuid)
  | persistentProfilesDisabled
  | invalidPersistentProfileId (id : String)
  | browser (error : BrowserError)
  deriving DecidableEq, Repr

/-- `SessionEntry`. The wall-clock times, which only reports read, are left out. -/
structure SessionEntry where
  id : Uuid
  pid : ChildId
  browserWsUrl : String
  stealthEnabled : Bool
  createdInstant : Instant
  lastUsedInstant : Instant
  lastCdpHealthCheck : Instant
  state : SessionState
  browser : Option LaunchedBrowser
  killReason : Option String
  deriving DecidableEq, Repr

/-- The entry `create_session` builds for a launched browser. -/
def SessionEntry.new (id : Uuid) (stealth : Bool) (now : Instant) (browser : LaunchedBrowser) :
    SessionEntry :=
  { id, pid := browser.child, browserWsUrl := browser.browserWsUrl, stealthEnabled := stealth,
    createdInstant := now, lastUsedInstant := now, lastCdpHealthCheck := now, state := .ready,
    browser := some browser, killReason := none }

/-- The characters a persistent profile id may have. -/
def profileIdChar (c : Char) : Bool :=
  c.isAlphanum || c == '-' || c == '_' || c == '.'

/-- `profile_path`. -/
def profilePath (baseDir : PathBuf) (profileId : String) : Except PoolError PathBuf :=
  let profileId := trim profileId
  if profileId = "" ∨ profileId = "." ∨ profileId = ".." ∨ ¬ profileId.toList.all profileIdChar then
    .error (.invalidPersistentProfileId profileId)
  else
    .ok (baseDir.join profileId)

example : profilePath "/var/lib/eiger-profiles" "team_1.dev"
    = .ok "/var/lib/eiger-profiles/team_1.dev" := by rfl

/-- The user data directory that a request's persistent profile id selects. -/
def SessionPool.userDataDir (pool : SessionPool) : Option String →
    Except PoolError (Option PathBuf)
  | none => .ok pool.browserOptions.userDataDir
  | some profileId =>
    match pool.options.profileStorageDir with
    | none => .error .persistentProfilesDisabled
    | some baseDir => (profilePath baseDir profileId).map some

/-- A pool from a configuration launches on a given directory only for a persistent profile. -/
theorem SessionPool.fromConfig_userDataDir {config : AppConfig} {selected : Option String}
    {dir : Option PathBuf} (h : (fromConfig config).userDataDir selected = .ok dir) :
    (selected = none ∧ dir = none) ∨ ∃ profileId base path, selected = some profileId ∧
      config.browser.profileStorageDir = some base ∧ profilePath base profileId = .ok path ∧
      dir = some path := by
  cases selected with
  | none =>
    cases h
    exact .inl ⟨rfl, rfl⟩
  | some profileId =>
    unfold userDataDir at h
    cases hbase : config.browser.profileStorageDir with
    | none =>
      simp only [fromConfig, hbase] at h
      cases h
    | some base =>
      simp only [fromConfig, hbase] at h
      cases hpath : profilePath base profileId with
      | error e =>
        rw [hpath] at h
        cases h
      | ok path =>
        rw [hpath] at h
        cases h
        exact .inr ⟨profileId, base, path, rfl, rfl, hpath, rfl⟩

/-- The launch options `create_session` derives from its overrides. -/
def SessionPool.launchOptions (pool : SessionPool) (overrides : SessionOverrides) :
    Except PoolError ChromeLaunchOptions := do
  let userDataDir ← pool.userDataDir overrides.persistentProfileId
  return { pool.browserOptions with
    stealth := { pool.browserOptions.stealth with
      enabled := overrides.stealthEnabled.getD pool.browserOptions.stealth.enabled }
    proxy := overrides.proxy
    extensionPaths := overrides.extensionPaths
    userDataDir
    additionalArgs := pool.browserOptions.additionalArgs ++ overrides.extraChromeArgs }

/-- The counters of sessions that maintenance recycles, by their cause. -/
inductive RecycleCounter where
  | rssLimit
  | idle
  | lifetime
  | processExit
  | cdpUnhealthy
  deriving DecidableEq, Repr

/-- `SessionPool::count_recycle_reason`: the counter a kill reason increments, if any. -/
def recycleCounter (reason : String) : Option RecycleCounter :=
  if startsWith reason "rss limit exceeded" then some .rssLimit
  else if startsWith reason "max idle time exceeded" then some .idle
  else if startsWith reason "max session lifetime exceeded" then some .lifetime
  else if startsWith reason "browser process exited" then some .processExit
  else if startsWith reason "cdp health check failed" then some .cdpUnhealthy
  else none

/-- `ProcessSample`, without the CPU share, which no decision reads. -/
structure ProcessSample where
  pid : ChildId
  rssBytes : Nat
  processCount : Nat
  deriving DecidableEq, Repr

/-! ## The decisions of `kill_reason_for`

Each check of `kill_reason_for` on the value it reads, in the order of the source. -/

/-- The lifetime check. -/
def PoolOptions.lifetimeReason (options : PoolOptions) (age : Duration) : Option String :=
  if age > options.maxSessionLifetime then some "max session lifetime exceeded" else none

/-- The idle check, at the state and the idle time read. -/
def PoolOptions.idleReason (options : PoolOptions) (state : SessionState) (idleFor : Duration) :
    Option String :=
  if state = .ready ∧ idleFor > options.maxIdleTime then some "max idle time exceeded" else none

/-- The check of the sampled process tree. -/
def PoolOptions.sampleReason (options : PoolOptions) : Option ProcessSample → Option String
  | some sample =>
    if sample.rssBytes > options.perSessionRssLimitBytes then
      some ("rss limit exceeded: " ++ Nat.repr sample.rssBytes ++ " > "
        ++ Nat.repr options.perSessionRssLimitBytes)
    else none
  | none => some "browser process exited"

/-- The CDP health check is due once its interval has passed since the last one. -/
def PoolOptions.healthCheckDue (options : PoolOptions) (sinceCheck : Duration) : Bool :=
  decide (sinceCheck ≥ options.cdpHealthInterval)

/-- The verdict of the CDP health check. -/
def healthReason : Except BrowserError Unit → Option String
  | .ok () => none
  | .error error => some ("cdp health check failed: " ++ error.text)

section

variable {text : String}

/-- A text that is not the reason of the lifetime check does not come from it. -/
theorem PoolOptions.lifetimeReason_ne (options : PoolOptions) (age : Duration)
    (h : text ≠ "max session lifetime exceeded") : options.lifetimeReason age ≠ some text := by
  rw [lifetimeReason]
  split
  · exact fun heq => h (Option.some.inj heq).symm
  · nofun

/-- So it is with the idle check. -/
theorem PoolOptions.idleReason_ne (options : PoolOptions) (state : SessionState)
    (idleFor : Duration) (h : text ≠ "max idle time exceeded") :
    options.idleReason state idleFor ≠ some text := by
  rw [idleReason]
  split
  · exact fun heq => h (Option.some.inj heq).symm
  · nofun

/-- With the check of the sample, whose reason starts with an `r` where there is a sample. -/
theorem PoolOptions.sampleReason_ne (options : PoolOptions) (sample : Option ProcessSample)
    (hrss : text.toList.head? ≠ some 'r')
    (hexit : sample = none → text ≠ "browser process exited") :
    options.sampleReason sample ≠ some text := by
  cases sample with
  | none => exact fun heq => hexit rfl (Option.some.inj heq).symm
  | some sample =>
    rw [sampleReason]
    split
    · intro heq
      rw [← Option.some.inj heq] at hrss
      simp at hrss
    · nofun

/-- And with the health check, whose reason starts with a `c`. -/
theorem healthReason_ne (result : Except BrowserError Unit) (h : text.toList.head? ≠ some 'c') :
    healthReason result ≠ some text := by
  cases result with
  | ok => nofun
  | error error =>
    intro heq
    rw [← Option.some.inj heq] at h
    simp at h

end

end Eiger
