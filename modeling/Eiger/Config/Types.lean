import Eiger.Browser.Types

/-!
# The configuration

The parts of `AppConfig` that the pool is built from.
-/

namespace Eiger

/-- `BrowserConfig`. -/
structure BrowserConfig where
  executable : Option PathBuf
  noSandbox : Bool
  launchTimeout : Duration
  closeTimeout : Duration
  terminateTimeout : Duration
  additionalArgs : List String
  userAgent : Option String
  profileStorageDir : Option PathBuf
  deriving DecidableEq, Repr

/-- `PoolConfig`. -/
structure PoolConfig where
  maxConcurrentSessions : Nat
  launchQueueTimeout : Duration
  maxSessionLifetime : Duration
  maxIdleTime : Duration
  perSessionRssLimitBytes : Nat
  maintenanceInterval : Duration
  cdpHealthInterval : Duration
  deriving DecidableEq, Repr

/-- `StealthConfig`. -/
structure StealthConfig where
  enabled : Bool
  deriving DecidableEq, Repr

/-- `AppConfig`, without the parts only the server reads. -/
structure AppConfig where
  browser : BrowserConfig
  pool : PoolConfig
  stealth : StealthConfig
  deriving DecidableEq, Repr

/-- What `AppConfig::from_env` reads from an environment that sets none of its variables. -/
def AppConfig.default : AppConfig :=
  { browser :=
      { executable := none, noSandbox := true, launchTimeout := .fromSecs 10,
        closeTimeout := .fromSecs 3, terminateTimeout := .fromSecs 2, additionalArgs := [],
        userAgent := none, profileStorageDir := none }
    pool :=
      { maxConcurrentSessions := 4, launchQueueTimeout := .fromSecs 15,
        maxSessionLifetime := .fromSecs (30 * 60), maxIdleTime := .fromSecs (5 * 60),
        perSessionRssLimitBytes := 1536 * 1024 * 1024, maintenanceInterval := .fromSecs 5,
        cdpHealthInterval := .fromSecs 30 }
    stealth := { enabled := true } }

end Eiger
