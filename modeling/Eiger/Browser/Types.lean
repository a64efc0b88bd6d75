/-!
# The browser's data

The types of `eiger-browser` that the pool handles: the options a Chrome process is launched
with, the user data directory it runs on, the browser once it is up, and the errors of a launch.
A `PathBuf` is its text, with Unix separators.
-/

namespace Eiger

/-- A length of time, in nanoseconds. -/
abbrev Duration := Nat

/-- A point of the monotonic clock, in nanoseconds. -/
abbrev Instant := Nat

/-- A path, by its text. -/
abbrev PathBuf := String

/-- `Duration::from_secs`. -/
def Duration.fromSecs (secs : Nat) : Duration := secs * 1000000000

/-- The fraction digits of a decimal, `width` of them before trailing zeros go. -/
def fractionDigits (width n : Nat) : List Char :=
  let digits := (Nat.repr n).toList
  ((List.replicate (width - digits.length) '0' ++ digits).reverse.dropWhile (· == '0')).reverse

/-- `value` with `n` units of the `width`-th decimal place, and its unit. -/
def decimalText (value width n : Nat) (unit : String) : String :=
  let digits := fractionDigits width n
  Nat.repr value ++ (if digits.isEmpty then "" else "." ++ String.ofList digits) ++ unit

/-- `Duration`'s `Debug` text: the largest unit that leaves a whole part, without trailing
zeros. -/
def Duration.debug (d : Duration) : String :=
  if 1000000000 ≤ d then decimalText (d / 1000000000) 9 (d % 1000000000) "s"
  else if 1000000 ≤ d then decimalText (d / 1000000) 6 (d % 1000000) "ms"
  else if 1000 ≤ d then decimalText (d / 1000) 3 (d % 1000) "µs"
  else decimalText d 0 0 "ns"

example : Duration.debug (Duration.fromSecs 10) = "10s" := by decide
example : Duration.debug 1500000 = "1.5ms" := by decide

/-- `Path::join`: an absolute path replaces the base, a relative one is put under it. -/
def PathBuf.join (base path : PathBuf) : PathBuf :=
  if path.toList.head? = some '/' then path
  else if base.toList.getLast?.all (· == '/') then base ++ path
  else base ++ "/" ++ path

/-- `StealthProfile`. -/
structure StealthProfile where
  enabled : Bool
  userAgent : Option String
  windowWidth : Nat
  windowHeight : Nat
  deriving DecidableEq, Repr

/-- `StealthProfile::new`. -/
def StealthProfile.new (enabled : Bool) (userAgent : Option String) : StealthProfile :=
  { enabled, userAgent, windowWidth := 1365, windowHeight := 768 }

/-- `ChromeLaunchOptions`. -/
structure ChromeLaunchOptions where
  executable : Option PathBuf
  noSandbox : Bool
  launchTimeout : Duration
  closeTimeout : Duration
  terminateTimeout : Duration
  additionalArgs : List String
  proxy : Option String
  extensionPaths : List PathBuf
  userDataDir : Option PathBuf
  stealth : StealthProfile
  deriving DecidableEq, Repr

/-- `UserDataDir`: a `TempDir`, which its drop removes, or a persistent directory. -/
inductive UserDataDir where
  | temporary (path : PathBuf)
  | persistent (path : PathBuf)
  deriving DecidableEq, Repr

/-- `UserDataDir::path`. -/
def UserDataDir.path : UserDataDir → PathBuf
  | .temporary p => p
  | .persistent p => p

/-- A spawned Chrome child, by its place in the order of spawns. It stands for the `Child` handle
and for the pid stored beside it. -/
abbrev ChildId := Nat

/-- `BrowserReady`, without the pid that `wait_until_ready` was given. -/
structure BrowserReady where
  httpBaseUrl : String
  browserWsUrl : String
  deriving DecidableEq, Repr

/-- `LaunchedBrowser`: the child it owns, its endpoint and its user data directory. -/
structure LaunchedBrowser where
  child : ChildId
  httpBaseUrl : String
  browserWsUrl : String
  userDataDir : UserDataDir
  deriving DecidableEq, Repr

/-- `ShutdownKind`. -/
inductive ShutdownKind where
  | graceful
  | terminated
  | killed
  | alreadyExited
  deriving DecidableEq, Repr

/-- `BrowserError`. The errors of other crates are carried by their `Display` text. -/
inductive BrowserError where
  | missingExecutable
  | spawn (path source : String)
  | exitedEarly (status : String)
  | launchTimeout (timeout : Duration)
  | devtoolsPort (source : String)
  | userDataDir (path source : String)
  | invalidDevtoolsPort (contents : String)
  | http (source : String)
  | webSocket (source : String)
  | cdpTimeout (method : String)
  | cdpCommand (error : String)
  deriving DecidableEq, Repr

/-- `BrowserError`'s `Display`. -/
def BrowserError.text : BrowserError → String
  | .missingExecutable =>
    "chrome executable could not be resolved; set EIGER_CHROME_EXECUTABLE"
  | .spawn path source => "failed to spawn chrome at " ++ path ++ ": " ++ source
  | .exitedEarly status => "chrome exited before CDP became ready: " ++ status
  | .launchTimeout timeout => "chrome did not expose CDP within " ++ timeout.debug
  | .devtoolsPort source => "failed to read DevToolsActivePort: " ++ source
  | .userDataDir path source => "failed to prepare user data dir " ++ path ++ ": " ++ source
  | .invalidDevtoolsPort contents => "invalid DevToolsActivePort contents: " ++ contents
  | .http source => "CDP HTTP request failed: " ++ source
  | .webSocket source => "CDP websocket failed: " ++ source
  | .cdpTimeout method => "CDP command timed out: " ++ method
  | .cdpCommand error => "CDP command failed: " ++ error

end Eiger
