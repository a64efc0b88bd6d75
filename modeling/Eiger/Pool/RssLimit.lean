import Mathlib.Algebra.GroupWithZero.Nat
import Eiger.Config.Env
import Eiger.Pool.Types

/-!
# The memory limit of a session

`from_env` reads the limit in megabytes, as any `u64`, and multiplies it by 2^20 in two steps, which
nothing checks. From 2^44 megabytes on the product is no `u64`: a debug build panics, and a release
build keeps the product modulo 2^64, which may be zero. `kill_reason_for` compares the memory of a
session with that limit.

The limit is exact as long as the product is a `u64`, or another variable ends `from_env` as
`InvalidValue` first (`rss_limit_exact_iff`).
-/

namespace Eiger

open Outcome

/-- The megabytes that `from_env` reads. -/
def rssLimitMb (env : Env) : Outcome ConfigError Nat :=
  mbEnv env "EIGER_PER_SESSION_RSS_LIMIT_MB" 1536

/-- `from_env` returns `InvalidValue`, or a configuration of 2^20 bytes for each megabyte. -/
def LimitExact (env : Env) (read : Outcome ConfigError ServerConfig) : Prop :=
  read.Yields fun config =>
    ∃ mb, rssLimitMb env = .ok mb ∧ config.pool.perSessionRssLimitBytes = mb * 2 ^ 20

/-- A variable is accepted. -/
def Accepted {α : Type} (read : Outcome ConfigError α) : Prop := ∃ value, read = .ok value

/-- The variables are accepted that are read before the limit. -/
structure AcceptedBefore (parseSocketAddr : String → Option String) (env : Env) : Prop where
  bindAddr : Accepted (parseEnv env parseSocketAddr "EIGER_BIND_ADDR" "0.0.0.0:3000")
  bodyLimit : Accepted (positiveUsizeEnv env "EIGER_REQUEST_BODY_LIMIT_BYTES" (64 * 1024))
  rateLimitRps : Accepted (positiveU32Env env "EIGER_RATE_LIMIT_RPS" 10)
  rateLimitBurst : Accepted (positiveU32Env env "EIGER_RATE_LIMIT_BURST" 20)
  noSandbox : Accepted (parseEnv env parseBool "EIGER_CHROME_NO_SANDBOX" "true")
  launchTimeout : Accepted (secondsEnv env "EIGER_BROWSER_LAUNCH_TIMEOUT_SECS" 10)
  closeTimeout : Accepted (secondsEnv env "EIGER_BROWSER_CLOSE_TIMEOUT_SECS" 3)
  terminateTimeout : Accepted (secondsEnv env "EIGER_BROWSER_TERMINATE_TIMEOUT_SECS" 2)
  sessions : Accepted (parseEnv env parseU64 "EIGER_MAX_CONCURRENT_SESSIONS" (Nat.repr 4))
  launchQueueTimeout : Accepted (secondsEnv env "EIGER_LAUNCH_QUEUE_TIMEOUT_SECS" 15)
  maxSessionLifetime : Accepted (secondsEnv env "EIGER_MAX_SESSION_LIFETIME_SECS" (30 * 60))
  maxIdleTime : Accepted (secondsEnv env "EIGER_MAX_IDLE_TIME_SECS" (5 * 60))

/-- The variables are accepted that are read after it. -/
structure AcceptedAfter (env : Env) : Prop where
  maintenanceInterval : Accepted (secondsEnv env "EIGER_MAINTENANCE_INTERVAL_SECS" 5)
  cdpHealthInterval : Accepted (secondsEnv env "EIGER_CDP_HEALTH_INTERVAL_SECS" 30)
  stealthEnabled : Accepted (parseEnv env parseBool "EIGER_STEALTH_ENABLED" "true")

/-- The bytes of the limit are a `u64`; or another variable is rejected, before the limit is
computed, or after a product that has not been checked. -/
def LimitFits (parseSocketAddr : String → Option String) (overflowChecks : Bool) (env : Env) :
    Prop :=
  ∀ mb, rssLimitMb env = .ok mb →
    mb * 2 ^ 20 < 2 ^ 64 ∨ ¬ AcceptedBefore parseSocketAddr env ∨
      (overflowChecks = false ∧ ¬ AcceptedAfter env)

/-- With this configuration a session of this sample is recycled for its memory. -/
def RssRecycled (config : ServerConfig) (sample : ProcessSample) : Prop :=
  (SessionPool.fromConfig config.toAppConfig).options.sampleReason (some sample) ≠ none

/-! ## What the parsers yield -/

section

variable {env : Env} {name default : String}

/-- `parse_env` does not panic. -/
theorem parseEnv_yields_iff {α : Type} {parse : String → Option α} {q : α → Prop} :
    (parseEnv env parse name default).Yields q ↔
      ∀ value, parseEnv env parse name default = .ok value → q value := by
  refine yields_iff fun h => ?_
  rw [parseEnv] at h
  split at h <;> cases h

/-- Nor does `seconds_env`. -/
theorem secondsEnv_yields_iff {n : Nat} {q : Duration → Prop} :
    (secondsEnv env name n).Yields q ↔ ∀ value, secondsEnv env name n = .ok value → q value := by
  refine yields_iff fun h => ?_
  rw [secondsEnv, parseEnv] at h
  split at h <;> cases h

/-- Nor do the parsers that reject zero. -/
theorem positiveEnv_yields_iff {parse : String → Option Nat} {n : Nat} {q : Nat → Prop} :
    (positiveEnv parse env name n).Yields q ↔
      ∀ value, positiveEnv parse env name n = .ok value → q value := by
  refine yields_iff fun h => ?_
  rw [positiveEnv, parseEnv] at h
  split at h
  · rw [ok_bind] at h
    split at h <;> cases h
  · cases h

/-- The two products of the limit come to one, in the end. -/
theorem limit_yields_iff {overflowChecks : Bool} {mb : Nat} {q : Nat → Prop} :
    ((mulU64 overflowChecks mb 1024).Yields fun kb => (mulU64 overflowChecks kb 1024).Yields q) ↔
      if mb * 2 ^ 20 < 2 ^ 64 then q (mb * 2 ^ 20)
      else overflowChecks = false ∧ q (mb * 2 ^ 20 % 2 ^ 64) := by
  have hmul (a b : Nat) : mulU64 overflowChecks a b = unsigned overflowChecks (2 ^ 64) (a * b) :=
    rfl
  have hle : mb * 1024 ≤ mb * 2 ^ 20 := by omega
  have hexact : mb * 1024 * 1024 = mb * 2 ^ 20 := by omega
  have hwrapped : mb * 1024 % 2 ^ 64 * 1024 % 2 ^ 64 = mb * 2 ^ 20 % 2 ^ 64 := by omega
  simp only [hmul, unsigned_yields_iff, hexact, hwrapped]
  split
  · exact Iff.rfl
  · next hfirst =>
    rw [if_neg fun hfits => hfirst (Nat.lt_of_le_of_lt hle hfits)]
    split
    · next hsecond => rw [← hwrapped, Nat.mod_eq_of_lt hsecond]
    · rw [← and_assoc, and_self]

/-- What `from_env` yields, as far as it is about the limit: the exact one, or the wrapped one where
overflow is not checked, if all the variables are accepted. -/
theorem fromEnv_yields_iff {parseSocketAddr : String → Option String} {overflowChecks : Bool}
    {q : Nat → Prop} :
    ((fromEnv parseSocketAddr overflowChecks env).Yields fun config =>
        q config.pool.perSessionRssLimitBytes) ↔
      (AcceptedBefore parseSocketAddr env → ∀ mb, rssLimitMb env = .ok mb →
        if mb * 2 ^ 20 < 2 ^ 64 then AcceptedAfter env → q (mb * 2 ^ 20)
        else overflowChecks = false ∧ (AcceptedAfter env → q (mb * 2 ^ 20 % 2 ^ 64))) := by
  have hafter (bytes : Nat) : (AcceptedAfter env → q bytes) ↔
      ∀ interval, secondsEnv env "EIGER_MAINTENANCE_INTERVAL_SECS" 5 = .ok interval →
        ∀ health, secondsEnv env "EIGER_CDP_HEALTH_INTERVAL_SECS" 30 = .ok health →
          ∀ stealth, parseEnv env parseBool "EIGER_STEALTH_ENABLED" "true" = .ok stealth →
            q bytes :=
    ⟨fun h _ hinterval _ hhealth _ hstealth =>
        h ⟨⟨_, hinterval⟩, ⟨_, hhealth⟩, ⟨_, hstealth⟩⟩,
      fun h ⟨⟨_, hinterval⟩, ⟨_, hhealth⟩, ⟨_, hstealth⟩⟩ =>
        h _ hinterval _ hhealth _ hstealth⟩
  simp only [fromEnv, yields_bind, parseEnv_yields_iff, secondsEnv_yields_iff, positiveU32Env,
    positiveUsizeEnv, positiveEnv_yields_iff, mbEnv, limit_yields_iff, pure_eq, hafter]
  constructor
  · rintro h ⟨⟨_, haddr⟩, ⟨_, hbody⟩, ⟨_, hrps⟩, ⟨_, hburst⟩, ⟨_, hsandbox⟩, ⟨_, hlaunch⟩,
      ⟨_, hclose⟩, ⟨_, hterminate⟩, ⟨_, hsessions⟩, ⟨_, hqueue⟩, ⟨_, hlifetime⟩, ⟨_, hidle⟩⟩ mb hmb
    exact h _ haddr _ hbody _ hrps _ hburst _ hsandbox _ hlaunch _ hclose _ hterminate _ hsessions
      _ hqueue _ hlifetime _ hidle mb hmb
  · intro h _ haddr _ hbody _ hrps _ hburst _ hsandbox _ hlaunch _ hclose _ hterminate _ hsessions
      _ hqueue _ hlifetime _ hidle mb hmb
    exact h ⟨⟨_, haddr⟩, ⟨_, hbody⟩, ⟨_, hrps⟩, ⟨_, hburst⟩, ⟨_, hsandbox⟩, ⟨_, hlaunch⟩,
      ⟨_, hclose⟩, ⟨_, hterminate⟩, ⟨_, hsessions⟩, ⟨_, hqueue⟩, ⟨_, hlifetime⟩, ⟨_, hidle⟩⟩ mb hmb

/-- The limit is exact where it fits: a wrapped one is a `u64`, and the exact one is not. -/
theorem limitExact_iff {parseSocketAddr : String → Option String} {overflowChecks : Bool} :
    LimitExact env (fromEnv parseSocketAddr overflowChecks env) ↔
      LimitFits parseSocketAddr overflowChecks env := by
  rw [LimitExact, @fromEnv_yields_iff env parseSocketAddr overflowChecks fun bytes =>
    ∃ mb, rssLimitMb env = .ok mb ∧ bytes = mb * 2 ^ 20, LimitFits]
  constructor
  · intro h mb hmb
    refine Decidable.or_iff_not_imp_left.2 fun hoverflow => Classical.or_iff_not_imp_left.2 ?_
    intro hbefore
    have hwrapped := h (Classical.not_not.1 hbefore) mb hmb
    rw [if_neg hoverflow] at hwrapped
    refine ⟨hwrapped.1, fun hafter => ?_⟩
    obtain ⟨mb', hmb', hbytes⟩ := hwrapped.2 hafter
    cases hmb.symm.trans hmb'
    exact hoverflow (hbytes ▸ Nat.mod_lt _ (Nat.two_pow_pos 64))
  · intro h hbefore mb hmb
    split
    · exact fun _ => ⟨mb, hmb, rfl⟩
    · next hoverflow =>
      obtain hfits | hrejected | ⟨hchecks, hrejected⟩ := h mb hmb
      · exact (hoverflow hfits).elim
      · exact (hrejected hbefore).elim
      · exact ⟨hchecks, fun hafter => (hrejected hafter).elim⟩

/-- The limit of an accepted configuration is the product modulo 2^64. -/
theorem fromEnv_limit {parseSocketAddr : String → Option String} {overflowChecks : Bool}
    {config : ServerConfig} (h : fromEnv parseSocketAddr overflowChecks env = .ok config) :
    ∃ mb, rssLimitMb env = .ok mb ∧
      config.pool.perSessionRssLimitBytes = mb % 2 ^ 44 * 2 ^ 20 := by
  simp only [fromEnv, bind_eq_ok_iff, pure_eq] at h
  obtain ⟨bindAddr, -, bodyLimit, -, rps, -, burst, -, noSandbox, -, launch, -, close, -,
    terminate, -, sessions, -, queue, -, lifetime, -, idle, -, mb, hmb, kb, hkb, bytes, hbytes,
    interval, -, health, -, stealth, -, hconfig⟩ := h
  cases hconfig
  refine ⟨mb, hmb, ?_⟩
  show bytes = _
  have hkb : kb = mb * 1024 % 2 ^ 64 := eq_mod_of_unsigned hkb
  have hbytes : bytes = kb * 1024 % 2 ^ 64 := eq_mod_of_unsigned hbytes
  omega

/-- A session is recycled for its memory where this exceeds the limit. -/
theorem rssRecycled_iff {config : ServerConfig} {sample : ProcessSample} :
    RssRecycled config sample ↔ config.pool.perSessionRssLimitBytes < sample.rssBytes := by
  rw [RssRecycled, PoolOptions.sampleReason]
  split <;> simp_all [SessionPool.fromConfig]

/-- One configuration recycles no session that another one keeps just where its limit is not
lower. -/
theorem rssRecycled_imp_iff {config config' : ServerConfig} :
    (∀ sample, RssRecycled config' sample → RssRecycled config sample) ↔
      config.pool.perSessionRssLimitBytes ≤ config'.pool.perSessionRssLimitBytes := by
  simp only [rssRecycled_iff]
  constructor
  · intro h
    let sample : ProcessSample :=
      { pid := 0, rssBytes := config.pool.perSessionRssLimitBytes, processCount := 1 }
    exact Nat.le_of_not_lt fun hlt => Nat.lt_irrefl _ (h sample hlt)
  · intro hle sample hexceeds
    exact Nat.lt_of_le_of_lt hle hexceeds

end

/-- **When the limit is exact.** It is, for every value that is read, as long as the product is a
`u64` or another variable is rejected first; otherwise the program panics, or the limit is wrapped.
And of two configurations that are accepted, the second one recycles no session for its memory that
the first one keeps, just where its megabytes are not fewer modulo 2^44; below 2^44, where they are
not fewer. -/
theorem rss_limit_exact_iff {parseSocketAddr : String → Option String} {overflowChecks : Bool}
    {env : Env} :
    (LimitExact env (fromEnv parseSocketAddr overflowChecks env) ↔
        LimitFits parseSocketAddr overflowChecks env) ∧
      ∀ {env' config config' mb mb'}, fromEnv parseSocketAddr overflowChecks env = .ok config →
        fromEnv parseSocketAddr overflowChecks env' = .ok config' →
        rssLimitMb env = .ok mb → rssLimitMb env' = .ok mb' →
        ((∀ sample, RssRecycled config' sample → RssRecycled config sample) ↔
          mb % 2 ^ 44 ≤ mb' % 2 ^ 44) := by
  refine ⟨limitExact_iff, ?_⟩
  intro env' config config' mb mb' hconfig hconfig' hmb hmb'
  obtain ⟨_, hread, hlimit⟩ := fromEnv_limit hconfig
  obtain ⟨_, hread', hlimit'⟩ := fromEnv_limit hconfig'
  cases hmb.symm.trans hread
  cases hmb'.symm.trans hread'
  rw [rssRecycled_imp_iff, hlimit, hlimit']
  omega

/-- An environment that sets this limit. -/
def limitedEnv (mb : String) : Env
  | "EIGER_PER_SESSION_RSS_LIMIT_MB" => some mb
  | _ => none

/-- The configuration of this limit, and else of the defaults. -/
def limitedConfig (bytes : Nat) : ServerConfig :=
  { AppConfig.default with
    pool := { AppConfig.default.pool with perSessionRssLimitBytes := bytes }
    bindAddr := "0.0.0.0:3000"
    token := none
    http := { corsOrigins := [], requestBodyLimitBytes := 64 * 1024 }
    rateLimit := { requestsPerSecond := 10, burst := 20 } }

/-- 4 GiB are exact in a debug build, and recycle no session that 1 GiB do not recycle. -/
theorem rss_limit_exact_iff_gib :
    LimitExact (limitedEnv "4096") (fromEnv some true (limitedEnv "4096")) ∧
      ∀ sample, RssRecycled (limitedConfig (4096 * 2 ^ 20)) sample →
        RssRecycled (limitedConfig (1024 * 2 ^ 20)) sample := by
  have hmb : rssLimitMb (limitedEnv "4096") = .ok 4096 := by decide
  refine ⟨(@rss_limit_exact_iff some true (limitedEnv "4096")).1.2 fun mb hread => ?_, ?_⟩
  · cases hmb.symm.trans hread
    exact .inl (by decide)
  · have hmb' : rssLimitMb (limitedEnv "1024") = .ok 1024 := by decide
    refine ((@rss_limit_exact_iff some true (limitedEnv "1024")).2 ?_ ?_ hmb' hmb).2 ?_
    all_goals decide

/-- A release build wraps 2^44 megabytes to zero: it then recycles a session of any memory at all,
which it keeps with the default. -/
theorem rss_limit_wrapped :
    ¬ LimitExact (limitedEnv "17592186044416")
        (fromEnv some false (limitedEnv "17592186044416")) ∧
      ∃ config config' sample, fromEnv some false (fun _ => none) = .ok config ∧
        fromEnv some false (limitedEnv "17592186044416") = .ok config' ∧
        RssRecycled config' sample ∧ ¬ RssRecycled config sample := by
  have hzero : fromEnv some false (limitedEnv "17592186044416") = .ok (limitedConfig 0) := by
    decide
  constructor
  · rw [hzero]
    rintro ⟨mb, hmb, hlimit⟩
    have hread : rssLimitMb (limitedEnv "17592186044416") = .ok 17592186044416 := by decide
    cases hread.symm.trans hmb
    cases hlimit
  · refine ⟨_, _, { pid := 0, rssBytes := 1, processCount := 1 }, fromEnv_default rfl, hzero, ?_⟩
    rw [rssRecycled_iff, rssRecycled_iff]
    decide

end Eiger
