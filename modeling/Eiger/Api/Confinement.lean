import Eiger.Api.Overrides
import Eiger.Browser.CommandLine
import Eiger.Browser.Launch
import Eiger.Pool.ProfilePath
import Eiger.Pool.Profiles

/-!
# Profile confinement

A request selects the user data directory of its session by a persistent profile id, which
`profile_path` takes to be the name of a directory under the profile storage directory, or selects
none: then the session has a fresh directory. That is the directory that is prepared, and polled:
`launchPlan_of_waiting`.

A request also gives arguments of Chrome's, and these come last on the command line. So the
directory that Chrome uses is another one where they name another one: `profile_confined_iff`.
-/

namespace Eiger

open Text Transition

/-- What the Chrome of a session is started with: its user data directory, which is prepared and in
which `wait_until_ready` looks for its port, and its command line. -/
structure LaunchPlan where
  dir : UserDataDir
  args : List String
  deriving DecidableEq, Repr

/-- What `create_session` starts Chrome with, at the path of a fresh directory. -/
def SessionPool.launchPlan (pool : SessionPool) (overrides : SessionOverrides) (fresh : PathBuf) :
    Except PoolError LaunchPlan :=
  (pool.launchOptions overrides).map fun options =>
    let dir := prepareUserDataDir options.userDataDir fresh
    { dir, args := chromeArgs dir.path options }

/-- A plan is confined: Chrome uses the directory that is prepared, and this is a fresh one, or that
of a profile in the profile storage directory. -/
structure LaunchPlan.Confined (config : AppConfig) (fresh : PathBuf) (plan : LaunchPlan) :
    Prop where
  inForce : userDataDirInForce plan.args = some plan.dir.path
  place : plan.dir = .temporary fresh ∨ ∃ base id,
    config.browser.profileStorageDir = some base ∧ ProfileId id ∧
      plan.dir = .persistent (base.join id)

/-- The Chrome arguments that a request gives: those of its launch query, then those of its
payload. -/
def requestArgs (codec : BodyCodec) (query : SessionQuery) (payload : Option CreateSessionRequest) :
    List String :=
  match parseLaunchQuery codec query.launch with
  | .ok launch => (launch.bind (·.args)).getD [] ++ (payload.bind (·.extraChromeArgs)).getD []
  | .error _ => []

/-- The directory that a request selects is that of a profile, if it selects one. -/
theorem userDataDir_fromConfig {config : AppConfig} {profileId : Option String}
    {dir : Option PathBuf} (h : (SessionPool.fromConfig config).userDataDir profileId = .ok dir) :
    dir = none ∨ ∃ base id, config.browser.profileStorageDir = some base ∧ ProfileId id ∧
      dir = some (base.join id) := by
  obtain ⟨-, rfl⟩ | ⟨profileId, base, path, -, hbase, hpath, rfl⟩ :=
    SessionPool.fromConfig_userDataDir h
  · exact .inl rfl
  · obtain ⟨hid, rfl⟩ := profilePath_ok hpath
    exact .inr ⟨base, trim profileId, hbase, hid, rfl⟩

/-- What a launch is planned with: the directory that the profile id selects, and the arguments of
the server and of the request, in this order. -/
theorem launchPlan_ok {pool : SessionPool} {overrides : SessionOverrides} {fresh : PathBuf}
    {plan : LaunchPlan} (h : pool.launchPlan overrides fresh = .ok plan) :
    ∃ options, pool.userDataDir overrides.persistentProfileId = .ok options.userDataDir ∧
      options.additionalArgs = pool.browserOptions.additionalArgs ++ overrides.extraChromeArgs ∧
      plan.dir = prepareUserDataDir options.userDataDir fresh ∧
      plan.args = chromeArgs plan.dir.path options := by
  rw [SessionPool.launchPlan, SessionPool.launchOptions] at h
  cases hdir : pool.userDataDir overrides.persistentProfileId with
  | error error =>
    rw [hdir] at h
    cases h
  | ok dir =>
    rw [hdir] at h
    cases h
    exact ⟨_, rfl, rfl, rfl, rfl⟩

/-- **A call polls the directory of its plan.** In every run, a `create_session` call that awaits
`wait_until_ready` has been planned at some path, and the directory that it polls, which its Chrome
was started with, is the one of its plan. -/
theorem launchPlan_of_waiting {pool : SessionPool} {dirs : Finset PathBuf}
    {P : State → Action → Prop} {as : List Action} {s : State} {caller : Caller}
    {overrides : SessionOverrides} {options : ChromeLaunchOptions} {c : ChildId} {dir : UserDataDir}
    (h : Reach pool dirs P as s)
    (ht : .creating caller overrides (.waiting options c dir) ∈ s.tasks) :
    ∃ fresh plan, pool.launchPlan overrides fresh = .ok plan ∧ plan.dir = dir ∧
      plan.args = chromeArgs dir.path options := by
  obtain ⟨hoptions, fresh, rfl⟩ := launchesOn_of_reach h _ ht
  let dir := prepareUserDataDir options.userDataDir fresh
  refine ⟨fresh, { dir, args := chromeArgs dir.path options }, ?_, rfl, rfl⟩
  rw [SessionPool.launchPlan, hoptions]
  rfl

/-- The arguments of a request's overrides are those that the request gives. -/
theorem extraChromeArgs_of_request {codec : BodyCodec} {query : SessionQuery}
    {payload : Option CreateSessionRequest} {overrides : SessionOverrides}
    (h : sessionOverrides codec query payload = .ok overrides) :
    overrides.extraChromeArgs = requestArgs codec query payload := by
  rw [sessionOverrides] at h
  rw [requestArgs]
  cases hlaunch : parseLaunchQuery codec query.launch with
  | error error =>
    rw [hlaunch] at h
    cases h
  | ok launch =>
    rw [hlaunch] at h
    cases h
    rfl

/-- A planned launch has its directory where it belongs. -/
theorem launchPlan_place {config : AppConfig} {overrides : SessionOverrides} {fresh : PathBuf}
    {plan : LaunchPlan}
    (h : (SessionPool.fromConfig config).launchPlan overrides fresh = .ok plan) :
    plan.dir = .temporary fresh ∨ ∃ base id, config.browser.profileStorageDir = some base ∧
      ProfileId id ∧ plan.dir = .persistent (base.join id) := by
  obtain ⟨options, hdir, -, hplan, -⟩ := launchPlan_ok h
  rw [hplan]
  obtain hnone | ⟨base, id, hbase, hid, hsome⟩ := userDataDir_fromConfig hdir
  · rw [hnone]
    exact .inl rfl
  · rw [hsome]
    exact .inr ⟨base, id, hbase, hid, rfl⟩

/-- The directory in force is the last that the server's or the request's arguments name, or else
the one that is prepared. -/
theorem launchPlan_inForce {codec : BodyCodec} {config : AppConfig} {query : SessionQuery}
    {payload : Option CreateSessionRequest} {overrides : SessionOverrides} {fresh : PathBuf}
    {plan : LaunchPlan} (hoverrides : sessionOverrides codec query payload = .ok overrides)
    (hplan : (SessionPool.fromConfig config).launchPlan overrides fresh = .ok plan) :
    userDataDirInForce plan.args =
      some ((userDataDirInForce (config.browser.additionalArgs ++
        requestArgs codec query payload)).getD plan.dir.path) := by
  obtain ⟨options, -, hargs, -, hplan⟩ := launchPlan_ok hplan
  rw [hplan, userDataDirInForce_chromeArgs, hargs, extraChromeArgs_of_request hoverrides]
  rfl

/-- The session of a request is confined exactly if neither the server's nor the request's arguments
name a user data directory, or the last that they name is the one that is prepared. -/
theorem profile_confined_iff {codec : BodyCodec} {config : AppConfig} {query : SessionQuery}
    {payload : Option CreateSessionRequest} {overrides : SessionOverrides} {fresh : PathBuf}
    {plan : LaunchPlan} (hoverrides : sessionOverrides codec query payload = .ok overrides)
    (hplan : (SessionPool.fromConfig config).launchPlan overrides fresh = .ok plan) :
    plan.Confined config fresh ↔
      ∀ dir ∈ userDataDirInForce (config.browser.additionalArgs ++
        requestArgs codec query payload), dir = plan.dir.path := by
  have hinForce := launchPlan_inForce hoverrides hplan
  constructor
  · intro hconfined dir hdir
    rw [hconfined.inForce, Option.mem_def.1 hdir, Option.some.injEq] at hinForce
    exact hinForce.symm
  · intro h
    refine ⟨?_, launchPlan_place hplan⟩
    rw [hinForce]
    cases hnamed : userDataDirInForce (config.browser.additionalArgs ++
        requestArgs codec query payload) with
    | none => rfl
    | some dir => exact congrArg some (h dir hnamed)

/-- A configuration with persistent profiles. -/
def profilesConfig : AppConfig :=
  { AppConfig.default with
    browser := { AppConfig.default.browser with
      profileStorageDir := some "/var/lib/eiger-profiles" } }

/-- A request for the profile `team`, with an argument for Chrome. -/
def teamRequest : CreateSessionRequest :=
  { stealthEnabled := none, extraChromeArgs := some ["--lang=de"], proxy := none,
    extensionPaths := none, persistentProfileId := some "team" }

/-- The theorem at this request: its session is confined to the profile's directory. -/
theorem profile_confined_iff_team :
    ∃ overrides plan,
      sessionOverrides (.reference emptyCodec) (.ofToken none) (some teamRequest) = .ok overrides ∧
      (SessionPool.fromConfig profilesConfig).launchPlan overrides "/tmp/eiger-chrome-1" =
        .ok plan ∧
      plan.dir = .persistent "/var/lib/eiger-profiles/team" ∧
      plan.Confined profilesConfig "/tmp/eiger-chrome-1" := by
  refine ⟨_, _, rfl, rfl, rfl, (@profile_confined_iff (.reference emptyCodec) profilesConfig
    (.ofToken none) (some teamRequest) _ _ _ rfl rfl).2 ?_⟩
  have hnone : userDataDirInForce (profilesConfig.browser.additionalArgs ++
      requestArgs (.reference emptyCodec) (.ofToken none) (some teamRequest)) = none := by decide
  rw [hnone]
  exact nofun

/-- A request with a user data directory among its arguments for Chrome. -/
def escapingRequest : CreateSessionRequest :=
  { stealthEnabled := none, extraChromeArgs := some ["--user-data-dir=/etc/chromium"],
    proxy := none, extensionPaths := none, persistentProfileId := none }

/-- Its session is not confined, though no persistent profiles are configured at all. -/
theorem profile_not_confined :
    ∃ overrides plan,
      sessionOverrides (.reference emptyCodec) (.ofToken none) (some escapingRequest) =
        .ok overrides ∧
      (SessionPool.fromConfig .default).launchPlan overrides "/tmp/eiger-chrome-1" = .ok plan ∧
      userDataDirInForce plan.args = some "/etc/chromium" ∧
      ¬ plan.Confined .default "/tmp/eiger-chrome-1" := by
  have hinForce := @launchPlan_inForce (.reference emptyCodec) .default (.ofToken none)
    (some escapingRequest) _ "/tmp/eiger-chrome-1" _ rfl rfl
  have hnamed : userDataDirInForce (AppConfig.default.browser.additionalArgs ++
      requestArgs (.reference emptyCodec) (.ofToken none) (some escapingRequest)) =
      some "/etc/chromium" := by decide
  rw [hnamed] at hinForce
  refine ⟨_, _, rfl, rfl, hinForce, fun hconfined => ?_⟩
  exact absurd (hinForce.symm.trans hconfined.inForce) (by decide)

end Eiger
