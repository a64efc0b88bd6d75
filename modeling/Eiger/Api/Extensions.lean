import Eiger.Api.Overrides
import Eiger.Browser.CommandLine

/-!
# The extensions that Chrome loads

A request names the directories of extensions in a JSON list, in its body or its launch value, or in
its query, where a comma separates them. `chrome_args` joins them by commas in the value of
`--load-extension`, which Chrome splits at commas again, and of `--disable-extensions-except`.
A comma in a path is not escaped, and none is rejected in a JSON list, while a query cannot have one
in a path. So Chrome gets back the list that was asked for just where the list that is used has no
comma in any of its paths (`extensions_round_trip_iff`).
-/

namespace Eiger

open Text

/-- Chrome gets the list from the command line: `chrome_args` writes each of the two switches once,
ahead of the additional arguments, both with a value that is split into the list at its commas. -/
def RoundTrip (dir : PathBuf) (options : ChromeLaunchOptions) : Prop :=
  ∃ value,
    switchValues "--load-extension" (chromeArgs dir options) =
      value :: switchValues "--load-extension" options.additionalArgs ∧
    switchValues "--disable-extensions-except" (chromeArgs dir options) =
      value :: switchValues "--disable-extensions-except" options.additionalArgs ∧
    splitChar ',' value = options.extensionPaths

/-- Chrome loads the extensions of the list and no others: the values in force, the last ones, are
the same and are split into it. -/
def LoadsExactly (dir : PathBuf) (options : ChromeLaunchOptions) : Prop :=
  ∃ value,
    (switchValues "--load-extension" (chromeArgs dir options)).getLast? = some value ∧
    (switchValues "--disable-extensions-except" (chromeArgs dir options)).getLast? = some value ∧
    splitChar ',' value = options.extensionPaths

/-- The overrides are those of a request with this list in its body, and this query. -/
def Requested (codec : BodyCodec) (query : SessionQuery) (body : Option (List PathBuf))
    (overrides : SessionOverrides) : Prop :=
  (∃ payload, Option.bind payload CreateSessionRequest.extensionPaths = body ∧
    sessionOverrides codec query payload = .ok overrides) ∨
  ∃ proxy profileId, restSessionOverrides codec query proxy body profileId = .ok overrides

/-- No path has a comma. -/
def CommaFree (paths : List PathBuf) : Prop := ∀ path ∈ paths, ',' ∉ path.toList

/-- The list that is used has no comma: not the one in the body; and where this has no path, and the
query none either, not the one in the launch value. -/
def RequestCommaFree (codec : BodyCodec) (query : SessionQuery) (body : Option (List PathBuf)) :
    Prop :=
  CommaFree (body.getD []) ∧
    ((∀ path ∈ body.getD [], path = "") → parseQueryExtensionPaths query.extensionPaths = [] →
      ∀ launch, parseLaunchQuery codec query.launch = .ok (some launch) →
        CommaFree (launch.extensionPaths.getD []))

/-! ## The lists of a request -/

section

variable {codec : BodyCodec} {query : SessionQuery} {body : Option (List PathBuf)}
  {overrides : SessionOverrides}

/-- An empty path has no comma, so leaving it out makes no difference. -/
theorem commaFree_clean {paths : List PathBuf} :
    CommaFree (cleanExtensionPaths paths) ↔ CommaFree paths := by
  constructor
  · intro h path hpath
    cases hempty : decide (path = "") with
    | true =>
      rw [of_decide_eq_true hempty]
      exact List.not_mem_nil
    | false => exact h path (List.mem_filter.2 ⟨hpath, by simpa using hempty⟩)
  · exact fun h path hpath => h path (List.mem_filter.1 hpath).1

/-- The paths of a query have none. -/
theorem commaFree_query (value : Option String) : CommaFree (parseQueryExtensionPaths value) := by
  intro path hpath
  cases value with
  | none => cases hpath
  | some value =>
    obtain ⟨part, hpart, rfl⟩ := List.mem_map.1 (List.mem_filter.1 hpath).1
    intro hcomma
    have hmem := mem_of_mem_trim hcomma
    rw [String.toList_ofList] at hmem
    exact not_mem_of_mem_splitOn part hpart hmem

/-- Which list is used of a request. -/
theorem requested_paths (h : Requested codec query body overrides) :
    ∃ launch, parseLaunchQuery codec query.launch = .ok launch ∧
      overrides.extensionPaths =
        if cleanExtensionPaths (body.getD []) ≠ [] then cleanExtensionPaths (body.getD [])
        else if parseQueryExtensionPaths query.extensionPaths ≠ [] then
          parseQueryExtensionPaths query.extensionPaths
        else cleanExtensionPaths ((launch.bind (·.extensionPaths)).getD []) := by
  have hclean (paths : Option (List PathBuf)) :
      (paths.map cleanExtensionPaths).getD [] = cleanExtensionPaths (paths.getD []) := by
    cases paths <;> rfl
  have hrequest : ∃ payload, Option.bind payload CreateSessionRequest.extensionPaths = body ∧
      sessionOverrides codec query payload = .ok overrides := by
    obtain hcreate | ⟨proxy, profileId, hrest⟩ := h
    · exact hcreate
    · refine ⟨_, ?_, hrest⟩
      cases proxy <;> cases body <;> cases profileId <;> rfl
  obtain ⟨payload, rfl, hoverrides⟩ := hrequest
  rw [sessionOverrides] at hoverrides
  cases hlaunch : parseLaunchQuery codec query.launch with
  | error e =>
    rw [hlaunch] at hoverrides
    cases hoverrides
  | ok launch =>
    rw [hlaunch] at hoverrides
    cases hoverrides
    refine ⟨launch, rfl, ?_⟩
    rw [← hclean, ← hclean]
    rfl

/-- The list that is used has no comma just where the request says so. -/
theorem requestCommaFree_iff (h : Requested codec query body overrides) :
    RequestCommaFree codec query body ↔ CommaFree overrides.extensionPaths := by
  obtain ⟨launch, hlaunch, hpaths⟩ := requested_paths h
  rw [hpaths, RequestCommaFree]
  split
  · next hbody =>
    rw [commaFree_clean]
    refine and_iff_left fun hempty => (hbody ?_).elim
    exact List.filter_eq_nil_iff.2 fun path hpath => by simp [hempty path hpath]
  · next hbody =>
    have hempty : ∀ path ∈ body.getD [], path = "" := fun path hpath => by
      simpa using List.filter_eq_nil_iff.1 (not_not.1 hbody) path hpath
    have hfree : CommaFree (body.getD []) := by
      intro path hpath
      rw [hempty path hpath]
      exact List.not_mem_nil
    split
    · next hquery =>
      exact iff_of_true ⟨hfree, fun _ hnone => (hquery hnone).elim⟩ (commaFree_query _)
    · next hquery =>
      rw [commaFree_clean, hlaunch]
      refine ⟨fun hrequest => ?_, fun hused => ⟨hfree, fun _ _ launch' heq => ?_⟩⟩
      · cases launch with
        | none => exact nofun
        | some launch => exact hrequest.2 hempty (not_not.1 hquery) launch rfl
      · cases heq
        exact hused

end

/-! ## The two switches -/

section

variable {name : String} {dir : PathBuf} {options : ChromeLaunchOptions}

/-- The paths are joined in one value, which is given to each of the two switches once, ahead of the
additional arguments. -/
theorem extensionValues_chromeArgs (hne : options.extensionPaths ≠ [])
    (hname : name = "--load-extension" ∨ name = "--disable-extensions-except") :
    switchValues name (chromeArgs dir options) =
      ",".intercalate options.extensionPaths :: switchValues name options.additionalArgs := by
  have hmanaged : switchValues name (managedArgs dir) = [] := by
    rw [switchValues_managedArgs dir (by obtain rfl | rfl := hname <;> decide)]
    refine switchValues_eq_nil (List.forall_mem_singleton.2 (switchOf_apart ?_ dir))
    obtain rfl | rfl := hname <;> decide
  have hextensions : switchValues name (extensionArgs options.extensionPaths) =
      [",".intercalate options.extensionPaths] := by
    have hload (value : String) :
        switchOf "--load-extension" ("--load-extension=" ++ value) = some value :=
      switchOf_append "--load-extension" value
    have hexcept (value : String) : switchOf "--disable-extensions-except"
        ("--disable-extensions-except=" ++ value) = some value :=
      switchOf_append "--disable-extensions-except" value
    rw [extensionArgs, if_neg hne, switchValues]
    obtain rfl | rfl := hname
    · rw [List.filterMap_cons_none (by decide), List.filterMap_cons_none (by decide),
        List.filterMap_cons_some (hload _),
        List.filterMap_cons_none (switchOf_apart (by decide) _), List.filterMap_nil]
    · rw [List.filterMap_cons_none (by decide), List.filterMap_cons_none (by decide),
        List.filterMap_cons_none (switchOf_apart (by decide) _),
        List.filterMap_cons_some (hexcept _), List.filterMap_nil]
  have hargs : switchValues name (chromeArgs dir options) = _ :=
    switchValues_chromeArgs dir options
      (by obtain rfl | rfl := hname <;> decide) (by obtain rfl | rfl := hname <;> decide)
  rw [hargs, hmanaged, hextensions]
  rfl

/-- Chrome gets the list where none of its paths has a comma. -/
theorem roundTrip_iff (hne : options.extensionPaths ≠ []) :
    RoundTrip dir options ↔ CommaFree options.extensionPaths := by
  rw [CommaFree, ← splitChar_intercalate_iff (by decide : ",".toList = [',']) hne, RoundTrip,
    extensionValues_chromeArgs hne (.inl rfl), extensionValues_chromeArgs hne (.inr rfl)]
  constructor
  · rintro ⟨value, hload, -, hsplit⟩
    cases hload
    exact hsplit
  · exact fun hsplit => ⟨_, rfl, rfl, hsplit⟩

/-- It then loads the extensions of the list, where the last of each switch among the additional
arguments, if there is one, has just the value that is written. -/
theorem loadsExactly_iff (hne : options.extensionPaths ≠ []) :
    LoadsExactly dir options ↔ CommaFree options.extensionPaths ∧
      (∀ value ∈ (switchValues "--load-extension" options.additionalArgs).getLast?,
        value = ",".intercalate options.extensionPaths) ∧
      ∀ value ∈ (switchValues "--disable-extensions-except" options.additionalArgs).getLast?,
        value = ",".intercalate options.extensionPaths := by
  have hlast (last : Option String) (joined : String) :
      last.getD joined = joined ↔ ∀ value ∈ last, value = joined := by
    cases last with
    | none => simp
    | some value => simp
  have hcomma : ",".toList = [','] := by decide
  rw [CommaFree, ← splitChar_intercalate_iff hcomma hne, LoadsExactly,
    extensionValues_chromeArgs hne (.inl rfl), extensionValues_chromeArgs hne (.inr rfl),
    List.getLast?_cons, List.getLast?_cons, ← hlast, ← hlast]
  constructor
  · rintro ⟨value, hload, hexcept, hsplit⟩
    -- a value that splits into the list is the one that joins it
    obtain rfl : ",".intercalate options.extensionPaths = value := by
      rw [← hsplit, intercalate_splitChar hcomma]
    exact ⟨hsplit, Option.some.inj hload, Option.some.inj hexcept⟩
  · rintro ⟨hsplit, hload, hexcept⟩
    exact ⟨_, congrArg some hload, congrArg some hexcept, hsplit⟩

end

/-- **When the list of extensions comes through.** Whatever list of paths a request comes to, and
with whatever other options Chrome is launched, it gets that list back just where the list that is
used has no comma in any path; and it loads these extensions and no others just where, besides, the
last of each of the two switches among the additional arguments, if there is one, has the list
joined by commas for its value. -/
theorem extensions_round_trip_iff {codec : BodyCodec} {query : SessionQuery}
    {body : Option (List PathBuf)} {overrides : SessionOverrides} {dir : PathBuf}
    {options : ChromeLaunchOptions} (h : Requested codec query body overrides)
    (hne : overrides.extensionPaths ≠ [])
    (hoptions : options.extensionPaths = overrides.extensionPaths) :
    (RoundTrip dir options ↔ RequestCommaFree codec query body) ∧
      (LoadsExactly dir options ↔ RequestCommaFree codec query body ∧
        (∀ value ∈ (switchValues "--load-extension" options.additionalArgs).getLast?,
          value = ",".intercalate overrides.extensionPaths) ∧
        ∀ value ∈ (switchValues "--disable-extensions-except" options.additionalArgs).getLast?,
          value = ",".intercalate overrides.extensionPaths) := by
  rw [requestCommaFree_iff h, ← hoptions]
  rw [← hoptions] at hne
  exact ⟨roundTrip_iff hne, loadsExactly_iff hne⟩

/-- What Chrome is launched with, with these extensions. -/
def extensionOptions (extensionPaths : List PathBuf) : ChromeLaunchOptions :=
  { (SessionPool.fromConfig .default).browserOptions with extensionPaths }

/-- A query that names two extensions. -/
def extensionQuery : SessionQuery :=
  { SessionQuery.ofToken none with extensionPaths := some "/opt/one, /opt/two" }

/-- Both of them are loaded. -/
theorem extensions_round_trip_query :
    RoundTrip "/tmp/eiger-chrome-1" (extensionOptions ["/opt/one", "/opt/two"]) ∧
      LoadsExactly "/tmp/eiger-chrome-1" (extensionOptions ["/opt/one", "/opt/two"]) := by
  have hrequested : Requested (.reference emptyCodec) extensionQuery none
      { SessionOverrides.default with extensionPaths := ["/opt/one", "/opt/two"] } :=
    .inl ⟨none, rfl, by decide⟩
  have hfree : RequestCommaFree (.reference emptyCodec) extensionQuery none :=
    ⟨fun _ => nofun, fun _ hnone => absurd hnone (by decide)⟩
  obtain ⟨hround, hloads⟩ := @extensions_round_trip_iff _ _ _ _ "/tmp/eiger-chrome-1"
    (extensionOptions ["/opt/one", "/opt/two"]) hrequested (by decide) rfl
  exact ⟨hround.2 hfree, hloads.2 ⟨hfree, by decide, by decide⟩⟩

/-- A body that names one extension, in a directory with a comma in its name. -/
def commaRequest : CreateSessionRequest :=
  { stealthEnabled := none, extraChromeArgs := none, proxy := none,
    extensionPaths := some ["/opt/one,two"], persistentProfileId := none }

/-- Chrome is told of two others. -/
theorem extensions_not_round_trip :
    ∃ overrides,
      sessionOverrides (.reference emptyCodec) (.ofToken none) (some commaRequest) =
        .ok overrides ∧
      overrides.extensionPaths = ["/opt/one,two"] ∧
      ¬ RoundTrip "/tmp/eiger-chrome-1" (extensionOptions ["/opt/one,two"]) ∧
      (switchValues "--load-extension"
        (chromeArgs "/tmp/eiger-chrome-1" (extensionOptions ["/opt/one,two"]))).map
          (splitChar ',') = [["/opt/one", "two"]] := by
  have hne : (extensionOptions ["/opt/one,two"]).extensionPaths ≠ [] := List.cons_ne_nil _ _
  refine ⟨_, rfl, by decide, ?_, ?_⟩
  · rw [roundTrip_iff hne]
    exact fun hfree => absurd (hfree _ List.mem_cons_self) (by decide)
  · rw [extensionValues_chromeArgs hne (.inl rfl)]
    decide

end Eiger
