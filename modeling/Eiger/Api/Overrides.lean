import Eiger.Api.Query
import Eiger.Lib.Json
import Eiger.Pool.Types

/-!
# The overrides of a request

What a request asks of the browser that is launched for it. A session is created from a query string
and a body; `session_overrides` prefers the body, then the query, then the JSON text that the query
has under `launch`. The REST endpoints take the same query and a body of their own, and give
`rest_session_overrides` three of the five fields that a session's body may have.

So the other two have no effect there, though the typed client has all five in the requests of
either kind: `rest_overrides_iff` says when this makes no difference. How the libraries read a body
is a parameter, `BodyCodec`, with what is documented of it in `BodyCodec.Standard`.
-/

namespace Eiger

open Json Text

/-! ## Requests -/

/-- `CreateSessionRequest`. -/
structure CreateSessionRequest where
  stealthEnabled : Option Bool
  extraChromeArgs : Option (List String)
  proxy : Option String
  extensionPaths : Option (List PathBuf)
  persistentProfileId : Option String
  deriving DecidableEq, Repr

/-- The fields that the requests of the REST endpoints share, all of `ScrapeRequest`. -/
structure ScrapeRequest where
  url : String
  waitUntil : Option String
  timeoutMs : Option Nat
  proxy : Option String
  extensionPaths : Option (List PathBuf)
  persistentProfileId : Option String
  deriving DecidableEq, Repr

/-- `ScreenshotRequest`, without what only the capture reads. -/
structure ScreenshotRequest extends ScrapeRequest where
  format : Option String
  deriving DecidableEq, Repr

/-- `PdfRequest`, without what only the printing reads. -/
structure PdfRequest extends ScrapeRequest where
  width : Option Nat
  height : Option Nat
  deriving DecidableEq, Repr

/-- `LaunchQuery`. -/
structure LaunchQuery where
  args : Option (List String)
  stealth : Option Bool
  proxy : Option String
  extensionPaths : Option (List PathBuf)
  persistentProfileId : Option String
  deriving DecidableEq, Repr

/-- How the libraries read JSON texts, and requests from JSON values. -/
structure BodyCodec where
  json : Codec
  launch : Value → Except String LaunchQuery
  createSession : Value → Except String CreateSessionRequest
  scrape : Value → Except String ScrapeRequest
  screenshot : Value → Except String ScreenshotRequest
  pdf : Value → Except String PdfRequest

/-! ## What is asked of the browser -/

/-- `parse_query_extension_paths`. -/
def parseQueryExtensionPaths (value : Option String) : List PathBuf :=
  match value with
  | some value => commaSeparated value
  | none => []

/-- `clean_extension_paths`. -/
def cleanExtensionPaths (paths : List PathBuf) : List PathBuf := paths.filter (· ≠ "")

/-- `trimmed_optional`. -/
def trimmedOptional (value : Option String) : Option String := (value.map trim).filter (· ≠ "")

/-- `parse_launch_query`. -/
def parseLaunchQuery (codec : BodyCodec) (rawLaunch : Option String) :
    Except String (Option LaunchQuery) :=
  match rawLaunch.filter (!isBlank ·) with
  | none => .ok none
  | some rawLaunch =>
    match codec.json.fromStr rawLaunch with
    | .error error => .error ("invalid launch query JSON: " ++ error)
    | .ok value =>
      match codec.launch value with
      | .error error => .error ("invalid launch query shape: " ++ error)
      | .ok launch => .ok (some launch)

/-- The overrides that `session_overrides` derives once the launch query is parsed. -/
def overridesOf (query : SessionQuery) (launch : Option LaunchQuery)
    (payload : Option CreateSessionRequest) : SessionOverrides :=
  let extraChromeArgs := (launch.bind (·.args)).getD []
  let payloadStealth := payload.bind (·.stealthEnabled)
  let queryStealth := query.stealth.or (launch.bind (·.stealth))
  let payloadProxy := payload.bind fun payload => trimmedOptional payload.proxy
  let queryProxy :=
    (trimmedOptional query.proxy).or (launch.bind fun launch => trimmedOptional launch.proxy)
  let payloadExtensionPaths :=
    ((payload.bind (·.extensionPaths)).map cleanExtensionPaths).getD []
  let queryExtensionPaths := parseQueryExtensionPaths query.extensionPaths
  let launchExtensionPaths := ((launch.bind (·.extensionPaths)).map cleanExtensionPaths).getD []
  let extensionPaths :=
    if payloadExtensionPaths ≠ [] then payloadExtensionPaths
    else if queryExtensionPaths ≠ [] then queryExtensionPaths
    else launchExtensionPaths
  let payloadProfileId := payload.bind fun payload => trimmedOptional payload.persistentProfileId
  let queryProfileId :=
    (trimmedOptional query.persistentProfileId).or
      (launch.bind fun launch => trimmedOptional launch.persistentProfileId)
  { stealthEnabled := payloadStealth.or queryStealth
    extraChromeArgs := extraChromeArgs ++ (payload.bind (·.extraChromeArgs)).getD []
    proxy := payloadProxy.or queryProxy
    extensionPaths
    persistentProfileId := payloadProfileId.or queryProfileId }

/-- `session_overrides`. -/
def sessionOverrides (codec : BodyCodec) (query : SessionQuery)
    (payload : Option CreateSessionRequest) : Except String SessionOverrides :=
  (parseLaunchQuery codec query.launch).map (overridesOf query · payload)

/-- `rest_session_overrides`. -/
def restSessionOverrides (codec : BodyCodec) (query : SessionQuery) (proxy : Option String)
    (extensionPaths : Option (List PathBuf)) (persistentProfileId : Option String) :
    Except String SessionOverrides :=
  let payload :=
    if proxy.isSome || extensionPaths.isSome || persistentProfileId.isSome then
      some { stealthEnabled := none, extraChromeArgs := none, proxy, extensionPaths,
             persistentProfileId }
    else none
  sessionOverrides codec query payload

/-- The overrides with which a REST endpoint launches a browser. -/
def ScrapeRequest.overrides (request : ScrapeRequest) (codec : BodyCodec) (query : SessionQuery) :
    Except String SessionOverrides :=
  restSessionOverrides codec query request.proxy request.extensionPaths
    request.persistentProfileId

/-! ## The client's requests -/

/-- `BrowserOverrides` of the typed client. -/
structure BrowserOverrides where
  stealthEnabled : Option Bool
  extraChromeArgs : Option (List String)
  proxy : Option String
  extensionPaths : Option (List PathBuf)
  persistentProfileId : Option String
  deriving DecidableEq, Repr

/-- The fields of `BrowserOverrides` in JSON: those that are present. -/
def BrowserOverrides.fields (o : BrowserOverrides) : List (String × Value) :=
  (o.stealthEnabled.map fun b => ("stealthEnabled", .bool b)).toList ++
    (o.extraChromeArgs.map fun args => ("extraChromeArgs", .array (args.map .string))).toList ++
    (o.proxy.map fun proxy => ("proxy", .string proxy)).toList ++
    (o.extensionPaths.map fun paths => ("extensionPaths", .array (paths.map .string))).toList ++
    (o.persistentProfileId.map fun id => ("persistentProfileId", .string id)).toList

/-- The body of `POST /sessions` that asks for these overrides. -/
def BrowserOverrides.body (o : BrowserOverrides) : Value := .object o.fields

/-- The body asks for these overrides, among other things. -/
def BrowserOverrides.In (o : BrowserOverrides) (body : Value) : Prop :=
  ∀ key ∈ ["stealthEnabled", "extraChromeArgs", "proxy", "extensionPaths", "persistentProfileId"],
    body.get key = o.body.get key

/-- What a REST endpoint's request is read from in its body. -/
def ScrapeRequest.ReadFrom (request : ScrapeRequest) (body : Value) : Prop :=
  body.optional Value.asStr "proxy" = some request.proxy ∧
    body.optional Value.asStrings "extensionPaths" = some request.extensionPaths ∧
    body.optional Value.asStr "persistentProfileId" = some request.persistentProfileId

/-- What is documented of the libraries: a record's fields are read under their names in camel case,
an optional one may be missing or null, and fields that the record has not are ignored. -/
structure BodyCodec.Standard (codec : BodyCodec) : Prop where
  createSession : ∀ body request, codec.createSession body = .ok request →
    body.optional Value.asBool "stealthEnabled" = some request.stealthEnabled ∧
      body.optional Value.asStrings "extraChromeArgs" = some request.extraChromeArgs ∧
      body.optional Value.asStr "proxy" = some request.proxy ∧
      body.optional Value.asStrings "extensionPaths" = some request.extensionPaths ∧
      body.optional Value.asStr "persistentProfileId" = some request.persistentProfileId
  scrape : ∀ body request, codec.scrape body = .ok request → request.ReadFrom body
  screenshot : ∀ body request, codec.screenshot body = .ok request →
    request.toScrapeRequest.ReadFrom body
  pdf : ∀ body request, codec.pdf body = .ok request → request.toScrapeRequest.ReadFrom body

namespace BodyCodec

/-- What is read, or an error. -/
def orInvalid {α : Type} : Option α → Except String α
  | some a => .ok a
  | none => .error "invalid type"

/-- The request that the REST endpoints share. -/
def readScrape (body : Value) : Option ScrapeRequest := do
  return {
    url := ← (body.get "url").bind Value.asStr
    waitUntil := ← body.optional Value.asStr "waitUntil"
    timeoutMs := ← body.optional Value.asU64 "timeoutMs"
    proxy := ← body.optional Value.asStr "proxy"
    extensionPaths := ← body.optional Value.asStrings "extensionPaths"
    persistentProfileId := ← body.optional Value.asStr "persistentProfileId" }

/-- A codec that is standard, but for the texts of its errors. -/
def reference (json : Codec) : BodyCodec :=
  { json
    launch := fun value => orInvalid do
      return {
        args := ← value.optional Value.asStrings "args"
        stealth := ← value.optional Value.asBool "stealth"
        proxy := ← value.optional Value.asStr "proxy"
        extensionPaths := ← value.optional Value.asStrings "extensionPaths"
        persistentProfileId := ← value.optional Value.asStr "persistentProfileId" }
    createSession := fun body => orInvalid do
      return {
        stealthEnabled := ← body.optional Value.asBool "stealthEnabled"
        extraChromeArgs := ← body.optional Value.asStrings "extraChromeArgs"
        proxy := ← body.optional Value.asStr "proxy"
        extensionPaths := ← body.optional Value.asStrings "extensionPaths"
        persistentProfileId := ← body.optional Value.asStr "persistentProfileId" }
    scrape := fun body => orInvalid (readScrape body)
    screenshot := fun body => orInvalid do
      return {
        toScrapeRequest := ← readScrape body
        format := ← body.optional Value.asStr "format" }
    pdf := fun body => orInvalid do
      return {
        toScrapeRequest := ← readScrape body
        width := ← body.optional Value.asU64 "width"
        height := ← body.optional Value.asU64 "height" } }

/-- What is read is what could be. -/
theorem orInvalid_eq_ok_iff {α : Type} {read : Option α} {a : α} :
    orInvalid read = .ok a ↔ read = some a := by
  cases read <;> simp [orInvalid]

/-- A request is read from its body. -/
theorem readFrom_of_readScrape {body : Value} {request : ScrapeRequest}
    (h : readScrape body = some request) : request.ReadFrom body := by
  simp only [readScrape, Option.bind_eq_bind, Option.bind_eq_some_iff] at h
  obtain ⟨_, _, _, _, _, _, proxy, hproxy, paths, hpaths, id, hid, hrequest⟩ := h
  cases hrequest
  exact ⟨hproxy, hpaths, hid⟩

/-- The reference is standard. -/
theorem standard_reference (json : Codec) : (reference json).Standard where
  createSession body request h := by
    have h := orInvalid_eq_ok_iff.1 h
    simp only [Option.bind_eq_bind, Option.bind_eq_some_iff] at h
    obtain ⟨stealth, hstealth, args, hargs, proxy, hproxy, paths, hpaths, id, hid, hrequest⟩ := h
    cases hrequest
    exact ⟨hstealth, hargs, hproxy, hpaths, hid⟩
  scrape body request h := readFrom_of_readScrape (orInvalid_eq_ok_iff.1 h)
  screenshot body request h := by
    have h := orInvalid_eq_ok_iff.1 h
    simp only [Option.bind_eq_bind, Option.bind_eq_some_iff] at h
    obtain ⟨scrape, hscrape, _, _, hrequest⟩ := h
    cases hrequest
    exact readFrom_of_readScrape hscrape
  pdf body request h := by
    have h := orInvalid_eq_ok_iff.1 h
    simp only [Option.bind_eq_bind, Option.bind_eq_some_iff] at h
    obtain ⟨scrape, hscrape, _, _, _, _, hrequest⟩ := h
    cases hrequest
    exact readFrom_of_readScrape hscrape

end BodyCodec

/-- The client's body has each field under its name, if it is present. -/
theorem BrowserOverrides.optional_body (o : BrowserOverrides) :
    o.body.optional Value.asBool "stealthEnabled" = some o.stealthEnabled ∧
      o.body.optional Value.asStrings "extraChromeArgs" = some o.extraChromeArgs ∧
      o.body.optional Value.asStr "proxy" = some o.proxy ∧
      o.body.optional Value.asStrings "extensionPaths" = some o.extensionPaths ∧
      o.body.optional Value.asStr "persistentProfileId" = some o.persistentProfileId := by
  refine ⟨Value.optional_of_get (f := .bool) ?_ (fun _ => rfl) rfl,
    Value.optional_of_get (f := fun args => .array (args.map .string)) ?_ Value.asStrings_map rfl,
    Value.optional_of_get (f := .string) ?_ (fun _ => rfl) rfl,
    Value.optional_of_get (f := fun paths => .array (paths.map .string)) ?_ Value.asStrings_map rfl,
    Value.optional_of_get (f := .string) ?_ (fun _ => rfl) rfl⟩
  all_goals simp [body, fields, Value.get, List.lookup_append, Value.lookup_field]

/-! ## The two ways to launch a browser -/

section

variable {codec : BodyCodec}

/-- A request that is read from a body with these overrides has them, as far as it has fields. -/
theorem ScrapeRequest.ReadFrom.fields_eq {request : ScrapeRequest} {body : Value}
    {o : BrowserOverrides} (h : request.ReadFrom body) (ho : o.In body) :
    request.proxy = o.proxy ∧ request.extensionPaths = o.extensionPaths ∧
      request.persistentProfileId = o.persistentProfileId := by
  obtain ⟨hproxy, hpaths, hid⟩ := h
  obtain ⟨-, -, hproxy', hpaths', hid'⟩ := o.optional_body
  rw [Value.optional, ho _ (by simp)] at hproxy hpaths hid
  exact ⟨Option.some.inj (hproxy.symm.trans hproxy'), Option.some.inj (hpaths.symm.trans hpaths'),
    Option.some.inj (hid.symm.trans hid')⟩

/-- The request that is read from the client's body has its overrides. -/
theorem BodyCodec.Standard.createSession_eq (hcodec : codec.Standard) {o : BrowserOverrides}
    {create : CreateSessionRequest} (h : codec.createSession o.body = .ok create) :
    create = ⟨o.stealthEnabled, o.extraChromeArgs, o.proxy, o.extensionPaths,
      o.persistentProfileId⟩ := by
  obtain ⟨hstealth, hargs, hproxy, hpaths, hid⟩ := hcodec.createSession _ _ h
  obtain ⟨hstealth', hargs', hproxy', hpaths', hid'⟩ := o.optional_body
  rw [← Option.some.inj (hstealth.symm.trans hstealth'),
    ← Option.some.inj (hargs.symm.trans hargs'), ← Option.some.inj (hproxy.symm.trans hproxy'),
    ← Option.some.inj (hpaths.symm.trans hpaths'), ← Option.some.inj (hid.symm.trans hid')]

/-- A REST endpoint's overrides are those of a session's body with three fields. -/
theorem restSessionOverrides_eq (query : SessionQuery) (proxy : Option String)
    (paths : Option (List PathBuf)) (id : Option String) :
    restSessionOverrides codec query proxy paths id =
      sessionOverrides codec query (some ⟨none, none, proxy, paths, id⟩) := by
  rw [restSessionOverrides]
  split
  · rfl
  · next hnone =>
    simp only [Bool.or_eq_true, Option.isSome_iff_ne_none, ne_eq, not_or, not_not] at hnone
    obtain ⟨⟨rfl, rfl⟩, rfl⟩ := hnone
    rfl

/-- The launch query cannot be parsed, or the overrides have no `stealthEnabled` but what the query
or its launch selects, and no Chrome arguments. -/
def BrowserOverrides.Carried (o : BrowserOverrides) (codec : BodyCodec) (query : SessionQuery) :
    Prop :=
  match parseLaunchQuery codec query.launch with
  | .error _ => True
  | .ok launch =>
    (o.stealthEnabled = none ∨
        o.stealthEnabled = query.stealth.or (launch.bind (·.stealth))) ∧
      o.extraChromeArgs.getD [] = []

/-- Without the two fields, the same overrides are derived just if the fields add nothing. -/
theorem overridesOf_eq_iff {query : SessionQuery} {launch : Option LaunchQuery}
    {stealth : Option Bool} {args : Option (List String)} {proxy : Option String}
    {paths : Option (List PathBuf)} {id : Option String} :
    overridesOf query launch (some ⟨none, none, proxy, paths, id⟩) =
        overridesOf query launch (some ⟨stealth, args, proxy, paths, id⟩) ↔
      (stealth = none ∨ stealth = query.stealth.or (launch.bind (·.stealth))) ∧
        args.getD [] = [] := by
  simp only [overridesOf, SessionOverrides.mk.injEq, and_true, Option.bind_some, Option.none_or,
    Option.getD_none, List.append_nil]
  refine and_congr ?_ ?_
  · cases stealth with
    | none => simp
    | some b => exact ⟨fun h => .inr h.symm, fun h => (h.resolve_left nofun).symm⟩
  · exact (List.self_eq_append_right).trans Iff.rfl

/-- A request of a REST endpoint launches a browser as a session with the same overrides. -/
theorem ScrapeRequest.overrides_eq_iff (hcodec : codec.Standard) {query : SessionQuery}
    {o : BrowserOverrides} {create : CreateSessionRequest}
    (hcreate : codec.createSession o.body = .ok create) {request : ScrapeRequest} {body : Value}
    (ho : o.In body) (h : request.ReadFrom body) :
    request.overrides codec query = sessionOverrides codec query (some create) ↔
      o.Carried codec query := by
  obtain ⟨hproxy, hpaths, hid⟩ := h.fields_eq ho
  rw [ScrapeRequest.overrides, restSessionOverrides_eq, hproxy, hpaths, hid,
    hcodec.createSession_eq hcreate, sessionOverrides, sessionOverrides, BrowserOverrides.Carried]
  cases parseLaunchQuery codec query.launch with
  | error error => exact iff_of_true rfl trivial
  | ok launch =>
    show Except.ok _ = Except.ok _ ↔ _
    rw [Except.ok.injEq]
    exact overridesOf_eq_iff

end

/-- **The REST endpoints honour the overrides of a session** just if the launch query cannot be
parsed, or the overrides select the stealth that the query or its launch selects, or none, and have
no Chrome arguments. -/
theorem rest_overrides_iff {codec : BodyCodec} (hcodec : codec.Standard) (query : SessionQuery)
    (o : BrowserOverrides) {create : CreateSessionRequest}
    (hcreate : codec.createSession o.body = .ok create) {body : Value} (ho : o.In body) :
    (∀ scrape, codec.scrape body = .ok scrape →
      (scrape.overrides codec query = sessionOverrides codec query (some create) ↔
        o.Carried codec query)) ∧
    (∀ screenshot, codec.screenshot body = .ok screenshot →
      (screenshot.overrides codec query = sessionOverrides codec query (some create) ↔
        o.Carried codec query)) ∧
    (∀ pdf, codec.pdf body = .ok pdf →
      (pdf.overrides codec query = sessionOverrides codec query (some create) ↔
        o.Carried codec query)) :=
  ⟨fun _ h => ScrapeRequest.overrides_eq_iff hcodec hcreate ho (hcodec.scrape _ _ h),
    fun _ h => ScrapeRequest.overrides_eq_iff hcodec hcreate ho (hcodec.screenshot _ _ h),
    fun _ h => ScrapeRequest.overrides_eq_iff hcodec hcreate ho (hcodec.pdf _ _ h)⟩

/-- A library that reads no text. -/
def emptyCodec : Codec :=
  { fromStr := fun _ => .error "EOF while parsing a value at line 1 column 0"
    toString := fun _ => "null" }

/-- The body of a page request with overrides. -/
def pageBody (o : BrowserOverrides) : Value :=
  .object (("url", .string "https://example.com") :: o.fields)

/-- The theorem at a request for a proxy: all three endpoints use it. -/
theorem rest_overrides_iff_proxy :
    let o : BrowserOverrides := ⟨none, none, some "http://proxy:8080", none, none⟩
    (∀ scrape, (BodyCodec.reference emptyCodec).scrape (pageBody o) = .ok scrape →
      scrape.overrides (.reference emptyCodec) (.ofToken none) =
        .ok ⟨none, [], some "http://proxy:8080", [], none⟩) ∧
    (BodyCodec.reference emptyCodec).scrape (pageBody o) =
      .ok ⟨"https://example.com", none, none, some "http://proxy:8080", none, none⟩ := by
  have hcreate : (BodyCodec.reference emptyCodec).createSession
      (BrowserOverrides.body ⟨none, none, some "http://proxy:8080", none, none⟩) =
      .ok ⟨none, none, some "http://proxy:8080", none, none⟩ := by decide
  have hin : BrowserOverrides.In ⟨none, none, some "http://proxy:8080", none, none⟩
      (pageBody ⟨none, none, some "http://proxy:8080", none, none⟩) := by
    unfold BrowserOverrides.In
    decide
  obtain ⟨hscrape, -, -⟩ := rest_overrides_iff (BodyCodec.standard_reference emptyCodec)
    (.ofToken none) _ hcreate hin
  exact ⟨fun scrape h => (hscrape scrape h).2 ⟨.inl rfl, rfl⟩, by decide⟩

/-- A session's body with a Chrome argument launches a browser with it, the same body of a REST
endpoint one without it. -/
theorem rest_overrides_differ :
    let o : BrowserOverrides := ⟨some false, some ["--lang=de"], none, none, none⟩
    ((BodyCodec.reference emptyCodec).createSession o.body).bind
        (sessionOverrides (.reference emptyCodec) (.ofToken none) ∘ some) =
      .ok ⟨some false, ["--lang=de"], none, [], none⟩ ∧
    ((BodyCodec.reference emptyCodec).scrape (pageBody o)).bind
        (·.overrides (.reference emptyCodec) (.ofToken none)) = .ok ⟨none, [], none, [], none⟩ := by
  exact ⟨by decide, by decide⟩

end Eiger
