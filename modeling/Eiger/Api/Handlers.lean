import Eiger.Api.Auth
import Eiger.Api.Navigation
import Eiger.Api.Overrides
import Eiger.Metrics.Exposition
import Eiger.Pool.System

/-!
# The handlers

`api_router` has eleven handlers. Each is translated to a `Handling`: the response it gives, or the
call of the pool that it makes with what it answers to what the pool returns. `Server.handle` takes
a request to the handler of its route, through the extractors that the handler asks for; the
libraries that route, extract and render are fields of `Server`.

A handling is carried out on a state of the pool: `Handles` is over any interleaving of the call
with everything else that runs. An unauthorized request is answered by the same response from every
state, which it leaves as it is: `unauthorized_handles_iff`.
-/

namespace Eiger

open Json Text Transition

/-! ## Responses -/

/-- The body of a response. -/
inductive Body where
  | empty
  | json (value : Value)
  | text (contentType content : String)
  | bytes (contentType : String) (content : List UInt8)
  deriving DecidableEq, Repr

/-- A response: its status and its body. -/
structure Response where
  status : Nat
  body : Body
  deriving DecidableEq, Repr

/-- `api_error`. -/
def apiError (status : Nat) (error : String) : Response :=
  { status, body := .json (.object [("error", .string error)]) }

/-- What every handler says to an unauthorized request. -/
def Response.unauthorized : Response := apiError 401 "unauthorized"

/-- `PoolError`'s `Display`. -/
def PoolError.text : PoolError → String
  | .atCapacity => "session pool is at capacity"
  | .capacityTimeout => "timed out waiting for browser capacity"
  | .notFound id => "session not found: " ++ id.hyphenated
  | .notConnectable id => "session is not connectable: " ++ id.hyphenated
  | .persistentProfilesDisabled =>
    "persistent profiles are disabled; set EIGER_PROFILE_STORAGE_DIR"
  | .invalidPersistentProfileId id => "invalid persistent profile id: " ++ id
  | .browser error => "browser launch failed: " ++ error.text

/-- `pool_error`. -/
def poolError (error : PoolError) : Response :=
  match error with
  | .atCapacity | .capacityTimeout => apiError 503 error.text
  | .persistentProfilesDisabled | .invalidPersistentProfileId _ => apiError 400 error.text
  | .notFound _ => apiError 404 error.text
  | .notConnectable _ => apiError 409 error.text
  | .browser _ => apiError 500 error.text

/-- `rest_endpoint_error`. -/
def restEndpointError : RestEndpointError → Response
  | .badRequest error => apiError 400 error
  | .pool error => poolError error
  | .cdpTimeout method => apiError 504 (method ++ " timed out")
  | .cdpWebSocket error => apiError 502 ("CDP websocket failed: " ++ error)
  | .cdpProtocol error => apiError 502 ("CDP command failed: " ++ error)
  | .invalidCdpResponse error => apiError 502 error
  | .decode error => apiError 502 ("CDP base64 decode failed: " ++ error)

/-- `SessionState`'s name in JSON. -/
def SessionState.jsonName : SessionState → String
  | .launching => "launching"
  | .ready => "ready"
  | .inUse => "inUse"
  | .draining => "draining"
  | .killing => "killing"
  | .dead => "dead"

/-- `SessionInfo`. The times are given as they are written, and the CPU share as its number. -/
structure SessionInfo where
  id : Uuid
  state : SessionState
  pid : Option Nat
  browserWsUrl : Option String
  createdAt : String
  lastUsedAt : String
  ageSeconds : Nat
  idleSeconds : Nat
  rssBytes : Option Nat
  cpuPercent : Option Number
  processCount : Option Nat
  killReason : Option String
  deriving DecidableEq, Repr

/-- An optional value, or `null`. -/
def optionalValue {α : Type} (write : α → Value) (value : Option α) : Value :=
  (value.map write).getD .null

/-- A session as JSON. -/
def SessionInfo.value (info : SessionInfo) : Value :=
  .object [("id", .string info.id.hyphenated), ("state", .string info.state.jsonName),
    ("pid", optionalValue (.number ∘ .posInt) info.pid), ("createdAt", .string info.createdAt),
    ("lastUsedAt", .string info.lastUsedAt), ("ageSeconds", .number (.posInt info.ageSeconds)),
    ("idleSeconds", .number (.posInt info.idleSeconds)),
    ("rssBytes", optionalValue (.number ∘ .posInt) info.rssBytes),
    ("cpuPercent", optionalValue .number info.cpuPercent),
    ("processCount", optionalValue (.number ∘ .posInt) info.processCount),
    ("killReason", optionalValue .string info.killReason)]

/-- `CreatedSessionResponse`, without the URL. -/
structure CreatedSession where
  id : Uuid
  pid : Nat
  createdAt : String
  deriving DecidableEq, Repr

/-- `ScrapeResponse`. -/
structure ScrapeResponse where
  html : String
  title : String
  url : String
  deriving DecidableEq, Repr

/-- A scraped page as JSON. -/
def ScrapeResponse.value (response : ScrapeResponse) : Value :=
  .object [("html", .string response.html), ("title", .string response.title),
    ("url", .string response.url)]

/-- `ScreenshotFormat`. -/
inductive ScreenshotFormat where
  | png
  | jpeg
  deriving DecidableEq, Repr

/-- `ScreenshotFormat::parse`. -/
def ScreenshotFormat.parse (value : Option String) : Except RestEndpointError ScreenshotFormat :=
  match value with
  | none => .ok .png
  | some value =>
    let name := toAsciiLowercase (trim value)
    if name = "png" then .ok .png
    else if name = "jpeg" ∨ name = "jpg" then .ok .jpeg
    else .error (.badRequest ("unsupported screenshot format: " ++ value))

/-- `ScreenshotFormat::content_type`. -/
def ScreenshotFormat.contentType : ScreenshotFormat → String
  | .png => "image/png"
  | .jpeg => "image/jpeg"

/-! ## Calls of the pool -/

/-- What a REST endpoint does with its session: a page is scraped, captured or printed. -/
inductive RestOperation where
  | scrape (options : PageLoadOptions)
  | screenshot (options : PageLoadOptions) (format : ScreenshotFormat)
  | pdf (options : PageLoadOptions) (printOptions : Value) (viewport : Nat × Nat)
  deriving DecidableEq, Repr

/-- What an operation results in. -/
def RestOperation.Output : RestOperation → Type
  | .scrape _ => ScrapeResponse
  | .screenshot .. => List UInt8
  | .pdf .. => List UInt8

/-- What a handler asks the pool for. `create` is `create_session` and the `get_session` after it in
`POST /sessions`, `rest` is `with_rest_session`. -/
inductive PoolCall where
  | create (overrides : SessionOverrides)
  | connectNew (overrides : SessionOverrides)
  | rest (overrides : SessionOverrides) (operation : RestOperation)
  | connectSession (id : Uuid)
  | terminateSession (id : Uuid)
  | getSession (id : Uuid)
  | listSessions
  | metrics
  deriving DecidableEq, Repr

/-- What a call returns. -/
def PoolCall.Reply : PoolCall → Type
  | .create _ => Except PoolError CreatedSession
  | .connectNew _ => Except PoolError Unit
  | .rest _ operation => Except RestEndpointError operation.Output
  | .connectSession _ => Except PoolError Unit
  | .terminateSession _ => Bool
  | .getSession _ => Option SessionInfo
  | .listSessions => List SessionInfo
  | .metrics => PoolMetrics

/-- The request that a call is to the pool. -/
def PoolCall.request : PoolCall → Request
  | .create overrides => .create .postSession overrides
  | .connectNew overrides => .create .connectNew overrides
  | .rest overrides _ => .create .rest overrides
  | .connectSession id => .connectExisting id
  | .terminateSession id => .delete id
  | .getSession _ => .inspect
  | .listSessions => .inspect
  | .metrics => .inspect

/-- How a handler goes on once it has what it extracts: it responds, or it calls the pool and
answers to what that returns. -/
inductive Handling where
  | respond (response : Response)
  | call (call : PoolCall) (answer : call.Reply → Response)

/-! ## Requests -/

/-- `Method`. -/
inductive Method where
  | get
  | head
  | post
  | delete
  | other (name : String)
  deriving DecidableEq, Repr

/-- A request. What only the extractors read of its headers is in `otherHeaders`. -/
structure HttpRequest where
  method : Method
  path : String
  rawQuery : String
  headers : HeaderMap
  otherHeaders : List (String × HeaderValue)
  body : List UInt8
  deriving DecidableEq, Repr

/-- The handlers that `api_router` has routes to, with what a route takes from the path. -/
inductive Route where
  | connectNewSession
  | metrics
  | scrape
  | screenshot
  | pdf
  | listSessions
  | createSession
  | viewSessions
  | getSession (id : String)
  | deleteSession (id : String)
  | connectExistingSession (id : String)
  deriving DecidableEq, Repr

/-- The route of a request in `api_router`, if it has one. `get` takes `HEAD` as well. -/
def HttpRequest.route (request : HttpRequest) : Option Route :=
  let get route := if request.method = .get ∨ request.method = .head then some route else none
  let post route := if request.method = .post then some route else none
  match (request.path.toList.splitOn '/').map String.ofList with
  | ["", ""] => get .connectNewSession
  | ["", "session"] => get .connectNewSession
  | ["", "metrics"] => get .metrics
  | ["", "scrape"] => post .scrape
  | ["", "screenshot"] => post .screenshot
  | ["", "pdf"] => post .pdf
  | ["", "sessions"] => (get .listSessions).or (post .createSession)
  | ["", "sessions", "view"] => get .viewSessions
  | ["", "sessions", id] =>
    if id = "" then none
    else (get (.getSession id)).or
      (if request.method = .delete then some (.deleteSession id) else none)
  | ["", "sessions", id, "cdp"] =>
    if id = "" then none else get (.connectExistingSession id)
  | _ => none

/-- The extractors of the handlers: what each makes of a request, or the response by which it
rejects it. `Query` is that of a `UrlCodec`. -/
structure Extractors where
  url : UrlCodec
  rejectQuery : String → Response
  sessionId : String → Except Response Uuid
  upgrade : HttpRequest → Except Response Unit
  createSession : HttpRequest → Except Response (Option CreateSessionRequest)
  scrape : HttpRequest → Except Response ScrapeRequest
  screenshot : HttpRequest → Except Response ScreenshotRequest
  pdf : HttpRequest → Except Response PdfRequest

/-- The router: `ApiState` without the pool, with the libraries. `pdfPrintOptions` is
`pdf_print_options`, whose numbers are floats, with what of the payload is not in a `PdfRequest`;
`sessionsPage` renders the page of `view_sessions`; `fallback` is the response to everything that
has no route, the API's documentation included. -/
structure Server where
  token : Option String
  codec : BodyCodec
  extractors : Extractors
  pdfPrintOptions : HttpRequest → PdfRequest → Nat × Nat → Except RestEndpointError Value
  sessionsPage : List SessionInfo → String
  fallback : HttpRequest → Response

namespace Server

variable (server : Server) (headers : HeaderMap) (query : SessionQuery)

/-! ## The handlers -/

/-- The response to a request for a page: what the operation results in, or its error. -/
def restAnswer {α : Type} (success : α → Response) : Except RestEndpointError α → Response
  | .ok output => success output
  | .error error => restEndpointError error

/-- The response to a request for a connection: it is upgraded, or told the error. -/
def upgradeAnswer : Except PoolError Unit → Response
  | .ok () => ⟨101, .empty⟩
  | .error error => poolError error

/-- `create_session`. -/
def createSession (payload : Option CreateSessionRequest) : Handling :=
  if ¬ authorized server.token headers query.token then .respond .unauthorized
  else
    match sessionOverrides server.codec query payload with
    | .error error => .respond (apiError 400 error)
    | .ok overrides =>
      .call (.create overrides) fun reply : Except PoolError CreatedSession =>
        match reply with
        | .ok created => ⟨201, .json (.object [("id", .string created.id.hyphenated),
            ("pid", .number (.posInt created.pid)),
            ("cdpWsUrl", .string (createdUrl server.extractors.url headers query created.id)),
            ("createdAt", .string created.createdAt)])⟩
        | .error error => poolError error

/-- `list_sessions`. -/
def listSessions : Handling :=
  if ¬ authorized server.token headers query.token then .respond .unauthorized
  else .call .listSessions fun sessions : List SessionInfo =>
    ⟨200, .json (.array (sessions.map SessionInfo.value))⟩

/-- `view_sessions`. -/
def viewSessions : Handling :=
  if ¬ authorized server.token headers query.token then .respond .unauthorized
  else .call .listSessions fun sessions : List SessionInfo =>
    ⟨200, .text "text/html; charset=utf-8" (server.sessionsPage sessions)⟩

/-- `get_session`. -/
def getSession (id : Uuid) : Handling :=
  if ¬ authorized server.token headers query.token then .respond .unauthorized
  else .call (.getSession id) fun reply : Option SessionInfo =>
    match reply with
    | some session => ⟨200, .json session.value⟩
    | none => apiError 404 "session not found"

/-- `delete_session`. -/
def deleteSession (id : Uuid) : Handling :=
  if ¬ authorized server.token headers query.token then .respond .unauthorized
  else .call (.terminateSession id) fun terminated : Bool =>
    if terminated then ⟨204, .empty⟩ else apiError 404 "session not found"

/-- `metrics`. -/
def metrics : Handling :=
  if ¬ authorized server.token headers query.token then .respond .unauthorized
  else .call .metrics fun metrics : PoolMetrics =>
    ⟨200, .text "text/plain; version=0.0.4" (renderPrometheus metrics)⟩

/-- `scrape`. -/
def scrape (payload : ScrapeRequest) : Handling :=
  if ¬ authorized server.token headers query.token then .respond .unauthorized
  else
    match pageLoadOptions payload.url payload.waitUntil payload.timeoutMs with
    | .error error => .respond (restEndpointError error)
    | .ok options =>
      match payload.overrides server.codec query with
      | .error error => .respond (apiError 400 error)
      | .ok overrides =>
        .call (.rest overrides (.scrape options))
          (restAnswer fun response : ScrapeResponse => ⟨200, .json response.value⟩)

/-- `screenshot`. -/
def screenshot (payload : ScreenshotRequest) : Handling :=
  if ¬ authorized server.token headers query.token then .respond .unauthorized
  else
    match pageLoadOptions payload.url payload.waitUntil payload.timeoutMs with
    | .error error => .respond (restEndpointError error)
    | .ok options =>
      match ScreenshotFormat.parse payload.format with
      | .error error => .respond (restEndpointError error)
      | .ok format =>
        match payload.overrides server.codec query with
        | .error error => .respond (apiError 400 error)
        | .ok overrides =>
          .call (.rest overrides (.screenshot options format))
            (restAnswer fun bytes : List UInt8 => ⟨200, .bytes format.contentType bytes⟩)

/-- `pdf`. -/
def pdf (request : HttpRequest) (payload : PdfRequest) : Handling :=
  if ¬ authorized server.token headers query.token then .respond .unauthorized
  else
    match pageLoadOptions payload.url payload.waitUntil payload.timeoutMs with
    | .error error => .respond (restEndpointError error)
    | .ok options =>
      let viewport := (payload.width.getD 1365, payload.height.getD 768)
      match server.pdfPrintOptions request payload viewport with
      | .error error => .respond (restEndpointError error)
      | .ok printOptions =>
        match payload.overrides server.codec query with
        | .error error => .respond (apiError 400 error)
        | .ok overrides =>
          .call (.rest overrides (.pdf options printOptions viewport))
            (restAnswer fun bytes : List UInt8 => ⟨200, .bytes "application/pdf" bytes⟩)

/-- `connect_new_session`. -/
def connectNewSession : Handling :=
  if ¬ authorized server.token headers query.token then .respond .unauthorized
  else
    match sessionOverrides server.codec query none with
    | .error error => .respond (apiError 400 error)
    | .ok overrides => .call (.connectNew overrides) upgradeAnswer

/-- `connect_existing_session`. -/
def connectExistingSession (id : Uuid) : Handling :=
  if ¬ authorized server.token headers query.token then .respond .unauthorized
  else .call (.connectSession id) upgradeAnswer

end Server

/-- A handler goes on with what an extractor makes of the request, or responds with its
rejection. -/
def extracting {α : Type} (extracted : Except Response α) (handler : α → Handling) : Handling :=
  match extracted with
  | .ok value => handler value
  | .error rejection => .respond rejection

/-- The handler of a route, with the extractors that it asks for, in their order. -/
def Server.dispatch (server : Server) (request : HttpRequest) (query : SessionQuery) :
    Route → Handling
  | .connectNewSession =>
    extracting (server.extractors.upgrade request) fun _ =>
      server.connectNewSession request.headers query
  | .metrics => server.metrics request.headers query
  | .scrape =>
    extracting (server.extractors.scrape request) (server.scrape request.headers query)
  | .screenshot =>
    extracting (server.extractors.screenshot request) (server.screenshot request.headers query)
  | .pdf =>
    extracting (server.extractors.pdf request) (server.pdf request.headers query request)
  | .listSessions => server.listSessions request.headers query
  | .createSession =>
    extracting (server.extractors.createSession request)
      (server.createSession request.headers query)
  | .viewSessions => server.viewSessions request.headers query
  | .getSession id =>
    extracting (server.extractors.sessionId id) (server.getSession request.headers query)
  | .deleteSession id =>
    extracting (server.extractors.sessionId id) (server.deleteSession request.headers query)
  | .connectExistingSession id =>
    extracting (server.extractors.sessionId id) fun id =>
      extracting (server.extractors.upgrade request) fun _ =>
        server.connectExistingSession request.headers query id

/-- `api_router`. -/
def Server.handle (server : Server) (request : HttpRequest) : Handling :=
  match request.route with
  | none => .respond (server.fallback request)
  | some route =>
    match server.extractors.url.extract request.rawQuery with
    | none => .respond (server.extractors.rejectQuery request.rawQuery)
    | some query => server.dispatch request query route

/-! ## Carrying a handling out -/

/-- A call whose task is `i` has returned this reply, by the state. -/
def PoolCall.Returned (i : Nat) (s : State) : (call : PoolCall) → call.Reply → Prop
  | .create overrides, reply => match (reply : Except PoolError CreatedSession) with
    | .ok created => s.tasks[i]? = some (.responding created.id .answering) ∧
        (s.memory.entryAt created.id).map (·.pid) = some created.pid
    | .error error => s.tasks[i]? = some (.creating .postSession overrides (.returned error))
  | .connectNew overrides, reply => match (reply : Except PoolError Unit) with
    | .ok () => ∃ id, s.tasks[i]? = some (.upgrading .created id)
    | .error error => s.tasks[i]? = some (.creating .connectNew overrides (.returned error))
  | .rest overrides operation, reply =>
    match (reply : Except RestEndpointError operation.Output) with
    | .error (.pool error) => s.tasks[i]? = some (.creating .rest overrides (.returned error))
    | _ => s.tasks[i]? = some .done
  | .connectSession id, reply => match (reply : Except PoolError Unit) with
    | .ok () => s.tasks[i]? = some (.upgrading .connected id)
    | .error error => s.tasks[i]? = some .done ∧ (error = .notFound id ∨ error = .notConnectable id)
  | .terminateSession _, _ => s.tasks[i]? = some .done
  | .getSession id, reply => match (reply : Option SessionInfo) with
    | some info => s.tasks[i]? = some .done ∧ info.id = id
    | none => s.tasks[i]? = some .done
  | .listSessions, _ => s.tasks[i]? = some .done
  | .metrics, _ => s.tasks[i]? = some .done

/-- A handling leads from a state of the pool to a response and a state. A call is a task of its
own, and whatever else goes on goes on until it has returned. -/
inductive Handling.Handles (pool : SessionPool) (s : State) : Handling → Response → State → Prop
  | respond {response : Response} : Handles pool s (.respond response) response s
  | call {call : PoolCall} {answer : call.Reply → Response} {as : List Action} {s' : State}
    {reply : call.Reply}
    (hrun : Run (step pool) anyAction s (.arrive call.request :: as) s')
    (hreturned : call.Returned s.tasks.length s' reply) :
    Handles pool s (.call call answer) (answer reply) s'

/-- A handling that responds does so from every state, which it leaves as it is. -/
theorem Handling.handles_respond_iff {pool : SessionPool} {s s' : State}
    {expected response : Response} :
    Handles pool s (.respond expected) response s' ↔ response = expected ∧ s' = s := by
  constructor
  · rintro ⟨⟩
    exact ⟨rfl, rfl⟩
  · rintro ⟨rfl, rfl⟩
    exact .respond

/-! ## Unauthorized requests -/

/-- What an extractor rejects is responded to, and so is what the handler responds to. -/
theorem extracting_respond {α : Type} {handler : α → Handling}
    (h : ∀ value, ∃ response, handler value = .respond response) (extracted : Except Response α) :
    ∃ response, extracting extracted handler = .respond response := by
  cases extracted with
  | ok value => exact h value
  | error rejection => exact ⟨rejection, rfl⟩

/-- Every handler responds to an unauthorized request before it calls the pool. -/
theorem Server.dispatch_unauthorized {server : Server} {request : HttpRequest}
    {query : SessionQuery} (h : authorized server.token request.headers query.token = false)
    (route : Route) : ∃ response, server.dispatch request query route = .respond response := by
  have hguard : ∀ handling : Handling,
      (if ¬ authorized server.token request.headers query.token then
        Handling.respond .unauthorized else handling) = .respond .unauthorized :=
    fun _ => if_pos (by rw [h]; exact Bool.false_ne_true)
  cases route with
  | connectNewSession => exact extracting_respond (fun _ => ⟨_, hguard _⟩) _
  | metrics => exact ⟨_, hguard _⟩
  | scrape => exact extracting_respond (fun _ => ⟨_, hguard _⟩) _
  | screenshot => exact extracting_respond (fun _ => ⟨_, hguard _⟩) _
  | pdf => exact extracting_respond (fun _ => ⟨_, hguard _⟩) _
  | listSessions => exact ⟨_, hguard _⟩
  | createSession => exact extracting_respond (fun _ => ⟨_, hguard _⟩) _
  | viewSessions => exact ⟨_, hguard _⟩
  | getSession id => exact extracting_respond (fun _ => ⟨_, hguard _⟩) _
  | deleteSession id => exact extracting_respond (fun _ => ⟨_, hguard _⟩) _
  | connectExistingSession id =>
    exact extracting_respond (fun _ => extracting_respond (fun _ => ⟨_, hguard _⟩) _) _

/-- A request that gives the token neither in its query nor in its header is responded to at
once. -/
theorem Server.handle_unauthorized {server : Server} {token : String} {request : HttpRequest}
    (htoken : server.token = some token)
    (hquery : ∀ query, server.extractors.url.extract request.rawQuery = some query →
      query.token ≠ some token)
    (hbearer : request.headers.bearer ≠ some token) :
    ∃ response, server.handle request = .respond response := by
  rw [Server.handle]
  split
  · exact ⟨_, rfl⟩
  · split
    · exact ⟨_, rfl⟩
    · next query hextract =>
      refine Server.dispatch_unauthorized ?_ _
      rw [htoken, Bool.eq_false_iff, ne_eq, authorized_iff, not_or]
      exact ⟨hquery query hextract, hbearer⟩

/-- An unauthorized request does not interfere: there is one response to it, whatever the state of
the pool and whatever else runs, and handling it leaves the state as it is. -/
theorem unauthorized_handles_iff {server : Server} {token : String} {request : HttpRequest}
    (htoken : server.token = some token)
    (hquery : ∀ query, server.extractors.url.extract request.rawQuery = some query →
      query.token ≠ some token)
    (hbearer : request.headers.bearer ≠ some token) :
    ∃ response, ∀ pool s response' s',
      (server.handle request).Handles pool s response' s' ↔ response' = response ∧ s' = s := by
  obtain ⟨response, hresponse⟩ := Server.handle_unauthorized htoken hquery hbearer
  refine ⟨response, fun pool s response' s' => ?_⟩
  rw [hresponse]
  exact Handling.handles_respond_iff

/-- A server with the token `secret`. No request of the example gets to where the libraries but the
query's extractor are of use. -/
def exampleServer : Server :=
  { token := some "secret"
    codec := .reference emptyCodec
    extractors :=
      { url := .reference
        rejectQuery := fun _ => ⟨400, .text "text/plain; charset=utf-8"
          "Failed to deserialize query string"⟩
        sessionId := fun _ => .error ⟨400, .text "text/plain; charset=utf-8" "Invalid URL"⟩
        upgrade := fun _ => .error ⟨400, .text "text/plain; charset=utf-8"
          "Connection header did not include 'upgrade'"⟩
        createSession := fun _ => .ok none
        scrape := fun _ => .error ⟨415, .text "text/plain; charset=utf-8"
          "Expected request with Content-Type: application/json"⟩
        screenshot := fun _ => .error ⟨415, .text "text/plain; charset=utf-8"
          "Expected request with Content-Type: application/json"⟩
        pdf := fun _ => .error ⟨415, .text "text/plain; charset=utf-8"
          "Expected request with Content-Type: application/json"⟩ }
    pdfPrintOptions := fun _ _ _ => .ok (.object [])
    sessionsPage := fun _ => ""
    fallback := fun _ => ⟨404, .empty⟩ }

/-- `POST /sessions` with another token. -/
def guessingRequest : HttpRequest :=
  { method := .post
    path := "/sessions"
    rawQuery := "token=guess"
    headers := ⟨none, none, none⟩
    otherHeaders := []
    body := [] }

/-- The theorem at this request: it is not let in, and no session is created. -/
theorem unauthorized_handles_guess :
    exampleServer.handle guessingRequest = .respond .unauthorized ∧
      ∃ response, ∀ pool s response' s',
        (exampleServer.handle guessingRequest).Handles pool s response' s' ↔
          response' = response ∧ s' = s := by
  refine ⟨rfl, @unauthorized_handles_iff _ "secret" _ rfl ?_ ?_⟩
  · intro query hquery
    have hread : UrlCodec.reference.extract "token=guess" = some (.ofToken (some "guess")) := by
      decide
    obtain rfl := Option.some.inj (hread.symm.trans hquery)
    decide
  · decide

end Eiger
