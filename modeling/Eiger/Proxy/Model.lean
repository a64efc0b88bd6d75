import Eiger.Browser.Cdp
import Eiger.Lib.Run

/-!
# The CDP proxy

`proxy_websocket` relays a client's connection and a browser's, with two loops that run in one task:
`client_to_upstream` and `upstream_to_client`. Both send to the browser, through one sink behind a
lock, for with stealth on each also injects commands: before some of the client's commands, and when
a target is attached. `select!` ends the proxy as soon as one of the loops ends.

A `Proxy` is the state of the two loops between their awaits, with the traffic so far; `Proxy.step`
is one step of one of them, or a message that the browser sends. Its `Choice`s are how an await
ends. The ids of injected commands count up from `EIGER_CDP_ID_START`; the counter, an `AtomicU64`,
would wrap after some 10^19 of them and is a `Nat` here.
-/

namespace Eiger

open Json

/-- `axum::extract::ws::Message`, the client's side. -/
inductive Message where
  | text (text : String)
  | binary (bytes : List UInt8)
  | ping (bytes : List UInt8)
  | pong (bytes : List UInt8)
  | close (frame : Option CloseFrame)
  deriving DecidableEq, Repr

/-- `EIGER_CDP_ID_START`. -/
def eigerCdpIdStart : Nat := 9000000000

/-- `StealthScript`. -/
structure StealthScript where
  name : String
  source : String
  deriving DecidableEq, Repr

/-! ## What is decided about a message -/

/-- `is_eiger_cdp_response`. -/
def isEigerCdpResponse (value : Value) : Bool :=
  ((value.get "id").bind Value.asU64).any (eigerCdpIdStart ≤ ·)

/-- `axum_to_upstream_message`. -/
def axumToUpstreamMessage : Message → Option UpstreamMessage
  | .text text => some (.text text)
  | .binary bytes => some (.binary bytes)
  | .ping bytes => some (.ping bytes)
  | .pong bytes => some (.pong bytes)
  | .close _ => some (.close none)

/-- `client_message_stealth_session`: the session of a client's command that stealth commands go
before. -/
def clientMessageStealthSession (json : Codec) : Message → Option String
  | .text text => do
    let value ← (json.fromStr text).toOption
    let method ← (value.get "method").bind Value.asStr
    if method ∈ ["Page.navigate", "Page.reload", "Page.printToPDF", "Page.captureScreenshot"] then
      (value.get "sessionId").bind Value.asStr
    else none
  | _ => none

/-- The checks of `inject_stealth_from_proxy_event`: the session of an attached target that stealth
commands go to. -/
def proxyEventSession (value : Value) : Option String := do
  if (value.get "method").bind Value.asStr = some "Target.attachedToTarget" then
    let params ← value.get "params"
    let sessionId ← (params.get "sessionId").bind Value.asStr
    let targetType := ((params.get "targetInfo").bind (·.get "type")).bind Value.asStr
    if targetType = some "page" ∨ targetType = some "iframe" then some sessionId else none
  else none

/-- What `upstream_to_axum_message` makes of a message: nothing for the client, or a message, after
stealth commands to a session or at once. -/
inductive Verdict where
  | drop
  | forward (message : Message)
  | inject (session : String) (message : Message)
  deriving DecidableEq, Repr

/-- The message for the client, if there is one. -/
def Verdict.message : Verdict → Option Message
  | .drop => none
  | .forward message => some message
  | .inject _ message => some message

/-- `upstream_to_axum_message`, but for the injection. -/
def upstreamToAxumMessage (json : Codec) (stealthEnabled : Bool) : UpstreamMessage → Verdict
  | .text text =>
    match json.fromStr text with
    | .ok value =>
      if isEigerCdpResponse value then .drop
      else if stealthEnabled then
        match proxyEventSession value with
        | some session => .inject session (.text text)
        | none => .forward (.text text)
      else .forward (.text text)
    | .error _ => .forward (.text text)
  | .binary bytes => .forward (.binary bytes)
  | .ping bytes => .forward (.ping bytes)
  | .pong bytes => .forward (.pong bytes)
  | .close _ => .forward (.close none)
  | .frame _ => .drop

/-! ## What is sent to the browser -/

/-- The methods and parameters that `send_stealth_commands` sends, in order. -/
def stealthCommands (scripts : List StealthScript) : List (String × Value) :=
  ("Page.enable", .object []) :: scripts.flatMap fun script =>
    [("Page.addScriptToEvaluateOnNewDocument",
      .object [("runImmediately", .bool true), ("source", .string script.source)]),
     ("Runtime.evaluate", .object [("expression", .string script.source)])]

/-- The request that `send_proxy_cdp_command` builds. -/
def proxyCdpCommand (id : Nat) (session method : String) (params : Value) : Value :=
  .object [("id", .number (.posInt id)), ("method", .string method), ("params", params),
    ("sessionId", .string session)]

/-- A message sent to the browser: the client's, or a command of the proxy's own. -/
inductive Sent where
  | forwarded (message : UpstreamMessage)
  | injected (id : Nat) (session method : String) (params : Value)
  deriving DecidableEq, Repr

/-- The message as it is sent. -/
def Sent.message (json : Codec) : Sent → UpstreamMessage
  | .forwarded message => message
  | .injected id session method params =>
    .text (json.toString (proxyCdpCommand id session method params))

/-- The id that a message has as a CDP request or response. -/
def UpstreamMessage.cdpId (json : Codec) : UpstreamMessage → Option Value
  | .text content => (json.fromStr content).toOption.bind (·.get "id")
  | _ => none

/-- The id of a request. -/
def Sent.requestId (json : Codec) : Sent → Option Value
  | .forwarded message => message.cdpId json
  | .injected id session method params => (proxyCdpCommand id session method params).get "id"

/-! ## The two loops -/

/-- Where `client_to_upstream` is. -/
inductive ClientPc where
  /-- Awaits the client's next message. -/
  | receiving
  /-- Awaits the lock of the sink, to inject commands before the message. -/
  | locking (session : String) (message : Message)
  /-- Holds the lock and sends these commands. -/
  | injecting (session : String) (commands : List (String × Value)) (message : Message)
  /-- Holds the lock and sleeps. -/
  | pausing (message : Message)
  /-- Awaits the lock, to forward the message. -/
  | waiting (message : UpstreamMessage)
  /-- Holds the lock and sends the message. -/
  | sending (message : UpstreamMessage)
  /-- Awaits the lock, to close the sink. -/
  | closing
  deriving DecidableEq, Repr

/-- Where `upstream_to_client` is. -/
inductive UpstreamPc where
  /-- Awaits the browser's next message. -/
  | receiving
  | locking (session : String) (message : Message)
  | injecting (session : String) (commands : List (String × Value)) (message : Message)
  | pausing (message : Message)
  /-- Sends the message to the client. -/
  | delivering (message : Message)
  | closing
  deriving DecidableEq, Repr

/-- The loop that holds the lock of the sink. -/
inductive Direction where
  | clientToUpstream
  | upstreamToClient
  deriving DecidableEq, Repr

/-- Why the browser sends a message: it answers a request, by its place among those sent to it, or
not. -/
inductive Cause where
  | event
  | response (request : Nat)
  deriving DecidableEq, Repr

/-- A message of the browser's. -/
structure Emission where
  message : UpstreamMessage
  cause : Cause
  deriving DecidableEq, Repr

/-- The state of `proxy_websocket`: its two loops, the lock of the sink, the counter of ids, and the
traffic so far: what the client sent, what the browser emitted and how much of it has been read,
what was sent to the browser, and what was delivered to the client. -/
structure Proxy where
  client : ClientPc
  upstream : UpstreamPc
  lock : Option Direction
  nextId : Nat
  fromClient : List Message
  emitted : List Emission
  read : Nat
  sent : List Sent
  delivered : List Message
  ended : Bool
  deriving DecidableEq, Repr

/-- What `proxy_websocket` starts with, once it is connected. -/
def Proxy.init : Proxy :=
  { client := .receiving, upstream := .receiving, lock := none, nextId := eigerCdpIdStart,
    fromClient := [], emitted := [], read := 0, sent := [], delivered := [], ended := false }

/-- How an await of one of the loops ends. -/
inductive ProxyChoice where
  | go
  /-- The client's next message. -/
  | message (message : Message)
  /-- The connection has no more messages. -/
  | closed
  | failed
  deriving DecidableEq, Repr

/-- One step of the proxy. -/
inductive ProxyAction where
  | client (choice : ProxyChoice)
  | upstream (choice : ProxyChoice)
  /-- The browser sends a message. -/
  | emit (emission : Emission)
  deriving DecidableEq, Repr

/-- What a proxy is started with: its JSON library, the baseline scripts, and whether the session
has stealth on. -/
structure ProxyParams where
  json : Codec
  scripts : List StealthScript
  stealthEnabled : Bool

namespace Proxy

variable (params : ProxyParams) (s : Proxy)

/-- Sends one injected command. -/
def inject (session : String) (command : String × Value) : Proxy :=
  { s with
    nextId := s.nextId + 1
    sent := s.sent ++ [.injected s.nextId session command.1 command.2] }

/-- The place of `client_to_upstream` once it goes on to forward a message. -/
def forwardPc (message : Message) : ClientPc :=
  match axumToUpstreamMessage message with
  | some message => .waiting message
  | none => .closing

/-- The steps of `client_to_upstream`. -/
def stepClient : ClientPc → ProxyChoice → Option Proxy
  | .receiving, .message message =>
    some { s with
      fromClient := s.fromClient ++ [message]
      client := match params.stealthEnabled, clientMessageStealthSession params.json message with
        | true, some session => .locking session message
        | _, _ => forwardPc message }
  | .receiving, .closed => some { s with client := .closing }
  | .receiving, .failed => some { s with client := .closing }
  | .locking session message, .go =>
    if s.lock = none then
      some { s with
        lock := some .clientToUpstream
        client := .injecting session (stealthCommands params.scripts) message }
    else none
  | .injecting session (command :: commands) message, .go =>
    some { s.inject session command with client := .injecting session commands message }
  | .injecting _ (_ :: _) _, .failed => some { s with nextId := s.nextId + 1, ended := true }
  | .injecting _ [] message, .go => some { s with client := .pausing message }
  | .pausing message, .go => some { s with lock := none, client := forwardPc message }
  | .waiting message, .go =>
    if s.lock = none then
      some { s with lock := some .clientToUpstream, client := .sending message }
    else none
  | .sending message, .go =>
    some { s with sent := s.sent ++ [.forwarded message], lock := none, client := .receiving }
  | .sending _, .failed => some { s with ended := true }
  | .closing, .go => if s.lock = none then some { s with ended := true } else none
  | _, _ => none

/-- The steps of `upstream_to_client`. -/
def stepUpstream : UpstreamPc → ProxyChoice → Option Proxy
  | .receiving, .go => do
    let emission ← s.emitted[s.read]?
    return { s with
      read := s.read + 1
      upstream :=
        match upstreamToAxumMessage params.json params.stealthEnabled emission.message with
        | .drop => .receiving
        | .forward message => .delivering message
        | .inject session message => .locking session message }
  | .receiving, .failed => some { s with ended := true }
  | .receiving, .closed => some { s with upstream := .closing }
  | .locking session message, .go =>
    if s.lock = none then
      some { s with
        lock := some .upstreamToClient
        upstream := .injecting session (stealthCommands params.scripts) message }
    else none
  | .injecting session (command :: commands) message, .go =>
    some { s.inject session command with upstream := .injecting session commands message }
  | .injecting _ (_ :: _) _, .failed => some { s with nextId := s.nextId + 1, ended := true }
  | .injecting _ [] message, .go => some { s with upstream := .pausing message }
  | .pausing message, .go => some { s with lock := none, upstream := .delivering message }
  | .delivering message, .go =>
    some { s with delivered := s.delivered ++ [message], upstream := .receiving }
  | .delivering _, .failed => some { s with upstream := .closing }
  | .closing, .go => some { s with ended := true }
  | _, _ => none

/-- One step of the proxy, while it runs. -/
def step : ProxyAction → Option Proxy
  | .client choice => if s.ended then none else s.stepClient params s.client choice
  | .upstream choice => if s.ended then none else s.stepUpstream params s.upstream choice
  | .emit emission => some { s with emitted := s.emitted ++ [emission] }

end Proxy

end Eiger
