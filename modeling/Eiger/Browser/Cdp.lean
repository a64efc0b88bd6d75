import Mathlib.Algebra.GroupWithZero.Nat
import Eiger.Browser.Types
import Eiger.Lib.Future
import Eiger.Lib.Json

/-!
# One CDP command, and a browser's shutdown

`cdp_command` opens a connection of its own, sends one command and awaits its response. Only the
wait for the response is inside its timeout: the handshake of `connect_async` before it is not
(`cdpCommand_never`). `health_check_browser_ws` calls it as it is; `LaunchedBrowser::shutdown` puts
a timeout of its own around the whole command, and is therefore always ready
(`Dying.shutdown_ready`).

An `Endpoint` is what the other side does with such a connection. Sending the few bytes of a
command and of the closing frame fills the socket's buffer and waits for nobody, so these two end
whatever the other side does.
-/

namespace Eiger

open Json

/-- `CloseFrame`. -/
structure CloseFrame where
  code : Nat
  reason : String
  deriving DecidableEq, Repr

/-- `tungstenite::Message`. -/
inductive UpstreamMessage where
  | text (text : String)
  | binary (bytes : List UInt8)
  | ping (bytes : List UInt8)
  | pong (bytes : List UInt8)
  | close (frame : Option CloseFrame)
  | frame (bytes : List UInt8)
  deriving DecidableEq, Repr

/-- What a CDP endpoint does with one connection: how the handshake ends, if it does, and how the
send of the command; what arrives then, each message or error with the time since the one before;
when the connection closes after that, if it does; and how long its closing takes. -/
structure Endpoint where
  connect : Future (Except String Unit)
  send : Duration × Except String Unit
  incoming : List (Duration × Except String UpstreamMessage)
  closed : Future Unit
  close : Duration

/-- The loop of `cdp_command` that awaits the response. -/
def awaitResponse (json : Codec) (closed : Future Unit) :
    List (Duration × Except String UpstreamMessage) → Future (Except BrowserError Value)
  | [] => do
    closed
    return .error (.cdpCommand "websocket closed")
  | (d, .error error) :: _ => .ready d (.error (.webSocket error))
  | (d, .ok (.text text)) :: rest =>
    match json.fromStr text with
    | .error error => .ready d (.error (.cdpCommand error))
    | .ok value =>
      if (value.get "id").bind Value.asU64 ≠ some 1 then (awaitResponse json closed rest).delay d
      else match value.get "error" with
        | some error => .ready d (.error (.cdpCommand (json.toString error)))
        | none => .ready d (.ok ((value.get "result").getD .null))
  | (d, .ok _) :: rest => (awaitResponse json closed rest).delay d

/-- `cdp_command`. -/
def cdpCommand (json : Codec) (endpoint : Endpoint) (method : String) (wait : Duration) :
    Future (Except BrowserError Value) := do
  match ← endpoint.connect with
  | .error error => return .error (.webSocket error)
  | .ok () =>
    match ← Future.ready endpoint.send.1 endpoint.send.2 with
    | .error error => return .error (.webSocket error)
    | .ok () =>
      match ← Future.timeout wait (awaitResponse json endpoint.closed endpoint.incoming) with
      | none => return .error (.cdpTimeout method)
      | some (.error error) => return .error error
      | some (.ok response) =>
        Future.ready endpoint.close ()
        return .ok response

/-- `health_check_browser_ws`. -/
def healthCheckBrowserWs (json : Codec) (endpoint : Endpoint) (wait : Duration) :
    Future (Except BrowserError Unit) := do
  let response ← cdpCommand json endpoint "Target.getTargets" wait
  return response.map fun _ => ()

section

variable {json : Codec} {endpoint : Endpoint} {method : String} {wait : Duration}

/-- `cdp_command` is ready exactly when the handshake ends. -/
theorem cdpCommand_never :
    cdpCommand json endpoint method wait = .never ↔ endpoint.connect = .never := by
  rw [← Future.value_eq_none, ← Future.value_eq_none]
  unfold cdpCommand
  rw [Future.value_bind]
  cases endpoint.connect.value with
  | none => simp
  | some result =>
    cases result with
    | error error => simp
    | ok u =>
      cases hsend : endpoint.send.2 with
      | error error => simp
      | ok u =>
        simp only [Option.bind_some, Future.value_bind, Future.value_ready, Future.value_timeout]
        split <;> simp

/-- So is the health check. -/
theorem healthCheckBrowserWs_never :
    healthCheckBrowserWs json endpoint wait = .never ↔ endpoint.connect = .never := by
  have hcommand : cdpCommand json endpoint "Target.getTargets" wait = .never ↔
      endpoint.connect = .never := cdpCommand_never
  rw [← hcommand, ← Future.value_eq_none, ← Future.value_eq_none, healthCheckBrowserWs,
    Future.value_bind]
  cases (cdpCommand json endpoint "Target.getTargets" wait).value <;> simp

/-! ## Answers -/

/-- What the loop of `cdp_command` passes over: messages other than texts, and texts that are no
response to the command. -/
def passedOver (json : Codec) : Except String UpstreamMessage → Prop
  | .ok (.text text) =>
    ∃ value, json.fromStr text = .ok value ∧ (value.get "id").bind Value.asU64 ≠ some 1
  | .ok _ => True
  | .error _ => False

/-- Among what arrives there is, within `wait`, a response to the command without an error, and what
arrives before it is passed over. -/
def RespondsWithin (json : Codec) (wait : Nat)
    (incoming : List (Nat × Except String UpstreamMessage)) : Prop :=
  ∃ before d text value later, incoming = before ++ (d, .ok (.text text)) :: later ∧
    (∀ x ∈ before, passedOver json x.2) ∧ (before.map (·.1)).sum + d ≤ wait ∧
    json.fromStr text = .ok value ∧ (value.get "id").bind Value.asU64 = some 1 ∧
    value.get "error" = none

/-- What arrives first is the response, or is passed over. -/
theorem respondsWithin_cons {wait d : Nat} {item : Except String UpstreamMessage}
    {rest : List (Nat × Except String UpstreamMessage)} :
    RespondsWithin json wait ((d, item) :: rest) ↔ d ≤ wait ∧
      ((∃ text value, item = .ok (.text text) ∧ json.fromStr text = .ok value ∧
        (value.get "id").bind Value.asU64 = some 1 ∧ value.get "error" = none) ∨
      passedOver json item ∧ RespondsWithin json (wait - d) rest) := by
  constructor
  · rintro ⟨before, e, text, value, later, he, hbefore, hsum, hjson, hid, herror⟩
    cases before with
    | nil =>
      cases he
      exact ⟨by simpa using hsum, .inl ⟨text, value, rfl, hjson, hid, herror⟩⟩
    | cons x before =>
      cases he
      simp only [List.map_cons, List.sum_cons] at hsum
      refine ⟨by omega, .inr ⟨hbefore _ (List.mem_cons_self ..), before, e, text, value, later, rfl,
        fun x hx => hbefore x (List.mem_cons_of_mem _ hx), by omega, hjson, hid, herror⟩⟩
  · rintro ⟨hd, ⟨text, value, rfl, hjson, hid, herror⟩ |
      ⟨hitem, before, e, text, value, later, rfl, hbefore, hsum, hjson, hid, herror⟩⟩
    · exact ⟨[], d, text, value, rest, rfl, by simp, by simpa using hd, hjson, hid, herror⟩
    · refine ⟨(d, item) :: before, e, text, value, later, rfl, fun x hx => ?_, ?_, hjson, hid,
        herror⟩
      · rcases List.mem_cons.1 hx with rfl | hx
        · exact hitem
        · exact hbefore x hx
      · simp only [List.map_cons, List.sum_cons]
        omega

/-- **The loop of `cdp_command` ends well in time** exactly when such a response arrives. -/
theorem awaitResponse_ok {wait : Nat} {closed : Future Unit}
    {incoming : List (Nat × Except String UpstreamMessage)} :
    (∃ response, (awaitResponse json closed incoming).within wait = some (.ok response)) ↔
      RespondsWithin json wait incoming := by
  induction incoming generalizing wait with
  | nil =>
    constructor
    · rintro ⟨response, h⟩
      have hvalue := Future.value_of_within h
      rw [awaitResponse, Future.value_bind] at hvalue
      cases hc : closed.value <;> simp [hc] at hvalue
    · rintro ⟨before, _, _, _, _, he, -⟩
      cases before <;> cases he
  | cons x rest ih =>
    obtain ⟨d, item⟩ := x
    rw [respondsWithin_cons]
    cases item with
    | error error => simp [awaitResponse, passedOver]
    | ok message =>
      cases message with
      | text text =>
        cases hjson : json.fromStr text with
        | error error => simp [awaitResponse, passedOver, hjson]
        | ok value =>
          by_cases hid : (value.get "id").bind Value.asU64 = some 1
          · cases herror : value.get "error" with
            | some error => simp [awaitResponse, passedOver, hjson, hid, herror]
            | none => simp [awaitResponse, passedOver, hjson, hid, herror]
          · simp only [awaitResponse, hjson, hid, ne_eq, not_false_eq_true, if_true,
              Future.within_delay]
            by_cases hd : d ≤ wait
            · simp [hd, hid, hjson, passedOver, ih]
            · simp [hd]
      | _ =>
        simp only [awaitResponse, Future.within_delay]
        by_cases hd : d ≤ wait
        · simp [hd, passedOver, ih]
        · simp [hd]

/-- The endpoint completes the handshake, takes the command and responds to it, without an error,
within `wait` of its send. -/
def Endpoint.Answers (json : Codec) (wait : Duration) (endpoint : Endpoint) : Prop :=
  (∃ d, endpoint.connect = .ready d (.ok ())) ∧ endpoint.send.2 = .ok () ∧
    RespondsWithin json wait endpoint.incoming

/-- **The health check passes exactly where the endpoint answers**, once the handshake ends. -/
theorem healthCheckBrowserWs_ok {d : Duration} {connected : Except String Unit}
    (h : endpoint.connect = .ready d connected) :
    ∃ result, (healthCheckBrowserWs json endpoint wait).value = some result ∧
      (result = .ok () ↔ endpoint.Answers json wait) := by
  cases connected with
  | error error =>
    refine ⟨.error (.webSocket error), ?_, ?_⟩
    · simp [healthCheckBrowserWs, cdpCommand, h, Except.map]
    · simp [Endpoint.Answers, h]
  | ok u =>
    cases hsend : endpoint.send.2 with
    | error error =>
      refine ⟨.error (.webSocket error), ?_, ?_⟩
      · simp [healthCheckBrowserWs, cdpCommand, h, hsend, Except.map]
      · simp [Endpoint.Answers, hsend]
    | ok u =>
      have hiff : endpoint.Answers json wait ↔ ∃ response,
          (awaitResponse json endpoint.closed endpoint.incoming).within wait
            = some (.ok response) := by
        rw [awaitResponse_ok]
        simp [Endpoint.Answers, h, hsend]
      rw [hiff]
      cases hwithin : (awaitResponse json endpoint.closed endpoint.incoming).within wait with
      | none =>
        refine ⟨.error (.cdpTimeout "Target.getTargets"), ?_, by simp⟩
        simp [healthCheckBrowserWs, cdpCommand, h, hsend, hwithin, Except.map]
      | some result =>
        cases result with
        | error error =>
          refine ⟨.error error, ?_, by simp⟩
          simp [healthCheckBrowserWs, cdpCommand, h, hsend, hwithin, Except.map]
        | ok response =>
          refine ⟨.ok (), ?_, by simp⟩
          simp [healthCheckBrowserWs, cdpCommand, h, hsend, hwithin, Except.map]

end

/-! ## The shutdown of a browser -/

/-- What a browser and its child do while it is shut down: whether the child has exited before, what
the endpoint does with `Browser.close`, when the child exits after that and after `SIGTERM`, if
it does, and how long it takes to die of `SIGKILL`. -/
structure Dying where
  closeTimeout : Duration
  terminateTimeout : Duration
  exited : Bool
  endpoint : Endpoint
  afterClose : Future Unit
  afterSigterm : Future Unit
  afterKill : Duration

/-- `LaunchedBrowser::shutdown`, from its `send_sigterm` on. -/
def Dying.terminate (browser : Dying) : Future ShutdownKind := do
  match ← Future.timeout browser.terminateTimeout browser.afterSigterm with
  | some () => return .terminated
  | none =>
    Future.ready browser.afterKill ()
    return .killed

/-- `LaunchedBrowser::shutdown`. -/
def Dying.shutdown (json : Codec) (browser : Dying) : Future ShutdownKind := do
  if browser.exited then
    return .alreadyExited
  else
    let closed ← Future.timeout browser.closeTimeout
      (cdpCommand json browser.endpoint "Browser.close" browser.closeTimeout)
    match closed with
    | some (.ok _) =>
      match ← Future.timeout browser.terminateTimeout browser.afterClose with
      | some () => return .graceful
      | none => browser.terminate
    | _ => browser.terminate

/-- The end of `shutdown` is always ready, in a bounded time. -/
theorem Dying.terminate_ready (browser : Dying) :
    browser.terminate ≠ .never ∧
      browser.terminate.after ≤ browser.terminateTimeout + browser.afterKill := by
  constructor
  · rw [ne_eq, ← Future.value_eq_none, terminate, Future.value_bind, Future.value_timeout]
    cases browser.afterSigterm.within browser.terminateTimeout <;> simp
  · refine Future.after_bind_le (Future.after_timeout_le _ _) fun result => ?_
    cases result with
    | none => exact Nat.le_refl _
    | some u => exact Nat.zero_le _

/-- **`shutdown` is always ready**, whatever the browser does, within its timeouts and the time the
child takes to die of `SIGKILL`. -/
theorem Dying.shutdown_ready (json : Codec) (browser : Dying) :
    browser.shutdown json ≠ .never ∧ (browser.shutdown json).after
      ≤ browser.closeTimeout + (browser.terminateTimeout
        + (browser.terminateTimeout + browser.afterKill)) := by
  have hterminate := browser.terminate_ready
  constructor
  · rw [ne_eq, ← Future.value_eq_none, shutdown]
    cases browser.exited with
    | true => simp
    | false =>
      simp only [Bool.false_eq_true, if_false, Future.value_bind, Future.value_timeout,
        Option.bind_some]
      split
      · simp only [Future.value_bind, Future.value_timeout, Option.bind_some]
        cases browser.afterClose.within browser.terminateTimeout with
        | none => rw [Future.value_eq_none]; exact hterminate.1
        | some u => simp
      · rw [Future.value_eq_none]
        exact hterminate.1
  · unfold shutdown
    cases browser.exited with
    | true => exact Nat.zero_le _
    | false =>
      refine Future.after_bind_le (Future.after_timeout_le _ _) fun closed => ?_
      split
      · refine Future.after_bind_le (Future.after_timeout_le _ _) fun exited => ?_
        cases exited with
        | none => exact hterminate.2
        | some u => exact Nat.zero_le _
      · exact Nat.le_trans hterminate.2 (Nat.le_add_left _ _)

end Eiger
