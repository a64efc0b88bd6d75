import Eiger.Browser.Cdp
import Eiger.Lib.Text
import Eiger.Pool.Types

/-!
# Navigation

The REST endpoints drive a page over a CDP connection of their own. `navigate_page` sends
`Page.navigate` and then waits for the document to reach a stage of its life. All messages that
arrive are looked at for lifecycle events, and the names of these are kept in one set; the wait is
over once the name is in it that was asked for.

The set does not say whose event it was: one of another frame, of the document before or of another
session ends the wait just as well. `navigation_sound_iff` says when that happens: some such event
is received ahead of the document's own, and with the response to the command, or with a later
message of the page's session, the connection looks at the set before the document's own event is
there.

The other way round nothing goes wrong: an event of the page's session is not missed, whether it
arrives before the response or after it (`navigation_not_missed`).

What arrives is a list of `Inbound`s, among them the end of a wait: whatever may come is some list.
-/

namespace Eiger

open Json Text

/-! ## Page requests -/

/-- `RestEndpointError`. -/
inductive RestEndpointError where
  | badRequest (error : String)
  | pool (error : PoolError)
  | cdpWebSocket (error : String)
  | cdpProtocol (error : String)
  | cdpTimeout (method : String)
  | invalidCdpResponse (error : String)
  | decode (error : String)
  deriving DecidableEq, Repr

/-- `WaitUntil`. -/
inductive WaitUntil where
  | load
  | domContentLoaded
  | networkIdle
  | networkAlmostIdle
  deriving DecidableEq, Repr

/-- `WaitUntil::parse`. -/
def WaitUntil.parse (value : Option String) : Except RestEndpointError WaitUntil :=
  match value with
  | none => .ok .load
  | some value =>
    let name := toAsciiLowercase (trim value)
    if name = "load" then .ok .load
    else if name = "domcontentloaded" then .ok .domContentLoaded
    else if name = "networkidle" ∨ name = "networkidle0" then .ok .networkIdle
    else if name = "networkalmostidle" ∨ name = "networkidle2" then .ok .networkAlmostIdle
    else .error (.badRequest ("unsupported waitUntil value: " ++ value))

/-- `WaitUntil::lifecycle_name`. -/
def WaitUntil.lifecycleName : WaitUntil → String
  | .load => "load"
  | .domContentLoaded => "DOMContentLoaded"
  | .networkIdle => "networkIdle"
  | .networkAlmostIdle => "networkAlmostIdle"

/-- `PageLoadOptions`. -/
structure PageLoadOptions where
  url : String
  waitUntil : WaitUntil
  timeout : Duration
  deriving DecidableEq, Repr

/-- `page_load_options`. -/
def pageLoadOptions (url : String) (waitUntil : Option String) (timeoutMs : Option Nat) :
    Except RestEndpointError PageLoadOptions :=
  let url := trim url
  if url = "" then .error (.badRequest "url is required")
  else if timeoutMs.getD 30000 = 0 then
    .error (.badRequest "timeoutMs must be greater than 0")
  else
    (WaitUntil.parse waitUntil).map fun waitUntil =>
      { url, waitUntil, timeout := timeoutMs.getD 30000 * 1000000 }

/-! ## The connection -/

/-- What an await of the connection ends with: a message, an error, the end of the connection, or
the end of the time that the wait has. -/
inductive Inbound where
  | message (message : UpstreamMessage)
  | failed (error : String)
  | closed
  | elapsed
  deriving DecidableEq, Repr

/-- `CdpConnection`: what will arrive on its socket, the error of sending on it if that fails, the
next id, the names of the lifecycle events so far, and the requests sent. -/
structure CdpConnection where
  inbound : List Inbound
  sendError : Option String
  nextId : Nat
  lifecycleEvents : List String
  sent : List Value
  deriving DecidableEq, Repr

/-- What one turn of the loop in `next_json_message` makes of what arrives: it goes on, has a value,
or ends the wait. -/
inductive Turned where
  | skip
  | value (value : Value)
  | elapsed
  | failed (error : RestEndpointError)
  deriving DecidableEq, Repr

/-- One turn of the loop in `next_json_message`. -/
def Inbound.turn (json : Codec) : Inbound → Turned
  | .message (.text text) =>
    match json.fromStr text with
    | .ok value => .value value
    | .error error => .failed (.cdpProtocol error)
  | .message _ => .skip
  | .failed error => .failed (.cdpWebSocket error)
  | .closed => .failed (.cdpProtocol "CDP websocket closed")
  | .elapsed => .elapsed

/-- The name that `record_lifecycle_event` records of a message. -/
def lifecycleName (value : Value) : Option String :=
  if (value.get "method").bind Value.asStr = some "Page.lifecycleEvent" then
    ((value.get "params").bind (·.get "name")).bind Value.asStr
  else none

/-- `record_lifecycle_event`. -/
def recordLifecycleEvent (events : List String) (value : Value) : List String :=
  match lifecycleName value with
  | some name => events.insert name
  | none => events

/-- The loop of `command`, which awaits the response to a request: how it ends, with the lifecycle
events then and what is still to arrive. It may not end. -/
def commandLoop (json : Codec) (id : Nat) (method : String) : List String → List Inbound →
    Option (Except RestEndpointError Value × List String × List Inbound)
  | _, [] => none
  | events, item :: rest =>
    match item.turn json with
    | .skip => commandLoop json id method events rest
    | .elapsed => some (.error (.cdpTimeout method), events, rest)
    | .failed error => some (.error error, events, rest)
    | .value value =>
      let events := recordLifecycleEvent events value
      if (value.get "id").bind Value.asU64 ≠ some id then
        commandLoop json id method events rest
      else
        match value.get "error" with
        | some error => some (.error (.cdpProtocol (json.toString error)), events, rest)
        | none => some (.ok ((value.get "result").getD .null), events, rest)

/-- The loop of `wait_for_lifecycle`. -/
def lifecycleLoop (json : Codec) (session expected : String) : List String → List Inbound →
    Option (Except RestEndpointError Unit × List String × List Inbound)
  | _, [] => none
  | events, item :: rest =>
    match item.turn json with
    | .skip => lifecycleLoop json session expected events rest
    | .elapsed => some (.error (.cdpTimeout "Page.lifecycleEvent"), events, rest)
    | .failed error => some (.error error, events, rest)
    | .value value =>
      let events := recordLifecycleEvent events value
      if (value.get "sessionId").bind Value.asStr ≠ some session then
        lifecycleLoop json session expected events rest
      else if expected ∈ events then some (.ok (), events, rest)
      else lifecycleLoop json session expected events rest

namespace CdpConnection

/-- The request that `command` sends. -/
def request (id : Nat) (session : Option String) (method : String) (params : Value) : Value :=
  .object ([("id", .number (.posInt id)), ("method", .string method), ("params", params)] ++
    (session.map fun session => ("sessionId", .string session)).toList)

/-- `command`. -/
def command (json : Codec) (cdp : CdpConnection) (session : Option String) (method : String)
    (params : Value) : Option (Except RestEndpointError Value × CdpConnection) :=
  let id := cdp.nextId
  match cdp.sendError with
  | some error => some (.error (.cdpWebSocket error), { cdp with nextId := id + 1 })
  | none =>
    (commandLoop json id method cdp.lifecycleEvents cdp.inbound).map
      fun ended => (ended.1, { cdp with
        nextId := id + 1
        sent := cdp.sent ++ [request id session method params]
        lifecycleEvents := ended.2.1
        inbound := ended.2.2 })

/-- `wait_for_lifecycle`. -/
def waitForLifecycle (json : Codec) (cdp : CdpConnection) (session : String)
    (waitUntil : WaitUntil) : Option (Except RestEndpointError Unit × CdpConnection) :=
  let expected := waitUntil.lifecycleName
  if expected ∈ cdp.lifecycleEvents then some (.ok (), cdp)
  else
    (lifecycleLoop json session expected cdp.lifecycleEvents cdp.inbound).map
      fun ended => (ended.1, { cdp with lifecycleEvents := ended.2.1, inbound := ended.2.2 })

end CdpConnection

/-- `navigate_page`. -/
def navigatePage (json : Codec) (cdp : CdpConnection) (session : String)
    (options : PageLoadOptions) : Option (Except RestEndpointError Unit × CdpConnection) :=
  let cdp := { cdp with lifecycleEvents := [] }
  match cdp.command json (some session) "Page.navigate"
      (.object [("url", .string options.url)]) with
  | none => none
  | some (.error error, cdp) => some (.error error, cdp)
  | some (.ok result, cdp) =>
    match (result.get "errorText").bind Value.asStr with
    | some error => some (.error (.cdpProtocol ("Page.navigate failed: " ++ error)), cdp)
    | none => cdp.waitForLifecycle json session options.waitUntil

/-! ## What was received -/

/-- The value that is received, if what arrives is one. -/
def Inbound.value (json : Codec) (item : Inbound) : Option Value :=
  match item.turn json with
  | .value value => some value
  | _ => none

/-- The connection goes on after what arrives. -/
def Inbound.goesOn (json : Codec) (item : Inbound) : Prop :=
  item.turn json = .skip ∨ ∃ value, item.turn json = .value value

/-- The values received. -/
def received (json : Codec) (items : List Inbound) : List Value :=
  items.filterMap (·.value json)

/-- The message answers the request of this id. -/
def hasId (id : Nat) (value : Value) : Bool := (value.get "id").bind Value.asU64 = some id

/-- The message is of this session. -/
def InSession (session : String) (value : Value) : Prop :=
  value.get "sessionId" = some (.string session)

instance {session : String} {value : Value} : Decidable (InSession session value) :=
  inferInstanceAs (Decidable (value.get "sessionId" = some (.string session)))

/-- The message is a lifecycle event of this name. -/
def Named (name : String) (value : Value) : Prop :=
  value.get "method" = some (.string "Page.lifecycleEvent") ∧
    ∃ params, value.get "params" = some params ∧ params.get "name" = some (.string name)

/-- The message is the lifecycle event of this name of the document that a navigation in the
session, with this result, has led to. -/
def DocumentEvent (session name : String) (result value : Value) : Prop :=
  Named name value ∧ InSession session value ∧
    ∃ params frame loader, value.get "params" = some params ∧
      params.get "frameId" = some (.string frame) ∧ result.get "frameId" = some (.string frame) ∧
      params.get "loaderId" = some (.string loader) ∧
      result.get "loaderId" = some (.string loader)

/-- The result that the response says a navigation had, if it says that it succeeded. -/
def navigationResult (response : Value) : Option Value :=
  let result := (response.get "result").getD .null
  if response.get "error" = none ∧ (result.get "errorText").bind Value.asStr = none then some result
  else none

/-- The result of the navigation that a request began, by what was received. -/
def navigated (id : Nat) (values : List Value) : Option Value :=
  (values.find? (hasId id)).bind navigationResult

/-- With these messages received the wait may be over: the navigation has its result, some event of
the name is among them, and the last one is the response or is of the session. -/
structure Satisfied (id : Nat) (session name : String) (values : List Value) (result : Value) :
    Prop where
  navigated : navigated id values = some result
  event : ∃ value ∈ values, Named name value
  last : ∃ earlier value, values = earlier ++ [value] ∧
    (earlier.find? (hasId id) = none ∨ InSession session value)

/-- The wait of `navigate_page` is sound: where it is over without an error, the event of the
document itself is among what it consumed. -/
def NavigationSound (json : Codec) (cdp : CdpConnection) (session : String)
    (options : PageLoadOptions) : Prop :=
  ∀ cdp', navigatePage json cdp session options = some (.ok (), cdp') →
    ∃ consumed result, cdp.inbound = consumed ++ cdp'.inbound ∧
      navigated cdp.nextId (received json consumed) = some result ∧
      ∃ value ∈ received json consumed,
        DocumentEvent session options.waitUntil.lifecycleName result value

/-- The document is overtaken: by some point the wait may be over, and the event of the document
itself is not among what was received. -/
def Overtaken (json : Codec) (cdp : CdpConnection) (session name : String) : Prop :=
  cdp.sendError = none ∧ ∃ consumed rest result, cdp.inbound = consumed ++ rest ∧
    (∀ item ∈ consumed, item.goesOn json) ∧
    Satisfied cdp.nextId session name (received json consumed) result ∧
    ∀ value ∈ received json consumed, ¬ DocumentEvent session name result value

section

variable {json : Codec}

/-- What arrives is a value if a turn of the loop makes one of it. -/
theorem value_eq_some_iff {item : Inbound} {value : Value} :
    item.value json = some value ↔ item.turn json = .value value := by
  rw [Inbound.value]
  cases item.turn json <;> simp

/-- Nothing is received where nothing arrives. -/
@[simp] theorem received_nil : received json [] = [] := rfl

/-- A value is received first. -/
theorem received_cons {item : Inbound} {value : Value} (h : item.value json = some value)
    (items : List Inbound) : received json (item :: items) = value :: received json items :=
  List.filterMap_cons_some h

/-- What is passed over is not received. -/
theorem received_skip {item : Inbound} (h : item.turn json = .skip) (items : List Inbound) :
    received json (item :: items) = received json items :=
  List.filterMap_cons_none (by rw [Inbound.value, h])

/-- A value that is received splits what arrives. -/
theorem received_append {item : Inbound} {value : Value} (h : item.value json = some value)
    (before after : List Inbound) :
    received json (before ++ item :: after) =
      received json before ++ value :: received json after := by
  rw [received, List.filterMap_append]
  exact congrArg _ (received_cons h after)

/-- What is received in two parts arrives in two parts. -/
theorem received_split {items : List Inbound} {values others : List Value} {value : Value}
    (h : received json items = values ++ value :: others) :
    ∃ before item after, items = before ++ item :: after ∧ received json before = values ∧
      item.value json = some value ∧ received json after = others := by
  obtain ⟨before, between, rfl, hbefore, hbetween⟩ := List.filterMap_eq_append_iff.1 h
  obtain ⟨skipped, item, after, rfl, hskipped, hitem, hafter⟩ :=
    List.filterMap_eq_cons_iff.1 hbetween
  refine ⟨before ++ skipped, item, after, (List.append_assoc ..).symm, ?_, hitem, hafter⟩
  rw [received, List.filterMap_append, hbefore, List.filterMap_eq_nil_iff.2 hskipped,
    List.append_nil]

/-- The name that is recorded is that of a lifecycle event. -/
theorem lifecycleName_iff {value : Value} {name : String} :
    lifecycleName value = some name ↔ Named name value := by
  rw [lifecycleName, Named]
  split
  · next hmethod =>
    rw [Value.asStr_eq_some_iff, Option.bind_eq_some_iff, Value.asStr_eq_some_iff.1 hmethod]
    simp
  · next hmethod =>
    exact ⟨nofun, fun h => (hmethod (Value.asStr_eq_some_iff.2 h.1)).elim⟩

/-- The names recorded are those of the events. -/
theorem mem_recorded {name : String} {values : List Value} {events : List String} :
    name ∈ values.foldl recordLifecycleEvent events ↔
      name ∈ events ∨ ∃ value ∈ values, Named name value := by
  induction values generalizing events with
  | nil => simp
  | cons value values ih =>
    rw [List.foldl_cons, ih, List.exists_mem_cons_iff, ← or_assoc]
    refine or_congr_left ?_
    rw [recordLifecycleEvent, ← lifecycleName_iff]
    cases lifecycleName value with
    | none => simp
    | some other => rw [List.mem_insert_iff, Option.some.injEq, or_comm, @eq_comm _ name]

/-! ## The two loops -/

/-- Where `command` has a response, it is the first of what was received that answers it. -/
theorem commandLoop_ok {id : Nat} {method : String} {result : Value} {events later : List String}
    {inbound rest : List Inbound}
    (h : commandLoop json id method events inbound = some (.ok result, later, rest)) :
    ∃ before item response, inbound = before ++ item :: rest ∧
      (∀ item ∈ before, item.goesOn json) ∧ item.value json = some response ∧
      (∀ value ∈ received json before, hasId id value = false) ∧ hasId id response = true ∧
      response.get "error" = none ∧ result = (response.get "result").getD .null ∧
      later = (received json before ++ [response]).foldl recordLifecycleEvent events := by
  induction inbound generalizing events with
  | nil => cases h
  | cons item inbound ih =>
    rw [commandLoop] at h
    split at h
    · next hturn =>
      obtain ⟨before, last, response, rfl, hgoes, hlast, hother, hrest⟩ := ih h
      refine ⟨item :: before, last, response, rfl, ?_, hlast, ?_⟩
      · exact List.forall_mem_cons.2 ⟨.inl hturn, hgoes⟩
      · rw [received_skip hturn]
        exact ⟨hother, hrest⟩
    · cases h
    · cases h
    · next value hturn =>
      simp only at h
      split at h
      · next hid =>
        obtain ⟨before, last, response, rfl, hgoes, hlast, hother, hrest⟩ := ih h
        refine ⟨item :: before, last, response, rfl, ?_, hlast, ?_⟩
        · exact List.forall_mem_cons.2 ⟨.inr ⟨value, hturn⟩, hgoes⟩
        · rw [received_cons (value_eq_some_iff.2 hturn)]
          exact ⟨List.forall_mem_cons.2 ⟨decide_eq_false hid, hother⟩, hrest⟩
      · next hid =>
        split at h
        · cases h
        · next herror =>
          cases h
          refine ⟨[], item, value, rfl, nofun, value_eq_some_iff.2 hturn, nofun, ?_, herror, rfl,
            rfl⟩
          exact decide_eq_true (not_not.1 hid)

/-- `command` has the response once it is received. -/
theorem commandLoop_append {id : Nat} {method : String} {events : List String}
    {before rest : List Inbound} {item : Inbound} {response : Value}
    (hgoes : ∀ item ∈ before, item.goesOn json) (hitem : item.value json = some response)
    (hother : ∀ value ∈ received json before, hasId id value = false)
    (hid : hasId id response = true) (herror : response.get "error" = none) :
    commandLoop json id method events (before ++ item :: rest) =
      some (.ok ((response.get "result").getD .null),
        (received json before ++ [response]).foldl recordLifecycleEvent events, rest) := by
  induction before generalizing events with
  | nil =>
    rw [List.nil_append, commandLoop, value_eq_some_iff.1 hitem]
    simp only
    rw [if_neg (not_not.2 (of_decide_eq_true hid)), herror]
    rfl
  | cons earlier before ih =>
    obtain ⟨hearlier, hgoes⟩ := List.forall_mem_cons.1 hgoes
    rw [List.cons_append, commandLoop]
    obtain hturn | ⟨value, hturn⟩ := hearlier
    · rw [received_skip hturn] at hother ⊢
      rw [hturn]
      exact ih hgoes hother
    · rw [received_cons (value_eq_some_iff.2 hturn)] at hother ⊢
      obtain ⟨hvalue, hother⟩ := List.forall_mem_cons.1 hother
      rw [hturn]
      simp only
      rw [if_pos (of_decide_eq_false hvalue)]
      exact ih hgoes hother

/-- A turn of the loop in `wait_for_lifecycle` that has a value: it is over if the value is of the
session and the name has been recorded by it. -/
theorem lifecycleLoop_value {session expected : String} {item : Inbound} {value : Value}
    (hturn : item.turn json = .value value) (events : List String) (rest : List Inbound) :
    lifecycleLoop json session expected events (item :: rest) =
      if InSession session value ∧ expected ∈ recordLifecycleEvent events value then
        some (.ok (), recordLifecycleEvent events value, rest)
      else lifecycleLoop json session expected (recordLifecycleEvent events value) rest := by
  rw [lifecycleLoop, hturn]
  simp only [ne_eq, ite_not, Value.asStr_eq_some_iff]
  exact (ite_and ..).symm

/-- Where `wait_for_lifecycle` is over, it is with a message of the session by which the name has
been recorded. -/
theorem lifecycleLoop_ok {session expected : String} {events later : List String}
    {inbound rest : List Inbound}
    (h : lifecycleLoop json session expected events inbound = some (.ok (), later, rest)) :
    ∃ before item value, inbound = before ++ item :: rest ∧
      (∀ item ∈ before, item.goesOn json) ∧ item.value json = some value ∧
      InSession session value ∧
      expected ∈ (received json before ++ [value]).foldl recordLifecycleEvent events := by
  induction inbound generalizing events with
  | nil => cases h
  | cons item inbound ih =>
    cases hturn : item.turn json with
    | skip =>
      rw [lifecycleLoop, hturn] at h
      obtain ⟨before, last, value, rfl, hgoes, hlast, hrest⟩ := ih h
      refine ⟨item :: before, last, value, rfl, ?_, hlast, ?_⟩
      · exact List.forall_mem_cons.2 ⟨.inl hturn, hgoes⟩
      · rw [received_skip hturn]
        exact hrest
    | elapsed =>
      rw [lifecycleLoop, hturn] at h
      cases h
    | failed error =>
      rw [lifecycleLoop, hturn] at h
      cases h
    | value value =>
      rw [lifecycleLoop_value hturn] at h
      split at h
      · next hover =>
        cases h
        exact ⟨[], item, value, rfl, nofun, value_eq_some_iff.2 hturn, hover⟩
      · obtain ⟨before, last, other, rfl, hgoes, hlast, hrest⟩ := ih h
        refine ⟨item :: before, last, other, rfl, ?_, hlast, ?_⟩
        · exact List.forall_mem_cons.2 ⟨.inr ⟨value, hturn⟩, hgoes⟩
        · rw [received_cons (value_eq_some_iff.2 hturn)]
          exact hrest

/-- `wait_for_lifecycle` is over at the latest with a message of the session by which the name has
been recorded. -/
theorem lifecycleLoop_append {session expected : String} {events : List String}
    {before rest : List Inbound} {item : Inbound} {value : Value}
    (hgoes : ∀ item ∈ before, item.goesOn json) (hitem : item.value json = some value)
    (hsession : InSession session value)
    (hmem : expected ∈ (received json before ++ [value]).foldl recordLifecycleEvent events) :
    ∃ consumed left later, consumed <+: before ++ [item] ∧
      before ++ item :: rest = consumed ++ left ∧
      lifecycleLoop json session expected events (before ++ item :: rest) =
        some (.ok (), later, left) := by
  induction before generalizing events with
  | nil =>
    refine ⟨[item], rest, recordLifecycleEvent events value, List.prefix_rfl, rfl, ?_⟩
    rw [List.nil_append, lifecycleLoop_value (value_eq_some_iff.1 hitem)]
    exact if_pos ⟨hsession, hmem⟩
  | cons earlier before ih =>
    obtain ⟨hearlier, hgoes⟩ := List.forall_mem_cons.1 hgoes
    obtain hturn | ⟨other, hturn⟩ := hearlier
    · rw [received_skip hturn] at hmem
      obtain ⟨consumed, left, later, hle, hsplit, hloop⟩ := ih hgoes hmem
      refine ⟨earlier :: consumed, left, later, List.cons_prefix_cons.2 ⟨rfl, hle⟩, ?_, ?_⟩
      · rw [List.cons_append, hsplit, List.cons_append]
      · rw [List.cons_append, lifecycleLoop, hturn]
        exact hloop
    · rw [received_cons (value_eq_some_iff.2 hturn)] at hmem
      by_cases hover : InSession session other ∧ expected ∈ recordLifecycleEvent events other
      · refine ⟨[earlier], before ++ item :: rest, recordLifecycleEvent events other,
          List.prefix_append [earlier] _, rfl, ?_⟩
        rw [List.cons_append, lifecycleLoop_value hturn, if_pos hover]
      · obtain ⟨consumed, left, later, hle, hsplit, hloop⟩ := ih hgoes hmem
        refine ⟨earlier :: consumed, left, later, List.cons_prefix_cons.2 ⟨rfl, hle⟩, ?_, ?_⟩
        · rw [List.cons_append, hsplit, List.cons_append]
        · rw [List.cons_append, lifecycleLoop_value hturn, if_neg hover]
          exact hloop

/-! ## The wait of a navigation -/

/-- `wait_for_lifecycle` returns at once, or when its loop is over. -/
theorem waitForLifecycle_ok_iff {cdp cdp' : CdpConnection} {session : String}
    {waitUntil : WaitUntil} :
    cdp.waitForLifecycle json session waitUntil = some (.ok (), cdp') ↔
      (waitUntil.lifecycleName ∈ cdp.lifecycleEvents ∧ cdp' = cdp) ∨
      (waitUntil.lifecycleName ∉ cdp.lifecycleEvents ∧ ∃ later rest,
        lifecycleLoop json session waitUntil.lifecycleName cdp.lifecycleEvents cdp.inbound =
          some (.ok (), later, rest) ∧
        cdp' = { cdp with lifecycleEvents := later, inbound := rest }) := by
  rw [CdpConnection.waitForLifecycle]
  by_cases hmem : waitUntil.lifecycleName ∈ cdp.lifecycleEvents
  · simp [hmem, eq_comm]
  · simp only [hmem, if_false, false_and, false_or, not_false_eq_true, true_and,
      Option.map_eq_some_iff, Prod.mk.injEq]
    constructor
    · rintro ⟨⟨_, later, rest⟩, hloop, rfl, rfl⟩
      exact ⟨later, rest, hloop, rfl⟩
    · rintro ⟨later, rest, hloop, rfl⟩
      exact ⟨_, hloop, rfl, rfl⟩

/-- `navigate_page` returns when the command has succeeded and the wait after it. -/
theorem navigatePage_ok_iff {cdp cdp' : CdpConnection} {session : String}
    {options : PageLoadOptions} :
    navigatePage json cdp session options = some (.ok (), cdp') ↔
      cdp.sendError = none ∧ ∃ result later rest,
        commandLoop json cdp.nextId "Page.navigate" [] cdp.inbound =
          some (.ok result, later, rest) ∧
        (result.get "errorText").bind Value.asStr = none ∧
        CdpConnection.waitForLifecycle json
          { cdp with
            nextId := cdp.nextId + 1
            sent := cdp.sent ++ [CdpConnection.request cdp.nextId (some session) "Page.navigate"
              (.object [("url", .string options.url)])]
            lifecycleEvents := later
            inbound := rest } session options.waitUntil = some (.ok (), cdp') := by
  rw [navigatePage, CdpConnection.command]
  cases hsend : cdp.sendError with
  | some error => simp
  | none =>
    simp only [true_and]
    rcases commandLoop json cdp.nextId "Page.navigate" [] cdp.inbound with
      _ | ⟨_ | result, later, rest⟩
    · simp
    · simp
    · cases herror : (result.get "errorText").bind Value.asStr with
      | some error => simp [herror, -Option.bind_eq_none_iff]
      | none => simp [herror, -Option.bind_eq_none_iff]

/-- Where `navigate_page` has succeeded, the wait may be over with what it consumed. -/
theorem navigatePage_ok {cdp cdp' : CdpConnection} {session : String} {options : PageLoadOptions}
    (h : navigatePage json cdp session options = some (.ok (), cdp')) :
    cdp.sendError = none ∧ ∃ consumed result, cdp.inbound = consumed ++ cdp'.inbound ∧
      (∀ item ∈ consumed, item.goesOn json) ∧
      Satisfied cdp.nextId session options.waitUntil.lifecycleName (received json consumed)
        result := by
  obtain ⟨hsend, result, later, rest, hcommand, herrorText, hwait⟩ := navigatePage_ok_iff.1 h
  obtain ⟨before, item, response, hinbound, hgoes, hitem, hother, hid, herror, rfl, rfl⟩ :=
    commandLoop_ok hcommand
  refine ⟨hsend, ?_⟩
  have hresult : navigationResult response = some ((response.get "result").getD .null) :=
    if_pos ⟨herror, herrorText⟩
  have hbefore : (received json before).find? (hasId cdp.nextId) = none := by
    rw [List.find?_eq_none]
    exact fun value hvalue => by rw [hother value hvalue]; exact Bool.false_ne_true
  have hnavigated : ∀ values, navigated cdp.nextId (received json before ++ response :: values) =
      some ((response.get "result").getD .null) := fun values => by
    rw [navigated, List.find?_append, hbefore, Option.none_or, List.find?_cons_of_pos hid]
    exact hresult
  have hitemGoes : item.goesOn json := .inr ⟨response, value_eq_some_iff.1 hitem⟩
  obtain ⟨hmem, rfl⟩ | ⟨-, final, left, hloop, rfl⟩ := waitForLifecycle_ok_iff.1 hwait
  · -- The name has been recorded by the response.
    refine ⟨before ++ [item], (response.get "result").getD .null,
      by rw [hinbound, List.append_cons], ?_, ?_⟩
    · rw [List.forall_mem_append, List.forall_mem_singleton]
      exact ⟨hgoes, hitemGoes⟩
    · rw [received_append hitem]
      exact ⟨hnavigated [], (mem_recorded.1 hmem).resolve_left List.not_mem_nil,
        received json before, response, rfl, .inl hbefore⟩
  · -- It has been recorded by a later message of the session.
    obtain ⟨between, last, value, rfl, hbetween, hlast, hsession, hmem⟩ := lifecycleLoop_ok hloop
    refine ⟨before ++ item :: (between ++ [last]), (response.get "result").getD .null,
      by rw [hinbound]; simp, ?_, ?_⟩
    · rw [List.forall_mem_append, List.forall_mem_cons, List.forall_mem_append,
        List.forall_mem_singleton]
      exact ⟨hgoes, hitemGoes, hbetween, .inr ⟨value, value_eq_some_iff.1 hlast⟩⟩
    · rw [received_append hitem, received_append hlast]
      refine ⟨hnavigated _, ?_, received json before ++ response :: received json between, value,
        by rw [List.append_assoc, List.cons_append]; rfl, .inr hsession⟩
      rw [← List.foldl_append, mem_recorded] at hmem
      simpa using hmem

/-- With what arrives the wait may be over: then `navigate_page` has succeeded by then. -/
theorem navigatePage_satisfied {cdp : CdpConnection} {session : String} {options : PageLoadOptions}
    {consumed rest : List Inbound} {result : Value} (hsend : cdp.sendError = none)
    (hinbound : cdp.inbound = consumed ++ rest) (hgoes : ∀ item ∈ consumed, item.goesOn json)
    (h : Satisfied cdp.nextId session options.waitUntil.lifecycleName (received json consumed)
      result) :
    ∃ taken cdp', taken <+: consumed ∧ cdp.inbound = taken ++ cdp'.inbound ∧
      navigatePage json cdp session options = some (.ok (), cdp') := by
  obtain ⟨response, hfind, hresult⟩ := Option.bind_eq_some_iff.1 h.navigated
  obtain ⟨hid, values, others, hreceived, hother⟩ := List.find?_eq_some_iff_append.1 hfind
  obtain ⟨before, item, after, rfl, rfl, hitem, rfl⟩ := received_split hreceived
  rw [List.forall_mem_append, List.forall_mem_cons] at hgoes
  obtain ⟨hbefore, -, hafter⟩ := hgoes
  rw [navigationResult] at hresult
  split at hresult
  swap
  · cases hresult
  next hsucceeded =>
  rw [List.append_assoc, List.cons_append] at hinbound
  have hcommand := @commandLoop_append json cdp.nextId "Page.navigate" [] before (after ++ rest)
    item response hbefore hitem (fun value hvalue => by simpa using hother value hvalue) hid
    hsucceeded.1
  rw [← hinbound] at hcommand
  by_cases hmem : options.waitUntil.lifecycleName ∈
      (received json before ++ [response]).foldl recordLifecycleEvent []
  · refine ⟨before ++ [item], _, ?_, ?_, navigatePage_ok_iff.2 ⟨hsend, _, _, _, hcommand,
      hsucceeded.2, waitForLifecycle_ok_iff.2 (.inl ⟨hmem, rfl⟩)⟩⟩
    · exact ⟨after, (List.append_cons ..).symm⟩
    · rw [hinbound, List.append_cons]
  · -- Something was received after the response.
    obtain ⟨earlier, last, hlast, hsession⟩ := h.last
    have hevent := h.event
    rw [received_append hitem] at hlast hevent
    obtain hreceived | ⟨others, value, hreceived⟩ := List.eq_nil_or_concat (received json after)
    · rw [hreceived] at hevent
      exact (hmem (mem_recorded.2 (.inr hevent))).elim
    rw [List.concat_eq_append] at hreceived
    rw [hreceived, List.append_cons, ← List.append_assoc] at hlast hevent
    obtain ⟨rfl, hvalue⟩ := List.append_inj' hlast rfl
    obtain rfl := List.singleton_inj.1 hvalue
    have hvalueSession : InSession session value := by
      refine hsession.resolve_left fun hnone => ?_
      rw [List.find?_eq_none] at hnone
      exact hnone response (by simp) hid
    obtain ⟨between, item', after', rfl, rfl, hitem', -⟩ := received_split hreceived
    rw [List.forall_mem_append] at hafter
    have hname : options.waitUntil.lifecycleName ∈
        (received json between ++ [value]).foldl recordLifecycleEvent
          ((received json before ++ [response]).foldl recordLifecycleEvent []) := by
      rw [← List.foldl_append, ← List.append_assoc]
      exact mem_recorded.2 (.inr hevent)
    obtain ⟨taken, left, final, htaken, hleft, hloop⟩ :=
      @lifecycleLoop_append _ _ _ _ _ (after' ++ rest) _ _ hafter.1 hitem' hvalueSession hname
    rw [List.append_assoc, List.cons_append] at hinbound hcommand
    refine ⟨before ++ item :: taken, _, ?_, ?_, navigatePage_ok_iff.2 ⟨hsend, _, _, _, hcommand,
      hsucceeded.2, waitForLifecycle_ok_iff.2 (.inr ⟨hmem, final, left, hloop, rfl⟩)⟩⟩
    · rw [List.prefix_append_right_inj, List.cons_prefix_cons]
      obtain ⟨missing, hmissing⟩ := htaken
      exact ⟨rfl, missing ++ after', by rw [← List.append_assoc, hmissing]; simp⟩
    · rw [hinbound, hleft, List.append_assoc, List.cons_append]

/-- The result that a navigation has had does not change with what is received later. -/
theorem navigated_mono {id : Nat} {values more : List Value} {result : Value}
    (hle : values <+: more) (h : navigated id values = some result) :
    navigated id more = some result := by
  obtain ⟨response, hfind, hresult⟩ := Option.bind_eq_some_iff.1 h
  rw [navigated, hle.find?_eq_some hfind]
  exact hresult

end

/-- The wait of `navigate_page` is sound exactly if the document is not overtaken. -/
theorem navigation_sound_iff (json : Codec) (cdp : CdpConnection) (session : String)
    (options : PageLoadOptions) :
    NavigationSound json cdp session options ↔
      ¬ Overtaken json cdp session options.waitUntil.lifecycleName := by
  constructor
  · rintro hsound ⟨hsend, consumed, rest, result, hinbound, hgoes, hsatisfied, hnone⟩
    obtain ⟨taken, cdp', hle, hleft, hok⟩ :=
      navigatePage_satisfied hsend hinbound hgoes hsatisfied
    obtain ⟨taken', result', hleft', hnavigated, value, hvalue, hdocument⟩ := hsound cdp' hok
    obtain rfl : taken' = taken := List.append_cancel_right (hleft'.symm.trans hleft)
    have hle : received json taken' <+: received json consumed := hle.filterMap _
    obtain rfl : result' = result := Option.some.inj
      ((navigated_mono hle hnavigated).symm.trans hsatisfied.navigated)
    exact hnone value (hle.subset hvalue) hdocument
  · intro hovertaken cdp' hok
    obtain ⟨hsend, consumed, result, hinbound, hgoes, hsatisfied⟩ := navigatePage_ok hok
    refine ⟨consumed, result, hinbound, hsatisfied.navigated, ?_⟩
    by_contra hnone
    refine hovertaken ⟨hsend, consumed, cdp'.inbound, result, hinbound, hgoes, hsatisfied, ?_⟩
    exact fun value hvalue hdocument => hnone ⟨value, hvalue, hdocument⟩

/-- The `load` event of `about:blank`, in the session `S` and the frame `F`. -/
def blankText : String :=
  "\x7b\"method\":\"Page.lifecycleEvent\",\"sessionId\":\"S\",\"params\":" ++
    "\x7b\"frameId\":\"F\",\"loaderId\":\"B\",\"name\":\"load\"\x7d\x7d"

/-- Its value. -/
def blankValue : Value :=
  .object [("method", .string "Page.lifecycleEvent"), ("sessionId", .string "S"),
    ("params", .object [("frameId", .string "F"), ("loaderId", .string "B"),
      ("name", .string "load")])]

/-- The response to a `Page.navigate`, which has begun to load the document. -/
def responseText : String :=
  "\x7b\"id\":5,\"sessionId\":\"S\",\"result\":" ++
    "\x7b\"frameId\":\"F\",\"loaderId\":\"L\"\x7d\x7d"

/-- Its value. -/
def responseValue : Value :=
  .object [("id", .number (.posInt 5)), ("sessionId", .string "S"),
    ("result", .object [("frameId", .string "F"), ("loaderId", .string "L")])]

/-- A library that reads the two texts. -/
def navigationCodec : Codec :=
  { fromStr := fun text =>
      if text = blankText then .ok blankValue
      else if text = responseText then .ok responseValue
      else .error "expected value at line 1 column 1"
    toString := fun _ => "null" }

/-- The connection of a page on which the event of `about:blank` is late, and the document does not
load in time. -/
def lateBlank : CdpConnection :=
  { inbound := [.message (.text blankText), .message (.text responseText), .elapsed]
    sendError := none
    nextId := 5
    lifecycleEvents := []
    sent := [] }

/-- The document that was there before ends the wait for the one asked for. -/
theorem navigation_unsound :
    ¬ NavigationSound navigationCodec lateBlank "S"
        ⟨"https://example.com", .load, 30000000000⟩ := by
  intro h
  obtain ⟨consumed, result, hconsumed, hnavigated, value, hvalue, -, -, params, frame, loader,
    hparams, -, -, hloader, hresult⟩ := h _ rfl
  have hconsumed : consumed ++ [.elapsed] =
      [.message (.text blankText), .message (.text responseText)] ++ [.elapsed] := hconsumed.symm
  obtain rfl := List.append_cancel_right hconsumed
  have hresult' : (responseValue.get "result").getD .null = result := Option.some.inj hnavigated
  have hvalue : value ∈ [blankValue, responseValue] := hvalue
  rw [← hresult'] at hresult
  obtain rfl : "L" = loader := Value.string.inj (Option.some.inj hresult)
  rw [List.mem_pair] at hvalue
  obtain rfl | rfl := hvalue
  · obtain rfl := Option.some.inj hparams
    exact absurd hloader (by decide)
  · cases hparams

/-! ## No event is missed -/

/-- What arrives at this place is this value. -/
def ArrivesAt (json : Codec) (inbound : List Inbound) (i : Nat) (value : Value) : Prop :=
  ∃ item, inbound[i]? = some item ∧ item.value json = some value

/-- Up to a place, the values received end with the one that arrives there. -/
theorem ArrivesAt.take_succ {json : Codec} {inbound : List Inbound} {i : Nat} {value : Value}
    (h : ArrivesAt json inbound i value) :
    received json (inbound.take (i + 1)) = received json (inbound.take i) ++ [value] := by
  obtain ⟨item, hitem, hvalue⟩ := h
  rw [List.take_add_one, hitem, Option.toList_some, received_append hvalue]
  rfl

/-- What has arrived at a place is among the values received up to any later one. -/
theorem ArrivesAt.mem_received {json : Codec} {inbound : List Inbound} {i j : Nat} {value : Value}
    (h : ArrivesAt json inbound i value) (hij : i < j) :
    value ∈ received json (inbound.take j) := by
  obtain ⟨item, hitem, hvalue⟩ := h
  refine List.mem_filterMap.2 ⟨item, ?_, hvalue⟩
  obtain ⟨hlt, rfl⟩ := List.getElem?_eq_some_iff.1 hitem
  exact List.mem_take_iff_getElem.2 ⟨i, by omega, rfl⟩

/-- **No lifecycle event is missed.** Where the response to `Page.navigate` arrives without an
error, and an event of the page's session with the awaited name, the one before or after the other
and among whatever else, and nothing ends the wait until both have, `navigate_page` succeeds and has
consumed nothing past the later of the two. -/
theorem navigation_not_missed (json : Codec) (cdp : CdpConnection) (session : String)
    (options : PageLoadOptions) (i j : Nat) (response event : Value)
    (hsend : cdp.sendError = none)
    (hgoes : ∀ item ∈ cdp.inbound.take (max i j + 1), item.goesOn json)
    (hresponse : ArrivesAt json cdp.inbound i response)
    (hid : hasId cdp.nextId response = true)
    (hfirst : ∀ value ∈ received json (cdp.inbound.take i), hasId cdp.nextId value = false)
    (herror : response.get "error" = none)
    (herrorText : (((response.get "result").getD .null).get "errorText").bind Value.asStr = none)
    (hevent : ArrivesAt json cdp.inbound j event) (hsession : InSession session event)
    (hname : Named options.waitUntil.lifecycleName event) :
    ∃ consumed cdp', navigatePage json cdp session options = some (.ok (), cdp') ∧
      cdp.inbound = consumed ++ cdp'.inbound ∧ consumed.length ≤ max i j + 1 := by
  have hnone : (received json (cdp.inbound.take i)).find? (hasId cdp.nextId) = none := by
    rw [List.find?_eq_none]
    intro value hvalue
    rw [hfirst value hvalue]
    exact Bool.false_ne_true
  have hfind : ∀ n, i < n →
      (received json (cdp.inbound.take n)).find? (hasId cdp.nextId) = some response := by
    intro n hn
    obtain ⟨more, hmore⟩ : cdp.inbound.take (i + 1) <+: cdp.inbound.take n :=
      List.take_prefix_take_left hn
    rw [← hmore, received, List.filterMap_append]
    show ((received json (cdp.inbound.take (i + 1))) ++ _).find? _ = _
    rw [hresponse.take_succ, List.append_assoc, List.find?_append, hnone, Option.none_or,
      List.singleton_append, List.find?_cons_of_pos hid]
  have hlast : ∃ earlier value, received json (cdp.inbound.take (max i j + 1)) =
      earlier ++ [value] ∧ (earlier.find? (hasId cdp.nextId) = none ∨ InSession session value) := by
    obtain hij | hji := Nat.lt_or_ge i j
    · rw [Nat.max_eq_right (Nat.le_of_lt hij)]
      exact ⟨_, _, hevent.take_succ, .inr hsession⟩
    · rw [Nat.max_eq_left hji]
      exact ⟨_, _, hresponse.take_succ, .inl hnone⟩
  have hsatisfied : Satisfied cdp.nextId session options.waitUntil.lifecycleName
      (received json (cdp.inbound.take (max i j + 1))) ((response.get "result").getD .null) := by
    refine ⟨?_, ⟨event, hevent.mem_received (by omega), hname⟩, hlast⟩
    rw [navigated, hfind _ (by omega)]
    exact if_pos ⟨herror, herrorText⟩
  obtain ⟨taken, cdp', htaken, hinbound, hok⟩ :=
    navigatePage_satisfied hsend (List.take_append_drop _ _).symm hgoes hsatisfied
  exact ⟨taken, cdp', hok, hinbound, Nat.le_trans htaken.length_le (List.length_take_le _ _)⟩

/-- The connection of a page whose event comes after the response, with a frame in between that is
no text. -/
def lateEvent : CdpConnection :=
  { lateBlank with
    inbound := [.message (.text responseText), .message (.binary []),
      .message (.text blankText), .closed] }

/-- The event is not missed there. -/
theorem navigation_not_missed_late :
    ∃ consumed cdp', navigatePage navigationCodec lateEvent "S"
        ⟨"https://example.com", .load, 30000000000⟩ = some (.ok (), cdp') ∧
      lateEvent.inbound = consumed ++ cdp'.inbound ∧ consumed.length ≤ max 0 2 + 1 := by
  refine navigation_not_missed navigationCodec lateEvent "S" _ 0 2 responseValue blankValue rfl ?_
    ⟨_, rfl, rfl⟩ rfl nofun rfl rfl ⟨_, rfl, rfl⟩ rfl ⟨rfl, _, rfl, rfl⟩
  intro item hitem
  have hitem : item ∈ [Inbound.message (.text responseText), .message (.binary []),
    .message (.text blankText)] := hitem
  simp only [List.mem_cons, List.not_mem_nil, or_false] at hitem
  obtain rfl | rfl | rfl := hitem
  · exact .inr ⟨responseValue, rfl⟩
  · exact .inl rfl
  · exact .inr ⟨blankValue, rfl⟩

end Eiger
