import Eiger.Proxy.Model

/-!
# The stealth controller

`run_stealth_controller` has the browser attach to every new target and stop it until it is told to
go on. It answers the events that tell of this: it attaches to a page that has been created, and
puts the stealth scripts into one that it has been attached to, before it lets it run. No target
stays paused: `stealth_replies`.

The commands that answer a message are given as a list, and are then sent in turn, the rest of them
not being sent if sending one fails.
-/

namespace Eiger

open Json

/-! ## The commands -/

/-- A command of the controller, with the session that it is for, if any. -/
structure ControllerCommand where
  session : Option String
  method : String
  params : Value
  deriving DecidableEq, Repr

/-- The request that `send_cdp_message` builds. -/
def ControllerCommand.request (id : Nat) (command : ControllerCommand) : Value :=
  .object ([("id", .number (.posInt id)), ("method", .string command.method),
    ("params", command.params)] ++
      (command.session.map fun session => ("sessionId", .string session)).toList)

/-- The commands before the loop. -/
def controllerSetup : List ControllerCommand :=
  [⟨none, "Target.setAutoAttach", .object [("autoAttach", .bool true), ("flatten", .bool true),
      ("waitForDebuggerOnStart", .bool true)]⟩,
    ⟨none, "Target.setDiscoverTargets", .object [("discover", .bool true)]⟩]

/-- The command that attaches to a target. -/
def attachCommand (targetId : String) : ControllerCommand :=
  ⟨none, "Target.attachToTarget",
    .object [("flatten", .bool true), ("targetId", .string targetId)]⟩

/-- The command that lets a target run. -/
def runCommand (session : String) : ControllerCommand :=
  ⟨some session, "Runtime.runIfWaitingForDebugger", .object []⟩

/-- The commands that put a script into a target. -/
def scriptCommands (session : String) (script : StealthScript) : List ControllerCommand :=
  [⟨some session, "Page.enable", .object []⟩,
    ⟨some session, "Page.addScriptToEvaluateOnNewDocument",
      .object [("runImmediately", .bool true), ("source", .string script.source)]⟩,
    ⟨some session, "Runtime.evaluate", .object [("expression", .string script.source)]⟩]

/-- The type of target is one that scripts are put into. -/
def isPageType (targetType : Option String) : Bool :=
  targetType = some "page" ∨ targetType = some "iframe"

/-- The commands with which the body of the loop answers a message. -/
def controllerCommands (scripts : List StealthScript) (value : Value) : List ControllerCommand :=
  match (value.get "method").bind Value.asStr with
  | none => []
  | some method =>
    if method = "Target.targetCreated" then
      match (value.get "params").bind (·.get "targetInfo") with
      | none => []
      | some targetInfo =>
        let targetType := (targetInfo.get "type").bind Value.asStr
        match (targetInfo.get "targetId").bind Value.asStr with
        | none => []
        | some targetId => if isPageType targetType then [attachCommand targetId] else []
    else if method = "Target.attachedToTarget" then
      match value.get "params" with
      | none => []
      | some params =>
        match (params.get "sessionId").bind Value.asStr with
        | none => []
        | some session =>
          let targetType := ((params.get "targetInfo").bind (·.get "type")).bind Value.asStr
          if !isPageType targetType then [runCommand session]
          else scripts.flatMap (scriptCommands session) ++ [runCommand session]
    else []

/-! ## The loop -/

/-- The `next_id` of the controller, and the requests that it has sent. -/
structure StealthController where
  nextId : Nat
  sent : List Value
  deriving DecidableEq, Repr

/-- `send_cdp_message`, with the error of sending the request of an id, if that fails. -/
def StealthController.sendCdpMessage (sendError : Nat → Option String)
    (controller : StealthController) (command : ControllerCommand) :
    StealthController × Option BrowserError :=
  let id := controller.nextId
  match sendError id with
  | some error => ({ controller with nextId := id + 1 }, some (.webSocket error))
  | none => ({ nextId := id + 1, sent := controller.sent ++ [command.request id] }, none)

/-- Sends one command after another. An error ends it. -/
def StealthController.sendAll (sendError : Nat → Option String) :
    StealthController → List ControllerCommand → StealthController × Option BrowserError
  | controller, [] => (controller, none)
  | controller, command :: commands =>
    match controller.sendCdpMessage sendError command with
    | (controller, some error) => (controller, some error)
    | (controller, none) => controller.sendAll sendError commands

/-- The loop of `run_stealth_controller`, at what arrives until the socket closes. -/
def controllerLoop (json : Codec) (scripts : List StealthScript) (sendError : Nat → Option String) :
    StealthController → List (Except String UpstreamMessage) →
      StealthController × Except BrowserError Unit
  | controller, [] => (controller, .ok ())
  | controller, .error error :: _ => (controller, .error (.webSocket error))
  | controller, .ok (.text text) :: rest =>
    match json.fromStr text with
    | .error error => (controller, .error (.cdpCommand error))
    | .ok value =>
      match controller.sendAll sendError (controllerCommands scripts value) with
      | (controller, some error) => (controller, .error error)
      | (controller, none) => controllerLoop json scripts sendError controller rest
  | controller, .ok _ :: rest => controllerLoop json scripts sendError controller rest

/-- `run_stealth_controller`, once it has connected. -/
def runStealthController (json : Codec) (scripts : List StealthScript)
    (sendError : Nat → Option String) (inbound : List (Except String UpstreamMessage)) :
    StealthController × Except BrowserError Unit :=
  match StealthController.sendAll sendError { nextId := 10000, sent := [] } controllerSetup with
  | (controller, some error) => (controller, .error error)
  | (controller, none) => controllerLoop json scripts sendError controller inbound

/-! ## What the replies are for -/

/-- The target is a page or a frame. -/
def PageTarget (targetInfo : Value) : Prop :=
  targetInfo.get "type" = some (.string "page") ∨ targetInfo.get "type" = some (.string "iframe")

/-- The message tells that the controller has been attached to a target, in this session. -/
def AttachedTo (value : Value) (session : String) (params : Value) : Prop :=
  value.get "method" = some (.string "Target.attachedToTarget") ∧
    value.get "params" = some params ∧ params.get "sessionId" = some (.string session)

/-- The message tells that a page or a frame has been created, with this id. -/
def PageCreated (value : Value) (targetId : String) : Prop :=
  value.get "method" = some (.string "Target.targetCreated") ∧ ∃ params targetInfo,
    value.get "params" = some params ∧ params.get "targetInfo" = some targetInfo ∧
      PageTarget targetInfo ∧ targetInfo.get "targetId" = some (.string targetId)

/-- The commands are the right reply to a message. A target that the controller has been attached to
is let run, once and after all else, which is the scripts in a page or frame, and nothing in any
other target; it attaches once to a page or frame that has been created; and there is no reply to
another message. -/
inductive Replies (scripts : List StealthScript) (value : Value) : List ControllerCommand → Prop
  | attached (session : String) (params : Value) (block : List ControllerCommand)
      (hattached : AttachedTo value session params)
      (hpage : (∃ info, params.get "targetInfo" = some info ∧ PageTarget info) →
        block = scripts.flatMap (scriptCommands session))
      (hother : (¬ ∃ info, params.get "targetInfo" = some info ∧ PageTarget info) → block = [])
      (hrun : ∀ command ∈ block, command.method ≠ "Runtime.runIfWaitingForDebugger") :
      Replies scripts value (block ++ [runCommand session])
  | created (targetId : String) (hcreated : PageCreated value targetId) :
      Replies scripts value [attachCommand targetId]
  | silent (hattached : ∀ session params, ¬ AttachedTo value session params)
      (hcreated : ∀ targetId, ¬ PageCreated value targetId) : Replies scripts value []

/-- The requests of commands that are sent in turn, from an id on. -/
def numbered (nextId : Nat) (commands : List ControllerCommand) : List Value :=
  commands.mapIdx fun k command => command.request (nextId + k)

/-- The values of the messages that the loop handles: those up to an error, or to a text that is not
JSON. -/
def handled (json : Codec) : List (Except String UpstreamMessage) → List Value
  | [] => []
  | .error _ :: _ => []
  | .ok (.text text) :: rest =>
    match json.fromStr text with
    | .error _ => []
    | .ok value => value :: handled json rest
  | .ok _ :: rest => handled json rest

section

variable {json : Codec} {scripts : List StealthScript} {sendError : Nat → Option String}

/-- Requests have consecutive ids. -/
theorem numbered_append (nextId : Nat) (commands more : List ControllerCommand) :
    numbered nextId (commands ++ more) =
      numbered nextId commands ++ numbered (nextId + commands.length) more := by
  rw [numbered, List.mapIdx_append, numbered, numbered]
  congr 2
  funext k command
  rw [Nat.add_assoc, Nat.add_comm k]

/-- The type of a target says whether it is a page or a frame. -/
theorem isPageType_iff {targetInfo : Value} :
    isPageType ((targetInfo.get "type").bind Value.asStr) = true ↔ PageTarget targetInfo := by
  rw [isPageType, decide_eq_true_iff, Value.asStr_eq_some_iff, Value.asStr_eq_some_iff, PageTarget]

/-- So it does where the target may be missing. -/
theorem isPageType_bind_iff {targetInfo : Option Value} :
    isPageType ((targetInfo.bind (·.get "type")).bind Value.asStr) = true ↔
      ∃ info, targetInfo = some info ∧ PageTarget info := by
  cases targetInfo with
  | none => exact ⟨nofun, fun ⟨_, h, _⟩ => nomatch h⟩
  | some info =>
    rw [Option.bind_some, isPageType_iff]
    exact ⟨fun h => ⟨info, rfl, h⟩, fun ⟨_, heq, h⟩ => Option.some.inj heq ▸ h⟩

/-- No script command lets a target run. -/
theorem method_ne_of_script {session : String} {command : ControllerCommand}
    (h : command ∈ scripts.flatMap (scriptCommands session)) :
    command.method ≠ "Runtime.runIfWaitingForDebugger" := by
  obtain ⟨script, -, h⟩ := List.mem_flatMap.1 h
  simp only [scriptCommands, List.mem_cons, List.not_mem_nil, or_false] at h
  obtain rfl | rfl | rfl := h <;> simp

/-- A page or a frame that has been created is attached to. -/
theorem replies_created {value : Value}
    (hmethod : value.get "method" = some (.string "Target.targetCreated"))
    (hno : ∀ session params, ¬ AttachedTo value session params) :
    Replies scripts value
      (match (value.get "params").bind (·.get "targetInfo") with
      | none => []
      | some targetInfo =>
        let targetType := (targetInfo.get "type").bind Value.asStr
        match (targetInfo.get "targetId").bind Value.asStr with
        | none => []
        | some targetId => if isPageType targetType then [attachCommand targetId] else []) := by
  split
  · next hinfo =>
    refine .silent hno ?_
    rintro targetId ⟨-, params, info, hparams, hinfo', -⟩
    rw [hparams, Option.bind_some, hinfo'] at hinfo
    cases hinfo
  · next info hinfo =>
    have heq : ∀ params info', value.get "params" = some params →
        params.get "targetInfo" = some info' → info' = info := by
      intro params info' hparams hinfo'
      rw [hparams, Option.bind_some, hinfo'] at hinfo
      exact Option.some.inj hinfo
    simp only
    split
    · next hid =>
      refine .silent hno ?_
      rintro targetId ⟨-, params, info', hparams, hinfo', -, hid'⟩
      rw [heq params info' hparams hinfo'] at hid'
      rw [hid'] at hid
      cases hid
    · next targetId hid =>
      split
      · next hpage =>
        obtain ⟨params, hparams, hinfo⟩ := Option.bind_eq_some_iff.1 hinfo
        exact .created targetId ⟨hmethod, params, info, hparams, hinfo, isPageType_iff.1 hpage,
          Value.asStr_eq_some_iff.1 hid⟩
      · next hpage =>
        refine .silent hno ?_
        rintro targetId' ⟨-, params, info', hparams, hinfo', hpage', -⟩
        rw [heq params info' hparams hinfo'] at hpage'
        exact hpage (isPageType_iff.2 hpage')

/-- A target that the controller has been attached to is let run, after the scripts in a page. -/
theorem replies_attached {value : Value}
    (hmethod : value.get "method" = some (.string "Target.attachedToTarget"))
    (hno : ∀ targetId, ¬ PageCreated value targetId) :
    Replies scripts value
      (match value.get "params" with
      | none => []
      | some params =>
        match (params.get "sessionId").bind Value.asStr with
        | none => []
        | some session =>
          let targetType := ((params.get "targetInfo").bind (·.get "type")).bind Value.asStr
          if !isPageType targetType then [runCommand session]
          else scripts.flatMap (scriptCommands session) ++ [runCommand session]) := by
  split
  · next hparams =>
    refine .silent ?_ hno
    rintro session params ⟨-, hparams', -⟩
    rw [hparams] at hparams'
    cases hparams'
  · next params hparams =>
    split
    · next hsession =>
      refine .silent ?_ hno
      rintro session params' ⟨-, hparams', hsession'⟩
      rw [hparams] at hparams'
      cases hparams'
      rw [hsession'] at hsession
      cases hsession
    · next session hsession =>
      have hattached : AttachedTo value session params :=
        ⟨hmethod, hparams, Value.asStr_eq_some_iff.1 hsession⟩
      simp only [Bool.not_eq_true', ← Bool.not_eq_true, ite_not]
      split
      · next hpage =>
        refine .attached session params _ hattached (fun _ => rfl) (fun h => ?_)
          fun _ => method_ne_of_script
        exact (h (isPageType_bind_iff.1 hpage)).elim
      · next hpage =>
        refine .attached session params [] hattached (fun h => ?_) (fun _ => rfl) nofun
        exact (hpage (isPageType_bind_iff.2 h)).elim

/-- Every message is answered as it should be. -/
theorem replies_controllerCommands (scripts : List StealthScript) (value : Value) :
    Replies scripts value (controllerCommands scripts value) := by
  have hattachedMethod : ∀ session params, AttachedTo value session params →
      (value.get "method").bind Value.asStr = some "Target.attachedToTarget" :=
    fun _ _ h => Value.asStr_eq_some_iff.2 h.1
  have hcreatedMethod : ∀ targetId, PageCreated value targetId →
      (value.get "method").bind Value.asStr = some "Target.targetCreated" :=
    fun _ h => Value.asStr_eq_some_iff.2 h.1
  rw [controllerCommands]
  split
  · next hnone =>
    refine .silent (fun session params h => ?_) fun targetId h => ?_
    · rw [hattachedMethod session params h] at hnone
      cases hnone
    · rw [hcreatedMethod targetId h] at hnone
      cases hnone
  next method hmethod =>
  split
  · next hcreate =>
    subst hcreate
    have hno : ∀ session params, ¬ AttachedTo value session params := by
      intro session params h
      rw [hattachedMethod session params h] at hmethod
      simp at hmethod
    exact replies_created (Value.asStr_eq_some_iff.1 hmethod) hno
  · next hcreate =>
    have hno : ∀ targetId, ¬ PageCreated value targetId := by
      intro targetId h
      rw [hcreatedMethod targetId h] at hmethod
      exact hcreate (Option.some.inj hmethod).symm
    split
    · next hattach =>
      subst hattach
      exact replies_attached (Value.asStr_eq_some_iff.1 hmethod) hno
    · next hattach =>
      refine .silent (fun session params h => ?_) hno
      rw [hattachedMethod session params h] at hmethod
      exact hattach (Option.some.inj hmethod).symm

/-- Of the commands that are to be sent in turn, the first are sent, with consecutive ids; and all
of them unless sending fails. -/
theorem sendAll_sent {controller later : StealthController} {commands : List ControllerCommand}
    {failure : Option BrowserError}
    (h : controller.sendAll sendError commands = (later, failure)) :
    ∃ done, done <+: commands ∧ later.sent = controller.sent ++ numbered controller.nextId done ∧
      (failure = none → done = commands ∧
        later.nextId = controller.nextId + commands.length) ∧
      ((∀ id, sendError id = none) → failure = none) := by
  induction commands generalizing controller with
  | nil =>
    cases h
    exact ⟨[], List.prefix_refl _, (List.append_nil _).symm, fun _ => ⟨rfl, rfl⟩, fun _ => rfl⟩
  | cons command commands ih =>
    rw [StealthController.sendAll, StealthController.sendCdpMessage] at h
    cases hsend : sendError controller.nextId with
    | some error =>
      simp only [hsend] at h
      cases h
      refine ⟨[], List.nil_prefix, (List.append_nil _).symm, nofun, fun hall => ?_⟩
      rw [hall] at hsend
      cases hsend
    | none =>
      simp only [hsend] at h
      obtain ⟨done, hdone, hsent, hfull, hall⟩ := ih h
      refine ⟨command :: done, List.cons_prefix_cons.2 ⟨rfl, hdone⟩, ?_, ?_, hall⟩
      · have hnumbered := numbered_append controller.nextId [command] done
        rw [List.singleton_append, List.length_singleton] at hnumbered
        rw [hsent, hnumbered, List.append_assoc]
        rfl
      · intro hfailure
        obtain ⟨rfl, hnext⟩ := hfull hfailure
        refine ⟨rfl, ?_⟩
        rw [hnext, List.length_cons]
        show controller.nextId + 1 + done.length = _
        omega

/-- Of the replies to the messages that the loop handles, the first commands are sent, with
consecutive ids; and all of them unless sending fails. -/
theorem controllerLoop_sent {controller : StealthController}
    {inbound : List (Except String UpstreamMessage)} :
    ∃ done, done <+: (handled json inbound).flatMap (controllerCommands scripts) ∧
      (controllerLoop json scripts sendError controller inbound).1.sent =
        controller.sent ++ numbered controller.nextId done ∧
      ((∀ id, sendError id = none) →
        done = (handled json inbound).flatMap (controllerCommands scripts)) := by
  induction inbound generalizing controller with
  | nil => exact ⟨[], List.prefix_refl _, (List.append_nil _).symm, fun _ => rfl⟩
  | cons item inbound ih =>
    have hstop : ∃ done : List ControllerCommand, done <+: [] ∧
        controller.sent = controller.sent ++ numbered controller.nextId done ∧
        ((∀ id, sendError id = none) → done = []) :=
      ⟨[], List.prefix_refl _, (List.append_nil _).symm, fun _ => rfl⟩
    cases item with
    | error error => exact hstop
    | ok message =>
      cases message with
      | text text =>
        cases hparse : json.fromStr text with
        | error error =>
          rw [controllerLoop, handled, hparse]
          exact hstop
        | ok value =>
          rw [controllerLoop, handled, hparse]
          simp only [List.flatMap_cons]
          cases hsend : controller.sendAll sendError (controllerCommands scripts value) with
          | mk later failure =>
            obtain ⟨done, hdone, hsent, hfull, hall⟩ := sendAll_sent hsend
            cases failure with
            | some error =>
              refine ⟨done, hdone.trans (List.prefix_append _ _), hsent, fun h => ?_⟩
              exact nomatch hall h
            | none =>
              obtain ⟨rfl, hnext⟩ := hfull rfl
              obtain ⟨more, hmore, hsentMore, hallMore⟩ := @ih later
              refine ⟨controllerCommands scripts value ++ more,
                (List.prefix_append_right_inj _).2 hmore, ?_, fun h => by rw [hallMore h]⟩
              rw [numbered_append, ← List.append_assoc, ← hsent, ← hnext]
              exact hsentMore
      | binary | ping | pong | close | frame => exact ih

/-- Of the commands before the loop and the replies to what the loop handles, the first are sent,
with the ids from 10000 on; and all of them unless sending fails. -/
theorem runStealthController_sent (json : Codec) (scripts : List StealthScript)
    (sendError : Nat → Option String) (inbound : List (Except String UpstreamMessage)) :
    ∃ done,
      done <+: controllerSetup ++ (handled json inbound).flatMap (controllerCommands scripts) ∧
      (runStealthController json scripts sendError inbound).1.sent = numbered 10000 done ∧
      ((∀ id, sendError id = none) →
        done = controllerSetup ++ (handled json inbound).flatMap (controllerCommands scripts)) := by
  rw [runStealthController]
  cases hsend : StealthController.sendAll sendError { nextId := 10000, sent := [] }
    controllerSetup with
  | mk controller failure =>
    obtain ⟨done, hdone, hsent, hfull, hall⟩ := sendAll_sent hsend
    cases failure with
    | some error =>
      refine ⟨done, hdone.trans (List.prefix_append _ _), hsent, fun h => ?_⟩
      exact nomatch hall h
    | none =>
      obtain ⟨rfl, hnext⟩ := hfull rfl
      obtain ⟨more, hmore, hsentMore, hallMore⟩ :=
        @controllerLoop_sent json scripts sendError controller inbound
      refine ⟨controllerSetup ++ more, (List.prefix_append_right_inj _).2 hmore, ?_,
        fun h => by rw [hallMore h]⟩
      simp only
      rw [hsentMore, hsent, hnext, numbered_append]
      rfl

end

/-- **The stealth controller leaves no target paused.** It answers every message that it handles as
it should: a target that it has been attached to is let run. Of all these commands it has sent the
first ones, with the ids from 10000 on, and all of them unless sending fails. -/
theorem stealth_replies (json : Codec) (scripts : List StealthScript)
    (sendError : Nat → Option String) (inbound : List (Except String UpstreamMessage)) :
    ∃ replies : List (List ControllerCommand),
      List.Forall₂ (Replies scripts) (handled json inbound) replies ∧
      (runStealthController json scripts sendError inbound).1.sent <+:
        numbered 10000 (controllerSetup ++ replies.flatten) ∧
      ((∀ id, sendError id = none) →
        (runStealthController json scripts sendError inbound).1.sent =
          numbered 10000 (controllerSetup ++ replies.flatten)) := by
  refine ⟨(handled json inbound).map (controllerCommands scripts), ?_, ?_⟩
  · rw [List.forall₂_map_right_iff, List.forall₂_same]
    exact fun value _ => replies_controllerCommands scripts value
  rw [← List.flatMap_def]
  obtain ⟨done, ⟨more, hmore⟩, hsent, hall⟩ :=
    runStealthController_sent json scripts sendError inbound
  refine ⟨?_, fun h => by rw [hsent, hall h]⟩
  rw [hsent, ← hmore, numbered_append]
  exact List.prefix_append _ _

/-- What is sent to a page that it has been attached to, with a script. -/
example : numbered 10003 (controllerCommands [⟨"webdriver", "hide()"⟩]
    (.object [("method", .string "Target.attachedToTarget"),
      ("params", .object [("sessionId", .string "S"),
        ("targetInfo", .object [("type", .string "page")])])])) =
  [.object [("id", .number (.posInt 10003)), ("method", .string "Page.enable"),
      ("params", .object []), ("sessionId", .string "S")],
    .object [("id", .number (.posInt 10004)),
      ("method", .string "Page.addScriptToEvaluateOnNewDocument"),
      ("params", .object [("runImmediately", .bool true), ("source", .string "hide()")]),
      ("sessionId", .string "S")],
    .object [("id", .number (.posInt 10005)), ("method", .string "Runtime.evaluate"),
      ("params", .object [("expression", .string "hide()")]), ("sessionId", .string "S")],
    .object [("id", .number (.posInt 10006)), ("method", .string "Runtime.runIfWaitingForDebugger"),
      ("params", .object []), ("sessionId", .string "S")]] := by decide

end Eiger
