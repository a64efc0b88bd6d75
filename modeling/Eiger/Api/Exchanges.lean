import Eiger.Api.Calls
import Eiger.Lib.Dialogue

/-!
# Exchanges over a CDP connection

The REST endpoints are programs over a `CdpConnection`: `Cdp` is their monad, in which they are
written as in the source. An `Exchange` is one use of the connection with what it returned; the
dialogues of a program are lists of them (`protocol`).

A program that follows scripts returns a result exactly by completing one, and returns an error
exactly by stopping in one; what it has sent is what the script asks, numbered from the next id of
the connection on (`result_iff_of_converses`, `error_iff_of_converses`).
-/

namespace Eiger

open Json Transition Dialogue

/-! ## Programs -/

/-- A program over a CDP connection, which may fail. -/
abbrev Cdp := Program RestEndpointError CdpConnection

namespace Cdp

/-- `command`, where the sending of the request with an id may fail. -/
def command (json : Codec) (sends : Nat → Option String) (session : Option String)
    (method : String) (params : Value) : Cdp Value :=
  ExceptT.mk fun cdp =>
    { cdp with sendError := sends cdp.nextId }.command json session method params

/-- `wait_for_lifecycle`. -/
def waitForLifecycle (json : Codec) (session : String) (waitUntil : WaitUntil) : Cdp Unit :=
  ExceptT.mk fun cdp => cdp.waitForLifecycle json session waitUntil

/-- `lifecycle_events.clear()`. -/
def clearLifecycleEvents : Cdp Unit :=
  ExceptT.mk fun cdp => some (.ok (), { cdp with lifecycleEvents := [] })

end Cdp

/-! ## Exchanges -/

/-- What is asked of a connection. -/
inductive Question where
  | command (session : Option String) (method : String) (params : Value)
  | wait (session : String) (waitUntil : WaitUntil)
  | clear
  deriving DecidableEq

/-- A use of a connection and what it returned. -/
inductive Exchange where
  | command (session : Option String) (method : String) (params : Value)
      (answer : Except RestEndpointError Value)
  | wait (session : String) (waitUntil : WaitUntil) (answer : Except RestEndpointError Unit)
  | clear

namespace Exchange

/-- What is asked in an exchange. -/
def question : Exchange → Question
  | .command session method params _ => .command session method params
  | .wait session waitUntil _ => .wait session waitUntil
  | .clear => .clear

/-- What a command is answered. -/
def answer : Exchange → Option Value
  | .command _ _ _ (.ok value) => some value
  | _ => none

/-- The error that an exchange ends with, if it does. -/
def failure : Exchange → Option RestEndpointError
  | .command _ _ _ (.error error) => some error
  | .wait _ _ (.error error) => some error
  | _ => none

/-- The connection after an exchange, if the use returns what the exchange says, where the sending
of the request with an id may fail. -/
def step (json : Codec) (sends : Nat → Option String) (cdp : CdpConnection) :
    Exchange → Option CdpConnection
  | .command session method params answer =>
    (exec (Cdp.command json sends session method params) cdp).bind fun returned =>
      if returned.1 = answer then some returned.2 else none
  | .wait session waitUntil answer =>
    (exec (Cdp.waitForLifecycle json session waitUntil) cdp).bind fun returned =>
      if returned.1 = answer then some returned.2 else none
  | .clear => some { cdp with lifecycleEvents := [] }

/-- A use returns what an exchange says, and leaves the connection so. -/
theorem returned_iff {α : Type} [DecidableEq α]
    {used : Option (Except RestEndpointError α × CdpConnection)}
    {answer : Except RestEndpointError α} {cdp' : CdpConnection} :
    (used.bind fun returned => if returned.1 = answer then some returned.2 else none) = some cdp' ↔
      used = some (answer, cdp') := by
  rw [Option.bind_eq_some_iff]
  constructor
  · rintro ⟨⟨returned, later⟩, hused, hsame⟩
    rw [Option.ite_none_right_eq_some] at hsame
    obtain ⟨rfl, hlater⟩ := hsame
    cases hlater
    exact hused
  · exact fun hused => ⟨_, hused, if_pos rfl⟩

section

variable {json : Codec} {sends : Nat → Option String} {cdp cdp' : CdpConnection} {x : Exchange}

/-- A command that is carried out. -/
theorem step_command {session : Option String} {method : String} {params : Value}
    {answer : Except RestEndpointError Value} :
    step json sends cdp (.command session method params answer) = some cdp' ↔
      exec (Cdp.command json sends session method params) cdp = some (answer, cdp') :=
  returned_iff

/-- A wait that is carried out. -/
theorem step_wait {session : String} {waitUntil : WaitUntil}
    {answer : Except RestEndpointError Unit} :
    step json sends cdp (.wait session waitUntil answer) = some cdp' ↔
      exec (Cdp.waitForLifecycle json session waitUntil) cdp = some (answer, cdp') :=
  returned_iff

/-- An exchange is a use of the connection. -/
theorem use_step (h : x.step json sends cdp = some cdp') :
    ∃ use : CdpUse, use.step json cdp = some cdp' := by
  cases x with
  | command session method params answer =>
    refine ⟨.command (sends cdp.nextId) session method params, ?_⟩
    have hcommand : { cdp with sendError := sends cdp.nextId }.command json session method params =
        some (answer, cdp') := step_command.1 h
    rw [CdpUse.step, hcommand]
    rfl
  | wait session waitUntil answer =>
    refine ⟨.wait session waitUntil, ?_⟩
    have hwait : cdp.waitForLifecycle json session waitUntil = some (answer, cdp') := step_wait.1 h
    rw [CdpUse.step, hwait]
    rfl
  | clear => exact ⟨.clear, h⟩

/-- An exchange in which a command is asked. -/
theorem eq_command {session : Option String} {method : String} {params : Value}
    (h : x.question = .command session method params) :
    ∃ answer, x = .command session method params answer := by
  cases x with
  | command session method params answer =>
    cases h
    exact ⟨answer, rfl⟩
  | wait session waitUntil answer => cases h
  | clear => cases h

/-- One in which it is answered. -/
theorem eq_answered {session : Option String} {method : String} {params value : Value}
    (h : x.question = .command session method params) (hanswer : x.answer = some value) :
    x = .command session method params (.ok value) := by
  obtain ⟨answer, rfl⟩ := eq_command h
  cases answer with
  | error error => cases hanswer
  | ok answered =>
    cases hanswer
    rfl

/-- One in which it fails. -/
theorem eq_failed {session : Option String} {method : String} {params : Value}
    {error : RestEndpointError} (h : x.question = .command session method params)
    (hfailure : x.failure = some error) : x = .command session method params (.error error) := by
  obtain ⟨answer, rfl⟩ := eq_command h
  cases answer with
  | error failed =>
    cases hfailure
    rfl
  | ok answered => cases hfailure

/-- An exchange in which an event is waited for. -/
theorem eq_wait {session : String} {waitUntil : WaitUntil}
    (h : x.question = .wait session waitUntil) : ∃ answer, x = .wait session waitUntil answer := by
  cases x with
  | command session method params answer => cases h
  | wait session waitUntil answer =>
    cases h
    exact ⟨answer, rfl⟩
  | clear => cases h

end

end Exchange

/-- The exchanges of a CDP connection, where the sending of the request with an id may fail. -/
def protocol (json : Codec) (sends : Nat → Option String) :
    Protocol CdpConnection Exchange Question RestEndpointError :=
  { step := Exchange.step json sends, call := Exchange.question, failure := Exchange.failure }

/-- Exchanges are uses of the connection: what is known of these is known of them. -/
theorem uses_of_exchanged {json : Codec} {sends : Nat → Option String} {cdp cdp' : CdpConnection}
    {xs : List Exchange} (h : (protocol json sends).Exchanged cdp xs cdp') :
    ∃ uses, Uses json cdp uses cdp' := by
  induction h with
  | nil => exact ⟨[], .nil⟩
  | snoc _ _ hs ih =>
    obtain ⟨uses, huses⟩ := ih
    obtain ⟨use, huse⟩ := Exchange.use_step hs
    exact ⟨uses ++ [use], .snoc huses trivial huse⟩

/-! ## Scripts -/

/-- A line of a script over a CDP connection. -/
abbrev CdpLine := Line Exchange Question RestEndpointError

namespace CdpLine

/-- A command whose answer is read as this. -/
def read {α : Type} (session : Option String) (method : String) (params : Value)
    (read : Value → Except RestEndpointError α) (a : α) : CdpLine where
  call := .command session method params
  accepts x := ∃ value, x.answer = some value ∧ read value = .ok a
  rejects x error := ∃ value, x.answer = some value ∧ read value = .error error
  apart := by
    rintro x error ⟨value, hvalue, hread⟩ ⟨value', hvalue', hread'⟩
    cases hvalue.symm.trans hvalue'
    cases hread.symm.trans hread'

/-- A command whose answer is not looked at. -/
def tell (session : String) (method : String) (params : Value) : CdpLine :=
  read (some session) method params (fun _ => .ok ()) ()

/-- A wait for a lifecycle event. -/
def wait (session : String) (waitUntil : WaitUntil) : CdpLine where
  call := .wait session waitUntil
  accepts _ := True
  rejects _ _ := False
  apart _ := id

/-- The events are cleared. -/
def clear : CdpLine where
  call := .clear
  accepts _ := True
  rejects _ _ := False
  apart _ := id

end CdpLine

namespace Cdp

variable {json : Codec} {sends : Nat → Option String}

/-- **A command whose answer is read is one line.** -/
theorem converses_read {α : Type} [Nonempty α] (session : Option String) (method : String)
    (params : Value) (read : Value → Except RestEndpointError α) :
    (protocol json sends).Converses
      (command json sends session method params >>= fun value => fromExcept (read value))
      fun a script => script = [CdpLine.read session method params read a] := by
  refine .ask (fun cdp r cdp' => ⟨fun hexec => ?_, ?_⟩) fun cdp a x hexec hcall => ?_
  · obtain ⟨e, hcommand, rfl⟩ | ⟨value, later, hcommand, hread⟩ := exec_bind_cases hexec
    · obtain ⟨a⟩ := ‹Nonempty α›
      exact ⟨.command session method params (.error e), Exchange.step_command.2 hcommand,
        .inr ⟨a, e, rfl, rfl, .inl rfl⟩⟩
    · rw [exec_fromExcept] at hread
      cases hread
      refine ⟨.command session method params (.ok value), Exchange.step_command.2 hcommand, ?_⟩
      cases hr : read value with
      | ok a => exact .inl ⟨a, rfl, rfl, rfl, value, rfl, hr⟩
      | error e =>
        obtain ⟨a⟩ := ‹Nonempty α›
        exact .inr ⟨a, e, rfl, rfl, .inr ⟨rfl, value, rfl, hr⟩⟩
  · rintro ⟨x, hstep, ⟨a, rfl, hcall, -, value, hanswer, hread⟩ |
      ⟨a, e, rfl, hcall, hfailure | ⟨-, value, hanswer, hread⟩⟩⟩
    · obtain rfl := Exchange.eq_answered hcall hanswer
      rw [exec_bind_ok (Exchange.step_command.1 hstep), exec_fromExcept, hread]
    · obtain rfl := Exchange.eq_failed hcall hfailure
      exact exec_bind_error (Exchange.step_command.1 hstep)
    · obtain rfl := Exchange.eq_answered hcall hanswer
      rw [exec_bind_ok (Exchange.step_command.1 hstep), exec_fromExcept, hread]
  · obtain ⟨answer, rfl⟩ := Exchange.eq_command hcall
    obtain hcommand | ⟨value, later, -, hread⟩ := exec_bind_none hexec
    · show (exec (command json sends session method params) cdp).bind _ = none
      rw [hcommand]
      rfl
    · cases hread

/-- So is one whose answer is not looked at. -/
theorem converses_tell (session method : String) (params : Value) :
    (protocol json sends).Converses
      (command json sends (some session) method params >>= fun _ => pure ())
      fun _ script => script = [CdpLine.tell session method params] :=
  converses_read (some session) method params fun _ => .ok ()

/-- A wait is one line. -/
theorem converses_wait (session : String) (waitUntil : WaitUntil) :
    (protocol json sends).Converses (waitForLifecycle json session waitUntil)
      fun _ script => script = [CdpLine.wait session waitUntil] := by
  refine .ask (fun cdp r cdp' => ⟨fun hexec => ?_, ?_⟩) fun cdp a x hexec hcall => ?_
  · refine ⟨.wait session waitUntil r, (@Exchange.step_wait json sends ..).2 hexec, ?_⟩
    cases r with
    | ok value => exact .inl ⟨value, rfl, rfl, rfl, trivial⟩
    | error error => exact .inr ⟨(), error, rfl, rfl, .inl rfl⟩
  · rintro ⟨x, hstep, ⟨a, rfl, hcall, hfine, -⟩ | ⟨a, e, rfl, hcall, hfailure | ⟨-, hrejects⟩⟩⟩
    · obtain ⟨answer, rfl⟩ := Exchange.eq_wait hcall
      cases answer with
      | error error => cases hfine
      | ok value => exact (@Exchange.step_wait json sends ..).1 hstep
    · obtain ⟨answer, rfl⟩ := Exchange.eq_wait hcall
      cases answer with
      | error error =>
        cases hfailure
        exact (@Exchange.step_wait json sends ..).1 hstep
      | ok value => cases hfailure
    · cases hrejects
  · obtain ⟨answer, rfl⟩ := Exchange.eq_wait hcall
    show (exec (waitForLifecycle json session waitUntil) cdp).bind _ = none
    rw [hexec]
    rfl

/-- The events are cleared in one line. -/
theorem converses_clear : (protocol json sends).Converses clearLifecycleEvents
    fun _ script => script = [CdpLine.clear] := by
  refine .ask (fun cdp r cdp' => ⟨fun hexec => ?_, ?_⟩) fun cdp a x hexec _ => by cases hexec
  · cases hexec
    exact ⟨.clear, rfl, .inl ⟨(), rfl, rfl, rfl, trivial⟩⟩
  · rintro ⟨x, hstep, ⟨a, rfl, hcall, -⟩ | ⟨a, e, rfl, hcall, hfailure | ⟨-, hrejects⟩⟩⟩
    · cases x with
      | clear =>
        cases hstep
        rfl
      | command session method params answer => cases hcall
      | wait session waitUntil answer => cases hcall
    · cases x with
      | clear => cases hfailure
      | command session method params answer => cases hcall
      | wait session waitUntil answer => cases hcall
    · cases hrejects

end Cdp

/-! ## What is sent -/

/-- The requests of what is asked, from an id on. -/
def asked : Nat → List Question → List Value
  | _, [] => []
  | id, .command session method params :: questions =>
    CdpConnection.request id session method params :: asked (id + 1) questions
  | id, .wait .. :: questions => asked id questions
  | id, .clear :: questions => asked id questions

section

variable {json : Codec} {sends : Nat → Option String} {cdp cdp' : CdpConnection}

/-- A command whose request cannot be sent fails, and sends nothing. -/
theorem exec_command_unsent {reason : String} (hsend : sends cdp.nextId = some reason)
    (session : Option String) (method : String) (params : Value) :
    exec (Cdp.command json sends session method params) cdp =
      some (.error (.cdpWebSocket reason),
        { cdp with sendError := some reason, nextId := cdp.nextId + 1 }) := by
  show { cdp with sendError := sends cdp.nextId }.command json session method params = _
  rw [hsend]
  rfl

/-- The connection after a command whose request was sent. -/
def afterCommand (cdp : CdpConnection) (session : Option String) (method : String) (params : Value)
    (later : List String) (rest : List Inbound) : CdpConnection :=
  { inbound := rest, sendError := none, nextId := cdp.nextId + 1, lifecycleEvents := later,
    sent := cdp.sent ++ [CdpConnection.request cdp.nextId session method params] }

/-- Any other goes into its loop. -/
theorem exec_command_sent (hsend : sends cdp.nextId = none) (session : Option String)
    (method : String) (params : Value) :
    exec (Cdp.command json sends session method params) cdp =
      (commandLoop json cdp.nextId method cdp.lifecycleEvents cdp.inbound).map fun ended =>
        (ended.1, afterCommand cdp session method params ended.2.1 ended.2.2) := by
  show { cdp with sendError := sends cdp.nextId }.command json session method params = _
  rw [hsend]
  rfl

/-- What an exchange sends: the request of its question, if it does not fail. -/
theorem Exchange.step_sent {x : Exchange} (h : x.step json sends cdp = some cdp') :
    cdp'.sent <+: cdp.sent ++ asked cdp.nextId [x.question] ∧
      (x.failure = none → cdp'.sent = cdp.sent ++ asked cdp.nextId [x.question] ∧
        ∀ questions, asked cdp.nextId (x.question :: questions) =
          asked cdp.nextId [x.question] ++ asked cdp'.nextId questions) := by
  cases x with
  | command session method params answer =>
    have hcommand := step_command.1 h
    cases hsend : sends cdp.nextId with
    | some reason =>
      rw [exec_command_unsent hsend] at hcommand
      cases hcommand
      exact ⟨List.prefix_append _ _, fun hfine => by cases hfine⟩
    | none =>
      rw [exec_command_sent hsend, Option.map_eq_some_iff] at hcommand
      obtain ⟨⟨returned, later, rest⟩, -, hended⟩ := hcommand
      cases hended
      exact ⟨List.prefix_refl _, fun _ => ⟨rfl, fun _ => rfl⟩⟩
  | wait session waitUntil answer =>
    have hwait : cdp.waitForLifecycle json session waitUntil = some (answer, cdp') :=
      step_wait.1 h
    obtain ⟨hnext, -, hsent⟩ := wait_connection hwait
    rw [hsent, hnext]
    refine ⟨List.prefix_append _ _, fun _ => ⟨?_, fun _ => rfl⟩⟩
    exact (List.append_nil _).symm
  | clear =>
    cases h
    refine ⟨List.prefix_append _ _, fun _ => ⟨?_, fun _ => rfl⟩⟩
    exact (List.append_nil _).symm

/-- Exchanges that do not fail send the requests of all that is asked in them. -/
theorem Exchanged.sent {xs : List Exchange} (h : (protocol json sends).Exchanged cdp xs cdp')
    (hfine : ∀ x ∈ xs, x.failure = none) (questions : List Question) :
    cdp'.sent = cdp.sent ++ asked cdp.nextId (xs.map Exchange.question) ∧
      asked cdp.nextId (xs.map Exchange.question ++ questions) =
        asked cdp.nextId (xs.map Exchange.question) ++ asked cdp'.nextId questions := by
  induction xs generalizing cdp with
  | nil =>
    obtain rfl := h.unique (.nil : Run (Exchange.step json sends) (fun _ _ => True) cdp [] cdp)
    exact ⟨(List.append_nil _).symm, rfl⟩
  | cons x xs ih =>
    obtain ⟨later, -, hstep, hrest⟩ := h.cons_inv
    obtain ⟨hx, hxs⟩ := List.forall_mem_cons.1 hfine
    obtain ⟨hsent, hfirst⟩ := (Exchange.step_sent hstep).2 hx
    obtain ⟨hsent', hmore⟩ := ih hrest hxs
    rw [List.map_cons, List.cons_append, hfirst (xs.map Exchange.question),
      hfirst (xs.map Exchange.question ++ questions), hsent', hmore, hsent]
    exact ⟨List.append_assoc .., (List.append_assoc ..).symm⟩

/-- The dialogue went through the whole script: each exchange met its line, and all that the script
asks was sent, with ids from the next one on. -/
structure Scripted (json : Codec) (sends : Nat → Option String) (cdp : CdpConnection)
    (script : List CdpLine) (xs : List Exchange) (cdp' : CdpConnection) : Prop where
  exchanged : (protocol json sends).Exchanged cdp xs cdp'
  met : List.Forall₂ (protocol json sends).Meets script xs
  sent : cdp'.sent = cdp.sent ++ asked cdp.nextId (script.map Line.call)

/-- The dialogue stopped in the script with an error: the exchanges met the lines `before`, and the
last exchange missed `line`, as it failed with this error or its answer was rejected with it; it did
not meet the line. Nothing was sent after its request. -/
structure Stopped (json : Codec) (sends : Nat → Option String) (cdp : CdpConnection)
    (before : List CdpLine) (line : CdpLine) (xs : List Exchange) (x : Exchange)
    (error : RestEndpointError) (cdp' : CdpConnection) : Prop where
  exchanged : (protocol json sends).Exchanged cdp (xs ++ [x]) cdp'
  met : List.Forall₂ (protocol json sends).Meets before xs
  missed : (protocol json sends).Misses line x error
  unmet : ¬ (protocol json sends).Meets line x
  sent : cdp'.sent <+: cdp.sent ++ asked cdp.nextId ((before ++ [line]).map Line.call)

section

variable {α : Type} {p : Cdp α} {scripts : α → List CdpLine → Prop}

/-- **A program that follows scripts returns a result** exactly where a script for it is
completed. -/
theorem result_iff_of_converses (hp : (protocol json sends).Converses p scripts) {a : α} :
    exec p cdp = some (.ok a, cdp') ↔
      ∃ script xs, scripts a script ∧ Scripted json sends cdp script xs cdp' := by
  rw [hp.returns]
  constructor
  · rintro ⟨xs, hxs, hfollows⟩
    cases hfollows with
    | @returned _ script _ hscript hmet =>
      obtain ⟨hsent, -⟩ := Exchanged.sent hxs (Protocol.fine_of_meets hmet) []
      rw [show xs.map Exchange.question = _ from Protocol.map_call_of_meets hmet] at hsent
      exact ⟨script, xs, hscript, hxs, hmet, hsent⟩
  · rintro ⟨script, xs, hscript, hcompleted⟩
    exact ⟨xs, hcompleted.exchanged, .returned hscript hcompleted.met⟩

/-- **It returns an error** exactly where it has stopped in a script with it. -/
theorem error_iff_of_converses (hp : (protocol json sends).Converses p scripts)
    {error : RestEndpointError} :
    exec p cdp = some (.error error, cdp') ↔
      ∃ a before line rest xs x, scripts a (before ++ line :: rest) ∧
        Stopped json sends cdp before line xs x error cdp' := by
  rw [hp.returns]
  constructor
  · rintro ⟨xs, hxs, hfollows⟩
    cases hfollows with
    | @stopped a before rest line xs x _ hscript hmet hmissed =>
      refine ⟨a, before, line, rest, xs, x, hscript, hxs, hmet, hmissed, hmissed.not_meets, ?_⟩
      obtain ⟨later, hbefore, hlast⟩ := hxs.split
      obtain ⟨hsent, hmore⟩ := Exchanged.sent hbefore (Protocol.fine_of_meets hmet) [x.question]
      have hasked : xs.map Exchange.question = before.map Line.call :=
        Protocol.map_call_of_meets hmet
      rw [List.map_append, List.map_singleton, ← hasked,
        ← show x.question = line.call from hmissed.call, hmore, ← List.append_assoc, ← hsent]
      exact (Exchange.step_sent hlast.single_inv.2).1
  · rintro ⟨a, before, line, rest, xs, x, hscript, hstopped⟩
    exact ⟨xs ++ [x], hstopped.exchanged, .stopped hscript hstopped.met hstopped.missed⟩

end

end

end Eiger
