import Eiger.Api.Scripts

/-!
# How page operations end

A page operation reads what arrives until it has a result, or until something ends it: a wait runs
out of time, the connection fails or closes, a request cannot be sent, or an answer is an error or
cannot be read. Up to its last exchange everything that has arrived let it go on, and every request
has been sent (`Calm`); how the last one fails is `Failed`.

So errors tell what happened (`page_errors`): a timeout names what the last exchange waited for, and
it is returned just where that wait has run out of time; the status is 504 then, and it is 400 just
where the last exchange is the evaluation of the selector and its answer says that there is no such
element. And an operation returns just where the handshake of its connection ends, at the latest
with the first wait that runs out of time; it waits no more often than `PageOperation.waits`
(`page_ends`).
-/

namespace Eiger

open Json Text Transition Dialogue

/-! ## The loops -/

section

variable {json : Codec} {inbound rest : List Inbound} {events later : List String}

/-- What lets the connection go on is neither a failure nor the end of the time. -/
theorem goesOn_iff {item : Inbound} :
    item.goesOn json ↔ item ≠ .elapsed ∧ ∀ error, item.turn json ≠ .failed error := by
  rw [Inbound.goesOn]
  cases item with
  | message message =>
    cases message with
    | text text =>
      simp only [Inbound.turn]
      cases json.fromStr text <;> simp
    | _ => simp [Inbound.turn]
  | failed error => simp [Inbound.turn]
  | closed => simp [Inbound.turn]
  | elapsed => simp [Inbound.turn]

/-- How a loop over what arrives has ended: with a message that it could go on after, or with what
ends the wait for this method. All before it let the loop go on. -/
structure LoopEnded {α : Type} (json : Codec) (method : String) (inbound : List Inbound)
    (returned : Except RestEndpointError α) (rest : List Inbound) : Prop where
  split : ∃ before item, inbound = before ++ item :: rest ∧ (∀ x ∈ before, x.goesOn json) ∧
    (item.goesOn json ∧ (∀ error, returned = .error error → ∃ reason, error = .cdpProtocol reason) ∨
      ∃ error, item.failure json method = some error ∧ returned = .error error)

/-- More may have arrived before, and let the loop go on. -/
theorem LoopEnded.cons {α : Type} {method : String} {returned : Except RestEndpointError α}
    {item : Inbound} (h : LoopEnded json method inbound returned rest) (hitem : item.goesOn json) :
    LoopEnded json method (item :: inbound) returned rest := by
  obtain ⟨before, last, rfl, hbefore, hlast⟩ := h.split
  exact ⟨item :: before, last, rfl, List.forall_mem_cons.2 ⟨hitem, hbefore⟩, hlast⟩

/-- How `command` ends. -/
theorem commandLoop_ended {id : Nat} {method : String} {returned : Except RestEndpointError Value}
    (h : commandLoop json id method events inbound = some (returned, later, rest)) :
    LoopEnded json method inbound returned rest := by
  induction inbound generalizing events with
  | nil => cases h
  | cons item inbound ih =>
    cases hturn : item.turn json with
    | skip =>
      rw [commandLoop, hturn] at h
      exact (ih h).cons (.inl hturn)
    | elapsed =>
      rw [commandLoop, hturn] at h
      cases h
      exact ⟨[], item, rfl, List.forall_mem_nil _, .inr ⟨_, by rw [Inbound.failure, hturn], rfl⟩⟩
    | failed error =>
      rw [commandLoop, hturn] at h
      cases h
      exact ⟨[], item, rfl, List.forall_mem_nil _, .inr ⟨_, by rw [Inbound.failure, hturn], rfl⟩⟩
    | value value =>
      rw [commandLoop, hturn] at h
      dsimp only at h
      have hitem : item.goesOn json := .inr ⟨value, hturn⟩
      split at h
      · exact (ih h).cons hitem
      · refine ⟨[], item, ?_, List.forall_mem_nil _, .inl ⟨hitem, fun error herror => ?_⟩⟩
        · split at h <;> cases h <;> rfl
        · split at h <;> cases h <;> cases herror
          exact ⟨_, rfl⟩

/-- It ends if anything arrives that does not let it go on. -/
theorem commandLoop_none {id : Nat} {method : String}
    (h : commandLoop json id method events inbound = none) :
    ∀ item ∈ inbound, item.goesOn json := by
  induction inbound generalizing events with
  | nil => exact fun _ hitem => absurd hitem List.not_mem_nil
  | cons item inbound ih =>
    rw [List.forall_mem_cons]
    cases hturn : item.turn json with
    | skip =>
      rw [commandLoop, hturn] at h
      exact ⟨.inl hturn, ih h⟩
    | elapsed =>
      rw [commandLoop, hturn] at h
      cases h
    | failed error =>
      rw [commandLoop, hturn] at h
      cases h
    | value value =>
      rw [commandLoop, hturn] at h
      dsimp only at h
      split at h
      · exact ⟨.inr ⟨value, hturn⟩, ih h⟩
      · split at h <;> cases h

/-- How `wait_for_lifecycle` ends. -/
theorem lifecycleLoop_ended {session expected : String} {returned : Except RestEndpointError Unit}
    (h : lifecycleLoop json session expected events inbound = some (returned, later, rest)) :
    LoopEnded json "Page.lifecycleEvent" inbound returned rest := by
  induction inbound generalizing events with
  | nil => cases h
  | cons item inbound ih =>
    cases hturn : item.turn json with
    | skip =>
      rw [lifecycleLoop, hturn] at h
      exact (ih h).cons (.inl hturn)
    | elapsed =>
      rw [lifecycleLoop, hturn] at h
      cases h
      exact ⟨[], item, rfl, List.forall_mem_nil _, .inr ⟨_, by rw [Inbound.failure, hturn], rfl⟩⟩
    | failed error =>
      rw [lifecycleLoop, hturn] at h
      cases h
      exact ⟨[], item, rfl, List.forall_mem_nil _, .inr ⟨_, by rw [Inbound.failure, hturn], rfl⟩⟩
    | value value =>
      rw [lifecycleLoop_value hturn] at h
      have hitem : item.goesOn json := .inr ⟨value, hturn⟩
      split at h
      · cases h
        exact ⟨[], item, rfl, List.forall_mem_nil _,
          .inl ⟨hitem, fun error herror => by cases herror⟩⟩
      · exact (ih h).cons hitem

/-- It ends if anything arrives that does not let it go on. -/
theorem lifecycleLoop_none {session expected : String}
    (h : lifecycleLoop json session expected events inbound = none) :
    ∀ item ∈ inbound, item.goesOn json := by
  induction inbound generalizing events with
  | nil => exact fun _ hitem => absurd hitem List.not_mem_nil
  | cons item inbound ih =>
    rw [List.forall_mem_cons]
    cases hturn : item.turn json with
    | skip =>
      rw [lifecycleLoop, hturn] at h
      exact ⟨.inl hturn, ih h⟩
    | elapsed =>
      rw [lifecycleLoop, hturn] at h
      cases h
    | failed error =>
      rw [lifecycleLoop, hturn] at h
      cases h
    | value value =>
      rw [lifecycleLoop_value hturn] at h
      split at h
      · cases h
      · exact ⟨.inr ⟨value, hturn⟩, ih h⟩

end

/-! ## Exchanges -/

/-- The connection has been used without a failure: all that was read let it go on, and all requests
could be sent. -/
structure Calm (json : Codec) (sends : Nat → Option String) (cdp cdp' : CdpConnection) : Prop where
  consumed : ∃ items, cdp.inbound = items ++ cdp'.inbound ∧ ∀ item ∈ items, item.goesOn json
  nextId : cdp.nextId ≤ cdp'.nextId
  sendable : ∀ id, cdp.nextId ≤ id → id < cdp'.nextId → sends id = none

/-- This is the last of what was read, and all before it let the connection go on. -/
structure EndedBy (json : Codec) (cdp cdp' : CdpConnection) (item : Inbound) : Prop where
  read : ∃ before, cdp.inbound = before ++ item :: cdp'.inbound ∧ ∀ x ∈ before, x.goesOn json

/-- The method that the timeout names of a wait for what is asked. -/
def Question.awaited : Question → Option String
  | .command _ method _ => some method
  | .wait .. => some "Page.lifecycleEvent"
  | .clear => none

/-- The request of what is asked cannot be sent. -/
def Question.Unsent (sends : Nat → Option String) (id : Nat) : Question → String → Prop
  | .command .., reason => sends id = some reason
  | _, _ => False

/-- How an exchange fails: the time of its wait is over, its request cannot be sent, the connection
fails, or what arrives last is an error or cannot be read. -/
inductive Failed (json : Codec) (sends : Nat → Option String) (cdp cdp' : CdpConnection)
    (question : Question) : RestEndpointError → Prop
  | late {method : String} (hmethod : question.awaited = some method)
    (hsent : ∀ reason, ¬ question.Unsent sends cdp.nextId reason)
    (hended : EndedBy json cdp cdp' .elapsed) :
    Failed json sends cdp cdp' question (.cdpTimeout method)
  | unsent {reason : String} (hunsent : question.Unsent sends cdp.nextId reason)
    (hread : cdp'.inbound = cdp.inbound) :
    Failed json sends cdp cdp' question (.cdpWebSocket reason)
  | broken {reason : String} (hsent : ∀ reason, ¬ question.Unsent sends cdp.nextId reason)
    (hended : EndedBy json cdp cdp' (.failed reason)) :
    Failed json sends cdp cdp' question (.cdpWebSocket reason)
  | refused {reason : String} {item : Inbound}
    (hsent : ∀ reason, ¬ question.Unsent sends cdp.nextId reason)
    (hended : EndedBy json cdp cdp' item) (htime : item ≠ .elapsed)
    (hitem : ∀ reason, item ≠ .failed reason) :
    Failed json sends cdp cdp' question (.cdpProtocol reason)

section

variable {json : Codec} {sends : Nat → Option String} {cdp mid cdp' : CdpConnection}

/-- Nothing is done calmly. -/
theorem Calm.refl (cdp : CdpConnection) : Calm json sends cdp cdp where
  consumed := ⟨[], rfl, List.forall_mem_nil _⟩
  nextId := Nat.le_refl _
  sendable _ hle hlt := absurd hlt (Nat.not_lt.2 hle)

/-- One calm use may follow another. -/
theorem Calm.trans (h : Calm json sends cdp mid) (h' : Calm json sends mid cdp') :
    Calm json sends cdp cdp' := by
  obtain ⟨items, hitems, hgoes⟩ := h.consumed
  obtain ⟨more, hmore, hgoes'⟩ := h'.consumed
  refine ⟨⟨items ++ more, ?_, List.forall_mem_append.2 ⟨hgoes, hgoes'⟩⟩,
    Nat.le_trans h.nextId h'.nextId, fun id hle hlt => ?_⟩
  · rw [hitems, hmore, List.append_assoc]
  · obtain hbefore | hafter := Nat.lt_or_ge id mid.nextId
    · exact h.sendable id hle hbefore
    · exact h'.sendable id hafter hlt

/-- The last of what was read is one thing. -/
theorem EndedBy.unique {item item' : Inbound} (h : EndedBy json cdp cdp' item)
    (h' : EndedBy json cdp cdp' item') : item = item' := by
  obtain ⟨before, hread, -⟩ := h.read
  obtain ⟨before', hread', -⟩ := h'.read
  rw [hread, List.append_cons, List.append_cons before', List.append_left_inj] at hread'
  exact List.head_eq_of_cons_eq (List.append_inj' hread' rfl).2

/-- Where nothing was read, nothing was the last. -/
theorem EndedBy.not_of_unread {item : Inbound} (h : cdp'.inbound = cdp.inbound) :
    ¬ EndedBy json cdp cdp' item := by
  intro hended
  obtain ⟨before, hread, -⟩ := hended.read
  have hlength := congrArg List.length hread
  rw [h, List.length_append, List.length_cons] at hlength
  omega

/-- A calm use has read nothing that ends a wait. -/
theorem Calm.goesOn_of_ended {item : Inbound} (h : Calm json sends cdp cdp')
    (hended : EndedBy json cdp cdp' item) : item.goesOn json := by
  obtain ⟨items, hitems, hgoes⟩ := h.consumed
  obtain ⟨before, hread, -⟩ := hended.read
  rw [hitems, List.append_cons, List.append_left_inj] at hread
  exact hgoes item (hread ▸ List.mem_append_right _ (List.mem_singleton_self item))

/-- A loop that ends with a result has read what let it go on. -/
theorem calm_of_ended {α : Type} {method : String} {returned : Except RestEndpointError α} {a : α}
    (h : LoopEnded json method cdp.inbound returned cdp'.inbound) (hresult : returned = .ok a)
    (hnext : cdp.nextId ≤ cdp'.nextId)
    (hsendable : ∀ id, cdp.nextId ≤ id → id < cdp'.nextId → sends id = none) :
    Calm json sends cdp cdp' := by
  obtain ⟨before, item, hsplit, hbefore, ⟨hitem, -⟩ | ⟨error, -, hreturned⟩⟩ := h.split
  · refine ⟨⟨before ++ [item], ?_, ?_⟩, hnext, hsendable⟩
    · rw [hsplit, List.append_assoc, List.singleton_append]
    · exact List.forall_mem_append.2 ⟨hbefore, List.forall_mem_singleton.2 hitem⟩
  · cases hresult.symm.trans hreturned

/-- What ends a wait for a method, and with which error. -/
theorem failure_cases {item : Inbound} {method : String} {error : RestEndpointError}
    (h : item.failure json method = some error) :
    (item = .elapsed ∧ error = .cdpTimeout method) ∨
      (∃ reason, item = .failed reason ∧ error = .cdpWebSocket reason) ∨
      item ≠ .elapsed ∧ (∀ reason, item ≠ .failed reason) ∧
        ∃ reason, error = .cdpProtocol reason := by
  cases item with
  | message message =>
    cases message with
    | text text =>
      rw [Inbound.failure, Inbound.turn] at h
      cases htext : json.fromStr text with
      | ok value =>
        rw [htext] at h
        cases h
      | error reason =>
        rw [htext] at h
        cases h
        exact .inr (.inr ⟨by simp, by simp, reason, rfl⟩)
    | _ => cases h
  | failed reason =>
    cases h
    exact .inr (.inl ⟨reason, rfl, rfl⟩)
  | closed =>
    cases h
    exact .inr (.inr ⟨by simp, by simp, _, rfl⟩)
  | elapsed =>
    cases h
    exact .inl ⟨rfl, rfl⟩

/-- A loop that ends with an error fails as its exchange does. -/
theorem failed_of_ended {α : Type} {method : String} {returned : Except RestEndpointError α}
    {question : Question} {error : RestEndpointError}
    (h : LoopEnded json method cdp.inbound returned cdp'.inbound) (herror : returned = .error error)
    (hmethod : question.awaited = some method)
    (hsent : ∀ reason, ¬ question.Unsent sends cdp.nextId reason) :
    Failed json sends cdp cdp' question error := by
  obtain ⟨before, item, hsplit, hbefore, ⟨hitem, hreason⟩ | ⟨error', hfailure, hreturned⟩⟩ :=
    h.split
  · obtain ⟨reason, rfl⟩ := hreason error herror
    obtain ⟨htime, hfailed⟩ := goesOn_iff.1 hitem
    exact .refused hsent ⟨before, hsplit, hbefore⟩ htime fun reason heq =>
      hfailed (.cdpWebSocket reason) (by rw [heq, Inbound.turn])
  · obtain rfl : error = error' := Except.error.inj (herror.symm.trans hreturned)
    obtain ⟨rfl, rfl⟩ | ⟨reason, rfl, rfl⟩ | ⟨htime, hitem, reason, rfl⟩ := failure_cases hfailure
    · exact .late hmethod hsent ⟨before, hsplit, hbefore⟩
    · exact .broken hsent ⟨before, hsplit, hbefore⟩
    · exact .refused hsent ⟨before, hsplit, hbefore⟩ htime hitem

namespace Exchange

variable {x : Exchange}

/-- **An exchange is calm, or fails.** -/
theorem calm_or_failed (h : x.step json sends cdp = some cdp') :
    (x.failure = none → Calm json sends cdp cdp' ∧
      ∀ reason, ¬ x.question.Unsent sends cdp.nextId reason) ∧
      ∀ error, x.failure = some error → Failed json sends cdp cdp' x.question error := by
  cases x with
  | command session method params answer =>
    have hcommand := step_command.1 h
    cases hsend : sends cdp.nextId with
    | some reason =>
      rw [exec_command_unsent hsend] at hcommand
      cases hcommand
      refine ⟨fun hfine => (by cases hfine), fun error hfailure => ?_⟩
      cases hfailure
      exact .unsent hsend rfl
    | none =>
      rw [exec_command_sent hsend, Option.map_eq_some_iff] at hcommand
      obtain ⟨⟨returned, later, rest⟩, hloop, hended⟩ := hcommand
      cases hended
      have hended := commandLoop_ended hloop
      cases returned with
      | ok value =>
        refine ⟨fun _ => ⟨calm_of_ended hended rfl (Nat.le_succ _) fun id hle hlt => ?_,
          fun reason hunsent => ?_⟩, fun error hfailure => by cases hfailure⟩
        · rw [Nat.le_antisymm (Nat.le_of_lt_succ hlt) hle, hsend]
        · cases hsend.symm.trans hunsent
      | error error =>
        refine ⟨fun hfine => (by cases hfine), fun error' hfailure => ?_⟩
        cases hfailure
        refine failed_of_ended hended rfl rfl fun reason hunsent => ?_
        cases hsend.symm.trans hunsent
  | wait session waitUntil answer =>
    have hwait : cdp.waitForLifecycle json session waitUntil = some (answer, cdp') :=
      step_wait.1 h
    rw [CdpConnection.waitForLifecycle] at hwait
    split at hwait
    · cases hwait
      exact ⟨fun _ => ⟨.refl cdp, fun reason => id⟩, fun error hfailure => by cases hfailure⟩
    · obtain ⟨⟨returned, later, rest⟩, hloop, hended⟩ := Option.map_eq_some_iff.1 hwait
      cases hended
      have hended := lifecycleLoop_ended hloop
      cases returned with
      | ok value =>
        exact ⟨fun _ => ⟨calm_of_ended hended rfl (Nat.le_refl _) fun id hle hlt =>
          absurd hlt (Nat.not_lt.2 hle), fun reason => id⟩, fun error hfailure => by cases hfailure⟩
      | error error =>
        refine ⟨fun hfine => (by cases hfine), fun error' hfailure => ?_⟩
        cases hfailure
        exact failed_of_ended hended rfl rfl fun reason => id
  | clear =>
    cases h
    exact ⟨fun _ => ⟨⟨⟨[], rfl, List.forall_mem_nil _⟩, Nat.le_refl _,
      fun id hle hlt => absurd hlt (Nat.not_lt.2 hle)⟩, fun reason => id⟩,
      fun error hfailure => by cases hfailure⟩

/-- Exchanges that do not fail are calm. -/
theorem calm_of_fine {xs : List Exchange} (h : (protocol json sends).Exchanged cdp xs cdp')
    (hfine : ∀ x ∈ xs, x.failure = none) : Calm json sends cdp cdp' := by
  induction h with
  | nil => exact .refl cdp
  | snoc _ _ hs ih =>
    obtain ⟨hbefore, hlast⟩ := List.forall_mem_append.1 hfine
    exact (ih hbefore).trans ((calm_or_failed hs).1 (hlast _ List.mem_cons_self)).1

/-- What is asked never returns only where all that arrives lets the connection go on. -/
theorem goesOn_of_hangs {question : Question}
    (h : ∀ x : Exchange, x.question = question → x.step json sends cdp = none) :
    ∀ item ∈ cdp.inbound, item.goesOn json := by
  cases question with
  | command session method params =>
    cases hexec : exec (Cdp.command json sends session method params) cdp with
    | some returned =>
      obtain ⟨answer, later⟩ := returned
      have hnone := h (.command session method params answer) rfl
      cases hnone.symm.trans (step_command.2 hexec)
    | none =>
      cases hsend : sends cdp.nextId with
      | some reason =>
        rw [exec_command_unsent hsend] at hexec
        cases hexec
      | none =>
        rw [exec_command_sent hsend, Option.map_eq_none_iff] at hexec
        exact commandLoop_none hexec
  | wait session waitUntil =>
    cases hexec : exec (Cdp.waitForLifecycle json session waitUntil) cdp with
    | some returned =>
      obtain ⟨answer, later⟩ := returned
      have hnone := h (.wait session waitUntil answer) rfl
      cases hnone.symm.trans (step_wait.2 hexec)
    | none =>
      have hwait : cdp.waitForLifecycle json session waitUntil = none := hexec
      rw [CdpConnection.waitForLifecycle] at hwait
      split at hwait
      · cases hwait
      · exact lifecycleLoop_none (Option.map_eq_none_iff.1 hwait)
  | clear => cases h .clear rfl

end Exchange

end

/-! ## What the lines reject -/

/-- What may be wrong with an answer, other than that a selector is not found. -/
inductive Misread : RestEndpointError → Prop
  | protocol (reason : String) : Misread (.cdpProtocol reason)
  | invalid (reason : String) : Misread (.invalidCdpResponse reason)
  | decode (reason : String) : Misread (.decode reason)

/-- The expression of the selector has been evaluated, and there is no such element: the result has
no value, or null. -/
structure NotFound (json : Codec) (x : Exchange) (selector : String) : Prop where
  asked : ∃ session, x.question = .command (some session) "Runtime.evaluate"
    (.object [("expression", .string (selectorExpression (json.toString (.string selector)))),
      ("returnByValue", .bool true)])
  absent : ∃ result, x.answer = some result ∧
    ((result.get "result").bind (·.get "value") = none ∨
      (result.get "result").bind (·.get "value") = some .null)

/-- A line asks for the region of the selector, or it rejects no answer for a selector, and does not
evaluate anything where there is one. -/
inductive LineKind (json : Codec) (selector : Option String) (line : CdpLine) : Prop
  | selects {session name : String} {region : ClipRegion} (hname : selector = some name)
    (hline : line ∈ selectorScript json session name region) : LineKind json selector line
  | other (hrejects : ∀ x error, line.rejects x error → Misread error)
    (hcall : ∀ name, selector = some name → ∀ session params,
      line.call ≠ .command session "Runtime.evaluate" params) : LineKind json selector line

section

variable {json : Codec} {base64 : String → Except String (List UInt8)}
  {selector : Option String} {error : RestEndpointError}

/-- A region is missing exactly where the result has no value, or null. -/
theorem selectedRegion_error {name : String} {result : Value} :
    selectedRegion name result = .error error ↔
      ((result.get "result").bind (·.get "value") = none ∨
        (result.get "result").bind (·.get "value") = some .null) ∧
      error = .badRequest ("selector not found: " ++ name) := by
  rw [selectedRegion]
  cases hvalue : (result.get "result").bind (·.get "value") with
  | none =>
    refine ⟨fun h => ⟨.inl rfl, ?_⟩, ?_⟩
    · cases h
      rfl
    · rintro ⟨-, rfl⟩
      rfl
  | some value =>
    cases value with
    | null =>
      refine ⟨fun h => ⟨.inr rfl, ?_⟩, ?_⟩
      · cases h
        rfl
      · rintro ⟨-, rfl⟩
        rfl
    | _ => simp

/-- A field that is missing is a misread answer. -/
theorem misread_requiredString {value : Value} {field : String}
    (h : requiredString value field = .error error) : Misread error := by
  rw [requiredString] at h
  split at h
  · cases h
  · cases h
    exact .invalid _

/-- A navigation that has not begun is one. -/
theorem misread_navigationBegun {result : Value} (h : navigationBegun result = .error error) :
    Misread error := by
  rw [navigationBegun] at h
  split at h
  · cases h
    exact .protocol _
  · cases h

/-- A size that is missing is one. -/
theorem misread_contentSize {metrics : Value} (h : contentSize metrics = .error error) :
    Misread error := by
  have hdimension {value : Option Value} {name : String} {error : RestEndpointError}
      (h : positiveDimension value name = .error error) : Misread error := by
    rw [positiveDimension] at h
    split at h
    · cases h
    · cases h
      exact .invalid _
  rw [contentSize] at h
  split at h
  · cases h
    exact .invalid _
  · next size _ =>
    cases hwidth : positiveDimension (size.get "width") "width" with
    | error error' =>
      rw [hwidth] at h
      cases h
      exact hdimension hwidth
    | ok width =>
      cases hheight : positiveDimension (size.get "height") "height" with
      | error error' =>
        rw [hwidth, hheight] at h
        cases h
        exact hdimension hheight
      | ok height =>
        rw [hwidth, hheight] at h
        cases h

/-- A page that is missing is one. -/
theorem misread_scrapedPage {result : Value} (h : scrapedPage result = .error error) :
    Misread error := by
  rw [scrapedPage] at h
  split at h
  · cases h
  · cases h
    exact .invalid _

/-- Data that cannot be decoded are one. -/
theorem misread_decodeCdpData {result : Value} (h : decodeCdpData base64 result = .error error) :
    Misread error := by
  rw [decodeCdpData] at h
  split at h
  · next data _ =>
    cases hdata : base64 data with
    | error reason =>
      rw [hdata] at h
      cases h
      exact .decode _
    | ok bytes =>
      rw [hdata] at h
      cases h
  · cases h
    exact .invalid _

namespace LineKind

/-- A line whose answer may be misread, and that evaluates nothing. -/
theorem read {α : Type} {session : Option String} {method : String} {params : Value}
    {read : Value → Except RestEndpointError α} {a : α}
    (hread : ∀ {value error}, read value = .error error → Misread error)
    (hmethod : method ≠ "Runtime.evaluate") :
    LineKind json selector (.read session method params read a) := by
  refine .other (fun x error hrejects => ?_) fun name hname session params hcall => ?_
  · obtain ⟨value, -, herror⟩ := hrejects
    exact hread herror
  · cases hcall
    exact hmethod rfl

/-- A line whose answer is not looked at, and that evaluates nothing. -/
theorem tell {session method : String} {params : Value} (hmethod : method ≠ "Runtime.evaluate") :
    LineKind json selector (.tell session method params) :=
  read (fun h => by cases h) hmethod

/-- The events are cleared. -/
theorem clear : LineKind json selector .clear :=
  .other (fun _ _ => False.elim) fun _ _ _ _ hcall => by cases hcall

/-- An event is waited for. -/
theorem wait {session : String} {waitUntil : WaitUntil} :
    LineKind json selector (.wait session waitUntil) :=
  .other (fun _ _ => False.elim) fun _ _ _ _ hcall => by cases hcall

/-- The lines of `prepare_page_target`. -/
theorem prepare (target session : String) :
    ∀ line ∈ prepareScript target session, LineKind json selector line :=
  List.forall_mem_cons.2 ⟨read misread_requiredString (by decide), List.forall_mem_cons.2
    ⟨read misread_requiredString (by decide), List.forall_mem_cons.2 ⟨tell (by decide),
      List.forall_mem_singleton.2 (tell (by decide))⟩⟩⟩

/-- Those of `navigate_page`. -/
theorem navigate (session : String) (options : PageLoadOptions) :
    ∀ line ∈ navigateScript session options, LineKind json selector line :=
  List.forall_mem_cons.2 ⟨clear, List.forall_mem_cons.2
    ⟨read misread_navigationBegun (by decide), List.forall_mem_singleton.2 wait⟩⟩

/-- That of `set_viewport`. -/
theorem viewport (session : String) (size : Nat × Nat) :
    ∀ line ∈ viewportScript session size, LineKind json selector line :=
  List.forall_mem_singleton.2 (tell (by decide))

/-- Those of `set_full_page_viewport`. -/
theorem fullPage (session : String) (size : Nat × Nat) :
    ∀ line ∈ fullPageScript session size, LineKind json selector line :=
  List.forall_mem_cons.2 ⟨read misread_contentSize (by decide), viewport session size⟩

/-- Those of a script, or none. -/
theorem ite {b : Bool} {script : List CdpLine} (h : ∀ line ∈ script, LineKind json selector line) :
    ∀ line ∈ (if b then script else []), LineKind json selector line := by
  cases b with
  | true => exact h
  | false => exact List.forall_mem_nil _

/-- That of `resolve_selector_clip`, if there is a selector. -/
theorem clip (session : String) (capture : ScreenshotCapture) (selected : ClipRegion) :
    ∀ line ∈ capture.script json session selected, LineKind json capture.selector line := by
  intro line hline
  rw [ScreenshotCapture.script] at hline
  split at hline
  · next name hname => exact .selects hname hline
  · cases hline

/-- **The lines of the page operations.** -/
theorem of_script (operation : PageOperation) (plan : PagePlan) (output : operation.Output) :
    ∀ line ∈ operation.script json base64 plan output, LineKind json operation.selector line := by
  cases operation with
  | scrape options =>
    refine List.forall_mem_append.2 ⟨List.forall_mem_append.2 ⟨prepare _ _, navigate _ _⟩,
      List.forall_mem_singleton.2 (.other (fun x error hrejects => ?_) fun name hname => ?_)⟩
    · obtain ⟨value, -, herror⟩ := hrejects
      exact misread_scrapedPage herror
    · cases hname
  | screenshot options format fullPage capture =>
    simp only [PageOperation.script, screenshotScript, List.forall_mem_append]
    exact ⟨⟨⟨⟨⟨prepare _ _, navigate _ _⟩, ite (LineKind.fullPage _ _)⟩,
      ite (List.forall_mem_singleton.2 (tell (by decide)))⟩, clip _ _ _⟩,
      List.forall_mem_singleton.2 (read misread_decodeCdpData (by decide))⟩
  | pdf options printOptions viewport =>
    simp only [PageOperation.script, pdfScript, List.forall_mem_append]
    exact ⟨⟨⟨prepare _ _, LineKind.viewport _ _⟩, navigate _ _⟩,
      List.forall_mem_singleton.2 (read misread_decodeCdpData (by decide))⟩

end LineKind

end

/-! ## What errors tell -/

/-- What an error tells of the last exchange, which leads from one connection to the other: that its
wait has run out of time, and what was waited for; that its request could not be sent, or that the
connection has failed; or that the selector was not found. -/
structure Told (json : Codec) (sends : Nat → Option String) (selector : Option String)
    (cdp cdp' : CdpConnection) (x : Exchange) (error : RestEndpointError) : Prop where
  late : (∃ method, error = .cdpTimeout method) ↔ EndedBy json cdp cdp' .elapsed
  awaited : ∀ method, error = .cdpTimeout method → x.question.awaited = some method
  broken : ∀ reason, error = .cdpWebSocket reason ↔
    x.question.Unsent sends cdp.nextId reason ∨ EndedBy json cdp cdp' (.failed reason)
  missing : ∀ reason, error = .badRequest reason ↔
    ∃ name, selector = some name ∧ NotFound json x name ∧ reason = "selector not found: " ++ name
  pooled : ∀ error', error ≠ .pool error'

section

variable {json : Codec} {base64 : String → Except String (List UInt8)}
  {sends : Nat → Option String} {selector : Option String} {cdp cdp' : CdpConnection}
  {x : Exchange} {error : RestEndpointError}

/-- A request cannot be sent for one reason. -/
theorem Question.Unsent.unique {question : Question} {id : Nat} {reason reason' : String}
    (h : question.Unsent sends id reason) (h' : question.Unsent sends id reason') :
    reason = reason' := by
  cases question with
  | command session method params => exact Option.some.inj (Eq.trans (Eq.symm h) h')
  | wait session waitUntil => exact h.elim
  | clear => exact h.elim

/-- An exchange that fails does not say that a selector is not found. -/
theorem NotFound.fine {name : String} (h : NotFound json x name) : x.failure = none := by
  obtain ⟨result, hanswer, -⟩ := h.absent
  obtain ⟨session, hasked⟩ := h.asked
  obtain rfl := Exchange.eq_answered hasked hanswer
  rfl

/-- An error of an exchange that fails tells how it does. -/
theorem Failed.told (h : Failed json sends cdp cdp' x.question error)
    (hfailure : x.failure = some error) : Told json sends selector cdp cdp' x error := by
  have hfound (name : String) : ¬ NotFound json x name := fun hnot => by
    cases hfailure.symm.trans hnot.fine
  cases h with
  | late hmethod hsent hended =>
    refine ⟨by simpa using hended, ?_, fun reason => ?_, by simp [hfound], by simp⟩
    · rintro method ⟨⟩
      exact hmethod
    · refine ⟨fun herror => (by cases herror), ?_⟩
      rintro (hunsent | hfailed)
      · exact absurd hunsent (hsent reason)
      · cases hended.unique hfailed
  | unsent hunsent hread =>
    refine ⟨?_, by simp, fun reason => ⟨?_, ?_⟩, by simp [hfound], by simp⟩
    · simpa using EndedBy.not_of_unread hread
    · rintro ⟨⟩
      exact .inl hunsent
    · rintro (hunsent' | hfailed)
      · rw [hunsent.unique hunsent']
      · exact absurd hfailed (EndedBy.not_of_unread hread)
  | broken hsent hended =>
    refine ⟨?_, by simp, fun reason => ⟨?_, ?_⟩, by simp [hfound], by simp⟩
    · refine ⟨fun ⟨method, herror⟩ => (by cases herror), fun helapsed => ?_⟩
      cases hended.unique helapsed
    · rintro ⟨⟩
      exact .inr hended
    · rintro (hunsent | hfailed)
      · exact absurd hunsent (hsent reason)
      · cases hended.unique hfailed
        rfl
  | refused hsent hended htime hitem =>
    refine ⟨?_, by simp, fun reason => ⟨fun herror => (by cases herror), ?_⟩, by simp [hfound],
      by simp⟩
    · exact ⟨fun ⟨method, herror⟩ => (by cases herror),
        fun helapsed => absurd (hended.unique helapsed) htime⟩
    · rintro (hunsent | hfailed)
      · exact absurd hunsent (hsent reason)
      · exact absurd (hended.unique hfailed) (hitem reason)

/-- An error of an exchange that is answered tells whether a selector was not found. -/
theorem Calm.told (h : Calm json sends cdp cdp')
    (hsent : ∀ reason, ¬ x.question.Unsent sends cdp.nextId reason)
    (hmissing : ∀ reason, error = .badRequest reason ↔ ∃ name, selector = some name ∧
      NotFound json x name ∧ reason = "selector not found: " ++ name)
    (herror : Misread error ∨ ∃ reason, error = .badRequest reason) :
    Told json sends selector cdp cdp' x error := by
  have htime : ¬ EndedBy json cdp cdp' .elapsed := fun hended =>
    (goesOn_iff.1 (h.goesOn_of_ended hended)).1 rfl
  have hfailed (reason : String) : ¬ EndedBy json cdp cdp' (.failed reason) := fun hended =>
    (goesOn_iff.1 (h.goesOn_of_ended hended)).2 _ rfl
  obtain hmisread | ⟨reason, rfl⟩ := herror
  · cases hmisread with
    | protocol reason =>
      exact ⟨by simpa using htime, by simp, by simp [hsent, hfailed], hmissing, by simp⟩
    | invalid reason =>
      exact ⟨by simpa using htime, by simp, by simp [hsent, hfailed], hmissing, by simp⟩
    | decode reason =>
      exact ⟨by simpa using htime, by simp, by simp [hsent, hfailed], hmissing, by simp⟩
  · exact ⟨by simpa using htime, by simp, by simp [hsent, hfailed], hmissing, by simp⟩

/-- **What the error tells with which an exchange misses its line.** -/
theorem told_of_missed {line : CdpLine} (hstep : x.step json sends cdp = some cdp')
    (hmissed : (protocol json sends).Misses line x error) (hkind : LineKind json selector line) :
    Told json sends selector cdp cdp' x error := by
  obtain ⟨hfine, hfailed⟩ := Exchange.calm_or_failed hstep
  obtain hfailure | ⟨hfailure, hrejects⟩ := hmissed.error
  · exact (hfailed error hfailure).told hfailure
  · obtain ⟨hcalm, hsent⟩ := hfine hfailure
    cases hkind with
    | @selects session name region hname hline =>
      obtain rfl := List.mem_singleton.1 hline
      obtain ⟨result, hanswer, hread⟩ := hrejects
      obtain ⟨habsent, rfl⟩ := selectedRegion_error.1 hread
      refine hcalm.told hsent (fun reason => ⟨fun herror => ?_, ?_⟩) (.inr ⟨_, rfl⟩)
      · cases herror
        exact ⟨name, hname, ⟨⟨session, hmissed.call⟩, result, hanswer, habsent⟩, rfl⟩
      · rintro ⟨name', hname', -, rfl⟩
        rw [Option.some.inj (hname.symm.trans hname')]
    | other hrejected hcall =>
      have hmisread := hrejected x error hrejects
      refine hcalm.told hsent (fun reason => ⟨fun herror => ?_, ?_⟩) (.inl hmisread)
      · subst herror
        cases hmisread
      · rintro ⟨name, hname, hnot, -⟩
        obtain ⟨session, hasked⟩ := hnot.asked
        exact absurd (hmissed.call.symm.trans hasked) (hcall name hname _ _)

/-- The status of an error that is not of the pool. -/
theorem status_restEndpointError (h : ∀ error', error ≠ .pool error') :
    ((restEndpointError error).status = 504 ↔ ∃ method, error = .cdpTimeout method) ∧
      ((restEndpointError error).status = 400 ↔ ∃ reason, error = .badRequest reason) ∧
      ((restEndpointError error).status = 502 ∨ (restEndpointError error).status = 504 ∨
        (restEndpointError error).status = 400) := by
  cases error with
  | pool error => exact absurd rfl (h error)
  | badRequest reason => simp [restEndpointError, apiError]
  | cdpTimeout method => simp [restEndpointError, apiError]
  | cdpWebSocket reason => simp [restEndpointError, apiError]
  | cdpProtocol reason => simp [restEndpointError, apiError]
  | invalidCdpResponse reason => simp [restEndpointError, apiError]
  | decode reason => simp [restEndpointError, apiError]

/-- **Errors tell what happened.** On a new connection, whatever arrives on it in whatever order,
and whichever requests cannot be sent: where a page operation returns a result, all that it has read
let it go on, and it could send all its requests. Where it returns an error, it has stopped in its
script, everything before the last exchange went well, and the error tells what came of this one
(`Told`). The status of the response is 504 exactly if the wait of the last exchange has run out of
time, and 400 exactly if it is the evaluation of the selector and there is no such element; else it
is 502. -/
theorem page_errors (operation : PageOperation) (inbound : List Inbound)
    {r : Except RestEndpointError operation.Output} {cdp' : CdpConnection}
    (h : exec (operation.perform json base64 sends) (.opened inbound) = some (r, cdp')) :
    (∀ output, r = .ok output → Calm json sends (.opened inbound) cdp') ∧
    ∀ error, r = .error error → ∃ output plan before line rest xs x cdp,
      operation.script json base64 plan output = before ++ line :: rest ∧
      Stopped json sends (.opened inbound) before line xs x error cdp' ∧
      (protocol json sends).Exchanged (.opened inbound) xs cdp ∧
      Calm json sends (.opened inbound) cdp ∧
      Told json sends operation.selector cdp cdp' x error ∧
      ((restEndpointError error).status = 504 ↔ EndedBy json cdp cdp' .elapsed) ∧
      ((restEndpointError error).status = 400 ↔
        ∃ name, operation.selector = some name ∧ NotFound json x name) ∧
      ((restEndpointError error).status = 502 ∨ (restEndpointError error).status = 504 ∨
        (restEndpointError error).status = 400) := by
  refine ⟨?_, ?_⟩
  · rintro output rfl
    obtain ⟨script, xs, -, hcompleted⟩ :=
      (result_iff_of_converses (converses_perform operation)).1 h
    exact Exchange.calm_of_fine hcompleted.exchanged (Protocol.fine_of_meets hcompleted.met)
  · rintro error rfl
    obtain ⟨output, before, line, rest, xs, x, ⟨plan, hscript⟩, hstopped⟩ :=
      (error_iff_of_converses (converses_perform operation)).1 h
    obtain ⟨cdp, hbefore, hlast⟩ := hstopped.exchanged.split
    have hline : line ∈ operation.script json base64 plan output := by
      rw [← hscript]
      exact List.mem_append_right _ List.mem_cons_self
    have hkind := LineKind.of_script operation plan output line hline
    have htold := told_of_missed hlast.single_inv.2 hstopped.missed hkind
    obtain ⟨hlate, hmissing, hstatus⟩ := status_restEndpointError htold.pooled
    refine ⟨output, plan, before, line, rest, xs, x, cdp, hscript.symm, hstopped, hbefore,
      Exchange.calm_of_fine hbefore (Protocol.fine_of_meets hstopped.met), htold,
      hlate.trans htold.late, hmissing.trans ⟨?_, ?_⟩, hstatus⟩
    · rintro ⟨reason, herror⟩
      obtain ⟨name, hname, hnot, -⟩ := (htold.missing reason).1 herror
      exact ⟨name, hname, hnot⟩
    · rintro ⟨name, hname, hnot⟩
      exact ⟨_, (htold.missing _).2 ⟨name, hname, hnot, rfl⟩⟩

end

/-! ## That they return -/

/-- Something is waited for when this is asked. -/
def Question.waits (question : Question) : Bool := question.awaited.isSome

/-- How often an operation waits at most. -/
def PageOperation.waits : PageOperation → Nat
  | .scrape _ => 7
  | .screenshot .. => 11
  | .pdf .. => 8

section

variable {json : Codec} {base64 : String → Except String (List UInt8)}
  {sends : Nat → Option String}

/-- Its script has no more waits. -/
theorem waits_script (operation : PageOperation) (plan : PagePlan) (output : operation.Output) :
    ((operation.script json base64 plan output).map Line.call).countP Question.waits
      ≤ operation.waits := by
  cases operation with
  | scrape options => exact Nat.le_refl 7
  | screenshot options format fullPage capture =>
    have hfull : ((if fullPage then fullPageScript plan.session plan.size else []).map
        Line.call).countP Question.waits ≤ 2 := by
      cases fullPage with
      | true => exact Nat.le_refl 2
      | false => exact Nat.zero_le 2
    have hback : ((if capture.omitBackground then backgroundScript plan.session else []).map
        Line.call).countP Question.waits ≤ 1 := by
      cases capture.omitBackground with
      | true => exact Nat.le_refl 1
      | false => exact Nat.zero_le 1
    have hclip : ((capture.script json plan.session plan.selected).map Line.call).countP
        Question.waits ≤ 1 := by
      rw [ScreenshotCapture.script]
      cases capture.selector with
      | none => exact Nat.zero_le 1
      | some name => exact Nat.le_refl 1
    have hprepare : ((prepareScript plan.target plan.session).map Line.call).countP
        Question.waits = 4 := rfl
    have hnavigate : ((navigateScript plan.session options).map Line.call).countP
        Question.waits = 2 := rfl
    simp only [PageOperation.script, screenshotScript, List.map_append, List.countP_append,
      hprepare, hnavigate]
    have hlast : ∀ question : Question, [question].countP Question.waits ≤ 1 :=
      fun question => List.countP_le_length
    have hone := hlast (.command (some plan.session) "Page.captureScreenshot"
      (screenshotParams format fullPage capture.quality (capture.region plan.selected)))
    show _ ≤ 11
    simp only [List.map_cons, List.map_nil, CdpLine.read]
    omega
  | pdf options printOptions viewport => exact Nat.le_refl 8

/-- What an operation asks, up to where it ends, has no more waits. -/
theorem waits_of_follows (operation : PageOperation) {xs : List Exchange}
    {r : Except RestEndpointError operation.Output}
    (h : (protocol json sends).Follows
      (fun output script => ∃ plan, script = operation.script json base64 plan output) xs r) :
    (xs.map Exchange.question).countP Question.waits ≤ operation.waits := by
  cases h with
  | @returned output script _ hscript hmet =>
    obtain ⟨plan, rfl⟩ := hscript
    rw [show xs.map Exchange.question = _ from Protocol.map_call_of_meets hmet]
    exact waits_script operation plan output
  | @stopped output before rest line xs x error hscript hmet hmissed =>
    obtain ⟨plan, hscript⟩ := hscript
    have hasked : (xs ++ [x]).map Exchange.question = (before ++ [line]).map Line.call := by
      rw [List.map_append, List.map_append, List.map_singleton, List.map_singleton,
        show xs.map Exchange.question = _ from Protocol.map_call_of_meets hmet,
        show x.question = line.call from hmissed.call]
    have hprefix : (before ++ [line]).map Line.call <+:
        (operation.script json base64 plan output).map Line.call := by
      rw [← hscript, List.append_cons before line rest]
      exact (List.prefix_append _ rest).map Line.call
    rw [hasked]
    exact Nat.le_trans hprefix.sublist.countP_le (waits_script operation plan output)

/-- On a new connection an operation waits for ever only if all that arrives lets it go on. -/
theorem goesOn_of_exec_none (operation : PageOperation) {inbound : List Inbound}
    (h : exec (operation.perform json base64 sends) (.opened inbound) = none) :
    ∀ item ∈ inbound, item.goesOn json := by
  obtain ⟨output, before, line, rest, xs, cdp, -, hxs, hmet, hwaits⟩ :=
    ((converses_perform operation).hangs (.opened inbound) h).waits
  have hcalm := Exchange.calm_of_fine hxs (Protocol.fine_of_meets hmet)
  obtain ⟨items, hitems, hgoes⟩ := hcalm.consumed
  rw [show inbound = items ++ cdp.inbound from hitems, List.forall_mem_append]
  exact ⟨hgoes, Exchange.goesOn_of_hangs hwaits⟩

/-- **Page operations return.** Where the handshake of its connection never ends, an operation never
returns; where it fails, the operation returns this error. Where it succeeds, and the time of a wait
comes to its end on the connection, the operation returns, whatever arrives and whichever requests
cannot be sent; and it waits at most `PageOperation.waits` times, so after the handshake it takes at
most as many times its timeout. -/
theorem page_ends (operation : PageOperation) {handshake : Future (Except String (List Inbound))}
    (h : ∀ inbound, handshake.value = some (.ok inbound) → .elapsed ∈ inbound) :
    (operation.withSession json base64 sends handshake = none ↔ handshake = .never) ∧
    (∀ reason, handshake.value = some (.error reason) →
      operation.withSession json base64 sends handshake = some (.error (.cdpWebSocket reason))) ∧
    ∀ inbound, handshake.value = some (.ok inbound) → ∃ r xs cdp',
      operation.withSession json base64 sends handshake = some r ∧
      exec (operation.perform json base64 sends) (.opened inbound) = some (r, cdp') ∧
      (protocol json sends).Exchanged (.opened inbound) xs cdp' ∧
      (xs.map Exchange.question).countP Question.waits ≤ operation.waits := by
  have hfailed (reason : String) (hreason : handshake.value = some (.error reason)) :
      operation.withSession json base64 sends handshake = some (.error (.cdpWebSocket reason)) := by
    rw [PageOperation.withSession, CdpConnection.connect, Future.value_bind, hreason]
    rfl
  have hopened (inbound : List Inbound) (hinbound : handshake.value = some (.ok inbound)) :
      ∃ r xs cdp', operation.withSession json base64 sends handshake = some r ∧
        exec (operation.perform json base64 sends) (.opened inbound) = some (r, cdp') ∧
        (protocol json sends).Exchanged (.opened inbound) xs cdp' ∧
        (xs.map Exchange.question).countP Question.waits ≤ operation.waits := by
    cases hexec : exec (operation.perform json base64 sends) (.opened inbound) with
    | none =>
      exact absurd rfl (goesOn_iff.1 (goesOn_of_exec_none operation hexec _ (h inbound hinbound))).1
    | some returned =>
      obtain ⟨r, cdp'⟩ := returned
      obtain ⟨xs, hxs, hfollows⟩ := ((converses_perform operation).returns _ _ _).1 hexec
      refine ⟨r, xs, cdp', ?_, rfl, hxs, waits_of_follows operation hfollows⟩
      rw [PageOperation.withSession, CdpConnection.connect, Future.value_bind, hinbound]
      show (exec (operation.perform json base64 sends) (.opened inbound)).map Prod.fst = some r
      rw [hexec]
      rfl
  refine ⟨⟨fun hnone => ?_, ?_⟩, hfailed, hopened⟩
  · rw [← Future.value_eq_none]
    cases hvalue : handshake.value with
    | none => rfl
    | some connected =>
      cases connected with
      | error reason => cases hnone.symm.trans (hfailed reason hvalue)
      | ok inbound =>
        obtain ⟨r, xs, cdp', hreturned, -⟩ := hopened inbound hvalue
        cases hnone.symm.trans hreturned
  · rintro rfl
    rfl

end

/-! ## A browser that says nothing -/

/-- The connection of a page operation to a browser that says nothing before the first wait has run
out of time. -/
def silentConnection : CdpConnection :=
  { inbound := []
    sendError := none
    nextId := 2
    lifecycleEvents := []
    sent := [CdpConnection.request 1 none "Target.createTarget"
      (.object [("url", .string "about:blank")])] }

/-- The operation returns a timeout of the request for a target. -/
theorem exec_silent :
    exec (exampleScrape.perform (textsCodec []) (fun _ => .ok []) fun _ => none)
      (.opened [.elapsed]) =
        some (.error (.cdpTimeout "Target.createTarget"), silentConnection) := rfl

/-- Its error tells so: the wait for the target has run out of time, and the status is 504. -/
theorem page_errors_silent : (restEndpointError (.cdpTimeout "Target.createTarget")).status = 504 ∧
    ∃ (x : Exchange) (cdp : CdpConnection), x.question.awaited = some "Target.createTarget" ∧
      EndedBy (textsCodec []) cdp silentConnection .elapsed := by
  obtain ⟨_, _, _, _, _, _, x, cdp, -, -, -, -, htold, hlate, -⟩ :=
    (page_errors exampleScrape [.elapsed] exec_silent).2 _ rfl
  have hended : EndedBy (textsCodec []) cdp silentConnection .elapsed := htold.late.1 ⟨_, rfl⟩
  exact ⟨hlate.2 hended, x, cdp, htold.awaited _ rfl, hended⟩

/-- It returns, after seven waits at most, where the handshake of its connection has succeeded. -/
theorem page_ends_silent :
    exampleScrape.withSession (textsCodec []) (fun _ => .ok []) (fun _ => none)
        (.ready 3 (.ok [.elapsed])) = some (.error (.cdpTimeout "Target.createTarget")) ∧
      ∃ xs, (protocol (textsCodec []) fun _ => none).Exchanged (.opened [.elapsed]) xs
          silentConnection ∧ (xs.map Exchange.question).countP Question.waits ≤ 7 := by
  have helapsed : ∀ inbound : List Inbound,
      (Future.ready 3 (Except.ok [Inbound.elapsed] : Except String (List Inbound))).value =
        some (.ok inbound) → .elapsed ∈ inbound := by
    rintro inbound ⟨⟩
    exact List.mem_cons_self
  obtain ⟨-, -, hreturns⟩ := @page_ends (textsCodec []) (fun _ => .ok []) (fun _ => none)
    exampleScrape (.ready 3 (.ok [.elapsed])) helapsed
  obtain ⟨r, xs, cdp', hreturned, hexec, hxs, hwaits⟩ := hreturns [.elapsed] rfl
  cases exec_silent.symm.trans hexec
  exact ⟨hreturned, xs, hxs, hwaits⟩

end Eiger
