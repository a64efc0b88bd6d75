import Eiger.Proxy.Steps

/-!
# The proxy's way to the client

What a client receives through the proxy. Only the id tells a response to an injected command from
one to the client's own, and the proxy looks at nothing else: a text that parses and has an id from
`EIGER_CDP_ID_START` on is dropped (`upstreamToAxumMessage_data`). As the injected ids are from
there on and the client's are below (`Proxy.Ids`), what is dropped is what answers an injected
command (`Proxy.Ids.answersInjected`), and the rest goes through `upstream_to_client` one message
after another (`Proxy.Flow`).

The guard `Proxy.wellBehaved` says what is asked of the two parties: the client's ids are below
`EIGER_CDP_ID_START`, and the browser answers a request with the request's own id and gives its
events none.
-/

namespace Eiger

open Json Transition

/-! ## Statements about the traffic -/

/-- A text or binary message. -/
def Message.isData : Message → Bool
  | .text _ => true
  | .binary _ => true
  | _ => false

/-- A text or binary message of the browser's, as a message for the client. -/
def UpstreamMessage.data : UpstreamMessage → Option Message
  | .text content => some (.text content)
  | .binary content => some (.binary content)
  | _ => none

/-- The command is one of the proxy's own. -/
def Sent.isInjected : Sent → Bool
  | .forwarded _ => false
  | .injected .. => true

/-- The message answers an injected command. -/
def Emission.answersInjected (sent : List Sent) (emission : Emission) : Bool :=
  match emission.cause with
  | .event => false
  | .response request => sent[request]?.any Sent.isInjected

/-- Of what the browser emitted, the text and binary messages that are not responses to injected
commands. -/
def Proxy.meantForClient (s : Proxy) (emitted : List Emission) : List Message :=
  (emitted.filter fun emission => !emission.answersInjected s.sent).filterMap
    fun emission => emission.message.data

/-- The message has no CDP id from `EIGER_CDP_ID_START` on. -/
def UpstreamMessage.belowStart (json : Codec) (message : UpstreamMessage) : Bool :=
  ((message.cdpId json).bind Value.asU64).all (· < eigerCdpIdStart)

/-- The browser's message has no id when it is an event, and the id of a request that was sent when
it answers that request. -/
def Emission.consistent (json : Codec) (sent : List Sent) (emission : Emission) : Bool :=
  match emission.cause with
  | .event => emission.message.cdpId json = none
  | .response request => sent[request]?.any (·.requestId json = emission.message.cdpId json)

/-- What is asked of the client and of the browser. -/
def Proxy.wellBehaved (json : Codec) (s : Proxy) : ProxyAction → Bool
  | .client (.message message) => (axumToUpstreamMessage message).all (·.belowStart json)
  | .emit emission => emission.consistent json s.sent
  | _ => true

/-- The id is one of the proxy's own, as `is_eiger_cdp_response` decides it. -/
def isEigerId (id : Option Value) : Bool :=
  (id.bind Value.asU64).any (eigerCdpIdStart ≤ ·)

/-- A message below the start has no id of the proxy's. -/
theorem UpstreamMessage.belowStart_iff {json : Codec} {message : UpstreamMessage} :
    message.belowStart json = true ↔ isEigerId (message.cdpId json) = false := by
  rw [belowStart, isEigerId]
  cases (message.cdpId json).bind Value.asU64 with
  | none => simp
  | some id => simp

/-- **What reaches the client of one message**: a text or binary message, unless its id is one of
the proxy's own. -/
theorem upstreamToAxumMessage_data (json : Codec) (stealthEnabled : Bool)
    (message : UpstreamMessage) :
    (upstreamToAxumMessage json stealthEnabled message).message.filter Message.isData =
      if isEigerId (message.cdpId json) then none else message.data := by
  cases message with
  | text text =>
    rw [upstreamToAxumMessage, UpstreamMessage.cdpId]
    cases hjson : json.fromStr text with
    | error error => rfl
    | ok value =>
      change _ = if isEigerCdpResponse value then none else _
      simp only
      split
      · rfl
      · split
        · split <;> rfl
        · rfl
  | _ => rfl

/-! ## Steps -/

/-- The message that `client_to_upstream` has yet to forward. -/
def ClientPc.pending : ClientPc → Option UpstreamMessage
  | .locking _ message => axumToUpstreamMessage message
  | .injecting _ _ message => axumToUpstreamMessage message
  | .pausing message => axumToUpstreamMessage message
  | .waiting message => some message
  | .sending message => some message
  | .receiving => none
  | .closing => none

/-- The messages that `upstream_to_client` has yet to deliver. -/
def UpstreamPc.inFlight : UpstreamPc → List Message
  | .locking _ message => [message]
  | .injecting _ _ message => [message]
  | .pausing message => [message]
  | .delivering message => [message]
  | .receiving => []
  | .closing => []

/-- What the browser emits in a step. -/
def ProxyAction.emissions : ProxyAction → List Emission
  | .emit emission => [emission]
  | .client _ => []
  | .upstream _ => []

namespace Proxy

variable {params : ProxyParams} {s t : Proxy}

/-- Where `client_to_upstream` goes on, it has the message to forward. -/
theorem pending_forwardPc (message : Message) :
    (forwardPc message).pending = axumToUpstreamMessage message := by
  rw [forwardPc]
  cases axumToUpstreamMessage message <;> rfl

/-- Where `client_to_upstream` goes with a message, it has that message to forward. -/
theorem pending_receivedPc (params : ProxyParams) (message : Message) :
    (receivedPc params message).pending = axumToUpstreamMessage message := by
  rw [receivedPc]
  split
  · rfl
  · exact pending_forwardPc message

/-- A step of `client_to_upstream` leaves the other loop and what came from the browser as they
are. -/
theorem ClientStep.frame {choice : ProxyChoice} (h : ClientStep params s choice t) :
    t.upstream = s.upstream ∧ t.emitted = s.emitted ∧ t.read = s.read ∧
      t.delivered = s.delivered := by
  cases h <;> exact ⟨rfl, rfl, rfl, rfl⟩

/-- A step of `upstream_to_client` leaves the other loop and what the browser emitted as they
are. -/
theorem UpstreamStep.frame {choice : ProxyChoice} (h : UpstreamStep params s choice t) :
    t.client = s.client ∧ t.emitted = s.emitted := by
  cases h <;> exact ⟨rfl, rfl⟩

/-- What the browser has emitted after a step. -/
theorem step_emitted {a : ProxyAction} (h : s.step params a = some t) :
    t.emitted = s.emitted ++ a.emissions := by
  obtain ⟨choice, rfl, hstep⟩ | ⟨choice, rfl, hstep⟩ | ⟨emission, rfl, rfl⟩ := step_cases h
  · rw [(stepClient_cases hstep).frame.2.1, ProxyAction.emissions, List.append_nil]
  · rw [(stepUpstream_cases hstep).frame.2, ProxyAction.emissions, List.append_nil]
  · rfl

/-- What the client gets of a message. -/
def relayed (params : ProxyParams) (emission : Emission) : Option Message :=
  (upstreamToAxumMessage params.json params.stealthEnabled emission.message).message

/-- What a step does to the messages on their way to the client: nothing, or `upstream_to_client`
reads one, delivers the one in hand, or fails to and is about to end. -/
inductive Relays (params : ProxyParams) (s t : Proxy) : Prop
  | nothing (hread : t.read = s.read) (hdelivered : t.delivered = s.delivered)
      (hinFlight : t.upstream.inFlight = s.upstream.inFlight)
      (hclosing : s.upstream = .closing → t.upstream = .closing)
  | reads {emission : Emission} (hpc : s.upstream = .receiving)
      (hemission : s.emitted[s.read]? = some emission) (hread : t.read = s.read + 1)
      (hdelivered : t.delivered = s.delivered)
      (hinFlight : t.upstream.inFlight = (relayed params emission).toList)
  | delivers {message : Message} (hpc : s.upstream = .delivering message)
      (hread : t.read = s.read) (hdelivered : t.delivered = s.delivered ++ [message])
      (hinFlight : t.upstream.inFlight = [])
  | loses {message : Message} (hpc : s.upstream = .delivering message) (hread : t.read = s.read)
      (hdelivered : t.delivered = s.delivered) (hclosing : t.upstream = .closing)

/-- What a step of `upstream_to_client` relays. -/
theorem UpstreamStep.relays {choice : ProxyChoice} (h : UpstreamStep params s choice t) :
    Relays params s t := by
  cases h with
  | @reads emission hpc hemission =>
    refine .reads hpc hemission rfl rfl ?_
    rw [relayed]
    show (readPc params emission.message).inFlight = _
    rw [readPc]
    cases upstreamToAxumMessage params.json params.stealthEnabled emission.message <;> rfl
  | closes hpc => exact .nothing rfl rfl (by rw [hpc]; rfl) (fun _ => rfl)
  | loses hpc => exact .loses hpc rfl rfl rfl
  | delivers hpc => exact .delivers hpc rfl rfl rfl
  | failsRead | failsInject | ends => exact .nothing rfl rfl rfl (fun hclosing => hclosing)
  | locks hpc | injects hpc | injected hpc | resumes hpc =>
    refine .nothing rfl rfl (by rw [hpc]; rfl) (fun hclosing => ?_)
    rw [hpc] at hclosing
    cases hclosing

/-- What a step relays. -/
theorem step_relays {a : ProxyAction} (h : s.step params a = some t) : Relays params s t := by
  obtain ⟨_, hstep⟩ | ⟨_, hstep⟩ | ⟨emission, rfl⟩ := loop_cases h
  · obtain ⟨hupstream, -, hread, hdelivered⟩ := hstep.frame
    exact .nothing hread hdelivered (hupstream ▸ rfl) fun hpc => hupstream.trans hpc
  · exact hstep.relays
  · exact .nothing rfl rfl rfl id

/-- What a step sends to the browser: nothing, one injected command under a fresh id, or the message
that `client_to_upstream` has in hand. -/
inductive Sends (s t : Proxy) : Prop
  | nothing (hsent : t.sent = s.sent) (hid : s.nextId ≤ t.nextId)
  | injected {session : String} {command : String × Value} (hid : t.nextId = s.nextId + 1)
      (hsent : t.sent = s.sent ++ [.injected s.nextId session command.1 command.2])
  | forwarded {message : UpstreamMessage} (hpending : s.client.pending = some message)
      (hid : t.nextId = s.nextId) (hsent : t.sent = s.sent ++ [.forwarded message])

/-- What a step of `client_to_upstream` sends. -/
theorem ClientStep.sending {choice : ProxyChoice} (h : ClientStep params s choice t) :
    Sends s t := by
  cases h with
  | injects => exact .injected rfl rfl
  | sends hpc => exact .forwarded (by rw [hpc]; rfl) rfl rfl
  | failsInject => exact .nothing rfl (Nat.le_succ _)
  | _ => exact .nothing rfl (Nat.le_refl _)

/-- What a step of `upstream_to_client` sends. -/
theorem UpstreamStep.sending {choice : ProxyChoice} (h : UpstreamStep params s choice t) :
    Sends s t := by
  cases h with
  | injects => exact .injected rfl rfl
  | failsInject => exact .nothing rfl (Nat.le_succ _)
  | _ => exact .nothing rfl (Nat.le_refl _)

/-- What a step of the proxy sends. -/
theorem step_sends {a : ProxyAction} (h : s.step params a = some t) : Sends s t := by
  obtain ⟨_, hstep⟩ | ⟨_, hstep⟩ | ⟨emission, rfl⟩ := loop_cases h
  · exact hstep.sending
  · exact hstep.sending
  · exact .nothing rfl (Nat.le_refl _)

/-- What was sent stays sent. -/
theorem Sends.keeps (h : Sends s t) : s.sent <+: t.sent := by
  cases h with
  | nothing hsent _ => exact hsent ▸ List.prefix_rfl
  | injected _ hsent => rw [hsent]; exact List.prefix_append _ _
  | forwarded _ _ hsent => rw [hsent]; exact List.prefix_append _ _

/-- The message that `client_to_upstream` has to forward after one of its steps: the one it had,
none, or the one that it just received. -/
theorem ClientStep.pending {choice : ProxyChoice} (h : ClientStep params s choice t)
    {message : UpstreamMessage} (hpending : t.client.pending = some message) :
    s.client.pending = some message ∨ ∃ received, choice = .message received ∧
      axumToUpstreamMessage received = some message := by
  cases h with
  | @receives received hpc =>
    refine .inr ⟨received, rfl, ?_⟩
    rw [pending_receivedPc] at hpending
    exact hpending
  | locks hpc | injects hpc | injected hpc | takes hpc =>
    rw [hpc]
    exact .inl hpending
  | resumes hpc =>
    rw [pending_forwardPc] at hpending
    rw [hpc]
    exact .inl hpending
  | failsInject | failsSend | ends => exact .inl hpending
  | closes | sends => cases hpending

/-! ## The ids -/

/-- The ids tell the two kinds of commands apart: those injected so far have one of the proxy's own,
as the next one will, and those forwarded, or about to be, have none. -/
structure Ids (json : Codec) (s : Proxy) : Prop where
  start_le : eigerCdpIdStart ≤ s.nextId
  pending : ∀ message, s.client.pending = some message →
    isEigerId (message.cdpId json) = false
  sent : ∀ command ∈ s.sent, isEigerId (command.requestId json) = command.isInjected

/-- An injected command has an id of the proxy's. -/
theorem isEigerId_injected {json : Codec} {id : Nat} {session method : String} {value : Value}
    (h : eigerCdpIdStart ≤ id) :
    isEigerId ((Sent.injected id session method value).requestId json) = true :=
  decide_eq_true h

/-- What a step makes the client's loop have in hand has no id of the proxy's. -/
theorem Ids.pending_step {a : ProxyAction} (hi : s.Ids params.json)
    (hp : s.wellBehaved params.json a = true) (h : s.step params a = some t) :
    ∀ message, t.client.pending = some message →
      isEigerId (message.cdpId params.json) = false := by
  intro message hpending
  obtain ⟨choice, rfl, hstep⟩ | ⟨choice, rfl, hstep⟩ | ⟨emission, rfl, rfl⟩ := step_cases h
  · obtain hold | ⟨received, rfl, hreceived⟩ := (stepClient_cases hstep).pending hpending
    · exact hi.pending message hold
    · rw [wellBehaved, hreceived] at hp
      exact UpstreamMessage.belowStart_iff.1 hp
  · rw [(stepUpstream_cases hstep).frame.1] at hpending
    exact hi.pending message hpending
  · exact hi.pending message hpending

/-- A step keeps the two kinds of commands apart. -/
theorem Ids.step {a : ProxyAction} (hi : s.Ids params.json)
    (hp : s.wellBehaved params.json a = true) (h : s.step params a = some t) :
    t.Ids params.json := by
  have hpending := hi.pending_step hp h
  cases step_sends h with
  | nothing hsent hid => exact ⟨Nat.le_trans hi.start_le hid, hpending, hsent ▸ hi.sent⟩
  | injected hid hsent =>
    refine ⟨hid ▸ Nat.le_succ_of_le hi.start_le, hpending, ?_⟩
    rw [hsent, List.forall_mem_append]
    exact ⟨hi.sent, List.forall_mem_singleton.2 (isEigerId_injected hi.start_le)⟩
  | forwarded hmessage hid hsent =>
    refine ⟨hid ▸ hi.start_le, hpending, ?_⟩
    rw [hsent, List.forall_mem_append]
    exact ⟨hi.sent, List.forall_mem_singleton.2 (hi.pending _ hmessage)⟩

/-! ## What the browser emits -/

/-- A consistent message is an event without an id, or answers a command that was sent under the
command's id. -/
theorem consistent_iff {json : Codec} {sent : List Sent} {emission : Emission} :
    emission.consistent json sent = true ↔
      emission.cause = .event ∧ emission.message.cdpId json = none ∨
      ∃ request command, emission.cause = .response request ∧ sent[request]? = some command ∧
        command.requestId json = emission.message.cdpId json := by
  unfold Emission.consistent
  cases emission.cause with
  | event => simp
  | response request => cases hcommand : sent[request]? <;> simp [hcommand]

/-- It stays consistent as more is sent. -/
theorem consistent_mono {json : Codec} {sent later : List Sent} {emission : Emission}
    (hle : sent <+: later) (h : emission.consistent json sent = true) :
    emission.consistent json later = true := by
  rw [consistent_iff] at h ⊢
  obtain hevent | ⟨request, command, hcause, hcommand, hid⟩ := h
  · exact .inl hevent
  · obtain ⟨hlt, -⟩ := List.getElem?_eq_some_iff.1 hcommand
    obtain ⟨rest, rfl⟩ := hle
    exact .inr ⟨request, command, hcause, (List.getElem?_append_left hlt).trans hcommand, hid⟩

/-- Where the ids tell the commands apart, the id of a consistent message tells what it answers. -/
theorem Ids.answersInjected {json : Codec} (hi : s.Ids json) {emission : Emission}
    (h : emission.consistent json s.sent = true) :
    isEigerId (emission.message.cdpId json) = emission.answersInjected s.sent := by
  unfold Emission.answersInjected
  obtain ⟨hcause, hid⟩ | ⟨request, command, hcause, hcommand, hid⟩ := consistent_iff.1 h
  · rw [hcause, hid]
    rfl
  · rw [hcause, ← hid, hi.sent command (List.mem_of_getElem? hcommand)]
    simp [hcommand]

/-- All that the browser emitted is consistent. -/
def Consistent (json : Codec) (s : Proxy) : Prop :=
  ∀ emission ∈ s.emitted, emission.consistent json s.sent = true

/-- A step keeps it consistent. -/
theorem Consistent.step {a : ProxyAction} (hc : s.Consistent params.json)
    (hp : s.wellBehaved params.json a = true) (h : s.step params a = some t) :
    t.Consistent params.json := by
  intro emission hmem
  apply consistent_mono (step_sends h).keeps
  rw [step_emitted h, List.mem_append] at hmem
  obtain hold | hnew := hmem
  · exact hc emission hold
  · cases a with
    | emit emitted =>
      obtain rfl := List.mem_singleton.1 hnew
      exact hp
    | _ => cases hnew

/-! ## The way of a message -/

/-- What was read went to the client in order, but for what is on its way and for a message whose
delivery failed, which ends the loop. -/
structure Flow (params : ProxyParams) (s : Proxy) : Prop where
  read_le : s.read ≤ s.emitted.length
  inOrder : ∃ lost, s.delivered ++ (s.upstream.inFlight ++ lost) =
    (s.emitted.take s.read).filterMap (relayed params) ∧ (lost = [] ∨ s.upstream = .closing)

/-- A step keeps the messages in order. -/
theorem Flow.step {a : ProxyAction} (hf : s.Flow params) (h : s.step params a = some t) :
    t.Flow params := by
  obtain ⟨hread_le, lost, hrelayed, hlost⟩ := hf
  have hemitted := step_emitted h
  have hlength : s.emitted.length ≤ t.emitted.length := by
    rw [hemitted, List.length_append]
    exact Nat.le_add_right _ _
  have htake : t.emitted.take s.read = s.emitted.take s.read := by
    rw [hemitted, List.take_append_of_le_length hread_le]
  cases step_relays h with
  | nothing hread hdelivered hinFlight hclosing =>
    refine ⟨hread ▸ Nat.le_trans hread_le hlength, lost, ?_, hlost.imp_right hclosing⟩
    rw [hread, hdelivered, hinFlight, htake, hrelayed]
  | @reads emission hpc hemission hread hdelivered hinFlight =>
    obtain ⟨hlt, -⟩ := List.getElem?_eq_some_iff.1 hemission
    obtain rfl := hlost.resolve_right (by rw [hpc]; nofun)
    rw [hpc] at hrelayed
    have hnext : t.emitted[s.read]? = some emission := by
      rw [hemitted, List.getElem?_append_left hlt, hemission]
    refine ⟨hread ▸ Nat.le_trans hlt hlength, [], ?_, .inl rfl⟩
    rw [hread, List.take_add_one, htake, hnext, List.filterMap_append, ← hrelayed, hdelivered,
      hinFlight]
    cases hmessage : relayed params emission <;> simp [UpstreamPc.inFlight, hmessage]
  | @delivers message hpc hread hdelivered hinFlight =>
    obtain rfl := hlost.resolve_right (by rw [hpc]; nofun)
    rw [hpc] at hrelayed
    refine ⟨hread ▸ Nat.le_trans hread_le hlength, [], ?_, .inl rfl⟩
    rw [hread, htake, ← hrelayed, hdelivered, hinFlight]
    simp [UpstreamPc.inFlight]
  | @loses message hpc hread hdelivered hclosing =>
    rw [hpc] at hrelayed
    refine ⟨hread ▸ Nat.le_trans hread_le hlength, message :: lost, ?_, .inr hclosing⟩
    rw [hread, htake, ← hrelayed, hdelivered, hclosing]
    rfl

/-- What a consistent message gives the client, of text and binary messages. -/
theorem Ids.relayed_data (hi : s.Ids params.json) {emission : Emission}
    (h : emission.consistent params.json s.sent = true) :
    (relayed params emission).filter Message.isData =
      if emission.answersInjected s.sent then none else emission.message.data := by
  rw [relayed, upstreamToAxumMessage_data, hi.answersInjected h]

/-- What consistent messages give the client is what is meant for it. -/
theorem Ids.filter_relayed (hi : s.Ids params.json) {emitted : List Emission}
    (h : ∀ emission ∈ emitted, emission.consistent params.json s.sent = true) :
    (emitted.filterMap (relayed params)).filter Message.isData = s.meantForClient emitted := by
  rw [meantForClient, List.filter_filterMap, List.filterMap_filter]
  refine List.filterMap_congr fun emission hmem => ?_
  rw [hi.relayed_data (h emission hmem)]
  cases emission.answersInjected s.sent <;> rfl

/-- What holds of the proxy in any run with a client and a browser that behave. -/
structure Downstream (params : ProxyParams) (s : Proxy) : Prop where
  ids : s.Ids params.json
  consistent : s.Consistent params.json
  flow : s.Flow params

/-- It holds after every run. -/
theorem downstream_of_run {as : List ProxyAction}
    (h : Run (Proxy.step params) (fun s a => s.wellBehaved params.json a = true) .init as s) :
    s.Downstream params := by
  refine h.preserves (fun s a t hs hp hstep => ?_) ?_
  · exact ⟨hs.ids.step hp hstep, hs.consistent.step hp hstep, hs.flow.step hstep⟩
  · exact ⟨⟨Nat.le_refl _, nofun, nofun⟩, nofun, ⟨Nat.le_refl _, [], rfl, .inl rfl⟩⟩

end Proxy

/-- **The client gets what is meant for it.** In every run of the proxy with a client and a browser
that behave, the text and binary messages delivered are, in order and each once, a prefix of those
that the browser emitted, less the responses to injected commands. Whenever `upstream_to_client`
awaits the browser's next message, all those among what it has read have been delivered. -/
theorem downstream_transparent (params : ProxyParams) {as : List ProxyAction} {s : Proxy}
    (h : Run (Proxy.step params) (fun s a => s.wellBehaved params.json a = true) .init as s) :
    s.delivered.filter Message.isData <+: s.meantForClient s.emitted ∧
      (s.upstream = .receiving →
        s.delivered.filter Message.isData = s.meantForClient (s.emitted.take s.read)) := by
  obtain ⟨hids, hconsistent, -, lost, hinOrder, hlost⟩ := Proxy.downstream_of_run h
  have hmeant : _ = s.meantForClient (s.emitted.take s.read) :=
    hids.filter_relayed fun emission hmem => hconsistent emission (List.mem_of_mem_take hmem)
  rw [← hinOrder, List.filter_append] at hmeant
  constructor
  · have hread : s.meantForClient (s.emitted.take s.read) <+: s.meantForClient s.emitted :=
      ((List.take_prefix s.read s.emitted).filter _).filterMap _
    exact List.IsPrefix.trans ⟨_, hmeant⟩ hread
  · intro hpc
    obtain rfl := hlost.resolve_right (by rw [hpc]; nofun)
    rw [hpc] at hmeant
    simpa [UpstreamPc.inFlight] using hmeant

/-- The event that a target has attached. -/
def attachedText : String :=
  "\x7b\"method\":\"Target.attachedToTarget\",\"params\":\x7b\"sessionId\":\"S\"," ++
    "\"targetInfo\":\x7b\"type\":\"page\"\x7d\x7d\x7d"

/-- The command that is injected for it. -/
def enableText : String :=
  "\x7b\"id\":9000000000,\"method\":\"Page.enable\",\"params\":\x7b\x7d,\"sessionId\":\"S\"\x7d"

/-- The response to that command. -/
def enabledText : String := "\x7b\"id\":9000000000,\"result\":\x7b\x7d,\"sessionId\":\"S\"\x7d"

/-- A command of the client's. -/
def versionText : String := "\x7b\"id\":1,\"method\":\"Browser.getVersion\"\x7d"

/-- The response to it. -/
def versionResponseText : String := "\x7b\"id\":1,\"result\":\x7b\x7d\x7d"

/-- These texts with their values. -/
def exampleValues : List (String × Value) :=
  [(attachedText, .object [("method", .string "Target.attachedToTarget"),
      ("params", .object [("sessionId", .string "S"),
        ("targetInfo", .object [("type", .string "page")])])]),
    (enableText, proxyCdpCommand 9000000000 "S" "Page.enable" (.object [])),
    (enabledText, .object [("id", .number (.posInt 9000000000)), ("result", .object []),
      ("sessionId", .string "S")]),
    (versionText, .object [("id", .number (.posInt 1)),
      ("method", .string "Browser.getVersion")]),
    (versionResponseText, .object [("id", .number (.posInt 1)), ("result", .object [])])]

/-- A JSON library on these texts. -/
def exampleCodec : Codec :=
  { fromStr := fun text =>
      match exampleValues.lookup text with
      | some value => .ok value
      | none => .error "expected value at line 1 column 1"
    toString := fun value =>
      match exampleValues.find? (·.2 = value) with
      | some (text, _) => text
      | none => "null" }

/-- A proxy with stealth on. -/
def exampleProxy : ProxyParams :=
  { json := exampleCodec, scripts := [], stealthEnabled := true }

/-- A target attaches and gets a stealth command; then the browser answers that command, and one of
the client's. -/
def attachedRun : List ProxyAction :=
  [.emit ⟨.text attachedText, .event⟩, .upstream .go, .upstream .go, .upstream .go,
    .client (.message (.text versionText)), .upstream .go, .upstream .go, .upstream .go,
    .client .go, .client .go,
    .emit ⟨.text enabledText, .response 0⟩, .emit ⟨.text versionResponseText, .response 1⟩,
    .upstream .go, .upstream .go, .upstream .go]

/-- The theorem at this run: the client gets the event and its own response. -/
theorem downstream_transparent_attached :
    let s := after (Proxy.step exampleProxy) .init attachedRun
    s.sent.map (·.message exampleCodec) = [.text enableText, .text versionText] ∧
      s.emitted.length = 3 ∧
      s.meantForClient s.emitted = [.text attachedText, .text versionResponseText] ∧
      s.delivered.filter Message.isData <+: s.meantForClient s.emitted ∧
      s.delivered.filter Message.isData = s.meantForClient (s.emitted.take s.read) := by
  have hrun : Run (Proxy.step exampleProxy)
      (fun s a => s.wellBehaved exampleProxy.json a = true) .init attachedRun
      (after (Proxy.step exampleProxy) .init attachedRun) := run_after (by decide)
  obtain ⟨hsofar, hread⟩ := downstream_transparent exampleProxy hrun
  exact ⟨by decide, by decide, by decide, hsofar, hread (by decide)⟩

end Eiger
