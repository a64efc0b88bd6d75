import Eiger.Api.Navigation
import Eiger.Lib.Future
import Eiger.Lib.Run

/-!
# Calls and their responses

A `CdpConnection` is used by one call after another: commands, which wait for their responses, and
waits for lifecycle events, which read the same socket. A command may be given up when its time is
over, and its response arrives during a later call. Every call has an id of its own, and takes
nothing for its response that has another: `responses_matched`.

What arrives is labelled with the request that it answers (`Arrival`). The labels are not read by
the connection; the peer sets the ids by them (`Answering`).
-/

namespace Eiger

open Json Transition

/-! ## One command -/

/-- What the response to a command says. -/
def responseOutcome (json : Codec) (response : Value) : Except RestEndpointError Value :=
  match response.get "error" with
  | some error => .error (.cdpProtocol (json.toString error))
  | none => .ok ((response.get "result").getD .null)

/-- The error of a command that waits no longer, with this, though it has no response. -/
def Inbound.failure (json : Codec) (method : String) (item : Inbound) : Option RestEndpointError :=
  match item.turn json with
  | .elapsed => some (.cdpTimeout method)
  | .failed error => some error
  | _ => none

section

variable {json : Codec} {id : Nat} {method : String}

/-- `command` returns with the first message that has its id, or with a failure before. In between
it records the lifecycle events. -/
theorem commandLoop_returned {events later : List String} {inbound rest : List Inbound}
    {returned : Except RestEndpointError Value}
    (h : commandLoop json id method events inbound = some (returned, later, rest)) :
    ∃ before item, inbound = before ++ item :: rest ∧
      later = (received json (before ++ [item])).foldl recordLifecycleEvent events ∧
      ((∃ response, item.value json = some response ∧ hasId id response = true ∧
          returned = responseOutcome json response) ∨
        ∃ error, item.failure json method = some error ∧ returned = .error error) := by
  induction inbound generalizing events with
  | nil => cases h
  | cons item inbound ih =>
    rw [commandLoop] at h
    split at h
    · next hturn =>
      obtain ⟨before, last, rfl, rfl, hlast⟩ := ih h
      refine ⟨item :: before, last, rfl, ?_, hlast⟩
      rw [List.cons_append, received_skip hturn]
    · next hturn =>
      cases h
      refine ⟨[], item, rfl, ?_, .inr ⟨.cdpTimeout method, ?_, rfl⟩⟩
      · rw [List.nil_append, received, List.filterMap_cons_none (by rw [Inbound.value, hturn])]
        rfl
      · rw [Inbound.failure, hturn]
    · next error hturn =>
      cases h
      refine ⟨[], item, rfl, ?_, .inr ⟨error, ?_, rfl⟩⟩
      · rw [List.nil_append, received, List.filterMap_cons_none (by rw [Inbound.value, hturn])]
        rfl
      · rw [Inbound.failure, hturn]
    · next value hturn =>
      have hvalue : item.value json = some value := value_eq_some_iff.2 hturn
      simp only at h
      split at h
      · obtain ⟨before, last, rfl, rfl, hlast⟩ := ih h
        refine ⟨item :: before, last, rfl, ?_, hlast⟩
        rw [List.cons_append, received_cons hvalue]
        rfl
      · next hid =>
        have hid : hasId id value = true := decide_eq_true (not_not.1 hid)
        have hevents : recordLifecycleEvent events value =
            (received json ([] ++ [item])).foldl recordLifecycleEvent events := by
          rw [List.nil_append, received_cons hvalue]
          rfl
        split at h
        · next error herror =>
          cases h
          refine ⟨[], item, rfl, hevents, .inl ⟨value, hvalue, hid, ?_⟩⟩
          rw [responseOutcome, herror]
        · next herror =>
          cases h
          refine ⟨[], item, rfl, hevents, .inl ⟨value, hvalue, hid, ?_⟩⟩
          rw [responseOutcome, herror]

/-- `wait_for_lifecycle` leaves what it has not read. -/
theorem lifecycleLoop_suffix {session expected : String} {events later : List String}
    {inbound rest : List Inbound} {returned : Except RestEndpointError Unit}
    (h : lifecycleLoop json session expected events inbound = some (returned, later, rest)) :
    rest <:+ inbound := by
  induction inbound generalizing events with
  | nil => cases h
  | cons item inbound ih =>
    rw [lifecycleLoop] at h
    split at h
    · exact (ih h).trans (List.suffix_cons _ _)
    · cases h
      exact List.suffix_cons _ _
    · cases h
      exact List.suffix_cons _ _
    · simp only at h
      split at h
      · exact (ih h).trans (List.suffix_cons _ _)
      · split at h
        · cases h
          exact List.suffix_cons _ _
        · exact (ih h).trans (List.suffix_cons _ _)

end

/-! ## The uses of a connection -/

/-- A new connection, with what will arrive on it. -/
def CdpConnection.opened (inbound : List Inbound) : CdpConnection :=
  { inbound, sendError := none, nextId := 1, lifecycleEvents := [], sent := [] }

/-- `CdpConnection::connect`. The handshake of `connect_async` is awaited without a timeout: it may
never end, or end with an error, or with what will arrive on the connection. -/
def CdpConnection.connect (handshake : Future (Except String (List Inbound))) :
    Future (Except RestEndpointError CdpConnection) := do
  match ← handshake with
  | .error error => return .error (.cdpWebSocket error)
  | .ok inbound => return .ok (.opened inbound)

/-- A use of a connection: a command, with the error of sending it if that fails, a wait, or
`lifecycle_events.clear`. -/
inductive CdpUse where
  | command (sendError : Option String) (session : Option String) (method : String)
      (params : Value)
  | wait (session : String) (waitUntil : WaitUntil)
  | clear

/-- The connection after a use that returns, whatever it returns. -/
def CdpUse.step (json : Codec) (cdp : CdpConnection) : CdpUse → Option CdpConnection
  | .command sendError session method params =>
    ({ cdp with sendError }.command json session method params).map Prod.snd
  | .wait session waitUntil => (cdp.waitForLifecycle json session waitUntil).map Prod.snd
  | .clear => some { cdp with lifecycleEvents := [] }

/-- The connection is used, by any number of calls. -/
def Uses (json : Codec) (cdp : CdpConnection) (uses : List CdpUse) (cdp' : CdpConnection) : Prop :=
  Run (CdpUse.step json) (fun _ _ => True) cdp uses cdp'

/-- The requests have ids from the first one on, below the next one, each its own. -/
structure Counted (first next : Nat) (requests : List Value) : Prop where
  ids : ∀ request ∈ requests, ∃ id, hasId id request = true ∧ first ≤ id ∧ id < next
  distinct : requests.Pairwise fun a b => ∀ id, hasId id a = true → hasId id b = false

/-- What a use leaves of the connection before it: it reads on, sends more, and counts up. -/
structure Advanced (cdp cdp' : CdpConnection) : Prop where
  inbound : cdp'.inbound <:+ cdp.inbound
  sent : cdp.sent <+: cdp'.sent
  nextId : cdp.nextId ≤ cdp'.nextId

section

variable {json : Codec} {cdp cdp' : CdpConnection}

/-- A message has no two ids. -/
theorem eq_of_hasId {id id' : Nat} {value : Value} (h : hasId id value = true)
    (h' : hasId id' value = true) : id = id' :=
  Option.some.inj ((of_decide_eq_true h).symm.trans (of_decide_eq_true h'))

namespace Counted

variable {first next later : Nat} {requests : List Value} {request : Value}

/-- There are no requests yet. -/
theorem nil : Counted first next [] := ⟨fun _ h => absurd h List.not_mem_nil, .nil⟩

/-- Ids may be left out. -/
theorem mono (h : Counted first next requests) (hle : next ≤ later) :
    Counted first later requests := by
  refine ⟨fun request hrequest => ?_, h.distinct⟩
  obtain ⟨id, hid, hfirst, hlt⟩ := h.ids request hrequest
  exact ⟨id, hid, hfirst, Nat.lt_of_lt_of_le hlt hle⟩

/-- The next request takes the next id. -/
theorem snoc (h : Counted first next requests) (hfirst : first ≤ next)
    (hid : hasId next request = true) : Counted first (next + 1) (requests ++ [request]) := by
  constructor
  · rw [List.forall_mem_append, List.forall_mem_singleton]
    exact ⟨(h.mono (Nat.le_succ next)).ids, next, hid, hfirst, Nat.lt_succ_self next⟩
  · rw [List.pairwise_append]
    refine ⟨h.distinct, List.pairwise_singleton _ _, fun other hother last hlast id hother' => ?_⟩
    rw [List.mem_singleton.1 hlast, Bool.eq_false_iff]
    intro hsame
    obtain ⟨id', hid', -, hlt⟩ := h.ids other hother
    have heq : id = id' := eq_of_hasId hother' hid'
    have hnext : id = next := eq_of_hasId hsame hid
    omega

end Counted

/-- A request has its id. -/
theorem hasId_request {id : Nat} {session : Option String} {method : String} {params : Value} :
    hasId id (CdpConnection.request id session method params) = true := by
  simp [hasId, CdpConnection.request, Value.get, Value.asU64]

/-- What a command does to the connection: it counts up, and sends its request unless that fails. -/
theorem command_connection {session : Option String} {method : String} {params : Value}
    {returned : Except RestEndpointError Value}
    (h : cdp.command json session method params = some (returned, cdp')) :
    cdp'.nextId = cdp.nextId + 1 ∧ cdp'.inbound <:+ cdp.inbound ∧
      (cdp'.sent = cdp.sent ∨
        cdp'.sent = cdp.sent ++ [CdpConnection.request cdp.nextId session method params]) := by
  rw [CdpConnection.command] at h
  split at h
  · cases h
    exact ⟨rfl, List.suffix_refl _, .inl rfl⟩
  · obtain ⟨⟨result, later, rest⟩, hloop, h⟩ := Option.map_eq_some_iff.1 h
    cases h
    obtain ⟨before, item, hinbound, -⟩ := commandLoop_returned hloop
    refine ⟨rfl, ⟨before ++ [item], ?_⟩, .inr rfl⟩
    rw [hinbound, List.append_assoc, List.singleton_append]

/-- A wait reads on, and does nothing else to the connection but record events. -/
theorem wait_connection {session : String} {waitUntil : WaitUntil}
    {returned : Except RestEndpointError Unit}
    (h : cdp.waitForLifecycle json session waitUntil = some (returned, cdp')) :
    cdp'.nextId = cdp.nextId ∧ cdp'.inbound <:+ cdp.inbound ∧ cdp'.sent = cdp.sent := by
  rw [CdpConnection.waitForLifecycle] at h
  split at h
  · cases h
    exact ⟨rfl, List.suffix_refl _, rfl⟩
  · obtain ⟨⟨result, later, rest⟩, hloop, h⟩ := Option.map_eq_some_iff.1 h
    cases h
    exact ⟨rfl, lifecycleLoop_suffix hloop, rfl⟩

/-- What a use does to the requests: it sends none, or one with the next id, which it uses up. -/
theorem CdpUse.step_sent {use : CdpUse} (h : use.step json cdp = some cdp') :
    cdp'.inbound <:+ cdp.inbound ∧ cdp.nextId ≤ cdp'.nextId ∧
      (cdp'.sent = cdp.sent ∨ ∃ request, cdp'.sent = cdp.sent ++ [request] ∧
        hasId cdp.nextId request = true ∧ cdp'.nextId = cdp.nextId + 1) := by
  cases use with
  | command sendError session method params =>
    obtain ⟨⟨returned, _⟩, hcommand, rfl⟩ := Option.map_eq_some_iff.1 h
    obtain ⟨hnext, hinbound, hsent⟩ := command_connection hcommand
    refine ⟨hinbound, Nat.le_trans (Nat.le_succ _) (Nat.le_of_eq hnext.symm), ?_⟩
    exact hsent.imp_right fun hsent => ⟨_, hsent, hasId_request, hnext⟩
  | wait session waitUntil =>
    obtain ⟨⟨returned, _⟩, hwait, rfl⟩ := Option.map_eq_some_iff.1 h
    obtain ⟨hnext, hinbound, hsent⟩ := wait_connection hwait
    exact ⟨hinbound, Nat.le_of_eq hnext.symm, .inl hsent⟩
  | clear =>
    cases h
    exact ⟨List.suffix_refl _, Nat.le_refl _, .inl rfl⟩

/-- A use advances the connection. -/
theorem Advanced.step {use : CdpUse} (h : use.step json cdp = some cdp') : Advanced cdp cdp' := by
  obtain ⟨hinbound, hnext, hsent⟩ := CdpUse.step_sent h
  refine ⟨hinbound, ?_, hnext⟩
  obtain hsent | ⟨request, hsent, -⟩ := hsent
  · exact hsent ▸ List.prefix_refl _
  · exact hsent ▸ List.prefix_append _ _

/-- So does any number of uses. -/
theorem advanced_of_uses {uses : List CdpUse} (h : Uses json cdp uses cdp') :
    Advanced cdp cdp' := by
  refine h.preserves (fun before use after hbefore _ hstep => ?_)
    ⟨List.suffix_refl _, List.prefix_refl _, Nat.le_refl _⟩
  have hnext := Advanced.step hstep
  exact ⟨hnext.inbound.trans hbefore.inbound, hbefore.sent.trans hnext.sent,
    Nat.le_trans hbefore.nextId hnext.nextId⟩

/-- The requests sent on a connection have ids of their own. -/
theorem counted_of_uses {inbound : List Inbound} {uses : List CdpUse}
    (h : Uses json (.opened inbound) uses cdp) : Counted 0 cdp.nextId cdp.sent := by
  refine @Run.preserves _ _ _ _ _ _ _ (fun cdp => Counted 0 cdp.nextId cdp.sent)
    (fun cdp use cdp' hcdp _ hstep => ?_) h .nil
  obtain ⟨-, hle, hsent | ⟨request, hsent, hid, hnext⟩⟩ := CdpUse.step_sent hstep
  · rw [hsent]
    exact hcdp.mono hle
  · rw [hsent, hnext]
    exact hcdp.snoc (Nat.zero_le _) hid

/-- Two requests of one id are one request. -/
theorem Counted.eq_of_hasId {first next id j k : Nat} {requests : List Value} {a b : Value}
    (h : Counted first next requests) (hj : requests[j]? = some a) (hk : requests[k]? = some b)
    (ha : hasId id a = true) (hb : hasId id b = true) : j = k := by
  obtain ⟨hjlt, rfl⟩ := List.getElem?_eq_some_iff.1 hj
  obtain ⟨hklt, rfl⟩ := List.getElem?_eq_some_iff.1 hk
  obtain hlt | heq | hlt := Nat.lt_trichotomy j k
  · have hother := List.pairwise_iff_getElem.1 h.distinct j k hjlt hklt hlt id ha
    rw [hb] at hother
    cases hother
  · exact heq
  · have hother := List.pairwise_iff_getElem.1 h.distinct k j hklt hjlt hlt id hb
    rw [ha] at hother
    cases hother

end

/-! ## Whose response it is -/

/-- What arrives, and the number of the request that the peer answers with it, if it does. -/
structure Arrival where
  item : Inbound
  answers : Option Nat

/-- The peer answers a request with its id, and at most once; what has an id is an answer. -/
structure Answering (json : Codec) (requests : List Value) (arrivals : List Arrival) : Prop where
  ids : ∀ arrival ∈ arrivals, ∀ value id, arrival.item.value json = some value →
    hasId id value = true → ∃ k request, arrival.answers = some k ∧ requests[k]? = some request ∧
      hasId id request = true
  once : ∀ arrival ∈ arrivals, ∀ other ∈ arrivals, ∀ k, arrival.answers = some k →
    other.answers = some k → other = arrival

/-- A call returns what the answer to the request of this number says. -/
def Responded (json : Codec) (arrivals : List Arrival) (k : Nat)
    (returned : Except RestEndpointError Value) : Prop :=
  ∃ arrival ∈ arrivals, arrival.answers = some k ∧
    (∀ other ∈ arrivals, other.answers = some k → other = arrival) ∧
    ∃ response, arrival.item.value json = some response ∧ returned = responseOutcome json response

/-- A call has no response: sending failed, or the connection did, or its time was over. -/
def Unanswered (json : Codec) (sendError : Option String) (method : String)
    (consumed : List Inbound) (returned : Except RestEndpointError Value) : Prop :=
  ∃ error, returned = .error error ∧
    (sendError.map .cdpWebSocket = some error ∨
      ∃ item ∈ consumed, item.failure json method = some error)

/-- A command that leads from one state of the connection to another has been matched with its own
response, if it has one: its request has the number `k`. No later call has its id, and what it read
has been looked at for lifecycle events. -/
structure CallMatched (json : Codec) (arrivals : List Arrival) (requests : List Value)
    (cdp cdp' : CdpConnection) (sendError session : Option String) (method : String)
    (params : Value) (returned : Except RestEndpointError Value) : Prop where
  response : ∃ consumed, cdp.inbound = consumed ++ cdp'.inbound ∧
    ((requests[cdp.sent.length]? =
        some (CdpConnection.request cdp.nextId session method params) ∧
      Responded json arrivals cdp.sent.length returned) ∨
      Unanswered json sendError method consumed returned) ∧
    ∀ value ∈ received json consumed, ∀ name, Named name value → name ∈ cdp'.lifecycleEvents
  ids : ∀ uses later, Uses json cdp' uses later → later.nextId ≠ cdp.nextId

/-- The id of a response says whose answer it is, where the requests have ids of their own. -/
theorem Answering.responded {json : Codec} {arrivals : List Arrival} {last : CdpConnection}
    {item : Inbound} {id k : Nat} {request response : Value}
    (hpeer : Answering json last.sent arrivals) (hlast : Counted 0 last.nextId last.sent)
    (hrequest : last.sent[k]? = some request) (hrequestId : hasId id request = true)
    (harrived : item ∈ arrivals.map (·.item)) (hitem : item.value json = some response)
    (hid : hasId id response = true) :
    Responded json arrivals k (responseOutcome json response) := by
  obtain ⟨arrival, harrival, rfl⟩ := List.mem_map.1 harrived
  obtain ⟨j, other, hanswers, hother, hotherId⟩ := hpeer.ids arrival harrival response id hitem hid
  obtain rfl : j = k := hlast.eq_of_hasId hother hrequest hotherId hrequestId
  exact ⟨arrival, harrival, hanswers,
    fun other hother => hpeer.once arrival harrival other hother _ hanswers,
    response, hitem, rfl⟩

/-- **Responses are matched to their own commands.** Whatever a connection was used for before and
is used for later, and whatever arrives in whatever order, late responses to commands that have been
given up among it: where the peer answers a request with its id and at most once, a command returns
what the response to its own request says, or has none. Its id is its own, and the lifecycle events
that it has seen are recorded. -/
theorem responses_matched (json : Codec) (arrivals : List Arrival) (before after : List CdpUse)
    (cdp cdp' last : CdpConnection) (sendError session : Option String) (method : String)
    (params : Value) (returned : Except RestEndpointError Value)
    (hbefore : Uses json (.opened (arrivals.map (·.item))) before cdp)
    (hcommand : { cdp with sendError }.command json session method params =
      some (returned, cdp'))
    (hafter : Uses json cdp' after last) (hpeer : Answering json last.sent arrivals) :
    CallMatched json arrivals last.sent cdp cdp' sendError session method params returned := by
  have huse : CdpUse.step json cdp (.command sendError session method params) = some cdp' := by
    rw [CdpUse.step, hcommand]
    rfl
  have hlast : Counted 0 last.nextId last.sent :=
    counted_of_uses (hbefore.trans (Run.cons trivial huse hafter))
  have hnext : cdp'.nextId = cdp.nextId + 1 := (command_connection hcommand).1
  refine ⟨?_, ?_⟩
  swap
  · intro uses later huses
    have hle := (advanced_of_uses huses).nextId
    omega
  rw [CdpConnection.command] at hcommand
  split at hcommand
  · next error hsend =>
    cases hcommand
    refine ⟨[], rfl, .inr ⟨.cdpWebSocket error, rfl, .inl ?_⟩, ?_⟩
    · rw [show sendError = some error from hsend]
      rfl
    · intro value hvalue
      cases hvalue
  obtain ⟨⟨result, later, rest⟩, hloop, hcommand⟩ := Option.map_eq_some_iff.1 hcommand
  cases hcommand
  obtain ⟨passed, item, hinbound, hlater, hreturned⟩ := commandLoop_returned hloop
  refine ⟨passed ++ [item], ?_, ?_, ?_⟩
  · rw [List.append_assoc]
    exact hinbound
  · obtain ⟨response, hitem, hid, hresult⟩ | ⟨error, hfailure, hresult⟩ := hreturned
    · refine .inl ?_
      have hrequest : last.sent[cdp.sent.length]? =
          some (CdpConnection.request cdp.nextId session method params) := by
        obtain ⟨more, hmore⟩ := (advanced_of_uses hafter).sent
        rw [← hmore]
        simp
      have harrived : item ∈ arrivals.map (·.item) := by
        refine (advanced_of_uses hbefore).inbound.subset ?_
        rw [show cdp.inbound = passed ++ item :: rest from hinbound]
        exact List.mem_append_right _ List.mem_cons_self
      rw [hresult]
      exact ⟨hrequest, hpeer.responded hlast hrequest hasId_request harrived hitem hid⟩
    · refine .inr ⟨error, hresult, .inr ⟨item, ?_, hfailure⟩⟩
      exact List.mem_append_right _ (List.mem_singleton_self item)
  · intro value hvalue name hname
    show name ∈ later
    rw [hlater, mem_recorded]
    exact .inr ⟨value, hvalue, hname⟩

/-! ## A late response -/

/-- The value of the response to the request of this id, with the id as its result. -/
def replyValue (id : Nat) : Value :=
  .object [("id", .number (.posInt id)), ("result", .number (.posInt id))]

/-- The text of that response. -/
def replyText (id : Nat) : String :=
  "\x7b\"id\":" ++ Nat.repr id ++ ",\"result\":" ++ Nat.repr id ++ "\x7d"

/-- A library that reads the responses to the first two requests. -/
def replyCodec : Codec :=
  { fromStr := fun text =>
      if text = replyText 1 then .ok (replyValue 1)
      else if text = replyText 2 then .ok (replyValue 2)
      else .error "expected value at line 1 column 1"
    toString := fun _ => "null" }

/-- The first command is given up, and its response arrives ahead of that to the second. -/
def lateArrivals : List Arrival :=
  [⟨.elapsed, none⟩, ⟨.message (.text (replyText 1)), some 0⟩,
    ⟨.message (.text (replyText 2)), some 1⟩]

/-- The connection when the first command has been given up. -/
def lateReply : CdpConnection :=
  { inbound := [.message (.text (replyText 1)), .message (.text (replyText 2))]
    sendError := none
    nextId := 2
    lifecycleEvents := []
    sent := [CdpConnection.request 1 none "Page.enable" .null] }

/-- The connection when the second one has returned. -/
def lateReplied : CdpConnection :=
  { inbound := []
    sendError := none
    nextId := 3
    lifecycleEvents := []
    sent := [CdpConnection.request 1 none "Page.enable" .null,
      CdpConnection.request 2 none "Page.reload" .null] }

/-- The peer of this connection answers each request with its id. -/
theorem answering_late : Answering replyCodec lateReplied.sent lateArrivals where
  ids := by
    intro arrival harrival value id hvalue hid
    simp only [lateArrivals, List.mem_cons, List.not_mem_nil, or_false] at harrival
    obtain rfl | rfl | rfl := harrival
    · cases hvalue
    · obtain rfl : replyValue 1 = value := Option.some.inj hvalue
      obtain rfl : id = 1 := eq_of_hasId hid rfl
      exact ⟨0, _, rfl, rfl, rfl⟩
    · obtain rfl : replyValue 2 = value := Option.some.inj hvalue
      obtain rfl : id = 2 := eq_of_hasId hid rfl
      exact ⟨1, _, rfl, rfl, rfl⟩
  once := by
    intro arrival harrival other hother k hk hk'
    simp only [lateArrivals, List.mem_cons, List.not_mem_nil, or_false] at harrival hother
    obtain rfl | rfl | rfl := harrival <;> obtain rfl | rfl | rfl := hother <;>
      first
      | rfl
      | (cases hk <;> cases hk')

/-- The second command returns what the response to it says. -/
theorem responses_matched_late :
    CallMatched replyCodec lateArrivals lateReplied.sent lateReply lateReplied none none
      "Page.reload" .null (.ok (.number (.posInt 2))) :=
  responses_matched replyCodec lateArrivals [.command none none "Page.enable" .null] [] lateReply
    lateReplied lateReplied none none "Page.reload" .null _ (Run.single trivial rfl) rfl .nil
    answering_late

end Eiger
