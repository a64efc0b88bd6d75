import Eiger.Api.Calls
import Eiger.Browser.Stealth
import Eiger.Proxy.Downstream
import Mathlib.Algebra.Ring.Int.Defs

/-!
# The ids of CDP calls

The server emits CDP calls on three kinds of connections, each with a counter for their ids: a REST
endpoint's, from 1 on, the stealth controller's, from 10000 on, and a client's that it relays, from
`EIGER_CDP_ID_START` on. On each the ids are the calls' own. On the first two they are ids that CDP
has, which are 32-bit integers with a sign, and on the third no id that a client may use. But
`EIGER_CDP_ID_START` is none of CDP's ids, and so is no id that is counted from it: the calls on a
relayed connection are valid just while there are none (`commandIds_valid_iff`).
-/

namespace Eiger

open Json Transition

/-- CDP's call ids: 32-bit integers with a sign. -/
def IsCallId (id : Int) : Prop := -2 ^ 31 ≤ id ∧ id < 2 ^ 31

/-- The request of an injected command. -/
def Sent.request : Sent → Option Value
  | .forwarded _ => none
  | .injected id session method params => some (proxyCdpCommand id session method params)

/-- The requests of the commands that have been injected. -/
def Proxy.requests (s : Proxy) : List Value := s.sent.filterMap Sent.request

/-- The step sends an injected command. -/
def Proxy.injects (s : Proxy) : ProxyAction → Bool
  | .client .go => match s.client with
    | .injecting _ (_ :: _) _ => true
    | _ => false
  | .upstream .go => match s.upstream with
    | .injecting _ (_ :: _) _ => true
    | _ => false
  | _ => false

/-- The use is a command. -/
def CdpUse.isCommand : CdpUse → Bool
  | .command .. => true
  | _ => false

/-- A connection on which the server emits CDP calls, with what has been done on it: one of a REST
endpoint, with its uses; that of the stealth controller, with what it receives; or one between a
client and the browser, with the steps of the proxy. -/
inductive CdpChannel where
  | endpoint (json : Codec) (inbound : List Inbound) (uses : List CdpUse) (cdp : CdpConnection)
      (huses : Uses json (.opened inbound) uses cdp)
  | controller (json : Codec) (scripts : List StealthScript) (sendError : Nat → Option String)
      (inbound : List (Except String UpstreamMessage))
  | proxied (params : ProxyParams) (actions : List ProxyAction) (s : Proxy)
      (hrun : Run (Proxy.step params) (fun _ _ => True) .init actions s)

namespace CdpChannel

/-- The calls that the server has emitted. -/
def requests : CdpChannel → List Value
  | .endpoint _ _ _ cdp _ => cdp.sent
  | .controller json scripts sendError inbound =>
    (runStealthController json scripts sendError inbound).1.sent
  | .proxied _ _ s _ => s.requests

/-- How many commands there have been, those of an endpoint that could not be sent among them. -/
def commands : CdpChannel → Nat
  | .endpoint _ _ uses _ _ => uses.countP CdpUse.isCommand
  | .controller json scripts sendError inbound =>
    (runStealthController json scripts sendError inbound).1.sent.length
  | .proxied _ _ s _ => s.requests.length

/-- The ids that a client may use on the connection. -/
def ClientId : CdpChannel → Int → Prop
  | .proxied .. => IsCallId
  | _ => fun _ => False

/-- The ids of the calls are valid: they are CDP's, each call has its own, and none is a
client's. -/
structure Valid (channel : CdpChannel) : Prop where
  range : ∀ request ∈ channel.requests, ∃ id : Nat, hasId id request = true ∧ IsCallId id
  distinct : channel.requests.Pairwise fun a b => ∀ id, hasId id a = true → hasId id b = false
  apart : ∀ request ∈ channel.requests, ∀ id : Nat, hasId id request = true →
    ∀ other, channel.ClientId other → other ≠ id

/-- No step of the proxy has sent an injected command. -/
def Uninjected : CdpChannel → Prop
  | .proxied params actions s _ =>
    Run (Proxy.step params) (fun s a => s.injects a = false) .init actions s
  | _ => True

end CdpChannel

/-! ## Counting -/

section

variable {first next : Nat} {requests : List Value}

/-- Few enough ids from the first one on are CDP's. -/
theorem Counted.range (h : Counted first next requests) (hnext : next ≤ 2 ^ 31) :
    ∀ request ∈ requests, ∃ id : Nat, hasId id request = true ∧ IsCallId id := by
  intro request hrequest
  obtain ⟨id, hid, -, hlt⟩ := h.ids request hrequest
  exact ⟨id, hid, by omega, by omega⟩

/-- Each command of an endpoint takes an id. -/
theorem nextId_of_uses {json : Codec} {inbound : List Inbound} {uses : List CdpUse}
    {cdp : CdpConnection} (h : Uses json (.opened inbound) uses cdp) :
    cdp.nextId = 1 + uses.countP CdpUse.isCommand := by
  induction h with
  | nil => rfl
  | @snoc uses cdp cdp' use _ _ hs ih =>
    rw [List.countP_append, List.countP_singleton]
    cases use with
    | command sendError session method params =>
      obtain ⟨⟨returned, _⟩, hcommand, rfl⟩ := Option.map_eq_some_iff.1 hs
      rw [(command_connection hcommand).1]
      show cdp.nextId + 1 = _
      rw [ih, Nat.add_assoc]
      rfl
    | wait session waitUntil =>
      obtain ⟨⟨returned, _⟩, hwait, rfl⟩ := Option.map_eq_some_iff.1 hs
      exact (wait_connection hwait).1.trans ih
    | clear =>
      cases hs
      exact ih

/-- The commands of the controller take consecutive ids. -/
theorem counted_numbered (first : Nat) (commands : List ControllerCommand) :
    Counted first (first + commands.length) (numbered first commands) := by
  induction commands using List.reverseRecOn with
  | nil => exact .nil
  | append_singleton commands command ih =>
    rw [numbered_append, List.length_append, List.length_singleton, ← Nat.add_assoc]
    refine ih.snoc (Nat.le_add_right _ _) ?_
    simp [hasId, ControllerCommand.request, Value.get, Value.asU64]

end

namespace Proxy

variable {params : ProxyParams} {s t : Proxy}

/-- What a step adds to the injected commands: nothing, or one with the next id. -/
inductive Injects (s t : Proxy) (a : ProxyAction) : Prop
  | nothing (hinjects : s.injects a = false) (hrequests : t.requests = s.requests)
  | one {session : String} {command : String × Value} (hinjects : s.injects a = true)
      (hid : t.nextId = s.nextId + 1)
      (hrequests : t.requests =
        s.requests ++ [proxyCdpCommand s.nextId session command.1 command.2])

/-- The injected command is one of the requests. -/
theorem requests_inject (session : String) (command : String × Value) :
    (s.inject session command).requests =
      s.requests ++ [proxyCdpCommand s.nextId session command.1 command.2] :=
  List.filterMap_append

/-- What a step of `client_to_upstream` injects. -/
theorem ClientStep.injecting {choice : ProxyChoice} (h : ClientStep params s choice t) :
    Injects s t (.client choice) := by
  cases h with
  | injects hpc => exact .one (by rw [Proxy.injects, hpc]) rfl (requests_inject _ _)
  | sends hpc =>
    refine .nothing (by rw [Proxy.injects, hpc]) ?_
    exact List.filterMap_append.trans (List.append_nil _)
  | closes hpc hchoice =>
    obtain rfl | rfl := hchoice <;> exact .nothing rfl rfl
  | receives | failsInject | failsSend => exact .nothing rfl rfl
  | _ hpc => exact .nothing (by simp [Proxy.injects, hpc]) rfl

/-- What a step of `upstream_to_client` injects. -/
theorem UpstreamStep.injecting {choice : ProxyChoice} (h : UpstreamStep params s choice t) :
    Injects s t (.upstream choice) := by
  cases h with
  | injects hpc => exact .one (by rw [Proxy.injects, hpc]) rfl (requests_inject _ _)
  | failsRead | failsInject | loses | closes => exact .nothing rfl rfl
  | _ hpc => exact .nothing (by simp [Proxy.injects, hpc]) rfl

/-- What a step injects. -/
theorem step_injects {a : ProxyAction} (h : s.step params a = some t) : Injects s t a := by
  obtain ⟨choice, rfl, hstep⟩ | ⟨choice, rfl, hstep⟩ | ⟨emission, rfl, rfl⟩ := step_cases h
  · exact (stepClient_cases hstep).injecting
  · exact (stepUpstream_cases hstep).injecting
  · exact .nothing rfl rfl

/-- The injected commands take ids of their own. -/
theorem counted_of_run {actions : List ProxyAction}
    (h : Run (Proxy.step params) (fun _ _ => True) .init actions s) :
    eigerCdpIdStart ≤ s.nextId ∧ Counted eigerCdpIdStart s.nextId s.requests := by
  refine h.preserves (I := fun s =>
    eigerCdpIdStart ≤ s.nextId ∧ Counted eigerCdpIdStart s.nextId s.requests) ?_
    ⟨Nat.le_refl _, .nil⟩
  rintro s a t ⟨hle, hcounted⟩ - hstep
  have hnext : s.nextId ≤ t.nextId := by
    cases step_sends hstep with
    | nothing _ hid => exact hid
    | injected hid _ | forwarded _ hid _ => omega
  refine ⟨Nat.le_trans hle hnext, ?_⟩
  cases step_injects hstep with
  | nothing _ hrequests =>
    rw [hrequests]
    exact hcounted.mono hnext
  | one _ hid hrequests =>
    rw [hrequests, hid]
    exact hcounted.snoc hle (decide_eq_true rfl)

/-- There are none just if no step has sent one. -/
theorem requests_eq_nil_iff {actions : List ProxyAction}
    (h : Run (Proxy.step params) (fun _ _ => True) .init actions s) :
    s.requests = [] ↔ Run (Proxy.step params) (fun s a => s.injects a = false) .init actions s := by
  constructor
  · intro hnil
    induction h with
    | nil => exact .nil
    | snoc _ _ hs ih =>
      cases step_injects hs with
      | nothing hinjects hrequests => exact .snoc (ih (hrequests.symm.trans hnil)) hinjects hs
      | one _ _ hrequests =>
        rw [hrequests] at hnil
        exact absurd hnil (List.append_ne_nil_of_right_ne_nil _ (List.cons_ne_nil _ _))
  · intro hguarded
    refine hguarded.preserves (I := fun s => s.requests = []) ?_ rfl
    intro s a t hs hinjects hstep
    cases step_injects hstep with
    | nothing _ hrequests => exact hrequests.trans hs
    | one hother _ _ =>
      rw [hinjects] at hother
      cases hother

end Proxy

/-! ## The three kinds of connections -/

namespace CdpChannel

variable {channel : CdpChannel}

/-- On a connection without a client, calls with few enough ids are valid. -/
theorem valid_of_counted {first next : Nat} (hcounted : Counted first next channel.requests)
    (hnext : next ≤ 2 ^ 31) (hclient : ∀ id, ¬ channel.ClientId id) : channel.Valid := by
  refine ⟨hcounted.range hnext, hcounted.distinct, fun _ _ _ _ other hother => ?_⟩
  exact absurd hother (hclient other)

/-- An id counted from `EIGER_CDP_ID_START` is none of CDP's, and so no client's. -/
theorem not_isCallId {id : Nat} (h : eigerCdpIdStart ≤ id) : ¬ IsCallId id := by
  rintro ⟨-, hlt⟩
  rw [eigerCdpIdStart] at h
  omega

end CdpChannel

section

variable {params : ProxyParams} {actions : List ProxyAction} {s : Proxy}

/-- On a connection between a client and the browser, each call has its own id, and none is one that
the client may use. -/
theorem proxied_distinct_apart (hrun : Run (Proxy.step params) (fun _ _ => True) .init actions s) :
    (s.requests.Pairwise fun a b => ∀ id, hasId id a = true → hasId id b = false) ∧
      ∀ request ∈ s.requests, ∀ id : Nat, hasId id request = true →
        ∀ other, IsCallId other → other ≠ id := by
  obtain ⟨-, hcounted⟩ := Proxy.counted_of_run hrun
  refine ⟨hcounted.distinct, fun request hrequest id hid other hother => ?_⟩
  obtain ⟨id', hid', hfirst, -⟩ := hcounted.ids request hrequest
  obtain rfl : id = id' := eq_of_hasId hid hid'
  rintro rfl
  exact CdpChannel.not_isCallId hfirst hother

/-- Its calls are valid just if there are none. -/
theorem proxied_valid_iff (hrun : Run (Proxy.step params) (fun _ _ => True) .init actions s) :
    (CdpChannel.proxied params actions s hrun).Valid ↔ s.requests = [] := by
  obtain ⟨hdistinct, hapart⟩ := proxied_distinct_apart hrun
  constructor
  · intro hvalid
    rw [List.eq_nil_iff_forall_not_mem]
    intro request hrequest
    obtain ⟨id, hid, hcall⟩ := hvalid.range request hrequest
    exact hapart request hrequest id hid id hcall rfl
  · intro hnil
    refine ⟨fun request hrequest => ?_, hdistinct, hapart⟩
    change request ∈ s.requests at hrequest
    rw [hnil] at hrequest
    cases hrequest

end

/-- On a connection with fewer than 2^30 commands, the calls that the server emits are valid just if
none of them has been injected by the proxy. -/
theorem commandIds_valid_iff (channel : CdpChannel) (hcommands : channel.commands < 2 ^ 30) :
    channel.Valid ↔ channel.Uninjected := by
  cases channel with
  | endpoint json inbound uses cdp huses =>
    have hcounted := counted_of_uses huses
    refine iff_of_true (CdpChannel.valid_of_counted hcounted ?_ fun _ => id) trivial
    change uses.countP CdpUse.isCommand < 2 ^ 30 at hcommands
    rw [nextId_of_uses huses]
    omega
  | controller json scripts sendError inbound =>
    obtain ⟨done, -, hsent, -⟩ := runStealthController_sent json scripts sendError inbound
    have hcounted := counted_numbered 10000 done
    rw [← hsent] at hcounted
    refine iff_of_true (CdpChannel.valid_of_counted hcounted ?_ fun _ => id) trivial
    change (runStealthController json scripts sendError inbound).1.sent.length < 2 ^ 30 at hcommands
    rw [hsent, numbered, List.length_mapIdx] at hcommands
    omega
  | proxied params actions s hrun =>
    exact (proxied_valid_iff hrun).trans (Proxy.requests_eq_nil_iff hrun)

/-- The steps of a proxy that has a command of the client's to relay. -/
def relayedRun : List ProxyAction :=
  [.client (.message (.text versionText)), .client .go, .client .go]

/-- The theorem at this run: with stealth on, but nothing to inject, the connection is valid. -/
theorem commandIds_valid_relayed :
    ∃ s, ∃ hrun : Run (Proxy.step exampleProxy) (fun _ _ => True) .init relayedRun s,
      s.sent = [.forwarded (.text versionText)] ∧
        (CdpChannel.proxied exampleProxy relayedRun s hrun).Valid := by
  have hrun : Run (Proxy.step exampleProxy) (fun s a => s.injects a = false) .init relayedRun
      (after (Proxy.step exampleProxy) .init relayedRun) := run_after (by decide)
  have hrun' := hrun.mono (Q := fun _ _ => True) fun _ _ _ => trivial
  have hcommands : (after (Proxy.step exampleProxy) .init relayedRun).requests.length < 2 ^ 30 := by
    decide
  refine ⟨_, hrun', by decide, ?_⟩
  exact (commandIds_valid_iff (.proxied exampleProxy relayedRun _ hrun') hcommands).2 hrun

/-- A command that is injected for a target that has attached has an id that is none of CDP's. -/
theorem commandIds_injected :
    ¬ ∀ channel : CdpChannel, channel.commands < 2 ^ 30 → channel.Valid := by
  intro h
  have hrun : Run (Proxy.step exampleProxy) (fun _ _ => True) .init attachedRun
      (after (Proxy.step exampleProxy) .init attachedRun) := run_after (by decide)
  have hone : (after (Proxy.step exampleProxy) .init attachedRun).requests =
      [proxyCdpCommand 9000000000 "S" "Page.enable" (.object [])] := by decide
  have hcommands :
      (after (Proxy.step exampleProxy) .init attachedRun).requests.length < 2 ^ 30 := by
    rw [hone]
    decide
  have hnone := (proxied_valid_iff hrun).1 (h (.proxied exampleProxy attachedRun _ hrun) hcommands)
  rw [hone] at hnone
  cases hnone

end Eiger
