import Eiger.Proxy.Model

/-!
# The proxy's steps

What a step of the proxy can do, said once: `Proxy.ClientStep` and `Proxy.UpstreamStep` have one
constructor for each kind of step of a loop, with where the loop is before it.
-/

namespace Eiger

open Json

/-- Where `client_to_upstream` goes with a message it has received. -/
def receivedPc (params : ProxyParams) (message : Message) : ClientPc :=
  match params.stealthEnabled, clientMessageStealthSession params.json message with
  | true, some session => .locking session message
  | _, _ => Proxy.forwardPc message

/-- Where `upstream_to_client` goes with a message it has read. -/
def readPc (params : ProxyParams) (message : UpstreamMessage) : UpstreamPc :=
  match upstreamToAxumMessage params.json params.stealthEnabled message with
  | .drop => .receiving
  | .forward message => .delivering message
  | .inject session message => .locking session message

namespace Proxy

variable {params : ProxyParams} {s t : Proxy}

/-- The steps of `client_to_upstream`. -/
inductive ClientStep (params : ProxyParams) (s : Proxy) : ProxyChoice → Proxy → Prop
  | receives {message : Message} (hpc : s.client = .receiving) :
      ClientStep params s (.message message) { s with
        fromClient := s.fromClient ++ [message], client := receivedPc params message }
  | closes {choice : ProxyChoice} (hpc : s.client = .receiving)
      (hchoice : choice = .closed ∨ choice = .failed) :
      ClientStep params s choice { s with client := .closing }
  | locks {session : String} {message : Message} (hpc : s.client = .locking session message)
      (hlock : s.lock = none) :
      ClientStep params s .go { s with
        lock := some .clientToUpstream
        client := .injecting session (stealthCommands params.scripts) message }
  | injects {session : String} {command : String × Value} {commands : List (String × Value)}
      {message : Message} (hpc : s.client = .injecting session (command :: commands) message) :
      ClientStep params s .go
        { s.inject session command with client := .injecting session commands message }
  | failsInject {session : String} {command : String × Value} {commands : List (String × Value)}
      {message : Message} (hpc : s.client = .injecting session (command :: commands) message) :
      ClientStep params s .failed { s with nextId := s.nextId + 1, ended := true }
  | injected {session : String} {message : Message}
      (hpc : s.client = .injecting session [] message) :
      ClientStep params s .go { s with client := .pausing message }
  | resumes {message : Message} (hpc : s.client = .pausing message) :
      ClientStep params s .go { s with lock := none, client := forwardPc message }
  | takes {message : UpstreamMessage} (hpc : s.client = .waiting message)
      (hlock : s.lock = none) :
      ClientStep params s .go
        { s with lock := some .clientToUpstream, client := .sending message }
  | sends {message : UpstreamMessage} (hpc : s.client = .sending message) :
      ClientStep params s .go
        { s with sent := s.sent ++ [.forwarded message], lock := none, client := .receiving }
  | failsSend {message : UpstreamMessage} (hpc : s.client = .sending message) :
      ClientStep params s .failed { s with ended := true }
  | ends (hpc : s.client = .closing) (hlock : s.lock = none) :
      ClientStep params s .go { s with ended := true }

/-- The steps of `upstream_to_client`. -/
inductive UpstreamStep (params : ProxyParams) (s : Proxy) : ProxyChoice → Proxy → Prop
  | reads {emission : Emission} (hpc : s.upstream = .receiving)
      (hemission : s.emitted[s.read]? = some emission) :
      UpstreamStep params s .go
        { s with read := s.read + 1, upstream := readPc params emission.message }
  | failsRead (hpc : s.upstream = .receiving) :
      UpstreamStep params s .failed { s with ended := true }
  | closes (hpc : s.upstream = .receiving) :
      UpstreamStep params s .closed { s with upstream := .closing }
  | locks {session : String} {message : Message} (hpc : s.upstream = .locking session message)
      (hlock : s.lock = none) :
      UpstreamStep params s .go { s with
        lock := some .upstreamToClient
        upstream := .injecting session (stealthCommands params.scripts) message }
  | injects {session : String} {command : String × Value} {commands : List (String × Value)}
      {message : Message} (hpc : s.upstream = .injecting session (command :: commands) message) :
      UpstreamStep params s .go
        { s.inject session command with upstream := .injecting session commands message }
  | failsInject {session : String} {command : String × Value} {commands : List (String × Value)}
      {message : Message} (hpc : s.upstream = .injecting session (command :: commands) message) :
      UpstreamStep params s .failed { s with nextId := s.nextId + 1, ended := true }
  | injected {session : String} {message : Message}
      (hpc : s.upstream = .injecting session [] message) :
      UpstreamStep params s .go { s with upstream := .pausing message }
  | resumes {message : Message} (hpc : s.upstream = .pausing message) :
      UpstreamStep params s .go { s with lock := none, upstream := .delivering message }
  | delivers {message : Message} (hpc : s.upstream = .delivering message) :
      UpstreamStep params s .go
        { s with delivered := s.delivered ++ [message], upstream := .receiving }
  | loses {message : Message} (hpc : s.upstream = .delivering message) :
      UpstreamStep params s .failed { s with upstream := .closing }
  | ends (hpc : s.upstream = .closing) : UpstreamStep params s .go { s with ended := true }

/-- `client_to_upstream` has no other steps. -/
theorem stepClient_cases {choice : ProxyChoice}
    (h : s.stepClient params s.client choice = some t) : ClientStep params s choice t := by
  cases hpc : s.client with
  | receiving =>
    rw [hpc] at h
    cases choice with
    | go => cases h
    | message message =>
      cases h
      exact .receives hpc
    | closed =>
      cases h
      exact .closes hpc (.inl rfl)
    | failed =>
      cases h
      exact .closes hpc (.inr rfl)
  | locking session message =>
    rw [hpc] at h
    cases choice with
    | go =>
      obtain ⟨hlock, h⟩ := Option.ite_none_right_eq_some.1 h
      cases h
      exact .locks hpc hlock
    | _ => cases h
  | injecting session commands message =>
    rw [hpc] at h
    cases commands with
    | nil =>
      cases choice with
      | go =>
        cases h
        exact .injected hpc
      | _ => cases h
    | cons command commands =>
      cases choice with
      | go =>
        cases h
        exact .injects hpc
      | failed =>
        cases h
        exact .failsInject hpc
      | _ => cases h
  | pausing message =>
    rw [hpc] at h
    cases choice with
    | go =>
      cases h
      exact .resumes hpc
    | _ => cases h
  | waiting message =>
    rw [hpc] at h
    cases choice with
    | go =>
      obtain ⟨hlock, h⟩ := Option.ite_none_right_eq_some.1 h
      cases h
      exact .takes hpc hlock
    | _ => cases h
  | sending message =>
    rw [hpc] at h
    cases choice with
    | go =>
      cases h
      exact .sends hpc
    | failed =>
      cases h
      exact .failsSend hpc
    | _ => cases h
  | closing =>
    rw [hpc] at h
    cases choice with
    | go =>
      obtain ⟨hlock, h⟩ := Option.ite_none_right_eq_some.1 h
      cases h
      exact .ends hpc hlock
    | _ => cases h

/-- `upstream_to_client` has no other steps. -/
theorem stepUpstream_cases {choice : ProxyChoice}
    (h : s.stepUpstream params s.upstream choice = some t) : UpstreamStep params s choice t := by
  cases hpc : s.upstream with
  | receiving =>
    rw [hpc] at h
    cases choice with
    | go =>
      obtain ⟨emission, hemission, he⟩ := Option.bind_eq_some_iff.1 h
      cases he
      exact .reads hpc hemission
    | message => cases h
    | closed =>
      cases h
      exact .closes hpc
    | failed =>
      cases h
      exact .failsRead hpc
  | locking session message =>
    rw [hpc] at h
    cases choice with
    | go =>
      obtain ⟨hlock, h⟩ := Option.ite_none_right_eq_some.1 h
      cases h
      exact .locks hpc hlock
    | _ => cases h
  | injecting session commands message =>
    rw [hpc] at h
    cases commands with
    | nil =>
      cases choice with
      | go =>
        cases h
        exact .injected hpc
      | _ => cases h
    | cons command commands =>
      cases choice with
      | go =>
        cases h
        exact .injects hpc
      | failed =>
        cases h
        exact .failsInject hpc
      | _ => cases h
  | pausing message =>
    rw [hpc] at h
    cases choice with
    | go =>
      cases h
      exact .resumes hpc
    | _ => cases h
  | delivering message =>
    rw [hpc] at h
    cases choice with
    | go =>
      cases h
      exact .delivers hpc
    | failed =>
      cases h
      exact .loses hpc
    | _ => cases h
  | closing =>
    rw [hpc] at h
    cases choice with
    | go =>
      cases h
      exact .ends hpc
    | _ => cases h

/-- A step is one of `client_to_upstream`, of `upstream_to_client` or of the browser's. -/
theorem step_cases {a : ProxyAction} (h : s.step params a = some t) :
    (∃ choice, a = .client choice ∧ s.stepClient params s.client choice = some t) ∨
    (∃ choice, a = .upstream choice ∧ s.stepUpstream params s.upstream choice = some t) ∨
    ∃ emission, a = .emit emission ∧ t = { s with emitted := s.emitted ++ [emission] } := by
  cases a with
  | client choice =>
    rw [step] at h
    split at h
    · cases h
    · exact .inl ⟨choice, rfl, h⟩
  | upstream choice =>
    rw [step] at h
    split at h
    · cases h
    · exact .inr (.inl ⟨choice, rfl, h⟩)
  | emit emission => exact .inr (.inr ⟨emission, rfl, (Option.some.inj h).symm⟩)

/-- So a step is one of these, or the browser emits a message. -/
theorem loop_cases {a : ProxyAction} (h : s.step params a = some t) :
    (∃ choice, ClientStep params s choice t) ∨ (∃ choice, UpstreamStep params s choice t) ∨
      ∃ emission, t = { s with emitted := s.emitted ++ [emission] } := by
  obtain ⟨choice, -, hstep⟩ | ⟨choice, -, hstep⟩ | ⟨emission, -, rfl⟩ := step_cases h
  · exact .inl ⟨choice, stepClient_cases hstep⟩
  · exact .inr (.inl ⟨choice, stepUpstream_cases hstep⟩)
  · exact .inr (.inr ⟨emission, rfl⟩)

end Proxy

end Eiger
