import Eiger.Proxy.Downstream

/-!
# The proxy's way to the browser

What the browser receives through the proxy. Both loops send through one sink, and each holds its
lock while it injects a block of stealth commands (`Proxy.Locked`), so that what was sent is made of
the client's messages and of whole blocks, with at the end the part of a block that is under way
(`Proxy.Whole`). `client_to_upstream` gives the lock up between a block and the message that the
block goes before; only blocks of the other loop can come between the two (`ClientPc.Ready`).

Nothing is asked of the two parties: the results are about every run. The control frames that the
WebSocket library sends on its own, to answer a ping or to close, are not messages of the proxy.
-/

namespace Eiger

open Json Transition

/-! ## Statements about the traffic -/

/-- The message is a command that needs stealth commands before it, to this session. -/
def UpstreamMessage.Navigates (json : Codec) (message : UpstreamMessage) (session : String) :
    Prop :=
  ∃ content value method, message = .text content ∧ json.fromStr content = .ok value ∧
    value.get "method" = some (.string method) ∧
    method ∈ ["Page.navigate", "Page.reload", "Page.printToPDF", "Page.captureScreenshot"] ∧
    value.get "sessionId" = some (.string session)

/-- The message is the event that a page or an iframe has been attached with this session. -/
def Message.Attaches (json : Codec) (message : Message) (session : String) : Prop :=
  ∃ content value params target kind, message = .text content ∧ json.fromStr content = .ok value ∧
    value.get "method" = some (.string "Target.attachedToTarget") ∧
    value.get "params" = some params ∧ params.get "sessionId" = some (.string session) ∧
    params.get "targetInfo" = some target ∧ target.get "type" = some (.string kind) ∧
    kind ∈ ["page", "iframe"]

/-- The client's message that was sent. -/
def Sent.fromClient : Sent → Option UpstreamMessage
  | .forwarded message => some message
  | .injected .. => none

/-- The client's text or binary message that was sent. -/
def Sent.data (sent : Sent) : Option Message := sent.fromClient.bind UpstreamMessage.data

/-- The method and the parameters of a command injected into a session. -/
def Sent.commandTo (session : String) : Sent → Option (String × Value)
  | .forwarded _ => none
  | .injected _ target method params => if target = session then some (method, params) else none

/-- These are injected commands to a session, in order. -/
def Injects (session : String) (commands : List (String × Value)) (sent : List Sent) : Prop :=
  sent.map (Sent.commandTo session) = commands.map some

/-- A block of stealth commands to a session. -/
def IsBlock (scripts : List StealthScript) (session : String) (sent : List Sent) : Prop :=
  Injects session (stealthCommands scripts) sent

/-- A sequence of the client's messages and of whole blocks. -/
inductive Blocks (scripts : List StealthScript) : List Sent → Prop
  | nil : Blocks scripts []
  | message {sent : List Sent} (h : Blocks scripts sent) (message : UpstreamMessage) :
      Blocks scripts (sent ++ [.forwarded message])
  | block {sent block : List Sent} {session : String} (h : Blocks scripts sent)
      (hblock : IsBlock scripts session block) : Blocks scripts (sent ++ block)

/-- A whole block to the session was sent, and no message of the client's since. -/
def BlockSince (scripts : List StealthScript) (session : String) (sent : List Sent) : Prop :=
  ∃ before block since, sent = before ++ block ++ since ∧ IsBlock scripts session block ∧
    ∀ command ∈ since, command.isInjected = true

/-- A whole block to the session was sent. -/
def BlockIn (scripts : List StealthScript) (session : String) (sent : List Sent) : Prop :=
  ∃ block, block <:+: sent ∧ IsBlock scripts session block

theorem Injects.nil (session : String) : Injects session [] [] := rfl

/-- One more command. -/
theorem Injects.snoc {session : String} {commands : List (String × Value)} {sent : List Sent}
    (h : Injects session commands sent) (id : Nat) (command : String × Value) :
    Injects session (commands ++ [command])
      (sent ++ [.injected id session command.1 command.2]) := by
  rw [Injects, List.map_append, List.map_append, h]
  simp [Sent.commandTo]

/-- The block that ends what was sent is in it, with nothing since. -/
theorem blockSince_append {scripts : List StealthScript} {session : String}
    {block : List Sent} (sent : List Sent) (h : IsBlock scripts session block) :
    BlockSince scripts session (sent ++ block) :=
  ⟨sent, block, [], (List.append_nil _).symm, h, nofun⟩

/-- Injected commands do not part a message from its block. -/
theorem BlockSince.snoc {scripts : List StealthScript} {session : String} {sent : List Sent}
    (h : BlockSince scripts session sent) {command : Sent} (hc : command.isInjected = true) :
    BlockSince scripts session (sent ++ [command]) := by
  obtain ⟨before, block, since, rfl, hblock, hsince⟩ := h
  refine ⟨before, block, since ++ [command], by simp, hblock, ?_⟩
  rw [List.forall_mem_append]
  exact ⟨hsince, List.forall_mem_singleton.2 hc⟩

/-- A block that nothing came since is a block that was sent. -/
theorem BlockSince.blockIn {scripts : List StealthScript} {session : String} {sent : List Sent}
    (h : BlockSince scripts session sent) : BlockIn scripts session sent := by
  obtain ⟨before, block, since, rfl, hblock, -⟩ := h
  exact ⟨block, ⟨before, since, rfl⟩, hblock⟩

/-- A block that was sent stays sent. -/
theorem BlockIn.mono {scripts : List StealthScript} {session : String} {sent later : List Sent}
    (h : BlockIn scripts session sent) (hle : sent <+: later) : BlockIn scripts session later := by
  obtain ⟨block, hin, hblock⟩ := h
  exact ⟨block, hin.trans hle.isInfix, hblock⟩

/-! ## What is decided about a message -/

/-- A text that parses has the value it parses to. -/
theorem toOption_eq_some_iff {parsed : Except String Value} {value : Value} :
    parsed.toOption = some value ↔ parsed = .ok value := by
  cases parsed <;> simp [Except.toOption]

/-- `client_message_stealth_session` finds the session of the commands that need a block. -/
theorem clientMessageStealthSession_iff {json : Codec} {message : Message}
    {upstream : UpstreamMessage} (h : axumToUpstreamMessage message = some upstream)
    {session : String} :
    clientMessageStealthSession json message = some session ↔ upstream.Navigates json session := by
  cases message with
  | text content =>
    obtain rfl : UpstreamMessage.text content = upstream := Option.some.inj h
    simp only [clientMessageStealthSession, Option.bind_eq_bind, Option.bind_eq_some_iff]
    constructor
    · rintro ⟨value, hvalue, method, hmethod, hsession⟩
      split at hsession
      · next hmem =>
        exact ⟨content, value, method, rfl, toOption_eq_some_iff.1 hvalue,
          Value.asStr_eq_some_iff.1 (Option.bind_eq_some_iff.2 hmethod), hmem,
          Value.asStr_eq_some_iff.1 hsession⟩
      · cases hsession
    · rintro ⟨_, value, method, hcontent, hvalue, hmethod, hmem, hsession⟩
      cases hcontent
      refine ⟨value, toOption_eq_some_iff.2 hvalue, method,
        Option.bind_eq_some_iff.1 (Value.asStr_eq_some_iff.2 hmethod), ?_⟩
      rw [if_pos hmem]
      exact Value.asStr_eq_some_iff.2 hsession
  | _ =>
    cases h
    exact ⟨nofun, fun ⟨_, _, _, hcontent, _⟩ => nomatch hcontent⟩

/-- `inject_stealth_from_proxy_event` finds the session of the events that need one. -/
theorem proxyEventSession_iff {json : Codec} {content : String} {value : Value}
    (h : json.fromStr content = .ok value) {session : String} :
    proxyEventSession value = some session ↔ (Message.text content).Attaches json session := by
  unfold proxyEventSession
  constructor
  · intro hsession
    split at hsession
    · next hmethod =>
      simp only [Option.bind_eq_bind, Option.bind_eq_some_iff] at hsession
      obtain ⟨params, hparams, id, hid, htype⟩ := hsession
      split at htype
      · next hkind =>
        cases htype
        have htarget : ∃ kind ∈ ["page", "iframe"],
            (((params.get "targetInfo").bind (·.get "type")).bind Value.asStr) = some kind := by
          simpa using hkind
        obtain ⟨kind, hmem, hkind⟩ := htarget
        obtain ⟨target, htarget, hkind⟩ :=
          Option.bind_eq_some_iff.1 (Value.asStr_eq_some_iff.1 hkind)
        exact ⟨content, value, params, target, kind, rfl, h, Value.asStr_eq_some_iff.1 hmethod,
          hparams, Value.asStr_eq_some_iff.1 (Option.bind_eq_some_iff.2 hid), htarget, hkind, hmem⟩
      · cases htype
    · cases hsession
  · rintro ⟨_, _, params, target, kind, hcontent, hvalue, hmethod, hparams, hid, htarget, hkind,
      hmem⟩
    cases hcontent
    cases h.symm.trans hvalue
    rw [if_pos (Value.asStr_eq_some_iff.2 hmethod)]
    simp only [Option.bind_eq_bind, hparams, Option.bind_some, hid, Value.asStr, htarget, hkind]
    rw [if_pos (by simpa using hmem)]

/-- What goes to the client at once is no event that needs a block. -/
theorem upstreamToAxumMessage_forward {json : Codec} {stealthEnabled : Bool}
    {upstream : UpstreamMessage} {message : Message}
    (h : upstreamToAxumMessage json stealthEnabled upstream = .forward message)
    (hon : stealthEnabled = true) (session : String) : ¬ message.Attaches json session := by
  intro hattaches
  unfold upstreamToAxumMessage at h
  split at h
  · next content =>
    split at h
    · next value hvalue =>
      split at h
      · cases h
      · split at h
        · cases h
        · next hnone =>
          cases h
          cases hnone.symm.trans ((proxyEventSession_iff hvalue).2 hattaches)
    · next hvalue =>
      cases h
      obtain ⟨_, _, _, _, _, hcontent, hok, -⟩ := hattaches
      cases hcontent
      cases hvalue.symm.trans hok
  all_goals cases h
  all_goals
    obtain ⟨_, _, _, _, _, hcontent, -⟩ := hattaches
    cases hcontent

/-- What goes to the client after a block is an event of the block's session, if of any. -/
theorem upstreamToAxumMessage_inject {json : Codec} {stealthEnabled : Bool}
    {upstream : UpstreamMessage} {session : String} {message : Message}
    (h : upstreamToAxumMessage json stealthEnabled upstream = .inject session message) :
    stealthEnabled = true ∧ ∀ other, message.Attaches json other → other = session := by
  unfold upstreamToAxumMessage at h
  split at h
  · next content =>
    split at h
    · next value hvalue =>
      split at h
      · cases h
      · split at h
        · next hon =>
          split at h
          · next hsession =>
            cases h
            refine ⟨hon, fun other hattaches => ?_⟩
            exact Option.some.inj (((proxyEventSession_iff hvalue).2 hattaches).symm.trans hsession)
          · cases h
        · cases h
    · cases h
  all_goals cases h

/-! ## The lock -/

/-- The loop holds the lock of the sink. -/
def ClientPc.holds : ClientPc → Bool
  | .injecting .. | .pausing _ | .sending _ => true
  | .receiving | .locking .. | .waiting _ | .closing => false

/-- The loop holds the lock of the sink. -/
def UpstreamPc.holds : UpstreamPc → Bool
  | .injecting .. | .pausing _ => true
  | .receiving | .locking .. | .delivering _ | .closing => false

/-- The session that the loop injects commands into, and the commands that are left. -/
def ClientPc.underWay : ClientPc → Option (String × List (String × Value))
  | .injecting session commands _ => some (session, commands)
  | .receiving | .locking .. | .pausing _ | .waiting _ | .sending _ | .closing => none

/-- The session that the loop injects commands into, and the commands that are left. -/
def UpstreamPc.underWay : UpstreamPc → Option (String × List (String × Value))
  | .injecting session commands _ => some (session, commands)
  | .receiving | .locking .. | .pausing _ | .delivering _ | .closing => none

namespace Proxy

variable {params : ProxyParams} {s t : Proxy}

/-- The lock is held by the loop that it says. -/
structure Locked (s : Proxy) : Prop where
  client : s.client.holds = true ↔ s.lock = some .clientToUpstream
  upstream : s.upstream.holds = true ↔ s.lock = some .upstreamToClient

/-- A loop that goes on to forward a message does not hold it. -/
theorem holds_forwardPc (message : Message) : (forwardPc message).holds = false := by
  rw [forwardPc]
  cases axumToUpstreamMessage message <;> rfl

/-- Nor does one that has just received a message. -/
theorem holds_receivedPc (params : ProxyParams) (message : Message) :
    (receivedPc params message).holds = false := by
  rw [receivedPc]
  split
  · rfl
  · exact holds_forwardPc message

/-- Nor does one that has just read a message. -/
theorem holds_readPc (params : ProxyParams) (message : UpstreamMessage) :
    (readPc params message).holds = false := by
  rw [readPc]
  split <;> rfl

/-- The lock is held by the loop that it says when `client_to_upstream` keeps what it has, takes the
lock while it is free, or gives back its own. -/
theorem Locked.of_client (hl : s.Locked) (hupstream : t.upstream = s.upstream)
    (h : t.client.holds = s.client.holds ∧ t.lock = s.lock ∨
      s.lock = none ∧ t.client.holds = true ∧ t.lock = some .clientToUpstream ∨
      s.client.holds = true ∧ t.client.holds = false ∧ t.lock = none) : t.Locked := by
  obtain ⟨hclient, hother⟩ := hl
  rw [← hupstream] at hother
  obtain ⟨hholds, hlock⟩ | ⟨hfree, hholds, hlock⟩ | ⟨hheld, hholds, hlock⟩ := h
  · exact ⟨by rw [hholds, hlock, hclient], by rw [hlock, hother]⟩
  · rw [hfree] at hother
    exact ⟨by rw [hholds, hlock]; simp, by rw [hother, hlock]; simp⟩
  · rw [hclient.1 hheld] at hother
    exact ⟨by rw [hholds, hlock]; simp, by rw [hother, hlock]; simp⟩

/-- It is held so when `upstream_to_client` keeps what it has, takes the lock while it is free, or
gives back its own. -/
theorem Locked.of_upstream (hl : s.Locked) (hclient : t.client = s.client)
    (h : t.upstream.holds = s.upstream.holds ∧ t.lock = s.lock ∨
      s.lock = none ∧ t.upstream.holds = true ∧ t.lock = some .upstreamToClient ∨
      s.upstream.holds = true ∧ t.upstream.holds = false ∧ t.lock = none) : t.Locked := by
  obtain ⟨hother, hupstream⟩ := hl
  rw [← hclient] at hother
  obtain ⟨hholds, hlock⟩ | ⟨hfree, hholds, hlock⟩ | ⟨hheld, hholds, hlock⟩ := h
  · exact ⟨by rw [hlock, hother], by rw [hholds, hlock, hupstream]⟩
  · rw [hfree] at hother
    exact ⟨by rw [hother, hlock]; simp, by rw [hholds, hlock]; simp⟩
  · rw [hupstream.1 hheld] at hother
    exact ⟨by rw [hother, hlock]; simp, by rw [hholds, hlock]; simp⟩

/-- A step of `client_to_upstream` keeps the lock right. -/
theorem Locked.client_step {choice : ProxyChoice} (hl : s.Locked)
    (h : ClientStep params s choice t) : t.Locked := by
  cases h with
  | receives hpc => exact hl.of_client rfl (.inl ⟨by rw [hpc]; exact holds_receivedPc _ _, rfl⟩)
  | closes hpc => exact hl.of_client rfl (.inl ⟨by rw [hpc]; rfl, rfl⟩)
  | locks _ hlock => exact hl.of_client rfl (.inr (.inl ⟨hlock, rfl, rfl⟩))
  | injects hpc => exact hl.of_client rfl (.inl ⟨by rw [hpc]; rfl, rfl⟩)
  | injected hpc => exact hl.of_client rfl (.inl ⟨by rw [hpc]; rfl, rfl⟩)
  | resumes hpc =>
    exact hl.of_client rfl (.inr (.inr ⟨by rw [hpc]; rfl, holds_forwardPc _, rfl⟩))
  | takes _ hlock => exact hl.of_client rfl (.inr (.inl ⟨hlock, rfl, rfl⟩))
  | sends hpc => exact hl.of_client rfl (.inr (.inr ⟨by rw [hpc]; rfl, rfl, rfl⟩))
  | failsInject | failsSend | ends => exact ⟨hl.client, hl.upstream⟩

/-- A step of `upstream_to_client` keeps the lock right. -/
theorem Locked.upstream_step {choice : ProxyChoice} (hl : s.Locked)
    (h : UpstreamStep params s choice t) : t.Locked := by
  cases h with
  | reads hpc _ => exact hl.of_upstream rfl (.inl ⟨by rw [hpc]; exact holds_readPc _ _, rfl⟩)
  | closes hpc => exact hl.of_upstream rfl (.inl ⟨by rw [hpc]; rfl, rfl⟩)
  | loses hpc => exact hl.of_upstream rfl (.inl ⟨by rw [hpc]; rfl, rfl⟩)
  | locks _ hlock => exact hl.of_upstream rfl (.inr (.inl ⟨hlock, rfl, rfl⟩))
  | injects hpc => exact hl.of_upstream rfl (.inl ⟨by rw [hpc]; rfl, rfl⟩)
  | injected hpc => exact hl.of_upstream rfl (.inl ⟨by rw [hpc]; rfl, rfl⟩)
  | resumes hpc => exact hl.of_upstream rfl (.inr (.inr ⟨by rw [hpc]; rfl, rfl, rfl⟩))
  | delivers hpc => exact hl.of_upstream rfl (.inl ⟨by rw [hpc]; rfl, rfl⟩)
  | failsRead | failsInject | ends => exact ⟨hl.client, hl.upstream⟩

/-- The lock is held by the loop that it says, after every run. -/
theorem locked_of_run {as : List ProxyAction}
    (h : Run (Proxy.step params) (fun _ _ => True) .init as s) : s.Locked := by
  refine h.preserves (fun s a t hs _ hstep => ?_) ⟨⟨nofun, nofun⟩, ⟨nofun, nofun⟩⟩
  obtain ⟨_, hclient⟩ | ⟨_, hupstream⟩ | ⟨emission, rfl⟩ := loop_cases hstep
  · exact hs.client_step hclient
  · exact hs.upstream_step hupstream
  · exact ⟨hs.client, hs.upstream⟩

/-- The session that commands are being injected into, and the commands that are left. -/
def underWay (s : Proxy) : Option (String × List (String × Value)) :=
  match s.lock with
  | some .clientToUpstream => s.client.underWay
  | some .upstreamToClient => s.upstream.underWay
  | none => none

end Proxy

/-! ## The blocks -/

/-- What was sent is made of the client's messages and of whole blocks, with at its end the part of
the block that is under way. -/
def Whole (scripts : List StealthScript) (underWay : Option (String × List (String × Value)))
    (sent : List Sent) : Prop :=
  ∃ whole cut, sent = whole ++ cut ∧ Blocks scripts whole ∧
    match underWay with
    | none => cut = []
    | some (session, commands) => ∃ sofar,
        sofar ++ commands = stealthCommands scripts ∧ Injects session sofar cut

section

variable {scripts : List StealthScript} {session : String} {sent : List Sent}

/-- A block begins with all its commands left. -/
theorem Whole.begin (h : Whole scripts none sent) (session : String) :
    Whole scripts (some (session, stealthCommands scripts)) sent := by
  obtain ⟨whole, cut, rfl, hwhole, rfl⟩ := h
  exact ⟨whole, [], rfl, hwhole, [], rfl, .nil session⟩

/-- A block goes on with the next command. -/
theorem Whole.inject {command : String × Value} {commands : List (String × Value)}
    (h : Whole scripts (some (session, command :: commands)) sent) (id : Nat) :
    Whole scripts (some (session, commands))
      (sent ++ [.injected id session command.1 command.2]) := by
  obtain ⟨whole, cut, rfl, hwhole, sofar, hsofar, hcut⟩ := h
  refine ⟨whole, cut ++ [_], List.append_assoc .., hwhole, sofar ++ [command], ?_,
    hcut.snoc id command⟩
  rw [List.append_assoc, List.singleton_append, hsofar]

/-- A block with no commands left is whole, and nothing was sent since. -/
theorem Whole.finish (h : Whole scripts (some (session, [])) sent) :
    Whole scripts none sent ∧ BlockSince scripts session sent := by
  obtain ⟨whole, cut, rfl, hwhole, sofar, hsofar, hcut⟩ := h
  rw [List.append_nil] at hsofar
  subst hsofar
  exact ⟨⟨whole ++ cut, [], (List.append_nil _).symm, hwhole.block hcut, rfl⟩,
    blockSince_append whole hcut⟩

/-- Between blocks a message of the client's may be sent. -/
theorem Whole.message (h : Whole scripts none sent) (message : UpstreamMessage) :
    Whole scripts none (sent ++ [.forwarded message]) := by
  obtain ⟨whole, cut, rfl, hwhole, rfl⟩ := h
  rw [List.append_nil]
  exact ⟨whole ++ [_], [], (List.append_nil _).symm, hwhole.message message, rfl⟩

end

/-- Where a loop is about to send a message that needs a block, the block is being sent or was sent
since the client's previous message. -/
def ClientPc.Ready (params : ProxyParams) (sent : List Sent) : ClientPc → Prop
  | .locking session message | .injecting session _ message =>
    params.stealthEnabled = true ∧
      clientMessageStealthSession params.json message = some session
  | .pausing message =>
    params.stealthEnabled = true ∧ ∀ session,
      clientMessageStealthSession params.json message = some session →
        BlockSince params.scripts session sent
  | .waiting message | .sending message =>
    params.stealthEnabled = true → ∀ session, message.Navigates params.json session →
      BlockSince params.scripts session sent
  | .receiving | .closing => True

/-- Where a loop is about to deliver an event that needs a block, the block is being sent or was
sent. -/
def UpstreamPc.Ready (params : ProxyParams) (sent : List Sent) : UpstreamPc → Prop
  | .locking session message | .injecting session _ message =>
    params.stealthEnabled = true ∧ ∀ other, message.Attaches params.json other → other = session
  | .pausing message =>
    params.stealthEnabled = true ∧ ∀ session, message.Attaches params.json session →
      BlockIn params.scripts session sent
  | .delivering message =>
    params.stealthEnabled = true → ∀ session, message.Attaches params.json session →
      BlockIn params.scripts session sent
  | .receiving | .closing => True

section

variable {params : ProxyParams} {sent : List Sent}

/-- The loop stays ready when the other one injects a command. -/
theorem ClientPc.Ready.snoc {pc : ClientPc} (h : pc.Ready params sent) {command : Sent}
    (hc : command.isInjected = true) : pc.Ready params (sent ++ [command]) := by
  cases pc with
  | pausing message => exact ⟨h.1, fun session hsession => (h.2 session hsession).snoc hc⟩
  | waiting message => exact fun hon session hsession => (h hon session hsession).snoc hc
  | sending message => exact fun hon session hsession => (h hon session hsession).snoc hc
  | _ => exact h

/-- The loop stays ready when more is sent. -/
theorem UpstreamPc.Ready.mono {pc : UpstreamPc} {later : List Sent} (h : pc.Ready params sent)
    (hle : sent <+: later) : pc.Ready params later := by
  cases pc with
  | pausing message => exact ⟨h.1, fun session hsession => (h.2 session hsession).mono hle⟩
  | delivering message => exact fun hon session hsession => (h hon session hsession).mono hle
  | _ => exact h

/-- The loop is ready to forward a message once the block that it needs was sent. -/
theorem ready_forwardPc {message : Message}
    (h : params.stealthEnabled = true → ∀ session,
      clientMessageStealthSession params.json message = some session →
        BlockSince params.scripts session sent) :
    (Proxy.forwardPc message).Ready params sent := by
  rw [Proxy.forwardPc]
  split
  · next upstream hupstream =>
    intro hon session hsession
    exact h hon session ((clientMessageStealthSession_iff hupstream).2 hsession)
  · trivial

/-- The loop is ready once it has received a message. -/
theorem ready_receivedPc (message : Message) : (receivedPc params message).Ready params sent := by
  rw [receivedPc]
  split
  · next session hon hsession => exact ⟨hon, hsession⟩
  · next hnone => exact ready_forwardPc fun hon session hsession =>
      (hnone session hon hsession).elim

/-- The loop is ready once it has read a message. -/
theorem ready_readPc (message : UpstreamMessage) : (readPc params message).Ready params sent := by
  rw [readPc]
  split
  · trivial
  · next delivered hverdict =>
    intro hon session hattaches
    exact (upstreamToAxumMessage_forward hverdict hon session hattaches).elim
  · next session delivered hverdict => exact upstreamToAxumMessage_inject hverdict

end

namespace Proxy

variable {params : ProxyParams} {s t : Proxy}

/-- What was sent is in order, and both loops are ready for what they are about to do. -/
structure Orderly (params : ProxyParams) (s : Proxy) : Prop where
  whole : Whole params.scripts s.underWay s.sent
  client : s.client.Ready params s.sent
  upstream : s.upstream.Ready params s.sent

/-- A loop that goes on to forward a message injects nothing. -/
theorem underWay_forwardPc (message : Message) : (forwardPc message).underWay = none := by
  rw [forwardPc]
  cases axumToUpstreamMessage message <;> rfl

/-- Nor does one that has just received a message. -/
theorem underWay_receivedPc (params : ProxyParams) (message : Message) :
    (receivedPc params message).underWay = none := by
  rw [receivedPc]
  split
  · rfl
  · exact underWay_forwardPc message

/-- Nor does one that has just read a message. -/
theorem underWay_readPc (params : ProxyParams) (message : UpstreamMessage) :
    (readPc params message).underWay = none := by
  rw [readPc]
  split <;> rfl

/-- What was sent stays in order where nothing is sent and neither loop begins or ends a block. -/
theorem whole_congr (h : Whole params.scripts s.underWay s.sent) (hsent : t.sent = s.sent)
    (hlock : t.lock = s.lock) (hclient : t.client.underWay = s.client.underWay)
    (hupstream : t.upstream.underWay = s.upstream.underWay) :
    Whole params.scripts t.underWay t.sent := by
  rw [underWay] at h
  rw [underWay, hsent, hlock, hclient, hupstream]
  exact h

/-- A step of `client_to_upstream` keeps what was sent in order. -/
theorem Orderly.client_step {choice : ProxyChoice} (ho : s.Orderly params) (hl : s.Locked)
    (h : ClientStep params s choice t) : t.Orderly params := by
  obtain ⟨hwhole, hclient, hupstream⟩ := ho
  cases h with
  | @receives message hpc =>
    have hnone := underWay_receivedPc params message
    exact ⟨whole_congr hwhole rfl rfl (by rw [hpc]; exact hnone) rfl, ready_receivedPc _, hupstream⟩
  | closes hpc => exact ⟨whole_congr hwhole rfl rfl (by rw [hpc]; rfl) rfl, trivial, hupstream⟩
  | locks hpc hlock =>
    rw [hpc] at hclient
    rw [underWay, hlock] at hwhole
    exact ⟨hwhole.begin _, hclient, hupstream⟩
  | injects hpc =>
    have hlock := hl.client.1 (by rw [hpc]; rfl)
    rw [hpc] at hclient
    rw [underWay, hlock, hpc] at hwhole
    refine ⟨?_, hclient, hupstream.mono (List.prefix_append _ _)⟩
    simp only [underWay, inject, hlock]
    exact hwhole.inject _
  | injected hpc =>
    have hlock := hl.client.1 (by rw [hpc]; rfl)
    rw [hpc] at hclient
    rw [underWay, hlock, hpc] at hwhole
    obtain ⟨hwhole, hblock⟩ := hwhole.finish
    refine ⟨?_, ⟨hclient.1, fun session hsession => ?_⟩, hupstream⟩
    · simp only [underWay, hlock]
      exact hwhole
    · cases hclient.2.symm.trans hsession
      exact hblock
  | resumes hpc =>
    have hlock := hl.client.1 (by rw [hpc]; rfl)
    rw [hpc] at hclient
    rw [underWay, hlock, hpc] at hwhole
    exact ⟨hwhole, ready_forwardPc fun _ => hclient.2, hupstream⟩
  | takes hpc hlock =>
    rw [hpc] at hclient
    rw [underWay, hlock] at hwhole
    exact ⟨hwhole, hclient, hupstream⟩
  | sends hpc =>
    have hlock := hl.client.1 (by rw [hpc]; rfl)
    rw [underWay, hlock, hpc] at hwhole
    exact ⟨hwhole.message _, trivial, hupstream.mono (List.prefix_append _ _)⟩
  | failsInject | failsSend | ends => exact ⟨hwhole, hclient, hupstream⟩

/-- A step of `upstream_to_client` keeps what was sent in order. -/
theorem Orderly.upstream_step {choice : ProxyChoice} (ho : s.Orderly params) (hl : s.Locked)
    (h : UpstreamStep params s choice t) : t.Orderly params := by
  obtain ⟨hwhole, hclient, hupstream⟩ := ho
  cases h with
  | @reads emission hpc _ =>
    have hnone := underWay_readPc params emission.message
    exact ⟨whole_congr hwhole rfl rfl rfl (by rw [hpc]; exact hnone), hclient, ready_readPc _⟩
  | closes hpc => exact ⟨whole_congr hwhole rfl rfl rfl (by rw [hpc]; rfl), hclient, trivial⟩
  | loses hpc => exact ⟨whole_congr hwhole rfl rfl rfl (by rw [hpc]; rfl), hclient, trivial⟩
  | locks hpc hlock =>
    rw [hpc] at hupstream
    rw [underWay, hlock] at hwhole
    exact ⟨hwhole.begin _, hclient, hupstream⟩
  | injects hpc =>
    have hlock := hl.upstream.1 (by rw [hpc]; rfl)
    rw [hpc] at hupstream
    rw [underWay, hlock, hpc] at hwhole
    refine ⟨?_, hclient.snoc rfl, hupstream⟩
    simp only [underWay, inject, hlock]
    exact hwhole.inject _
  | injected hpc =>
    have hlock := hl.upstream.1 (by rw [hpc]; rfl)
    rw [hpc] at hupstream
    rw [underWay, hlock, hpc] at hwhole
    obtain ⟨hwhole, hblock⟩ := hwhole.finish
    refine ⟨?_, hclient, ⟨hupstream.1, fun session hattaches => ?_⟩⟩
    · simp only [underWay, hlock]
      exact hwhole
    · rw [hupstream.2 session hattaches]
      exact hblock.blockIn
  | resumes hpc =>
    have hlock := hl.upstream.1 (by rw [hpc]; rfl)
    rw [hpc] at hupstream
    rw [underWay, hlock, hpc] at hwhole
    exact ⟨hwhole, hclient, fun _ => hupstream.2⟩
  | delivers hpc =>
    exact ⟨whole_congr hwhole rfl rfl rfl (by rw [hpc]; rfl), hclient, trivial⟩
  | failsRead | failsInject | ends => exact ⟨hwhole, hclient, hupstream⟩

/-- What was sent is in order after every run. -/
theorem orderly_of_run {as : List ProxyAction}
    (h : Run (Proxy.step params) (fun _ _ => True) .init as s) : s.Orderly params := by
  refine h.preserves_of (J := Locked) (fun _ _ => locked_of_run)
    (fun s a t hl _ ho _ hstep => ?_) ⟨⟨[], [], rfl, .nil, rfl⟩, trivial, trivial⟩
  obtain ⟨_, hclient⟩ | ⟨_, hupstream⟩ | ⟨emission, rfl⟩ := loop_cases hstep
  · exact ho.client_step hl hclient
  · exact ho.upstream_step hl hupstream
  · exact ⟨ho.whole, ho.client, ho.upstream⟩

/-! ## What was sent and delivered -/

/-- With stealth on, each message that was sent and each event that was delivered had the block that
it needs before it; with stealth off, no block was sent. -/
structure Covered (params : ProxyParams) (s : Proxy) : Prop where
  sent : params.stealthEnabled = true → ∀ before message session,
    before ++ [.forwarded message] <+: s.sent → message.Navigates params.json session →
      BlockSince params.scripts session before
  delivered : params.stealthEnabled = true → ∀ message ∈ s.delivered, ∀ session,
    message.Attaches params.json session → BlockIn params.scripts session s.sent
  off : params.stealthEnabled = false → ∀ command ∈ s.sent, command.isInjected = false

/-- It stays so when a command is injected, which is with stealth on. -/
theorem Covered.inject (hc : s.Covered params) (hon : params.stealthEnabled = true)
    (session : String) (command : String × Value) : (s.inject session command).Covered params := by
  refine ⟨fun hon before message other hle hneeds => ?_, fun hon message hmem other hneeds => ?_,
    fun hoff => nomatch hon.symm.trans hoff⟩
  · obtain heq | hle := List.prefix_concat_iff.1 hle
    · simp at heq
    · exact hc.sent hon before message other hle hneeds
  · exact (hc.delivered hon message hmem other hneeds).mono (List.prefix_append _ _)

/-- It stays so in a step. -/
theorem Covered.step {a : ProxyAction} (hc : s.Covered params) (ho : s.Orderly params)
    (h : s.step params a = some t) : t.Covered params := by
  have hclient := ho.client
  have hupstream := ho.upstream
  obtain ⟨_, hstep⟩ | ⟨_, hstep⟩ | ⟨emission, rfl⟩ := loop_cases h
  · cases hstep with
    | injects hpc =>
      rw [hpc] at hclient
      exact ⟨(hc.inject hclient.1 _ _).sent, (hc.inject hclient.1 _ _).delivered,
        (hc.inject hclient.1 _ _).off⟩
    | sends hpc =>
      rw [hpc] at hclient
      refine ⟨fun hon before message other hle hneeds => ?_,
        fun hon message hmem other hneeds => ?_, fun hoff => ?_⟩
      · obtain heq | hle := List.prefix_concat_iff.1 hle
        · obtain ⟨rfl, hlast⟩ := List.append_inj' heq rfl
          cases hlast
          exact hclient hon other hneeds
        · exact hc.sent hon before message other hle hneeds
      · exact (hc.delivered hon message hmem other hneeds).mono (List.prefix_append _ _)
      · rw [List.forall_mem_append]
        exact ⟨hc.off hoff, List.forall_mem_singleton.2 rfl⟩
    | _ => exact ⟨hc.sent, hc.delivered, hc.off⟩
  · cases hstep with
    | injects hpc =>
      rw [hpc] at hupstream
      exact ⟨(hc.inject hupstream.1 _ _).sent, (hc.inject hupstream.1 _ _).delivered,
        (hc.inject hupstream.1 _ _).off⟩
    | delivers hpc =>
      rw [hpc] at hupstream
      refine ⟨hc.sent, fun hon => ?_, hc.off⟩
      rw [List.forall_mem_append]
      exact ⟨hc.delivered hon, List.forall_mem_singleton.2 (hupstream hon)⟩
    | _ => exact ⟨hc.sent, hc.delivered, hc.off⟩
  · exact ⟨hc.sent, hc.delivered, hc.off⟩

/-- It is so after every run. -/
theorem covered_of_run {as : List ProxyAction}
    (h : Run (Proxy.step params) (fun _ _ => True) .init as s) : s.Covered params := by
  refine h.preserves_of (J := Orderly params) (fun _ _ => orderly_of_run)
    (fun s a t ho _ hc _ hstep => hc.step ho hstep) ⟨fun _ before message _ hle => ?_, ?_, ?_⟩
  · simp [init] at hle
  · exact fun _ _ hmem => nomatch hmem
  · exact fun _ _ hmem => nomatch hmem

/-! ## The client's messages -/

/-- The client's messages are sent in order, each once, but for the one that is in hand. -/
def InOrder (s : Proxy) : Prop :=
  s.sent.filterMap Sent.fromClient ++ s.client.pending.toList =
    s.fromClient.filterMap axumToUpstreamMessage

/-- An injected command is none of them. -/
theorem fromClient_inject (s : Proxy) (session : String) (command : String × Value) :
    (s.inject session command).sent.filterMap Sent.fromClient =
      s.sent.filterMap Sent.fromClient := by
  simp [inject, List.filterMap_cons, Sent.fromClient]

/-- A step of `client_to_upstream` keeps them in order. -/
theorem InOrder.client_step {choice : ProxyChoice} (hi : s.InOrder)
    (h : ClientStep params s choice t) : t.InOrder := by
  rw [InOrder] at hi
  cases h with
  | @receives message hpc =>
    rw [hpc] at hi
    rw [InOrder, List.filterMap_append, ← hi, pending_receivedPc, List.filterMap_cons]
    cases axumToUpstreamMessage message <;> simp [ClientPc.pending]
  | resumes hpc =>
    rw [hpc] at hi
    rw [InOrder, pending_forwardPc]
    exact hi
  | injects hpc =>
    rw [hpc] at hi
    rw [InOrder, fromClient_inject]
    exact hi
  | sends hpc =>
    rw [hpc] at hi
    rw [InOrder, List.filterMap_append, ← hi, List.append_assoc]
    rfl
  | failsInject | failsSend | ends => exact hi
  | _ hpc =>
    rw [hpc] at hi
    exact hi

/-- They are in order after every run. -/
theorem inOrder_of_run {as : List ProxyAction}
    (h : Run (Proxy.step params) (fun _ _ => True) .init as s) : s.InOrder := by
  refine h.preserves (fun s a t hi _ hstep => ?_) rfl
  obtain ⟨_, hclient⟩ | ⟨_, hupstream⟩ | ⟨emission, rfl⟩ := loop_cases hstep
  · exact hi.client_step hclient
  · cases hupstream with
    | injects hpc =>
      rw [InOrder, fromClient_inject]
      exact hi
    | _ => exact hi
  · exact hi

/-- A message that is sent is a text or binary message as the client's was. -/
theorem axumToUpstreamMessage_data (message : Message) :
    (axumToUpstreamMessage message).bind UpstreamMessage.data =
      if message.isData then some message else none := by
  cases message <;> rfl

/-- The client's text and binary messages are sent in order, each once, but for one in hand. -/
theorem InOrder.data (hi : s.InOrder) :
    s.sent.filterMap Sent.data ++ (s.client.pending.bind UpstreamMessage.data).toList =
      s.fromClient.filter Message.isData := by
  have hdata : s.fromClient.filter Message.isData =
      (s.fromClient.filterMap axumToUpstreamMessage).filterMap UpstreamMessage.data := by
    rw [List.filterMap_filterMap, ← List.filterMap_eq_filter]
    refine List.filterMap_congr fun message _ => ?_
    rw [axumToUpstreamMessage_data, Option.guard]
  rw [hdata, ← hi, List.filterMap_append, List.filterMap_filterMap]
  congr 1
  cases hpending : s.client.pending with
  | none => rfl
  | some message =>
    rw [Option.bind_some, Option.toList_some, List.filterMap_cons, List.filterMap_nil]
    cases message.data <;> rfl

end Proxy

/-- **What is sent to the browser.** After every run of the proxy, the client's text and binary
messages sent are, in order and each once, a prefix of those that the client sent, and are all of
them where `client_to_upstream` has none in hand. They and whole blocks of stealth commands make up
what was sent, but for the part of a block under way. With stealth on, each command of the client's
that needs a block has a whole one before it with no message of the client's between, and each event
that needs one was delivered after a whole one was sent; with stealth off, only the client's
messages are sent. -/
theorem upstream_disciplined (params : ProxyParams) {as : List ProxyAction} {s : Proxy}
    (h : Run (Proxy.step params) (fun _ _ => True) .init as s) :
    (s.sent.filterMap Sent.data <+: s.fromClient.filter Message.isData ∧
      (s.client.pending = none →
        s.sent.filterMap Sent.data = s.fromClient.filter Message.isData)) ∧
    Whole params.scripts s.underWay s.sent ∧
    (params.stealthEnabled = true →
      (∀ before message session, before ++ [.forwarded message] <+: s.sent →
        message.Navigates params.json session → BlockSince params.scripts session before) ∧
      (∀ message ∈ s.delivered, ∀ session, message.Attaches params.json session →
        BlockIn params.scripts session s.sent)) ∧
    (params.stealthEnabled = false → ∀ command ∈ s.sent, command.isInjected = false) := by
  have hdata := (Proxy.inOrder_of_run h).data
  have hcovered := Proxy.covered_of_run h
  refine ⟨⟨⟨_, hdata⟩, fun hpending => ?_⟩, (Proxy.orderly_of_run h).whole,
    fun hon => ⟨hcovered.sent hon, hcovered.delivered hon⟩, hcovered.off⟩
  rw [← hdata, hpending]
  exact (List.append_nil _).symm

/-- The messages of a block with one script. -/
example : (stealthCommands [⟨"webdriver", "hide()"⟩]).mapIdx (fun k command =>
    proxyCdpCommand (9000000000 + k) "S" command.1 command.2) =
  [.object [("id", .number (.posInt 9000000000)), ("method", .string "Page.enable"),
      ("params", .object []), ("sessionId", .string "S")],
    .object [("id", .number (.posInt 9000000001)),
      ("method", .string "Page.addScriptToEvaluateOnNewDocument"),
      ("params", .object [("runImmediately", .bool true), ("source", .string "hide()")]),
      ("sessionId", .string "S")],
    .object [("id", .number (.posInt 9000000002)), ("method", .string "Runtime.evaluate"),
      ("params", .object [("expression", .string "hide()")]), ("sessionId", .string "S")]] := by
  decide

/-- A command of the client's that needs a block. -/
def navigateText : String := "\x7b\"id\":2,\"method\":\"Page.navigate\",\"sessionId\":\"S\"\x7d"

/-- Its value. -/
def navigateValue : Value :=
  .object [("id", .number (.posInt 2)), ("method", .string "Page.navigate"),
    ("sessionId", .string "S")]

/-- The value of the event. -/
def attachedValue : Value :=
  .object [("method", .string "Target.attachedToTarget"),
    ("params", .object [("sessionId", .string "S"),
      ("targetInfo", .object [("type", .string "page")])])]

/-- A proxy with stealth on and a script. -/
def navigateProxy : ProxyParams :=
  { json := { exampleCodec with
      fromStr := fun text =>
        if text = navigateText then .ok navigateValue else exampleCodec.fromStr text }
    scripts := [⟨"webdriver", "delete navigator.webdriver"⟩]
    stealthEnabled := true }

/-- The client navigates while a target attaches: the block for the event comes between the
client's block and its command. -/
def navigateRun : List ProxyAction :=
  [.emit ⟨.text attachedText, .event⟩, .upstream .go, .client (.message (.text navigateText))] ++
    List.replicate 6 (.client .go) ++ List.replicate 7 (.upstream .go) ++
    List.replicate 2 (.client .go)

/-- The theorem at this run: the event and the command each had a block. -/
theorem upstream_disciplined_navigate :
    let s := after (Proxy.step navigateProxy) .init navigateRun
    s.sent.length = 7 ∧ s.sent.filterMap Sent.data = [.text navigateText] ∧
      s.underWay = none ∧ Whole navigateProxy.scripts s.underWay s.sent ∧
      BlockSince navigateProxy.scripts "S" (s.sent.take 6) ∧
      s.delivered = [.text attachedText] ∧ BlockIn navigateProxy.scripts "S" s.sent := by
  have hrun : Run (Proxy.step navigateProxy) (fun _ _ => True) .init navigateRun
      (after (Proxy.step navigateProxy) .init navigateRun) := run_after (by decide)
  obtain ⟨⟨-, hdata⟩, hwhole, hon, -⟩ := upstream_disciplined navigateProxy hrun
  obtain ⟨hsent, hdelivered⟩ := hon rfl
  have hnavigates : (UpstreamMessage.text navigateText).Navigates navigateProxy.json "S" :=
    ⟨_, navigateValue, "Page.navigate", rfl, by decide, rfl, by decide, rfl⟩
  have hattaches : (Message.text attachedText).Attaches navigateProxy.json "S" :=
    ⟨_, attachedValue, _, _, "page", rfl, by decide, rfl, rfl, rfl, rfl, rfl, by decide⟩
  exact ⟨by decide, (hdata (by decide)).trans (by decide), by decide, hwhole,
    hsent _ _ "S" (by decide) hnavigates, by decide, hdelivered _ (by decide) "S" hattaches⟩

end Eiger
