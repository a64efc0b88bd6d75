import Eiger.Browser.Stealth

/-!
# The targets that are there at launch

Before the stealth controller is started, `launch_chrome` puts the scripts into the targets that the
browser has already: `inject_stealth_into_existing_targets` asks it for their list, and for each
page or frame and each script issues three commands, each over a connection of its own. The first
error ends this, and is only logged.

All scripts are in all pages exactly if every command is answered in its time
(`existing_injected_iff`). A launch does not fail for these commands, but it may wait for them for
ever: neither the request for the list nor the handshake of a connection has a timeout, and a launch
hangs exactly if one of them that it comes to does (`launch_hangs_iff`).
-/

namespace Eiger

open Json

/-! ## The commands -/

/-- `TargetDescriptor`. -/
structure TargetDescriptor where
  targetType : String
  webSocketDebuggerUrl : Option String
  deriving DecidableEq, Repr

/-- A command to a target, which is reached at a URL. -/
structure TargetCommand where
  url : String
  method : String
  params : Value
  deriving DecidableEq, Repr

/-- The commands that put a script into the target at a URL. -/
def injectionCommands (url : String) (script : StealthScript) : List TargetCommand :=
  [⟨url, "Page.enable", .object []⟩,
    ⟨url, "Page.addScriptToEvaluateOnNewDocument",
      .object [("runImmediately", .bool true), ("source", .string script.source)]⟩,
    ⟨url, "Runtime.evaluate", .object [("expression", .string script.source)]⟩]

/-- The commands of the loop over the targets: those for each script in each page and frame that is
reached at a URL. -/
def existingCommands (scripts : List StealthScript) (targets : List TargetDescriptor) :
    List TargetCommand :=
  targets.flatMap fun target =>
    if !isPageType (some target.targetType) then []
    else match target.webSocketDebuggerUrl with
      | none => []
      | some url => scripts.flatMap (injectionCommands url)

/-- A command of the loop, by what the endpoint does with its connection. -/
def TargetCommand.issue (json : Codec) (endpoint : Endpoint) (command : TargetCommand) :
    Future (Except BrowserError Value) :=
  cdpCommand json endpoint command.method (.fromSecs 2)

/-- `inject_stealth_into_existing_targets`, by what comes of the request for the targets and what is
done with each of the connections, in their order. -/
def injectStealthIntoExistingTargets (json : Codec) (scripts : List StealthScript)
    (listed : Future (Except String (List TargetDescriptor))) (endpoint : Nat → Endpoint) :
    Future (Except BrowserError Unit) := do
  match ← listed with
  | .error error => return .error (.http error)
  | .ok targets =>
    Future.tryInTurn (fun (command, k) => command.issue json (endpoint k))
      (existingCommands scripts targets).zipIdx

/-- `launch_chrome`, from where the browser is ready: whether the controller is started. The error
of the injection is logged. -/
def finishLaunch (json : Codec) (scripts : List StealthScript) (enabled : Bool)
    (listed : Future (Except String (List TargetDescriptor))) (endpoint : Nat → Endpoint) :
    Future Bool := do
  if enabled then
    let _ ← injectStealthIntoExistingTargets json scripts listed endpoint
    return true
  else
    return false

/-! ## What becomes of them -/

section

variable {json : Codec} {endpoint : Endpoint} {method : String} {wait : Duration}

/-- A command succeeds exactly where the endpoint answers it. -/
theorem cdpCommand_succeeds_iff :
    (cdpCommand json endpoint method wait).Succeeds ↔ endpoint.Answers json wait := by
  rw [Endpoint.Answers, ← awaitResponse_ok, Future.Succeeds]
  unfold cdpCommand
  cases hconnect : endpoint.connect with
  | never => simp
  | ready d connected =>
    cases connected with
    | error error => simp
    | ok u =>
      cases hsend : endpoint.send.2 with
      | error error => simp
      | ok u =>
        cases hwithin : (awaitResponse json endpoint.closed endpoint.incoming).within wait with
        | none => simp [hwithin]
        | some result => cases result <;> simp [hwithin]

/-- A place in a numbered list: it has its number, and the places before it have theirs. -/
theorem zipIdx_split {α : Type} {l : List α} {before after : List (α × Nat)} {a : α} {k : Nat}
    (h : l.zipIdx = before ++ (a, k) :: after) : l[k]? = some a ∧
      ∀ j < k, ∃ b, (b, j) ∈ before := by
  have hat : l.zipIdx[before.length]? = some (a, k) := by
    rw [h, List.getElem?_append_right (Nat.le_refl _), Nat.sub_self, List.getElem?_cons_zero]
  rw [List.getElem?_zipIdx, Nat.zero_add, Option.map_eq_some_iff] at hat
  obtain ⟨b, hb, heq⟩ := hat
  cases heq
  refine ⟨hb, fun j hj => ?_⟩
  have hlt : j < l.length := Nat.lt_trans hj (List.getElem?_eq_some_iff.1 hb).1
  have hbefore : l.zipIdx[j]? = before[j]? := by
    rw [h, List.getElem?_append_left hj]
  rw [List.getElem?_zipIdx, Nat.zero_add, List.getElem?_eq_getElem hlt, Option.map_some] at hbefore
  exact ⟨l[j], List.mem_of_getElem? hbefore.symm⟩

/-- So a place divides it. -/
theorem exists_zipIdx_split {α : Type} {l : List α} {a : α} {k : Nat} (h : l[k]? = some a) :
    ∃ before after, l.zipIdx = before ++ (a, k) :: after ∧ ∀ x ∈ before, x.2 < k := by
  have hmem : (a, k) ∈ l.zipIdx := List.mk_mem_zipIdx_iff_getElem?.2 h
  have hat : l.zipIdx[k]? = some (a, k) := by
    rw [List.getElem?_zipIdx, Nat.zero_add, h, Option.map_some]
  obtain ⟨hlt, hget⟩ := List.getElem?_eq_some_iff.1 hat
  refine ⟨l.zipIdx.take k, l.zipIdx.drop (k + 1), ?_, fun x hx => ?_⟩
  · rw [← hget, ← List.drop_eq_getElem_cons hlt, List.take_append_drop]
  · obtain ⟨j, hj, hxj⟩ := List.mem_iff_getElem.1 hx
    have hjk : j < k := Nat.lt_of_lt_of_le hj (List.length_take_le _ _)
    rw [List.getElem_take, List.getElem_zipIdx] at hxj
    rw [← hxj]
    simpa using hjk

end

section

variable {json : Codec} {scripts : List StealthScript} {targets : List TargetDescriptor}
  {listed : Future (Except String (List TargetDescriptor))} {endpoint : Nat → Endpoint}

/-- A property of all numbered commands that looks at their numbers only. -/
theorem forall_numbered {α : Type} {l : List α} {p : Nat → Prop} :
    (∀ x ∈ l.zipIdx, p x.2) ↔ ∀ k < l.length, p k := by
  constructor
  · intro h k hk
    exact h (l[k], k) (List.mk_mem_zipIdx_iff_getElem?.2 (List.getElem?_eq_getElem hk))
  · intro h x hx
    exact h x.2 (List.getElem?_eq_some_iff.1 (List.mem_zipIdx_iff_getElem?.1 hx)).1

/-- A command succeeds exactly where its endpoint answers. -/
theorem issue_succeeds_iff {command : TargetCommand} {k : Nat} :
    (command.issue json (endpoint k)).Succeeds ↔ (endpoint k).Answers json (.fromSecs 2) :=
  cdpCommand_succeeds_iff

/-- A command that the loop comes to: the endpoints of those before it have answered. -/
theorem reached_iff {commands : List TargetCommand} {p : TargetCommand → Nat → Prop} :
    (∃ before x after, commands.zipIdx = before ++ x :: after ∧
      (∀ y ∈ before, (y.1.issue json (endpoint y.2)).Succeeds) ∧ p x.1 x.2) ↔
      ∃ k command, commands[k]? = some command ∧
        (∀ j < k, (endpoint j).Answers json (.fromSecs 2)) ∧ p command k := by
  constructor
  · rintro ⟨before, ⟨command, k⟩, after, hsplit, hbefore, hp⟩
    obtain ⟨hcommand, hplaces⟩ := zipIdx_split hsplit
    refine ⟨k, command, hcommand, fun j hj => ?_, hp⟩
    obtain ⟨other, hother⟩ := hplaces j hj
    exact issue_succeeds_iff.1 (hbefore _ hother)
  · rintro ⟨k, command, hcommand, hanswers, hp⟩
    obtain ⟨before, after, hsplit, hlt⟩ := exists_zipIdx_split hcommand
    exact ⟨before, (command, k), after, hsplit,
      fun y hy => issue_succeeds_iff.2 (hanswers y.2 (hlt y hy)), hp⟩

/-- What comes of the injection, by what comes of the request for the targets. -/
theorem value_inject :
    (injectStealthIntoExistingTargets json scripts listed endpoint).value =
      listed.value.bind fun
        | .error reason => some (.error (.http reason))
        | .ok targets => (Future.tryInTurn
            (fun x : TargetCommand × Nat => x.1.issue json (endpoint x.2))
            (existingCommands scripts targets).zipIdx).value := by
  rw [injectStealthIntoExistingTargets, Future.value_bind]
  congr 1
  funext result
  cases result <;> rfl

/-- **The scripts are in all pages** exactly if each command is answered in its time; and the
injection ends with an error exactly if the request for the targets does, or a command that it comes
to, after which nothing more is sent. -/
theorem existing_injected_iff (json : Codec) (scripts : List StealthScript)
    (listed : Future (Except String (List TargetDescriptor))) (endpoint : Nat → Endpoint) :
    ((injectStealthIntoExistingTargets json scripts listed endpoint).value = some (.ok ()) ↔
      ∃ targets, listed.value = some (.ok targets) ∧
        ∀ k < (existingCommands scripts targets).length,
          (endpoint k).Answers json (.fromSecs 2)) ∧
    ∀ error,
      (injectStealthIntoExistingTargets json scripts listed endpoint).value = some (.error error) ↔
        (∃ reason, listed.value = some (.error reason) ∧ error = .http reason) ∨
        ∃ targets k command, listed.value = some (.ok targets) ∧
          (existingCommands scripts targets)[k]? = some command ∧
          (∀ j < k, (endpoint j).Answers json (.fromSecs 2)) ∧
          (command.issue json (endpoint k)).value = some (.error error) := by
  rw [value_inject]
  cases listed.value with
  | none => simp
  | some result =>
    cases result with
    | error reason => simp [eq_comm]
    | ok targets =>
      refine ⟨?_, fun error => ?_⟩
      · simp only [Option.bind_some, Future.value_tryInTurn_ok, issue_succeeds_iff,
          Option.some.injEq, Except.ok.injEq, exists_eq_left']
        exact forall_numbered (p := fun k => (endpoint k).Answers json (.fromSecs 2))
      · simp only [Option.bind_some, Future.value_tryInTurn_error, Option.some.injEq,
          Except.ok.injEq, exists_and_left, exists_eq_left', reduceCtorEq, false_and, exists_false,
          false_or]
        exact reached_iff
          (p := fun command k => (command.issue json (endpoint k)).value = some (.error error))

/-- The commands for a page, among targets that have none, with a script. -/
example : existingCommands [⟨"webdriver", "hide()"⟩]
    [⟨"worker", some "ws://127.0.0.1:9222/devtools/page/A"⟩, ⟨"iframe", none⟩,
      ⟨"page", some "ws://127.0.0.1:9222/devtools/page/B"⟩] =
  [⟨"ws://127.0.0.1:9222/devtools/page/B", "Page.enable", .object []⟩,
    ⟨"ws://127.0.0.1:9222/devtools/page/B", "Page.addScriptToEvaluateOnNewDocument",
      .object [("runImmediately", .bool true), ("source", .string "hide()")]⟩,
    ⟨"ws://127.0.0.1:9222/devtools/page/B", "Runtime.evaluate",
      .object [("expression", .string "hide()")]⟩] := by decide

/-- **When a launch hangs.** A launch whose browser is ready never returns exactly if scripts are to
be put into the targets, and the request for these never ends or the handshake of a connection that
it comes to. -/
theorem launch_hangs_iff (json : Codec) (scripts : List StealthScript) (enabled : Bool)
    (listed : Future (Except String (List TargetDescriptor))) (endpoint : Nat → Endpoint) :
    finishLaunch json scripts enabled listed endpoint = .never ↔ enabled = true ∧
      (listed = .never ∨ ∃ targets k, listed.value = some (.ok targets) ∧
        k < (existingCommands scripts targets).length ∧
        (∀ j < k, (endpoint j).Answers json (.fromSecs 2)) ∧ (endpoint k).connect = .never) := by
  cases enabled with
  | false => simp [finishLaunch, ← Future.value_eq_none]
  | true =>
    have hhangs : finishLaunch json scripts true listed endpoint = .never ↔
        (injectStealthIntoExistingTargets json scripts listed endpoint).value = none := by
      rw [← Future.value_eq_none, finishLaunch, if_pos rfl, Future.value_bind]
      cases (injectStealthIntoExistingTargets json scripts listed endpoint).value <;> simp
    rw [hhangs, value_inject, ← Future.value_eq_none]
    cases listed.value with
    | none => simp
    | some result =>
      cases result with
      | error reason => simp
      | ok targets =>
        have hnever : ∀ (command : TargetCommand) (k : Nat),
            command.issue json (endpoint k) = .never ↔ (endpoint k).connect = .never :=
          fun _ _ => cdpCommand_never
        rw [Option.bind_some, Future.value_eq_none, Future.tryInTurn_never,
          reached_iff (p := fun command k => command.issue json (endpoint k) = .never)]
        simp only [hnever, Option.some.injEq, Except.ok.injEq, reduceCtorEq, false_or, true_and]
        constructor
        · rintro ⟨k, command, hcommand, hanswers, hconnect⟩
          exact ⟨targets, k, rfl, (List.getElem?_eq_some_iff.1 hcommand).1, hanswers, hconnect⟩
        · rintro ⟨_, k, rfl, hk, hanswers, hconnect⟩
          exact ⟨k, _, List.getElem?_eq_getElem hk, hanswers, hconnect⟩

end

end Eiger
