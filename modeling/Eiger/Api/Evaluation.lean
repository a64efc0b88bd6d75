import Eiger.Api.Scripts
import Eiger.Lib.Literal

/-!
# What is evaluated in pages

The page operations evaluate two expressions in a page: the one that `scrape_with_session` reads the
page by, which is fixed, and the one that `resolve_selector_clip` asks for the region of a selector,
with the selector in it as JSON writes it. The selector comes from the request, and it remains a
string: JavaScript reads the whole selector, and nothing else, from the literal, and goes on with
the text that the source has there (`evaluated_contained`).
-/

namespace Eiger

open Json Text Dialogue

/-! ## The expression of a selector -/

/-- The text of the expression before the selector. -/
def selectorOpening : String := "(() => \x7b const el = document.querySelector("

/-- The text of the expression after the selector. -/
def selectorClosing : String :=
  "); " ++ ("if (!el) return null; const r = el.getBoundingClientRect(); " ++
    "return \x7b x: r.x, y: r.y, width: r.width, height: r.height \x7d; \x7d)()")

/-- The expression is that of a selector, from a literal with this value. -/
def Selects (expression selector : String) : Prop :=
  ∃ text, expression.toList = selectorOpening.toList ++ '"' :: text ∧
    Literal.readLiteral text = some (selector.toList, selectorClosing.toList)

/-- Where JSON writes strings as literals, the expression of a selector selects by it. -/
theorem selects_selectorExpression {json : Codec}
    (hjson : ∀ s, json.toString (.string s) = Literal.quote s) (selector : String) :
    Selects (selectorExpression (json.toString (.string selector))) selector := by
  obtain ⟨text, htext, hread⟩ := Literal.readLiteral_quote selector selectorClosing.toList
  refine ⟨text, ?_, hread⟩
  have hassoc (a e b c d : String) : a ++ e ++ b ++ c ++ d = a ++ (e ++ (b ++ (c ++ d))) := by
    simp only [String.append_assoc]
  have hsplit : selectorExpression (json.toString (.string selector)) =
      selectorOpening ++ (json.toString (.string selector) ++ selectorClosing) := hassoc ..
  rw [hsplit, hjson, String.toList_append, String.toList_append, htext]

/-! ## The requests of a script -/

/-- A request of what is asked is one of the commands. -/
theorem mem_asked {questions : List Question} {id : Nat} {request : Value}
    (h : request ∈ asked id questions) : ∃ id session method params,
      Question.command session method params ∈ questions ∧
        request = CdpConnection.request id session method params := by
  induction questions generalizing id with
  | nil => cases h
  | cons question questions ih =>
    have hmore {id : Nat} (h : request ∈ asked id questions) :
        ∃ id session method params,
          Question.command session method params ∈ question :: questions ∧
            request = CdpConnection.request id session method params := by
      obtain ⟨id, session, method, params, hmem, hrequest⟩ := ih h
      exact ⟨id, session, method, params, List.mem_cons_of_mem _ hmem, hrequest⟩
    cases question with
    | command session method params =>
      cases h with
      | head => exact ⟨id, session, method, params, List.mem_cons_self, rfl⟩
      | tail _ h => exact hmore h
    | wait session waitUntil => exact hmore h
    | clear => exact hmore h

/-- The commands of the page operations that take no expression. One of them, `Page.navigate`, goes
to the URL of the request. -/
def quietCommands : List String :=
  ["Target.createTarget", "Target.attachToTarget", "Page.enable", "Page.setLifecycleEventsEnabled",
    "Page.navigate", "Page.getLayoutMetrics", "Emulation.setDeviceMetricsOverride",
    "Emulation.setDefaultBackgroundColorOverride", "Page.captureScreenshot", "Page.printToPDF"]

/-- A command of an operation that takes no expression, or evaluates the fixed one, or that of the
selector. -/
def Contained (operation : PageOperation) (method : String) (params : Value) : Prop :=
  method ∈ quietCommands ∨ method = "Runtime.evaluate" ∧ ∃ expression,
    params.get "expression" = some (.string expression) ∧
      (expression = scrapeExpression ∨
        ∃ selector, operation.selector = some selector ∧ Selects expression selector)

/-- All commands of a script are such. -/
def AllContained (operation : PageOperation) (script : List CdpLine) : Prop :=
  ∀ line ∈ script, ∀ session method params, line.call = .command session method params →
    Contained operation method params

namespace AllContained

variable {operation : PageOperation} {script script' : List CdpLine}

/-- There is none. -/
theorem nil : AllContained operation [] := by
  intro line hline
  cases hline

/-- A command is before others. -/
theorem cons {α : Type} {session : Option String} {method : String} {params : Value}
    {read : Value → Except RestEndpointError α} {a : α} (h : Contained operation method params)
    (hrest : AllContained operation script) :
    AllContained operation (.read session method params read a :: script) := by
  intro line hline
  cases hline with
  | head =>
    intro session method params hcall
    cases hcall
    exact h
  | tail _ hline => exact hrest line hline

/-- A quiet command is before others. -/
theorem quiet {α : Type} {session : Option String} {method : String} {params : Value}
    {read : Value → Except RestEndpointError α} {a : α} (h : method ∈ quietCommands)
    (hrest : AllContained operation script) :
    AllContained operation (.read session method params read a :: script) :=
  cons (.inl h) hrest

/-- Scripts one after the other. -/
theorem append (h : AllContained operation script) (h' : AllContained operation script') :
    AllContained operation (script ++ script') := by
  intro line hline
  rcases List.mem_append.1 hline with hline | hline
  · exact h line hline
  · exact h' line hline

/-- A script, or none. -/
theorem ite {b : Bool} (h : AllContained operation script) :
    AllContained operation (if b then script else []) := by
  cases b with
  | true => exact h
  | false => exact nil

/-- The commands of `prepare_page_target` take no expressions. -/
theorem prepare (target session : String) :
    AllContained operation (prepareScript target session) :=
  quiet (by decide) (quiet (by decide) (quiet (by decide) (quiet (by decide) nil)))

/-- Nor does that of `set_viewport`. -/
theorem viewport (session : String) (size : Nat × Nat) :
    AllContained operation (viewportScript session size) :=
  quiet (by decide) nil

/-- Nor does that of `navigate_page`. -/
theorem navigate (session : String) (options : PageLoadOptions) :
    AllContained operation (navigateScript session options) := by
  intro line hline session' method params hcall
  cases hline with
  | head => cases hcall
  | tail _ hline =>
    cases hline with
    | head =>
      cases hcall
      exact .inl (by decide)
    | tail _ hline =>
      cases hline with
      | head => cases hcall
      | tail _ hline => cases hline

/-- The expressions of an operation are contained in all its scripts. -/
theorem of_script {json : Codec} {base64 : String → Except String (List UInt8)}
    (hjson : ∀ s, json.toString (.string s) = Literal.quote s) (plan : PagePlan)
    (operation : PageOperation) (output : operation.Output) :
    AllContained operation (operation.script json base64 plan output) := by
  cases operation with
  | scrape options =>
    exact ((prepare _ _).append (navigate _ _)).append
      (cons (.inr ⟨rfl, scrapeExpression, rfl, .inl rfl⟩) nil)
  | screenshot options format fullPage capture =>
    have hclip : AllContained (.screenshot options format fullPage capture)
        (capture.script json plan.session plan.selected) := by
      rw [ScreenshotCapture.script]
      split
      · next selector hselector =>
        exact cons (.inr ⟨rfl, _, rfl,
          .inr ⟨selector, hselector, selects_selectorExpression hjson selector⟩⟩) nil
      · exact nil
    exact (((((prepare _ _).append (navigate _ _)).append
      (ite (quiet (by decide) (viewport _ _)))).append (ite (quiet (by decide) nil))).append
      hclip).append (quiet (by decide) nil)
  | pdf options printOptions viewport =>
    exact (((prepare _ _).append (AllContained.viewport _ _)).append (navigate _ _)).append
      (quiet (by decide) nil)

end AllContained

/-- **Selectors remain strings.** Whatever a browser answers a page operation: each request sent to
it is one of the commands that take no expression, or evaluates the fixed expression, or that of the
selector of the request, which is a string literal there with just this value. -/
theorem evaluated_contained {json : Codec} {base64 : String → Except String (List UInt8)}
    {sends : Nat → Option String} (hjson : ∀ s, json.toString (.string s) = Literal.quote s)
    (operation : PageOperation) (inbound : List Inbound)
    {r : Except RestEndpointError operation.Output} {cdp' : CdpConnection}
    (h : exec (operation.perform json base64 sends) (.opened inbound) = some (r, cdp')) :
    ∀ request ∈ cdp'.sent, ∃ id session method params,
      request = CdpConnection.request id session method params ∧
        Contained operation method params := by
  have hsent : ∃ plan output lines, lines ⊆ operation.script json base64 plan output ∧
      cdp'.sent ⊆ asked 1 (lines.map Line.call) := by
    cases r with
    | ok output =>
      obtain ⟨_, xs, ⟨plan, rfl⟩, hcompleted⟩ :=
        (result_iff_of_converses (converses_perform operation)).1 h
      refine ⟨plan, output, _, List.Subset.refl _, ?_⟩
      rw [hcompleted.sent]
      exact List.Subset.refl _
    | error error =>
      obtain ⟨output, before, line, rest, xs, x, ⟨plan, hscript⟩, hstopped⟩ :=
        (error_iff_of_converses (converses_perform operation)).1 h
      refine ⟨plan, output, before ++ [line], ?_, hstopped.sent.subset⟩
      rw [← hscript, List.append_cons before line rest]
      exact List.subset_append_left _ _
  obtain ⟨plan, output, lines, hlines, hsent⟩ := hsent
  intro request hrequest
  obtain ⟨id, session, method, params, hmem, rfl⟩ := mem_asked (hsent hrequest)
  obtain ⟨line, hline, hcall⟩ := List.mem_map.1 hmem
  exact ⟨id, session, method, params, rfl,
    AllContained.of_script hjson plan operation output line (hlines hline) session method params
      hcall⟩

/-- A library that writes strings as JSON does, and reads these texts as these values. -/
def writingCodec (texts : List (String × Value)) : Codec :=
  { textsCodec texts with
    toString := fun value =>
      match value with
      | .string s => Literal.quote s
      | _ => "null" }

/-- The screenshot of a selector with a quote and a backslash in it. -/
def exampleSelection : PageOperation :=
  .screenshot { url := "u", waitUntil := .load, timeout := 1 } .png false
    { quality := none, omitBackground := false, selector := some "a[b=\"\\\"]", clip := none }

/-- The texts of a browser that does not find the selector. -/
def selectionTexts : List (String × Value) :=
  loadedTexts ++ [("evaluated", replyTo 6 (.object [("result", .object [("value", .null)])]))]

/-- The selector is not found, and what is sent is contained. -/
theorem evaluated_contained_selection : ∃ cdp',
    exec (exampleSelection.perform (writingCodec selectionTexts) (fun _ => .ok []) fun _ => none)
        (.opened (textsInbound selectionTexts))
      = some (.error (.badRequest "selector not found: a[b=\"\\\"]"), cdp') ∧
    cdp'.sent.length = 6 ∧
    ∀ request ∈ cdp'.sent, ∃ id session method params,
      request = CdpConnection.request id session method params ∧
        Contained exampleSelection method params := by
  have hexec : ∃ cdp',
      exec (exampleSelection.perform (writingCodec selectionTexts) (fun _ => .ok []) fun _ => none)
          (.opened (textsInbound selectionTexts))
        = some (.error (.badRequest "selector not found: a[b=\"\\\"]"), cdp') ∧
      cdp'.sent.length = 6 := ⟨_, rfl, rfl⟩
  obtain ⟨cdp', hexec, hlength⟩ := hexec
  exact ⟨cdp', hexec, hlength,
    evaluated_contained (fun _ => rfl) exampleSelection (textsInbound selectionTexts) hexec⟩

end Eiger
