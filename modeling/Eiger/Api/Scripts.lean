import Eiger.Api.Pages

/-!
# The scripts of the page operations

Each page operation follows a script: what it asks of the browser, in order, and what it takes from
each answer. The target and the session that the browser answers with, the size of the page and the
region of the selector are a `PagePlan`; `PageOperation.script` is the script for a plan and a
result.

`page_scripted` is that the programs follow their scripts, whatever the browser answers and when,
whatever it sends besides, and wherever sending fails or time runs out: they return a result exactly
by completing a script, and an error exactly by stopping in one. So nothing is captured before the
page has been navigated and has reached the stage that was asked for; nothing is asked after the
first answer that is an error or cannot be read, and that error is the result; the requests have the
ids 1, 2, 3 and so on, and from the third on the session of the page.
-/

namespace Eiger

open Json Text Transition Dialogue

/-! ## The scripts -/

/-- `prepare_page_target`, which is answered with a target and a session in it. -/
def prepareScript (target session : String) : List CdpLine :=
  [.read none "Target.createTarget" (.object [("url", .string "about:blank")])
      (requiredString · "targetId") target,
    .read none "Target.attachToTarget"
      (.object [("targetId", .string target), ("flatten", .bool true)])
      (requiredString · "sessionId") session,
    .tell session "Page.enable" (.object []),
    .tell session "Page.setLifecycleEventsEnabled" (.object [("enabled", .bool true)])]

/-- Whether a navigation has begun, by the answer to it. -/
def navigationBegun (result : Value) : Except RestEndpointError Unit :=
  match (result.get "errorText").bind Value.asStr with
  | some error => .error (.cdpProtocol ("Page.navigate failed: " ++ error))
  | none => .ok ()

/-- `navigate_page`. -/
def navigateScript (session : String) (options : PageLoadOptions) : List CdpLine :=
  [.clear,
    .read (some session) "Page.navigate" (.object [("url", .string options.url)])
      navigationBegun (),
    .wait session options.waitUntil]

/-- `set_viewport`. -/
def viewportScript (session : String) (size : Nat × Nat) : List CdpLine :=
  [.tell session "Emulation.setDeviceMetricsOverride"
    (.object [("mobile", .bool false), ("width", .number (.posInt size.1)),
      ("height", .number (.posInt size.2)), ("deviceScaleFactor", .number (.posInt 1)),
      ("screenWidth", .number (.posInt size.1)), ("screenHeight", .number (.posInt size.2))])]

/-- `set_full_page_viewport`, where the page is of this size. -/
def fullPageScript (session : String) (size : Nat × Nat) : List CdpLine :=
  .read (some session) "Page.getLayoutMetrics" (.object []) contentSize size ::
    viewportScript session size

/-- The background is left out. -/
def backgroundScript (session : String) : List CdpLine :=
  [.tell session "Emulation.setDefaultBackgroundColorOverride"
    (.object [("color", .object [("r", .number (.posInt 0)), ("g", .number (.posInt 0)),
      ("b", .number (.posInt 0)), ("a", .number (.posInt 0))])])]

/-- `resolve_selector_clip`, where the selector has this region. -/
def selectorScript (json : Codec) (session selector : String) (region : ClipRegion) :
    List CdpLine :=
  [.read (some session) "Runtime.evaluate"
    (.object [("expression", .string (selectorExpression (json.toString (.string selector)))),
      ("returnByValue", .bool true)])
    (selectedRegion selector) region]

/-- `scrape_with_session`. -/
def scrapeScript (target session : String) (options : PageLoadOptions)
    (output : ScrapeResponse) : List CdpLine :=
  prepareScript target session ++ navigateScript session options ++
    [.read (some session) "Runtime.evaluate"
      (.object [("expression", .string scrapeExpression), ("returnByValue", .bool true)])
      scrapedPage output]

/-- What is captured: the region of the selector, if there is one. -/
def ScreenshotCapture.region (capture : ScreenshotCapture) (selected : ClipRegion) :
    Option ClipRegion :=
  match capture.selector with
  | some _ => some selected
  | none => capture.clip

/-- What the capture takes from the selector. -/
def ScreenshotCapture.script (capture : ScreenshotCapture) (json : Codec) (session : String)
    (selected : ClipRegion) : List CdpLine :=
  match capture.selector with
  | some selector => selectorScript json session selector selected
  | none => []

/-- `screenshot_with_session`. -/
def screenshotScript (json : Codec) (base64 : String → Except String (List UInt8))
    (target session : String) (size : Nat × Nat) (selected : ClipRegion)
    (options : PageLoadOptions) (format : ScreenshotFormat) (fullPage : Bool)
    (capture : ScreenshotCapture) (output : List UInt8) : List CdpLine :=
  prepareScript target session ++ navigateScript session options ++
    (if fullPage then fullPageScript session size else []) ++
    (if capture.omitBackground then backgroundScript session else []) ++
    capture.script json session selected ++
    [.read (some session) "Page.captureScreenshot"
      (screenshotParams format fullPage capture.quality (capture.region selected))
      (decodeCdpData base64) output]

/-- `pdf_with_session`. -/
def pdfScript (base64 : String → Except String (List UInt8)) (target session : String)
    (options : PageLoadOptions) (printOptions : Value) (viewport : Nat × Nat)
    (output : List UInt8) : List CdpLine :=
  prepareScript target session ++ viewportScript session viewport ++
    navigateScript session options ++
    [.read (some session) "Page.printToPDF" printOptions (decodeCdpData base64) output]

/-! ## The programs follow them -/

namespace Cdp

variable {json : Codec} {base64 : String → Except String (List UInt8)}
  {sends : Nat → Option String}

/-- `prepare_page_target` follows its script. -/
theorem converses_prepare : (protocol json sends).Converses (preparePageTarget json sends)
    fun session script => ∃ target, script = prepareScript target session := by
  have hform : preparePageTarget json sends =
      (command json sends none "Target.createTarget" (.object [("url", .string "about:blank")])
        >>= fun created => fromExcept (requiredString created "targetId")) >>= fun target =>
      (command json sends none "Target.attachToTarget"
        (.object [("targetId", .string target), ("flatten", .bool true)])
        >>= fun attached => fromExcept (requiredString attached "sessionId")) >>= fun session =>
      (command json sends (some session) "Page.enable" (.object []) >>= fun _ => pure ())
        >>= fun _ =>
      (command json sends (some session) "Page.setLifecycleEventsEnabled"
        (.object [("enabled", .bool true)]) >>= fun _ => pure ()) >>= fun _ => pure session := by
    simp only [preparePageTarget, bind_assoc, pure_bind]
  rw [hform]
  refine ((converses_read _ _ _ _).bind fun target => (converses_read _ _ _ _).bind fun session =>
    (converses_tell _ _ _).bind fun _ => (converses_tell _ _ _).bind fun _ =>
      .pure session).congr fun session script => ⟨?_, ?_⟩
  · rintro ⟨target, _, _, rfl, rfl, _, _, _, rfl, rfl, _, _, _, rfl, rfl, _, _, _, rfl, rfl, rfl,
      rfl⟩
    exact ⟨target, rfl⟩
  · rintro ⟨target, rfl⟩
    exact ⟨target, _, _, rfl, rfl, session, _, _, rfl, rfl, (), _, _, rfl, rfl, (), _, _, rfl, rfl,
      rfl, rfl⟩

/-- `navigate_page` follows its script. -/
theorem converses_navigate (session : String) (options : PageLoadOptions) :
    (protocol json sends).Converses (navigatePage json sends session options)
      fun _ script => script = navigateScript session options := by
  have hform : navigatePage json sends session options =
      clearLifecycleEvents >>= fun _ =>
      (command json sends (some session) "Page.navigate" (.object [("url", .string options.url)])
        >>= fun result => fromExcept (navigationBegun result)) >>= fun _ =>
      waitForLifecycle json session options.waitUntil := by
    rw [navigatePage, bind_assoc]
    congr
    funext _
    congr
    funext result
    unfold navigationBegun
    cases (result.get "errorText").bind Value.asStr with
    | none => rfl
    | some error => rfl
  rw [hform]
  refine (converses_clear.bind fun _ => (converses_read _ _ _ _).bind fun _ =>
    converses_wait _ _).congr fun _ script => ⟨?_, ?_⟩
  · rintro ⟨_, _, _, rfl, rfl, _, _, _, rfl, rfl, rfl⟩
    rfl
  · rintro rfl
    exact ⟨(), _, _, rfl, rfl, (), _, _, rfl, rfl, rfl⟩

/-- `set_viewport` follows its script. -/
theorem converses_viewport (session : String) (width height : Nat) :
    (protocol json sends).Converses (setViewport json sends session width height)
      fun _ script => script = viewportScript session (width, height) :=
  converses_tell _ _ _

/-- `set_full_page_viewport` follows its script. -/
theorem converses_fullPage (session : String) :
    (protocol json sends).Converses (setFullPageViewport json sends session)
      fun _ script => ∃ size, script = fullPageScript session size := by
  have hform : setFullPageViewport json sends session =
      (command json sends (some session) "Page.getLayoutMetrics" (.object [])
        >>= fun metrics => fromExcept (contentSize metrics)) >>= fun size =>
      setViewport json sends session size.1 size.2 := by
    rw [setFullPageViewport, bind_assoc]
  rw [hform]
  refine ((converses_read _ _ _ _).bind fun size => converses_viewport _ _ _).congr
    fun _ script => ⟨?_, ?_⟩
  · rintro ⟨size, _, _, rfl, rfl, rfl⟩
    exact ⟨size, rfl⟩
  · rintro ⟨size, rfl⟩
    exact ⟨size, _, _, rfl, rfl, rfl⟩

/-- The background is left out by its script. -/
theorem converses_background (session : String) :
    (protocol json sends).Converses (omitBackground json sends session)
      fun _ script => script = backgroundScript session :=
  converses_tell _ _ _

/-- What is done under a condition has the script of what is done, or none. -/
theorem converses_ite {p : Cdp Unit} {scripts : Unit → List CdpLine → Prop} (b : Bool)
    (h : (protocol json sends).Converses p scripts) :
    (protocol json sends).Converses (if b then p else pure ())
      fun u script => if b then scripts u script else script = [] := by
  cases b with
  | true => exact h
  | false =>
    exact (Protocol.Converses.pure ()).congr fun _ _ => ⟨And.right, fun h => ⟨rfl, h⟩⟩

/-- The region to capture is found by its script. -/
theorem converses_clip (session : String) (capture : ScreenshotCapture) :
    (protocol json sends).Converses (captureClip json sends session capture) fun clip script =>
      ∃ selected, clip = capture.region selected ∧
        script = capture.script json session selected := by
  unfold captureClip ScreenshotCapture.region ScreenshotCapture.script
  cases capture.selector with
  | none =>
    refine (Protocol.Converses.pure capture.clip).congr fun clip script => ⟨fun h => ?_, ?_⟩
    · exact ⟨⟨0, 0, 0, 0, none⟩, h⟩
    · rintro ⟨selected, h⟩
      exact h
  | some selector =>
    have : Nonempty ClipRegion := ⟨⟨0, 0, 0, 0, none⟩⟩
    exact (converses_read _ _ _ _).map some

/-- `scrape_with_session` follows its script. -/
theorem converses_scrape (options : PageLoadOptions) :
    (protocol json sends).Converses (scrapeWithSession json sends options) fun output script =>
      ∃ target session, script = scrapeScript target session options output := by
  have : Nonempty ScrapeResponse := ⟨⟨"", "", ""⟩⟩
  refine (converses_prepare.bind fun session => (converses_navigate session options).bind fun _ =>
    converses_read _ _ _ _).congr fun output script => ⟨?_, ?_⟩
  · rintro ⟨session, _, _, rfl, ⟨target, rfl⟩, _, _, _, rfl, rfl, rfl⟩
    exact ⟨target, session, (List.append_assoc ..).symm⟩
  · rintro ⟨target, session, rfl⟩
    exact ⟨session, _, _, List.append_assoc .., ⟨target, rfl⟩, (), _, _, rfl, rfl, rfl⟩

/-- `screenshot_with_session` follows its script. -/
theorem converses_screenshot (options : PageLoadOptions) (format : ScreenshotFormat)
    (fullPage : Bool) (capture : ScreenshotCapture) :
    (protocol json sends).Converses
      (screenshotWithSession json base64 sends options format fullPage capture)
      fun output script => ∃ target session size selected, script =
        screenshotScript json base64 target session size selected options format fullPage capture
          output := by
  refine (converses_prepare.bind fun session => (converses_navigate session options).bind fun _ =>
    (converses_ite fullPage (converses_fullPage session)).bind fun _ =>
    (converses_ite capture.omitBackground (converses_background session)).bind fun _ =>
    (converses_clip session capture).bind fun clip => converses_read _ _ _ _).congr
    fun output script => ?_
  have hback (session : String) (back : List CdpLine) :
      (if capture.omitBackground then back = backgroundScript session else back = []) ↔
        back = if capture.omitBackground then backgroundScript session else [] := by
    cases capture.omitBackground with
    | true => exact Iff.rfl
    | false => exact Iff.rfl
  have hfull (session : String) (full : List CdpLine) :
      (if fullPage then ∃ size, full = fullPageScript session size else full = []) ↔
        ∃ size, full = if fullPage then fullPageScript session size else [] := by
    cases fullPage with
    | true => exact Iff.rfl
    | false => exact ⟨fun h => ⟨(1, 1), h⟩, fun ⟨_, h⟩ => h⟩
  simp only [hback, hfull, screenshotScript, List.append_assoc]
  constructor
  · rintro ⟨session, _, _, rfl, ⟨target, rfl⟩, _, _, _, rfl, rfl, _, _, _, rfl, ⟨size, rfl⟩, _, _,
      _, rfl, rfl, _, _, _, rfl, ⟨selected, rfl, rfl⟩, rfl⟩
    exact ⟨target, session, size, selected, rfl⟩
  · rintro ⟨target, session, size, selected, rfl⟩
    exact ⟨session, _, _, rfl, ⟨target, rfl⟩, (), _, _, rfl, rfl, (), _, _, rfl, ⟨size, rfl⟩, (), _,
      _, rfl, rfl, _, _, _, rfl, ⟨selected, rfl, rfl⟩, rfl⟩

/-- `pdf_with_session` follows its script. -/
theorem converses_pdf (options : PageLoadOptions) (printOptions : Value) (viewport : Nat × Nat) :
    (protocol json sends).Converses (pdfWithSession json base64 sends options printOptions viewport)
      fun output script => ∃ target session, script =
        pdfScript base64 target session options printOptions viewport output := by
  refine (converses_prepare.bind fun session => (converses_viewport session _ _).bind fun _ =>
    (converses_navigate session options).bind fun _ => converses_read _ _ _ _).congr
    fun output script => ?_
  simp only [pdfScript, List.append_assoc]
  constructor
  · rintro ⟨session, _, _, rfl, ⟨target, rfl⟩, _, _, _, rfl, rfl, _, _, _, rfl, rfl, rfl⟩
    exact ⟨target, session, rfl⟩
  · rintro ⟨target, session, rfl⟩
    exact ⟨session, _, _, rfl, ⟨target, rfl⟩, (), _, _, rfl, rfl, (), _, _, rfl, rfl, rfl⟩

end Cdp

/-! ## The operations -/

/-- What a REST endpoint does with its page. -/
inductive PageOperation where
  | scrape (options : PageLoadOptions)
  | screenshot (options : PageLoadOptions) (format : ScreenshotFormat) (fullPage : Bool)
      (capture : ScreenshotCapture)
  | pdf (options : PageLoadOptions) (printOptions : Value) (viewport : Nat × Nat)

/-- What the browser and the page answer: the target, its session, the size of the page and the
region of the selector. -/
structure PagePlan where
  target : String
  session : String
  size : Nat × Nat
  selected : ClipRegion

namespace PageOperation

/-- What an operation results in. -/
def Output : PageOperation → Type
  | .scrape _ => ScrapeResponse
  | .screenshot .. => List UInt8
  | .pdf .. => List UInt8

/-- The program of an operation, on its connection. -/
def perform (json : Codec) (base64 : String → Except String (List UInt8))
    (sends : Nat → Option String) : (operation : PageOperation) → Cdp operation.Output
  | .scrape options => Cdp.scrapeWithSession json sends options
  | .screenshot options format fullPage capture =>
    Cdp.screenshotWithSession json base64 sends options format fullPage capture
  | .pdf options printOptions viewport =>
    Cdp.pdfWithSession json base64 sends options printOptions viewport

/-- `scrape_with_session`, `screenshot_with_session` and `pdf_with_session`, by how the handshake of
the connection ends. It may not return. -/
def withSession (json : Codec) (base64 : String → Except String (List UInt8))
    (sends : Nat → Option String) (operation : PageOperation)
    (handshake : Future (Except String (List Inbound))) :
    Option (Except RestEndpointError operation.Output) :=
  (CdpConnection.connect handshake).value.bind fun connected =>
    match connected with
    | .error error => some (.error error)
    | .ok cdp => (exec (operation.perform json base64 sends) cdp).map Prod.fst

/-- The script of an operation. -/
def script (json : Codec) (base64 : String → Except String (List UInt8)) (plan : PagePlan) :
    (operation : PageOperation) → operation.Output → List CdpLine
  | .scrape options, output => scrapeScript plan.target plan.session options output
  | .screenshot options format fullPage capture, output =>
    screenshotScript json base64 plan.target plan.session plan.size plan.selected options format
      fullPage capture output
  | .pdf options printOptions viewport, output =>
    pdfScript base64 plan.target plan.session options printOptions viewport output

/-- The selector that an operation is to find. -/
def selector : PageOperation → Option String
  | .screenshot _ _ _ capture => capture.selector
  | _ => none

end PageOperation

section

variable {json : Codec} {base64 : String → Except String (List UInt8)}
  {sends : Nat → Option String}

/-- An operation follows its script. -/
theorem converses_perform (operation : PageOperation) :
    (protocol json sends).Converses (operation.perform json base64 sends)
      fun output script => ∃ plan, script = operation.script json base64 plan output := by
  cases operation with
  | scrape options =>
    refine (Cdp.converses_scrape options).congr fun output script => ⟨?_, ?_⟩
    · rintro ⟨target, session, rfl⟩
      exact ⟨⟨target, session, (1, 1), ⟨0, 0, 0, 0, none⟩⟩, rfl⟩
    · rintro ⟨plan, rfl⟩
      exact ⟨plan.target, plan.session, rfl⟩
  | screenshot options format fullPage capture =>
    refine (Cdp.converses_screenshot options format fullPage capture).congr
      fun output script => ⟨?_, ?_⟩
    · rintro ⟨target, session, size, selected, rfl⟩
      exact ⟨⟨target, session, size, selected⟩, rfl⟩
    · rintro ⟨plan, rfl⟩
      exact ⟨plan.target, plan.session, plan.size, plan.selected, rfl⟩
  | pdf options printOptions viewport =>
    refine (Cdp.converses_pdf options printOptions viewport).congr fun output script => ⟨?_, ?_⟩
    · rintro ⟨target, session, rfl⟩
      exact ⟨⟨target, session, (1, 1), ⟨0, 0, 0, 0, none⟩⟩, rfl⟩
    · rintro ⟨plan, rfl⟩
      exact ⟨plan.target, plan.session, rfl⟩

/-- **Page operations follow their scripts.** On a new connection, whatever arrives on it in
whatever order, and whichever requests cannot be sent: an operation returns a result exactly by
completing its whole script for that result, and an error exactly by stopping in its script with
that error. -/
theorem page_scripted (json : Codec) (base64 : String → Except String (List UInt8))
    (sends : Nat → Option String) (operation : PageOperation) (inbound : List Inbound)
    (cdp' : CdpConnection) :
    (∀ output, exec (operation.perform json base64 sends) (.opened inbound) =
        some (.ok output, cdp') ↔
      ∃ plan xs, Scripted json sends (.opened inbound) (operation.script json base64 plan output) xs
        cdp') ∧
    ∀ error, exec (operation.perform json base64 sends) (.opened inbound) =
        some (.error error, cdp') ↔
      ∃ output plan before line rest xs x,
        operation.script json base64 plan output = before ++ line :: rest ∧
        Stopped json sends (.opened inbound) before line xs x error cdp' := by
  refine ⟨fun output => ?_, fun error => ?_⟩
  · rw [result_iff_of_converses (converses_perform operation)]
    constructor
    · rintro ⟨_, xs, ⟨plan, rfl⟩, hcompleted⟩
      exact ⟨plan, xs, hcompleted⟩
    · rintro ⟨plan, xs, hcompleted⟩
      exact ⟨_, xs, ⟨plan, rfl⟩, hcompleted⟩
  · rw [error_iff_of_converses (converses_perform operation)]
    constructor
    · rintro ⟨output, before, line, rest, xs, x, ⟨plan, hscript⟩, hstopped⟩
      exact ⟨output, plan, before, line, rest, xs, x, hscript.symm, hstopped⟩
    · rintro ⟨output, plan, before, line, rest, xs, x, hscript, hstopped⟩
      exact ⟨output, before, line, rest, xs, x, ⟨plan, hscript.symm⟩, hstopped⟩

end

/-! ## A page that is scraped -/

/-- A response to the request of this id. -/
def replyTo (id : Nat) (result : Value) : Value :=
  .object [("id", .number (.posInt id)), ("result", result)]

/-- The texts that a browser sends until a page is loaded, with their values. -/
def loadedTexts : List (String × Value) :=
  [("created", replyTo 1 (.object [("targetId", .string "T")])),
    ("attached", replyTo 2 (.object [("sessionId", .string "S")])),
    ("enabled", replyTo 3 (.object [])),
    ("watching", replyTo 4 (.object [])),
    ("navigated", replyTo 5 (.object [("frameId", .string "F"), ("loaderId", .string "L")])),
    ("loaded", .object [("method", .string "Page.lifecycleEvent"), ("sessionId", .string "S"),
      ("params", .object [("frameId", .string "F"), ("loaderId", .string "L"),
        ("name", .string "load")])])]

/-- A library that reads these texts as these values. -/
def textsCodec (texts : List (String × Value)) : Codec :=
  { fromStr := fun text =>
      match texts.lookup text with
      | some value => .ok value
      | none => .error "expected value at line 1 column 1"
    toString := fun _ => "null" }

/-- The browser sends these texts. -/
def textsInbound (texts : List (String × Value)) : List Inbound :=
  texts.map fun text => .message (.text text.1)

/-- The texts of a browser whose page is scraped. -/
def scrapedTexts : List (String × Value) :=
  loadedTexts ++ [("evaluated", replyTo 6 (.object [("result", .object [("value", .object
    [("html", .string "<p>"), ("title", .string "t"), ("url", .string "u")])])]))]

/-- The page that is scraped. -/
def exampleScrape : PageOperation := .scrape { url := "u", waitUntil := .load, timeout := 1 }

/-- The dialogue in which a page is loaded. -/
def loadedDialogue : List Exchange :=
  [.command none "Target.createTarget" (.object [("url", .string "about:blank")])
      (.ok (.object [("targetId", .string "T")])),
    .command none "Target.attachToTarget"
      (.object [("targetId", .string "T"), ("flatten", .bool true)])
      (.ok (.object [("sessionId", .string "S")])),
    .command (some "S") "Page.enable" (.object []) (.ok (.object [])),
    .command (some "S") "Page.setLifecycleEventsEnabled" (.object [("enabled", .bool true)])
      (.ok (.object [])),
    .clear,
    .command (some "S") "Page.navigate" (.object [("url", .string "u")])
      (.ok (.object [("frameId", .string "F"), ("loaderId", .string "L")])),
    .wait "S" .load (.ok ())]

/-- The dialogue in which it is scraped. -/
def scrapedDialogue : List Exchange :=
  loadedDialogue ++ [.command (some "S") "Runtime.evaluate"
    (.object [("expression", .string scrapeExpression), ("returnByValue", .bool true)])
    (.ok (.object [("result", .object [("value", .object
      [("html", .string "<p>"), ("title", .string "t"), ("url", .string "u")])])]))]

/-- What the browser answers with. -/
def scrapedPlan : PagePlan := ⟨"T", "S", (1, 1), ⟨0, 0, 0, 0, none⟩⟩

/-- The connection after it. -/
def scrapedConnection : CdpConnection :=
  { inbound := []
    sendError := none
    nextId := 7
    lifecycleEvents := ["load"]
    sent := asked 1 (scrapedDialogue.map Exchange.question) }

/-- The script of the page has been completed in this dialogue. -/
theorem scripted_scraped : Scripted (textsCodec scrapedTexts) (fun _ => none)
    (.opened (textsInbound scrapedTexts))
    (exampleScrape.script (textsCodec scrapedTexts) (fun _ => .ok []) scrapedPlan ⟨"<p>", "t", "u"⟩)
    scrapedDialogue scrapedConnection where
  exchanged := run_of_execute rfl
  met := .cons ⟨rfl, rfl, _, rfl, rfl⟩ (.cons ⟨rfl, rfl, _, rfl, rfl⟩
    (.cons ⟨rfl, rfl, _, rfl, rfl⟩ (.cons ⟨rfl, rfl, _, rfl, rfl⟩ (.cons ⟨rfl, rfl, trivial⟩
    (.cons ⟨rfl, rfl, _, rfl, rfl⟩ (.cons ⟨rfl, rfl, trivial⟩
    (.cons ⟨rfl, rfl, _, rfl, rfl⟩ .nil)))))))
  sent := rfl

/-- So the operation returns what the last answer says. -/
theorem page_scripted_scrape :
    exec (exampleScrape.perform (textsCodec scrapedTexts) (fun _ => .ok []) fun _ => none)
      (.opened (textsInbound scrapedTexts)) =
        some (.ok (⟨"<p>", "t", "u"⟩ : ScrapeResponse), scrapedConnection) :=
  ((page_scripted _ _ _ exampleScrape _ _).1 _).2 ⟨scrapedPlan, scrapedDialogue, scripted_scraped⟩

end Eiger
