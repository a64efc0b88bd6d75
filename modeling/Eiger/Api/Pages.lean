import Eiger.Api.Exchanges
import Eiger.Api.Handlers
import Eiger.Lib.JsonNumber

/-!
# The page operations of the REST endpoints

`/scrape`, `/screenshot` and `/pdf` drive a page of a session of their own: `scrape_with_session`,
`screenshot_with_session` and `pdf_with_session`, with the functions they share. Each is a program
over a CDP connection, in the order of the source. Numbers are doubles, by their bits. The libraries
that read and write JSON texts and decode base64 are parameters, and so is which of the requests
cannot be sent.
-/

namespace Eiger

open Json Text Dialogue

/-! ## Requests -/

/-- `ClipRegion`. -/
structure ClipRegion where
  x : UInt64
  y : UInt64
  width : UInt64
  height : UInt64
  scale : Option UInt64
  deriving DecidableEq

/-- `ScreenshotCapture`. -/
structure ScreenshotCapture where
  quality : Option Nat
  omitBackground : Bool
  selector : Option String
  clip : Option ClipRegion
  deriving DecidableEq

/-- What `pdf_print_options` reads of a `PdfRequest`. -/
structure PrintRequest where
  format : Option String
  landscape : Option Bool
  printBackground : Option Bool
  scale : Option UInt64
  marginTop : Option UInt64
  marginBottom : Option UInt64
  marginLeft : Option UInt64
  marginRight : Option UInt64
  displayHeaderFooter : Option Bool
  headerTemplate : Option String
  footerTemplate : Option String
  preferCssPageSize : Option Bool
  deriving DecidableEq

/-- `ScreenshotFormat::cdp_name`. -/
def ScreenshotFormat.cdpName : ScreenshotFormat → String
  | .png => "png"
  | .jpeg => "jpeg"

/-- `PDF_PIXELS_PER_INCH`. -/
def pdfPixelsPerInch : Nat := 96

/-- `pdf_paper_size`: the sizes in inches, as doubles. -/
def pdfPaperSize (format : String) : Except RestEndpointError (UInt64 × UInt64) :=
  let normalized := toAsciiLowercase (trim format)
  if normalized = "letter" then .ok (0x4021000000000000, 0x4026000000000000)
  else if normalized = "legal" then .ok (0x4021000000000000, 0x402C000000000000)
  else if normalized = "tabloid" ∨ normalized = "ledger" then
    .ok (0x4026000000000000, 0x4031000000000000)
  else if normalized = "a0" then .ok (0x40408CCCCCCCCCCD, 0x4047666666666666)
  else if normalized = "a1" then .ok (0x4037666666666666, 0x40408CCCCCCCCCCD)
  else if normalized = "a2" then .ok (0x40308A3D70A3D70A, 0x4037666666666666)
  else if normalized = "a3" then .ok (0x4027666666666666, 0x40308A3D70A3D70A)
  else if normalized = "a4" then .ok (0x40208A3D70A3D70A, 0x4027666666666666)
  else if normalized = "a5" then .ok (0x401751EB851EB852, 0x40208A3D70A3D70A)
  else if normalized = "a6" then .ok (0x4010851EB851EB85, 0x401751EB851EB852)
  else .error (.badRequest ("unsupported pdf format: " ++ format))

/-- An option that is given only where it was requested. -/
def givenOption {α : Type} (key : String) (write : α → Value) (value : Option α) :
    List (String × Value) :=
  (value.map fun value => (key, write value)).toList

/-- The size of the paper: that of the format, or else that of the viewport. -/
def PrintRequest.paper (request : PrintRequest) (viewport : Nat × Nat) :
    Except RestEndpointError (UInt64 × UInt64) :=
  match request.format with
  | some format => pdfPaperSize format
  | none => .ok (Binary64.ofQuotient viewport.1 pdfPixelsPerInch,
      Binary64.ofQuotient viewport.2 pdfPixelsPerInch)

/-- `pdf_print_options`. -/
def pdfPrintOptions (request : PrintRequest) (viewport : Nat × Nat) :
    Except RestEndpointError Value :=
  (request.paper viewport).map fun paper => .object
    ([("landscape", .bool (request.landscape.getD false)),
      ("printBackground", .bool (request.printBackground.getD false)),
      ("transferMode", .string "ReturnAsBase64"),
      ("paperWidth", .ofF64 paper.1), ("paperHeight", .ofF64 paper.2)] ++
     givenOption "scale" Value.ofF64 request.scale ++
     givenOption "marginTop" Value.ofF64 request.marginTop ++
     givenOption "marginBottom" Value.ofF64 request.marginBottom ++
     givenOption "marginLeft" Value.ofF64 request.marginLeft ++
     givenOption "marginRight" Value.ofF64 request.marginRight ++
     givenOption "displayHeaderFooter" Value.bool request.displayHeaderFooter ++
     givenOption "headerTemplate" Value.string request.headerTemplate ++
     givenOption "footerTemplate" Value.string request.footerTemplate ++
     givenOption "preferCSSPageSize" Value.bool request.preferCssPageSize)

/-! ## What is read of an answer -/

/-- `required_string`. -/
def requiredString (value : Value) (field : String) : Except RestEndpointError String :=
  match (value.get field).bind Value.asStr with
  | some text => .ok text
  | none => .error (.invalidCdpResponse ("CDP result missing " ++ field))

/-- `positive_dimension`. -/
def positiveDimension (value : Option Value) (name : String) : Except RestEndpointError Nat :=
  match value.bind Value.asF64 with
  | some bits => .ok (Binary64.ceilMaxOne bits)
  | none =>
    .error (.invalidCdpResponse ("Page.getLayoutMetrics missing numeric " ++ name))

/-- `decode_cdp_data`, by how base64 is decoded. -/
def decodeCdpData (base64 : String → Except String (List UInt8)) (result : Value) :
    Except RestEndpointError (List UInt8) :=
  match (result.get "data").bind Value.asStr with
  | some data => (base64 data).mapError .decode
  | none => .error (.invalidCdpResponse "CDP result missing data")

/-- The size of the page that `set_full_page_viewport` reads of the layout metrics. -/
def contentSize (metrics : Value) : Except RestEndpointError (Nat × Nat) :=
  match (metrics.get "cssContentSize").or (metrics.get "contentSize") with
  | none => .error (.invalidCdpResponse "Page.getLayoutMetrics missing content size")
  | some size => do
    let width ← positiveDimension (size.get "width") "width"
    let height ← positiveDimension (size.get "height") "height"
    return (min width (2 ^ 32 - 1), min height (2 ^ 32 - 1))

/-- What `scrape_with_session` evaluates in the page. -/
def scrapeExpression : String :=
  "(() => (\x7b html: document.documentElement ? document.documentElement.outerHTML : \"\", " ++
    "title: document.title, url: location.href \x7d))()"

/-- The page that `scrape_with_session` reads of the result. -/
def scrapedPage (result : Value) : Except RestEndpointError ScrapeResponse :=
  match (result.get "result").bind (·.get "value") with
  | some value => .ok
      { html := ((value.get "html").bind Value.asStr).getD ""
        title := ((value.get "title").bind Value.asStr).getD ""
        url := ((value.get "url").bind Value.asStr).getD "" }
  | none => .error (.invalidCdpResponse "Runtime.evaluate missing result.value")

/-- What `resolve_selector_clip` evaluates in the page: the selector as JSON writes it is an
argument in it. -/
def selectorExpression (encodedSelector : String) : String :=
  "(() => \x7b const el = document.querySelector(" ++ encodedSelector ++ "); " ++
    "if (!el) return null; const r = el.getBoundingClientRect(); " ++
    "return \x7b x: r.x, y: r.y, width: r.width, height: r.height \x7d; \x7d)()"

/-- The region that `resolve_selector_clip` reads of the result. -/
def selectedRegion (selector : String) (result : Value) : Except RestEndpointError ClipRegion :=
  let value := (result.get "result").bind (·.get "value")
  match value with
  | none => .error (.badRequest ("selector not found: " ++ selector))
  | some .null => .error (.badRequest ("selector not found: " ++ selector))
  | some value =>
    let number key := ((value.get key).bind Value.asF64).getD 0
    .ok { x := number "x", y := number "y", width := number "width", height := number "height",
          scale := none }

/-! ## The programs -/

namespace Cdp

variable (json : Codec) (sends : Nat → Option String)

/-- `prepare_page_target`. -/
def preparePageTarget : Cdp String := do
  let created ← command json sends none "Target.createTarget"
    (.object [("url", .string "about:blank")])
  let targetId ← fromExcept (requiredString created "targetId")
  let attached ← command json sends none "Target.attachToTarget"
    (.object [("targetId", .string targetId), ("flatten", .bool true)])
  let sessionId ← fromExcept (requiredString attached "sessionId")
  let _ ← command json sends (some sessionId) "Page.enable" (.object [])
  let _ ← command json sends (some sessionId) "Page.setLifecycleEventsEnabled"
    (.object [("enabled", .bool true)])
  return sessionId

/-- `navigate_page`. -/
def navigatePage (session : String) (options : PageLoadOptions) : Cdp Unit := do
  clearLifecycleEvents
  let result ← command json sends (some session) "Page.navigate"
    (.object [("url", .string options.url)])
  match (result.get "errorText").bind Value.asStr with
  | some error => throw (.cdpProtocol ("Page.navigate failed: " ++ error))
  | none => waitForLifecycle json session options.waitUntil

/-- `set_viewport`. -/
def setViewport (session : String) (width height : Nat) : Cdp Unit := do
  let _ ← command json sends (some session) "Emulation.setDeviceMetricsOverride"
    (.object [("mobile", .bool false), ("width", .number (.posInt width)),
      ("height", .number (.posInt height)), ("deviceScaleFactor", .number (.posInt 1)),
      ("screenWidth", .number (.posInt width)), ("screenHeight", .number (.posInt height))])
  return ()

/-- `set_full_page_viewport`. -/
def setFullPageViewport (session : String) : Cdp Unit := do
  let metrics ← command json sends (some session) "Page.getLayoutMetrics" (.object [])
  let size ← fromExcept (contentSize metrics)
  setViewport json sends session size.1 size.2

/-- `resolve_selector_clip`. -/
def resolveSelectorClip (session selector : String) : Cdp ClipRegion := do
  let result ← command json sends (some session) "Runtime.evaluate"
    (.object [("expression", .string (selectorExpression (json.toString (.string selector)))),
      ("returnByValue", .bool true)])
  fromExcept (selectedRegion selector result)

/-- `scrape_with_session`, on its connection. -/
def scrapeWithSession (options : PageLoadOptions) : Cdp ScrapeResponse := do
  let session ← preparePageTarget json sends
  navigatePage json sends session options
  let result ← command json sends (some session) "Runtime.evaluate"
    (.object [("expression", .string scrapeExpression), ("returnByValue", .bool true)])
  fromExcept (scrapedPage result)

end Cdp

/-- A region as `Page.captureScreenshot` takes it. -/
def ClipRegion.value (clip : ClipRegion) : Value :=
  .object [("x", .ofF64 clip.x), ("y", .ofF64 clip.y), ("width", .ofF64 clip.width),
    ("height", .ofF64 clip.height), ("scale", .ofF64 (clip.scale.getD 0x3FF0000000000000))]

/-- What `screenshot_with_session` asks of `Page.captureScreenshot`. -/
def screenshotParams (format : ScreenshotFormat) (fullPage : Bool) (quality : Option Nat)
    (clip : Option ClipRegion) : Value :=
  .object ([("format", .string format.cdpName), ("fromSurface", .bool true),
    ("captureBeyondViewport", .bool fullPage)] ++
    (match format with
      | .jpeg => givenOption "quality" (Value.number ∘ .posInt) quality
      | .png => []) ++
    givenOption "clip" ClipRegion.value clip)

namespace Cdp

variable (json : Codec) (base64 : String → Except String (List UInt8))
  (sends : Nat → Option String)

/-- What `screenshot_with_session` does to leave out the background. -/
def omitBackground (session : String) : Cdp Unit := do
  let _ ← command json sends (some session) "Emulation.setDefaultBackgroundColorOverride"
    (.object [("color", .object [("r", .number (.posInt 0)), ("g", .number (.posInt 0)),
      ("b", .number (.posInt 0)), ("a", .number (.posInt 0))])])
  return ()

/-- The region that `screenshot_with_session` captures: that of the selector, if there is one. -/
def captureClip (session : String) (capture : ScreenshotCapture) : Cdp (Option ClipRegion) :=
  match capture.selector with
  | some selector => some <$> resolveSelectorClip json sends session selector
  | none => pure capture.clip

/-- `screenshot_with_session`, on its connection. -/
def screenshotWithSession (options : PageLoadOptions) (format : ScreenshotFormat)
    (fullPage : Bool) (capture : ScreenshotCapture) : Cdp (List UInt8) := do
  let session ← preparePageTarget json sends
  navigatePage json sends session options
  (if fullPage then setFullPageViewport json sends session else pure ())
  (if capture.omitBackground then omitBackground json sends session else pure ())
  let clip ← captureClip json sends session capture
  let result ← command json sends (some session) "Page.captureScreenshot"
    (screenshotParams format fullPage capture.quality clip)
  fromExcept (decodeCdpData base64 result)

/-- `pdf_with_session`, on its connection. -/
def pdfWithSession (options : PageLoadOptions) (printOptions : Value) (viewport : Nat × Nat) :
    Cdp (List UInt8) := do
  let session ← preparePageTarget json sends
  setViewport json sends session viewport.1 viewport.2
  navigatePage json sends session options
  let result ← command json sends (some session) "Page.printToPDF" printOptions
  fromExcept (decodeCdpData base64 result)

end Cdp

end Eiger
