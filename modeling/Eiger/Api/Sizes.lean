import Eiger.Api.Scripts

/-!
# The sizes of pages and papers

Sizes go through doubles. The viewport of a full-page screenshot is the size that the page reports,
rounded up and kept to what the protocol takes: exactly so, whether the browser reports an integer
or a fraction (`fullPage_covers`). The paper of a PDF without a format is the viewport at 96 pixels
an inch, to within the rounding of a double, so that the page is as wide and high as the viewport to
less than a millionth of a pixel (`paper_pixels`).
-/

namespace Eiger

open Json Text Transition Dialogue

/-! ## Full pages -/

/-- A size that is sent: a number rounded up, from 1 to what 32 bits hold. -/
theorem dimension_eq {n : Number} (h : n.InRange) :
    ((min (Binary64.ceilMaxOne n.toF64) (2 ^ 32 - 1) : Nat) : ℤ) =
      min (max ⌈n.value⌉ 1) (2 ^ 32 - 1) := by
  cases n with
  | posInt n =>
    have hlt : n < 2 ^ 64 := h
    rw [Number.toF64, Binary64.ceilMaxOne_ofNat hlt, Number.value, Int.ceil_natCast]
    omega
  | negInt i =>
    obtain ⟨-, hneg⟩ := h
    obtain ⟨n, rfl⟩ := Int.eq_negSucc_of_lt_zero hneg
    rw [Number.toF64, Binary64.ceilMaxOne_negSucc, Number.value, Int.ceil_intCast]
    omega
  | float bits =>
    have hceil := Binary64.ceilMaxOne_eq h
    rw [Number.toF64, Number.value]
    omega

/-- A dimension is read of a number. -/
theorem positiveDimension_ok {value : Option Value} {name : String} {d : Nat}
    (h : positiveDimension value name = .ok d) :
    ∃ n, value = some (.number n) ∧ d = Binary64.ceilMaxOne n.toF64 := by
  rw [positiveDimension] at h
  split at h
  · next bits hbits =>
    cases h
    obtain ⟨value, rfl, hvalue⟩ := Option.bind_eq_some_iff.1 hbits
    cases value with
    | number n =>
      cases hvalue
      exact ⟨n, rfl, rfl⟩
    | _ => cases hvalue
  · cases h

/-- The size that is read of layout metrics: the numbers of their content size, rounded up. -/
theorem contentSize_ok {metrics : Value} {size : Nat × Nat} (h : contentSize metrics = .ok size) :
    ∃ content width height,
      (metrics.get "cssContentSize").or (metrics.get "contentSize") = some content ∧
      content.get "width" = some (.number width) ∧
      content.get "height" = some (.number height) ∧
      size = (min (Binary64.ceilMaxOne width.toF64) (2 ^ 32 - 1),
        min (Binary64.ceilMaxOne height.toF64) (2 ^ 32 - 1)) := by
  rw [contentSize] at h
  split at h
  · cases h
  · next content hcontent =>
    cases hwidth : positiveDimension (content.get "width") "width" with
    | error e =>
      rw [hwidth] at h
      cases h
    | ok w =>
      rw [hwidth] at h
      cases hheight : positiveDimension (content.get "height") "height" with
      | error e =>
        rw [hheight] at h
        cases h
      | ok v =>
        rw [hheight] at h
        cases h
        obtain ⟨width, hget, rfl⟩ := positiveDimension_ok hwidth
        obtain ⟨height, hget', rfl⟩ := positiveDimension_ok hheight
        exact ⟨content, width, height, hcontent, hget, hget', rfl⟩

/-- The size of the viewport is that of the content: each number of it rounded up, from 1 to what 32
bits hold. -/
structure Covers (size : Nat × Nat) (metrics : Value) (width height : Number) : Prop where
  content : ∃ content,
    (metrics.get "cssContentSize").or (metrics.get "contentSize") = some content ∧
      content.get "width" = some (.number width) ∧ content.get "height" = some (.number height)
  width : width.InRange → (size.1 : ℤ) = min (max ⌈width.value⌉ 1) (2 ^ 32 - 1)
  height : height.InRange → (size.2 : ℤ) = min (max ⌈height.value⌉ 1) (2 ^ 32 - 1)

section

variable {json : Codec} {base64 : String → Except String (List UInt8)}
  {sends : Nat → Option String}

/-- **A full-page screenshot covers the page.** Where its script is completed, the page has answered
with its content size, and the viewport that was asked for is the least in whole pixels that covers
it, as far as 32 bits hold, and never empty. -/
theorem fullPage_covers {plan : PagePlan} {options : PageLoadOptions} {format : ScreenshotFormat}
    {capture : ScreenshotCapture} {output : List UInt8} {xs : List Exchange}
    {cdp cdp' : CdpConnection}
    (h : Scripted json sends cdp
      ((PageOperation.screenshot options format true capture).script json base64 plan output)
      xs cdp') :
    ∃ metrics width height, (∃ x ∈ xs, x.question = .command (some plan.session)
        "Page.getLayoutMetrics" (.object []) ∧ x.answer = some metrics) ∧
      (∀ line ∈ viewportScript plan.session plan.size, ∃ x ∈ xs, x.question = line.call) ∧
      Covers plan.size metrics width height := by
  have hfull : ∀ line ∈ fullPageScript plan.session plan.size,
      ∃ x ∈ xs, (protocol json sends).Meets line x := by
    intro line hline
    refine Protocol.exists_of_meets h.met ?_
    simp only [PageOperation.script, screenshotScript, if_true, List.mem_append]
    exact .inl (.inl (.inl (.inr hline)))
  obtain ⟨x, hx, hmeets⟩ := hfull _ List.mem_cons_self
  obtain ⟨metrics, hanswer, hsize⟩ := hmeets.accepted
  obtain ⟨content, width, height, hcontent, hwidth, hheight, hplan⟩ := contentSize_ok hsize
  refine ⟨metrics, width, height, ⟨x, hx, hmeets.call, hanswer⟩, fun line hline => ?_,
    ⟨content, hcontent, hwidth, hheight⟩, fun hrange => ?_, fun hrange => ?_⟩
  · obtain ⟨y, hy, hmeets'⟩ := hfull line (List.mem_cons_of_mem _ hline)
    exact ⟨y, hy, hmeets'.call⟩
  · rw [hplan]
    exact dimension_eq hrange
  · rw [hplan]
    exact dimension_eq hrange

end

/-- The layout metrics of a page of 800.5 by 0 pixels. -/
def capturedMetrics : Value :=
  .object [("cssContentSize", .object
    [("width", .number (.float 0x4089040000000000)), ("height", .number (.posInt 0))])]

/-- The texts of a browser whose page is captured. -/
def capturedTexts : List (String × Value) :=
  loadedTexts ++ [
    ("metrics", replyTo 6 capturedMetrics),
    ("sized", replyTo 7 (.object [])),
    ("captured", replyTo 8 (.object [("data", .string "AQ==")]))]

/-- What is captured of it. -/
def exampleCapture : ScreenshotCapture :=
  { quality := none, omitBackground := false, selector := none, clip := none }

/-- What the browser answers with: the page takes 801 by 1 whole pixels. -/
def capturedPlan : PagePlan := { scrapedPlan with size := (801, 1) }

/-- The dialogue with it. -/
def capturedDialogue : List Exchange :=
  loadedDialogue ++ [
    .command (some "S") "Page.getLayoutMetrics" (.object []) (.ok capturedMetrics),
    .command (some "S") "Emulation.setDeviceMetricsOverride"
      (.object [("mobile", .bool false), ("width", .number (.posInt 801)),
        ("height", .number (.posInt 1)), ("deviceScaleFactor", .number (.posInt 1)),
        ("screenWidth", .number (.posInt 801)), ("screenHeight", .number (.posInt 1))])
      (.ok (.object [])),
    .command (some "S") "Page.captureScreenshot"
      (.object [("format", .string "png"), ("fromSurface", .bool true),
        ("captureBeyondViewport", .bool true)])
      (.ok (.object [("data", .string "AQ==")]))]

/-- The connection after it. -/
def capturedConnection : CdpConnection :=
  { inbound := []
    sendError := none
    nextId := 9
    lifecycleEvents := ["load"]
    sent := asked 1 (capturedDialogue.map Exchange.question) }

/-- The size that is read of them. -/
theorem contentSize_captured : contentSize capturedMetrics = .ok (801, 1) := by decide +kernel

/-- The script of the screenshot has been completed in this dialogue. -/
theorem scripted_captured : Scripted (textsCodec capturedTexts) (fun _ => none)
    (.opened (textsInbound capturedTexts))
    ((PageOperation.screenshot { url := "u", waitUntil := .load, timeout := 1 } .png true
      exampleCapture).script (textsCodec capturedTexts) (fun _ => .ok [1]) capturedPlan [1])
    capturedDialogue capturedConnection where
  exchanged := run_of_execute rfl
  met := .cons ⟨rfl, rfl, _, rfl, rfl⟩ (.cons ⟨rfl, rfl, _, rfl, rfl⟩
    (.cons ⟨rfl, rfl, _, rfl, rfl⟩ (.cons ⟨rfl, rfl, _, rfl, rfl⟩ (.cons ⟨rfl, rfl, trivial⟩
    (.cons ⟨rfl, rfl, _, rfl, rfl⟩ (.cons ⟨rfl, rfl, trivial⟩
    (.cons ⟨rfl, rfl, _, rfl, contentSize_captured⟩ (.cons ⟨rfl, rfl, _, rfl, rfl⟩
    (.cons ⟨rfl, rfl, _, rfl, rfl⟩ .nil)))))))))
  sent := rfl

/-- A viewport of 801 by 1 pixels covers the page of that browser. -/
theorem fullPage_covers_captured : ∃ metrics width height,
    (∃ x ∈ capturedDialogue, x.question = .command (some "S") "Page.getLayoutMetrics" (.object []) ∧
      x.answer = some metrics) ∧ Covers (801, 1) metrics width height := by
  obtain ⟨metrics, width, height, hanswered, -, hcovers⟩ := fullPage_covers scripted_captured
  exact ⟨metrics, width, height, hanswered, hcovers⟩

/-! ## Papers -/

/-- A side of a viewport, as a length of paper. -/
theorem paper_side {pixels : Nat} (hpos : 0 < pixels) (hlt : pixels < 2 ^ 32) :
    Binary64.isFinite (Binary64.ofQuotient pixels pdfPixelsPerInch) = true ∧
      |Binary64.value (Binary64.ofQuotient pixels pdfPixelsPerInch) * 96 - pixels| <
        1 / 2 ^ 20 := by
  have hlog : pixels.log2 < 32 := (Nat.log2_lt (Nat.ne_of_gt hpos)).2 hlt
  obtain ⟨hfinite, hrounded⟩ := Binary64.value_ofQuotient (n := pixels) (d := pdfPixelsPerInch)
    (Nat.ne_of_gt hpos) (by decide) (by omega) (by decide)
  have hpixels : (pixels : ℚ) < 2 ^ 32 := by exact_mod_cast hlt
  have hinch : ((pdfPixelsPerInch : Nat) : ℚ) = 96 := rfl
  refine ⟨hfinite, ?_⟩
  rw [hinch, abs_le] at hrounded
  rw [abs_lt]
  constructor <;> linarith

/-- **The paper of a PDF is the viewport.** Without a format the print options give a paper that is
each side of the viewport, at 96 pixels an inch, to less than a millionth of a pixel. -/
theorem paper_pixels {request : PrintRequest} {viewport : Nat × Nat}
    (hformat : request.format = none)
    (hwidth : 0 < viewport.1 ∧ viewport.1 < 2 ^ 32)
    (hheight : 0 < viewport.2 ∧ viewport.2 < 2 ^ 32) :
    ∃ params width height, pdfPrintOptions request viewport = .ok params ∧
      params.get "paperWidth" = some (.number (.float width)) ∧
      params.get "paperHeight" = some (.number (.float height)) ∧
      |Binary64.value width * 96 - viewport.1| < 1 / 2 ^ 20 ∧
      |Binary64.value height * 96 - viewport.2| < 1 / 2 ^ 20 := by
  obtain ⟨hfinite, hside⟩ := paper_side hwidth.1 hwidth.2
  obtain ⟨hfinite', hside'⟩ := paper_side hheight.1 hheight.2
  have hpaper : request.paper viewport = .ok (Binary64.ofQuotient viewport.1 pdfPixelsPerInch,
      Binary64.ofQuotient viewport.2 pdfPixelsPerInch) := by
    rw [PrintRequest.paper, hformat]
  refine ⟨_, _, _, by rw [pdfPrintOptions, hpaper]; rfl, ?_, ?_, hside, hside'⟩
  · show some (Value.ofF64 _) = _
    rw [Value.ofF64, if_pos hfinite]
  · show some (Value.ofF64 _) = _
    rw [Value.ofF64, if_pos hfinite']

/-- The default paper. -/
theorem paper_pixels_default : ∃ params width height,
    pdfPrintOptions ⟨none, none, none, none, none, none, none, none, none, none, none, none⟩
      (1365, 768) = .ok params ∧
    params.get "paperWidth" = some (.number (.float width)) ∧
    params.get "paperHeight" = some (.number (.float height)) ∧
    |Binary64.value width * 96 - (1365 : Nat)| < 1 / 2 ^ 20 ∧
    |Binary64.value height * 96 - (768 : Nat)| < 1 / 2 ^ 20 :=
  paper_pixels rfl (by decide) (by decide)

end Eiger
