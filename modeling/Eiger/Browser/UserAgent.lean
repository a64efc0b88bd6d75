import Eiger.Browser.CommandLine

/-!
# The mark of a headless browser

A stealth profile is to hide that the browser is headless: `StealthProfile::chrome_args` replaces
each `HeadlessChrome` of the user agent by `Chrome`. That is one pass, and what it writes is not
read again. So a mark that is cut out can leave another one behind it, and does so just where there
was `Headless` before a mark: `chromeArgs_unmarked_iff`.
-/

namespace Eiger

open Text

/-- What the profile is not to say. -/
def headlessMark : String := "HeadlessChrome"

/-- A text has the mark. -/
def Marked (text : String) : Prop := headlessMark.toList <:+: text.toList

instance (text : String) : Decidable (Marked text) := inferInstanceAs (Decidable (_ <:+: _))

/-- No argument of the profile has the mark. -/
def StealthProfile.Unmarked (profile : StealthProfile) : Prop :=
  ∀ arg ∈ profile.chromeArgs, ¬ Marked arg

/-- The user agent that a profile gives Chrome, before the marks are taken out of it. -/
def StealthProfile.agent (profile : StealthProfile) : String :=
  profile.userAgent.getD defaultUserAgent

/-- A user agent has a mark that is left when its marks are taken out. -/
def Doubled (agent : String) : Prop := "HeadlessHeadlessChrome".toList <:+: agent.toList

instance (agent : String) : Decidable (Doubled agent) := inferInstanceAs (Decidable (_ <:+: _))

/-- A text without the letter that the mark starts with has no mark. -/
theorem not_marked {text : String} (h : 'H' ∉ text.toList) : ¬ Marked text := by
  intro hmark
  exact h (hmark.subset List.mem_cons_self)

/-- The window size has none. -/
theorem windowSize_unmarked (width height : Nat) :
    ¬ Marked ("--window-size=" ++ Nat.repr width ++ "," ++ Nat.repr height) := by
  refine not_marked ?_
  rw [String.toList_append, String.toList_append, String.toList_append]
  simp only [List.mem_append, not_or]
  exact ⟨⟨⟨by decide, not_mem_repr (by decide) width⟩, by decide⟩, not_mem_repr (by decide) height⟩

/-- The switch of the user agent has the mark just if the user agent has. -/
theorem marked_userAgent_iff (agent : String) :
    Marked ("--user-agent=" ++ agent) ↔ Marked agent := by
  rw [Marked, Marked, String.toList_append]
  constructor
  · exact Replace.occurs_of_append (by decide)
  · intro h
    exact h.trans (List.suffix_append _ _).isInfix

/-- The user agent has a mark, after the marks have been taken out, just where it was doubled. -/
theorem marked_replaceAll_iff (agent : String) :
    Marked (replaceAll agent headlessMark "Chrome") ↔ Doubled agent := by
  rw [Marked, Doubled, replaceAll, String.toList_ofList]
  exact @Replace.infix_replaceAll_iff Char agent.toList 'H' _ 'C' "eadless".toList "hrome".toList
    (by decide) (by decide) (by decide)

/-- No argument of an enabled profile has the mark just if its user agent has no mark after one more
`Headless`. -/
theorem chromeArgs_unmarked_iff (profile : StealthProfile) (henabled : profile.enabled = true) :
    profile.Unmarked ↔ ¬ Doubled profile.agent := by
  have hfeature : ¬ Marked "--disable-blink-features=AutomationControlled" :=
    not_marked (by decide)
  have hagent := (marked_userAgent_iff _).trans (marked_replaceAll_iff profile.agent)
  rw [StealthProfile.Unmarked, StealthProfile.chromeArgs, if_neg (not_not_intro henabled)]
  simp only [List.forall_mem_cons, List.not_mem_nil, false_implies, implies_true, and_true]
  constructor
  · intro h
    exact mt hagent.2 h.2.2
  · intro h
    exact ⟨hfeature, windowSize_unmarked _ _, mt hagent.1 h⟩

/-- A mark that is there once is taken out. -/
theorem chromeArgs_unmarked_once :
    (StealthProfile.new true (some "Mozilla/5.0 HeadlessChrome/124.0.0.0")).Unmarked := by
  refine (chromeArgs_unmarked_iff
    (.new true (some "Mozilla/5.0 HeadlessChrome/124.0.0.0")) rfl).2 ?_
  decide

/-- Of a doubled mark, a mark is left. -/
theorem chromeArgs_marked :
    ¬ ∀ profile : StealthProfile, profile.enabled = true → profile.Unmarked := by
  intro h
  refine h (.new true (some "Mozilla/5.0 HeadlessHeadlessChrome/124.0.0.0")) rfl
    "--user-agent=Mozilla/5.0 HeadlessChrome/124.0.0.0" ?_ (by decide)
  decide

end Eiger
