import Eiger.Api.Overrides

/-!
# The precedence of overrides

A field of the overrides may come from the body, from the query or from the launch JSON in the
query. `session_overrides` merges each field by a chain of its own; all of them take the first
source that has a usable value (`FirstUsable`), so that a source with a blank text, or with a list
of which nothing is left once it is cleaned, does not hide the next one: `overrides_precedence`.
-/

namespace Eiger

open Json Text

/-! ## The first usable value -/

section

variable {α β : Type} {usable : α → Option β} {sources : List (Option α)} {result : Option β}

/-- The result is what the first source with a usable value has, or nothing where there is none. -/
inductive FirstUsable (usable : α → Option β) : List (Option α) → Option β → Prop where
  | found (before : List (Option α)) (value : α) (after : List (Option α)) (b : β)
      (hbefore : ∀ source ∈ before, source.bind usable = none) (hvalue : usable value = some b) :
      FirstUsable usable (before ++ some value :: after) (some b)
  | missing (sources : List (Option α)) (hnone : ∀ source ∈ sources, source.bind usable = none) :
      FirstUsable usable sources none

/-- There is one, and a search finds it. -/
theorem firstUsable_findSome : FirstUsable usable sources (sources.findSome? (·.bind usable)) := by
  cases hfound : sources.findSome? (·.bind usable) with
  | none => exact .missing sources (List.findSome?_eq_none_iff.1 hfound)
  | some b =>
    obtain ⟨before, source, after, rfl, hsource, hbefore⟩ := List.findSome?_eq_some_iff.1 hfound
    obtain ⟨value, rfl, hvalue⟩ := Option.bind_eq_some_iff.1 hsource
    exact .found before value after b hbefore hvalue

/-- A chain of alternatives over three sources is such a search. -/
theorem firstUsable_or {first second third : Option α} :
    FirstUsable usable [first, second, third]
      ((first.bind usable).or ((second.bind usable).or (third.bind usable))) := by
  have hsearch : [first, second, third].findSome? (·.bind usable) =
      (first.bind usable).or ((second.bind usable).or (third.bind usable)) := by
    rw [List.findSome?_cons, List.findSome?_cons, List.findSome?_singleton]
    cases first.bind usable with
    | some b => rfl
    | none => cases second.bind usable <;> rfl
  rw [← hsearch]
  exact firstUsable_findSome

end

/-! ## What is usable -/

/-- A text is used trimmed, unless it is blank. -/
def usableText (text : String) : Option String := if isBlank text then none else some (trim text)

/-- A list of paths is used unless it is empty. -/
def usablePaths (paths : List PathBuf) : Option (List PathBuf) :=
  if paths = [] then none else some paths

/-- The paths in a query string: the parts between commas, trimmed, without those that are blank. -/
def queryPaths (text : String) : List PathBuf := commaSeparated text

/-- The paths in a JSON list: those that are not empty. -/
def jsonPaths (paths : List PathBuf) : List PathBuf := paths.filter (· ≠ "")

/-- The launch value of a query is blank, and nothing is read from it, or it is the JSON text of
this launch query. -/
def LaunchReads (codec : BodyCodec) (raw : Option String) (launch : Option LaunchQuery) : Prop :=
  ((∀ text, raw = some text → isBlank text = true) ∧ launch = none) ∨
    ∃ text value read, raw = some text ∧ isBlank text = false ∧
      codec.json.fromStr text = .ok value ∧ codec.launch value = .ok read ∧ launch = some read

/-- The overrides are those of these three sources, each field by the same precedence: body, query,
launch. -/
structure Precedence (payload : Option CreateSessionRequest) (query : SessionQuery)
    (launch : Option LaunchQuery) (overrides : SessionOverrides) : Prop where
  stealthEnabled : FirstUsable some
    [payload.bind (·.stealthEnabled), query.stealth, launch.bind (·.stealth)]
    overrides.stealthEnabled
  proxy : FirstUsable usableText
    [payload.bind (·.proxy), query.proxy, launch.bind (·.proxy)] overrides.proxy
  persistentProfileId : FirstUsable usableText
    [payload.bind (·.persistentProfileId), query.persistentProfileId,
      launch.bind (·.persistentProfileId)] overrides.persistentProfileId
  extensionPaths : ∃ paths, FirstUsable usablePaths
    [(payload.bind (·.extensionPaths)).map jsonPaths, query.extensionPaths.map queryPaths,
      (launch.bind (·.extensionPaths)).map jsonPaths] paths ∧
    overrides.extensionPaths = paths.getD []
  extraChromeArgs : overrides.extraChromeArgs =
    (launch.bind (·.args)).getD [] ++ (payload.bind (·.extraChromeArgs)).getD []

section

variable {codec : BodyCodec} {query : SessionQuery} {launch : Option LaunchQuery}
  {payload : Option CreateSessionRequest}

/-- `trimmed_optional` has what is usable of a text. -/
theorem trimmedOptional_eq (value : Option String) :
    trimmedOptional value = value.bind usableText := by
  cases value with
  | none => rfl
  | some text =>
    unfold trimmedOptional
    rw [Option.map_some, Option.bind_some, usableText, isBlank, Option.filter_some]
    split
    · next h => simp_all
    · next h => simp_all

/-- A launch value that can be read is read. -/
theorem parseLaunchQuery_ok (h : LaunchReads codec query.launch launch) :
    parseLaunchQuery codec query.launch = .ok launch := by
  rw [parseLaunchQuery]
  obtain ⟨hblank, rfl⟩ | ⟨text, value, read, hraw, hblank, hvalue, hread, rfl⟩ := h
  · have hnone : query.launch.filter (!isBlank ·) = none := by
      rw [Option.filter_eq_none_iff]
      intro text htext
      rw [hblank text htext]
      exact Bool.false_ne_true
    rw [hnone]
  · have hsome : query.launch.filter (!isBlank ·) = some text := by
      rw [hraw, Option.filter_some, hblank]
      rfl
    rw [hsome]
    simp only
    rw [hvalue]
    simp only
    rw [hread]

/-- The paths of the first of three lists that is not empty. -/
theorem firstUsable_paths {first second third : Option (List PathBuf)} :
    ∃ paths, FirstUsable usablePaths [first, second, third] paths ∧
      (if first.getD [] ≠ [] then first.getD [] else
        if second.getD [] ≠ [] then second.getD [] else third.getD []) = paths.getD [] := by
  refine ⟨_, firstUsable_or, ?_⟩
  have hbind : ∀ source : Option (List PathBuf), source.bind usablePaths =
      if source.getD [] = [] then none else some (source.getD []) := by
    rintro (_ | paths) <;> rfl
  rw [hbind, hbind, hbind]
  split
  · rfl
  · next hfirst =>
    rw [if_pos (not_not.1 hfirst), Option.none_or]
    split
    · rfl
    · next hsecond =>
      rw [if_pos (not_not.1 hsecond), Option.none_or]
      split
      · next h => rw [h]; rfl
      · rfl

/-- The paths of a query string. -/
theorem parseQueryExtensionPaths_eq (value : Option String) :
    parseQueryExtensionPaths value = (value.map queryPaths).getD [] := by
  cases value <;> rfl

/-- What is derived from the three sources follows the precedence. -/
theorem overridesOf_precedence :
    Precedence payload query launch (overridesOf query launch payload) where
  stealthEnabled := by
    have h := @firstUsable_or _ _ some (payload.bind (·.stealthEnabled)) query.stealth
      (launch.bind (·.stealth))
    simp only [Option.bind_fun_some] at h
    exact h
  proxy := by
    rw [overridesOf]
    simp only [trimmedOptional_eq, ← Option.bind_assoc]
    exact firstUsable_or
  persistentProfileId := by
    rw [overridesOf]
    simp only [trimmedOptional_eq, ← Option.bind_assoc]
    exact firstUsable_or
  extensionPaths := by
    rw [overridesOf]
    simp only [parseQueryExtensionPaths_eq]
    exact firstUsable_paths
  extraChromeArgs := rfl

/-- A body without any field changes nothing. -/
theorem overridesOf_absent :
    overridesOf query launch (some ⟨none, none, none, none, none⟩) =
      overridesOf query launch none := rfl

end

/-- **One precedence for all overrides.** With a launch value that is blank or can be read,
`session_overrides` takes every field from the first of body, query and launch that has a usable
value, and the Chrome arguments from the launch and then the body. A body without any field is as
good as none. -/
theorem overrides_precedence (codec : BodyCodec) (query : SessionQuery)
    (launch : Option LaunchQuery) (payload : Option CreateSessionRequest)
    (hlaunch : LaunchReads codec query.launch launch) :
    (∃ overrides, sessionOverrides codec query payload = .ok overrides ∧
      Precedence payload query launch overrides) ∧
    sessionOverrides codec query (some ⟨none, none, none, none, none⟩) =
      sessionOverrides codec query none := by
  have hparse : parseLaunchQuery codec query.launch = .ok launch := parseLaunchQuery_ok hlaunch
  refine ⟨⟨overridesOf query launch payload, ?_, overridesOf_precedence⟩, ?_⟩
  · rw [sessionOverrides, hparse]
    rfl
  · rw [sessionOverrides, sessionOverrides, hparse]
    exact congrArg Except.ok overridesOf_absent

/-- A blank proxy in the body does not hide the one in the query. -/
theorem overrides_precedence_blank :
    (∃ overrides, sessionOverrides (.reference emptyCodec)
        { SessionQuery.ofToken none with launch := some " ", proxy := some "http://proxy:8080 " }
        (some ⟨none, none, some "  ", none, none⟩) = .ok overrides ∧
      Precedence (some ⟨none, none, some "  ", none, none⟩)
        { SessionQuery.ofToken none with launch := some " ", proxy := some "http://proxy:8080 " }
        none overrides) ∧
    sessionOverrides (.reference emptyCodec)
        { SessionQuery.ofToken none with launch := some " ", proxy := some "http://proxy:8080 " }
        (some ⟨none, none, none, none, none⟩) =
      sessionOverrides (.reference emptyCodec)
        { SessionQuery.ofToken none with launch := some " ", proxy := some "http://proxy:8080 " }
        none := by
  refine overrides_precedence _ _ none _ (.inl ⟨?_, rfl⟩)
  rintro text htext
  cases htext
  rfl

end Eiger
