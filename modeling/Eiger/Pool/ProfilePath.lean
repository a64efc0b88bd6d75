import Eiger.Lib.Path
import Eiger.Pool.Types

/-!
# The path of a profile

`profile_path` puts a persistent profile id below the profile storage directory, for the ids that it
accepts. These are names of directory entries, so that an id is the name of one entry of the
storage directory, and ids that are not the same do not share it.
-/

namespace Eiger

open Text UnixPath

/-- The text is the id of a profile: it is the name of a directory. -/
def ProfileId (id : String) : Prop :=
  id ≠ "" ∧ id ≠ "." ∧ id ≠ ".." ∧ ∀ c ∈ id.toList, profileIdChar c = true

/-- The id of a profile has no separator in it. -/
theorem ProfileId.not_mem_separator {id : String} (h : ProfileId id) : '/' ∉ id.toList :=
  fun hmem => absurd (h.2.2.2 '/' hmem) (by decide)

/-- It is a name. -/
theorem ProfileId.isName {id : String} (h : ProfileId id) : IsName id :=
  ⟨h.1, h.2.1, h.2.2.1, h.not_mem_separator⟩

/-- `profile_path` accepts the ids of profiles, trimmed. -/
theorem profilePath_ok {base path : PathBuf} {id : String} (h : profilePath base id = .ok path) :
    ProfileId (trim id) ∧ path = base.join (trim id) := by
  simp only [profilePath] at h
  split at h
  · cases h
  · next hid =>
    simp only [not_or, Decidable.not_not, List.all_eq_true] at hid
    exact ⟨hid, (Except.ok.inj h).symm⟩

/-- It accepts all of them. -/
theorem profilePath_of_profileId {id : String} (h : ProfileId (trim id)) (base : PathBuf) :
    profilePath base id = .ok (base.join (trim id)) := by
  refine if_neg ?_
  rintro (hempty | hcurrent | hparent | hchar)
  · exact h.1 hempty
  · exact h.2.1 hcurrent
  · exact h.2.2.1 hparent
  · exact hchar (List.all_eq_true.2 h.2.2.2)

section

variable {base name : String}

/-- What is joined to a path that has a separator at its end comes right after it. -/
theorem PathBuf.join_separator (dir : String) (hname : IsName name) :
    PathBuf.join (dir ++ "/") name = dir ++ "/" ++ name := by
  have hlast : (dir ++ "/").toList.getLast? = some '/' := by
    rw [String.toList_append]
    exact List.getLast?_concat
  have hrelative : name.toList.head? ≠ some '/' := of_decide_eq_false hname.isAbsolute
  rw [join, if_neg hrelative, hlast]
  rfl

/-- Another path gets a separator, if it is not empty. -/
theorem PathBuf.join_other (hbase : base ≠ "") (hlast : base.toList.getLast? ≠ some '/')
    (hname : IsName name) : PathBuf.join base name = base ++ "/" ++ name := by
  have hrelative : name.toList.head? ≠ some '/' := of_decide_eq_false hname.isAbsolute
  have hopen : base.toList.getLast?.all (· == '/') = false := by
    cases hc : base.toList.getLast? with
    | none => exact absurd (String.toList_eq_nil_iff.1 (List.getLast?_eq_none_iff.1 hc)) hbase
    | some c => exact beq_false_of_ne fun heq => hlast (heq ▸ hc)
  rw [join, if_neg hrelative, hopen, if_neg Bool.false_ne_true]

/-- A name that is joined to a path is one more component of it, at the empty path and the root
too. -/
theorem PathBuf.components_join (base : PathBuf) (hname : IsName name) :
    components (base.join name) = components base ++ [.normal name] ∧
      isAbsolute (base.join name) = isAbsolute base := by
  by_cases hbase : base = ""
  · have hjoin : PathBuf.join "" name = name := by
      rw [join, if_neg (of_decide_eq_false hname.isAbsolute)]
      exact String.empty_append
    rw [hbase, hjoin]
    exact ⟨hname.components, hname.isAbsolute⟩
  by_cases hlast : base.toList.getLast? = some '/'
  · obtain ⟨front, hfront⟩ := List.getLast?_eq_some_iff.1 hlast
    have hdir : base = String.ofList front ++ "/" := by
      rw [← String.toList_inj, String.toList_append, String.toList_ofList, hfront]
      rfl
    rw [hdir, join_separator _ hname]
    refine ⟨?_, isAbsolute_append (hdir ▸ hbase) name⟩
    by_cases hroot : String.ofList front = ""
    · rw [hroot]
      exact components_root hname
    · rw [components_child hroot hname, components_separator hroot]
  · rw [join_other hbase hlast hname]
    refine ⟨components_child hbase hname, ?_⟩
    rw [String.append_assoc]
    exact isAbsolute_append hbase _

/-- So a name that is joined to a directory's path gives that of an entry of it. -/
theorem PathBuf.join_isChild (base : PathBuf) (hname : IsName name) :
    IsChild base name (base.join name) where
  isName := hname
  components := (components_join base hname).1
  parent := parent_of_components (components_join base hname).1
  absolute := (components_join base hname).2

end

/-- `profile_path` accepts an id just if it is, trimmed, that of a profile. The path that it gives
is that of the entry of the base directory with the id, trimmed, as its name. For another id it is
the same, as a text or as a path, just if the two are the same, trimmed. -/
theorem profilePath_child (base : PathBuf) (id : String) :
    ((∃ path, profilePath base id = .ok path) ↔ ProfileId (trim id)) ∧
      (∀ path, profilePath base id = .ok path → IsChild base (trim id) path) ∧
      ∀ other path otherPath, profilePath base id = .ok path →
        profilePath base other = .ok otherPath →
        (path = otherPath ↔ trim id = trim other) ∧
        (components path = components otherPath ↔ trim id = trim other) := by
  have hchild : ∀ id path, profilePath base id = .ok path → IsChild base (trim id) path := by
    intro id path h
    obtain ⟨hid, rfl⟩ := profilePath_ok h
    exact PathBuf.join_isChild base hid.isName
  refine ⟨⟨?_, fun h => ⟨_, profilePath_of_profileId h base⟩⟩, hchild id, ?_⟩
  · rintro ⟨path, h⟩
    exact (profilePath_ok h).1
  · intro other path otherPath h hother
    have hsame : trim id = trim other → path = otherPath := by
      intro htrim
      rw [(profilePath_ok h).2, (profilePath_ok hother).2, htrim]
    have hname := (hchild id path h).name_eq (hchild other otherPath hother)
    exact ⟨⟨fun hpath => hname (congrArg components hpath), hsame⟩,
      ⟨hname, fun htrim => congrArg components (hsame htrim)⟩⟩

/-- The theorem at an id with blanks around it, below the root. -/
theorem profilePath_child_team :
    ∃ path, profilePath "/" "\u2003team_1.dev\n" = .ok path ∧
      components path = [.rootDir, .normal "team_1.dev"] ∧
      parent path = some [.rootDir] := by
  have hchild := (profilePath_child "/" "\u2003team_1.dev\n").2.1 _ rfl
  exact ⟨_, rfl, hchild.components, hchild.parent⟩

end Eiger
