import Eiger.Lib.Text

/-!
# Unix paths

What the text of a path means on Unix, as Rust's `Path` reads it: its components, the parent, and
whether it is absolute. Two paths are equal just where their components are. Below a path there is
one more component, where what is appended is a name (`components_child`).
-/

namespace UnixPath

open Text

/-- `Component`, without the prefixes of Windows. -/
inductive Component where
  | rootDir
  | curDir
  | parentDir
  | normal (name : String)
  deriving DecidableEq, Repr

/-- The component of a part between separators. An empty part has none, and nor has a `.`. -/
def partComponent (part : String) : Option Component :=
  if part = "" ∨ part = "." then none
  else if part = ".." then some .parentDir
  else some (.normal part)

/-- `Path::is_absolute`: the path has a root. -/
def isAbsolute (path : String) : Bool := path.toList.head? = some '/'

/-- The component before those of the parts: the root, or a `.` at the start of a path without
one. -/
def leading (path : String) : List Component :=
  if isAbsolute path then [.rootDir]
  else if (splitChar '/' path).head? = some "." then [.curDir]
  else []

/-- `Path::components`. -/
def components (path : String) : List Component :=
  leading path ++ (splitChar '/' path).filterMap partComponent

example : components "/var//lib/./eiger/" =
    [.rootDir, .normal "var", .normal "lib", .normal "eiger"] := by decide
example : components "./../a" = [.curDir, .parentDir, .normal "a"] := by decide

/-- `Path::parent`, by its components. The root has no parent, and nor has the empty path. -/
def parent (path : String) : Option (List Component) :=
  match (components path).getLast? with
  | none | some .rootDir => none
  | some _ => some (components path).dropLast

/-- The text is the name of an entry of a directory. -/
structure IsName (name : String) : Prop where
  nonempty : name ≠ ""
  notCurrent : name ≠ "."
  notParent : name ≠ ".."
  noSeparator : '/' ∉ name.toList

/-- The path is that of the entry with this name in the directory: one normal component below it,
and absolute just if the directory's path is. -/
structure IsChild (base name path : String) : Prop where
  isName : IsName name
  components : components path = components base ++ [.normal name]
  parent : parent path = some (UnixPath.components base)
  absolute : isAbsolute path = isAbsolute base

section

variable {base name : String}

/-- The part that is a name is a component by itself. -/
theorem IsName.partComponent (h : IsName name) : partComponent name = some (.normal name) := by
  rw [UnixPath.partComponent, if_neg (not_or.2 ⟨h.nonempty, h.notCurrent⟩), if_neg h.notParent]

/-- A name is one part. -/
theorem IsName.splitChar (h : IsName name) : splitChar '/' name = [name] := by
  rw [Text.splitChar, List.splitOn_eq_singleton h.noSeparator, List.map_singleton,
    String.ofList_toList]

/-- A separator is between the parts before it and those after it. -/
theorem splitChar_append (base rest : String) :
    splitChar '/' (base ++ "/" ++ rest) = splitChar '/' base ++ splitChar '/' rest := by
  have htext : (base ++ "/" ++ rest).toList = base.toList ++ '/' :: rest.toList := by
    simp [String.toList_append]
  rw [splitChar, htext, List.splitOn_append_cons_self, List.map_append]
  rfl

/-- What comes after a separator does not make a path absolute. -/
theorem isAbsolute_append (hbase : base ≠ "") (rest : String) :
    isAbsolute (base ++ rest) = isAbsolute base := by
  obtain ⟨c, cs, hcons⟩ := List.exists_cons_of_ne_nil
    fun h : base.toList = [] => hbase (String.toList_eq_nil_iff.1 h)
  rw [isAbsolute, isAbsolute, String.toList_append, hcons, List.cons_append]
  rfl

/-- Nor does a name. -/
theorem IsName.isAbsolute (h : IsName name) : isAbsolute name = false := by
  refine decide_eq_false fun hhead => ?_
  exact h.noSeparator (List.mem_of_head? hhead)

/-- What comes after a separator has nothing to do with the component at the start. -/
theorem leading_append (hbase : base ≠ "") (rest : String) :
    leading (base ++ "/" ++ rest) = leading base := by
  have hroot : isAbsolute (base ++ "/" ++ rest) = isAbsolute base := by
    rw [String.append_assoc, isAbsolute_append hbase]
  have hparts : Text.splitChar '/' base ≠ [] := by
    rw [Text.splitChar, ne_eq, List.map_eq_nil_iff]
    exact List.splitOn_ne_nil _ _
  obtain ⟨first, parts, hcons⟩ := List.exists_cons_of_ne_nil hparts
  rw [leading, leading, hroot, splitChar_append, hcons, List.cons_append]
  rfl

/-- The components of a path that goes on after a separator. -/
theorem components_append (hbase : base ≠ "") (rest : String) :
    components (base ++ "/" ++ rest) =
      components base ++ (splitChar '/' rest).filterMap partComponent := by
  rw [components, components, leading_append hbase, splitChar_append, List.filterMap_append,
    List.append_assoc]

/-- A separator at the end changes nothing. -/
theorem components_separator (hbase : base ≠ "") : components (base ++ "/") = components base := by
  have hempty : (splitChar '/' "").filterMap partComponent = [] := by decide
  have happend := components_append hbase ""
  rw [hempty, List.append_nil, String.append_empty] at happend
  exact happend

/-- A name is a path of one component. -/
theorem IsName.components (h : IsName name) : components name = [.normal name] := by
  have hleading : leading name = [] := by
    rw [leading, h.isAbsolute, if_neg Bool.false_ne_true, h.splitChar, List.head?_cons]
    exact if_neg fun hdot => h.notCurrent (Option.some.inj hdot)
  rw [UnixPath.components, hleading, h.splitChar, List.filterMap_cons_some h.partComponent]
  rfl

/-- A name after a separator is one more component. -/
theorem components_child (hbase : base ≠ "") (h : IsName name) :
    components (base ++ "/" ++ name) = components base ++ [.normal name] := by
  rw [components_append hbase, h.splitChar, List.filterMap_cons_some h.partComponent]
  rfl

/-- At the root too. -/
theorem components_root (h : IsName name) :
    components ("/" ++ name) = components "/" ++ [.normal name] := by
  have hparts : splitChar '/' ("/" ++ name) = ["", name] := by
    have happend := splitChar_append "" name
    rw [h.splitChar, String.empty_append] at happend
    exact happend
  have hroot : leading ("/" ++ name) = [.rootDir] := by
    rw [leading, isAbsolute_append (by decide)]
    rfl
  have hempty : partComponent "" = none := rfl
  rw [UnixPath.components, hroot, hparts, List.filterMap_cons_none hempty,
    List.filterMap_cons_some h.partComponent]
  rfl

/-- The parent of a path with a normal component at its end has the components before it. -/
theorem parent_of_components {path : String} {above : List Component}
    (h : components path = above ++ [.normal name]) : parent path = some above := by
  rw [parent, h, List.getLast?_concat, List.dropLast_concat]

end

/-- Entries of one directory are the same only if their names are. -/
theorem IsChild.name_eq {base name other path otherPath : String}
    (h : IsChild base name path) (hother : IsChild base other otherPath)
    (hpath : UnixPath.components path = UnixPath.components otherPath) : name = other := by
  rw [h.components, hother.components, List.append_cancel_left_eq, List.cons.injEq,
    Component.normal.injEq] at hpath
  exact hpath.1

end UnixPath
