import Eiger.Lib.Outcome
import Eiger.Lib.Text
import Eiger.Lib.Worklist
import Eiger.Pool.Types
import Mathlib.Algebra.GroupWithZero.Nat
import Mathlib.Algebra.Order.BigOperators.Group.List
import Mathlib.Data.Set.Card

/-!
# Sampling a process tree

`sample_process_tree` runs `ps` and parses the table of processes that it writes. From the pid that
it is asked for, it collects the pids of all descendants in a list that it scans while the list
grows, and adds up their rows. It returns the sum over exactly the rows that can be reached from the
root (`sampleTree_closure`), whatever the order of the rows and whether or not the parents make a
forest. Where `ps` ends without success, `sample_process` asks it for the one process.

The CPU shares are left out, as in `ProcessSample`; a row has to have one that parses.
-/

namespace Eiger

open Text Relation

/-- A process id, a `u32`. -/
abbrev Pid := Nat

/-- What comes of running `ps`: it cannot be started, or it ends, with success or without, and has
written this. -/
inductive PsOutput where
  | notStarted
  | ended (success : Bool) (stdout : String)
  deriving DecidableEq, Repr

/-- A row of the table, as parsed. -/
structure ParsedRow where
  childPid : Pid
  parentPid : Pid
  rssKb : Nat
  deriving DecidableEq, Repr

/-- An element of `rows`. -/
structure ProcessRow where
  childPid : Pid
  parentPid : Pid
  rssBytes : Nat
  deriving DecidableEq, Repr

/-- The lines of what `ps` has written that are not blank. -/
def tableLines (stdout : String) : List String := (lines stdout).filter (! isBlank ·)

/-- A line, each of its parts parsed in turn. A line without one of them is passed over. -/
def parseRow (line : String) : Option ParsedRow :=
  match splitWhitespace line with
  | child :: parent :: rss :: cpu :: _ => do
    let childPid ← parseUnsigned (2 ^ 32) child
    let parentPid ← parseUnsigned (2 ^ 32) parent
    let rssKb ← parseUnsigned (2 ^ 64) rss
    if isFloat cpu then some { childPid, parentPid, rssKb } else none
  | _ => none

/-- The rows that are pushed, with their sizes in bytes. -/
def pushRows (overflowChecks : Bool) : List ParsedRow → Outcome Empty (List ProcessRow)
  | [] => return []
  | row :: table => do
    let rssBytes ← .unsigned overflowChecks (2 ^ 64) (row.rssKb * 1024)
    let rows ← pushRows overflowChecks table
    return { childPid := row.childPid, parentPid := row.parentPid, rssBytes } :: rows

/-- The pids found from the root, in the order in which they are. -/
def descendantsOf (rows : List ProcessRow) (pid : Pid) : List Pid :=
  Worklist.scan (rows.map fun row => (row.parentPid, row.childPid)) [pid] 0

/-- The last loop: the size and the number of the rows of descendants. -/
def addRows (overflowChecks : Bool) (descendants : List Pid) :
    List ProcessRow → Nat → Nat → Outcome Empty (Nat × Nat)
  | [], rssBytes, processCount => return (rssBytes, processCount)
  | row :: rows, rssBytes, processCount =>
    if row.childPid ∈ descendants then do
      let rssBytes ← .unsigned overflowChecks (2 ^ 64) (rssBytes + row.rssBytes)
      addRows overflowChecks descendants rows rssBytes (processCount + 1)
    else addRows overflowChecks descendants rows rssBytes processCount

/-- `sample_process_tree`, from its parsed rows on. -/
def sampleTree (overflowChecks : Bool) (rows : List ProcessRow) (pid : Pid) :
    Outcome Empty (Option ProcessSample) :=
  if rows.any (·.childPid == pid) then do
    let (rssBytes, processCount) ← addRows overflowChecks (descendantsOf rows pid) rows 0 0
    return some { pid, rssBytes, processCount }
  else return none

/-- `sample_process`, at the line that it takes. -/
def sampleLine (overflowChecks : Bool) (pid : Pid) (line : String) :
    Outcome Empty (Option ProcessSample) :=
  match splitWhitespace line with
  | rss :: cpu :: _ =>
    match parseUnsigned (2 ^ 64) rss with
    | none => return none
    | some rssKb =>
      if isFloat cpu then do
        let rssBytes ← .unsigned overflowChecks (2 ^ 64) (rssKb * 1024)
        return some { pid, rssBytes, processCount := 1 }
      else return none
  | _ => return none

/-- `sample_process`, at what comes of its `ps`. It takes the first line that is not blank. -/
def sampleProcess (overflowChecks : Bool) (pid : Pid) :
    PsOutput → Outcome Empty (Option ProcessSample)
  | .notStarted => return none
  | .ended false _ => return none
  | .ended true stdout =>
    match tableLines stdout with
    | [] => return none
    | line :: _ => sampleLine overflowChecks pid line

/-- `sample_process_tree`, at what comes of its `ps`, and of that of `sample_process`. -/
def sampleProcessTree (overflowChecks : Bool) (pid : Pid) (table single : PsOutput) :
    Outcome Empty (Option ProcessSample) :=
  match table with
  | .notStarted => return none
  | .ended false _ => sampleProcess overflowChecks pid single
  | .ended true stdout => do
    let rows ← pushRows overflowChecks ((tableLines stdout).filterMap parseRow)
    sampleTree overflowChecks rows pid

/-! ## What the loops compute -/

section

variable {overflowChecks : Bool}

/-- The sizes that are pushed are the exact ones, up to wrapping. -/
theorem pushRows_ok {table : List ParsedRow} {rows : List ProcessRow}
    (h : pushRows overflowChecks table = .ok rows) : rows = table.map fun row =>
      { childPid := row.childPid, parentPid := row.parentPid,
        rssBytes := row.rssKb * 1024 % 2 ^ 64 } := by
  induction table generalizing rows with
  | nil =>
    cases h
    rfl
  | cons row table ih =>
    rw [pushRows, Outcome.bind_eq_ok_iff] at h
    obtain ⟨rssBytes, hbytes, h⟩ := h
    obtain ⟨others, hothers, h⟩ := Outcome.bind_eq_ok_iff.1 h
    cases h
    rw [List.map_cons, ← ih hothers, Outcome.eq_mod_of_unsigned hbytes]

/-- The last loop adds up the rows of descendants, where the sum is a `u64`. -/
theorem addRows_eq {descendants : List Pid} {rows : List ProcessRow} {rssBytes count : Nat}
    (h : rssBytes + ((rows.filter (·.childPid ∈ descendants)).map (·.rssBytes)).sum < 2 ^ 64) :
    addRows overflowChecks descendants rows rssBytes count =
      .ok (rssBytes + ((rows.filter (·.childPid ∈ descendants)).map (·.rssBytes)).sum,
        count + (rows.filter (·.childPid ∈ descendants)).length) := by
  induction rows generalizing rssBytes count with
  | nil => rfl
  | cons row rows ih =>
    rw [addRows]
    split
    · next hrow =>
      rw [List.filter_cons_of_pos (by simpa using hrow), List.map_cons, List.sum_cons,
        ← Nat.add_assoc] at h ⊢
      have hfirst : rssBytes + row.rssBytes < 2 ^ 64 := Nat.lt_of_le_of_lt (Nat.le_add_right _ _) h
      rw [Outcome.unsigned_of_lt hfirst, Outcome.ok_bind, ih h, List.length_cons]
      congr 2
      omega
    · next hrow =>
      rw [List.filter_cons_of_neg (by simpa using hrow)] at h ⊢
      exact ih h

/-- Only for a root without a row there is no sample. -/
theorem sampleTree_none_iff {rows : List ProcessRow} {pid : Pid} :
    sampleTree overflowChecks rows pid = .ok none ↔ ∀ row ∈ rows, row.childPid ≠ pid := by
  rw [sampleTree]
  split
  · next hrow =>
    rw [List.any_eq_true] at hrow
    obtain ⟨row, hrow, hpid⟩ := hrow
    refine ⟨fun h => ?_, fun h => (h row hrow (beq_iff_eq.1 hpid)).elim⟩
    obtain ⟨_, -, h⟩ := Outcome.bind_eq_ok_iff.1 h
    cases h
  · next hrow =>
    refine ⟨fun _ row hmem hpid => hrow ?_, fun _ => rfl⟩
    exact List.any_eq_true.2 ⟨row, hmem, beq_iff_eq.2 hpid⟩

end

/-! ## The process tree -/

/-- A process is a child of another in the table. -/
def ChildOf (table : List ParsedRow) (parent child : Pid) : Prop :=
  ∃ row ∈ table, row.parentPid = parent ∧ row.childPid = child

/-- A process can be reached from another by child edges, none or more. -/
def Descends (table : List ParsedRow) : Pid → Pid → Prop := ReflTransGen (ChildOf table)

/-- The pids of the tree of a root. -/
def treePids (table : List ParsedRow) (root : Pid) : Set Pid := {pid | Descends table root pid}

open Classical in
/-- The rows of the tree of a root. -/
noncomputable def treeRows (table : List ParsedRow) (root : Pid) : List ParsedRow :=
  table.filter fun row => Descends table root row.childPid

/-- The size of the tree of a root, in bytes. -/
noncomputable def treeBytes (table : List ParsedRow) (root : Pid) : Nat :=
  ((treeRows table root).map (·.rssKb * 1024)).sum

section

variable {overflowChecks : Bool} {table : List ParsedRow} {rows : List ProcessRow} {pid : Pid}

/-- The walk finds the pids of the tree. -/
theorem mem_descendantsOf (hrows : pushRows overflowChecks table = .ok rows) {other : Pid} :
    other ∈ descendantsOf rows pid ↔ Descends table pid other := by
  have hedge : Worklist.Edge (rows.map fun row => (row.parentPid, row.childPid)) =
      ChildOf table := by
    funext parent child
    rw [Worklist.Edge, pushRows_ok hrows, List.map_map, eq_iff_iff, List.mem_map]
    simp [ChildOf]
  rw [descendantsOf, Worklist.mem_scan_iff, hedge, Descends]

/-- The rows that are added up are those of the tree. -/
theorem filter_descendantsOf (hrows : pushRows overflowChecks table = .ok rows) :
    rows.filter (·.childPid ∈ descendantsOf rows pid) = (treeRows table pid).map fun row =>
      { childPid := row.childPid, parentPid := row.parentPid,
        rssBytes := row.rssKb * 1024 % 2 ^ 64 } := by
  have hfound : ∀ other, decide (other ∈ descendantsOf rows pid) = true ↔
      Descends table pid other := by
    intro other
    rw [decide_eq_true_iff, mem_descendantsOf hrows]
  generalize descendantsOf rows pid = descendants at hfound ⊢
  rw [pushRows_ok hrows, List.filter_map, treeRows]
  congr 1
  refine List.filter_congr fun row _ => ?_
  rw [Bool.eq_iff_iff]
  exact (hfound row.childPid).trans (@decide_eq_true_iff _ (Classical.propDecidable _)).symm

/-- In a tree of which the size is a `u64`, no size of a row wraps. -/
theorem treeRows_bytes (hsum : treeBytes table pid < 2 ^ 64) :
    (treeRows table pid).map (fun row => row.rssKb * 1024 % 2 ^ 64) =
      (treeRows table pid).map (·.rssKb * 1024) := by
  refine List.map_congr_left fun row hrow => Nat.mod_eq_of_lt ?_
  have hmem : row.rssKb * 1024 ∈ (treeRows table pid).map (·.rssKb * 1024) :=
    List.mem_map.2 ⟨row, hrow, rfl⟩
  exact Nat.lt_of_le_of_lt (List.le_sum_of_mem hmem) hsum

/-- Where the root has a row, so has every pid of its tree. -/
theorem exists_row (hroot : ∃ row ∈ table, row.childPid = pid) {other : Pid}
    (h : Descends table pid other) : ∃ row ∈ table, row.childPid = other := by
  cases h with
  | refl => exact hroot
  | tail _ hchild =>
    obtain ⟨row, hrow, -, hpid⟩ := hchild
    exact ⟨row, hrow, hpid⟩

/-- With distinct pids, a tree has as many rows as pids. -/
theorem length_treeRows (hdistinct : (table.map (·.childPid)).Nodup)
    (hroot : ∃ row ∈ table, row.childPid = pid) :
    (treeRows table pid).length = (treePids table pid).ncard := by
  have hnodup : ((treeRows table pid).map (·.childPid)).Nodup :=
    (List.filter_sublist.map _).nodup hdistinct
  have hpids : treePids table pid = ((treeRows table pid).map (·.childPid)).toFinset := by
    ext other
    simp only [treePids, treeRows, Set.mem_ofPred_eq, List.coe_toFinset, List.mem_map,
      List.mem_filter, decide_eq_true_eq]
    constructor
    · intro hother
      obtain ⟨row, hrow, rfl⟩ := exists_row hroot hother
      exact ⟨row, ⟨hrow, hother⟩, rfl⟩
    · rintro ⟨row, ⟨-, hother⟩, rfl⟩
      exact hother
  rw [hpids, Set.ncard_coe_finset, List.toFinset_card_of_nodup hnodup, List.length_map]

end

/-- **Sampling is the exact closure.** In every table, the walk from a root finds nothing exactly if
the root has no row. Where it has one, the pids are distinct and the sum of their rows is a `u64`,
the walk counts the pids that the root leads to through child edges, and adds up their rows, each
once. -/
theorem sampleTree_closure (overflowChecks : Bool) (table : List ParsedRow)
    (rows : List ProcessRow) (pid : Pid) (hrows : pushRows overflowChecks table = .ok rows) :
    (sampleTree overflowChecks rows pid = .ok none ↔ ∀ row ∈ table, row.childPid ≠ pid) ∧
    ((table.map (·.childPid)).Nodup → treeBytes table pid < 2 ^ 64 →
      (∃ row ∈ table, row.childPid = pid) →
      sampleTree overflowChecks rows pid = .ok (some
        { pid
          rssBytes := treeBytes table pid
          processCount := (treePids table pid).ncard })) := by
  have hrow : (∃ row ∈ rows, row.childPid = pid) ↔ ∃ row ∈ table, row.childPid = pid := by
    rw [pushRows_ok hrows]
    simp
  constructor
  · rw [sampleTree_none_iff]
    constructor
    · intro hno row hmem hpid
      obtain ⟨row, hmem, hpid⟩ := hrow.2 ⟨row, hmem, hpid⟩
      exact hno row hmem hpid
    · intro hno row hmem hpid
      obtain ⟨row, hmem, hpid⟩ := hrow.1 ⟨row, hmem, hpid⟩
      exact hno row hmem hpid
  · intro hdistinct hsum hroot
    have hbytes : ((rows.filter (·.childPid ∈ descendantsOf rows pid)).map (·.rssBytes)).sum =
        treeBytes table pid := by
      rw [filter_descendantsOf hrows, List.map_map]
      show ((treeRows table pid).map (fun row => row.rssKb * 1024 % 2 ^ 64)).sum = _
      rw [treeRows_bytes hsum]
      rfl
    have hcount : (rows.filter (·.childPid ∈ descendantsOf rows pid)).length =
        (treePids table pid).ncard := by
      rw [filter_descendantsOf hrows, List.length_map, length_treeRows hdistinct hroot]
    have hany : rows.any (·.childPid == pid) = true := by
      obtain ⟨row, hmem, hpid⟩ := hrow.2 hroot
      exact List.any_eq_true.2 ⟨row, hmem, beq_iff_eq.2 hpid⟩
    rw [sampleTree, if_pos hany, addRows_eq (by rw [hbytes, Nat.zero_add]; exact hsum), hbytes,
      hcount]
    simp

/-- The size of a tree is at most that of the table. -/
theorem treeBytes_le {table : List ParsedRow} {root : Pid} :
    treeBytes table root ≤ (table.map (·.rssKb * 1024)).sum :=
  (List.filter_sublist.map _).sum_le_sum fun _ _ => Nat.zero_le _

/-- Three processes that are each other's children, and one that is its own. -/
def cyclicTable : List ParsedRow := [⟨12, 11, 4⟩, ⟨1, 1, 2⟩, ⟨10, 12, 8⟩, ⟨11, 10, 16⟩]

/-- It is sampled without counting any process twice, from a root that has a row. -/
theorem sampleTree_cyclic :
    sampleTree true (cyclicTable.map fun row => ⟨row.childPid, row.parentPid, row.rssKb * 1024⟩) 10
      = .ok (some
        { pid := 10
          rssBytes := treeBytes cyclicTable 10
          processCount := (treePids cyclicTable 10).ncard }) ∧
    sampleTree true (cyclicTable.map fun row => ⟨row.childPid, row.parentPid, row.rssKb * 1024⟩) 9
      = .ok none :=
  ⟨(sampleTree_closure true cyclicTable _ 10 rfl).2 (by decide)
      (Nat.lt_of_le_of_lt treeBytes_le (by decide)) ⟨⟨10, 12, 8⟩, by decide, rfl⟩,
    (sampleTree_closure true cyclicTable _ 9 rfl).1.2 (by decide)⟩

end Eiger
