import Mathlib.Data.Finset.Card
import Mathlib.Logic.Relation

/-!
# A work list that grows while it is scanned

A scan takes the nodes of a list in order and puts at its end what each leads to, unless it is there
already. It ends, since no node is put there twice (`Budget`), and what it ends with is exactly what
the list led to at first, through any number of edges: `mem_scan_iff`. The edges are any list; they
may make cycles and lead from a node to itself.
-/

namespace Worklist

variable {α : Type} [DecidableEq α]

/-- What a node leads to is put at the end of the list, in the order of the edges, unless it is
there. -/
def discover (current : α) : List (α × α) → List α → List α
  | [], found => found
  | edge :: edges, found =>
    discover current edges
      (if edge.1 = current ∧ edge.2 ∉ found then found ++ [edge.2] else found)

/-- The nodes found, and those of the targets that are still missing. -/
def budget (targets : Finset α) (found : List α) : Nat :=
  (targets \ found.toFinset).card + found.length

/-- A target that is found is missing no more. -/
theorem budget_push {targets : Finset α} {found : List α} {x : α} (hx : x ∈ targets)
    (hnew : x ∉ found) : budget targets (found ++ [x]) = budget targets found := by
  have hmissing : targets \ (found ++ [x]).toFinset = (targets \ found.toFinset).erase x := by
    ext y
    simp only [List.toFinset_append, Finset.mem_sdiff, Finset.mem_union, List.mem_toFinset,
      List.mem_singleton, Finset.mem_erase, not_or]
    tauto
  have hmem : x ∈ targets \ found.toFinset := by
    rw [Finset.mem_sdiff, List.mem_toFinset]
    exact ⟨hx, hnew⟩
  have hpos : 0 < (targets \ found.toFinset).card := Finset.card_pos.2 ⟨x, hmem⟩
  rw [budget, budget, hmissing, Finset.card_erase_of_mem hmem, List.length_append,
    List.length_singleton]
  omega

/-- A look through the edges keeps the budget. -/
theorem budget_discover {targets : Finset α} {current : α} {edges : List (α × α)} {found : List α}
    (h : ∀ edge ∈ edges, edge.2 ∈ targets) :
    budget targets (discover current edges found) = budget targets found := by
  induction edges generalizing found with
  | nil => rfl
  | cons edge edges ih =>
    rw [List.forall_mem_cons] at h
    rw [discover, ih h.2]
    split
    · next hnew => exact budget_push h.1 hnew.2
    · rfl

/-- The nodes that edges lead to. -/
def targets (edges : List (α × α)) : Finset α := (edges.map (·.2)).toFinset

/-- The scan of a list, from a position on. -/
def scan (edges : List (α × α)) (found : List α) (cursor : Nat) : List α :=
  if h : cursor < found.length then
    scan edges (discover found[cursor] edges found) (cursor + 1)
  else found
  termination_by budget (targets edges) found - cursor
  decreasing_by
    have hbudget : budget (targets edges) (discover found[cursor] edges found) =
        budget (targets edges) found := by
      refine budget_discover fun edge hedge => ?_
      exact List.mem_toFinset.2 (List.mem_map_of_mem hedge)
    have hlength : found.length ≤ budget (targets edges) found := Nat.le_add_left _ _
    omega

/-- There is an edge from one node to the other. -/
def Edge (edges : List (α × α)) (x y : α) : Prop := (x, y) ∈ edges

/-! ## One node of the list -/

/-- After a look through the edges, the list has what it had and what the node leads to. -/
theorem mem_discover {current x : α} {edges : List (α × α)} {found : List α} :
    x ∈ discover current edges found ↔ x ∈ found ∨ Edge edges current x := by
  induction edges generalizing found with
  | nil => simp [discover, Edge]
  | cons edge edges ih =>
    obtain ⟨a, b⟩ := edge
    have hpush : (x ∈ if a = current ∧ b ∉ found then found ++ [b] else found) ↔
        x ∈ found ∨ (current, x) = (a, b) := by
      rw [Prod.mk.injEq]
      split
      · next hnew =>
        rw [List.mem_append, List.mem_singleton, hnew.1]
        exact or_congr_right (and_iff_right rfl).symm
      · next hold =>
        refine ⟨.inl, ?_⟩
        rintro (hx | ⟨rfl, rfl⟩)
        · exact hx
        · by_contra hx
          exact hold ⟨rfl, hx⟩
    rw [discover, ih, Edge, Edge, List.mem_cons, hpush, or_assoc]

/-- It starts as it did. -/
theorem prefix_discover {current : α} {edges : List (α × α)} {found : List α} :
    found <+: discover current edges found := by
  induction edges generalizing found with
  | nil => exact List.prefix_refl _
  | cons edge edges ih =>
    rw [discover]
    split
    · exact (List.prefix_append _ _).trans ih
    · exact ih

/-! ## The scan -/

/-- A scan adds to the list. -/
theorem prefix_scan {edges : List (α × α)} {found : List α} {cursor : Nat} :
    found <+: scan edges found cursor := by
  induction found, cursor using scan.induct edges with
  | case1 found cursor h ih =>
    rw [scan, dif_pos h]
    exact prefix_discover.trans ih
  | case2 found cursor h =>
    rw [scan, dif_neg h]

/-- What holds of the nodes of the list, and goes over edges, holds of all that a scan finds. -/
theorem forall_scan {edges : List (α × α)} {found : List α} {cursor : Nat} {p : α → Prop}
    (hedge : ∀ x y, p x → Edge edges x y → p y) (h : ∀ x ∈ found, p x) :
    ∀ x ∈ scan edges found cursor, p x := by
  induction found, cursor using scan.induct edges with
  | case1 found cursor hcursor ih =>
    rw [scan, dif_pos hcursor]
    refine ih fun x hx => ?_
    obtain hx | hx := mem_discover.1 hx
    · exact h x hx
    · exact hedge _ x (h _ (List.getElem_mem hcursor)) hx
  | case2 found cursor hcursor =>
    rw [scan, dif_neg hcursor]
    exact h

/-- What a scan ends with is closed: it has what its nodes lead to. The invariant is that the list
has what those before the cursor lead to. -/
theorem scan_closed {edges : List (α × α)} {found : List α} {cursor : Nat}
    (h : ∀ x ∈ found.take cursor, ∀ y, Edge edges x y → y ∈ found) :
    ∀ x ∈ scan edges found cursor, ∀ y, Edge edges x y → y ∈ scan edges found cursor := by
  induction found, cursor using scan.induct edges with
  | case1 found cursor hcursor ih =>
    rw [scan, dif_pos hcursor]
    refine ih fun x hx y hy => ?_
    obtain ⟨more, hmore⟩ := @prefix_discover α _ found[cursor] edges found
    rw [← hmore, List.take_append_of_le_length hcursor, List.take_succ_eq_append_getElem hcursor,
      List.mem_append, List.mem_singleton] at hx
    obtain hx | rfl := hx
    · exact mem_discover.2 (.inl (h x hx y hy))
    · exact mem_discover.2 (.inr hy)
  | case2 found cursor hcursor =>
    rw [scan, dif_neg hcursor]
    rwa [List.take_of_length_le (Nat.le_of_not_lt hcursor)] at h

/-- **A scan finds exactly what its root leads to**, by any number of edges. -/
theorem mem_scan_iff {edges : List (α × α)} {root x : α} :
    x ∈ scan edges [root] 0 ↔ Relation.ReflTransGen (Edge edges) root x := by
  constructor
  · intro hx
    refine forall_scan (fun y z hy hz => hy.tail hz) ?_ x hx
    intro y hy
    rw [List.mem_singleton.1 hy]
  · intro hx
    induction hx with
    | refl => exact prefix_scan.subset (List.mem_singleton_self root)
    | tail _ hedge ih => exact scan_closed nofun _ ih _ hedge

end Worklist
