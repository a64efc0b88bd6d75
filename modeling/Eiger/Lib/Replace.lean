import Mathlib.Data.List.Basic
import Mathlib.Data.List.Infix

/-!
# Replacing the occurrences of a list

`replaceAll pat new` goes over a list once, from the left, and writes `new` for each occurrence of
`pat` that it comes to. It does not read what it has written, so `pat` may occur in the result: at
the edge of what was written for another occurrence.

Where `pat` is `u ++ new`, it so takes `u` away before `new`, and what it leaves is an occurrence of
`pat` just where there was `u ++ pat` (`infix_replaceAll_iff`), if the occurrences of `pat` and of
`new` can be told by their first elements.
-/

namespace Replace

variable {α : Type*} {pat new xs ys before tail : List α} {x h : α}

/-- What starts with an element that another list has not is not found across its end. -/
theorem occurs_of_append (hbefore : h ∉ before) (hoccurs : h :: tail <:+: before ++ xs) :
    h :: tail <:+: xs := by
  induction before with
  | nil => exact hoccurs
  | cons b before ih =>
    rw [List.mem_cons, not_or] at hbefore
    rw [List.cons_append, List.infix_cons_iff] at hoccurs
    obtain hstarts | hoccurs := hoccurs
    · exact absurd (List.cons_prefix_cons.1 hstarts).1 hbefore.1
    · exact ih hbefore.2 hoccurs

variable [DecidableEq α]

/-- One pass over a list, of which the first `skip` elements belong to an occurrence that has been
replaced. -/
def go (pat new : List α) : Nat → List α → List α
  | _, [] => []
  | skip + 1, _ :: xs => go pat new skip xs
  | 0, x :: xs =>
    if pat.isPrefixOf (x :: xs) then new ++ go pat new (pat.length - 1) xs
    else x :: go pat new 0 xs

/-- Replaces the occurrences of a list that is not empty. -/
def replaceAll (pat new xs : List α) : List α := go pat new 0 xs

/-- What is skipped is left out. -/
theorem go_eq_drop (skip : Nat) (xs : List α) :
    go pat new skip xs = replaceAll pat new (xs.drop skip) := by
  induction skip generalizing xs with
  | zero => rfl
  | succ skip ih =>
    cases xs with
    | nil => rfl
    | cons x xs => exact ih xs

/-- An occurrence is replaced as a whole. -/
theorem replaceAll_hit (hpat : pat ≠ []) (xs : List α) :
    replaceAll pat new (pat ++ xs) = new ++ replaceAll pat new xs := by
  cases pat with
  | nil => exact absurd rfl hpat
  | cons p pat =>
    have hstarts : (p :: pat).isPrefixOf (p :: (pat ++ xs)) = true :=
      List.isPrefixOf_iff_prefix.2 (List.prefix_append (p :: pat) xs)
    rw [List.cons_append, replaceAll, go, if_pos hstarts, go_eq_drop, List.length_cons,
      Nat.add_sub_cancel, List.drop_left]

/-- Where there is none, the pass goes on. -/
theorem replaceAll_miss (h : ¬ pat <+: x :: xs) :
    replaceAll pat new (x :: xs) = x :: replaceAll pat new xs := by
  rw [replaceAll, go, if_neg fun hstarts => h (List.isPrefixOf_iff_prefix.1 hstarts)]
  rfl

/-- The rule for a pass: each list is empty, starts with an occurrence, or with an element that does
not start one. -/
theorem induct {motive : List α → Prop} (hpat : pat ≠ []) (nil : motive [])
    (hit : ∀ xs, motive xs → motive (pat ++ xs))
    (miss : ∀ x xs, ¬ pat <+: x :: xs → motive xs → motive (x :: xs)) (xs : List α) :
    motive xs := by
  induction hn : xs.length using Nat.strongRecOn generalizing xs with
  | ind n ih =>
    cases xs with
    | nil => exact nil
    | cons x xs =>
      by_cases h : pat <+: x :: xs
      · obtain ⟨rest, hrest⟩ := h
        have hpos := List.length_pos_of_ne_nil hpat
        have hlength := congrArg List.length hrest
        rw [List.length_append] at hlength
        rw [← hrest]
        exact hit rest (ih rest.length (by omega) rest rfl)
      · refine miss x xs h (ih xs.length ?_ xs rfl)
        rw [← hn]
        exact Nat.lt_succ_self _

/-- A list that is too short for an occurrence stays as it is. -/
theorem replaceAll_short (h : xs.length < pat.length) : replaceAll pat new xs = xs := by
  induction xs with
  | nil => rfl
  | cons x xs ih =>
    have hmiss : ¬ pat <+: x :: xs := fun hstarts => by
      have hle := hstarts.length_le
      omega
    rw [replaceAll_miss hmiss, ih (by rw [List.length_cons] at h; omega)]

/-- An occurrence that has the first element once does not go on over that element. -/
theorem replaceAll_append (htail : h ∉ tail) (xs ys : List α) :
    replaceAll (h :: tail) new (xs ++ h :: ys) =
      replaceAll (h :: tail) new xs ++ replaceAll (h :: tail) new (h :: ys) := by
  induction xs using induct (List.cons_ne_nil h tail) with
  | nil => rfl
  | hit xs ih =>
    rw [List.append_assoc, replaceAll_hit (List.cons_ne_nil _ _),
      replaceAll_hit (List.cons_ne_nil _ _), ih, List.append_assoc]
  | miss x xs hmiss ih =>
    have hmiss' : ¬ h :: tail <+: x :: (xs ++ h :: ys) := by
      intro hstarts
      obtain hle | ⟨rest, hrest⟩ :=
        List.prefix_or_prefix_of_prefix hstarts (List.prefix_append (x :: xs) (h :: ys))
      · exact hmiss hle
      · cases rest with
        | nil => exact hmiss ⟨[], by rw [List.append_nil, ← hrest, List.append_nil]⟩
        | cons y rest =>
          rw [← hrest, ← List.cons_append, List.prefix_append_right_inj] at hstarts
          obtain ⟨rfl, -⟩ := List.cons_prefix_cons.1 hstarts
          obtain ⟨-, rfl⟩ := List.cons.inj hrest
          exact htail (List.mem_append_right xs List.mem_cons_self)
    rw [List.cons_append, replaceAll_miss hmiss', ih, replaceAll_miss hmiss, List.cons_append]

/-- So an occurrence in the midst of a list is replaced, and the rest on both sides apart from
it. -/
theorem replaceAll_append_hit (htail : h ∉ tail) (xs ys : List α) :
    replaceAll (h :: tail) new (xs ++ (h :: tail ++ ys)) =
      replaceAll (h :: tail) new xs ++ (new ++ replaceAll (h :: tail) new ys) := by
  rw [← replaceAll_hit (List.cons_ne_nil h tail)]
  exact replaceAll_append htail xs (tail ++ ys)

/-! ## Taking away what is before an occurrence

The pattern is `h :: u ++ d :: r`, and of an occurrence `d :: r` stays. The first elements of the
two, `h` and `d`, are only there in the pattern. -/

section

variable {d : α} {u r w : List α}

/-- A part of the pattern up to its end that starts the result starts the list too, or it ends with
what was written for the first occurrence in the list. -/
theorem suffix_traced (hu : d ∉ h :: u) (hr : d ∉ r) (hw : w <:+ h :: u ++ d :: r)
    (hstarts : w <+: replaceAll (h :: u ++ d :: r) (d :: r) xs) :
    w <+: xs ∨ ∃ v, w = v ++ d :: r ∧ v ++ (h :: u ++ d :: r) <+: xs := by
  have hne : h :: u ++ d :: r ≠ [] := List.cons_ne_nil _ _
  induction xs using induct hne generalizing w with
  | nil => exact .inl hstarts
  | hit xs ih =>
    cases w with
    | nil => exact .inl List.nil_prefix
    | cons y w =>
      rw [replaceAll_hit hne, List.cons_append] at hstarts
      obtain ⟨rfl, -⟩ := List.cons_prefix_cons.1 hstarts
      obtain ⟨v, hv⟩ := hw
      obtain ⟨-, -, rfl⟩ := (List.append_cons_inj_of_notMem hu hr).1 hv.symm
      exact .inr ⟨[], rfl, List.prefix_append ..⟩
  | miss x xs hmiss ih =>
    cases w with
    | nil => exact .inl List.nil_prefix
    | cons y w =>
      rw [replaceAll_miss hmiss] at hstarts
      obtain ⟨rfl, hrest⟩ := List.cons_prefix_cons.1 hstarts
      obtain hstart | ⟨v, rfl, hstart⟩ := ih ((List.suffix_cons y w).trans hw) hrest
      · exact .inl (List.cons_prefix_cons.2 ⟨rfl, hstart⟩)
      · exact .inr ⟨y :: v, rfl, List.cons_prefix_cons.2 ⟨rfl, hstart⟩⟩

/-- The result starts with an occurrence only if what is taken away was there twice. -/
theorem starts_of_replaceAll (hu : d ∉ h :: u) (hr : d ∉ r)
    (hstarts : h :: u ++ d :: r <+: replaceAll (h :: u ++ d :: r) (d :: r) xs) :
    h :: u ++ (h :: u ++ d :: r) <+: xs := by
  have hne : h :: u ++ d :: r ≠ [] := List.cons_ne_nil _ _
  obtain ⟨rest, rfl⟩ | ⟨v, hv, hstart⟩ := suffix_traced hu hr (List.suffix_refl _) hstarts
  · rw [replaceAll_hit hne, List.cons_append, List.cons_append] at hstarts
    obtain ⟨rfl, -⟩ := List.cons_prefix_cons.1 hstarts
    exact absurd List.mem_cons_self hu
  · rw [← List.append_cancel_right hv] at hstart
    exact hstart

/-- Nor does it have one later. -/
theorem occurs_of_replaceAll (hh : h ∉ d :: r) (hu : d ∉ h :: u) (hr : d ∉ r)
    (hoccurs : h :: u ++ d :: r <:+: replaceAll (h :: u ++ d :: r) (d :: r) xs) :
    h :: u ++ (h :: u ++ d :: r) <:+: xs := by
  have hne : h :: u ++ d :: r ≠ [] := List.cons_ne_nil _ _
  induction xs using induct hne with
  | nil => exact absurd (List.infix_nil.1 hoccurs) (List.cons_ne_nil _ _)
  | hit xs ih =>
    rw [replaceAll_hit hne] at hoccurs
    exact (ih (occurs_of_append hh hoccurs)).trans (List.suffix_append _ _).isInfix
  | miss x xs hmiss ih =>
    have hpass : replaceAll (h :: u ++ d :: r) (d :: r) (x :: xs) =
        x :: replaceAll (h :: u ++ d :: r) (d :: r) xs := replaceAll_miss hmiss
    rw [hpass, List.infix_cons_iff] at hoccurs
    obtain hstarts | hoccurs := hoccurs
    · exact (starts_of_replaceAll hu hr (hpass ▸ hstarts)).isInfix
    · exact (ih hoccurs).trans (List.suffix_cons x xs).isInfix

/-- **What is left of the pattern.** The result has an occurrence just where the list has one with
what is taken away before it once more. -/
theorem infix_replaceAll_iff (htail : h ∉ u ++ d :: r) (hu : d ∉ h :: u) (hr : d ∉ r) :
    h :: u ++ d :: r <:+: replaceAll (h :: u ++ d :: r) (d :: r) xs ↔
      h :: u ++ (h :: u ++ d :: r) <:+: xs := by
  constructor
  · exact occurs_of_replaceAll (fun hmem => htail (List.mem_append_right u hmem)) hu hr
  · rintro ⟨front, back, rfl⟩
    have hshort : replaceAll (h :: u ++ d :: r) (d :: r) (h :: u) = h :: u :=
      replaceAll_short (by simp only [List.length_append, List.length_cons]; omega)
    have hlist : front ++ (h :: u ++ (h :: u ++ d :: r)) ++ back =
        front ++ h :: u ++ (h :: u ++ d :: r ++ back) := by
      simp only [List.append_assoc]
    have hhit : replaceAll (h :: u ++ d :: r) (d :: r)
          (front ++ h :: u ++ (h :: u ++ d :: r ++ back)) =
        replaceAll (h :: u ++ d :: r) (d :: r) (front ++ h :: u) ++
          (d :: r ++ replaceAll (h :: u ++ d :: r) (d :: r) back) :=
      replaceAll_append_hit htail _ _
    have hfront : replaceAll (h :: u ++ d :: r) (d :: r) (front ++ h :: u) =
        replaceAll (h :: u ++ d :: r) (d :: r) front ++
          replaceAll (h :: u ++ d :: r) (d :: r) (h :: u) :=
      replaceAll_append htail _ _
    rw [hlist, hhit, hfront, hshort]
    refine ⟨replaceAll (h :: u ++ d :: r) (d :: r) front,
      replaceAll (h :: u ++ d :: r) (d :: r) back, ?_⟩
    simp only [List.append_assoc]

end

end Replace
