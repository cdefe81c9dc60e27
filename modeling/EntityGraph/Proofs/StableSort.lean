import Mathlib.Data.List.Basic
import EntityGraph.StableSort

/-!
# What stable sorting gives

A sorted list is in order if the comparison is a preorder of its elements, and elements that are in
order already keep their order, whatever the comparison is.

* `Preorders`: a comparison orders the elements with a property;
* `pairwise_stableSort`: the sorted elements are in order;
* `sublist_stableSort`: elements that are in order stay so;
* `stableSort_eq_of_perm`: where no two elements tie, all arrangements of them are sorted alike.
-/

namespace EntityGraph

variable {α : Type} {cmp : α → α → Ordering}

/-- The elements with `P` are ordered: what is not less than another is a total preorder of them. -/
structure Preorders (P : α → Prop) (cmp : α → α → Ordering) : Prop where
  asymm : ∀ {a b}, P a → P b → cmp a b = .lt → cmp b a ≠ .lt
  trans : ∀ {a b c}, P a → P b → P c → cmp a b ≠ .lt → cmp b c ≠ .lt → cmp a c ≠ .lt

section Sorted

variable {P : α → Prop} (hP : Preorders P cmp)
include hP

theorem pairwise_insertDown {x : α} (hx : P x) : ∀ {ys : List α}, (∀ y ∈ ys, P y) →
    ys.Pairwise (fun a b => cmp a b ≠ .lt) →
    (insertDown cmp x ys).Pairwise (fun a b => cmp a b ≠ .lt)
  | [], _, _ => List.pairwise_singleton _ _
  | y :: ys, hys, h => by
    obtain ⟨hy, hys'⟩ := List.forall_mem_cons.1 hys
    obtain ⟨hhead, htail⟩ := List.pairwise_cons.1 h
    unfold insertDown
    split
    · rename_i hlt
      refine List.pairwise_cons.2 ⟨fun z hz => ?_, pairwise_insertDown hx hys' htail⟩
      rcases List.mem_cons.1 ((perm_insertDown cmp x ys).mem_iff.1 hz) with rfl | hz
      · exact hP.asymm hx hy hlt
      · exact hhead z hz
    · rename_i hge
      refine List.pairwise_cons.2 ⟨fun z hz => ?_, h⟩
      rcases List.mem_cons.1 hz with rfl | hz
      · exact hge
      · exact hP.trans hx hy (hys' z hz) hge (hhead z hz)

theorem pairwise_foldl_insertDown : ∀ {xs acc : List α}, (∀ x ∈ xs, P x) → (∀ y ∈ acc, P y) →
    acc.Pairwise (fun a b => cmp a b ≠ .lt) →
    (xs.foldl (fun sorted x => insertDown cmp x sorted) acc).Pairwise (fun a b => cmp a b ≠ .lt)
  | [], _, _, _, h => h
  | x :: xs, acc, hxs, hacc, h => by
    obtain ⟨hx, hxs⟩ := List.forall_mem_cons.1 hxs
    rw [List.foldl_cons]
    refine pairwise_foldl_insertDown hxs (fun y hy => ?_) (pairwise_insertDown hP hx hacc h)
    rcases List.mem_cons.1 ((perm_insertDown cmp x acc).mem_iff.1 hy) with rfl | hy
    · exact hx
    · exact hacc y hy

/-- No element comes after a greater one. -/
theorem pairwise_stableSort {xs : List α} (hxs : ∀ x ∈ xs, P x) :
    (stableSort cmp xs).Pairwise fun a b => cmp b a ≠ .lt :=
  List.pairwise_reverse.2 (pairwise_foldl_insertDown hP hxs (by simp) .nil)

/-- Where no two elements tie, the order in which they come does not matter. -/
theorem stableSort_eq_of_perm {xs ys : List α} (h : xs.Perm ys) (hxs : ∀ x ∈ xs, P x)
    (hties : ∀ a ∈ xs, ∀ b ∈ xs, cmp a b ≠ .lt → cmp b a ≠ .lt → a = b) :
    stableSort cmp xs = stableSort cmp ys := by
  have hys : ∀ y ∈ ys, P y := fun y hy => hxs y (h.mem_iff.2 hy)
  refine List.Perm.eq_of_pairwise (fun a b ha hb hab hba => ?_) (pairwise_stableSort hP hxs)
    (pairwise_stableSort hP hys) ?_
  · exact hties a ((perm_stableSort cmp xs).mem_iff.1 ha) b
      (h.mem_iff.2 ((perm_stableSort cmp ys).mem_iff.1 hb)) hba hab
  · exact (perm_stableSort cmp xs).trans (h.trans (perm_stableSort cmp ys).symm)

end Sorted

/-! ## Stability -/

theorem sublist_insertDown_self (cmp : α → α → Ordering) (x : α) :
    ∀ ys : List α, ys.Sublist (insertDown cmp x ys)
  | [] => List.nil_sublist _
  | y :: ys => by
    unfold insertDown
    split
    · exact (sublist_insertDown_self cmp x ys).cons_cons y
    · exact List.sublist_cons_self x _

/-- An element is put before those that it is not less than. -/
theorem cons_sublist_insertDown {x : α} {c : List α} (hc : ∀ y ∈ c, cmp x y ≠ .lt) :
    ∀ {ys : List α}, c.Sublist ys → (x :: c).Sublist (insertDown cmp x ys)
  | [], h => by
    rw [List.sublist_nil.1 h]
    exact .refl _
  | y :: ys, h => by
    unfold insertDown
    split
    · rename_i hlt
      rcases List.sublist_cons_iff.1 h with h | ⟨c', rfl, -⟩
      · exact (cons_sublist_insertDown hc h).cons y
      · exact absurd hlt (hc y List.mem_cons_self)
    · exact h.cons_cons x

theorem sublist_foldl_insertDown {c xs earlier acc : List α} (h : c.Sublist xs)
    (hacc : earlier.Sublist acc) (hc : c.Pairwise fun a b => cmp b a ≠ .lt)
    (hlater : ∀ a ∈ earlier, ∀ b ∈ c, cmp b a ≠ .lt) :
    (c.reverse ++ earlier).Sublist
      (xs.foldl (fun sorted x => insertDown cmp x sorted) acc) := by
  induction h generalizing earlier acc with
  | slnil => exact hacc
  | @cons c xs x h ih =>
    exact ih (hacc.trans (sublist_insertDown_self cmp x acc)) hc hlater
  | @cons_cons c xs x h ih =>
    obtain ⟨hhead, hc⟩ := List.pairwise_cons.1 hc
    rw [List.reverse_cons, List.append_assoc]
    refine @ih (x :: earlier) (insertDown cmp x acc) ?_ hc fun a ha b hb => ?_
    · exact cons_sublist_insertDown (fun y hy => hlater y hy x List.mem_cons_self) hacc
    · rcases List.mem_cons.1 ha with rfl | ha
      · exact hhead b hb
      · exact hlater a ha b (List.mem_cons_of_mem _ hb)

/-- Elements none of which comes after a greater one stay in their order. -/
theorem sublist_stableSort {c xs : List α} (h : c.Sublist xs)
    (hc : c.Pairwise fun a b => cmp b a ≠ .lt) : c.Sublist (stableSort cmp xs) := by
  have hfold := sublist_foldl_insertDown h (.refl []) hc (by simp)
  rw [List.append_nil] at hfold
  simpa [stableSort] using hfold.reverse

end EntityGraph
