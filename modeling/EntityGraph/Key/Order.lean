import EntityGraph.Key

/-!
# The order of keys

`Key.compare` is a lawful total order: it is transitive, and only equal keys compare equal.
-/

namespace EntityGraph

instance : Std.TransCmp KeyId.compare where
  eq_swap {a b} := by
    cases a <;> cases b <;> simp only [KeyId.compare, Ordering.swap_lt, Ordering.swap_gt] <;>
      exact Std.OrientedCmp.eq_swap
  isLE_trans {a b c} := by
    cases a <;> cases b <;> cases c <;>
      simp only [KeyId.compare, Ordering.isLE_lt, Ordering.isLE_gt, Bool.false_eq_true,
        false_implies, implies_true] <;>
      exact Std.TransCmp.isLE_trans

instance : Std.LawfulEqCmp KeyId.compare where
  eq_of_compare {a b} h := by
    cases a <;> cases b <;> simp only [KeyId.compare, reduceCtorEq] at h
    · rw [Std.LawfulEqCmp.eq_of_compare h]
    · rw [Std.LawfulEqCmp.eq_of_compare h]

namespace PathElement

instance : Std.TransCmp compareId where
  eq_swap {a b} := by
    cases a <;> cases b <;>
      simp only [compareId, Ordering.swap_lt, Ordering.swap_gt, Ordering.swap_eq]
    exact Std.OrientedCmp.eq_swap
  isLE_trans {a b c} := by
    cases a <;> cases b <;> cases c <;>
      simp only [compareId, Ordering.isLE_lt, Ordering.isLE_gt, Ordering.isLE_eq,
        Bool.false_eq_true, false_implies, implies_true]
    exact Std.TransCmp.isLE_trans

instance : Std.LawfulEqCmp compareId where
  eq_of_compare {a b} h := by
    cases a <;> cases b <;> simp only [compareId, reduceCtorEq] at h ⊢
    rw [Std.LawfulEqCmp.eq_of_compare h]

theorem compare_eq_compareLex :
    PathElement.compare = compareLex (fun a b => compareText a.kind b.kind)
      (fun a b => compareId a.id b.id) := rfl

theorem transCmp_on {α β : Type} (f : α → β) (cmp : β → β → Ordering) [Std.TransCmp cmp] :
    Std.TransCmp fun a b => cmp (f a) (f b) where
  eq_swap := Std.OrientedCmp.eq_swap
  isLE_trans := Std.TransCmp.isLE_trans

instance : Std.TransCmp PathElement.compare := by
  rw [compare_eq_compareLex]
  have := transCmp_on PathElement.kind compareText
  have := transCmp_on PathElement.id compareId
  infer_instance

instance : Std.LawfulEqCmp PathElement.compare where
  eq_of_compare {a b} h := by
    obtain ⟨hk, hi⟩ := Ordering.then_eq_eq.1 h
    cases a; cases b
    simp only [PathElement.mk.injEq]
    exact ⟨Std.LawfulEqCmp.eq_of_compare hk, Std.LawfulEqCmp.eq_of_compare hi⟩

end PathElement

namespace Key

instance : Std.TransCmp Key.compare :=
  PathElement.transCmp_on Key.path (List.compareLex PathElement.compare)

instance : Std.LawfulEqCmp Key.compare where
  eq_of_compare {a b} h := by
    have h : List.compareLex PathElement.compare a.path b.path = .eq := h
    have : a.path = b.path := Std.LawfulEqCmp.eq_of_compare h
    cases a; cases b
    simpa using this

end Key
end EntityGraph
