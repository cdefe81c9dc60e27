import EntityGraph.Proofs.Query.Meaning
import EntityGraph.Proofs.Value.Order

/-!
# Comparisons of values agree

Filters order fewer values than sorting does, but never otherwise. So what a filter finds on one
side of its operand is on that side in every sort, unless it is a list, of which a filter takes any
item and a sort the smallest.

* `Value.order?_eq_none_iff`: the values that filters do not order;
* `Comparator.Admits`: the places that a comparison leaves a value next to its operand;
* `Value.exists_admitted`, `Value.admits_sortKey`: a field that a filter accepts has a value in such
  a place, and if that is its only one it is sorted there;
* `Value.comparisonsAgree`: the order for sorting, the order for filters and both equalities.
-/

namespace EntityGraph

namespace Comparator

/-- A comparison is for equality or for an order. -/
def IsSided (op : Comparator) : Prop := op = .eq ∨ op.isRange

/-- How a value may compare with an operand, in the order for sorting, after a comparison for
equality or for an order. The other comparisons ask for no place. -/
def Admits (o : Ordering) : Comparator → Prop
  | .eq => o = .eq
  | .lt => o = .lt
  | .le => o ≠ .gt
  | .gt => o = .gt
  | .ge => o ≠ .lt
  | .ne => True
  | .within => True
  | .startsWith => True
  | .contains => True

theorem IsSided.ne_contains {op : Comparator} (h : op.IsSided) : op ≠ .contains := by
  rintro rfl
  obtain h | h := h <;> cases h

theorem admits_of_asks {v w : Value} {op : Comparator} (h : op.Asks v w) :
    op.Admits (v.compare w) := by
  cases op with
  | eq => exact h.2
  | lt | le | gt | ge => exact h
  | ne | within | startsWith | contains => trivial

end Comparator

namespace Value

/-- A value is another one, or among the items of it at whatever depth. -/
inductive Among (v : Value) : Value → Prop
  | self : Among v v
  | item {items : List Value} {u : Value} : u ∈ items → Among v u → Among v (.list items)

theorem Among.eq_of_list? {v w : Value} (h : v.Among w) (hw : w.list? = none) : v = w := by
  cases h with
  | self => rfl
  | item => cases hw

theorem sortKey_of_list? {v : Value} (h : v.list? = none) : v.sortKey = v := by
  cases v with
  | list => cases h
  | _ => rfl

theorem isScalar_of_rank_eq {a b : Value} (h : a.rank = b.rank) : b.isScalar = a.isScalar := by
  cases a <;> cases b <;> first | rfl | cases h

theorem Comparable.symm {a b : Value} (h : a.Comparable b) : b.Comparable a where
  family := h.family.symm
  scalar := (isScalar_of_rank_eq h.family).trans h.scalar
  left := h.right
  right := h.left

/-- Filters do not order nulls, lists, values of two families, and NaNs. -/
theorem order?_eq_none_iff {a b : Value} : a.order? b = none ↔
    a.isScalar = false ∨ b.isScalar = false ∨ a.rank ≠ b.rank ∨ a.isNaN ∨ b.isNaN := by
  cases h : a.order? b with
  | some o =>
    obtain ⟨hc, -⟩ := order?_eq_some.1 h
    simp [hc.family, hc.scalar, hc.symm.scalar, hc.left, hc.right]
  | none =>
    refine iff_of_true rfl (Classical.byContradiction fun hn => ?_)
    simp only [not_or, Bool.not_eq_false, ne_eq, Decidable.not_not, Bool.not_eq_true] at hn
    obtain ⟨hscalar, -, hfamily, hleft, hright⟩ := hn
    have hc : a.order? b = some _ := order?_eq_some.2 ⟨⟨hfamily, hscalar, hleft, hright⟩, rfl⟩
    cases h.symm.trans hc

theorem list?_of_isScalar {v : Value} (h : v.isScalar) : v.list? = none := by
  cases v with
  | list => cases h
  | _ => rfl

/-- A value that satisfies a comparison has a part in a place that the comparison admits. -/
theorem Satisfies.exists_admitted {op : Comparator} {v w : Value} (hop : op.IsSided)
    (h : Satisfies op w v) :
    ∃ u : Value, u.Among v ∧ u.list? = none ∧ op.Admits (u.compare w) := by
  induction h with
  | scalar hscalar _ hasks =>
    exact ⟨_, .self, list?_of_isScalar hscalar, Comparator.admits_of_asks hasks⟩
  | member hcontains => exact absurd hcontains hop.ne_contains
  | item _ hmem _ ih =>
    obtain ⟨u, hu, hl, ho⟩ := ih
    exact ⟨u, .item hmem hu, hl, ho⟩

/-- A field that a comparison accepts has a value in a place that the comparison admits. -/
theorem exists_admitted {field : Option Value} {op : Comparator} {w : Value} (hop : op.IsSided)
    (h : compareField field op w = .holds) : ∃ v : Value,
      v.Among (field.getD .null) ∧ v.list? = none ∧ op.Admits (v.compare w) := by
  cases (says_compareField field op w).holds_iff.1 h with
  | eqNull hlacking =>
    have hnull : field.getD .null = .null := by
      cases field with
      | none => rfl
      | some v => exact hlacking v rfl
    rw [hnull]
    exact ⟨.null, .self, rfl, rfl⟩
  | neNull => obtain hop | hop := hop <;> cases hop
  | value _ hfield hsat =>
    cases hfield
    exact hsat.exists_admitted hop

/-- A field with one value is sorted by it, and so in a place that the comparison admits. -/
theorem admits_sortKey {field : Option Value} {op : Comparator} {w : Value} (hop : op.IsSided)
    (hl : (field.getD .null).list? = none) (h : compareField field op w = .holds) :
    op.Admits ((field.getD .null).sortKey.compare w) := by
  obtain ⟨v, hv, -, ho⟩ := exists_admitted hop h
  rwa [sortKey_of_list? hl, ← hv.eq_of_list? hl]

/-- A list is sorted by its smallest item, whichever of its items a comparison accepts. -/
theorem not_admits_sortKey : ¬∀ (field : Option Value) (op : Comparator) (w : Value), op.IsSided →
    compareField field op w = .holds → op.Admits ((field.getD .null).sortKey.compare w) := by
  intro h
  have hholds : compareField (some (list [int 1, int 9])) .ge (int 5) = .holds := by
    decide +kernel
  have hlt : (list [int 1, int 9]).sortKey.compare (int 5) = .lt := by decide +kernel
  have hne : (list [int 1, int 9]).sortKey.compare (int 5) ≠ .lt :=
    h _ .ge _ (.inr rfl) hholds
  exact hne hlt

/-- What the comparisons of two values have to do with each other. -/
structure ComparisonsAgree (a b : Value) : Prop where
  swap : b.compare a = (a.compare b).swap
  of_order? : ∀ o, a.order? b = some o → a.compare b = o ∧ b.order? a = some o.swap
  order?_eq_none : a.order? b = none ↔
    a.isScalar = false ∨ b.isScalar = false ∨ a.rank ≠ b.rank ∨ a.isNaN ∨ b.isNaN
  beq_of_equals : a.equals b → a == b
  /-- A field with one value that is accepted next to `b` as an operand is sorted on the side that
  was asked for. -/
  sorted : ∀ field, (field.getD .null).list? = none → ∀ op : Comparator, op.IsSided →
    compareField field op b = .holds → op.Admits ((field.getD .null).sortKey.compare b)
  /-- A field that is a list has an item there. -/
  admitted : ∀ field, ∀ op : Comparator, op.IsSided → compareField field op b = .holds →
    ∃ v : Value, v.Among (field.getD .null) ∧ v.list? = none ∧ op.Admits (v.compare b)

/-- The comparisons of any two values agree: filters order values as sorting does, where they do. -/
theorem comparisonsAgree (a b : Value) : ComparisonsAgree a b where
  swap := compare_swap a b
  of_order? o h := by
    obtain ⟨hc, rfl⟩ := order?_eq_some.1 h
    exact ⟨rfl, order?_eq_some.2 ⟨hc.symm, compare_swap a b⟩⟩
  order?_eq_none := order?_eq_none_iff
  beq_of_equals h := by
    show (a.compare b == .eq) = true
    rw [(equals_iff.1 h).2]
    rfl
  sorted _ hl _ hop := admits_sortKey hop hl
  admitted _ _ := exists_admitted

/-- An integer and a float are ordered alike for filters and for sorting, a NaN only for sorting. -/
example : (int 2).order? (.float ⟨0x4004000000000000⟩) = some .lt ∧
    (int 2).compare (.float ⟨0x4004000000000000⟩) = .lt ∧
    (int 2).order? (.float ⟨0x7FF8000000000000⟩) = none ∧
    (int 2).compare (.float ⟨0x7FF8000000000000⟩) = .lt := by
  decide +kernel

end Value
end EntityGraph
