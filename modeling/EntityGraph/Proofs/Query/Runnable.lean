import EntityGraph.Proofs.Query.Paths

/-!
# The queries that the store runs

A query that has passed validation is pushed down exactly if its filter is a conjunction of
conditions that the store can test, and its ordering is one that the store can keep.

* `Filter.leaves`: the conditions that a filter joins by and;
* `Filter.Plain`: the conditions that the store can test;
* `Query.Runnable`: what is asked of a query that the store is to run;
* `Scan.exists_narrowAll_iff`, `Scan.checkInequalities_iff`, `Scan.exists_sortBy_iff`: the steps in
  which a scan is built;
* `Query.pushDown_scan_iff`: the queries that are pushed down are those that the store can run.
-/

namespace EntityGraph

/-! ## Conditions -/

/-- Whether a field is stored, and not derived from one that is. -/
def Field.isStored : Field → Bool
  | property _ | key => true
  | length _ | lowercase _ => false

/-- Whether the store makes such comparisons. -/
def Comparator.isStored : Comparator → Bool
  | eq | lt | le | gt | ge | within => true
  | ne | startsWith | contains => false

namespace Filter

mutual

/-- The conditions that a filter joins by and, however deep. -/
def leaves : Filter → List Filter
  | and parts => allLeaves parts
  | f => [f]

/-- The conditions that a list of filters joins by and. -/
def allLeaves : List Filter → List Filter
  | [] => []
  | f :: fs => leaves f ++ allLeaves fs

end

/-- A condition that the store can test: an ancestor test, or a comparison of a stored field with a
value that is not null. Only a membership test compares with a list, which holds no null. -/
inductive Plain (b : Bindings) : Filter → Prop where
  | under {ancestor k} : ancestor.resolveAncestor b = .ok k → Plain b (under ancestor)
  | compare {field : Field} {op : Comparator} {operand v} : field.isStored → op.isStored →
      operand.resolve b = .ok v → v ≠ .null →
      (∀ items, v = .list items → op = .within ∧ .null ∉ items) → Plain b (compare field op operand)

/-- The key that an ancestor test asks for. -/
def ancestor? (b : Bindings) : Filter → Option Key
  | under ancestor => (ancestor.resolveAncestor b).toOption
  | _ => none

/-- The field that a comparison looks at. -/
def field? : Filter → Option Field
  | compare field _ _ => some field
  | _ => none

def isLowerBound : Filter → Bool
  | compare _ .gt _ | compare _ .ge _ => true
  | _ => false

def isUpperBound : Filter → Bool
  | compare _ .lt _ | compare _ .le _ => true
  | _ => false

def isInequality (f : Filter) : Bool := f.isLowerBound || f.isUpperBound

/-- Whether a condition says what a field is equal to. -/
def pins (field : Field) : Filter → Bool
  | compare field' .eq _ => field' == field
  | _ => false

/-- What is asked of conditions that a scan is to test together. -/
structure Compatible (b : Bindings) (fs : List Filter) : Prop where
  plain : ∀ f ∈ fs, f.Plain b
  /-- All ancestor tests ask for one key. -/
  oneAncestor : ∀ f ∈ fs, ∀ g ∈ fs, ∀ k ∈ f.ancestor? b, ∀ k' ∈ g.ancestor? b, k = k'
  /-- All inequalities are on one field. -/
  oneField : ∀ f ∈ fs, ∀ g ∈ fs, f.isInequality → g.isInequality → f.field? = g.field?
  lowerBound : fs.countP (·.isLowerBound) ≤ 1
  upperBound : fs.countP (·.isUpperBound) ≤ 1

end Filter

namespace Query

/-- The conditions of a query. -/
def leaves (q : Query) : List Filter := (q.filter.map Filter.leaves).getD []

/-- What is asked of a query that the store is to run. -/
structure Runnable (q : Query) (preference : Preference) (b : Bindings) : Prop where
  notInMemory : q.effectivePreference preference ≠ .inMemory
  candidates : q.candidates.rows? = none ∨ q.effectivePreference preference = .native
  filter : Filter.Compatible b q.leaves
  stored : ∀ k ∈ q.ordering, k.field.isStored
  /-- The first sort key that no equality pins is on the field of the inequalities. -/
  sorted : ∀ f ∈ q.leaves, f.isInequality → ∀ k,
    q.ordering.find? (fun k => !q.leaves.any (·.pins k.field)) = some k → f.field? = some k.field

end Query

/-! ## Conjunctions -/

namespace Filter

theorem ofConjunct_injective : Function.Injective ofConjunct := by
  intro c d h
  cases c <;> cases d <;> cases h <;> rfl

theorem singleton_eq_map {f : Filter} {cs : List Conjunct} :
    [f] = cs.map ofConjunct ↔ ∃ c, cs = [c] ∧ ofConjunct c = f := by
  rw [eq_comm, List.map_eq_singleton_iff]

mutual

/-- A filter is flattened to conjuncts if its leaves are conjuncts. -/
theorem conjuncts_eq_ok : ∀ {f : Filter} {cs : List Conjunct},
    f.conjuncts = .ok cs ↔ f.leaves = cs.map ofConjunct
  | and parts, cs => by
    rw [conjuncts, leaves]
    exact allConjuncts_eq_ok
  | or _, cs | not _, cs | isNull _, cs | isNotNull _, cs | inSubquery .., cs => by
    simp only [conjuncts, leaves, singleton_eq_map, reduceCtorEq, false_iff]
    rintro ⟨c, -, h⟩
    cases c <;> cases h
  | compare field op operand, cs => by
    simp only [conjuncts, leaves, singleton_eq_map, Except.ok.injEq]
    constructor
    · rintro rfl
      exact ⟨_, rfl, rfl⟩
    · rintro ⟨c, rfl, h⟩
      have hc : c = .compare field op operand := ofConjunct_injective h
      rw [hc]
  | under ancestor, cs => by
    simp only [conjuncts, leaves, singleton_eq_map, Except.ok.injEq]
    constructor
    · rintro rfl
      exact ⟨_, rfl, rfl⟩
    · rintro ⟨c, rfl, h⟩
      have hc : c = .under ancestor := ofConjunct_injective h
      rw [hc]

theorem allConjuncts_eq_ok : ∀ {fs : List Filter} {cs : List Conjunct},
    allConjuncts fs = .ok cs ↔ allLeaves fs = cs.map ofConjunct
  | [], cs => by
    rw [allConjuncts, allLeaves]
    cases cs <;> simp
  | f :: fs, cs => by
    rw [allConjuncts, allLeaves]
    constructor
    · intro h
      obtain ⟨cs₁, h₁, h⟩ := bind_eq_ok.1 h
      obtain ⟨cs₂, h₂, h⟩ := bind_eq_ok.1 h
      cases h
      rw [conjuncts_eq_ok.1 h₁, allConjuncts_eq_ok.1 h₂, List.map_append]
    · intro h
      obtain ⟨cs₁, cs₂, rfl, h₁, h₂⟩ := List.map_eq_append_iff.1 h.symm
      rw [conjuncts_eq_ok.2 h₁.symm, ok_bind, allConjuncts_eq_ok.2 h₂.symm]
      rfl

end

mutual

theorem subquery?_eq_none : ∀ {f : Filter}, (∀ g ∈ f.leaves, g.subquery? = none) →
    f.subquery? = none
  | and parts, h => by
    rw [leaves] at h
    rw [subquery?]
    exact firstSubquery?_eq_none h
  | or _, h | not _, h | isNull _, h | isNotNull _, h | inSubquery .., h | compare .., h
  | under _, h => h _ (by simp [leaves])

theorem firstSubquery?_eq_none : ∀ {fs : List Filter}, (∀ g ∈ allLeaves fs, g.subquery? = none) →
    firstSubquery? fs = none
  | [], _ => rfl
  | f :: fs, h => by
    rw [allLeaves, List.forall_mem_append] at h
    rw [firstSubquery?, subquery?_eq_none h.1, firstSubquery?_eq_none h.2]
    rfl

end
end Filter

/-! ## Narrowing -/

theorem ScanField.toField_injective : Function.Injective toField := by
  intro f g h
  have hf : ofField? f.toField = some f := ofField?_eq_some.2 rfl
  rw [h, ofField?_eq_some.2 rfl] at hf
  exact (Option.some.inj hf).symm

theorem Value.asksForNull_eq_false {v : Value} :
    v.asksForNull = false ↔ v ≠ .null ∧ ∀ items, v = .list items → .null ∉ items := by
  have hnull : ∀ v : Value, v.isNull = true ↔ v = .null := fun v => by cases v <;> simp [isNull]
  rw [← Bool.not_eq_true, asksForNull, Bool.or_eq_true, not_or, hnull]
  refine and_congr Iff.rfl ?_
  cases v <;> simp [list?, hnull]

theorem Value.list?_eq_none {v : Value} : v.list? = none ↔ ∀ items, v ≠ .list items := by
  cases v <;> simp [list?]

namespace Filter

variable {b : Bindings} {field : Field} {op : Comparator} {operand : Operand} {c : ScanCondition}

theorem plain_under_iff {ancestor : Operand} : (under ancestor).Plain b ↔
    ∃ k, ancestor.resolveAncestor b = .ok k := by
  constructor
  · rintro (h | _)
    exact ⟨_, h⟩
  · rintro ⟨k, h⟩
    exact .under h

theorem plain_compare_iff : (compare field op operand).Plain b ↔
    ∃ c, (compare field op operand).condition? b = some c ∧ c.IsPlain := by
  constructor
  · rintro (_ | ⟨hf, ho, hv, hnull, hlist⟩)
    obtain ⟨g, rfl⟩ : ∃ g : ScanField, field = g.toField := by
      cases field with
      | property name => exact ⟨.property name, rfl⟩
      | key => exact ⟨.key, rfl⟩
      | length _ | lowercase _ => cases hf
    obtain ⟨o, rfl⟩ : ∃ o : ScanOp, op = o.toComparator :=
      match op with
      | .eq => ⟨.eq, rfl⟩
      | .lt => ⟨.lt, rfl⟩
      | .le => ⟨.le, rfl⟩
      | .gt => ⟨.gt, rfl⟩
      | .ge => ⟨.ge, rfl⟩
      | .within => ⟨.within, rfl⟩
      | .ne | .startsWith | .contains => nomatch ho
    refine ⟨⟨g, o, _⟩, condition?_eq_some.2 ⟨rfl, rfl, hv⟩, ?_, ?_⟩
    · exact Value.asksForNull_eq_false.2 ⟨hnull, fun items h => (hlist items h).2⟩
    · refine fun hne => Value.list?_eq_none.2 fun items h => hne ?_
      cases o <;> first | rfl | cases (hlist items h).1
  · rintro ⟨⟨g, o, v⟩, hc, hnull, hlist⟩
    obtain ⟨rfl, rfl, hv⟩ := condition?_eq_some.1 hc
    obtain ⟨hne, hitems⟩ := Value.asksForNull_eq_false.1 hnull
    refine .compare ?_ ?_ hv hne fun items h => ⟨?_, hitems items h⟩
    · cases g <;> rfl
    · cases o <;> rfl
    · by_contra hne
      refine Value.list?_eq_none.1 (hlist fun ho => hne ?_) items h
      rw [show o = .within from ho]
      rfl

end Filter

namespace Scan

/-- Keys of which there are no two different ones. -/
def Agree (ks : List Key) : Prop := ∀ k ∈ ks, ∀ k' ∈ ks, k = k'

theorem agree_iff_of_mem {ks : List Key} {k : Key} (h : k ∈ ks) : Agree ks ↔ ∀ k' ∈ ks, k' = k :=
  ⟨fun ha k' hk' => ha k' hk' k h, fun ha k₁ h₁ k₂ h₂ => (ha k₁ h₁).trans (ha k₂ h₂).symm⟩

theorem agree_append_cons {o : Option Key} {k : Key} {ks : List Key} :
    Agree (o.toList ++ k :: ks) ↔ (∀ k' ∈ o, k' = k) ∧ Agree (k :: ks) := by
  rw [agree_iff_of_mem (k := k) (by simp), agree_iff_of_mem (k := k) (by simp),
    List.forall_mem_append]
  simp only [Option.mem_toList, Option.mem_def]

/-- A scan is narrowed by conjuncts if the store can test all of them, and if they and the scan ask
for one ancestor. The scan is general in the induction, since it carries the ancestor that the
conjuncts before have set. -/
theorem exists_narrowAll_iff {b : Bindings} : ∀ {cs : List Conjunct} {s : Scan},
    (∃ s', s.narrowAll b cs = .ok s') ↔ (∀ c ∈ cs, (Filter.ofConjunct c).Plain b) ∧
      Agree (s.ancestor.toList ++ (cs.map Filter.ofConjunct).filterMap (·.ancestor? b))
  | [], s => by
    cases s.ancestor <;> simp [narrowAll, Agree]
  | .under ancestor :: cs, s => by
    simp only [narrowAll, bind_eq_ok, narrow_under_iff, List.forall_mem_cons, List.map_cons,
      Filter.ofConjunct, Filter.plain_under_iff]
    constructor
    · rintro ⟨s', _, ⟨k, hk, hs, rfl⟩, h⟩
      obtain ⟨hplain, hagree⟩ := exists_narrowAll_iff.1 ⟨s', h⟩
      have hanc : (Filter.under ancestor).ancestor? b = some k := toOption_eq_some.2 hk
      rw [List.filterMap_cons_some hanc]
      exact ⟨⟨⟨k, hk⟩, hplain⟩, agree_append_cons.2 ⟨hs, hagree⟩⟩
    · rintro ⟨⟨⟨k, hk⟩, hplain⟩, hagree⟩
      have hanc : (Filter.under ancestor).ancestor? b = some k := toOption_eq_some.2 hk
      rw [List.filterMap_cons_some hanc] at hagree
      obtain ⟨hs, hagree⟩ := agree_append_cons.1 hagree
      obtain ⟨s', h⟩ := exists_narrowAll_iff (s := { s with ancestor := some k }).2 ⟨hplain, hagree⟩
      exact ⟨s', _, ⟨k, hk, hs, rfl⟩, h⟩
  | .compare field op operand :: cs, s => by
    have hanc : (Filter.compare field op operand).ancestor? b = none := rfl
    simp only [narrowAll, bind_eq_ok, narrow_compare_iff, List.forall_mem_cons, List.map_cons,
      Filter.ofConjunct, Filter.plain_compare_iff, List.filterMap_cons_none hanc]
    constructor
    · rintro ⟨s', _, ⟨c, hc, hp, rfl⟩, h⟩
      obtain ⟨hplain, hagree⟩ := exists_narrowAll_iff.1 ⟨s', h⟩
      exact ⟨⟨⟨c, hc, hp⟩, hplain⟩, hagree⟩
    · rintro ⟨⟨⟨c, hc, hp⟩, hplain⟩, hagree⟩
      obtain ⟨s', h⟩ := exists_narrowAll_iff
        (s := { s with conditions := s.conditions ++ [c] }).2 ⟨hplain, hagree⟩
      exact ⟨s', _, ⟨c, hc, hp, rfl⟩, h⟩

/-- Conjuncts add their conditions to a scan, in their order. -/
theorem conditions_narrowAll {b : Bindings} : ∀ {cs : List Conjunct} {s s' : Scan},
    s.narrowAll b cs = .ok s' → s'.conditions =
      s.conditions ++ (cs.map Filter.ofConjunct).filterMap (·.condition? b)
  | [], s, s', h => by
    cases h
    simp
  | .under ancestor :: cs, s, s', h => by
    obtain ⟨s₁, h₁, h⟩ := bind_eq_ok.1 h
    obtain ⟨k, -, -, rfl⟩ := narrow_under_iff.1 h₁
    have hnone : (Filter.under ancestor).condition? b = none := rfl
    rw [conditions_narrowAll h, List.map_cons, Filter.ofConjunct, List.filterMap_cons_none hnone]
  | .compare field op operand :: cs, s, s', h => by
    obtain ⟨s₁, h₁, h⟩ := bind_eq_ok.1 h
    obtain ⟨c, hc, -, rfl⟩ := narrow_compare_iff.1 h₁
    rw [conditions_narrowAll h, List.map_cons, Filter.ofConjunct, List.filterMap_cons_some hc,
      List.append_assoc, List.singleton_append]

end Scan

/-! ## Bounds and pinned fields -/

namespace Filter

/-- A condition that the store can test is an ancestor test, or a comparison with its condition. -/
theorem condition?_of_plain {b : Bindings} {f : Filter} (h : f.Plain b) :
    (∃ ancestor, f = under ancestor ∧ f.condition? b = none) ∨
      ∃ c operand, f = compare c.field.toField c.op.toComparator operand ∧
        f.condition? b = some c := by
  cases f with
  | under ancestor => exact .inl ⟨ancestor, rfl, rfl⟩
  | compare field op operand =>
    obtain ⟨c, hc, -⟩ := plain_compare_iff.1 h
    obtain ⟨hf, ho, -⟩ := condition?_eq_some.1 hc
    exact .inr ⟨c, operand, by rw [hf, ho], hc⟩
  | and | or | not | isNull | isNotNull | inSubquery => cases h

variable {field : Field} {o : ScanOp} {operand : Operand}

theorem isLowerBound_compare :
    (compare field o.toComparator operand).isLowerBound = o.isLowerBound := by cases o <;> rfl

theorem isUpperBound_compare :
    (compare field o.toComparator operand).isUpperBound = o.isUpperBound := by cases o <;> rfl

theorem isInequality_compare :
    (compare field o.toComparator operand).isInequality = o.isInequality := by cases o <;> rfl

theorem pins_compare {f g : ScanField} :
    (compare g.toField o.toComparator operand).pins f.toField = (o == .eq && g == f) := by
  have hfield : (g.toField == f.toField) = (g == f) := by
    rw [Bool.eq_iff_iff, beq_iff_eq, beq_iff_eq, ScanField.toField_injective.eq_iff]
  cases o <;> simp [pins, ScanOp.toComparator, hfield]

end Filter

namespace Scan

/-- What a scan for a list of conditions tells of them: how many bounds there are, which fields they
are on, and which fields are pinned. -/
structure Describes (s : Scan) (fs : List Filter) : Prop where
  lowerBound : s.conditions.countP (·.op.isLowerBound) = fs.countP (·.isLowerBound)
  upperBound : s.conditions.countP (·.op.isUpperBound) = fs.countP (·.isUpperBound)
  inequality : ∀ f ∈ s.inequalityFields, ∃ g ∈ fs, g.isInequality ∧ g.field? = some f.toField
  field : ∀ g ∈ fs, g.isInequality → ∃ f ∈ s.inequalityFields, g.field? = some f.toField
  pins : ∀ f : ScanField, s.pins f = fs.any (·.pins f.toField)

section Describes

variable {s : Scan} {b : Bindings} {fs : List Filter} {cs : List ScanCondition}
  (hs : s.conditions = cs ++ fs.filterMap (·.condition? b)) (hplain : ∀ f ∈ fs, f.Plain b)
include hs hplain

/-- Conditions are counted as the filters that they come from. -/
theorem countP_conditions {p : ScanOp → Bool} {p' : Filter → Bool} (hcs : ∀ c ∈ cs, p c.op = false)
    (hunder : ∀ ancestor, p' (.under ancestor) = false)
    (hcompare : ∀ field o operand, p' (.compare field (ScanOp.toComparator o) operand) = p o) :
    s.conditions.countP (p ·.op) = fs.countP p' := by
  have hnone : cs.countP (p ·.op) = 0 :=
    List.countP_eq_zero.2 fun c hc => by simp [hcs c hc]
  rw [hs, List.countP_append, hnone, Nat.zero_add, List.countP_filterMap]
  refine List.countP_congr fun f hf => ?_
  obtain ⟨ancestor, rfl, hc⟩ | ⟨c, operand, rfl, hc⟩ := Filter.condition?_of_plain (hplain f hf)
  · simp [hc, hunder]
  · simp [hc, hcompare]

/-- A condition comes from a comparison, unless it is one of the first. -/
theorem mem_conditions {c : ScanCondition} : c ∈ s.conditions ↔ c ∈ cs ∨
    ∃ f ∈ fs, f.condition? b = some c ∧
      ∃ operand, f = .compare c.field.toField c.op.toComparator operand := by
  rw [hs, List.mem_append, List.mem_filterMap]
  refine or_congr Iff.rfl (exists_congr fun f => and_congr_right fun hf => ?_)
  refine ⟨fun hc => ⟨hc, ?_⟩, fun h => h.1⟩
  obtain ⟨_, -, hc'⟩ | ⟨c', operand, rfl, hc'⟩ := Filter.condition?_of_plain (hplain f hf)
  · cases hc'.symm.trans hc
  · cases hc'.symm.trans hc
    exact ⟨operand, rfl⟩

/-- A scan whose further conditions are those of filters that the store can test describes these. -/
theorem describes (hcs : ∀ c ∈ cs, c.op = .within) : s.Describes fs where
  lowerBound := countP_conditions hs hplain (fun c hc => by rw [hcs c hc]; rfl) (fun _ => rfl)
    fun _ _ _ => Filter.isLowerBound_compare
  upperBound := countP_conditions hs hplain (fun c hc => by rw [hcs c hc]; rfl) (fun _ => rfl)
    fun _ _ _ => Filter.isUpperBound_compare
  inequality f hf := by
    obtain ⟨c, hc, rfl⟩ := List.mem_map.1 hf
    obtain ⟨hc, hineq⟩ := List.mem_filter.1 hc
    obtain hc | ⟨g, hg, -, operand, rfl⟩ := (mem_conditions hs hplain).1 hc
    · rw [hcs c hc] at hineq
      cases hineq
    · exact ⟨_, hg, Filter.isInequality_compare.trans hineq, rfl⟩
  field g hg hineq := by
    obtain ⟨_, rfl, -⟩ | ⟨c, operand, rfl, hc⟩ := Filter.condition?_of_plain (hplain g hg)
    · cases hineq
    · rw [Filter.isInequality_compare] at hineq
      have hmem := (mem_conditions hs hplain).2 (.inr ⟨_, hg, hc, operand, rfl⟩)
      exact ⟨c.field, List.mem_map.2 ⟨c, List.mem_filter.2 ⟨hmem, hineq⟩, rfl⟩, rfl⟩
  pins f := by
    rw [Scan.pins, Bool.eq_iff_iff, List.any_eq_true, List.any_eq_true]
    constructor
    · rintro ⟨c, hc, hpin⟩
      obtain hc | ⟨g, hg, -, operand, rfl⟩ := (mem_conditions hs hplain).1 hc
      · rw [hcs c hc] at hpin
        cases hpin
      · exact ⟨_, hg, Filter.pins_compare.trans hpin⟩
    · rintro ⟨g, hg, hpin⟩
      obtain ⟨_, rfl, -⟩ | ⟨c, operand, rfl, hc⟩ := Filter.condition?_of_plain (hplain g hg)
      · cases hpin
      · rw [Filter.pins_compare] at hpin
        exact ⟨c, (mem_conditions hs hplain).2 (.inr ⟨_, hg, hc, operand, rfl⟩), hpin⟩

end Describes

/-- A scan of candidates that is narrowed by conjuncts describes them. -/
theorem describes_narrowAll {s s' : Scan} {b : Bindings} {cs : List Conjunct}
    (hwithin : ∀ c ∈ s.conditions, c.op = .within) (h : s.narrowAll b cs = .ok s') :
    s'.Describes (cs.map Filter.ofConjunct) := by
  have hplain := (exists_narrowAll_iff.1 ⟨s', h⟩).1
  exact describes (conditions_narrowAll h) (List.forall_mem_map.2 hplain) hwithin

end Scan

/-! ## The checks of a scan -/

/-- An ordering becomes sort keys of a scan if all its fields are stored. -/
theorem exists_scanSorts_iff : ∀ {ks : List SortKey},
    (∃ ss, scanSorts ks = .ok ss) ↔ ∀ k ∈ ks, k.field.isStored
  | [] => by simp [scanSorts]
  | k :: ks => by
    rw [scanSorts, List.forall_mem_cons, ← exists_scanSorts_iff]
    cases k.field <;> cases scanSorts ks <;> simp [ScanField.ofField?, Field.isStored]

namespace Scan

variable {s : Scan} {fs : List Filter}

namespace Describes

/-- The inequalities of a scan are on one field if those of its filters are. -/
theorem oneField_iff (h : s.Describes fs) :
    (∀ f ∈ s.inequalityFields, ∀ g ∈ s.inequalityFields, f = g) ↔
      ∀ f ∈ fs, ∀ g ∈ fs, f.isInequality → g.isInequality → f.field? = g.field? := by
  constructor
  · intro hone f hf g hg hfi hgi
    obtain ⟨f', hf', hff⟩ := h.field f hf hfi
    obtain ⟨g', hg', hgg⟩ := h.field g hg hgi
    rw [hff, hgg, hone f' hf' g' hg']
  · intro hone f hf g hg
    obtain ⟨f', hf', hfi, hff⟩ := h.inequality f hf
    obtain ⟨g', hg', hgi, hgg⟩ := h.inequality g hg
    have heq := hone f' hf' g' hg' hfi hgi
    rw [hff, hgg] at heq
    exact ScanField.toField_injective (Option.some.inj heq)

/-- The inequalities of a scan pass if those of its filters are on one field, with one bound on each
side. -/
theorem checkInequalities_iff (h : s.Describes fs) : s.checkInequalities = .ok () ↔
    (∀ f ∈ fs, ∀ g ∈ fs, f.isInequality → g.isInequality → f.field? = g.field?) ∧
      fs.countP (·.isLowerBound) ≤ 1 ∧ fs.countP (·.isUpperBound) ≤ 1 := by
  rw [Scan.checkInequalities_iff, h.oneField_iff, h.lowerBound, h.upperBound]

end Describes

/-- A scan is sorted by an ordering if all its fields are stored, and the first of them that no
condition pins is that of the inequalities. -/
theorem exists_sortBy_iff (h : s.Describes fs)
    (hone : ∀ f ∈ s.inequalityFields, ∀ g ∈ s.inequalityFields, f = g) {ordering : List SortKey} :
    (∃ s', s.sortBy ordering = .ok s') ↔ (∀ k ∈ ordering, k.field.isStored) ∧
      ∀ f ∈ fs, f.isInequality → ∀ k,
        ordering.find? (fun k => !fs.any (·.pins k.field)) = some k → f.field? = some k.field := by
  rw [← exists_scanSorts_iff]
  cases hss : scanSorts ordering with
  | error e => simp [sortBy, hss]
  | ok sorts =>
    have hfind : ordering.find? (fun k => !fs.any (·.pins k.field)) =
        (sorts.find? (!s.pins ·.field)).map ScanSort.toSortKey := by
      rw [← map_toSortKey_scanSorts hss, List.find?_map]
      congr 2
      funext k
      simp [h.pins, ScanSort.toSortKey]
    -- The scan is sorted by the field of its first inequality, which by `hone` is that of all.
    have hsort : (∃ s', s.sortBy ordering = .ok s') ↔ ∀ f ∈ s.inequalityFields.head?,
        ∀ first ∈ sorts.find? (!s.pins ·.field), first.field = f := by
      rw [sortBy, hss, ok_bind]
      cases s.inequalityFields.head? with
      | none => simp
      | some f =>
        cases sorts.find? (!s.pins ·.field) with
        | none => simp
        | some first => by_cases hf : first.field = f <;> simp [hf]
    rw [hsort, hfind]
    constructor
    · intro hfit
      refine ⟨⟨sorts, rfl⟩, fun g hg hgi k hk => ?_⟩
      obtain ⟨first, hfirst, rfl⟩ := Option.map_eq_some_iff.1 hk
      obtain ⟨f, hf, hgf⟩ := h.field g hg hgi
      have hhead := forall_eq_head?_iff.2 hone f hf
      rw [hgf, ← hfit f hhead.symm first hfirst]
      rfl
    · rintro ⟨-, hfit⟩ f hf first hfirst
      obtain ⟨g, hg, hgi, hgf⟩ := h.inequality f (List.mem_of_head? hf)
      have heq := hfit g hg hgi _ (by rw [Option.mem_def.1 hfirst]; rfl)
      rw [hgf] at heq
      exact ScanField.toField_injective (Option.some.inj heq).symm

end Scan

/-! ## Queries -/

namespace Query

variable {q : Query} {preference : Preference} {b : Bindings}

/-- A scan of candidates tests for their keys at most. -/
theorem candidateScan_conditions {s : Scan} (h : q.candidateScan preference = .ok s) :
    s.ancestor = none ∧ ∀ c ∈ s.conditions, c.op = .within := by
  unfold candidateScan at h
  split at h
  · cases h
    simp
  · split at h
    · cases h
      simp
    · cases h

theorem exists_candidateScan_iff : (∃ s, q.candidateScan preference = .ok s) ↔
    q.candidates.rows? = none ∨ preference = .native := by
  unfold candidateScan
  cases q.candidates.rows? with
  | none => simp
  | some rows => by_cases hp : preference = .native <;> simp [hp]

/-- A filter whose leaves the store can test is flattened to conjuncts. -/
theorem exists_conjuncts_of_plain {f : Filter} (h : ∀ g ∈ f.leaves, g.Plain b) :
    f.subquery? = none ∧ ∃ cs, f.conjuncts = .ok cs := by
  have hsub : ∀ g : Filter, g.Plain b → g.subquery? = none := fun g hg => by cases hg <;> rfl
  have hcs : ∀ fs : List Filter, (∀ g ∈ fs, g.Plain b) →
      ∃ cs, fs = List.map Filter.ofConjunct cs := by
    intro fs
    induction fs with
    | nil => exact fun _ => ⟨[], rfl⟩
    | cons g fs ih =>
      intro hfs
      obtain ⟨hg, hfs⟩ := List.forall_mem_cons.1 hfs
      obtain ⟨cs, rfl⟩ := ih hfs
      cases hg with
      | under => exact ⟨.under _ :: cs, rfl⟩
      | compare => exact ⟨.compare _ _ _ :: cs, rfl⟩
  obtain ⟨cs, hleaves⟩ := hcs _ h
  exact ⟨Filter.subquery?_eq_none fun g hg => hsub g (h g hg), cs,
    Filter.conjuncts_eq_ok.2 hleaves⟩

theorem agree_ancestors_iff {fs : List Filter} : Scan.Agree (fs.filterMap (·.ancestor? b)) ↔
    ∀ f ∈ fs, ∀ g ∈ fs, ∀ k ∈ f.ancestor? b, ∀ k' ∈ g.ancestor? b, k = k' := by
  constructor
  · intro h f hf g hg k hk k' hk'
    exact h k (List.mem_filterMap.2 ⟨f, hf, hk⟩) k' (List.mem_filterMap.2 ⟨g, hg, hk'⟩)
  · intro h k hk k' hk'
    obtain ⟨f, hf, hfk⟩ := List.mem_filterMap.1 hk
    obtain ⟨g, hg, hgk⟩ := List.mem_filterMap.1 hk'
    exact h f hf g hg k hfk k' hgk

/-- A scan of candidates is narrowed by a filter if a scan can test its conditions together. -/
theorem exists_filterScan_iff {s : Scan} (hc : q.candidateScan preference = .ok s) :
    (∃ s', q.filterScan b s = .ok s') ↔ Filter.Compatible b q.leaves := by
  obtain ⟨hanc, hwithin⟩ := candidateScan_conditions hc
  unfold filterScan leaves
  cases q.filter with
  | none =>
    refine iff_of_true ⟨s, rfl⟩ ⟨?_, ?_, ?_, ?_, ?_⟩ <;> simp
  | some f =>
    simp only [throw_eq_error, error_bind, Option.map_some, Option.getD_some]
    constructor
    · rintro ⟨s', h⟩
      split at h
      · cases h
      · obtain ⟨cs, hcs, h⟩ := bind_eq_ok.1 h
        obtain ⟨s₁, hs, h⟩ := bind_eq_ok.1 h
        obtain ⟨⟨⟩, hi, -⟩ := bind_eq_ok.1 h
        obtain ⟨hplain, hagree⟩ := Scan.exists_narrowAll_iff.1 ⟨s₁, hs⟩
        rw [hanc] at hagree
        obtain ⟨hone, hlower, hupper⟩ :=
          (Scan.describes_narrowAll hwithin hs).checkInequalities_iff.1 hi
        rw [Filter.conjuncts_eq_ok.1 hcs]
        exact ⟨List.forall_mem_map.2 hplain, agree_ancestors_iff.1 hagree, hone, hlower, hupper⟩
    · intro h
      obtain ⟨hsub, cs, hcs⟩ := exists_conjuncts_of_plain h.plain
      rw [Filter.conjuncts_eq_ok.1 hcs] at h
      have hagree := agree_ancestors_iff.2 h.oneAncestor
      obtain ⟨s₁, hs⟩ := Scan.exists_narrowAll_iff (s := s).2
        ⟨List.forall_mem_map.1 h.plain, by rw [hanc]; exact hagree⟩
      have hi := (Scan.describes_narrowAll hwithin hs).checkInequalities_iff.2
        ⟨h.oneField, h.lowerBound, h.upperBound⟩
      exact ⟨s₁, by simp [hsub, hcs, hs, hi]⟩

/-- A narrowed scan describes the conditions of the query. -/
theorem describes_filterScan {s s' : Scan} (hc : q.candidateScan preference = .ok s)
    (h : q.filterScan b s = .ok s') : s'.Describes q.leaves := by
  obtain ⟨-, hwithin⟩ := candidateScan_conditions hc
  unfold filterScan at h
  unfold leaves
  cases hf : q.filter with
  | none =>
    rw [hf] at h
    cases h
    exact Scan.describes (b := b) (by simp) (by simp) hwithin
  | some f =>
    simp only [hf, throw_eq_error, error_bind] at h
    split at h
    · cases h
    · obtain ⟨cs, hcs, h⟩ := bind_eq_ok.1 h
      obtain ⟨s₁, hs, h⟩ := bind_eq_ok.1 h
      obtain ⟨⟨⟩, -, h⟩ := bind_eq_ok.1 h
      cases h
      rw [Option.map_some, Option.getD_some, Filter.conjuncts_eq_ok.1 hcs]
      exact Scan.describes_narrowAll hwithin hs

/-- There is a scan for a query if the store can run it. -/
theorem exists_toScan_iff :
    (∃ s, q.toScan (q.effectivePreference preference) b = .ok s) ↔ q.Runnable preference b := by
  constructor
  · rintro ⟨s, h⟩
    have hne := ne_inMemory_of_toScan h
    rw [toScan_eq hne] at h
    obtain ⟨s₀, h₀, h⟩ := bind_eq_ok.1 h
    obtain ⟨s₁, h₁, h⟩ := bind_eq_ok.1 h
    obtain ⟨s₂, h₂, -⟩ := bind_eq_ok.1 h
    have hdesc := describes_filterScan h₀ h₁
    have hfits := (exists_filterScan_iff h₀).1 ⟨s₁, h₁⟩
    obtain ⟨hstored, hsorted⟩ :=
      (Scan.exists_sortBy_iff hdesc (hdesc.oneField_iff.2 hfits.oneField)).1 ⟨s₂, h₂⟩
    exact ⟨hne, exists_candidateScan_iff.1 ⟨s₀, h₀⟩, hfits, hstored, hsorted⟩
  · intro h
    obtain ⟨s₀, h₀⟩ := exists_candidateScan_iff.2 h.candidates
    obtain ⟨s₁, h₁⟩ := (exists_filterScan_iff h₀).2 h.filter
    have hdesc := describes_filterScan h₀ h₁
    obtain ⟨s₂, h₂⟩ := (Scan.exists_sortBy_iff hdesc (hdesc.oneField_iff.2 h.filter.oneField)).2
      ⟨h.stored, h.sorted⟩
    exact ⟨_, by rw [toScan_eq h.notInMemory, h₀, ok_bind, h₁, ok_bind, h₂]; rfl⟩

/-- A query that has passed validation is pushed down exactly if the store can run it, and the store
does not refuse the scan that it is pushed down to. -/
theorem pushDown_scan_iff (q : Query) (preference : Preference) (b : Bindings)
    (hv : q.validate b = .ok ()) :
    ((∃ s, q.pushDown preference b = .ok (.scan s)) ↔ q.Runnable preference b) ∧
      ∀ s, q.pushDown preference b = .ok (.scan s) → s.check = .ok () := by
  refine ⟨?_, fun s hs => ?_⟩
  · rw [← exists_toScan_iff]
    exact exists_congr fun s => pushDown_eq_scan.trans (and_iff_right hv)
  · obtain ⟨-, hscan⟩ := pushDown_eq_scan.1 hs
    obtain ⟨-, -, -, -, -, hcheck⟩ := toScan_spec hscan
    exact hcheck hv

/-- The sample query is valid, and the store can run it. -/
theorem pushDown_scan_sample :
    sampleQuery.validate {} = .ok () ∧ sampleQuery.Runnable .auto {} := by
  have hv : sampleQuery.validate {} = .ok () := rfl
  exact ⟨hv, (pushDown_scan_iff sampleQuery .auto {} hv).1.1 ⟨_, rfl⟩⟩

end Query
end EntityGraph
