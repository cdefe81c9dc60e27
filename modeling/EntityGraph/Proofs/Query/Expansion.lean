import EntityGraph.Proofs.Query.Equivalence

/-!
# Derived comparisons

A comparison for at most or at least says what the strict comparison and the equality say together,
and a membership in a list what the equalities with its items do. This is so of every field: it may
be missing, null, or a list with nulls, lists and values of other families among its items. The
store does not run the longer form, so that a query takes the other path with it.

* `Value.Splits`: a comparison of a scalar asks what several ones ask together;
* `Value.Splits.satisfies_iff`, `Value.Splits.violates_iff`: then so does that of any value, by
  recursion on the items of lists;
* `Value.compareField_of_splits`: its truth is the Kleene or of theirs;
* `Filter.Expands`: the longer forms;
* `Query.sameAnswer_of_expands`: what a query answers with them.
-/

namespace EntityGraph

/-! ## Values -/

namespace Value

/-- A comparison asks of every scalar whether one of several others holds. -/
structure Splits (op : Comparator) (w : Value) (alternatives : List (Comparator × Value)) :
    Prop where
  ne_contains : op ≠ .contains
  alternative_ne_contains : ∀ a ∈ alternatives, a.1 ≠ .contains
  ne_nil : alternatives ≠ []
  satisfies : ∀ v, v.isScalar = true →
    (Satisfies op w v ↔ ∃ a ∈ alternatives, Satisfies a.1 a.2 v)
  violates : ∀ v, v.isScalar = true →
    (Violates op w v ↔ ∀ a ∈ alternatives, Violates a.1 a.2 v)

theorem not_satisfies_null {op : Comparator} {w : Value} : ¬Satisfies op w .null := by
  intro h
  cases h with | scalar hs => cases hs

theorem not_violates_null {op : Comparator} {w : Value} : ¬Violates op w .null := by
  intro h
  cases h with | scalar hs => cases hs

namespace Splits

variable {op : Comparator} {w : Value} {alternatives : List (Comparator × Value)}

/-- A comparison that splits on scalars holds where one of the others does. -/
theorem satisfies_iff (h : Splits op w alternatives) (v : Value) :
    Satisfies op w v ↔ ∃ a ∈ alternatives, Satisfies a.1 a.2 v := by
  cases v with
  | null => simp [not_satisfies_null]
  | list items =>
    have hitems : ∀ a ∈ alternatives,
        (Satisfies a.1 a.2 (.list items) ↔ ∃ v ∈ items, Satisfies a.1 a.2 v) := fun a ha => by
      rw [satisfies_list, if_neg (h.alternative_ne_contains a ha)]
    rw [satisfies_list, if_neg h.ne_contains]
    constructor
    · rintro ⟨v, hv, hs⟩
      obtain ⟨a, ha, hs⟩ := (h.satisfies_iff v).1 hs
      exact ⟨a, ha, (hitems a ha).2 ⟨v, hv, hs⟩⟩
    · rintro ⟨a, ha, hs⟩
      obtain ⟨v, hv, hs⟩ := (hitems a ha).1 hs
      exact ⟨v, hv, (h.satisfies_iff v).2 ⟨a, ha, hs⟩⟩
  | bool | int | float | text | blob | key => exact h.satisfies _ rfl

/-- A comparison that splits on scalars fails where all of the others do. -/
theorem violates_iff (h : Splits op w alternatives) (v : Value) :
    Violates op w v ↔ ∀ a ∈ alternatives, Violates a.1 a.2 v := by
  obtain ⟨first, hfirst⟩ := List.exists_mem_of_ne_nil _ h.ne_nil
  cases v with
  | null => exact iff_of_false not_violates_null fun hall => not_violates_null (hall first hfirst)
  | list items =>
    have hitems : ∀ a ∈ alternatives, (Violates a.1 a.2 (.list items) ↔
        items ≠ [] ∧ ∀ v ∈ items, Violates a.1 a.2 v) := fun a ha => by
      rw [violates_list, if_neg (h.alternative_ne_contains a ha)]
    rw [violates_list, if_neg h.ne_contains]
    constructor
    · rintro ⟨hne, hv⟩ a ha
      exact (hitems a ha).2 ⟨hne, fun v hmem => (h.violates_iff v).1 (hv v hmem) a ha⟩
    · intro hall
      refine ⟨((hitems first hfirst).1 (hall first hfirst)).1, fun v hmem => ?_⟩
      exact (h.violates_iff v).2 fun a ha => ((hitems a ha).1 (hall a ha)).2 v hmem
  | bool | int | float | text | blob | key => exact h.violates _ rfl

end Splits

/-- An order that is not strict asks for the strict one or for equality. Where the values are not
comparable, both orders are unknown and equality fails. -/
theorem splits_of_strict {op strict : Comparator} {w : Value} (hop : op ≠ .contains)
    (hstrict : strict ≠ .contains) (happlies : ∀ v, op.Applies v w ↔ v.Comparable w)
    (happlies' : ∀ v, strict.Applies v w ↔ v.Comparable w)
    (hasks : ∀ v, op.Asks v w ↔ strict.Asks v w ∨ v.compare w = .eq) :
    Splits op w [(strict, w), (.eq, w)] where
  ne_contains := hop
  alternative_ne_contains := by simp [hstrict]
  ne_nil := nofun
  satisfies v hs := by
    have heq : Satisfies .eq w v ↔ v.Comparable w ∧ v.compare w = .eq :=
      (satisfies_scalar hs).trans ⟨And.right, fun h => ⟨trivial, h⟩⟩
    simp only [List.mem_cons, List.not_mem_nil, or_false, exists_eq_or_imp, exists_eq_left, heq]
    rw [satisfies_scalar hs, satisfies_scalar hs, happlies, happlies', hasks]
    tauto
  violates v hs := by
    have heq : Violates .eq w v ↔ ¬(v.Comparable w ∧ v.compare w = .eq) :=
      (violates_scalar hs).trans ⟨And.right, fun h => ⟨trivial, h⟩⟩
    simp only [List.mem_cons, List.not_mem_nil, or_false, forall_eq_or_imp, forall_eq, heq]
    rw [violates_scalar hs, violates_scalar hs, happlies, happlies', hasks]
    tauto

theorem splits_le (w : Value) : Splits .le w [(.lt, w), (.eq, w)] :=
  splits_of_strict nofun nofun (fun _ => .rfl) (fun _ => .rfl) fun v => by
    simp only [Comparator.Asks]
    cases v.compare w <;> simp

theorem splits_ge (w : Value) : Splits .ge w [(.gt, w), (.eq, w)] :=
  splits_of_strict nofun nofun (fun _ => .rfl) (fun _ => .rfl) fun v => by
    simp only [Comparator.Asks]
    cases v.compare w <;> simp

/-- A membership asks for equality with one of the items. -/
theorem splits_within {ws : List Value} (hne : ws ≠ []) :
    Splits .within (.list ws) (ws.map (.eq, ·)) where
  ne_contains := nofun
  alternative_ne_contains := by simp
  ne_nil := by simpa using hne
  satisfies v hs := by
    simp [satisfies_scalar hs, Comparator.Applies, Comparator.Asks]
  violates v hs := by
    simp [violates_scalar hs, Comparator.Applies, Comparator.Asks]

/-! ## Fields -/

/-- The truth that one of several comparisons of a field holds. -/
def compareFieldAny (field : Option Value) (alternatives : List (Comparator × Value)) : Truth :=
  alternatives.foldr (fun a t => (compareField field a.1 a.2).or t) .fails

theorem says_compareFieldAny (field : Option Value) : ∀ alternatives : List (Comparator × Value),
    (compareFieldAny field alternatives).Says (∃ a ∈ alternatives, FieldSatisfies field a.1 a.2)
      (∀ a ∈ alternatives, FieldViolates field a.1 a.2)
  | [] => by
    rw [compareFieldAny]
    constructor <;> simp
  | a :: alternatives =>
    ((says_compareField field a.1 a.2).or (says_compareFieldAny field alternatives)).congr
      (by simp) (by simp)

/-- The truth of a comparison of a field that splits is the Kleene or of the others. -/
theorem compareField_of_splits {op : Comparator} {w : Value}
    {alternatives : List (Comparator × Value)} (h : Splits op w alternatives) (hw : w ≠ .null)
    (hnull : ∀ a ∈ alternatives, a.2 ≠ .null) (field : Option Value) :
    compareField field op w = compareFieldAny field alternatives := by
  have hany := says_compareFieldAny field alternatives
  refine (says_compareField field op w).unique (hany.congr ?_ ?_)
  · rw [fieldSatisfies_iff hw]
    constructor
    · rintro ⟨a, ha, hs⟩
      obtain ⟨v, hv, hs⟩ := (fieldSatisfies_iff (hnull a ha)).1 hs
      exact ⟨v, hv, (h.satisfies_iff v).2 ⟨a, ha, hs⟩⟩
    · rintro ⟨v, hv, hs⟩
      obtain ⟨a, ha, hs⟩ := (h.satisfies_iff v).1 hs
      exact ⟨a, ha, (fieldSatisfies_iff (hnull a ha)).2 ⟨v, hv, hs⟩⟩
  · rw [fieldViolates_iff hw]
    constructor
    · intro hall
      obtain ⟨a, ha⟩ := List.exists_mem_of_ne_nil _ h.ne_nil
      obtain ⟨v, hv, -⟩ := (fieldViolates_iff (hnull a ha)).1 (hall a ha)
      refine ⟨v, hv, (h.violates_iff v).2 fun a ha => ?_⟩
      obtain ⟨v', hv', hs⟩ := (fieldViolates_iff (hnull a ha)).1 (hall a ha)
      cases hv.symm.trans hv'
      exact hs
    · rintro ⟨v, hv, hs⟩ a ha
      exact (fieldViolates_iff (hnull a ha)).2 ⟨v, hv, (h.violates_iff v).1 hs a ha⟩

end Value

/-! ## Filters -/

namespace Filter

/-- A comparison with an operand that is not null becomes the longer form that says the same. -/
inductive Expands (b : Bindings) : Filter → Filter → Prop
  | le {field operand w} : operand.resolve b = .ok w → w ≠ .null →
    Expands b (compare field .le operand)
      (or [compare field .lt operand, compare field .eq operand])
  | ge {field operand w} : operand.resolve b = .ok w → w ≠ .null →
    Expands b (compare field .ge operand)
      (or [compare field .gt operand, compare field .eq operand])
  | within {field operand ws} : operand.resolve b = .ok (.list ws) → ws ≠ [] → .null ∉ ws →
    Expands b (compare field .within operand)
      (or (ws.map fun w => compare field .eq (.literal w)))

variable {b : Bindings} {f g : Filter}

theorem evaluateAny_equalities (row : Row) (field : Field) (ws : List Value) :
    evaluateAny row b (ws.map fun w => compare field .eq (.literal w)) =
      .ok (Value.compareFieldAny (field.resolve row) (ws.map (.eq, ·))) := by
  induction ws with
  | nil => rfl
  | cons w ws ih =>
    rw [List.map_cons, evaluateAny, ih]
    rfl

theorem validate_compare {field : Field} {op : Comparator} {operand : Operand} {w : Value}
    (hw : operand.resolve b = .ok w) : (compare field op operand).validate b = .ok () ↔
      field.validate = .ok () ∧ (op = .within → w.list?.isSome) := by
  rw [validate, hw, check_bind_eq_ok, ok_bind]
  cases w.list? <;> simp

/-- A comparison and its longer form have one truth on every row. -/
theorem Expands.evaluate_eq (h : Expands b f g) (row : Row) :
    ∃ t, f.evaluate row b = .ok t ∧ g.evaluate row b = .ok t := by
  have hstrict : ∀ {op strict : Comparator} {field : Field} {operand : Operand} {w : Value},
      Value.Splits op w [(strict, w), (.eq, w)] → operand.resolve b = .ok w → w ≠ .null →
      ∃ t, (compare field op operand).evaluate row b = .ok t ∧
        (or [compare field strict operand, compare field .eq operand]).evaluate row b = .ok t := by
    intro op strict field operand w hsplits hw hnull
    refine ⟨Value.compareField (field.resolve row) op w, by simp [evaluate, hw], ?_⟩
    rw [Value.compareField_of_splits hsplits hnull (by simpa using hnull)]
    simp [evaluate, evaluateAny, hw, Value.compareFieldAny]
  cases h with
  | le hw hnull => exact hstrict (Value.splits_le _) hw hnull
  | ge hw hnull => exact hstrict (Value.splits_ge _) hw hnull
  | @within field operand ws hw hne hnull =>
    refine ⟨Value.compareField (field.resolve row) .within (.list ws), by simp [evaluate, hw], ?_⟩
    have hitems : ∀ a ∈ ws.map (Comparator.eq, ·), a.2 ≠ .null := by
      simp only [List.forall_mem_map]
      exact fun w hmem hw => hnull (hw ▸ hmem)
    rw [evaluate, evaluateAny_equalities,
      Value.compareField_of_splits (Value.splits_within hne) (by simp) hitems]

/-- A comparison is valid if its longer form is. -/
theorem Expands.validate_iff (h : Expands b f g) :
    f.validate b = .ok () ↔ g.validate b = .ok () := by
  cases h with
  | le hw | ge hw => simp [validate_or, validate_compare hw]
  | within hw hne =>
    have hlit : ∀ w : Value, (Operand.literal w).resolve b = .ok w := fun _ => rfl
    obtain ⟨w, hmem⟩ := List.exists_mem_of_ne_nil _ hne
    simp only [validate_or, validate_compare hw, List.forall_mem_map, validate_compare (hlit _)]
    exact ⟨fun h _ _ => ⟨h.1, nofun⟩, fun h => ⟨(h w hmem).1, fun _ => rfl⟩⟩

theorem Expands.agree (h : Expands b f g) : Agree b f g where
  valid := h.validate_iff
  truth _ row := by
    obtain ⟨t, hf, hg⟩ := h.evaluate_eq row
    rw [hf, hg]

/-- The store runs no query with the longer form as its filter. -/
theorem Expands.conjuncts_eq (h : Expands b f g) :
    g.subquery? = none ∧ g.conjuncts = .error .disjunction := by
  cases h with
  | le | ge => exact ⟨rfl, rfl⟩
  | within =>
    refine ⟨?_, rfl⟩
    rw [subquery?, firstSubquery?_eq_none_iff]
    exact List.forall_mem_map.2 fun _ _ => rfl

end Filter

/-! ## Queries -/

namespace Query

/-- A query that is pushed down with a comparison as its filter is refused with the longer form of
that. -/
theorem pushDown_of_expands {q : Query} {b : Bindings} {f g : Filter} (hq : q.filter = some f)
    (h : f.Expands b g) {preference : Preference} {s : Scan}
    (hs : q.pushDown preference b = .ok (.scan s)) :
    (q.withFilter g).pushDown preference b = .ok (.refused .disjunction) := by
  obtain ⟨hv, hscan⟩ := pushDown_eq_scan.1 hs
  have hpref := ne_inMemory_of_toScan hscan
  have hagree : q.Agree b (q.withFilter g) := agree_of_filter (hq ▸ .some h.agree)
  refine pushDown_eq_refused.2 ⟨hagree.valid.1 hv, ?_⟩
  change Query.toScan _ (q.effectivePreference preference) b = _
  rw [toScan_eq hpref] at hscan ⊢
  obtain ⟨s₀, h₀, -⟩ := bind_eq_ok.1 hscan
  have hcand : (q.withFilter g).candidateScan (q.effectivePreference preference) = .ok s₀ := h₀
  obtain ⟨hsub, hcs⟩ := h.conjuncts_eq
  have hfilter : (q.withFilter g).filterScan b s₀ = .error .disjunction := by
    simp [filterScan, hsub, hcs]
  rw [hcand, ok_bind, hfilter]
  rfl

/-- A derived comparison and its longer form have one truth on every row. A query of the rows of its
kind answers the same with any such comparisons in its filter replaced, wherever it is run with each
filter; if the store runs it with a comparison for its filter, it does not with the longer form. -/
theorem sameAnswer_of_expands (q : Query) (config : QueryConfig) (b : Bindings) (ctx : Context)
    (hc : q.candidates.rows? = none) (hf : ctx.store.faults = []) (hb : 1 ≤ config.batchSize)
    (hcap : config.candidateCap = none) :
    (∀ f g : Filter, f.Expands b g → ∀ row,
      ∃ t, f.evaluate row b = .ok t ∧ g.evaluate row b = .ok t) ∧
    (∀ f ∈ q.filter, ∀ g, Filter.Rewrites (Filter.Expands b) f g →
      q.SameAnswer (outcome (q.rows config b ctx))
        (outcome ((q.withFilter g).rows config b ctx))) ∧
    (∀ f ∈ q.filter, ∀ g, f.Expands b g → ∀ preference s,
      q.pushDown preference b = .ok (.scan s) →
        (q.withFilter g).pushDown preference b = .ok (.refused .disjunction)) := by
  refine ⟨fun f g h row => h.evaluate_eq row, fun f hq g h => ?_,
    fun f hq g h preference s hs => ?_⟩
  · have hagree : Filter.Agree b f g := .of_rewrites Filter.Expands.agree h
    exact sameAnswer_of_agree (Option.mem_def.1 hq ▸ .some hagree) config hc hf hb hcap
  · exact pushDown_of_expands hq h hs

/-- The rows whose property is one of three numbers, from the smallest on. -/
def sampleAmong : Query where
  kind := "Book"
  filter := some (.compare (.property "a") .within (.literal (.list [.int 5, .int 9, .int 11])))
  ordering := [⟨.property "a", .ascending⟩]

/-- The rows whose property is equal to the one or the other of the numbers. -/
def sampleEither : Query :=
  sampleAmong.withFilter (.or ([.int 5, .int 9, .int 11].map fun v =>
    .compare (.property "a") .eq (.literal v)))

theorem sameAnswer_of_expands_sample :
    outcome (sampleAmong.rows {} {} sampleContext) = .ok [sampleRow 2 5, sampleRow 1 9] ∧
      outcome (sampleEither.rows {} {} sampleContext) = .ok [sampleRow 2 5, sampleRow 1 9] ∧
      (∃ s, sampleAmong.pushDown .auto {} = .ok (.scan s)) ∧
      sampleEither.pushDown .auto {} = .ok (.refused .disjunction) := by
  obtain ⟨-, hanswer, hrefused⟩ :=
    sampleAmong.sameAnswer_of_expands {} {} sampleContext rfl rfl (by decide) rfl
  have hexpands : Filter.Expands {} (.compare (.property "a") .within
      (.literal (.list [.int 5, .int 9, .int 11]))) _ := .within rfl nofun (by simp)
  have hrun : outcome (sampleAmong.rows {} {} sampleContext) =
      .ok [sampleRow 2 5, sampleRow 1 9] := rfl
  have hscan : ∃ s, sampleAmong.pushDown .auto {} = .ok (.scan s) := ⟨_, rfl⟩
  have h := hanswer _ rfl _ (.step hexpands)
  refine ⟨hrun, ?_, hscan, ?_⟩
  · rw [hrun] at h
    generalize hx : outcome _ = x at h
    cases h
    exact hx
  · obtain ⟨s, hs⟩ := hscan
    exact hrefused _ rfl _ hexpands .auto s hs

end Query
end EntityGraph
