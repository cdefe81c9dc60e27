import EntityGraph.Proofs.Sequencing
import EntityGraph.Query.Pushdown

/-!
# What a pushed-down query selects

A query that passes validation has a truth on every row, and the scan that it is pushed down to
selects the rows of its kind on which its filter holds:

* `Filter.exists_evaluate`: evaluation of a valid filter does not fail;
* `Filter.evaluate_conjuncts`: a filter is the conjunction of its conjuncts;
* `Scan.narrow_compare_iff`, `Scan.narrow_under_iff`: when a scan is narrowed, and to what;
* `Query.toScan_spec`: the scan selects the candidates that the filter keeps, in the ordering and
  the window of the query, and the store does not refuse it;
* `Query.select_eq_ok`: the rows that a query selects in memory;
* `Query.select_candidates_eq_answer`: the scan answers with these.
-/

namespace EntityGraph

namespace Truth

@[simp] theorem and_holds (t : Truth) : t.and holds = t := by cases t <;> rfl

@[simp] theorem holds_and (t : Truth) : holds.and t = t := by cases t <;> rfl

theorem and_eq_holds {a b : Truth} : a.and b = holds ↔ a = holds ∧ b = holds := by
  cases a <;> cases b <;> simp [Truth.and]

theorem ofBool_eq_holds {b : Bool} : ofBool b = holds ↔ b = true := by
  cases b <;> simp [ofBool]

end Truth

/-! ## Validation and evaluation -/

theorem Operand.resolve_of_resolveAncestor {o : Operand} {b : Bindings} {k : Key}
    (h : o.resolveAncestor b = .ok k) : o.resolve b = .ok (.key k) := by
  obtain ⟨v, hv, h⟩ := bind_eq_ok.1 h
  rw [hv]
  cases v with
  | key k' =>
    simp only at h
    split at h
    · simp only [pure_eq_ok, Except.ok.injEq] at h
      rw [h]
    · cases h
  | _ => cases h

namespace Filter

mutual

/-- Evaluation of a valid filter does not fail. -/
theorem exists_evaluate {b : Bindings} (row : Row) :
    ∀ {f : Filter}, f.validate b = .ok () → ∃ t, f.evaluate row b = .ok t
  | and parts, h => by
    rw [validate] at h
    rw [evaluate]
    exact exists_evaluateAll row h
  | or parts, h => by
    rw [validate] at h
    rw [evaluate]
    exact exists_evaluateAny row h
  | not part, h => by
    rw [validate] at h
    obtain ⟨t, ht⟩ := exists_evaluate row h
    exact ⟨t.not, by rw [evaluate, ht]; rfl⟩
  | compare field op operand, h => by
    rw [validate] at h
    obtain ⟨-, -, h⟩ := bind_eq_ok.1 h
    obtain ⟨v, hv, -⟩ := bind_eq_ok.1 h
    exact ⟨_, by rw [evaluate, hv]; rfl⟩
  | isNull field, _ => ⟨_, by rw [evaluate]; rfl⟩
  | isNotNull field, _ => ⟨_, by rw [evaluate]; rfl⟩
  | under ancestor, h => by
    rw [validate] at h
    obtain ⟨k, hk, -⟩ := bind_eq_ok.1 h
    exact ⟨_, by rw [evaluate, Operand.resolve_of_resolveAncestor hk]; rfl⟩
  | inSubquery field name, h => by
    rw [validate] at h
    obtain ⟨-, -, h⟩ := bind_eq_ok.1 h
    cases hs : b.subqueries.get? name with
    | none => simp [hs] at h
    | some results => exact ⟨_, by rw [evaluate, hs]; rfl⟩

theorem exists_evaluateAll {b : Bindings} (row : Row) :
    ∀ {fs : List Filter}, validateAll b fs = .ok () → ∃ t, evaluateAll row b fs = .ok t
  | [], _ => ⟨_, by rw [evaluateAll]; rfl⟩
  | f :: fs, h => by
    rw [validateAll] at h
    obtain ⟨⟨⟩, hf, hfs⟩ := bind_eq_ok.1 h
    obtain ⟨t, ht⟩ := exists_evaluate row hf
    obtain ⟨ts, hts⟩ := exists_evaluateAll row hfs
    exact ⟨t.and ts, by rw [evaluateAll, ht, hts]; rfl⟩

theorem exists_evaluateAny {b : Bindings} (row : Row) :
    ∀ {fs : List Filter}, validateAll b fs = .ok () → ∃ t, evaluateAny row b fs = .ok t
  | [], _ => ⟨_, by rw [evaluateAny]; rfl⟩
  | f :: fs, h => by
    rw [validateAll] at h
    obtain ⟨⟨⟩, hf, hfs⟩ := bind_eq_ok.1 h
    obtain ⟨t, ht⟩ := exists_evaluate row hf
    obtain ⟨ts, hts⟩ := exists_evaluateAny row hfs
    exact ⟨t.or ts, by rw [evaluateAny, ht, hts]; rfl⟩

end

/-! ## Conjunctions -/

/-- The filter that a conjunct is. -/
def ofConjunct : Conjunct → Filter
  | .compare field op operand => compare field op operand
  | .under ancestor => under ancestor

theorem evaluateAll_singleton (row : Row) (b : Bindings) (f : Filter) :
    evaluateAll row b [f] = f.evaluate row b := by
  rw [evaluateAll, evaluateAll]
  cases f.evaluate row b <;> simp

theorem evaluateAll_append (row : Row) (b : Bindings) (gs : List Filter) :
    ∀ fs : List Filter, evaluateAll row b (fs ++ gs) = do
      let t ← evaluateAll row b fs
      let u ← evaluateAll row b gs
      return t.and u
  | [] => by
    rw [List.nil_append, evaluateAll]
    cases evaluateAll row b gs <;> simp
  | f :: fs => by
    rw [List.cons_append, evaluateAll, evaluateAll, evaluateAll_append row b gs fs]
    cases f.evaluate row b with
    | error e => rfl
    | ok t =>
      cases evaluateAll row b fs with
      | error e => rfl
      | ok u => cases evaluateAll row b gs <;> simp [Truth.and_assoc]

mutual

/-- A filter that is flattened to conjuncts has the truth of their conjunction. -/
theorem evaluate_conjuncts (row : Row) (b : Bindings) : ∀ {f : Filter} {cs : List Conjunct},
    f.conjuncts = .ok cs → f.evaluate row b = evaluateAll row b (cs.map ofConjunct)
  | and parts, cs, h => by
    rw [conjuncts] at h
    rw [evaluate]
    exact evaluateAll_allConjuncts row b h
  | or _, _, h => by simp [conjuncts] at h
  | not _, _, h => by simp [conjuncts] at h
  | isNull _, _, h => by simp [conjuncts] at h
  | isNotNull _, _, h => by simp [conjuncts] at h
  | inSubquery .., _, h => by simp [conjuncts] at h
  | compare field op operand, cs, h => by
    simp only [conjuncts, Except.ok.injEq] at h
    subst h
    exact (evaluateAll_singleton row b _).symm
  | under ancestor, cs, h => by
    simp only [conjuncts, Except.ok.injEq] at h
    subst h
    exact (evaluateAll_singleton row b _).symm

theorem evaluateAll_allConjuncts (row : Row) (b : Bindings) :
    ∀ {fs : List Filter} {cs : List Conjunct}, allConjuncts fs = .ok cs →
      evaluateAll row b fs = evaluateAll row b (cs.map ofConjunct)
  | [], cs, h => by
    simp only [allConjuncts, Except.ok.injEq] at h
    subst h
    rfl
  | f :: fs, cs, h => by
    rw [allConjuncts] at h
    obtain ⟨cs₁, h₁, h⟩ := bind_eq_ok.1 h
    obtain ⟨cs₂, h₂, h⟩ := bind_eq_ok.1 h
    simp only [pure_eq_ok, Except.ok.injEq] at h
    subst h
    rw [evaluateAll, List.map_append, evaluateAll_append, evaluate_conjuncts row b h₁,
      evaluateAll_allConjuncts row b h₂]

end

mutual

/-- The conjuncts of a valid filter are valid. -/
theorem validate_conjuncts {b : Bindings} : ∀ {f : Filter} {cs : List Conjunct},
    f.conjuncts = .ok cs → f.validate b = .ok () → ∀ c ∈ cs, (ofConjunct c).validate b = .ok ()
  | and parts, cs, h, hv => by
    rw [conjuncts] at h
    rw [validate] at hv
    exact validate_allConjuncts h hv
  | or _, _, h, _ => by simp [conjuncts] at h
  | not _, _, h, _ => by simp [conjuncts] at h
  | isNull _, _, h, _ => by simp [conjuncts] at h
  | isNotNull _, _, h, _ => by simp [conjuncts] at h
  | inSubquery .., _, h, _ => by simp [conjuncts] at h
  | compare field op operand, cs, h, hv => by
    simp only [conjuncts, Except.ok.injEq] at h
    subst h
    intro c hc
    rw [List.mem_singleton.1 hc]
    exact hv
  | under ancestor, cs, h, hv => by
    simp only [conjuncts, Except.ok.injEq] at h
    subst h
    intro c hc
    rw [List.mem_singleton.1 hc]
    exact hv

theorem validate_allConjuncts {b : Bindings} : ∀ {fs : List Filter} {cs : List Conjunct},
    allConjuncts fs = .ok cs → validateAll b fs = .ok () →
      ∀ c ∈ cs, (ofConjunct c).validate b = .ok ()
  | [], cs, h, _ => by
    simp only [allConjuncts, Except.ok.injEq] at h
    subst h
    simp
  | f :: fs, cs, h, hv => by
    rw [allConjuncts] at h
    rw [validateAll] at hv
    obtain ⟨cs₁, h₁, h⟩ := bind_eq_ok.1 h
    obtain ⟨cs₂, h₂, h⟩ := bind_eq_ok.1 h
    obtain ⟨⟨⟩, hv₁, hv₂⟩ := bind_eq_ok.1 hv
    simp only [pure_eq_ok, Except.ok.injEq] at h
    subst h
    intro c hc
    rcases List.mem_append.1 hc with hc | hc
    · exact validate_conjuncts h₁ hv₁ c hc
    · exact validate_allConjuncts h₂ hv₂ c hc

end

/-- A list of filters has no subquery if none of them has one. -/
theorem firstSubquery?_eq_none_iff : ∀ {fs : List Filter},
    firstSubquery? fs = none ↔ ∀ f ∈ fs, f.subquery? = none
  | [] => by simp [firstSubquery?]
  | f :: fs => by
    rw [List.forall_mem_cons, ← firstSubquery?_eq_none_iff, firstSubquery?]
    cases f.subquery? <;> simp

/-- Whether a filter holds on a row. -/
def holdsOn (f : Filter) (b : Bindings) (row : Row) : Bool :=
  f.evaluate row b matches .ok .holds

theorem holdsOn_of_evaluate {f : Filter} {b : Bindings} {row : Row} {t : Truth}
    (h : f.evaluate row b = .ok t) : f.holdsOn b row = decide (t = .holds) := by
  rw [holdsOn, h]
  cases t <;> rfl

theorem evaluateAll_eq_holds {b : Bindings} {row : Row} : ∀ {fs : List Filter},
    evaluateAll row b fs = .ok .holds ↔ ∀ f ∈ fs, f.evaluate row b = .ok .holds
  | [] => by simp [evaluateAll]
  | f :: fs => by
    rw [evaluateAll, List.forall_mem_cons, ← evaluateAll_eq_holds]
    cases f.evaluate row b with
    | error e => simp
    | ok t => cases evaluateAll row b fs <;> simp [Truth.and_eq_holds]

theorem holdsOn_iff {f : Filter} {b : Bindings} {row : Row} :
    f.holdsOn b row = true ↔ f.evaluate row b = .ok .holds := by
  unfold holdsOn
  split <;> simp_all

/-- A filter that is flattened to conjuncts holds where all of them do. -/
theorem holdsOn_conjuncts {f : Filter} {cs : List Conjunct} (h : f.conjuncts = .ok cs)
    (b : Bindings) (row : Row) :
    f.holdsOn b row = cs.all fun c => (ofConjunct c).holdsOn b row := by
  rw [Bool.eq_iff_iff, holdsOn_iff, evaluate_conjuncts row b h, evaluateAll_eq_holds,
    List.all_eq_true]
  simp only [List.forall_mem_map, holdsOn_iff]

/-- A filter selects the rows that it holds on, if it can be evaluated on all of them. -/
theorem select_eq_ok {f : Filter} {b : Bindings} : ∀ {rows kept : List Row},
    f.select b rows = .ok kept ↔
      (∀ row ∈ rows, ∃ t, f.evaluate row b = .ok t) ∧ rows.filter (f.holdsOn b) = kept
  | [], kept => by simp [select]
  | row :: rows, kept => by
    rw [select, List.forall_mem_cons]
    cases ht : f.evaluate row b with
    | error e => simp
    | ok t =>
      cases hrows : f.select b rows with
      | error e =>
        have hnone : ¬∀ row ∈ rows, ∃ t, f.evaluate row b = .ok t := fun h => by
          cases hrows.symm.trans (select_eq_ok.2 ⟨h, rfl⟩)
        simp [hnone]
      | ok kept' =>
        obtain ⟨hall, rfl⟩ := select_eq_ok.1 hrows
        have hkept : (row :: rows).filter (f.holdsOn b) =
            if t = .holds then row :: rows.filter (f.holdsOn b) else rows.filter (f.holdsOn b) := by
          simp [List.filter_cons, holdsOn_of_evaluate ht]
        rw [hkept]
        exact ⟨fun h => ⟨⟨⟨t, rfl⟩, hall⟩, Except.ok.inj h⟩, fun h => congrArg Except.ok h.2⟩

/-- A valid filter selects the rows that it holds on. -/
theorem select_eq {f : Filter} {b : Bindings} (h : f.validate b = .ok ()) (rows : List Row) :
    f.select b rows = .ok (rows.filter (f.holdsOn b)) :=
  select_eq_ok.2 ⟨fun row _ => exists_evaluate row h, rfl⟩

end Filter

/-! ## Building the scan -/

theorem ScanField.ofField?_eq_some {f : Field} {g : ScanField} :
    ofField? f = some g ↔ f = g.toField := by
  cases f <;> cases g <;> simp [ofField?, toField]

theorem ScanOp.ofComparator?_eq_some {op : Comparator} {o : ScanOp} :
    ofComparator? op = some o ↔ op = o.toComparator := by
  cases op <;> cases o <;> simp [ofComparator?, toComparator]

/-- The value of a condition asks for no null, and it is a list in a membership test only. -/
structure ScanCondition.IsPlain (c : ScanCondition) : Prop where
  notNull : c.value.asksForNull = false
  notList : c.op ≠ .within → c.value.list? = none

namespace Filter

/-- The condition of a scan that a comparison becomes. -/
def condition? (b : Bindings) : Filter → Option ScanCondition
  | compare field op operand => do
    let field ← ScanField.ofField? field
    let op ← ScanOp.ofComparator? op
    let v ← (operand.resolve b).toOption
    return ⟨field, op, v⟩
  | _ => none

theorem condition?_eq_some {b : Bindings} {field : Field} {op : Comparator} {operand : Operand}
    {c : ScanCondition} : (compare field op operand).condition? b = some c ↔
    field = c.field.toField ∧ op = c.op.toComparator ∧ operand.resolve b = .ok c.value := by
  obtain ⟨g, o, v⟩ := c
  simp only [condition?, bind, Option.bind_eq_some_iff, ScanField.ofField?_eq_some,
    ScanOp.ofComparator?_eq_some, pure, Option.some.injEq, ScanCondition.mk.injEq]
  constructor
  · rintro ⟨_, rfl, _, rfl, _, h, rfl, rfl, rfl⟩
    exact ⟨rfl, rfl, toOption_eq_some.1 h⟩
  · rintro ⟨rfl, rfl, h⟩
    exact ⟨g, rfl, o, rfl, v, toOption_eq_some.2 h, rfl, rfl, rfl⟩

end Filter

namespace Scan

/-- A comparison that the store can test adds a condition to a scan. -/
theorem narrow_compare_iff {s s' : Scan} {b : Bindings} {field : Field} {op : Comparator}
    {operand : Operand} : s.narrow b (.compare field op operand) = .ok s' ↔
      ∃ c, (Filter.compare field op operand).condition? b = some c ∧ c.IsPlain ∧
        s' = { s with conditions := s.conditions ++ [c] } := by
  constructor
  · intro h
    rw [narrow] at h
    cases hf : ScanField.ofField? field with
    | none => simp [hf] at h
    | some g =>
      cases ho : ScanOp.ofComparator? op with
      | none => simp [hf, ho] at h
      | some o =>
        cases hv : operand.resolve b with
        | error e => simp [hf, ho, hv] at h
        | ok v =>
          simp only [hf, ho, hv, throw_eq_error, error_bind] at h
          split at h
          · cases h
          · rename_i hnull
            split at h
            · cases h
            · rename_i hlist
              refine ⟨⟨g, o, v⟩, Filter.condition?_eq_some.2 ⟨ScanField.ofField?_eq_some.1 hf,
                ScanOp.ofComparator?_eq_some.1 ho, hv⟩, ⟨?_, ?_⟩, by simpa using h.symm⟩
              · simpa using hnull
              · intro hne
                simpa [hne] using hlist
  · rintro ⟨⟨g, o, v⟩, hc, ⟨hnull, hlist⟩, rfl⟩
    obtain ⟨rfl, rfl, hv⟩ := Filter.condition?_eq_some.1 hc
    rw [narrow]
    simp only [ScanField.ofField?_eq_some.2 rfl, ScanOp.ofComparator?_eq_some.2 rfl, hv, hnull]
    by_cases ho : o = .within
    · simp [ho]
    · simp [ho, show v.list? = none from hlist ho]

/-- An ancestor test sets the ancestor of a scan, unless another one is set. -/
theorem narrow_under_iff {s s' : Scan} {b : Bindings} {ancestor : Operand} :
    s.narrow b (.under ancestor) = .ok s' ↔ ∃ k, ancestor.resolveAncestor b = .ok k ∧
      (∀ k' ∈ s.ancestor, k' = k) ∧ s' = { s with ancestor := some k } := by
  have hany : ∀ (o : Option Key) (k : Key),
      o.any (· != k) = true ↔ ¬∀ k' ∈ o, k' = k := fun o k => by cases o <;> simp
  rw [narrow]
  cases ancestor.resolveAncestor b with
  | error e => simp
  | ok k =>
    simp only [hany, Except.ok.injEq]
    split
    · rename_i hs
      simp only [reduceCtorEq, false_iff]
      rintro ⟨_, rfl, hs', -⟩
      exact hs hs'
    · rename_i hs
      constructor
      · intro h
        cases h
        exact ⟨k, rfl, Classical.not_not.1 hs, rfl⟩
      · rintro ⟨_, rfl, -, rfl⟩
        rfl

/-- What narrowing by a conjunct does: an ancestor is set that agrees with the one before, or a
condition is added. -/
theorem narrow_cases {s s' : Scan} {b : Bindings} {c : Conjunct} (h : s.narrow b c = .ok s') :
    (∃ ancestor k, c = .under ancestor ∧ ancestor.resolveAncestor b = .ok k ∧
      (∀ k' ∈ s.ancestor, k' = k) ∧ s' = { s with ancestor := some k }) ∨
    (∃ (field : ScanField) (op : ScanOp) (operand : Operand) (v : Value),
      c = .compare field.toField op.toComparator operand ∧ operand.resolve b = .ok v ∧
      s' = { s with conditions := s.conditions ++ [⟨field, op, v⟩] }) := by
  cases c with
  | under ancestor =>
    obtain ⟨k, hk, hs, rfl⟩ := narrow_under_iff.1 h
    exact .inl ⟨ancestor, k, rfl, hk, hs, rfl⟩
  | compare field op operand =>
    obtain ⟨⟨f, o, v⟩, hc, -, rfl⟩ := narrow_compare_iff.1 h
    obtain ⟨rfl, rfl, hv⟩ := Filter.condition?_eq_some.1 hc
    exact .inr ⟨f, o, operand, v, rfl, hv, rfl⟩

theorem selects_narrow {s s' : Scan} {b : Bindings} {c : Conjunct} (h : s.narrow b c = .ok s')
    (row : Row) : s'.selects row = (s.selects row && (Filter.ofConjunct c).holdsOn b row) := by
  rcases narrow_cases h with ⟨ancestor, k, rfl, hk, hs, rfl⟩ | ⟨field, op, operand, v, rfl, hv, rfl⟩
  · have he : (Filter.under ancestor).evaluate row b = .ok (.ofBool (row.key.isWithin k)) := by
      rw [Filter.evaluate, Operand.resolve_of_resolveAncestor hk]
      rfl
    rw [Filter.ofConjunct, Filter.holdsOn_of_evaluate he]
    simp only [selects, Truth.ofBool_eq_holds, Bool.decide_eq_true, Option.all_some]
    cases ha : s.ancestor with
    | none => cases row.kind == s.kind <;> cases row.key.isWithin k <;> simp
    | some k' =>
      rw [hs k' ha, Option.all_some]
      cases row.kind == s.kind <;> cases row.key.isWithin k <;> simp
  · have he : (Filter.compare field.toField op.toComparator operand).evaluate row b =
        .ok (Value.compareField (field.toField.resolve row) op.toComparator v) := by
      rw [Filter.evaluate, hv]
      rfl
    rw [Filter.ofConjunct, Filter.holdsOn_of_evaluate he]
    simp only [selects, List.all_append, List.all_cons, List.all_nil, Bool.and_true, Bool.and_assoc,
      ScanCondition.holds, ScanField.resolve]
    rfl

theorem selects_narrowAll {b : Bindings} (row : Row) :
    ∀ {cs : List Conjunct} {s s' : Scan}, s.narrowAll b cs = .ok s' →
      s'.selects row = (s.selects row && cs.all fun c => (Filter.ofConjunct c).holdsOn b row)
  | [], s, s', h => by
    simp only [narrowAll, Except.ok.injEq] at h
    simp [h]
  | c :: cs, s, s', h => by
    rw [narrowAll] at h
    obtain ⟨s₁, h₁, h⟩ := bind_eq_ok.1 h
    rw [selects_narrowAll row h, selects_narrow h₁, List.all_cons, Bool.and_assoc]

theorem window_narrowAll {b : Bindings} : ∀ {cs : List Conjunct} {s s' : Scan},
    s.narrowAll b cs = .ok s' → s'.window = s.window
  | [], s, s', h => by
    simp only [narrowAll, Except.ok.injEq] at h
    rw [h]
  | c :: cs, s, s', h => by
    rw [narrowAll] at h
    obtain ⟨s₁, h₁, h⟩ := bind_eq_ok.1 h
    rw [window_narrowAll h]
    rcases narrow_cases h₁ with ⟨_, _, _, _, _, rfl⟩ | ⟨_, _, _, _, _, _, rfl⟩ <;> rfl

/-- Whether every membership test of a scan is in a list. -/
def MembershipsInLists (s : Scan) : Prop :=
  ∀ c ∈ s.conditions, c.op = .within → c.value.list?.isSome

/-- Narrowing by a valid conjunct adds no membership test in something that is not a list. -/
theorem MembershipsInLists.narrow {s s' : Scan} {b : Bindings} {c : Conjunct}
    (hs : s.MembershipsInLists) (hv : (Filter.ofConjunct c).validate b = .ok ())
    (h : s.narrow b c = .ok s') : s'.MembershipsInLists := by
  rcases narrow_cases h with ⟨_, _, _, _, _, rfl⟩ | ⟨field, op, operand, v, rfl, hr, rfl⟩
  · exact hs
  · intro d hd hop
    rcases List.mem_append.1 hd with hd | hd
    · exact hs d hd hop
    · rw [List.mem_singleton.1 hd] at hop ⊢
      simp only at hop
      subst hop
      rw [Filter.ofConjunct, Filter.validate] at hv
      obtain ⟨-, -, hv⟩ := bind_eq_ok.1 hv
      rw [hr, ok_bind] at hv
      cases hl : v.list? with
      | none => simp [hl, ScanOp.toComparator] at hv
      | some items => rfl

theorem MembershipsInLists.narrowAll {b : Bindings} : ∀ {cs : List Conjunct} {s s' : Scan},
    s.MembershipsInLists → (∀ c ∈ cs, (Filter.ofConjunct c).validate b = .ok ()) →
      s.narrowAll b cs = .ok s' → s'.MembershipsInLists
  | [], s, s', hs, _, h => by
    simp only [Scan.narrowAll, Except.ok.injEq] at h
    exact h ▸ hs
  | c :: cs, s, s', hs, hv, h => by
    rw [Scan.narrowAll] at h
    obtain ⟨s₁, h₁, h⟩ := bind_eq_ok.1 h
    obtain ⟨hc, hcs⟩ := List.forall_mem_cons.1 hv
    exact (hs.narrow hc h₁).narrowAll hcs h

/-- A scan with inequalities on one field and memberships in lists is not refused. -/
theorem check_eq_ok {s : Scan} (hi : ∀ f ∈ s.inequalityFields, some f = s.inequalityFields.head?)
    (hm : s.MembershipsInLists) : s.check = .ok () := by
  have h₁ : (s.inequalityFields.any (some · != s.inequalityFields.head?)) = false := by
    simpa using hi
  have h₂ : s.badMembership? = none := by
    rw [badMembership?, List.find?_eq_none]
    intro c hc
    have := hm c hc
    cases hv : c.value.list? <;> simp_all
  rw [check, h₁, h₂]
  rfl

theorem forall_eq_head?_iff {α : Type} {xs : List α} :
    (∀ x ∈ xs, some x = xs.head?) ↔ ∀ x ∈ xs, ∀ y ∈ xs, x = y := by
  cases xs with
  | nil => simp
  | cons a xs =>
    simp only [List.head?_cons, Option.some.injEq]
    refine ⟨fun h x hx y hy => (h x hx).trans (h y hy).symm, fun h x hx => ?_⟩
    exact h x hx a List.mem_cons_self

/-- The inequalities of a scan pass if they are on one field, with one bound on each side. -/
theorem checkInequalities_iff {s : Scan} : s.checkInequalities = .ok () ↔
    (∀ f ∈ s.inequalityFields, ∀ g ∈ s.inequalityFields, f = g) ∧
      s.conditions.countP (·.op.isLowerBound) ≤ 1 ∧
      s.conditions.countP (·.op.isUpperBound) ≤ 1 := by
  have hone : (s.inequalityFields.any (some · != s.inequalityFields.head?)) = true ↔
      ¬∀ f ∈ s.inequalityFields, ∀ g ∈ s.inequalityFields, f = g := by
    rw [← forall_eq_head?_iff]
    simp
  unfold checkInequalities
  simp only [hone]
  split
  · simp [*]
  · split
    · simp only [reduceCtorEq, false_iff]
      omega
    · rename_i hone' hcount
      simp only [true_iff]
      exact ⟨Classical.not_not.1 hone', by omega, by omega⟩

end Scan

theorem map_toSortKey_scanSorts : ∀ {ks : List SortKey} {ss : List ScanSort},
    scanSorts ks = .ok ss → ss.map ScanSort.toSortKey = ks
  | [], ss, h => by
    simp only [scanSorts, Except.ok.injEq] at h
    rw [← h]
    rfl
  | k :: ks, ss, h => by
    rw [scanSorts] at h
    cases hf : ScanField.ofField? k.field with
    | none => simp [hf] at h
    | some f =>
      simp only [hf] at h
      obtain ⟨rest, hr, h⟩ := bind_eq_ok.1 h
      simp only [pure_eq_ok, Except.ok.injEq] at h
      rw [← h, List.map_cons, map_toSortKey_scanSorts hr, ScanSort.toSortKey,
        ← ScanField.ofField?_eq_some.1 hf]

theorem Scan.sortBy_eq {s s' : Scan} {ordering : List SortKey} (h : s.sortBy ordering = .ok s') :
    ∃ sorts : List ScanSort, sorts.map ScanSort.toSortKey = ordering ∧ s' = { s with sorts } := by
  rw [sortBy] at h
  obtain ⟨sorts, hs, h⟩ := bind_eq_ok.1 h
  refine ⟨sorts, map_toSortKey_scanSorts hs, ?_⟩
  simp only [throw_eq_error, error_bind, pure_eq_ok] at h
  split at h
  · split at h
    · cases h
    · simpa using h.symm
  · simpa using h.symm

namespace Query

/-- Whether the filter of a query, if it has one, holds on a row. -/
def keeps (q : Query) (b : Bindings) (row : Row) : Bool := q.filter.all (·.holdsOn b row)

theorem validate_filter {q : Query} {b : Bindings} (h : q.validate b = .ok ()) :
    ∀ f ∈ q.filter, f.validate b = .ok () := by
  intro f hf
  unfold validate at h
  rw [Option.mem_def.1 hf] at h
  simp only [throw_eq_error, error_bind] at h
  split at h
  · cases h
  · obtain ⟨-, -, h⟩ := bind_eq_ok.1 h
    obtain ⟨⟨⟩, hv, -⟩ := bind_eq_ok.1 h
    exact hv

/-- What narrowing a scan by the filter of a query does. -/
theorem filterScan_spec {q : Query} {b : Bindings} {s s' : Scan} (h : q.filterScan b s = .ok s') :
    (∀ row, s'.selects row = (s.selects row && q.keeps b row)) ∧ s'.window = s.window ∧
    (q.validate b = .ok () → s.MembershipsInLists → s'.MembershipsInLists) ∧
    (s.inequalityFields = [] →
      ∀ f ∈ s'.inequalityFields, some f = s'.inequalityFields.head?) := by
  unfold filterScan at h
  unfold keeps
  split at h
  · rename_i hf
    simp only [Except.ok.injEq] at h
    subst h
    simp only [hf, Option.all_none, Bool.and_true, implies_true, true_and]
    refine ⟨fun _ hs => hs, fun hs f hf => ?_⟩
    rw [hs] at hf
    cases hf
  · rename_i f hf
    simp only [throw_eq_error, error_bind] at h
    split at h
    · cases h
    · obtain ⟨cs, hc, h⟩ := bind_eq_ok.1 h
      obtain ⟨s₁, hs, h⟩ := bind_eq_ok.1 h
      obtain ⟨⟨⟩, hi, h⟩ := bind_eq_ok.1 h
      simp only [pure_eq_ok, Except.ok.injEq] at h
      subst h
      refine ⟨fun row => ?_, Scan.window_narrowAll hs, fun hv hm => ?_, fun _ => ?_⟩
      · rw [Scan.selects_narrowAll row hs, hf, Option.all_some, Filter.holdsOn_conjuncts hc]
      · exact hm.narrowAll (Filter.validate_conjuncts hc (validate_filter hv f hf)) hs
      · exact Scan.forall_eq_head?_iff.2 (Scan.checkInequalities_iff.1 hi).1

/-- The scan of a query's candidates has no inequality, no window, and memberships in lists. -/
theorem candidateScan_spec {q : Query} {preference : Preference} {s : Scan}
    (h : q.candidateScan preference = .ok s) :
    s.inequalityFields = [] ∧ s.MembershipsInLists := by
  unfold candidateScan at h
  split at h
  · simp only [Except.ok.injEq] at h
    subst h
    exact ⟨rfl, fun c hc => by cases hc⟩
  · split at h
    · simp only [Except.ok.injEq] at h
      subst h
      refine ⟨rfl, fun c hc _ => ?_⟩
      rw [List.mem_singleton.1 hc]
      rfl
    · cases h

/-- The steps in which the scan of a query is built, unless it is to be evaluated in memory. -/
theorem toScan_eq {q : Query} {preference : Preference} {b : Bindings}
    (h : preference ≠ .inMemory) : q.toScan preference b =
      q.candidateScan preference >>= fun s => q.filterScan b s >>= fun s =>
        s.sortBy q.ordering >>= fun s => .ok { s with window := q.window } := by
  unfold toScan
  simp only [h, if_false]
  rfl

theorem ne_inMemory_of_toScan {q : Query} {preference : Preference} {b : Bindings} {s : Scan}
    (h : q.toScan preference b = .ok s) : preference ≠ .inMemory := by
  rintro rfl
  cases h

/-- The scan that a query is pushed down to: it selects the candidates that the filter keeps, in the
ordering and the window of the query. -/
theorem toScan_spec {q : Query} {preference : Preference} {b : Bindings} {s : Scan}
    (h : q.toScan preference b = .ok s) :
    ∃ s₀, q.candidateScan preference = .ok s₀ ∧
      (∀ row, s.selects row = (s₀.selects row && q.keeps b row)) ∧
      s.sorts.map ScanSort.toSortKey = q.ordering ∧ s.window = q.window ∧
      (q.validate b = .ok () → s.check = .ok ()) := by
  rw [toScan_eq (ne_inMemory_of_toScan h)] at h
  obtain ⟨s₀, h₀, h⟩ := bind_eq_ok.1 h
  obtain ⟨s₁, h₁, h⟩ := bind_eq_ok.1 h
  obtain ⟨s₂, h₂, h⟩ := bind_eq_ok.1 h
  obtain ⟨sorts, hs, rfl⟩ := Scan.sortBy_eq h₂
  simp only [Except.ok.injEq] at h
  subst h
  obtain ⟨hsel, -, hm, hi⟩ := filterScan_spec h₁
  obtain ⟨hi₀, hm₀⟩ := candidateScan_spec h₀
  exact ⟨s₀, h₀, hsel, hs, rfl, fun hv => Scan.check_eq_ok (hi hi₀) (hm hv hm₀)⟩

/-- A query selects rows if its filter can be evaluated on all candidates. -/
theorem select_eq_ok {q : Query} {b : Bindings} {rows result : List Row} :
    q.select b rows = .ok result ↔ (∀ f ∈ q.filter, ∀ row ∈ rows, ∃ t, f.evaluate row b = .ok t) ∧
      q.window.slice (stableSort (compareRows q.ordering) (rows.filter (q.keeps b))) = result := by
  unfold select keeps
  cases q.filter with
  | none =>
    have hall : rows.filter (fun _ => true) = rows := List.filter_eq_self.2 fun _ _ => rfl
    simp [hall]
  | some f =>
    simp only [bind_eq_ok, Filter.select_eq_ok, Option.mem_some_iff, forall_eq', Option.all_some]
    constructor
    · rintro ⟨kept, ⟨hall, rfl⟩, h⟩
      exact ⟨hall, by simpa using h⟩
    · rintro ⟨hall, h⟩
      exact ⟨_, ⟨hall, rfl⟩, by simpa using h⟩

/-- The rows that a valid query selects from its candidates. -/
theorem select_eq {q : Query} {b : Bindings} (h : q.validate b = .ok ()) (rows : List Row) :
    q.select b rows =
      .ok (q.window.slice (stableSort (compareRows q.ordering) (rows.filter (q.keeps b)))) :=
  select_eq_ok.2 ⟨fun f hf row _ => f.exists_evaluate row (validate_filter h f hf), rfl⟩

/-- The scan that a query is pushed down to answers with what is selected in memory from the rows of
the scan of its candidates. -/
theorem select_candidates_eq_answer {q : Query} {preference : Preference} {b : Bindings}
    {s s₀ : Scan} (hv : q.validate b = .ok ()) (h : q.toScan preference b = .ok s)
    (h₀ : q.candidateScan preference = .ok s₀) (rows : List Row) :
    q.select b (rows.filter s₀.selects) = .ok (s.answer rows) := by
  obtain ⟨s₁, h₁, hsel, hsort, hw, -⟩ := toScan_spec h
  cases h₀.symm.trans h₁
  rw [select_eq hv, Scan.answer, hsort, hw, List.filter_filter]
  congr 4
  funext row
  rw [hsel, Bool.and_comm]

/-- The rows of a kind that a valid query selects are those that its scan answers with. -/
theorem select_eq_answer {q : Query} {preference : Preference} {b : Bindings} {s : Scan}
    (hc : q.candidates.rows? = none) (hv : q.validate b = .ok ())
    (h : q.toScan preference b = .ok s) (rows : List Row) :
    q.select b (rows.filter (·.kind == q.kind)) = .ok (s.answer rows) := by
  have h₀ : q.candidateScan preference = .ok { kind := q.kind } := by rw [candidateScan, hc]
  have hkind : ({ kind := q.kind } : Scan).selects = (·.kind == q.kind) := by
    funext row
    simp [Scan.selects]
  rw [← hkind]
  exact select_candidates_eq_answer hv h h₀ rows

end Query
end EntityGraph
