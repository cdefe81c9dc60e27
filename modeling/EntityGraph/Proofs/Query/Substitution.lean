import EntityGraph.Proofs.Query.Equivalence

/-!
# Binding as substitution

A filter with parameters and subqueries, under bindings, says what it says with the bound values
and results written out: a parameter becomes the literal that it stands for, and a test for the
results of a subquery becomes a membership test in the list of them.

* `Operand.bound`, `Filter.bound`: what is bound, written out;
* `Filter.validate_bound`, `Filter.evaluate_bound`: validation and evaluation tell no difference;
* `Scan.narrow_bound`, `Query.filterScan_bound`: neither does the scan that is built, as long as
  there is no subquery, which is never pushed down, though its results are;
* `Query.sameAnswer_bound`: what a query answers when it is executed.
-/

namespace EntityGraph

variable (b : Bindings)

/-! ## Writing out what is bound -/

/-- A parameter with the value that it is bound to written out. -/
def Operand.bound : Operand → Operand
  | literal v => literal v
  | parameter name => ((b.values.get? name).map literal).getD (parameter name)

namespace Filter

mutual

/-- A filter with what its parameters and subqueries are bound to written out. -/
def bound : Filter → Filter
  | and parts => and (allBound parts)
  | or parts => or (allBound parts)
  | not part => not part.bound
  | compare field op operand => compare field op (operand.bound b)
  | isNull field => isNull field
  | isNotNull field => isNotNull field
  | under ancestor => under (ancestor.bound b)
  | inSubquery field name =>
    match b.subqueries.get? name with
    | some members => compare field .within (.literal (.list members))
    | none => inSubquery field name

/-- Each filter of a list with what is bound written out. -/
def allBound : List Filter → List Filter
  | [] => []
  | f :: fs => f.bound :: allBound fs

end
end Filter

/-- A conjunct with what its parameters are bound to written out. -/
def Conjunct.bound : Conjunct → Conjunct
  | compare field op operand => compare field op (operand.bound b)
  | under ancestor => under (ancestor.bound b)

/-- A query with what is bound in its filter written out. -/
def Query.bound (q : Query) : Query := { q with filter := q.filter.map (·.bound b) }

/-! ## Operands -/

namespace Operand

variable {b} (o : Operand)

theorem resolve_bound : (o.bound b).resolve b = o.resolve b := by
  cases o with
  | literal v => rfl
  | parameter name =>
    simp only [bound, resolve]
    cases h : b.values.get? name with
    | none => simp [h]
    | some v => rfl

theorem resolveAncestor_bound : (o.bound b).resolveAncestor b = o.resolveAncestor b := by
  rw [resolveAncestor, resolve_bound, resolveAncestor]

end Operand

/-! ## Filters -/

namespace Filter

variable {b}

mutual

/-- Validation finds the same fault. -/
theorem validate_bound : ∀ f : Filter, (f.bound b).validate b = f.validate b
  | and parts | or parts => by
    rw [bound, validate, validate]
    exact validateAll_bound parts
  | not part => by
    rw [bound, validate, validate]
    exact validate_bound part
  | compare field op operand => by rw [bound, validate, validate, operand.resolve_bound]
  | isNull field | isNotNull field => by rw [bound]
  | under ancestor => by rw [bound, validate, validate, ancestor.resolveAncestor_bound]
  | inSubquery field name => by
    rw [bound]
    cases h : b.subqueries.get? name with
    | none => rfl
    | some members => simp [validate, h, Operand.resolve, Value.list?]

theorem validateAll_bound : ∀ fs : List Filter, validateAll b (allBound b fs) = validateAll b fs
  | [] => rfl
  | f :: fs => by
    rw [allBound, validateAll, validateAll, validate_bound f, validateAll_bound fs]

end

mutual

/-- Evaluation finds the same truth or the same fault. -/
theorem evaluate_bound (row : Row) : ∀ f : Filter, (f.bound b).evaluate row b = f.evaluate row b
  | and parts => by
    rw [bound, evaluate, evaluate]
    exact evaluateAll_bound row parts
  | or parts => by
    rw [bound, evaluate, evaluate]
    exact evaluateAny_bound row parts
  | not part => by rw [bound, evaluate, evaluate, evaluate_bound row part]
  | compare field op operand => by rw [bound, evaluate, evaluate, operand.resolve_bound]
  | isNull field | isNotNull field => by rw [bound]
  | under ancestor => by rw [bound, evaluate, evaluate, ancestor.resolve_bound]
  | inSubquery field name => by
    rw [bound]
    cases h : b.subqueries.get? name with
    | none => rfl
    | some members => simp [evaluate, h, Operand.resolve]

theorem evaluateAll_bound (row : Row) :
    ∀ fs : List Filter, evaluateAll row b (allBound b fs) = evaluateAll row b fs
  | [] => rfl
  | f :: fs => by
    rw [allBound, evaluateAll, evaluateAll, evaluate_bound row f, evaluateAll_bound row fs]

theorem evaluateAny_bound (row : Row) :
    ∀ fs : List Filter, evaluateAny row b (allBound b fs) = evaluateAny row b fs
  | [] => rfl
  | f :: fs => by
    rw [allBound, evaluateAny, evaluateAny, evaluate_bound row f, evaluateAny_bound row fs]

end

theorem agree_bound (f : Filter) : Agree b f (f.bound b) :=
  ⟨by rw [validate_bound], fun _ row => (evaluate_bound row f).symm⟩

/-! ## Scans -/

mutual

/-- A filter without a subquery has none where what is bound is written out. -/
theorem subquery?_bound : ∀ {f : Filter}, f.subquery? = none → (f.bound b).subquery? = none
  | and parts, h | or parts, h => by
    rw [subquery?] at h
    rw [bound, subquery?]
    exact firstSubquery?_bound h
  | not part, h => by
    rw [subquery?] at h
    rw [bound, subquery?]
    exact subquery?_bound h
  | compare .., _ | isNull _, _ | isNotNull _, _ | under _, _ => by rw [bound]; rfl
  | inSubquery .., h => by cases h

theorem firstSubquery?_bound : ∀ {fs : List Filter}, firstSubquery? fs = none →
    firstSubquery? (allBound b fs) = none
  | [], _ => rfl
  | f :: fs, h => by
    rw [firstSubquery?_eq_none_iff, List.forall_mem_cons, ← firstSubquery?_eq_none_iff] at h
    rw [allBound, firstSubquery?, subquery?_bound h.1, firstSubquery?_bound h.2]
    rfl

end

mutual

/-- A filter without a subquery is flattened to the same conjuncts, with what is bound in them
written out. -/
theorem conjuncts_bound : ∀ {f : Filter}, f.subquery? = none →
    (f.bound b).conjuncts = f.conjuncts.map (·.map (·.bound b))
  | and parts, h => by
    rw [subquery?] at h
    rw [bound, conjuncts, conjuncts]
    exact allConjuncts_bound h
  | or _, _ | not _, _ | isNull _, _ | isNotNull _, _ | compare .., _ | under _, _ => by
    simp only [bound, conjuncts]
    rfl
  | inSubquery .., h => by cases h

theorem allConjuncts_bound : ∀ {fs : List Filter}, firstSubquery? fs = none →
    allConjuncts (allBound b fs) = (allConjuncts fs).map (·.map (·.bound b))
  | [], _ => rfl
  | f :: fs, h => by
    rw [firstSubquery?_eq_none_iff, List.forall_mem_cons, ← firstSubquery?_eq_none_iff] at h
    rw [allBound, allConjuncts, allConjuncts, conjuncts_bound h.1, allConjuncts_bound h.2]
    cases f.conjuncts with
    | error e => rfl
    | ok cs => cases allConjuncts fs <;> simp [Except.map]

end
end Filter

namespace Scan

variable {b}

theorem narrow_bound (s : Scan) (c : Conjunct) : s.narrow b (c.bound b) = s.narrow b c := by
  cases c with
  | under ancestor => rw [Conjunct.bound, narrow, narrow, ancestor.resolveAncestor_bound]
  | compare field op operand => rw [Conjunct.bound, narrow, narrow, operand.resolve_bound]

theorem narrowAll_bound : ∀ (cs : List Conjunct) (s : Scan),
    s.narrowAll b (cs.map (·.bound b)) = s.narrowAll b cs
  | [], _ => rfl
  | c :: cs, s => by
    rw [List.map_cons, narrowAll, narrowAll, narrow_bound]
    simp only [narrowAll_bound cs]

end Scan

namespace Query

variable {b} {q : Query}

/-- A query without a subquery narrows a scan to the same one. -/
theorem filterScan_bound (h : ∀ f ∈ q.filter, f.subquery? = none) (s : Scan) :
    (q.bound b).filterScan b s = q.filterScan b s := by
  unfold filterScan bound
  cases hf : q.filter with
  | none => rfl
  | some f =>
    have hsub := h f hf
    simp only [Option.map_some, hsub, Filter.subquery?_bound hsub, Filter.conjuncts_bound hsub]
    cases f.conjuncts with
    | error e => rfl
    | ok cs => simp [Except.map, Scan.narrowAll_bound]

theorem validate_bound : (q.bound b).validate b = q.validate b := by
  unfold validate bound
  cases q.filter with
  | none => rfl
  | some f => simp only [Option.map_some, f.validate_bound]

/-- A query without a subquery is pushed down as it is with what is bound written out: to one scan,
or it is refused or malformed for one reason. -/
theorem pushDown_bound (h : ∀ f ∈ q.filter, f.subquery? = none) (preference : Preference) :
    (q.bound b).pushDown preference b = q.pushDown preference b := by
  have hscan : ∀ preference, (q.bound b).toScan preference b = q.toScan preference b := by
    intro preference
    unfold toScan
    simp only [filterScan_bound h]
    rfl
  unfold pushDown
  rw [validate_bound, hscan]
  rfl

/-! ## Answers -/

/-- Binding is substitution. A query of the rows of its kind answers the same, wherever it is run,
with what its parameters and subqueries are bound to written out in its filter. Without a subquery
it is also pushed down to the same scan, or refused for the same reason. -/
theorem sameAnswer_bound (q : Query) (config : QueryConfig) (b : Bindings) (ctx : Context)
    (hc : q.candidates.rows? = none) (hf : ctx.store.faults = []) (hb : 1 ≤ config.batchSize)
    (hcap : config.candidateCap = none) :
    q.SameAnswer (outcome (q.rows config b ctx)) (outcome ((q.bound b).rows config b ctx)) ∧
    ((∀ f ∈ q.filter, f.subquery? = none) →
      ∀ preference, (q.bound b).pushDown preference b = q.pushDown preference b) := by
  have hagree : Option.Rel (Filter.Agree b) q.filter (q.filter.map (·.bound b)) := by
    cases q.filter with
    | none => exact .none
    | some f => exact .some f.agree_bound
  exact ⟨sameAnswer_of_agree hagree config hc hf hb hcap, pushDown_bound⟩

/-- A number and the results of a subquery. -/
def sampleBindings : Bindings where
  values := SortedMap.empty.insert "least" (.int 5)
  subqueries := SortedMap.empty.insert "numbers" [.int 5, .int 7, .int 9]

/-- The rows with a property that a subquery finds and that is above a number. -/
def sampleMembers : Query where
  kind := "Book"
  filter := some (.and [.inSubquery (.property "a") "numbers",
    .compare (.property "a") .gt (.parameter "least")])
  ordering := [⟨.property "a", .ascending⟩]

theorem sameAnswer_bound_sample :
    outcome (sampleMembers.rows {} sampleBindings sampleContext) =
        .ok [sampleRow 3 7, sampleRow 1 9] ∧
      outcome ((sampleMembers.bound sampleBindings).rows {} sampleBindings sampleContext) =
        .ok [sampleRow 3 7, sampleRow 1 9] := by
  have h := (sampleMembers.sameAnswer_bound {} sampleBindings sampleContext rfl rfl (by decide)
    rfl).1
  have hrun : outcome (sampleMembers.rows {} sampleBindings sampleContext) =
      .ok [sampleRow 3 7, sampleRow 1 9] := rfl
  rw [hrun] at h ⊢
  generalize outcome ((sampleMembers.bound sampleBindings).rows {} sampleBindings sampleContext) = x
    at h ⊢
  cases h
  exact ⟨rfl, rfl⟩

end Query
end EntityGraph
