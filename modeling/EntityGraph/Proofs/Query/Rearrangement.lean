import EntityGraph.Proofs.Query.Equivalence
import EntityGraph.Proofs.Query.Firing
import EntityGraph.Proofs.Query.Runnable

/-!
# Conjunctions in another order

How the conditions of a filter are grouped by and, and in which order the parts of an and or an or
stand, shows nowhere. The conditions that a scan is to test are checked one after the other, and the
first that does not fit the ones before it refuses the query; yet whether there is such a one does
not depend on the order.

* `Filter.Regroups`, `Filter.Rearranges`: the steps by which a filter is rearranged;
* `Filter.SameLeaves`, `Filter.SameLeaves.of_rewrites`: as long as the store can test all leaves of
  one of two rearranged filters, both have the same ones, and in one order if they are only
  regrouped;
* `Query.Runnable.of_sameLeaves`: the store runs a query with both or with neither;
* `Query.outcome_of_rearranges`: the path and the answer of a query whose filter is rearranged.
-/

namespace EntityGraph

namespace Filter

/-! ## Steps -/

/-- A conjunction within a conjunction is dissolved, which may be empty, or one of a single filter
is. -/
inductive Regroups : Filter → Filter → Prop
  | nested (before group after : List Filter) :
    Regroups (and (before ++ and group :: after)) (and (before ++ group ++ after))
  | single (f : Filter) : Regroups (and [f]) f

/-- The parts of a conjunction or a disjunction are grouped or ordered in another way. -/
inductive Rearranges : Filter → Filter → Prop
  | regroup {f g} : Regroups f g → Rearranges f g
  | permAnd {parts parts' : List Filter} : parts.Perm parts' → Rearranges (and parts) (and parts')
  | permOr {parts parts' : List Filter} : parts.Perm parts' → Rearranges (or parts) (or parts')

variable {b : Bindings} {f g : Filter}

theorem Regroups.agree (h : Regroups f g) : Agree b f g := by
  cases h with
  | nested before group after =>
    refine .of_holds ?_ fun _ row => ⟨?_, ?_⟩
    · simp only [validate_and, List.forall_mem_append, List.forall_mem_cons, and_assoc]
    · simp only [holds_and, List.forall_mem_append, List.forall_mem_cons, and_assoc]
    · simp only [fails_and, List.mem_append, List.mem_cons, or_and_right, exists_or,
        exists_eq_left, or_assoc]
  | single f =>
    refine .of_holds ?_ fun _ row => ⟨?_, ?_⟩
    · simp only [validate_and, List.forall_mem_singleton]
    · simp only [holds_and, List.forall_mem_singleton]
    · simp only [fails_and, List.mem_singleton, exists_eq_left]

/-- Filters in another order are the same filters to those who look at all of them. -/
theorem Rearranges.agree (h : Rearranges f g) : Agree b f g := by
  cases h with
  | regroup h => exact h.agree
  | permAnd h =>
    refine .of_holds ?_ fun _ row => ⟨?_, ?_⟩
    · simp only [validate_and, h.mem_iff]
    · simp only [holds_and, h.mem_iff]
    · simp only [fails_and, h.mem_iff]
  | permOr h =>
    refine .of_holds ?_ fun _ row => ⟨?_, ?_⟩
    · simp only [validate_or, h.mem_iff]
    · simp only [holds_or, h.mem_iff]
    · simp only [fails_or, h.mem_iff]

/-! ## Leaves -/

theorem allLeaves_eq_flatMap (fs : List Filter) : allLeaves fs = fs.flatMap leaves := by
  induction fs with
  | nil => rfl
  | cons f fs ih => rw [allLeaves, ih, List.flatMap_cons]

theorem leaves_and (parts : List Filter) : (and parts).leaves = parts.flatMap leaves := by
  rw [leaves, allLeaves_eq_flatMap]

/-- As long as the store can test the leaves of the one filter or of the other, the leaves of both
are in a relation. -/
def SameLeaves (b : Bindings) (r : List Filter → List Filter → Prop) (f g : Filter) : Prop :=
  (∀ x ∈ f.leaves, x.Plain b) ∨ (∀ x ∈ g.leaves, x.Plain b) → r f.leaves g.leaves

theorem not_plain_or {parts : List Filter} : ¬∀ x ∈ (or parts).leaves, x.Plain b := fun h => by
  cases h (or parts) (by simp [leaves])

theorem not_plain_not : ¬∀ x ∈ (not f).leaves, x.Plain b := fun h => by
  cases h (not f) (by simp [leaves])

/-- Rewriting keeps the leaves in a relation if every step does, and if lists in the relation are
made of the same filters. -/
theorem SameLeaves.of_rewrites {r : List Filter → List Filter → Prop} (hr : Equivalence r)
    (hperm : ∀ {xs ys}, r xs ys → xs.Perm ys)
    (happend : ∀ xs {ys ys'} zs, r ys ys' → r (xs ++ (ys ++ zs)) (xs ++ (ys' ++ zs)))
    {R : Filter → Filter → Prop} (hR : ∀ {f g}, R f g → SameLeaves b r f g)
    (hfg : Rewrites R f g) : SameLeaves b r f g := by
  induction hfg with
  | step h => exact hR h
  | refl f => exact fun _ => hr.refl _
  | symm _ ih => exact fun h => hr.symm (ih h.symm)
  | @trans f g h _ _ ih ih' =>
    rintro (hf | hh)
    · have hfg := ih (.inl hf)
      exact hr.trans hfg (ih' (.inl fun x hx => hf x ((hperm hfg).mem_iff.2 hx)))
    · have hgh := ih' (.inr hh)
      exact hr.trans (ih (.inr fun x hx => hh x ((hperm hgh).mem_iff.1 hx))) hgh
  | and before after _ ih =>
    simp only [SameLeaves, leaves_and, List.flatMap_append, List.flatMap_cons,
      List.forall_mem_append]
    exact fun h => happend _ _ (ih (h.imp (·.2.1) (·.2.1)))
  | or => exact fun h => (h.elim not_plain_or not_plain_or).elim
  | not => exact fun h => (h.elim not_plain_not not_plain_not).elim

/-- Regrouping keeps the leaves in their order. -/
theorem Regroups.leaves_eq (h : Regroups f g) : f.leaves = g.leaves := by
  cases h with
  | nested before group after => simp [leaves_and]
  | single f => simp [leaves_and]

theorem Rearranges.sameLeaves (h : Rearranges f g) : SameLeaves b List.Perm f g := by
  cases h with
  | regroup h => exact fun _ => h.leaves_eq ▸ .refl _
  | permAnd h =>
    simp only [SameLeaves, leaves_and]
    exact fun _ => h.flatMap_right leaves
  | permOr => exact fun h => (h.elim not_plain_or not_plain_or).elim

/-- A rearranged filter has the same leaves if the store can test them. -/
theorem sameLeaves_of_rearranges (h : Rewrites Rearranges f g) : SameLeaves b List.Perm f g :=
  .of_rewrites ⟨.refl, .symm, .trans⟩ id
    (fun xs _ _ zs h => (h.append_right zs).append_left xs) Rearranges.sameLeaves h

/-- A regrouped filter has the same leaves in the same order if the store can test them. -/
theorem leaves_eq_of_regroups (h : Rewrites Regroups f g) : SameLeaves b Eq f g :=
  .of_rewrites eq_equivalence (fun h => h ▸ .refl _) (fun _ _ _ _ h => h ▸ rfl)
    (fun h _ => h.leaves_eq) h

/-- Whether a scan can test conditions together does not depend on their order. -/
theorem Compatible.of_perm {fs gs : List Filter} (hperm : fs.Perm gs) (h : Compatible b fs) :
    Compatible b gs := by
  have hmem : ∀ {f}, f ∈ gs → f ∈ fs := hperm.mem_iff.2
  exact {
    plain := fun f hf => h.plain f (hmem hf)
    oneAncestor := fun f hf g hg => h.oneAncestor f (hmem hf) g (hmem hg)
    oneField := fun f hf g hg => h.oneField f (hmem hf) g (hmem hg)
    lowerBound := hperm.countP_eq _ ▸ h.lowerBound
    upperBound := hperm.countP_eq _ ▸ h.upperBound }

end Filter

/-! ## Queries -/

namespace Query

variable {q : Query} {b : Bindings} {f g : Filter} {preference : Preference}

/-- The store runs a query with a filter if it runs it with another one of the same leaves. -/
theorem Runnable.of_sameLeaves (h : Filter.SameLeaves b List.Perm f g)
    (hrun : (q.withFilter f).Runnable preference b) : (q.withFilter g).Runnable preference b := by
  have hperm : f.leaves.Perm g.leaves := h (.inl hrun.filter.plain)
  have hpins : ∀ field, g.leaves.any (·.pins field) = f.leaves.any (·.pins field) := by
    intro field
    rw [Bool.eq_iff_iff, List.any_eq_true, List.any_eq_true]
    simp only [hperm.mem_iff]
  exact {
    notInMemory := hrun.notInMemory
    candidates := hrun.candidates
    filter := hrun.filter.of_perm hperm
    stored := hrun.stored
    sorted := fun x hx hineq k hk => hrun.sorted x (hperm.mem_iff.2 hx) hineq k (by
      simp only [leaves, Option.map_some, Option.getD_some, hpins] at hk ⊢
      exact hk) }

theorem path_eq_native_iff {p : Pushdown} (hp : q.pushDown preference b = .ok p) :
    p.path = .native ↔ q.Runnable preference b := by
  rw [← exists_toScan_iff]
  cases p with
  | scan s => exact iff_of_true rfl ⟨s, (pushDown_eq_scan.1 hp).2⟩
  | refused reason =>
    refine iff_of_false nofun fun ⟨s, hs⟩ => ?_
    cases hs.symm.trans (pushDown_eq_refused.1 hp).2

/-- A query takes one path with both of two rearranged filters. -/
theorem path_of_rearranges (h : Filter.Rewrites Filter.Rearranges f g) {p p' : Pushdown}
    (hp : (q.withFilter f).pushDown preference b = .ok p)
    (hp' : (q.withFilter g).pushDown preference b = .ok p') : p.path = p'.path := by
  have hnative : p.path = .native ↔ p'.path = .native := by
    rw [path_eq_native_iff hp, path_eq_native_iff hp']
    exact ⟨.of_sameLeaves (Filter.sameLeaves_of_rearranges h),
      .of_sameLeaves (Filter.sameLeaves_of_rearranges h.symm)⟩
  cases hpath : p.path <;> cases hpath' : p'.path <;> simp_all

/-- A query is pushed down to one scan with both of two filters that are only regrouped. -/
theorem pushDown_of_regroups (h : Filter.Rewrites Filter.Regroups f g) {s : Scan}
    (hs : (q.withFilter f).pushDown preference b = .ok (.scan s)) :
    (q.withFilter g).pushDown preference b = .ok (.scan s) := by
  obtain ⟨hv, hscan⟩ := pushDown_eq_scan.1 hs
  have hplain : ∀ x ∈ f.leaves, x.Plain b := (exists_toScan_iff.1 ⟨s, hscan⟩).filter.plain
  have hleaves : f.leaves = g.leaves := Filter.leaves_eq_of_regroups h (.inl hplain)
  obtain ⟨hsub, cs, hcs⟩ := exists_conjuncts_of_plain hplain
  obtain ⟨hsub', -⟩ := exists_conjuncts_of_plain (hleaves ▸ hplain)
  have hcs' : g.conjuncts = .ok cs :=
    Filter.conjuncts_eq_ok.2 (hleaves ▸ Filter.conjuncts_eq_ok.1 hcs)
  have hfilter : ∀ s₀, (q.withFilter g).filterScan b s₀ = (q.withFilter f).filterScan b s₀ := by
    intro s₀
    simp only [filterScan, hsub, hsub', hcs, hcs']
  have hagree : Filter.Agree b f g := .of_rewrites Filter.Regroups.agree h
  have hvalid := (agree_withFilter (q := q) hagree).valid
  have hpref := ne_inMemory_of_toScan hscan
  rw [toScan_eq hpref] at hscan
  refine pushDown_eq_scan.2 ⟨hvalid.1 hv, (toScan_eq hpref).trans ?_⟩
  simp only [hfilter]
  exact hscan

/-- How the conjunctions of a filter are grouped, and how its conjunctions and disjunctions are
ordered, cannot be observed. Either the query is malformed both ways, or it takes the same path both
ways and answers the same: with the same rows, or with the same failure, which is another one. If
the conjunctions are only regrouped, it is also pushed down to the same scan. -/
theorem outcome_of_rearranges (q : Query) (config : QueryConfig) (b : Bindings) (ctx : Context)
    (f g : Filter) (h : Filter.Rewrites Filter.Rearranges f g) (hf : ctx.store.faults = []) :
    ((∃ e e', outcome ((q.withFilter f).rows config b ctx) = .error e ∧
        outcome ((q.withFilter g).rows config b ctx) = .error e' ∧
        e.report.category = .malformed ∧ e'.report.category = .malformed) ∨
      (∃ path, (q.withFilter f).Takes config b path ∧ (q.withFilter g).Takes config b path) ∧
      outcome ((q.withFilter f).rows config b ctx) =
        outcome ((q.withFilter g).rows config b ctx) ∧
      ∀ e, outcome ((q.withFilter f).rows config b ctx) = .error e →
        e.report.category ≠ .malformed) ∧
    (Filter.Rewrites Filter.Regroups f g → ∀ preference s,
      (q.withFilter f).pushDown preference b = .ok (.scan s) →
        (q.withFilter g).pushDown preference b = .ok (.scan s)) := by
  have hrun : ∀ q : Query, outcome (q.rows config b ctx) =
      q.answerFor config b q.unique ctx.store.table := fun q =>
    (q.reads_allRows config b).outcome_eq hf
  have hagree : Filter.Agree b f g := .of_rewrites Filter.Rearranges.agree h
  have hvalid := (agree_withFilter (q := q) hagree).valid
  refine ⟨?_, fun h preference s hs => pushDown_of_regroups h hs⟩
  rw [hrun, hrun]
  cases hv : (q.withFilter f).validate b with
  | error e =>
    cases hv' : (q.withFilter g).validate b with
    | error e' =>
      refine .inl ⟨e, e', ?_, ?_, failsMalformed_validate _ b e hv,
        failsMalformed_validate _ b e' hv'⟩
      · rw [answerFor, pushDown_of_invalid hv, error_bind]
      · rw [answerFor, pushDown_of_invalid hv', error_bind]
    | ok => cases hv.symm.trans (hvalid.2 hv')
  | ok =>
    obtain ⟨p, hp⟩ := exists_pushDown hv config.preference
    obtain ⟨p', hp'⟩ := exists_pushDown (hvalid.1 hv) config.preference
    have hpath := path_of_rearranges h hp hp'
    refine .inr ⟨⟨p.path, takes_of_pushDown hp, hpath ▸ takes_of_pushDown hp'⟩, ?_, ?_⟩
    · exact answerFor_eq_of_path (q := q.withFilter f) (.some hagree) hp hp' hpath _ _
    · exact fun e he => (exceeds_answerFor hv he).category_ne

/-- The rows whose property is above five and below nine, grouped as they were written. -/
def sampleGrouped : Filter :=
  .and [.and [], .and [.compare (.property "a") .lt (.literal (.int 9))],
    .compare (.property "a") .gt (.literal (.int 5))]

/-- The same conditions side by side, the lower bound first. -/
def sampleFlat : Filter :=
  .and [.compare (.property "a") .gt (.literal (.int 5)),
    .compare (.property "a") .lt (.literal (.int 9))]

theorem rearranges_sampleFlat : Filter.Rewrites Filter.Rearranges sampleGrouped sampleFlat := by
  have hempty := Filter.Regroups.nested [] []
    [.and [.compare (.property "a") .lt (.literal (.int 9))],
      .compare (.property "a") .gt (.literal (.int 5))]
  have hsingle := Filter.Regroups.nested [] [.compare (.property "a") .lt (.literal (.int 9))]
    [.compare (.property "a") .gt (.literal (.int 5))]
  exact .trans (.step (.regroup hempty))
    (.trans (.step (.regroup hsingle)) (.step (.permAnd (.swap ..))))

theorem outcome_of_rearranges_sample :
    outcome ((sampleQuery.withFilter sampleGrouped).rows {} {} sampleContext) =
        .ok [sampleRow 3 7] ∧
      outcome ((sampleQuery.withFilter sampleFlat).rows {} {} sampleContext) =
        .ok [sampleRow 3 7] := by
  have hrun : outcome ((sampleQuery.withFilter sampleGrouped).rows {} {} sampleContext) =
      .ok [sampleRow 3 7] := rfl
  obtain ⟨⟨e, -, he, -⟩ | ⟨-, heq, -⟩, -⟩ :=
    sampleQuery.outcome_of_rearranges {} {} sampleContext _ _ rearranges_sampleFlat rfl
  · cases hrun.symm.trans he
  · exact ⟨hrun, heq.symm.trans hrun⟩

end Query
end EntityGraph
