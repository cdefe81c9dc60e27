import EntityGraph.Proofs.Query.Meaning
import EntityGraph.Proofs.Query.Paths

/-!
# Filters that cannot be told apart

Two filters agree if one is valid whenever the other is, and both then have one truth on every row.
A filter agrees with any other one that is obtained from it by rewriting parts of it, however deep,
if every rewrite step gives a filter that agrees. A query over the rows of its kind then has the
same answer with both, though the store may run it with one of them and refuse it with the other.

* `Filter.Agree`, `Filter.Agree.of_holds`: filters that agree, and that they do so if they hold and
  fail on the same rows;
* `Filter.Rewrites`, `Filter.Agree.of_rewrites`: rewriting parts of a filter;
* `Query.SameAnswer`, `Query.sameAnswer_of_agree`: what a query answers with filters that agree.
-/

namespace EntityGraph

namespace Filter

section Valid

variable {b : Bindings}

theorem validateAll_eq_ok {fs : List Filter} :
    validateAll b fs = .ok () ↔ ∀ f ∈ fs, f.validate b = .ok () := by
  induction fs with
  | nil => simp [validateAll]
  | cons f fs ih =>
    rw [validateAll, List.forall_mem_cons, ← ih]
    exact check_bind_eq_ok

theorem validate_and {parts : List Filter} :
    (and parts).validate b = .ok () ↔ ∀ f ∈ parts, f.validate b = .ok () := by
  rw [validate, validateAll_eq_ok]

theorem validate_or {parts : List Filter} :
    (or parts).validate b = .ok () ↔ ∀ f ∈ parts, f.validate b = .ok () := by
  rw [validate, validateAll_eq_ok]

theorem validate_not {part : Filter} :
    (not part).validate b = .ok () ↔ part.validate b = .ok () := by
  rw [validate]

end Valid

/-! ## Filters that agree -/

/-- Two filters cannot be told apart: one is valid whenever the other is, and they then have one
truth on every row. -/
structure Agree (b : Bindings) (f g : Filter) : Prop where
  valid : f.validate b = .ok () ↔ g.validate b = .ok ()
  truth : f.validate b = .ok () → ∀ row, f.evaluate row b = g.evaluate row b

namespace Agree

variable {b : Bindings} {f g h : Filter}

theorem refl (f : Filter) : Agree b f f := ⟨.rfl, fun _ _ => rfl⟩

theorem symm (hfg : Agree b f g) : Agree b g f :=
  ⟨hfg.valid.symm, fun hg row => (hfg.truth (hfg.valid.2 hg) row).symm⟩

theorem trans (hfg : Agree b f g) (hgh : Agree b g h) : Agree b f h :=
  ⟨hfg.valid.trans hgh.valid,
    fun hf row => (hfg.truth hf row).trans (hgh.truth (hfg.valid.1 hf) row)⟩

/-- Filters agree if they hold and fail on the same rows. -/
theorem of_holds (hv : f.validate b = .ok () ↔ g.validate b = .ok ())
    (hrow : f.validate b = .ok () → ∀ row,
      (f.Holds row b ↔ g.Holds row b) ∧ (f.Fails row b ↔ g.Fails row b)) : Agree b f g where
  valid := hv
  truth hf row := by
    obtain ⟨t, ht⟩ := exists_evaluate row hf
    obtain ⟨u, hu⟩ := exists_evaluate row (hv.1 hf)
    obtain ⟨hholds, hfails⟩ := hrow hf row
    rw [ht, hu, (says_evaluate ht).unique ((says_evaluate hu).congr hholds.symm hfails.symm)]

/-- Filters that agree hold and fail on the same rows. -/
theorem holds (hfg : Agree b f g) (hf : f.validate b = .ok ()) (row : Row) :
    (f.Holds row b ↔ g.Holds row b) ∧ (f.Fails row b ↔ g.Fails row b) := by
  obtain ⟨t, ht⟩ := exists_evaluate row hf
  have hft := says_evaluate ht
  have hgt := says_evaluate ((hfg.truth hf row).symm.trans ht)
  exact ⟨hft.holds_iff.symm.trans hgt.holds_iff, hft.fails_iff.symm.trans hgt.fails_iff⟩

protected theorem and (hfg : Agree b f g) (before after : List Filter) :
    Agree b (and (before ++ f :: after)) (and (before ++ g :: after)) := by
  refine of_holds ?_ fun hv row => ?_
  · simp only [validate_and, List.forall_mem_append, List.forall_mem_cons, hfg.valid]
  · obtain ⟨hholds, hfails⟩ := hfg.holds (validate_and.1 hv f (by simp)) row
    constructor
    · simp only [holds_and, List.forall_mem_append, List.forall_mem_cons, hholds]
    · simp only [fails_and, List.mem_append, List.mem_cons, or_and_right, exists_or,
        exists_eq_left, hfails]

protected theorem or (hfg : Agree b f g) (before after : List Filter) :
    Agree b (or (before ++ f :: after)) (or (before ++ g :: after)) := by
  refine of_holds ?_ fun hv row => ?_
  · simp only [validate_or, List.forall_mem_append, List.forall_mem_cons, hfg.valid]
  · obtain ⟨hholds, hfails⟩ := hfg.holds (validate_or.1 hv f (by simp)) row
    constructor
    · simp only [holds_or, List.mem_append, List.mem_cons, or_and_right, exists_or,
        exists_eq_left, hholds]
    · simp only [fails_or, List.forall_mem_append, List.forall_mem_cons, hfails]

protected theorem not (hfg : Agree b f g) : Agree b (not f) (not g) := by
  refine of_holds ?_ fun hv row => ?_
  · rw [validate_not, validate_not, hfg.valid]
  · obtain ⟨hholds, hfails⟩ := hfg.holds (validate_not.1 hv) row
    rw [holds_not, holds_not, fails_not, fails_not]
    exact ⟨hfails, hholds⟩

end Agree

/-! ## Rewriting -/

/-- A filter is obtained from another one by rewriting parts of it by a relation, in either
direction. -/
inductive Rewrites (R : Filter → Filter → Prop) : Filter → Filter → Prop
  | step {f g} : R f g → Rewrites R f g
  | refl (f) : Rewrites R f f
  | symm {f g} : Rewrites R f g → Rewrites R g f
  | trans {f g h} : Rewrites R f g → Rewrites R g h → Rewrites R f h
  | and {f g} (before after : List Filter) : Rewrites R f g →
    Rewrites R (and (before ++ f :: after)) (and (before ++ g :: after))
  | or {f g} (before after : List Filter) : Rewrites R f g →
    Rewrites R (or (before ++ f :: after)) (or (before ++ g :: after))
  | not {f g} : Rewrites R f g → Rewrites R (not f) (not g)

/-- Rewriting gives a filter that agrees if every step does. -/
theorem Agree.of_rewrites {b : Bindings} {R : Filter → Filter → Prop}
    (hR : ∀ {f g}, R f g → Agree b f g) {f g : Filter} (hfg : Rewrites R f g) : Agree b f g := by
  induction hfg with
  | step h => exact hR h
  | refl f => exact .refl f
  | symm _ ih => exact ih.symm
  | trans _ _ ih ih' => exact ih.trans ih'
  | and before after _ ih => exact ih.and before after
  | or before after _ ih => exact ih.or before after
  | not _ ih => exact ih.not

end Filter

/-! ## Queries -/

namespace Query

variable {q q' : Query} {b : Bindings}

/-- What is asked of a valid query. -/
theorem validate_eq_ok : q.validate b = .ok () ↔ q.kind ≠ "" ∧ q.window.validate = .ok () ∧
    (∀ f ∈ q.filter, f.validate b = .ok ()) ∧ ∀ k ∈ q.ordering, k.field.validate = .ok () := by
  unfold validate
  rw [← forM_eq_ok]
  by_cases hk : q.kind = ""
  · simp [hk]
  · cases q.filter <;> simp [hk, check_bind_eq_ok]

/-- A query with a filter, in the place of its own. -/
abbrev withFilter (q : Query) (f : Filter) : Query := { q with filter := some f }

/-- Two queries cannot be told apart by what they select: one is valid whenever the other is, and
they then select the same of any candidates. -/
structure Agree (b : Bindings) (q q' : Query) : Prop where
  valid : q.validate b = .ok () ↔ q'.validate b = .ok ()
  select : q.validate b = .ok () → ∀ rows, q.select b rows = q'.select b rows

/-- Queries with filters that agree cannot be told apart. -/
theorem agree_of_filter {filter : Option Filter}
    (h : Option.Rel (Filter.Agree b) q.filter filter) : q.Agree b { q with filter } := by
  obtain ⟨kind, candidates, own, ordering, window, unique, preference⟩ := q
  cases h with
  | none => exact ⟨.rfl, fun _ _ => rfl⟩
  | @some f g h =>
    refine ⟨?_, fun hv rows => ?_⟩
    · simp [validate_eq_ok, h.valid]
    · have hf := validate_filter hv f rfl
      have hholds : f.holdsOn b = g.holdsOn b := by
        funext row
        rw [Filter.holdsOn, h.truth hf, Filter.holdsOn]
      simp only [select, Filter.select_eq hf, Filter.select_eq (h.valid.1 hf), hholds]

theorem agree_withFilter {f g : Filter} (h : Filter.Agree b f g) :
    Query.Agree b (q.withFilter f) (q.withFilter g) :=
  agree_of_filter (q := q.withFilter f) (.some h)

/-- Two runs of a query answer the same: they answer with the same rows, or both find the query
malformed, or it is for a unique row and both find that it has more. -/
inductive SameAnswer (q : Query) : Except Failure (List Row) → Except Failure (List Row) → Prop
  | rows (rows) : SameAnswer q (.ok rows) (.ok rows)
  | malformed {e e'} : e.report.category = .malformed → e'.report.category = .malformed →
    SameAnswer q (.error e) (.error e')
  | notUnique (count count') : q.unique = true →
    SameAnswer q (.error (.notUnique q.kind count)) (.error (.notUnique q.kind count'))

/-- A query of the rows of its kind answers the same with filters that agree, wherever it is run
with each of them. -/
theorem sameAnswer_of_agree {filter : Option Filter}
    (h : Option.Rel (Filter.Agree b) q.filter filter) (config : QueryConfig) {ctx : Context}
    (hc : q.candidates.rows? = none) (hf : ctx.store.faults = []) (hb : 1 ≤ config.batchSize)
    (hcap : config.candidateCap = none) :
    q.SameAnswer (outcome (q.rows config b ctx))
      (outcome (({ q with filter } : Query).rows config b ctx)) := by
  have hrun : ∀ {q : Query}, q.candidates.rows? = none → ∃ count : List Row → Nat,
      outcome (q.rows config b ctx) = q.validate b >>= fun _ =>
        q.select b (ctx.store.rowsOfKind q.kind) >>= fun rows =>
          checkUnique q.kind q.unique (count rows) rows := by
    intro q hc
    obtain ⟨count, hcount⟩ :=
      q.answerFor_of_scan config b ctx.store.table hc hb hcap q.unique
    exact ⟨count, ((q.reads_allRows config b).outcome_eq hf).trans hcount⟩
  obtain ⟨hvalid, hselect⟩ := agree_of_filter h
  obtain ⟨count, hq⟩ := hrun hc
  obtain ⟨count', hq'⟩ := hrun (q := { q with filter }) hc
  rw [hq, hq']
  cases hv : q.validate b with
  | error e =>
    cases hv' : ({ q with filter } : Query).validate b with
    | error e' =>
      rw [error_bind, error_bind]
      exact .malformed (failsMalformed_validate _ b e hv) (failsMalformed_validate _ b e' hv')
    | ok => cases hv.symm.trans (hvalid.2 hv')
  | ok =>
    rw [hvalid.1 hv, ok_bind, ok_bind, ← hselect hv, select_eq hv, ok_bind, ok_bind]
    unfold checkUnique
    split
    · rename_i hu
      exact .notUnique _ _ (Bool.and_eq_true_iff.1 hu).1
    · exact .rows _

/-- A query with another filter that agrees answers exactly the same if it takes the same path, with
any candidates and in batches of any size. -/
theorem answerFor_eq_of_path {filter : Option Filter}
    (h : Option.Rel (Filter.Agree b) q.filter filter) {config : QueryConfig} {p p' : Pushdown}
    (hp : q.pushDown config.preference b = .ok p)
    (hp' : ({ q with filter } : Query).pushDown config.preference b = .ok p')
    (hpath : p.path = p'.path) (unique : Bool) (t : RowTable) :
    q.answerFor config b unique t = ({ q with filter } : Query).answerFor config b unique t := by
  obtain ⟨-, hselect⟩ := agree_of_filter h
  have hv := validate_of_pushDown hp
  have hv' := validate_of_pushDown hp'
  unfold answerFor
  rw [hp, hp', ok_bind, ok_bind]
  cases p with
  | scan s =>
    cases p' with
    | scan s' =>
      obtain ⟨-, hs⟩ := pushDown_eq_scan.1 hp
      obtain ⟨-, hs'⟩ := pushDown_eq_scan.1 hp'
      obtain ⟨s₀, h₀, -, -, -, hcheck⟩ := toScan_spec hs
      obtain ⟨-, -, -, -, -, hcheck'⟩ := toScan_spec hs'
      -- Both scans answer with what is selected from the candidates, which are the same.
      have hanswer := select_candidates_eq_answer hv hs h₀ t.rows
      have hanswer' := select_candidates_eq_answer hv' hs' h₀ t.rows
      rw [← hselect hv, hanswer] at hanswer'
      simp only [hcheck hv, hcheck' hv', Except.ok.inj hanswer']
    | refused reason' => cases hpath
  | refused reason =>
    cases p' with
    | scan s' => cases hpath
    | refused reason' =>
      change (q.found config t >>= fun rows => _) = q.found config t >>= fun rows => _
      simp only [hselect hv]

end Query
end EntityGraph
