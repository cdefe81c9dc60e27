import EntityGraph.Proofs.Cascade.Faults

/-!
# Cascades without faults

Where no fault is waiting, a cascade does what the verdict on the table says: it fails as the
verdict does, with all rows as they were, or it carries out the staging, which cannot fail.

* `Cascade.run_of_verdict_error`, `Cascade.run_of_verdict_ok`: the two ways in which a cascade ends;
* `Cascade.verdict_of_run_error`: what a cascade that fails says of the verdict;
* `Cascade.same_of_verdict`: a verdict fixes the report and the rows that are left.
-/

namespace EntityGraph

namespace Cascade

variable {schema : Schema} {policy : CascadePolicy} {loaded : LoadedFields} {owner : Row}
  {deleteOwner : Bool} {ctx : Context}

section NoFaults

variable (hf : ctx.store.faults = [])
include hf

/-- Without faults, the search that fails at its bottom finds what the one that stops there does. -/
theorem search_eq_stageRow :
    search (tableLookup ctx.store.table) schema policy (ctx.store.size + 1) loaded owner =
      stageRow (tableLookup ctx.store.table) schema policy ctx.store.size loaded owner := by
  have hthrow := reads_stageWithin schema policy (fun _ _ => Reads.throw .emptyKind)
    (ctx.store.size + 1) loaded owner { doomed := [owner.key] }
  have hstop := reads_stageWithin schema policy (fun _ s => Reads.pure s) (ctx.store.size + 1)
    loaded owner { doomed := [owner.key] }
  have hrun := stageRow_eq schema policy loaded owner (fun _ _ => throw .emptyKind) ctx
  exact (hthrow.outcome_eq hf).symm.trans ((congrArg outcome hrun).trans (hstop.outcome_eq hf))

theorem outcome_stage : outcome (stage schema policy loaded owner (begun owner ctx)) =
    verdict schema policy ctx.scope (ctx.store.size + 1) loaded owner ctx.store.table := by
  obtain ⟨x, hx, hreads⟩ := reads_stage schema policy loaded owner (begun owner ctx)
  rw [hx]
  exact hreads.outcome_eq hf

theorem run_of_verdict_error (deleteOwner : Bool) {e : Failure} (h : verdict schema policy
    ctx.scope (ctx.store.size + 1) loaded owner ctx.store.table = .error e) :
    ∃ ctx', run schema policy loaded owner deleteOwner ctx = .error e ctx' := by
  rw [← outcome_stage hf] at h
  cases hs : stage schema policy loaded owner (begun owner ctx) with
  | ok s ctx₁ =>
    rw [hs] at h
    cases h
  | error e' ctx₁ =>
    rw [hs] at h
    cases h
    exact run_of_stage_error hs

theorem run_of_verdict_ok (deleteOwner : Bool) {s : Staging} (h : verdict schema policy ctx.scope
    (ctx.store.size + 1) loaded owner ctx.store.table = .ok s) :
    ∃ report ctx', run schema policy loaded owner deleteOwner ctx = .ok report ctx' := by
  rw [← outcome_stage hf] at h
  obtain ⟨ctx₁, hs⟩ := exists_eq_ok (congrArg Except.toOption h)
  have hf₁ : ctx₁.store.faults = [] := (explores_of_stage hs).1.faults hf
  obtain ⟨report, ctx₂, happly, -⟩ := succeeds_apply owner.key s deleteOwner ctx₁ hf₁
  obtain ⟨ctx', hrun, -⟩ := run_of_apply_ok hs happly
  exact ⟨report, ctx', hrun⟩

/-- A cascade that fails without faults is rejected by the verdict, and no row is changed. -/
theorem verdict_of_run_error {e : Failure} {ctx' : Context}
    (h : run schema policy loaded owner deleteOwner ctx = .error e ctx') :
    verdict schema policy ctx.scope (ctx.store.size + 1) loaded owner ctx.store.table = .error e ∧
      ctx'.store.table = ctx.store.table := by
  obtain ⟨ctx₁, hs, hstore⟩ | ⟨s, ctx₁, ctx₂, hs, happly, -⟩ := run_eq_error h
  · rw [← outcome_stage hf, hs, hstore]
    exact ⟨rfl, (onlyRead_of_stage_error hs).table⟩
  · have hf₁ : ctx₁.store.faults = [] := (explores_of_stage hs).1.faults hf
    obtain ⟨report, ctx₃, hok, -⟩ := succeeds_apply owner.key s deleteOwner ctx₁ hf₁
    cases happly.symm.trans hok

end NoFaults

/-- Carrying out a staging fixes the report and the rows that are left. -/
theorem Applied.same {s : Staging} {report report' : CascadeReport} {t t₁ t₂ : RowTable}
    (h : Applied s report t t₁) (h' : Applied s report' t t₂)
    (hd : report'.deleted = report.deleted) : report' = report ∧ t₂.rows = t₁.rows := by
  have hreport : report' = report := by
    obtain ⟨deleted, nulled⟩ := report
    obtain ⟨deleted', nulled'⟩ := report'
    have hn : nulled' = nulled := h'.nulled.trans h.nulled.symm
    have hd : deleted' = deleted := hd
    rw [hn, hd]
  subst hreport
  refine ⟨rfl, RowTable.rows_eq_of_row? fun k => ?_⟩
  by_cases hk : k ∈ report'.deleted
  · rw [h.gone k hk, h'.gone k hk]
  · by_cases hn : k ∈ report'.nulled
    · obtain ⟨n, hm, hstay, rfl⟩ := h.mem_nulled.1 hn
      rw [h.stored n hm hstay, h'.stored n hm hstay]
    · rw [h.other k hk hn, h'.other k hk hn]

/-- Cascades with one verdict report the same and leave the same rows, whatever their policies. -/
theorem same_of_verdict {policy' : CascadePolicy} {report report' : CascadeReport} {s : Staging}
    {ctx₁ ctx₂ : Context} (h : run schema policy loaded owner deleteOwner ctx = .ok report ctx₁)
    (h' : run schema policy' loaded owner deleteOwner ctx = .ok report' ctx₂)
    (hv : verdict schema policy ctx.scope (ctx.store.size + 1) loaded owner ctx.store.table = .ok s)
    (hv' : verdict schema policy' ctx.scope (ctx.store.size + 1) loaded owner ctx.store.table =
      .ok s) : report' = report ∧ ctx₂.store.rows = ctx₁.store.rows := by
  obtain ⟨s₁, new, hx, hs⟩ := explored_of_run h
  obtain ⟨s₂, new', hx', hs'⟩ := explored_of_run h'
  cases hs.symm.trans hv
  cases hs'.symm.trans hv'
  have hnew : new' = new := by
    have hdel := hx'.explores.deletes.symm.trans hx.explores.deletes
    simpa using hdel
  refine hx.sound_applied.2.same hx'.sound_applied.2 ?_
  rw [hx.deleted, hx'.deleted, hnew]

end Cascade
end EntityGraph
