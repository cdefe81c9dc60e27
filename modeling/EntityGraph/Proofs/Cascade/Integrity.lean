import EntityGraph.Proofs.Cascade.Steps

/-!
# Required references

A cascade is rejected for a reference that may not be null exactly if a row that stays has it to a
row that goes. Which rows go is settled by what the owner reaches, so that the order in which fields
and rows are visited does not matter.

* `Cascade.BreaksReference`: a row that stays has a required reference to one that goes;
* `Cascade.Judged`: what every step of a search keeps, of the references noted as required and of
  the staged nulls;
* `Cascade.required_iff_breaks`: what a search notes in the end;
* `Cascade.integrity_iff`: when a cascade is rejected for a required reference.
-/

open Relation (ReflTransGen)

namespace EntityGraph

namespace Cascade

/-- The row under `k` goes with the owner: it is the owner, or is reached from it. -/
def Goes (schema : Schema) (t : RowTable) (owner : Row) (loaded : LoadedFields) (k : Key) : Prop :=
  ReflTransGen (Depends schema t owner loaded) owner.key k

/-- A stored row that does not go with the owner refers to one that does, through a relation that is
nulled, in a field that may not be null. -/
def BreaksReference (schema : Schema) (t : RowTable) (owner : Row) (loaded : LoadedFields) : Prop :=
  ∃ k field target mappedBy mapping r, Goes schema t owner loaded k ∧
    BackReference schema t k field target mappedBy mapping r ∧ mapping.nullable = false ∧
    ¬Goes schema t owner loaded r.key

/-! ## What a search notes -/

/-- The references that are noted as required are those to doomed rows in fields that may not be
null. In a row that is staged, only fields are null that may be, or that were before. -/
structure Judged (schema : Schema) (t : RowTable) (s : Staging) : Prop where
  required : ∀ q ∈ s.required, ∃ k field target mappedBy mapping r, k ∈ s.doomed ∧
    BackReference schema t k field target mappedBy mapping r ∧ mapping.nullable = false ∧
    q = ⟨r.key, .requiredReference k.text field target mappedBy⟩
  nulls : ∀ n ∈ s.nulls, ∀ field, n.row.get? field = some .null →
    (∃ before, t.row? n.row.key = some before ∧ before.get? field = some .null) ∨
      ∃ mapping, schema.field? n.row.kind field = .ok (some mapping) ∧ mapping.nullable = true

section Search

variable {schema : Schema} {t : RowTable} {s s' : Staging}

theorem BackReference.kind_eq {k : Key} {field target mappedBy : String} {mapping : ClassField}
    {r : Row} (h : BackReference schema t k field target mappedBy mapping r) : r.kind = target := by
  have hs := h.selected
  rw [selects_referrers, Bool.and_eq_true] at hs
  exact eq_of_beq hs.1

/-- A property that refers to something is not null. -/
theorem BackReference.get?_ne_null {k : Key} {field target mappedBy : String} {mapping : ClassField}
    {r : Row} (h : BackReference schema t k field target mappedBy mapping r) :
    r.get? mappedBy ≠ some .null := by
  intro hn
  obtain ⟨plan, hplan, hst⟩ := h.strategy
  exact not_refersThrough_of_null hn ⟨plan, hplan, field, target, hst, h.selected⟩

theorem Judged.addNull (h : Judged schema t s) {k : Key} {field target mappedBy : String}
    {mapping : ClassField} {r : Row}
    (hr : BackReference schema t k field target mappedBy mapping r)
    (hnullable : mapping.nullable = true) : Judged schema t (s.addNull r mappedBy) where
  required := by
    rw [Staging.required_addNull, Staging.doomed_addNull]
    exact h.required
  nulls n hn f hf := by
    rcases Staging.mem_nulls_addNull hn with hn | ⟨before, hkey, hrow, hbefore⟩
    · exact h.nulls n hn f hf
    have hnkey : n.row.key = before.key := by
      rw [hrow]
      rfl
    rw [hrow, Row.get?_set] at hf
    by_cases hfield : f = mappedBy
    · have hkind : n.row.kind = target := by
        rw [Row.kind, hnkey, hkey]
        exact hr.kind_eq
      rw [hfield, hkind]
      exact .inr ⟨mapping, hr.declared, hnullable⟩
    · rw [if_neg hfield] at hf
      rcases hbefore with rfl | ⟨m, hm, rfl⟩
      · exact .inl ⟨before, hnkey ▸ RowTable.mem_rows.1 hr.stored, hf⟩
      · rw [Row.kind, hnkey]
        exact h.nulls m hm f hf

theorem Judged.step (h : Judged schema t s) (hstep : Step schema t s s') : Judged schema t s' := by
  cases hstep with
  | doom _ =>
    refine ⟨fun q hq => ?_, h.nulls⟩
    obtain ⟨k, field, target, mappedBy, mapping, r, hk, hr⟩ := h.required q hq
    exact ⟨k, field, target, mappedBy, mapping, r, List.mem_cons_of_mem _ hk, hr⟩
  | delete _ => exact ⟨h.required, h.nulls⟩
  | @refer k field target mappedBy mapping r hk hr =>
    unfold stageReferrer
    split
    · exact h
    · split
      · exact h.addNull hr ‹_›
      · rename_i hnullable
        refine ⟨fun q hq => ?_, h.nulls⟩
        rcases List.mem_append.1 hq with hq | hq
        · exact h.required q hq
        · exact ⟨k, field, target, mappedBy, mapping, r, hk, hr, Bool.eq_false_iff.2 hnullable,
            List.mem_singleton.1 hq⟩

theorem Judged.steps (h : Judged schema t s) (hsteps : ReflTransGen (Step schema t) s s') :
    Judged schema t s' := by
  induction hsteps with
  | refl => exact h
  | tail _ hstep ih => exact ih.step hstep

variable {owner : Row} {loaded : LoadedFields} {look : Lookup (Except Failure)}
  {policy : CascadePolicy} {depth : Nat} (hlook : Finds t look)
  (hs : search look schema policy depth loaded owner = .ok s)
include hlook hs

theorem judged_of_search : Judged schema t s := by
  have hstart : Judged schema t { doomed := [owner.key] } :=
    ⟨by simp, by simp⟩
  exact hstart.steps (steps_of_search hlook hs)

/-- A search notes a required reference in a row that stays exactly if one is broken. -/
theorem required_iff_breaks :
    (∃ q ∈ s.required, q.related ∉ s.doomed) ↔ BreaksReference schema t owner loaded := by
  have hj := judged_of_search hlook hs
  obtain ⟨new, hsearched⟩ := searched_of_search hlook hs
  have hgoes : ∀ k, k ∈ s.doomed ↔ Goes schema t owner loaded k := fun k => hsearched.mem_doomed_iff
  constructor
  · rintro ⟨q, hq, hstay⟩
    obtain ⟨k, field, target, mappedBy, mapping, r, hk, hr, hnullable, rfl⟩ := hj.required q hq
    exact ⟨k, field, target, mappedBy, mapping, r, (hgoes k).1 hk, hr, hnullable,
      fun hg => hstay ((hgoes r.key).2 hg)⟩
  · rintro ⟨k, field, target, mappedBy, mapping, r, hk, hr, hnullable, hstay⟩
    have hstay : r.key ∉ s.doomed := fun hd => hstay ((hgoes r.key).1 hd)
    obtain ⟨plan, hplan, hst⟩ := hr.strategy
    have hsettled := (hsearched.done_of_mem ((hgoes k).2 hk)).settled plan hplan _ hst
    -- The search has dealt with the reference, and may neither have doomed its row nor nulled it.
    rcases hsettled r hr.stored hr.selected with hd | ⟨n, hn, hkey, hnull⟩ | ⟨q, hq, hrel⟩
    · exact absurd hd hstay
    · exfalso
      rcases hj.nulls n hn mappedBy hnull with ⟨before, hb, hnil⟩ | ⟨mapping', hdecl, hyes⟩
      · rw [hkey, RowTable.mem_rows.1 hr.stored] at hb
        cases hb
        exact hr.get?_ne_null hnil
      · have hkind : n.row.kind = target := by
          rw [Row.kind, hkey]
          exact hr.kind_eq
        rw [hkind, hr.declared] at hdecl
        cases hdecl
        cases hnullable.symm.trans hyes
    · exact ⟨q, hq, hrel ▸ hstay⟩

omit hlook hs in
/-- Of the checks of a staging, that of the required references is the one that fails for the
integrity of the objects. -/
theorem Judged.check_iff (hj : Judged schema t s) (policy : CascadePolicy) (scope : Scope)
    (owner : Key) : (∃ e, checkStaging policy scope owner s = .error e ∧
      e.report.category = .integrity) ↔ ∃ q ∈ s.required, q.related ∉ s.doomed := by
  have hbroken : (∃ q ∈ s.required, q.related ∉ s.doomed) ↔ s.brokenReference?.isSome := by
    simp [Staging.brokenReference?, List.find?_isSome]
  rw [hbroken, checkStaging]
  cases hb : s.brokenReference? with
  | some q =>
    obtain ⟨k, field, target, mappedBy, mapping, r, -, -, -, rfl⟩ :=
      hj.required q (List.mem_of_find?_eq_some hb)
    exact ⟨fun _ => rfl, fun _ => ⟨_, rfl, rfl⟩⟩
  | none =>
    refine ⟨?_, fun h => by cases h⟩
    rintro ⟨e, he, hcat⟩
    simp only [checkGroup] at he
    split at he
    · split at he <;> cases he
      cases hcat
    · cases he

/-- What a search has found is rejected for the integrity of the objects exactly if a required
reference is broken. -/
theorem check_iff_breaks (policy' : CascadePolicy) (scope : Scope) :
    (∃ e, checkStaging policy' scope owner.key s = .error e ∧ e.report.category = .integrity) ↔
      BreaksReference schema t owner loaded :=
  ((judged_of_search hlook hs).check_iff policy' scope owner.key).trans
    (required_iff_breaks hlook hs)

end Search

/-! ## The order of the fields -/

/-- Schemas whose classes have the same strategies, in whatever order, and the same fields. -/
structure Reordered (schema schema' : Schema) : Prop where
  strategy : ∀ kind strategy, HasStrategy schema' kind strategy ↔ HasStrategy schema kind strategy
  field? : ∀ kind field, schema'.field? kind field = schema.field? kind field

theorem isChild_iff {schema : Schema} {t : RowTable} {row child : Row} {fields : LoadedFields} :
    IsChild schema t row fields child ↔
      ∃ strategy, HasStrategy schema row.kind strategy ∧ Resolves t row fields strategy child := by
  constructor
  · rintro ⟨plan, hplan, strategy, hst, hres⟩
    exact ⟨strategy, ⟨plan, hplan, hst⟩, hres⟩
  · rintro ⟨strategy, ⟨plan, hplan, hst⟩, hres⟩
    exact ⟨plan, hplan, strategy, hst, hres⟩

namespace Reordered

variable {schema schema' : Schema} (h : Reordered schema schema') (t : RowTable) (owner : Row)
  (loaded : LoadedFields)
include h

theorem goes_eq : Goes schema' t owner loaded = Goes schema t owner loaded := by
  have hdepends : Depends schema' t owner loaded = Depends schema t owner loaded := by
    funext a b
    simp only [Depends, isChild_iff, h.strategy]
  funext k
  rw [Goes, Goes, hdepends]

theorem backReference_iff {k : Key} {field target mappedBy : String} {mapping : ClassField}
    {r : Row} : BackReference schema' t k field target mappedBy mapping r ↔
      BackReference schema t k field target mappedBy mapping r :=
  ⟨fun hr => ⟨(h.strategy _ _).1 hr.strategy, h.field? _ _ ▸ hr.declared, hr.stored, hr.selected⟩,
    fun hr => ⟨(h.strategy _ _).2 hr.strategy, (h.field? _ _).trans hr.declared, hr.stored,
      hr.selected⟩⟩

theorem breaksReference_iff :
    BreaksReference schema' t owner loaded ↔ BreaksReference schema t owner loaded := by
  simp only [BreaksReference, h.goes_eq, h.backReference_iff]

end Reordered

/-! ## Whole cascades -/

/-- A cascade without faults that neither the schema nor a join field stands in the way of fails for
the integrity of the objects exactly if a required reference is broken: a row that stays refers,
through a relation that is nulled and in a field that may not be null, to the owner or to a row that
goes with it. This does not depend on the order in which fields and rows are visited: whatever
search completes, over a schema with the fields in another order and with look-ups that find the
rows in another order, its findings are rejected in just this case. -/
theorem integrity_iff (schema : Schema) (policy : CascadePolicy) (loaded : LoadedFields)
    (owner : Row) (ctx : Context) (hf : ctx.store.faults = []) (call : Action CascadeReport)
    (hcall : call = execute schema policy loaded owner ∨ call = delete schema policy loaded owner)
    (hclean : ∀ e ctx', call ctx = .error e ctx' → ¬Declines e) :
    ((∃ e ctx', call ctx = .error e ctx' ∧ e.report.category = .integrity) ↔
      BreaksReference schema ctx.store.table owner loaded) ∧
    ∀ schema' look policy' scope depth s, Reordered schema schema' → Finds ctx.store.table look →
      search look schema' policy' depth loaded owner = .ok s →
      ((∃ e, checkStaging policy' scope owner.key s = .error e ∧ e.report.category = .integrity) ↔
        BreaksReference schema ctx.store.table owner loaded) := by
  refine ⟨?_, fun schema' look policy' scope depth s hschema hlook hs =>
    (check_iff_breaks hlook hs policy' scope).trans (hschema.breaksReference_iff ..)⟩
  obtain ⟨deleteOwner, rfl⟩ : ∃ deleteOwner, call = run schema policy loaded owner deleteOwner := by
    rcases hcall with rfl | rfl
    · exact ⟨false, rfl⟩
    · exact ⟨true, rfl⟩
  have hrejected : ∀ e, verdict schema policy ctx.scope (ctx.store.size + 1) loaded owner
      ctx.store.table = .error e → ¬Declines e := fun e hv => by
    obtain ⟨ctx', hrun⟩ := run_of_verdict_error hf deleteOwner hv
    exact hclean e ctx' hrun
  constructor
  · rintro ⟨e, ctx', hrun, hcat⟩
    obtain ⟨hv, -⟩ := verdict_of_run_error hf hrun
    obtain hs | ⟨s, hs, hc⟩ := verdict_eq_error hv
    · exact absurd (declines_of_search hf hs) (hrejected e hv)
    · exact (check_iff_breaks (finds_tableLookup _) hs policy ctx.scope).1 ⟨e, hc, hcat⟩
  · intro hbreaks
    cases hv : verdict schema policy ctx.scope (ctx.store.size + 1) loaded owner
        ctx.store.table with
    | ok s =>
      obtain ⟨hs, hc⟩ := verdict_eq_ok.1 hv
      obtain ⟨e, he, -⟩ :=
        (check_iff_breaks (finds_tableLookup _) hs policy ctx.scope).2 hbreaks
      cases he.symm.trans hc
    | error e =>
      obtain hs | ⟨s, hs, hc⟩ := verdict_eq_error hv
      · exact absurd (declines_of_search hf hs) (hrejected e hv)
      · obtain ⟨e', he, hcat⟩ :=
          (check_iff_breaks (finds_tableLookup _) hs policy ctx.scope).2 hbreaks
        cases he.symm.trans hc
        obtain ⟨ctx', hrun⟩ := run_of_verdict_error hf deleteOwner hv
        exact ⟨e, ctx', hrun, hcat⟩

/-- The classes of the nodes and the marks, where a mark is always on a node. -/
def sampleRequiredSchema : Schema :=
  sampleMarkedSchema.replace { name := "M", fields := [{ name := "node", nullable := false }] }

/-- Looking at a table from its end. -/
def sampleReversed (t : RowTable) : Lookup (Except Failure) where
  load owner field keys := (tableLookup t).load owner field keys.reverse
  scan owner field q := ((tableLookup t).scan owner field q).map List.reverse

theorem finds_sampleReversed (t : RowTable) : Finds t (sampleReversed t) where
  load owner field keys := ⟨_, rfl, by simp⟩
  scan owner field q hc hs hw := by
    obtain ⟨rows, hscan, hmem⟩ := (finds_tableLookup t).scan owner field q hc hs hw
    refine ⟨rows.reverse, ?_, by simpa using hmem⟩
    simp only [sampleReversed, hscan]
    rfl

theorem integrity_sample :
    (∃ e ctx', delete sampleRequiredSchema {} .empty (sampleNode 1 2) sampleMarked =
      .error e ctx' ∧ e.report.category = .integrity) ∧
    BreaksReference sampleRequiredSchema sampleMarked.store.table (sampleNode 1 2) .empty ∧
    ∃ s e, search (sampleReversed sampleMarked.store.table) sampleRequiredSchema {} 4 .empty
        (sampleNode 1 2) = .ok s ∧
      checkStaging {} sampleMarked.scope (sampleNode 1 2).key s = .error e ∧
      e.report.category = .integrity := by
  have hcategory : (match delete sampleRequiredSchema {} .empty (sampleNode 1 2) sampleMarked with
      | .error e _ => e.report.category
      | .ok .. => .internal) = .integrity := by decide +kernel
  have hfails : ∃ e ctx', delete sampleRequiredSchema {} .empty (sampleNode 1 2) sampleMarked =
      .error e ctx' ∧ e.report.category = .integrity := by
    cases h : delete sampleRequiredSchema {} .empty (sampleNode 1 2) sampleMarked with
    | ok report ctx' =>
      rw [h] at hcategory
      cases hcategory
    | error e ctx' =>
      rw [h] at hcategory
      exact ⟨e, ctx', rfl, hcategory⟩
  have hclean : ∀ e ctx', delete sampleRequiredSchema {} .empty (sampleNode 1 2) sampleMarked =
      .error e ctx' → ¬Declines e := by
    intro e ctx' h hd
    rw [h] at hcategory
    rcases hd with hd | ⟨owner, kind, field, rfl⟩
    · cases hcategory.symm.trans hd
    · cases hcategory
  obtain ⟨hiff, hany⟩ := integrity_iff sampleRequiredSchema {} .empty (sampleNode 1 2) sampleMarked
    rfl _ (.inr rfl) hclean
  obtain ⟨s, hs⟩ : ∃ s, search (sampleReversed sampleMarked.store.table) sampleRequiredSchema {} 4
      .empty (sampleNode 1 2) = .ok s := by
    have hfinds : (search (sampleReversed sampleMarked.store.table) sampleRequiredSchema {} 4 .empty
      (sampleNode 1 2)).toOption.isSome = true := by decide +kernel
    obtain ⟨s, hs⟩ := Option.isSome_iff_exists.1 hfinds
    exact ⟨s, toOption_eq_some.1 hs⟩
  obtain ⟨e, he, hcat⟩ := (hany sampleRequiredSchema _ {} sampleMarked.scope 4 s
    ⟨fun _ _ => .rfl, fun _ _ => rfl⟩ (finds_sampleReversed _) hs).2 (hiff.1 hfails)
  exact ⟨hfails, hiff.1 hfails, s, e, hs, he, hcat⟩

end Cascade
end EntityGraph
