import EntityGraph.Proofs.Cascade.Order
import EntityGraph.Proofs.Cascade.Policy

/-!
# Repeating a cascade

A cascade that has succeeded finds nothing more to do. The rows that it leaves are rows that were
there before, with some properties null. A null refers to nothing, so that the owner has no
dependent among them that it did not have before, and those it had are gone.

* `Cascade.Thinned`: the rows of one table are those of another, with some properties null;
* `Cascade.Detached`: nothing in a table depends on a row or refers to it;
* `Cascade.search_of_detached`: a search from such a row finds nothing;
* `Cascade.repeats`: a cascade after a cascade.
-/

namespace EntityGraph

namespace Cascade

/-! ## What is left -/

/-- The rows of `t'` are rows of `t`, with some properties null. -/
def Thinned (t t' : RowTable) : Prop :=
  ∀ k after, t'.row? k = some after → ∃ before, t.row? k = some before ∧
    ∀ field, after.get? field = before.get? field ∨ after.get? field = some .null

section Thinned

variable {t t' : RowTable} (h : Thinned t t')
include h

/-- A row that refers to a key did so before. -/
theorem Thinned.selects {target field : String} {k : Key} {after : Row} (hm : after ∈ t'.rows)
    (hs : (referrers target field k).selects after) :
    ∃ before ∈ t.rows, before.key = after.key ∧ (referrers target field k).selects before := by
  obtain ⟨before, hb, hget⟩ := h _ _ (RowTable.mem_rows.1 hm)
  have hkey : before.key = after.key := RowTable.key_of_row? hb
  refine ⟨before, RowTable.mem_rows.2 (hkey ▸ hb), hkey, ?_⟩
  obtain hsame | hnull := hget field
  · rw [selects_referrers] at hs ⊢
    rwa [Row.kind, hkey, ← hsame]
  · exact absurd hs (not_selects_of_null hnull)

/-- A dependent of a row was one before. -/
theorem Thinned.resolves {row after : Row} {fields : LoadedFields} {strategy : Strategy}
    (hres : Resolves t' row fields strategy after) :
    ∃ before, Resolves t row fields strategy before ∧ before.key = after.key := by
  obtain ⟨stored, hst, -⟩ := h _ _ (RowTable.mem_rows.1 hres.mem_rows)
  have hkey : stored.key = after.key := RowTable.key_of_row? hst
  cases hres with
  | loaded hl hk hr =>
    cases RowTable.key_of_row? hr
    exact ⟨stored, .loaded hl hk hst, hkey⟩
  | owned hl hm hkind hp =>
    refine ⟨stored, .owned hl (RowTable.mem_rows.2 (hkey ▸ hst)) ?_ (hkey ▸ hp), hkey⟩
    rwa [Row.kind, hkey]
  | referrer hl hm hs =>
    obtain ⟨before, hb, hbkey, hsel⟩ := h.selects hm hs
    exact ⟨before, .referrer hl hb hsel, hbkey⟩
  | referenced hl hv hk hr =>
    cases RowTable.key_of_row? hr
    exact ⟨stored, .referenced hl hv hk hst, hkey⟩

end Thinned

/-- A staging carried out leaves rows that were there before, with some properties null. -/
theorem Applied.thinned {schema : Schema} {s : Staging} {report : CascadeReport} {t t' : RowTable}
    (h : Applied s report t t') (hsound : s.Sound schema t) : Thinned t t' := by
  intro k after hk
  by_cases hd : k ∈ report.deleted
  · cases (h.gone k hd).symm.trans hk
  by_cases hn : k ∈ report.nulled
  · obtain ⟨n, hm, hstay, rfl⟩ := h.mem_nulled.1 hn
    cases (h.stored n hm hstay).symm.trans hk
    obtain ⟨before, hb, hnull⟩ := hsound.origin n hm
    exact ⟨before, hb, fun field => (hnull.property field).imp_right And.left⟩
  · exact ⟨after, (h.other k hd hn).symm.trans hk, fun _ => .inl rfl⟩

/-! ## A search that finds nothing -/

/-- Nothing in a table depends on a row or refers to it, but the row that is stored under its
key. -/
structure Detached (schema : Schema) (t : RowTable) (row : Row) (fields : LoadedFields) : Prop where
  dependent : ∀ child, IsChild schema t row fields child → child.key = row.key
  reference : ∀ field, ∀ r ∈ t.rows, r.key ≠ row.key → ¬RefersThrough schema row.key field r

/-- The search from a row gets past the checks of the row itself: its class has a plan, its join
fields hold nothing that they may not, and the fields that its class is mapped by are declared. -/
structure Startable (schema : Schema) (policy : CascadePolicy) (row : Row) : Prop where
  clear : Clears schema policy row
  plan : ∃ plan, CascadePlan.ofClass schema row.kind = .ok plan
  mapped : ∀ field target mappedBy,
    HasStrategy schema row.kind (.nullReference field target mappedBy) →
      ∃ mapping, mappedField schema row.kind field target mappedBy = .ok mapping

section Search

variable {schema : Schema} {policy : CascadePolicy} {t : RowTable}
  {look : Lookup (Except Failure)} {visit : Row → Staging → Except Failure Staging}
  {fields : LoadedFields} {row : Row} {s s' : Staging}

theorem startable_of_stageRelated
    (h : stageRelated look schema policy visit fields row s = .ok s') :
    Startable schema policy row := by
  simp only [stageRelated, ofExcept_eq] at h
  obtain ⟨plan, hplan, h⟩ := bind_eq_ok.1 h
  obtain ⟨⟨⟩, hreserved, h⟩ := bind_eq_ok.1 h
  obtain ⟨s₁, -, hnulls⟩ := bind_eq_ok.1 h
  refine ⟨(clears_iff hplan).1 hreserved, ⟨plan, hplan⟩, fun field target mappedBy hst => ?_⟩
  obtain ⟨plan', hplan', hst⟩ := hst
  cases hplan.symm.trans hplan'
  obtain ⟨s₂, s₃, hnull⟩ := step_of_foldlM_ok hnulls (List.mem_filter.2 ⟨hst, rfl⟩)
  simp only [stageNull, ofExcept_eq] at hnull
  obtain ⟨mapping, hmapping, -⟩ := bind_eq_ok.1 hnull
  exact ⟨mapping, hmapping⟩

theorem startable_of_search {depth : Nat}
    (h : search look schema policy depth fields row = .ok s) : Startable schema policy row := by
  cases depth with
  | zero => cases h
  | succ depth => exact startable_of_stageRelated h

theorem foldl_stageReferrer_of_doomed {k : Key} {field target mappedBy : String} {nullable : Bool} :
    ∀ {rows : List Row}, (∀ r ∈ rows, r.key ∈ s.doomed) →
      rows.foldl (stageReferrer k field target mappedBy nullable) s = s
  | [], _ => rfl
  | r :: rows, h => by
    rw [List.foldl_cons, stageReferrer, if_pos (h r List.mem_cons_self)]
    exact foldl_stageReferrer_of_doomed fun r' hr => h r' (List.mem_cons_of_mem _ hr)

variable (hlook : Finds t look)
include hlook

theorem stageDelete_of_doomed {strategy : Strategy}
    (h : ∀ child, Resolves t row fields strategy child → child.key ∈ s.doomed) :
    stageDelete look visit fields row s strategy = .ok s := by
  cases strategy with
  | deleteDependents field target owned mappedBy =>
    obtain ⟨children, hdep, hmem⟩ := dependents_eq hlook row fields field target owned mappedBy
    simp only [stageDelete, hdep, ok_bind]
    refine foldlM_eq_self fun child hc => ?_
    rw [stageDependent, if_pos (h child ((hmem child).1 hc))]
    rfl
  | nullReference | reserved => rfl

theorem stageNull_of_doomed {field target mappedBy : String} {mapping : ClassField}
    (hmapping : mappedField schema row.kind field target mappedBy = .ok mapping)
    (h : ∀ r ∈ t.rows, (referrers target mappedBy row.key).selects r → r.key ∈ s.doomed) :
    stageNull look schema row s (.nullReference field target mappedBy) = .ok s := by
  obtain ⟨related, hscan, hmem⟩ := hlook.scan row.key field (referrers target mappedBy row.key)
    (check_referrers target mappedBy row.key) rfl rfl
  simp only [stageNull, ofExcept_eq, hmapping, hscan, ok_bind]
  rw [foldl_stageReferrer_of_doomed fun r hr => h r ((hmem r).1 hr).1 ((hmem r).1 hr).2]
  rfl

/-- A search from a row on which nothing depends, and to which nothing refers, stages nothing. -/
theorem search_of_detached (hstart : Startable schema policy row)
    (hdetached : Detached schema t row fields) (depth : Nat) :
    search look schema policy (depth + 1) fields row = .ok { doomed := [row.key] } := by
  obtain ⟨plan, hplan⟩ := hstart.plan
  have hreserved := (clears_iff hplan).2 hstart.clear
  have hdeletes : ∀ visit, plan.deletes.foldlM (stageDelete look visit fields row)
      { doomed := [row.key] } = .ok { doomed := [row.key] } := by
    refine fun visit => foldlM_eq_self fun strategy hst => ?_
    refine stageDelete_of_doomed hlook fun child hres => List.mem_singleton.2 ?_
    exact hdetached.dependent child ⟨plan, hplan, strategy, (List.mem_filter.1 hst).1, hres⟩
  have hnulls : plan.nulls.foldlM (stageNull look schema row) { doomed := [row.key] } =
      .ok { doomed := [row.key] } := by
    refine foldlM_eq_self fun strategy hst => ?_
    obtain ⟨hst, hnull⟩ := List.mem_filter.1 hst
    cases strategy with
    | deleteDependents | reserved => cases hnull
    | nullReference field target mappedBy =>
      obtain ⟨mapping, hmapping⟩ := hstart.mapped field target mappedBy ⟨plan, hplan, hst⟩
      refine stageNull_of_doomed hlook hmapping fun r hr hs => List.mem_singleton.2 ?_
      by_contra hne
      exact hdetached.reference mappedBy r hr hne ⟨plan, hplan, field, target, hst, hs⟩
  simp only [search, stageWithin, stageRelated, ofExcept_eq, hplan, hreserved, hdeletes, hnulls,
    ok_bind]

end Search

/-! ## The second cascade -/

section Run

variable {schema : Schema} {policy : CascadePolicy} {loaded : LoadedFields} {owner : Row}
  {deleteOwner : Bool} {ctx ctx' : Context} {report : CascadeReport} {s : Staging}
  {new : List Key}

/-- After a cascade nothing depends on its owner or refers to it. -/
theorem Explored.detached (hx : Explored schema owner loaded ctx ctx' report s new deleteOwner)
    (hreq : ∀ q ∈ s.required, q.related ∈ s.doomed) :
    Detached schema ctx'.store.table owner loaded := by
  obtain ⟨hsound, happlied⟩ := hx.sound_applied
  have howner : owner.key ∈ s.doomed := hx.mem_doomed.2 (.inl rfl)
  refine ⟨fun child hc => ?_, fun field r hr hne => ?_⟩
  · obtain ⟨plan, hplan, strategy, hst, hres⟩ := hc
    obtain ⟨before, hbefore, hkey⟩ := (happlied.thinned hsound).resolves hres
    have hdep : Depends schema ctx.store.table owner loaded owner.key child.key :=
      ⟨owner, loaded, before, .owner, rfl, ⟨plan, hplan, strategy, hst, hbefore⟩, hkey⟩
    obtain he | hd := hx.mem_doomed_iff.1 (hx.done.closed _ hdep)
    · exact he
    · cases (happlied.gone _ hd).symm.trans (RowTable.mem_rows.1 hres.mem_rows)
  · exact hx.not_refersThrough happlied hsound hreq howner field hr hne

theorem checkStaging_of_nothing (policy : CascadePolicy) (scope : Scope) (owner : Key) :
    checkStaging policy scope owner { doomed := [owner] } = .ok () :=
  checkStaging_eq_ok.2 ⟨rfl, by simp⟩

/-- Carrying out nothing but the delete of the owner. -/
theorem Explored.of_nothing
    (hx : Explored schema owner loaded ctx ctx' report { doomed := [owner.key] } new deleteOwner) :
    report = ⟨if deleteOwner then [owner.key] else [], []⟩ ∧
    ∀ k, k ∉ report.deleted → ctx'.store.table.row? k = ctx.store.table.row? k := by
  have hnew : new = [] := by simpa using hx.explores.deletes
  obtain ⟨-, happlied⟩ := hx.sound_applied
  have hdeleted := hx.deleted
  have hnulled := happlied.nulled
  rw [hnew, List.nil_append] at hdeleted
  refine ⟨?_, fun k hk => happlied.other k hk (by rw [hnulled]; simp)⟩
  obtain ⟨deleted, nulled⟩ := report
  rw [CascadeReport.mk.injEq]
  exact ⟨hdeleted, hnulled⟩

theorem faults_of_run (h : run schema policy loaded owner deleteOwner ctx = .ok report ctx')
    (hf : ctx.store.faults = []) : ctx'.store.faults = [] := by
  obtain ⟨s, ctx₀, ctx₁, ctx₂, hstore, -, hstage, happly, hlast⟩ := run_eq_ok h
  have hf₁ : ctx₁.store.faults = [] := (explores_of_stage hstage).1.faults (hstore ▸ hf)
  obtain ⟨report', ctx₃, happly', hf₃⟩ := succeeds_apply owner.key s deleteOwner ctx₁ hf₁
  cases happly.symm.trans happly'
  rwa [hlast]

/-- A cascade after a cascade deletes and puts nothing, but that it deletes its owner again. -/
theorem run_again (h : run schema policy loaded owner deleteOwner ctx = .ok report ctx')
    (hf : ctx.store.faults = []) {ctx₁ : Context} (hstore : ctx₁.store = ctx'.store) : ∃ ctx₂,
      run schema policy loaded owner deleteOwner ctx₁ =
        .ok ⟨if deleteOwner then [owner.key] else [], []⟩ ctx₂ ∧
      written (run schema policy loaded owner deleteOwner) ctx₁ =
        (if deleteOwner then [.delete owner.key] else []) ∧
      ctx₂.store.rows = ctx'.store.rows := by
  obtain ⟨s, new, hx, hv⟩ := explored_of_run h
  obtain ⟨hsearch, hcheck⟩ := verdict_eq_ok.1 hv
  have hdetached := hx.detached (related_mem_of_checkStaging hcheck)
  rw [← hstore] at hdetached
  have hagain := search_of_detached (finds_tableLookup _) (startable_of_search hsearch) hdetached
    ctx₁.store.size
  have hf₁ : ctx₁.store.faults = [] := hstore ▸ faults_of_run h hf
  have hverdict := verdict_eq_ok.2 ⟨hagain, checkStaging_of_nothing policy ctx₁.scope owner.key⟩
  obtain ⟨report₂, ctx₂, hrun⟩ := run_of_verdict_ok hf₁ deleteOwner hverdict
  obtain ⟨s₂, new₂, hx₂, hv₂⟩ := explored_of_run hrun
  cases hverdict.symm.trans hv₂
  obtain ⟨rfl, hother⟩ := hx₂.of_nothing
  refine ⟨ctx₂, hrun, ?_, RowTable.rows_eq_of_row? fun k => ?_⟩
  · obtain ⟨dependents, hdeleted, hwritten⟩ := written_of_run hrun
    have hnil : dependents = [] := by simpa using hdeleted.symm
    rw [hwritten, hnil]
    rfl
  · by_cases hk : k ∈ if deleteOwner then [owner.key] else []
    · -- The owner is gone after either cascade.
      have hd : k ∈ report.deleted := hx.deleted ▸ List.mem_append_right _ hk
      rw [hx.sound_applied.2.gone k hd, hx₂.sound_applied.2.gone k hk]
    · rw [hother k hk, hstore]

end Run

/-- A cascade without faults that succeeds leaves nothing for the same cascade to do, whatever the
scope in which it is repeated: it succeeds, nulls nothing, deletes nothing but the owner if that is
to go, and leaves all rows as they are. -/
theorem repeats (schema : Schema) (policy : CascadePolicy) (loaded : LoadedFields) (owner : Row)
    (ctx : Context) (hf : ctx.store.faults = []) (report : CascadeReport) (ctx' ctx₁ : Context)
    (hstore : ctx₁.store = ctx'.store) :
    (execute schema policy loaded owner ctx = .ok report ctx' → ∃ ctx₂,
      execute schema policy loaded owner ctx₁ = .ok ⟨[], []⟩ ctx₂ ∧
      written (execute schema policy loaded owner) ctx₁ = [] ∧
      ctx₂.store.rows = ctx'.store.rows) ∧
    (delete schema policy loaded owner ctx = .ok report ctx' → ∃ ctx₂,
      delete schema policy loaded owner ctx₁ = .ok ⟨[owner.key], []⟩ ctx₂ ∧
      written (delete schema policy loaded owner) ctx₁ = [.delete owner.key] ∧
      ctx₂.store.rows = ctx'.store.rows) :=
  ⟨fun h => run_again h hf hstore, fun h => run_again h hf hstore⟩

theorem repeats_sample :
    (∃ ctx' ctx₂, execute sampleMarkedSchema {} .empty (sampleNode 1 2) sampleMarked =
        .ok ⟨[(sampleNode 2 1).key], [(sampleMark 4 2).key]⟩ ctx' ∧
      execute sampleMarkedSchema {} .empty (sampleNode 1 2)
        { sampleMarked with store := ctx'.store } = .ok ⟨[], []⟩ ctx₂ ∧
      ctx₂.store.rows = ctx'.store.rows) ∧
    ∃ ctx' ctx₂, delete sampleMarkedSchema {} .empty (sampleNode 1 2) sampleMarked =
        .ok ⟨[(sampleNode 2 1).key, (sampleNode 1 2).key], [(sampleMark 4 2).key]⟩ ctx' ∧
      delete sampleMarkedSchema {} .empty (sampleNode 1 2)
        { sampleMarked with store := ctx'.store } = .ok ⟨[(sampleNode 1 2).key], []⟩ ctx₂ ∧
      ctx₂.store.rows = ctx'.store.rows := by
  obtain ⟨ctxE, hexecute⟩ : ∃ ctx',
      execute sampleMarkedSchema {} .empty (sampleNode 1 2) sampleMarked =
        .ok ⟨[(sampleNode 2 1).key], [(sampleMark 4 2).key]⟩ ctx' :=
    exists_eq_ok (by decide +kernel)
  obtain ⟨ctxD, hdelete⟩ : ∃ ctx',
      delete sampleMarkedSchema {} .empty (sampleNode 1 2) sampleMarked =
        .ok ⟨[(sampleNode 2 1).key, (sampleNode 1 2).key], [(sampleMark 4 2).key]⟩ ctx' :=
    exists_eq_ok (by decide +kernel)
  obtain ⟨ctx₂, hagain, -, hrows⟩ := (repeats sampleMarkedSchema {} .empty (sampleNode 1 2)
    sampleMarked rfl _ ctxE { sampleMarked with store := ctxE.store } rfl).1 hexecute
  obtain ⟨ctx₃, hagain', -, hrows'⟩ := (repeats sampleMarkedSchema {} .empty (sampleNode 1 2)
    sampleMarked rfl _ ctxD { sampleMarked with store := ctxD.store } rfl).2 hdelete
  exact ⟨⟨ctxE, ctx₂, hexecute, hagain, hrows⟩, ctxD, ctx₃, hdelete, hagain', hrows'⟩

end Cascade
end EntityGraph
