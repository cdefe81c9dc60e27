import EntityGraph.Proofs.Cascade.Closure
import EntityGraph.Proofs.Store.Writing

/-!
# What a cascade leaves

A cascade that succeeds changes the rows that it reports and no others, and leaves no row that
refers to a deleted one through a relation that it nulls.

* `Cascade.applied_of_apply`: the rows after the writes of a staging;
* `Cascade.effect`: the rows after a cascade, and the references among them.
-/

namespace EntityGraph

namespace Cascade

/-! ## Carrying out a staging -/

theorem rows_of_deletes {owner : Key} : ∀ {ds : List StagedDelete} {ctx ctx' : Context},
    (ds.forM fun d => Action.onStore (storeFailure owner d.field) (Store.delete d.key)) ctx =
      .ok () ctx' →
    ∀ k, ctx'.store.table.row? k =
      if k ∈ ds.map (·.key) then none else ctx.store.table.row? k
  | [], ctx, ctx', h, k => by
    cases h
    simp
  | d :: ds, ctx, ctx', h, k => by
    obtain ⟨⟨⟩, ctx₁, hd, h⟩ := bind_run_ok.1 h
    obtain ⟨hcall, -⟩ := Action.onStore_ok hd
    rw [rows_of_deletes h, Store.delete_eq_ok hcall, RowTable.row?_erase]
    by_cases hk : k = d.key <;> simp [hk]

theorem rows_of_nulls {owner : Key} : ∀ {ns : List StagedNull} {ctx ctx' : Context}
    {keys : List Key}, (∀ n ∈ ns, n.row.key.isComplete) → (ns.map (·.row.key)).Nodup →
    (ns.mapM fun n => Action.onStore (storeFailure owner n.field) (Store.put n.row)) ctx =
      .ok keys ctx' →
    keys = ns.map (·.row.key) ∧ (∀ n ∈ ns, ctx'.store.table.row? n.row.key = some n.row) ∧
    ∀ k, k ∉ ns.map (·.row.key) → ctx'.store.table.row? k = ctx.store.table.row? k
  | [], ctx, ctx', keys, _, _, h => by
    cases h
    simp
  | n :: ns, ctx, ctx', keys, hc, hn, h => by
    rw [List.mapM_cons] at h
    obtain ⟨k, ctx₁, hput, h⟩ := bind_run_ok.1 h
    obtain ⟨ks, ctx₂, hrest, h⟩ := bind_run_ok.1 h
    cases h
    obtain ⟨hcall, -⟩ := Action.onStore_ok hput
    obtain ⟨rfl, htable⟩ := Store.put_eq_ok hcall
    have hkey : ctx.store.keyFor n.row = n.row.key := if_pos (hc n List.mem_cons_self)
    obtain ⟨hnotin, hn⟩ := List.nodup_cons.1 hn
    have hcs : ∀ m ∈ ns, m.row.key.isComplete := fun m hm => hc m (List.mem_cons_of_mem _ hm)
    obtain ⟨rfl, hrows, hother⟩ := rows_of_nulls hcs hn hrest
    refine ⟨?_, fun m hm => ?_, fun k hk => ?_⟩
    · rw [hkey, List.map_cons]
    · rcases List.mem_cons.1 hm with rfl | hm
      · rw [hother _ hnotin, htable, RowTable.row?_put, hkey, if_pos rfl]
      · exact hrows m hm
    · rw [List.map_cons, List.mem_cons, not_or] at hk
      rw [hother k hk.2, htable, RowTable.row?_put, hkey, if_neg hk.1]

/-- What carrying out a staging makes of the rows of a table: the rows that are reported as deleted
are gone, the staged nulls of rows that are not doomed are stored, and every other row is as it
was. -/
structure Applied (s : Staging) (report : CascadeReport) (t t' : RowTable) : Prop where
  gone : ∀ k ∈ report.deleted, t'.row? k = none
  nulled : report.nulled = (s.nulls.filter (·.row.key ∉ s.doomed)).map (·.row.key)
  stored : ∀ n ∈ s.nulls, n.row.key ∉ s.doomed → t'.row? n.row.key = some n.row
  other : ∀ k, k ∉ report.deleted → k ∉ report.nulled → t'.row? k = t.row? k

theorem Applied.mem_nulled {s : Staging} {report : CascadeReport} {t t' : RowTable}
    (h : Applied s report t t') {k : Key} :
    k ∈ report.nulled ↔ ∃ n ∈ s.nulls, n.row.key ∉ s.doomed ∧ n.row.key = k := by
  simp [h.nulled, and_assoc]

/-- Carrying out a staging deletes rows, then stores rows, and deletes the owner last. -/
theorem parts_of_apply {owner : Key} {s : Staging} {deleteOwner : Bool} {ctx ctx' : Context}
    {report : CascadeReport} (h : apply owner s deleteOwner ctx = .ok report ctx') : ∃ ctx₁ ctx₂,
      (s.deletes.forM fun d =>
        Action.onStore (storeFailure owner d.field) (Store.delete d.key)) ctx = .ok () ctx₁ ∧
      ((s.nulls.filter (·.row.key ∉ s.doomed)).mapM fun n =>
        Action.onStore (storeFailure owner n.field) (Store.put n.row)) ctx₁ =
          .ok report.nulled ctx₂ ∧
      ∀ k, ctx'.store.table.row? k =
        if deleteOwner = true ∧ k = owner then none else ctx₂.store.table.row? k := by
  unfold apply at h
  obtain ⟨⟨⟩, ctx₁, h₁, h⟩ := bind_run_ok.1 h
  obtain ⟨nulled, ctx₂, h₂, h⟩ := bind_run_ok.1 h
  cases deleteOwner with
  | false =>
    cases h
    exact ⟨ctx₁, _, h₁, h₂, by simp⟩
  | true =>
    simp only [if_true] at h
    obtain ⟨⟨⟩, ctx₃, h₃, h⟩ := bind_run_ok.1 h
    cases h
    obtain ⟨hcall, -⟩ := Action.onStore_ok h₃
    refine ⟨ctx₁, ctx₂, h₁, h₂, fun k => ?_⟩
    rw [Store.delete_eq_ok hcall, RowTable.row?_erase]
    simp

/-- The rows after the writes of a staging whose nulls are different rows under complete keys. -/
theorem applied_of_apply {owner : Key} {s : Staging} {deleteOwner : Bool} {ctx ctx' : Context}
    {report : CascadeReport} (hc : ∀ n ∈ s.nulls, n.row.key.isComplete)
    (hn : (s.nulls.map (·.row.key)).Nodup) (ho : owner ∈ s.doomed)
    (hd : ∀ d ∈ s.deletes, d.key ∈ s.doomed)
    (h : apply owner s deleteOwner ctx = .ok report ctx') :
    Applied s report ctx.store.table ctx'.store.table := by
  have hdel := deleted_of_apply h
  obtain ⟨ctx₁, ctx₂, h₁, h₂, hlast⟩ := parts_of_apply h
  have hdeletes := rows_of_deletes h₁
  have hcs : ∀ n ∈ s.nulls.filter (·.row.key ∉ s.doomed), n.row.key.isComplete :=
    fun n hm => hc n (List.mem_filter.1 hm).1
  have hns : ((s.nulls.filter (·.row.key ∉ s.doomed)).map (·.row.key)).Nodup :=
    hn.sublist (List.filter_sublist.map _)
  obtain ⟨hnulled, hstored, hother⟩ := rows_of_nulls hcs hns h₂
  rw [← hnulled] at hother
  have hstay : ∀ k ∈ report.nulled, k ∉ s.doomed := by
    intro k hk
    rw [hnulled] at hk
    obtain ⟨n, hm, rfl⟩ := List.mem_map.1 hk
    simpa using (List.mem_filter.1 hm).2
  refine ⟨fun k hk => ?_, hnulled, fun n hm hnd => ?_, fun k hkd hkn => ?_⟩
  · by_cases howner : deleteOwner = true ∧ k = owner
    · rw [hlast, if_pos howner]
    · have hmem : k ∈ s.deletes.map (·.key) := by
        rw [hdel] at hk
        rcases List.mem_append.1 hk with hk | hk
        · exact hk
        · cases deleteOwner with
          | false => cases hk
          | true => exact absurd ⟨rfl, List.mem_singleton.1 hk⟩ howner
      obtain ⟨d, hdm, rfl⟩ := List.mem_map.1 hmem
      have hkn : d.key ∉ report.nulled := fun hk => hstay _ hk (hd d hdm)
      rw [hlast, if_neg howner, hother _ hkn, hdeletes, if_pos hmem]
  · have hne : n.row.key ≠ owner := fun he => hnd (he ▸ ho)
    rw [hlast, if_neg fun hc => hne hc.2]
    exact hstored n (List.mem_filter.2 ⟨hm, by simpa using hnd⟩)
  · rw [hdel, List.mem_append, not_or] at hkd
    have hne : ¬(deleteOwner = true ∧ k = owner) := by
      rintro ⟨rfl, rfl⟩
      exact hkd.2 (by simp)
    rw [hlast, if_neg hne, hother _ hkn, hdeletes, if_neg hkd.1]

/-! ## References -/

theorem selects_referrers (target field : String) (k : Key) (r : Row) :
    (referrers target field k).selects r =
      (r.kind == target && Value.compareField (r.get? field) .eq (.key k) == .holds) := by
  simp [referrers, Scan.selects, ScanCondition.holds, ScanField.resolve, ScanField.toField,
    Field.resolve, ScanOp.toComparator]

/-- A null property refers to nothing. -/
theorem not_selects_of_null {target field : String} {k : Key} {r : Row}
    (h : r.get? field = some .null) : ¬(referrers target field k).selects r := by
  rw [selects_referrers, h]
  simp [Value.compareField, Value.isNull, Value.test]

theorem not_refersThrough_of_null {schema : Schema} {field : String} {k : Key} {r : Row}
    (h : r.get? field = some .null) : ¬RefersThrough schema k field r := by
  rintro ⟨plan, -, through, target, -, hs⟩
  exact not_selects_of_null h hs

/-- Rows under one key that agree in a property refer to the same rows in it. -/
theorem RefersThrough.congr {schema : Schema} {field : String} {k : Key} {r r' : Row}
    (h : RefersThrough schema k field r) (hk : r'.key = r.key) (hf : r'.get? field = r.get? field) :
    RefersThrough schema k field r' := by
  obtain ⟨plan, hplan, through, target, hst, hs⟩ := h
  refine ⟨plan, hplan, through, target, hst, ?_⟩
  rw [selects_referrers] at hs ⊢
  rw [Row.kind, hk, hf]
  exact hs

/-- A staging that passes its checks breaks no required reference. -/
theorem related_mem_of_checkStaging {policy : CascadePolicy} {scope : Scope} {owner : Key}
    {s : Staging} (h : checkStaging policy scope owner s = .ok ()) :
    ∀ q ∈ s.required, q.related ∈ s.doomed := by
  unfold checkStaging at h
  split at h
  · cases h
  · rename_i hb
    intro q hq
    simpa using List.find?_eq_none.1 hb q hq

/-- In a staging that breaks no required reference, a row that stays and refers to a doomed one has
the reference staged to be null. -/
theorem Explored.nulls_of_refers {schema : Schema} {owner : Row} {loaded : LoadedFields}
    {ctx ctx' : Context} {report : CascadeReport} {s : Staging} {new : List Key}
    {deleteOwner : Bool}
    (h : Explored schema owner loaded ctx ctx' report s new deleteOwner)
    (hreq : ∀ q ∈ s.required, q.related ∈ s.doomed) {k : Key} (hk : k ∈ s.doomed) {r : Row}
    (hr : r ∈ ctx.store.rows) (hstay : r.key ∉ s.doomed) {field : String}
    (href : RefersThrough schema k field r) : s.Nulls r.key field := by
  obtain ⟨plan, hplan, through, target, hst, hs⟩ := href
  rcases (h.searched.done_of_mem hk).settled plan hplan _ hst r hr hs with hd | hn | ⟨q, hq, hrel⟩
  · exact absurd hd hstay
  · exact hn
  · exact absurd (hrel ▸ hreq q hq) hstay

/-- A row that is left after a cascade, other than the owner's, does not refer to a doomed one. -/
theorem Explored.not_refersThrough {schema : Schema} {owner : Row} {loaded : LoadedFields}
    {ctx ctx' : Context} {report : CascadeReport} {s : Staging} {new : List Key}
    {deleteOwner : Bool} (hx : Explored schema owner loaded ctx ctx' report s new deleteOwner)
    (ha : Applied s report ctx.store.table ctx'.store.table)
    (hsound : s.Sound schema ctx.store.table) (hreq : ∀ q ∈ s.required, q.related ∈ s.doomed)
    {k : Key} (hk : k ∈ s.doomed) (field : String) {r : Row} (hr : r ∈ ctx'.store.rows)
    (hne : r.key ≠ owner.key) : ¬RefersThrough schema k field r := by
  intro href
  have hrow : ctx'.store.table.row? r.key = some r := RowTable.mem_rows.1 hr
  have hstay : r.key ∉ s.doomed := by
    intro hd
    rcases hx.mem_doomed_iff.1 hd with he | hd
    · exact hne he
    · cases (ha.gone _ hd).symm.trans hrow
  have hnow : ∀ n ∈ s.nulls, n.row.key = r.key → n.row = r := by
    intro n hn hkey
    have hst := ha.stored n hn (hkey ▸ hstay)
    rw [hkey, hrow] at hst
    exact (Option.some.inj hst).symm
  by_cases hn : r.key ∈ report.nulled
  · obtain ⟨n, hn, -, hkey⟩ := ha.mem_nulled.1 hn
    obtain ⟨before, hb, hnull⟩ := hsound.origin n hn
    rw [hnow n hn hkey] at hb hnull
    have hbkey : before.key = r.key := RowTable.key_of_row? hb
    rcases hnull.property field with hsame | ⟨hnil, -⟩
    · have hbefore : before ∈ ctx.store.rows := RowTable.mem_rows.2 (hbkey ▸ hb)
      obtain ⟨n', hn', hkey', hnil⟩ := hx.nulls_of_refers hreq hk hbefore (hbkey ▸ hstay)
        (href.congr hbkey hsame.symm)
      rw [hnow n' hn' (hkey'.trans hbkey)] at hnil
      exact not_refersThrough_of_null hnil href
    · exact not_refersThrough_of_null hnil href
  · have hbefore : r ∈ ctx.store.rows := by
      refine RowTable.mem_rows.2 ?_
      rw [← ha.other r.key (fun hd => hstay (hx.mem_doomed_iff.2 (.inr hd))) hn]
      exact hrow
    obtain ⟨n, hns, hkey, -⟩ := hx.nulls_of_refers hreq hk hbefore hstay href
    exact hn (ha.mem_nulled.2 ⟨n, hns, hkey ▸ hstay, hkey⟩)

/-- A cascade that succeeds has carried out a sound staging. -/
theorem Explored.sound_applied {schema : Schema} {owner : Row} {loaded : LoadedFields}
    {ctx ctx' : Context} {report : CascadeReport} {s : Staging} {new : List Key}
    {deleteOwner : Bool} (hx : Explored schema owner loaded ctx ctx' report s new deleteOwner) :
    s.Sound schema ctx.store.table ∧ Applied s report ctx.store.table ctx'.store.table := by
  obtain ⟨ctx₁, ctx₂, htable, happly, hlast⟩ := hx.applied
  have hsound : s.Sound schema ctx.store.table := hx.explores.sound ⟨.nil, by simp⟩
  have hcomplete : ∀ n ∈ s.nulls, n.row.key.isComplete := by
    intro n hn
    obtain ⟨before, hb, -⟩ := hsound.origin n hn
    exact RowTable.isComplete_of_row? hb
  have hdeletes : ∀ d ∈ s.deletes, d.key ∈ s.doomed := by
    intro d hd
    have hk : d.key ∈ s.deletes.map (·.key) := List.mem_map_of_mem hd
    rw [hx.explores.deletes] at hk
    exact hx.mem_doomed.2 (.inr (by simpa using hk))
  refine ⟨hsound, ?_⟩
  rw [← htable, hlast]
  exact applied_of_apply hcomplete hsound.nodup (hx.mem_doomed.2 (.inl rfl)) hdeletes happly

/-- The rows after a cascade that succeeds are the rows before it without those it reports as
deleted; the rows that it reports as nulled differ only in properties that are null now, and in
which they referred to the owner or a deleted row through a relation that is nulled; all other rows
are the same. No row is reported twice. And no row that is left, other than the owner's, refers to
the owner or a deleted row through a relation that is nulled. -/
theorem effect (schema : Schema) (policy : CascadePolicy) (loaded : LoadedFields) (owner : Row)
    (ctx : Context) (report : CascadeReport) (ctx' : Context)
    (h : execute schema policy loaded owner ctx = .ok report ctx' ∨
      delete schema policy loaded owner ctx = .ok report ctx') :
    ((∀ k ∈ report.deleted, ctx'.store.row? k = none) ∧
      (∀ k ∈ report.nulled, ∃ before after, ctx.store.row? k = some before ∧
        ctx'.store.row? k = some after ∧
        Nulled schema (fun k => k = owner.key ∨ k ∈ report.deleted) before after) ∧
      ∀ k, k ∉ report.deleted → k ∉ report.nulled → ctx'.store.row? k = ctx.store.row? k) ∧
    (report.deleted.Nodup ∧ report.nulled.Nodup ∧ ∀ k ∈ report.deleted, k ∉ report.nulled) ∧
    ∀ k, k = owner.key ∨ k ∈ report.deleted → ∀ field, ∀ r ∈ ctx'.store.rows, r.key ≠ owner.key →
      ¬RefersThrough schema k field r := by
  obtain ⟨s, new, deleteOwner, hx, hcheck⟩ := explored_of_ok h
  obtain ⟨hsound, ha⟩ := hx.sound_applied
  have hreq := related_mem_of_checkStaging hcheck
  refine ⟨⟨ha.gone, fun k hk => ?_, ha.other⟩, ⟨hx.nodup_deleted, ?_, fun k hk hn => ?_⟩,
    fun k hk field r hr hne => ?_⟩
  · obtain ⟨n, hn, hstay, rfl⟩ := ha.mem_nulled.1 hk
    obtain ⟨before, hb, hnull⟩ := hsound.origin n hn
    exact ⟨before, n.row, hb, ha.stored n hn hstay, hnull.mono hx.mem_doomed_iff.1⟩
  · rw [ha.nulled]
    exact hsound.nodup.sublist (List.filter_sublist.map _)
  · obtain ⟨n, -, hstay, rfl⟩ := ha.mem_nulled.1 hn
    exact hstay (hx.mem_doomed_iff.2 (.inr hk))
  · exact hx.not_refersThrough ha hsound hreq (hx.mem_doomed_iff.2 hk) field hr hne

/-- A mark that refers to a node. -/
def sampleMark (n node : UInt64) : Row where
  key := .single ⟨"M", some (.number n)⟩ ⟨by simp, by simp⟩
  properties := SortedMap.empty.insert "node" (.key (sampleNode node 0).key)

/-- The classes of the nodes and the marks; a mark is no longer on a node that is deleted. -/
def sampleMarkedSchema : Schema where
  classes := [
    { name := "N"
      fields := [
        { name := "next"
          relation := some { kind := .manyToOne, target := "N", dependent := true } },
        { name := "mark"
          relation := some { kind := .oneToOne, target := "M", mappedBy := some "node" } }] },
    { name := "M", fields := [{ name := "node" }] }]
  distinct := by simp

/-- Two nodes in a cycle, with a mark on the second one. -/
def sampleMarked : Context where
  scope := .start ⟨1⟩ false
  store :=
    ((((({} : Store).seed (sampleNode 1 2)).2).seed (sampleNode 2 1)).2.seed (sampleMark 4 2)).2
  held := {}

theorem effect_sample : ∃ ctx',
    delete sampleMarkedSchema {} .empty (sampleNode 1 2) sampleMarked =
      .ok ⟨[(sampleNode 2 1).key, (sampleNode 1 2).key], [(sampleMark 4 2).key]⟩ ctx' ∧
    ctx'.store.row? (sampleNode 2 1).key = none ∧
    ∃ before after, sampleMarked.store.row? (sampleMark 4 2).key = some before ∧
      ctx'.store.row? (sampleMark 4 2).key = some after ∧ after.key = before.key := by
  obtain ⟨ctx', hrun⟩ : ∃ ctx', delete sampleMarkedSchema {} .empty (sampleNode 1 2) sampleMarked =
      .ok ⟨[(sampleNode 2 1).key, (sampleNode 1 2).key], [(sampleMark 4 2).key]⟩ ctx' :=
    exists_eq_ok (by decide +kernel)
  obtain ⟨⟨hgone, hnulled, -⟩, -, -⟩ :=
    effect sampleMarkedSchema {} .empty (sampleNode 1 2) sampleMarked _ _ (.inr hrun)
  obtain ⟨before, after, hb, ha, hn⟩ := hnulled _ List.mem_cons_self
  exact ⟨ctx', hrun, hgone _ List.mem_cons_self, before, after, hb, ha, hn.key⟩

end Cascade
end EntityGraph
