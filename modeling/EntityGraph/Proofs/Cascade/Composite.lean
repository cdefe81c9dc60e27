import EntityGraph.Proofs.Cascade.Faults

/-!
# Deleting a row with its parts

A composite is a set of rows whose relations are all to rows that are written under them and deleted
with them. Nothing stands in the way of deleting a row of a composite: no reference to it has to be
nulled, no join field is in the way, and all that it reaches is in the entity group.

* `Cascade.Composite`: the keys of a composite, closed under the rows below them;
* `Cascade.adds_stageWithin`: staging succeeds on a composite and stays within it;
* `Cascade.delete_of_composite`: a delete succeeds and removes the row with all that it reaches.
-/

open Relation (ReflTransGen TransGen)

namespace EntityGraph

namespace Cascade

/-- The rows under the keys own all that they are related to, and the stored rows directly under
them have keys in the set. -/
structure Composite (schema : Schema) (t : RowTable) (part : Key → Prop) : Prop where
  plan : ∀ k, part k → ∃ plan, CascadePlan.ofClass schema k.kind = .ok plan ∧
    ∀ strategy ∈ plan.strategies, ∃ field target mappedBy,
      strategy = .deleteDependents field target true mappedBy
  closed : ∀ k, part k → ∀ child ∈ t.rows, child.key.parent = some k → part child.key

section Staging

variable {schema : Schema} {t : RowTable} {part : Key → Prop}

/-- Staging has added deletes within the composite at most. -/
structure Adds (part : Key → Prop) (s s' : Staging) : Prop where
  nulls : s'.nulls = s.nulls
  required : s'.required = s.required
  deletes : ∀ d ∈ s'.deletes, d ∈ s.deletes ∨ part d.key

theorem Adds.refl (s : Staging) : Adds part s s := ⟨rfl, rfl, fun _ => .inl⟩

theorem Adds.trans {s₁ s₂ s₃ : Staging} (h : Adds part s₁ s₂) (h' : Adds part s₂ s₃) :
    Adds part s₁ s₃ where
  nulls := h'.nulls.trans h.nulls
  required := h'.required.trans h.required
  deletes d hd := (h'.deletes d hd).elim (h.deletes d) .inr

theorem adds_foldlM {α : Type} {f : Staging → α → Except Failure Staging} : ∀ {as : List α},
    (∀ a ∈ as, ∀ s, ∃ s', f s a = .ok s' ∧ Adds part s s') → ∀ s,
      ∃ s', as.foldlM f s = .ok s' ∧ Adds part s s'
  | [], _, s => ⟨s, rfl, .refl s⟩
  | a :: as, h, s => by
    obtain ⟨s₁, h₁, ha₁⟩ := h a List.mem_cons_self s
    obtain ⟨s₂, h₂, ha₂⟩ := adds_foldlM (fun b hb => h b (List.mem_cons_of_mem _ hb)) s₁
    refine ⟨s₂, ?_, ha₁.trans ha₂⟩
    rw [List.foldlM_cons, h₁]
    exact h₂

/-- With no fields at hand, what is owned is found below the row. -/
theorem parent_of_resolves {row child : Row} {field target : String} {mappedBy : Option String}
    (h : Resolves t row .empty (.deleteDependents field target true mappedBy) child) :
    child ∈ t.rows ∧ child.key.parent = some row.key := by
  cases h with
  | loaded hl => cases hl
  | owned _ hm _ hp => exact ⟨hm, hp⟩

section Visit

variable {visit : Row → Staging → Except Failure Staging}
  (hvisit : ∀ row, part row.key → ∀ s, ∃ s', visit row s = .ok s' ∧ Adds part s s')
include hvisit

theorem adds_stageDependent {child : Row} (hc : part child.key) (field : String) (s : Staging) :
    ∃ s', stageDependent visit field s child = .ok s' ∧ Adds part s s' := by
  unfold stageDependent
  split
  · exact ⟨s, rfl, .refl s⟩
  · obtain ⟨s', hv, ha⟩ := hvisit child hc { s with doomed := child.key :: s.doomed }
    refine ⟨{ s' with deletes := s'.deletes ++ [⟨child.key, field⟩] }, ?_, ha.nulls, ha.required,
      fun d hd => ?_⟩
    · rw [hv]
      rfl
    rcases List.mem_append.1 hd with hd | hd
    · exact ha.deletes d hd
    · rw [List.mem_singleton.1 hd]
      exact .inr hc

theorem adds_stageRelated (hcomp : Composite schema t part) (policy : CascadePolicy) {row : Row}
    (hrow : part row.key) (s : Staging) : ∃ s',
      stageRelated (tableLookup t) schema policy visit .empty row s = .ok s' ∧ Adds part s s' := by
  obtain ⟨plan, hplan, howned⟩ := hcomp.plan row.key hrow
  have hnone : ∀ {p : Strategy → Bool},
      (∀ field target mappedBy, p (.deleteDependents field target true mappedBy) = false) →
        plan.strategies.filter p = [] := by
    intro p hp
    refine List.filter_eq_nil_iff.2 fun strategy hs => ?_
    obtain ⟨field, target, mappedBy, rfl⟩ := howned strategy hs
    simp [hp]
  have hdeletes : ∀ strategy ∈ plan.deletes, ∀ s, ∃ s',
      stageDelete (tableLookup t) visit .empty row s strategy = .ok s' ∧ Adds part s s' := by
    intro strategy hs s
    obtain ⟨field, target, mappedBy, rfl⟩ := howned strategy (List.mem_filter.1 hs).1
    obtain ⟨children, hdep, hmem⟩ := dependents_eq (finds_tableLookup t) row .empty field
      target true mappedBy
    have hchild : ∀ child ∈ children, ∀ s, ∃ s',
        stageDependent visit field s child = .ok s' ∧ Adds part s s' := by
      intro child hc s
      obtain ⟨hm, hp⟩ := parent_of_resolves ((hmem child).1 hc)
      exact adds_stageDependent hvisit (hcomp.closed row.key hrow child hm hp) field s
    obtain ⟨s', hfold, ha⟩ := adds_foldlM hchild s
    refine ⟨s', ?_, ha⟩
    simp only [stageDelete, hdep]
    exact hfold
  obtain ⟨s', hfold, ha⟩ := adds_foldlM hdeletes s
  refine ⟨s', ?_, ha⟩
  have hplan : CascadePlan.ofClass schema row.kind = .ok plan := hplan
  have hreserved : plan.reserved = [] := hnone fun _ _ _ => rfl
  have hnulls : plan.nulls = [] := hnone fun _ _ _ => rfl
  simp only [stageRelated, hplan, hreserved, hnulls, ofExcept_eq, ok_bind, hfold]
  rfl

end Visit

/-- Staging succeeds on a composite and stays within it. -/
theorem adds_stageWithin (hcomp : Composite schema t part) (policy : CascadePolicy) (depth : Nat) :
    ∀ row, part row.key → ∀ s, ∃ s', stageWithin (tableLookup t) schema policy
      (fun _ s => .ok s) depth .empty row s = .ok s' ∧ Adds part s s' := by
  induction depth with
  | zero => exact fun _ _ s => ⟨s, rfl, .refl s⟩
  | succ depth ih => exact fun row hrow s => adds_stageRelated ih hcomp policy hrow s

end Staging

/-- What a row of a composite is related to is in the composite. -/
theorem Composite.part_of_depends {schema : Schema} {t : RowTable} {part : Key → Prop} {owner : Row}
    (h : Composite schema t part) {a b : Key} (hd : Depends schema t owner .empty a b)
    (ha : part a) : part b := by
  obtain ⟨row, fields, child, hvis, rfl, ⟨plan, hplan, strategy, hst, hres⟩, rfl⟩ := hd
  obtain ⟨plan', hplan', howned⟩ := h.plan row.key ha
  cases hplan'.symm.trans hplan
  obtain ⟨field, target, mappedBy, rfl⟩ := howned strategy hst
  have hfields : fields = .empty := by cases hvis <;> rfl
  subst hfields
  obtain ⟨hm, hp⟩ := parent_of_resolves hres
  exact h.closed row.key ha child hm hp

section Delete

variable {schema : Schema} {part : Key → Prop} {owner : Row} {ctx : Context}
  (hcomp : Composite schema ctx.store.table part) (howner : part owner.key)
  (hgroup : ∀ k, part k → k.sameGroup owner.key) (hf : ctx.store.faults = [])
include hcomp howner hgroup hf

theorem stage_of_composite (policy : CascadePolicy) : ∃ s ctx₁,
    stage schema policy .empty owner ctx = .ok s ctx₁ ∧ s.nulls = [] ∧ ctx₁.store.faults = [] := by
  obtain ⟨s, hs, ha⟩ := adds_stageWithin hcomp policy (ctx.store.size + 1) owner howner
    { doomed := [owner.key] }
  have hreads := reads_stageWithin schema policy (fun _ s => Reads.pure s) (ctx.store.size + 1)
    .empty owner { doomed := [owner.key] }
  have hrun := hreads.outcome_eq hf
  rw [hs] at hrun
  obtain ⟨ctx₁, hrun⟩ := exists_eq_ok (congrArg Except.toOption hrun)
  have hcheck : checkStaging policy ctx.scope owner.key s = .ok () := by
    have hbroken : s.brokenReference? = none := by
      rw [Staging.brokenReference?, ha.required]
      rfl
    have houtsider : s.outsider? owner.key = none := by
      refine List.find?_eq_none.2 fun k hk => ?_
      rw [ha.nulls, List.mem_append] at hk
      rcases hk with hk | hk
      · obtain ⟨d, hd, rfl⟩ := List.mem_map.1 hk
        rcases ha.deletes d hd with hd | hd
        · cases hd
        · simp [hgroup _ hd]
      · cases hk
    rw [checkStaging, hbroken]
    simp only [checkGroup, houtsider]
    split <;> rfl
  refine ⟨s, ctx₁, ?_, ha.nulls, (hreads.of_ok hrun).1.faults hf⟩
  have hpass : (MonadExcept.ofExcept (checkStaging policy ctx.scope owner.key s) : Action Unit)
      ctx₁ = .ok () ctx₁ := by
    rw [ofExcept_run, hcheck]
  exact (bind_of_ok (get_run ctx)).trans ((bind_of_ok hrun).trans (bind_of_ok hpass))

/-- Deleting a row of a composite succeeds. The row goes with all that it reaches, which are rows of
the composite, and no other row is changed. -/
theorem delete_of_composite (policy : CascadePolicy) : ∃ report ctx',
    delete schema policy .empty owner ctx = .ok report ctx' ∧
      (∀ k, ctx'.store.row? k = if k ∈ report.deleted then none else ctx.store.row? k) ∧
      (∀ k ∈ report.deleted, part k) ∧
      ∀ k, ReflTransGen (Depends schema ctx.store.table owner .empty) owner.key k →
        k ∈ report.deleted := by
  have hbegun : Composite schema (begun owner ctx).store.table part := hcomp
  obtain ⟨s, ctx₁, hstage, hnulls, hf₁⟩ := stage_of_composite hbegun howner hgroup hf policy
  obtain ⟨report, ctx₂, happly, -⟩ := succeeds_apply owner.key s true ctx₁ hf₁
  obtain ⟨ctx', hrun, -⟩ := run_of_apply_ok hstage happly
  have hdelete : delete schema policy .empty owner ctx = .ok report ctx' := hrun
  obtain ⟨s', new, deleteOwner, hx, -⟩ := explored_of_ok (.inr hdelete)
  have hrows := hx.sound_applied.2
  have hnulled : report.nulled = [] := by
    obtain ⟨c₁, c₂, -, hputs, -⟩ := parts_of_apply happly
    rw [hnulls] at hputs
    have hnil : (.ok [] c₁ : EStateM.Result Failure Context (List Key)) = .ok report.nulled c₂ :=
      hputs
    injection hnil with hnil
    exact hnil.symm
  have hmem : owner.key ∈ report.deleted := by
    rw [deleted_of_apply happly]
    exact List.mem_append_right _ List.mem_cons_self
  have hreach : ∀ k, k ≠ owner.key → (k ∈ report.deleted ↔
      TransGen (Depends schema ctx.store.table owner .empty) owner.key k) := fun k hk =>
    (hx.mem_deleted hk).trans (hx.mem_iff_transGen hk)
  refine ⟨report, ctx', hdelete, fun k => ?_, fun k hk => ?_, fun k hk => ?_⟩
  · split
    · exact hrows.gone k ‹_›
    · exact hrows.other k ‹_› (by simp [hnulled])
  · by_cases he : k = owner.key
    · exact he ▸ howner
    · have hpath := (hreach k he).1 hk
      clear hk he
      induction hpath with
      | single hd => exact hcomp.part_of_depends hd howner
      | tail _ hd ih => exact hcomp.part_of_depends hd ih
  · by_cases he : k = owner.key
    · exact he ▸ hmem
    · exact (hreach k he).2 ((Relation.reflTransGen_iff_eq_or_transGen.1 hk).resolve_left he)

end Delete

end Cascade
end EntityGraph
