import EntityGraph.Proofs.Cascade.Composite
import EntityGraph.Proofs.ObjectGraph.Insertion

/-!
# Deleting what was inserted

Where all relations are to rows that are written under a row and deleted with it, deleting the root
of a graph that was inserted takes back the insert. The delete finds the rows again by their keys
alone.

* `Schema.Composes`: every relation is to rows that are written under the row and deleted with it;
* `Wrote.composite`, `Wrote.depends_of_child`: the rows of a graph are a composite, and every row
  that was written below the root depends on the one that it was written under;
* `PendingObject.insert_delete`: a delete of the root leaves the rows that there were before.
-/

open Relation (ReflTransGen)

namespace EntityGraph

/-! ## Classes -/

namespace Schema

variable {schema : Schema}

theorem mem_classes_of_lineageFrom {start : String} : ∀ {fuel : Nat} {visited : List EntityClass}
    {current : String} {classes : List EntityClass},
    schema.lineageFrom start fuel visited current = .ok classes →
      (∀ c ∈ visited, c ∈ schema.classes) → ∀ c ∈ classes, c ∈ schema.classes
  | 0, _, _, _, h, hv => by
    cases h
    exact hv
  | fuel + 1, visited, current, classes, h, hv => by
    rw [lineageFrom] at h
    split at h
    · cases h
    · split at h
      · cases h
      · rename_i c hc
        have hv' : ∀ c' ∈ visited ++ [c], c' ∈ schema.classes := by
          intro c' hc'
          rcases List.mem_append.1 hc' with hc' | hc'
          · exact hv c' hc'
          · exact List.mem_singleton.1 hc' ▸ List.mem_of_find?_eq_some hc
        split at h
        · cases h
          exact hv'
        · exact mem_classes_of_lineageFrom h hv'

theorem mem_classes_of_lineage {name : String} {classes : List EntityClass}
    (h : schema.lineage name = .ok classes) : ∀ c ∈ classes, c ∈ schema.classes :=
  mem_classes_of_lineageFrom h fun _ hc => absurd hc List.not_mem_nil

theorem mem_fields_of_nearestField? {lineage : List EntityClass} {field : String} {f : ClassField}
    (h : nearestField? lineage field = some f) : ∃ c ∈ lineage, f ∈ c.fields := by
  obtain ⟨c, hc, hf⟩ := List.exists_of_findSome?_eq_some h
  exact ⟨c, hc, List.mem_of_find?_eq_some hf⟩

/-- Every relation is to rows that are written under the row and deleted with it. -/
def Composes (schema : Schema) : Prop :=
  ∀ c ∈ schema.classes, ∀ f ∈ c.fields, ∀ r, f.relation = some r →
    r.owned = true ∧ r.dependent = true ∧ f.embedded = false

theorem Composes.ofField?_eq (h : schema.Composes) {c : EntityClass} (hc : c ∈ schema.classes)
    {f : ClassField} (hf : f ∈ c.fields) : Strategy.ofField? f =
      f.relation.map fun r => .deleteDependents f.name r.target true r.mappedBy := by
  cases hr : f.relation with
  | none => simp [Strategy.ofField?, hr]
  | some r =>
    obtain ⟨ho, hd, he⟩ := h c hc f hf r hr
    simp [Strategy.ofField?, hr, ho, hd, he]

end Schema

namespace WrittenObject

/-- A row is put under the key of every object. -/
theorem key_mem_puts_of_mem (w : WrittenObject) :
    ∀ x ∈ w.objects, x.key ∈ w.puts.map (·.key) := by
  induction w using induct with
  | h w ih =>
    intro x hx
    rw [objects_eq, List.mem_cons] at hx
    rcases hx with rfl | hx
    · exact key_mem_puts x
    · obtain ⟨c, hc, hx⟩ := List.mem_flatMap.1 hx
      rw [keys_puts_of_child hc, List.map_flatMap]
      refine List.mem_cons_of_mem _ (List.mem_append_left _ ?_)
      exact List.mem_flatMap.2 ⟨c, hc, ih c hc x hx⟩

/-- What relates every owner to the objects that it owns leads to every object. -/
theorem reaches {R : Key → Key → Prop} (w : WrittenObject) :
    (∀ x ∈ w.objects, ∀ c ∈ x.children, R x.key c.key) →
      ∀ x ∈ w.objects, ReflTransGen R w.key x.key := by
  induction w using induct with
  | h w ih =>
    intro hR x hx
    rw [objects_eq, List.mem_cons] at hx
    rcases hx with rfl | hx
    · exact .refl
    · obtain ⟨c, hc, hx⟩ := List.mem_flatMap.1 hx
      have hbelow := ih c hc (fun y hy => hR y (mem_objects_of_child hc hy)) x hx
      exact .head (hR w w.mem_objects_self c hc) hbelow

end WrittenObject

/-! ## The rows of a graph -/

section Wrote

variable {schema : Schema} {s s' : Store} {w : WrittenObject}

/-- A key of one of the objects. -/
def WrittenObject.Part (w : WrittenObject) (k : Key) : Prop := ∃ x ∈ w.objects, x.key = k

/-- A key that no object has is left as it was, and the others are left with an object's row. -/
theorem Wrote.row?_eq (h : Wrote schema s s' w.objects w.puts) (k : Key) :
    (∃ x ∈ w.objects, x.key = k ∧ s'.row? k = some x.stored) ∨
      ¬w.Part k ∧ s'.row? k = s.row? k := by
  rw [h.row?]
  rcases WrittenObject.leaves_puts k w (s.row? k) with hx | ⟨hne, hk⟩
  · exact .inl hx
  · exact .inr ⟨fun ⟨x, hx, hxk⟩ => hne x hx hxk, hk⟩

variable (hschema : schema.Composes) (h : Wrote schema s s' w.objects w.puts)
include hschema h

/-- The rows of a graph are a composite, if no row was stored below one of them. -/
theorem Wrote.composite
    (hlineage : ∀ x ∈ w.objects, ∃ classes, schema.lineage x.row.kind = .ok classes)
    (hbelow : ∀ x ∈ w.objects, ∀ r ∈ s.rows, ¬x.key.isAncestorOf r.key) :
    Cascade.Composite schema s'.table w.Part where
  plan := by
    rintro k ⟨x, hx, rfl⟩
    obtain ⟨classes, hc⟩ := hlineage x hx
    refine ⟨.ofLineage x.key.kind classes, ?_, fun strategy hst => ?_⟩
    · rw [CascadePlan.ofClass, (h.fits x hx).kind, hc]
      rfl
    · obtain ⟨c, hcl, hst⟩ := List.mem_flatMap.1 hst
      obtain ⟨f, hf, hst⟩ := List.mem_filterMap.1 hst
      rw [hschema.ofField?_eq (Schema.mem_classes_of_lineage hc c hcl) hf] at hst
      obtain ⟨r, -, rfl⟩ := Option.map_eq_some_iff.1 hst
      exact ⟨_, _, _, rfl⟩
  closed := by
    rintro k ⟨x, hx, rfl⟩ child hchild hparent
    have hrow : s'.row? child.key = some child := RowTable.mem_rows.1 hchild
    rcases h.row?_eq child.key with ⟨y, hy, hyk, -⟩ | ⟨-, hold⟩
    · exact ⟨y, hy, hyk⟩
    · have hmem : child ∈ s.rows := RowTable.mem_rows.2 (hold.symm.trans hrow)
      exact absurd (Key.isAncestorOf_of_parent hparent) (hbelow x hx child hmem)

/-- An object that is owned is a dependent of its owner. -/
theorem Wrote.depends_of_child
    (htarget : ∀ x ∈ w.objects, ∀ g ∈ x.owned, ∀ c ∈ g.children, ∀ f r,
      schema.field? x.row.kind g.field = .ok (some f) → f.relation = some r →
        c.row.kind = r.target)
    {owner : Row} (howner : s'.row? w.key = some owner) {x c : WrittenObject}
    (hx : x ∈ w.objects) (hc : c ∈ x.children) :
    Cascade.Depends schema s'.table owner .empty x.key c.key := by
  have hcw : c ∈ w.objects := WrittenObject.child_mem_objects hc w hx
  have hleft : ∀ y ∈ w.objects, ∃ row, s'.row? y.key = some row ∧ row.key = y.key := by
    intro y hy
    rcases h.row?_eq y.key with ⟨z, -, hzk, hrow⟩ | ⟨hno, -⟩
    · exact ⟨z.stored, hrow, z.key_stored.trans hzk⟩
    · exact absurd ⟨y, hy, rfl⟩ hno
  -- The owner is looked at as it was passed, and every other object as it is stored.
  obtain ⟨row, hvis, hkey⟩ : ∃ row, Cascade.Visited s'.table owner .empty row .empty ∧
      row.key = x.key := by
    have hok : owner.key = w.key := RowTable.key_of_row? howner
    by_cases he : x.key = owner.key
    · exact ⟨owner, .owner, he.symm⟩
    · obtain ⟨row, hrow, hk⟩ := hleft x hx
      exact ⟨row, .stored (hk ▸ hrow) (hk ▸ he), hk⟩
  obtain ⟨child, hchild, hck⟩ := hleft c hcw
  -- The field that the child is owned through is one of the class, and so in the plan.
  obtain ⟨g, hg, hcg⟩ := List.mem_flatMap.1 hc
  obtain ⟨⟨f, r, hf, hr, -⟩, -⟩ := Schema.of_ownedRelation_eq_ok ((h.fits x hx).relation g hg)
  have htargets : child.kind = r.target := by
    rw [Row.kind, hck, (h.fits c hcw).kind]
    exact htarget x hx g hg c hcg f r ((h.fits x hx).kind ▸ hf) hr
  obtain ⟨classes, hl, hnear⟩ := bind_eq_ok.1 hf
  obtain ⟨cl, hcl, hfc⟩ := Schema.mem_fields_of_nearestField? (Except.ok.inj hnear)
  have hstrategy := hschema.ofField?_eq (Schema.mem_classes_of_lineage hl cl hcl) hfc
  rw [hr] at hstrategy
  refine ⟨row, .empty, child, hvis, hkey, ⟨.ofLineage row.kind classes, ?_, _,
    List.mem_flatMap.2 ⟨cl, hcl, List.mem_filterMap.2 ⟨f, hfc, hstrategy⟩⟩, ?_⟩, hck⟩
  · rw [CascadePlan.ofClass, Row.kind, hkey, hl]
    rfl
  · refine .owned rfl (RowTable.mem_rows.2 (hck ▸ hchild)) htargets ?_
    rw [hck, hkey]
    exact (h.fits x hx).parent c hc

end Wrote

namespace PendingObject

/-- Where every relation is to rows that are written under a row and deleted with it, deleting the
root of a graph that was inserted takes back the insert, in every scope and under every policy: the
delete succeeds, and the store has the rows again that it had before. The classes of the objects are
known, those of owned objects are the ones that their fields are to, and the keys that were given
out are new: no row was stored under them or below them. -/
theorem insert_delete {schema : Schema} {o : PendingObject} {ctx ctx' : Context} {k : Key}
    (hschema : schema.Composes)
    (hlineage : ∀ p ∈ o.objects, ∃ classes, schema.lineage p.kind = .ok classes)
    (htarget : ∀ p ∈ o.objects, ∀ g ∈ p.owned, ∀ c ∈ g.children, ∀ f r,
      schema.field? p.kind g.field = .ok (some f) → f.relation = some r → c.kind = r.target)
    (hfaults : ctx.store.faults = []) (h : o.insert schema ctx = .ok k ctx')
    (hnew : ∀ key, .put key ∈ ctx'.store.log.drop ctx.store.log.length →
      ctx.store.row? key = none ∧ ∀ r ∈ ctx.store.rows, ¬key.isAncestorOf r.key) :
    ∃ owner, ctx'.store.row? k = some owner ∧
      ∀ (policy : CascadePolicy) (ctx₂ : Context), ctx₂.store = ctx'.store →
        ∃ report ctx₃, Cascade.delete schema policy .empty owner ctx₂ = .ok report ctx₃ ∧
          ctx₃.store.rows = ctx.store.rows := by
  obtain ⟨w, rfl, rfl, -, hwrote⟩ := wrote_insert h
  have hfaults' : ctx'.store.faults = [] := by
    obtain ⟨c, hwrite, hstore⟩ := of_insert_eq_ok h
    rw [hstore]
    exact ((steady_write _).of_ok hwrite).faults hfaults
  have hmem : ∀ x ∈ w.objects, x.pending ∈ w.pending.objects := fun x hx =>
    w.objects_pending ▸ List.mem_map_of_mem hx
  have hclasses : ∀ x ∈ w.objects, ∃ classes, schema.lineage x.row.kind = .ok classes :=
    fun x hx => x.kind_pending ▸ hlineage x.pending (hmem x hx)
  have htargets : ∀ x ∈ w.objects, ∀ g ∈ x.owned, ∀ c ∈ g.children, ∀ f r,
      schema.field? x.row.kind g.field = .ok (some f) → f.relation = some r →
        c.row.kind = r.target := by
    intro x hx g hg c hc f r hf hr
    rw [← x.kind_pending] at hf
    rw [← c.kind_pending]
    refine htarget x.pending (hmem x hx) ⟨g.field, g.children.map WrittenObject.pending⟩ ?_ _
      (List.mem_map_of_mem hc) f r hf hr
    rw [x.owned_pending]
    exact List.mem_map_of_mem hg
  have hminted : ∀ x ∈ w.objects,
      ctx.store.row? x.key = none ∧ ∀ r ∈ ctx.store.rows, ¬x.key.isAncestorOf r.key := by
    intro x hx
    obtain ⟨r, hr, hk⟩ := List.mem_map.1 (w.key_mem_puts_of_mem x hx)
    refine hnew x.key ?_
    rw [hwrote.log, List.drop_left, ← hk]
    exact List.mem_map_of_mem hr
  obtain ⟨y, -, hyk, howner⟩ | ⟨hno, -⟩ := hwrote.row?_eq w.key
  · refine ⟨y.stored, howner, fun policy ctx₂ hstore => ?_⟩
    have hok : y.stored.key = w.key := y.key_stored.trans hyk
    have hcomp := hwrote.composite hschema hclasses fun x hx => (hminted x hx).2
    have hgroup := WrittenObject.sameGroup_of_parent y.stored.key w
      (fun x hx => (hwrote.fits x hx).parent) (by rw [hok]; exact beq_self_eq_true _)
    rw [← hstore] at hcomp
    obtain ⟨report, ctx₃, hrun, hrows, hpart, hreached⟩ :=
      Cascade.delete_of_composite hcomp ⟨w, w.mem_objects_self, hok.symm⟩
        (fun k ⟨x, hx, hk⟩ => hk ▸ hgroup x hx) (hstore ▸ hfaults') policy
    refine ⟨report, ctx₃, hrun, RowTable.rows_eq_of_row? fun key => (hrows key).trans ?_⟩
    split
    · rename_i hdel
      obtain ⟨x, hx, rfl⟩ := hpart key hdel
      exact (hminted x hx).1.symm
    · rename_i hkept
      rcases hwrote.row?_eq key with ⟨x, hx, rfl, -⟩ | ⟨-, hold⟩
      · refine absurd (hreached x.key ?_) hkept
        rw [hstore, hok]
        exact w.reaches (fun x hx c hc =>
          hwrote.depends_of_child hschema htargets howner hx hc) x hx
      · rw [hstore]
        exact hold
  · exact absurd ⟨w, w.mem_objects_self, rfl⟩ hno

/-- Classes of which a person inherits the pets, which are deleted with the person. -/
def keeperSchema : Schema where
  classes := [
    { name := "Person", superclass := some "Keeper" },
    { name := "Keeper"
      fields := [{
        name := "pets"
        relation := some
          { kind := .oneToMany, target := "Pet", dependent := true, owned := true } }] },
    { name := "Pet" }]
  distinct := by simp

theorem insert_delete_sample : ∃ k ctx' owner,
    (petOwner [[newPet 1, newPet 2]]).insert keeperSchema inCity = .ok k ctx' ∧
      ctx'.store.row? k = some owner ∧ ∃ report ctx₃,
        Cascade.delete keeperSchema {} .empty owner { ctx' with scope := .start ⟨2⟩ true } =
          .ok report ctx₃ ∧ ctx₃.store.rows = inCity.store.rows := by
  obtain ⟨k, ctx', hrun⟩ : ∃ k ctx',
      (petOwner [[newPet 1, newPet 2]]).insert keeperSchema inCity = .ok k ctx' := ⟨_, _, rfl⟩
  have hobjects : (petOwner [[newPet 1, newPet 2]]).objects =
      [petOwner [[newPet 1, newPet 2]], newPet 1, newPet 2] := rfl
  have hschema : keeperSchema.Composes := by
    simp [Schema.Composes, keeperSchema]
  have hlineage : ∀ p ∈ (petOwner [[newPet 1, newPet 2]]).objects,
      ∃ classes, keeperSchema.lineage p.kind = .ok classes := by
    rw [hobjects]
    rintro p (_ | ⟨_, _ | ⟨_, _ | ⟨_, ⟨⟩⟩⟩⟩) <;> exact ⟨_, rfl⟩
  have htarget : ∀ p ∈ (petOwner [[newPet 1, newPet 2]]).objects, ∀ g ∈ p.owned,
      ∀ c ∈ g.children, ∀ f r, keeperSchema.field? p.kind g.field = .ok (some f) →
        f.relation = some r → c.kind = r.target := by
    rw [hobjects]
    rintro p (_ | ⟨_, _ | ⟨_, _ | ⟨_, ⟨⟩⟩⟩⟩) g hg c hc f r hf hr
    · obtain rfl := List.mem_singleton.1 hg
      have hpets : keeperSchema.field? "Person" "pets" = .ok (some
          { name := "pets"
            relation := some
              { kind := .oneToMany, target := "Pet", dependent := true, owned := true } }) := rfl
      cases hpets.symm.trans hf
      cases hr
      rcases hc with _ | ⟨_, _ | ⟨_, ⟨⟩⟩⟩ <;> rfl
    · cases hg
    · cases hg
  have hnew : ∀ key, .put key ∈ ctx'.store.log.drop inCity.store.log.length →
      inCity.store.row? key = none ∧ ∀ r ∈ inCity.store.rows, ¬key.isAncestorOf r.key := by
    have hfresh : ∀ entry ∈ (finalState ((petOwner [[newPet 1, newPet 2]]).insert keeperSchema
        inCity)).store.log.drop inCity.store.log.length,
        (match entry with
        | .put key => (inCity.store.row? key).isNone &&
            inCity.store.rows.all fun r => !key.isAncestorOf r.key
        | _ => true) = true := by
      decide +kernel
    rw [hrun] at hfresh
    intro key hkey
    simpa using hfresh _ hkey
  obtain ⟨owner, howner, hdelete⟩ := insert_delete hschema hlineage htarget rfl hrun hnew
  obtain ⟨report, ctx₃, hdel, hrows⟩ := hdelete {} { ctx' with scope := .start ⟨2⟩ true } rfl
  exact ⟨k, ctx', owner, hrun, howner, report, ctx₃, hdel, hrows⟩

end PendingObject
end EntityGraph
