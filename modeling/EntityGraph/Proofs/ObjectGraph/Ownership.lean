import EntityGraph.Proofs.Cascade.Effect
import EntityGraph.Proofs.Cascade.Redeclaration
import EntityGraph.Proofs.ObjectGraph.Removal

/-!
# Finding owned objects again

An insert writes the objects that are owned through a field under the key of their owner, whatever
their kind. A cascade from the owner looks for rows under its key of the one kind that the relation
is to, and passes over all others.

* `Cascade.gone_of_delete`: a delete that succeeds deletes the dependents of its owner;
* `WrittenObject.FoundAgain`: what a cascade from the row of an object makes of the objects that
  were written through a field;
* `PendingObject.insert_found_iff`: it finds those of the kind that the relation is to;
* `PendingObject.insert_orphans_dog`: an owned object of another kind, which outlives its owner.
-/

namespace EntityGraph

/-! ## Relations -/

namespace Schema

variable {schema : Schema} {kind field : String} {f : ClassField} {r : Relation}

/-- The field of a class has the name that it is looked up by. -/
theorem name_of_field? (h : schema.field? kind field = .ok (some f)) : f.name = field := by
  obtain ⟨lineage, -, hf⟩ := bind_eq_ok.1 h
  obtain ⟨c, -, hc⟩ := List.exists_of_findSome?_eq_some (Except.ok.inj hf)
  exact eq_of_beq (List.find?_some hc :)

/-- Objects are owned through owned relations only. -/
theorem owned_of_ownedRelation {count : Nat} {relation : RelationKind}
    (h : schema.ownedRelation kind field count = .ok relation)
    (hf : schema.field? kind field = .ok (some f)) (hr : f.relation = some r) : r.owned = true := by
  unfold ownedRelation at h
  rw [hf, ok_bind] at h
  simp only [hr] at h
  split at h
  · cases h
  · rename_i hn
    simpa using hn

end Schema

/-! ## Deleting the owner -/

namespace Cascade

/-- A delete that succeeds deletes the dependents of its owner. -/
theorem gone_of_delete {schema : Schema} {policy : CascadePolicy} {loaded : LoadedFields}
    {owner child : Row} {ctx ctx' : Context} {report : CascadeReport}
    (h : delete schema policy loaded owner ctx = .ok report ctx')
    (hchild : IsChild schema ctx.store.table owner loaded child) :
    ctx'.store.row? child.key = none := by
  obtain ⟨s, new, hx, -⟩ := explored_of_run h
  obtain ⟨-, happlied⟩ := hx.sound_applied
  have hdoomed : child.key ∈ s.doomed :=
    hx.done.closed _ ⟨owner, loaded, child, .owner, rfl, hchild, rfl⟩
  refine happlied.gone child.key ?_
  rcases hx.mem_doomed.1 hdoomed with he | hnew
  · rw [hx.deleted, he]
    simp
  · rw [hx.deleted]
    exact List.mem_append_left _ hnew

end Cascade

/-! ## Objects that were written through a field -/

namespace WrittenObject

/-- What a cascade from a row makes of the objects that were written through a field of it: the plan
of its class has the rows of the relation deleted, those of the objects are found among them that
are of the kind that the relation is to, and a delete of the row that succeeds deletes these. -/
structure FoundAgain (schema : Schema) (ctx : Context) (row : Row) (field : String) (r : Relation)
    (children : List WrittenObject) : Prop where
  planned : ∃ plan, CascadePlan.ofClass schema row.kind = .ok plan ∧
    .deleteDependents field r.target r.owned r.mappedBy ∈ plan.strategies
  found : ∃ rows, outcome (Cascade.dependents Cascade.storeLookup row .empty field r.target r.owned
      r.mappedBy ctx) = .ok rows ∧
    ∀ c ∈ children, (∃ child ∈ rows, child.key = c.key) ↔ c.row.kind = r.target
  deleted : ∀ c ∈ children, c.row.kind = r.target → ∀ policy ctx₁ report ctx₂,
    ctx₁.store = ctx.store → Cascade.delete schema policy .empty row ctx₁ = .ok report ctx₂ →
      ctx₂.store.row? c.key = none

end WrittenObject

section Wrote

variable {schema : Schema} {s s' : Store} {w : WrittenObject}

/-- The row that is left under the key of an object. -/
theorem Wrote.exists_row (h : Wrote schema s s' w.objects w.puts) {x : WrittenObject}
    (hx : x ∈ w.objects) : ∃ row, s'.row? x.key = some row ∧ row.key = x.key := by
  rcases h.row?_eq x.key with ⟨z, -, hzk, hrow⟩ | ⟨hno, -⟩
  · exact ⟨z.stored, hrow, z.key_stored.trans hzk⟩
  · exact absurd ⟨x, hx, rfl⟩ hno

/-- An object that was written through a field is a row that the relation resolves to exactly if it
is of the kind that the relation is to. -/
theorem Wrote.resolves_child_iff (h : Wrote schema s s' w.objects w.puts) {x c : WrittenObject}
    (hx : x ∈ w.objects) (hc : c ∈ x.children) {row : Row} (hrow : row.key = x.key)
    (field target : String) (mappedBy : Option String) :
    (∃ child, Cascade.Resolves s'.table row .empty
        (.deleteDependents field target true mappedBy) child ∧ child.key = c.key) ↔
      c.row.kind = target := by
  have hcw : c ∈ w.objects := WrittenObject.child_mem_objects hc w hx
  have hkind := (h.fits c hcw).kind
  constructor
  · rintro ⟨child, hres, hk⟩
    cases hres with
    | loaded hl => cases hl
    | owned _ _ ht _ => rw [← hkind, ← hk, ← ht, Row.kind]
  · intro ht
    obtain ⟨child, hchild, hck⟩ := h.exists_row hcw
    refine ⟨child, .owned rfl (RowTable.mem_rows.2 (hck ▸ hchild)) ?_ ?_, hck⟩
    · rw [Row.kind, hck, hkind, ht]
    · rw [hck, hrow]
      exact (h.fits x hx).parent c hc

end Wrote

namespace PendingObject

open WrittenObject

/-- A graph is inserted into a store without faults. For every object of the graph and every field
that it was given objects through, if the relation is to dependent rows that are not embedded: a
cascade from the row of the object resolves the field to the objects that are of the kind that the
relation is to, and to no other of them. A delete of the row deletes these. -/
theorem insert_found_iff {schema : Schema} {o : PendingObject} {ctx ctx' : Context} {k : Key}
    (hf : ctx.store.faults = []) (h : o.insert schema ctx = .ok k ctx') :
    ∃ w : WrittenObject, w.pending = o ∧ w.key = k ∧ (∀ x ∈ w.objects, x.Fits schema) ∧
      ctx'.store.log = ctx.store.log ++ w.puts.map (.put ·.key) ∧
      ∀ x ∈ w.objects, ∃ row, ctx'.store.row? x.key = some row ∧
        ∀ g ∈ x.owned, ∀ f r, schema.field? x.row.kind g.field = .ok (some f) →
          f.relation = some r → r.dependent = true → f.embedded = false →
            FoundAgain schema ctx' row g.field r g.children := by
  obtain ⟨w, hw, hk, -, hwrote⟩ := wrote_insert h
  refine ⟨w, hw, hk, hwrote.fits, hwrote.log, fun x hx => ?_⟩
  obtain ⟨row, hrow, hkey⟩ := hwrote.exists_row hx
  refine ⟨row, hrow, fun g hg f r hfield hr hdep hemb => ?_⟩
  have hfaults : ctx'.store.faults = [] := by
    obtain ⟨c, hwrite, hstore⟩ := of_insert_eq_ok h
    rw [hstore]
    exact ((steady_write _).of_ok hwrite).faults hf
  have hkind : row.kind = x.row.kind := by rw [Row.kind, hkey, (hwrote.fits x hx).kind]
  have hrelation := (hwrote.fits x hx).relation g hg
  rw [(hwrote.fits x hx).kind] at hrelation
  have howned := Schema.owned_of_ownedRelation hrelation hfield hr
  have hstrategy : Strategy.ofField? f =
      some (.deleteDependents g.field r.target r.owned r.mappedBy) := by
    simp [Strategy.ofField?, hr, hdep, hemb, Schema.name_of_field? hfield]
  obtain ⟨lineage, hl, -⟩ := bind_eq_ok.1 hfield
  have hmem := CascadePlan.mem_of_field? hl hfield hstrategy
  have hplan : CascadePlan.ofClass schema row.kind = .ok (.ofLineage x.row.kind lineage) := by
    rw [CascadePlan.ofClass, hkind, hl]
    rfl
  have hresolves := fun c (hc : c ∈ g.children) =>
    hwrote.resolves_child_iff hx (List.mem_flatMap.2 ⟨g, hg, hc⟩) hkey g.field r.target r.mappedBy
  refine ⟨⟨_, hplan, hmem⟩, ?_, fun c hc ht policy ctx₁ report ctx₂ hstore hdel => ?_⟩
  · obtain ⟨rows, hrows, hiff⟩ := Cascade.dependents_eq
      (Cascade.finds_tableLookup ctx'.store.table) row .empty g.field r.target r.owned r.mappedBy
    have hreads := Cascade.reads_dependents row .empty g.field r.target r.owned r.mappedBy
    refine ⟨rows, (hreads.outcome_eq hfaults).trans hrows, fun c hc => ?_⟩
    rw [← hresolves c hc]
    simp only [hiff, howned]
  · obtain ⟨child, hres, hck⟩ := (hresolves c hc).2 ht
    rw [← hck]
    refine Cascade.gone_of_delete hdel ⟨_, hplan, _, hmem, ?_⟩
    rw [howned, hstore]
    exact hres

/-- The pets that a keeper owns. -/
def keptPets : Relation where
  kind := .oneToMany
  target := "Pet"
  dependent := true
  owned := true

theorem insert_found_sample : emptyStore.store.faults = [] ∧ ∃ k ctx', ∃ w : WrittenObject, ∃ row,
    (petOwner [[newPet 1, newPet 2]]).insert keeperSchema emptyStore = .ok k ctx' ∧
      w.pending = petOwner [[newPet 1, newPet 2]] ∧ ctx'.store.row? k = some row ∧
      ∀ g ∈ w.owned, FoundAgain keeperSchema ctx' row "pets" keptPets g.children := by
  have hf : emptyStore.store.faults = [] := rfl
  obtain ⟨k, ctx', hrun⟩ : ∃ k ctx',
      (petOwner [[newPet 1, newPet 2]]).insert keeperSchema emptyStore = .ok k ctx' := ⟨_, _, rfl⟩
  obtain ⟨w, hw, rfl, -, -, h⟩ := insert_found_iff hf hrun
  obtain ⟨row, hrow, hfound⟩ := h w w.mem_objects_self
  refine ⟨hf, w.key, ctx', w, row, hrun, hw, hrow, fun g hg => ?_⟩
  have hkind : w.row.kind = "Person" := by rw [← w.kind_pending, hw]; rfl
  have hfield : g.field = "pets" := by
    have hmem : (⟨g.field, g.children.map pending⟩ : OwnedGroup PendingObject) ∈
        w.pending.owned := w.owned_pending ▸ List.mem_map_of_mem hg
    rw [hw] at hmem
    exact congrArg OwnedGroup.field (List.mem_singleton.1 hmem)
  have hfinds := hfound g hg ⟨"pets", some keptPets, true, false⟩ keptPets
  rw [hkind, hfield] at hfinds
  exact hfinds rfl rfl rfl rfl

/-- Classes of which dogs are pets. -/
def dogSchema : Schema where
  classes := [
    { name := "Person", fields := [{ name := "pets", relation := some keptPets }] },
    { name := "Pet" },
    { name := "Dog", superclass := some "Pet" }]
  distinct := by simp

def newDog (slot : UInt64) : PendingObject := newObject slot "Dog" (by simp) []

/-- The key of a person that is the first row to be numbered. -/
def personKey : Key := (petOwner []).row.key.assign 1

/-- A key under that of the person. -/
def keptKey (kind : String) (h : kind ≠ "") (n : UInt64) : Key :=
  personKey.extend rfl ⟨kind, some (.number n)⟩ ⟨h, by simp⟩

/-- A person that was written with a pet and a dog. -/
def withDog : Context :=
  finalState ((petOwner [[newPet 1, newDog 2]]).insert dogSchema emptyStore)

/-- A person is written with a pet and a dog, of which a cascade from the person finds the pet.
Deleting the person deletes it and leaves the dog behind. -/
theorem insert_orphans_dog :
    (outcome ((petOwner [[newPet 1, newDog 2]]).insert dogSchema emptyStore)).toOption =
      some personKey ∧
    ∃ owner, withDog.store.row? personKey = some owner ∧
      owner.get? "pets" =
        some (.list [.key (keptKey "Pet" (by simp) 2), .key (keptKey "Dog" (by simp) 3)]) ∧
      (outcome (Cascade.dependents Cascade.storeLookup owner .empty "pets" "Pet" true none
        withDog)).toOption.map (·.map (·.key)) = some [keptKey "Pet" (by simp) 2] ∧
      (outcome (Cascade.delete dogSchema {} .empty owner withDog)).toOption =
        some ⟨[keptKey "Pet" (by simp) 2, personKey], []⟩ ∧
      (finalState (Cascade.delete dogSchema {} .empty owner withDog)).store.contains
        (keptKey "Dog" (by simp) 3) = true := by
  refine ⟨by decide +kernel, (withDog.store.row? personKey).get (by decide +kernel),
    (Option.some_get _).symm, ?_, ?_, ?_, ?_⟩
  · rfl
  · decide +kernel
  · decide +kernel
  · decide +kernel

end PendingObject
end EntityGraph
