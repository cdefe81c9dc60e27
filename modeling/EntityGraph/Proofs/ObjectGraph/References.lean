import EntityGraph.Proofs.ObjectGraph.Atomicity
import EntityGraph.Proofs.ObjectGraph.Effect

/-!
# The references that an insert leaves behind

An owner comes to refer to the objects that it owns, field by field. The number of objects is
checked for each group of a field and the field is set for each group, so that only those of the
last group are referred to.

* `WrittenObject.Refers`: what a field is to hold for the objects that are owned through it;
* `WrittenObject.refers_iff`: a field holds it exactly when all groups of the field but the last are
  empty;
* `PendingObject.insert_refers_iff`: the rows that an insert leaves behind, for every object;
* `PendingObject.insert_drops_pet`: an owned object that no field refers to.
-/

namespace EntityGraph

theorem Schema.of_ownedRelation_eq_ok {schema : Schema} {kind field : String} {count : Nat}
    {relation : RelationKind} (h : schema.ownedRelation kind field count = .ok relation) :
    (∃ f r, schema.field? kind field = .ok (some f) ∧ f.relation = some r ∧ r.kind = relation) ∧
      (relation ≠ .oneToMany → count ≤ 1) := by
  unfold ownedRelation at h
  obtain ⟨f, hf, h⟩ := bind_eq_ok.1 h
  cases f with
  | none => cases h
  | some f =>
    cases hr : f.relation with
    | none =>
      simp only [hr] at h
      cases h
    | some r =>
      simp only [hr] at h
      split at h
      · cases h
      · split at h
        · cases h
        · rename_i hn
          cases h
          refine ⟨⟨f, r, hf, hr, rfl⟩, fun hk => ?_⟩
          exact Nat.le_of_not_lt fun hlt => hn ⟨hk, hlt⟩

/-- The groups of one field are written through one relation. -/
theorem Schema.ownedRelation_unique {schema : Schema} {kind field : String} {m n : Nat}
    {r r' : RelationKind} (h : schema.ownedRelation kind field m = .ok r)
    (h' : schema.ownedRelation kind field n = .ok r') : r = r' := by
  obtain ⟨⟨f, _, hf, hr, rfl⟩, -⟩ := of_ownedRelation_eq_ok h
  obtain ⟨⟨f', _, hf', hr', rfl⟩, -⟩ := of_ownedRelation_eq_ok h'
  cases hf.symm.trans hf'
  cases hr.symm.trans hr'
  rfl

namespace WrittenObject

variable {schema : Schema}

/-- The groups of one field. -/
def through (x : WrittenObject) (field : String) : List (WrittenGroup WrittenObject) :=
  x.owned.filter (·.field = field)

/-- The keys of the objects that are owned through a field, over all its groups. -/
def supplied (x : WrittenObject) (field : String) : List Key :=
  (x.through field).flatMap fun g => g.children.map (·.key)

/-- A field holds the list of the keys if it is one-to-many. Any other has at most one key, which it
holds, or null. -/
def Refers (kind : RelationKind) (keys : List Key) (value : Option Value) : Prop :=
  match kind with
  | .oneToMany => value = some (.list (keys.map .key))
  | _ => keys.length ≤ 1 ∧ value = some ((keys.head?.map .key).getD .null)

/-- One reference is to the only key, and none is null. -/
theorem single_refers_iff {front last : List Key} (hl : last.length ≤ 1) :
    ((front ++ last).length ≤ 1 ∧
      some ((last.getLast?.map Value.key).getD .null) =
        some (((front ++ last).head?.map Value.key).getD .null)) ↔ front = [] := by
  match front, last, hl with
  | [], [], _ => simp
  | [], [k], _ => simp
  | [k], [], _ => simp
  | [k], [k'], _ => simp
  | k :: k' :: ks, _, _ => simp

theorem refers_reference_iff {kind : RelationKind} {front last : List Key}
    (hl : kind ≠ .oneToMany → last.length ≤ 1) :
    Refers kind (front ++ last) (some (PendingObject.reference kind last)) ↔ front = [] := by
  cases kind with
  | oneToMany => simp [Refers, PendingObject.reference]
  | oneToOne => exact single_refers_iff (hl (by simp))
  | manyToOne => exact single_refers_iff (hl (by simp))

/-- A field refers to the objects that are owned through it exactly when all its groups but the last
are empty. -/
theorem refers_iff {x : WrittenObject} (hx : x.Fits schema) {g : WrittenGroup WrittenObject}
    (hg : g ∈ x.owned) : Refers g.kind (x.supplied g.field) (x.stored.get? g.field) ↔
      ∀ g' ∈ (x.through g.field).dropLast, g'.children = [] := by
  have hmem : g ∈ x.through g.field := List.mem_filter.2 ⟨hg, by simp⟩
  obtain ⟨front, last, hsplit⟩ : ∃ front last, x.through g.field = front ++ [last] :=
    ⟨_, _, (List.dropLast_concat_getLast (List.ne_nil_of_mem hmem)).symm⟩
  have hthrough : last ∈ x.through g.field := by
    rw [hsplit]
    exact List.mem_append_right front (List.mem_singleton_self last)
  obtain ⟨hlast, hfield⟩ : last ∈ x.owned ∧ last.field = g.field := by
    simpa [through] using hthrough
  have hrel := hx.relation last hlast
  rw [hfield] at hrel
  have hkind := Schema.ownedRelation_unique hrel (hx.relation g hg)
  have hvalue : x.stored.get? g.field =
      some (PendingObject.reference g.kind (last.children.map (·.key))) := by
    rw [stored, get?_refer, ← through, hsplit, List.getLast?_concat, ← hkind]
    rfl
  have hsupplied : x.supplied g.field =
      (front.flatMap fun g => g.children.map (·.key)) ++ last.children.map (·.key) := by
    simp [supplied, hsplit]
  rw [hvalue, hsupplied, hsplit, List.dropLast_concat, refers_reference_iff]
  · simp
  · rw [List.length_map, ← hkind]
    exact (Schema.of_ownedRelation_eq_ok hrel).2

end WrittenObject

namespace PendingObject

open WrittenObject

/-- What an insert that succeeds leaves under the key of every object: the row of an object of the
graph with that key, which is the object itself unless another one has its key. The fields that no
group is owned through are those of the object, and a field that objects are owned through refers to
all of them exactly when no group of the field but the last one has any. -/
theorem insert_refers_iff {schema : Schema} {o : PendingObject} {ctx ctx' : Context} {k : Key}
    (h : o.insert schema ctx = .ok k ctx') :
    ∃ w : WrittenObject, w.pending = o ∧ w.key = k ∧ (∀ x ∈ w.objects, x.Fits schema) ∧
      ctx'.store.log = ctx.store.log ++ w.puts.map (.put ·.key) ∧
      ∀ x ∈ w.objects, ∃ z ∈ w.objects, z.key = x.key ∧
        ∃ row, ctx'.store.row? x.key = some row ∧
          (∀ field, (∀ g ∈ z.owned, g.field ≠ field) → row.get? field = z.row.get? field) ∧
          ∀ g ∈ z.owned, Refers g.kind (z.supplied g.field) (row.get? g.field) ↔
            ∀ g' ∈ (z.through g.field).dropLast, g'.children = [] := by
  obtain ⟨w, hw, hk, -, hwrote⟩ := wrote_insert h
  refine ⟨w, hw, hk, hwrote.fits, hwrote.log, fun x hx => ?_⟩
  rcases leaves_puts x.key w (ctx.store.row? x.key) with ⟨z, hz, hzk, hrow⟩ | ⟨hne, -⟩
  · refine ⟨z, hz, hzk, z.stored, (hwrote.row? x.key).trans hrow, ?_, ?_⟩
    · exact fun field hf => get?_stored_of_ne hf
    · exact fun g hg => refers_iff (hwrote.fits z hz) hg
  · exact absurd rfl (hne x hx)

/-- A new object of a kind. -/
def newObject (slot : UInt64) (kind : String) (h : kind ≠ "")
    (owned : List (OwnedGroup PendingObject)) : PendingObject :=
  mk ⟨⟨1⟩, slot⟩ { key := .single ⟨kind, none⟩ ⟨h, by simp⟩ } owned

def newPet (slot : UInt64) : PendingObject := newObject slot "Pet" (by simp) []

/-- A new person with pets in groups. -/
def petOwner (groups : List (List PendingObject)) : PendingObject :=
  newObject 0 "Person" (by simp) (groups.map fun pets => ⟨"pets", pets⟩)

/-- A scope with an empty store. -/
def emptyStore : Context where
  scope := .start ⟨1⟩ false
  store := {}
  held := {}

/-- What is left of a person with two pets in one group. -/
theorem insert_refers_sample : ∃ k ctx',
    (petOwner [[newPet 1, newPet 2]]).insert petSchema emptyStore = .ok k ctx' ∧
      ∃ z : WrittenObject, z.key = k ∧ ∃ row, ctx'.store.row? k = some row ∧
        ∀ g ∈ z.owned, Refers g.kind (z.supplied g.field) (row.get? g.field) ↔
          ∀ g' ∈ (z.through g.field).dropLast, g'.children = [] := by
  obtain ⟨k, ctx', hrun⟩ : ∃ k ctx',
      (petOwner [[newPet 1, newPet 2]]).insert petSchema emptyStore = .ok k ctx' := ⟨_, _, rfl⟩
  obtain ⟨w, -, hk, -, -, h⟩ := insert_refers_iff hrun
  obtain ⟨z, -, hz, row, hrow, -, hrefers⟩ := h w w.mem_objects_self
  rw [hk] at hz hrow
  exact ⟨k, ctx', hrun, z, hz, row, hrow, hrefers⟩

/-- Pets in two groups are both written, and the field refers to the second one only. -/
theorem insert_drops_pet : ∃ k p₁ p₂ ctx' row,
    (petOwner [[newPet 1], [newPet 2]]).insert petSchema emptyStore = .ok k ctx' ∧
      ctx'.store.log = [.put k, .put p₁, .put p₂, .put k] ∧ p₁.parent = some k ∧
      ctx'.store.contains p₁ ∧ ctx'.store.row? k = some row ∧
      row.get? "pets" = some (.list [.key p₂]) ∧
      ¬Refers .oneToMany [p₁, p₂] (row.get? "pets") := by
  have hlost : ∀ p₁ p₂ : Key, ¬Refers .oneToMany [p₁, p₂] (some (.list [.key p₂])) := by
    simp [Refers]
  exact ⟨_, _, _, _, _, rfl, rfl, rfl, rfl, rfl, rfl, hlost _ _⟩

end PendingObject
end EntityGraph
