import Mathlib.Data.List.Nodup
import EntityGraph.Cascade.Plan
import EntityGraph.Proofs.Sequencing

/-!
# Redeclared fields

A class has the fields that its lineage declares, and of several declarations of one name the
nearest is the field. A cascade plan goes by all of the declarations: a relation that a class
declares anew takes part in its cascades under the old declaration too.

* `Schema.FirstDecides`: of the declarations of one name only the first takes part in cascades;
* `CascadePlan.Resolves`: a plan that has the strategies of the fields of its class, and each once;
* `CascadePlan.resolves_iff`: the plan of a class is one exactly if nearer declarations replace
  farther ones;
* `CascadePlan.keeps_redeclared`: a class that declares a dependent relation anew, as one that is
  not dependent, and still deletes through it.
-/

namespace EntityGraph

/-- The strategy for a field goes by the name of the field. -/
theorem Strategy.field_of_ofField? {f : ClassField} {s : Strategy} (h : ofField? f = some s) :
    s.field = f.name := by
  obtain ⟨r, -, h⟩ := Option.bind_eq_some_iff.1 h
  split at h
  · cases h
  · split at h
    · cases h
      rfl
    · split at h
      · split at h
        · cases h
          rfl
        · cases h
      · split at h
        · cases h
          rfl
        · cases h
      · cases h

namespace Schema

/-- All declarations of a lineage, the nearest first. -/
def declarations (lineage : List EntityClass) : List ClassField := lineage.flatMap (·.fields)

/-- The field of a lineage is the first declaration of its name. -/
theorem nearestField?_eq_find? (lineage : List EntityClass) (field : String) :
    nearestField? lineage field = (declarations lineage).find? (·.name == field) := by
  rw [declarations, List.find?_flatMap]
  rfl

/-- A declaration that comes after another of the same name takes no part in cascades. -/
def FirstDecides (fields : List ClassField) : Prop :=
  fields.Pairwise fun first other => other.name = first.name → Strategy.ofField? other = none

instance (fields : List ClassField) : Decidable (FirstDecides fields) :=
  inferInstanceAs (Decidable (fields.Pairwise _))

theorem field?_eq {schema : Schema} {name field : String} {lineage : List EntityClass}
    (h : schema.lineage name = .ok lineage) :
    schema.field? name field = .ok ((declarations lineage).find? (·.name == field)) := by
  rw [field?, h, ← nearestField?_eq_find?]
  rfl

end Schema

namespace CascadePlan

open Schema

/-- The plan for a lineage has the strategies of all declarations. -/
theorem strategies_ofLineage (name : String) (lineage : List EntityClass) :
    (ofLineage name lineage).strategies =
      (declarations lineage).filterMap Strategy.ofField? := by
  rw [declarations, List.filterMap_flatMap]
  rfl

/-- A plan agrees with the fields of its class: it has at most one strategy for each name, and its
strategies are those of the fields. -/
structure Resolves (schema : Schema) (p : CascadePlan) : Prop where
  once : (p.strategies.map Strategy.field).Nodup
  resolved : ∀ s, s ∈ p.strategies ↔
    ∃ f, schema.field? p.name s.field = .ok (some f) ∧ Strategy.ofField? f = some s

section Declarations

variable {fields : List ClassField}

/-- The strategies of declarations of which nearer ones replace farther ones: one for each name. -/
theorem nodup_of_firstDecides (h : FirstDecides fields) :
    ((fields.filterMap Strategy.ofField?).map Strategy.field).Nodup := by
  rw [List.Nodup, List.pairwise_map, List.pairwise_filterMap]
  refine h.imp fun {f g} hfg s hs s' hs' heq => ?_
  rw [Strategy.field_of_ofField? hs, Strategy.field_of_ofField? hs'] at heq
  rw [hfg heq.symm] at hs'
  cases hs'

theorem find?_of_firstDecides (h : FirstDecides fields)
    {s : Strategy} (hs : s ∈ fields.filterMap Strategy.ofField?) :
    ∃ f, fields.find? (·.name == s.field) = some f ∧ Strategy.ofField? f = some s := by
  obtain ⟨f, hf, hfs⟩ := List.mem_filterMap.1 hs
  have hname : f.name == s.field := by simp [Strategy.field_of_ofField? hfs]
  have hsome : (fields.find? (·.name == s.field)).isSome := List.find?_isSome.2 ⟨f, hf, hname⟩
  obtain ⟨g, hg⟩ := Option.isSome_iff_exists.1 hsome
  refine ⟨g, hg, ?_⟩
  obtain ⟨hgname, before, after, rfl, hbefore⟩ := List.find?_eq_some_iff_append.1 hg
  rw [List.mem_append, List.mem_cons] at hf
  rcases hf with hf | rfl | hf
  · simpa [hname] using hbefore f hf
  · exact hfs
  · have hnone := (List.pairwise_cons.1 (List.pairwise_append.1 h).2.1).1 f hf
      ((eq_of_beq hname).trans (eq_of_beq hgname).symm)
    cases hnone.symm.trans hfs

/-- If each name has one strategy, and that of its first declaration, then the others have none. -/
theorem firstDecides_of_find? : ∀ {fields : List ClassField},
    ((fields.filterMap Strategy.ofField?).map Strategy.field).Nodup →
    (∀ s ∈ fields.filterMap Strategy.ofField?,
      ∃ f, fields.find? (·.name == s.field) = some f ∧ Strategy.ofField? f = some s) →
    FirstDecides fields
  | [], _, _ => .nil
  | f :: fields, honce, hfind => by
    have hsub : (fields.filterMap Strategy.ofField?).Sublist
        ((f :: fields).filterMap Strategy.ofField?) :=
      (List.sublist_cons_self f fields).filterMap _
    -- The strategy of `f` would be there twice if a later declaration had one of this name.
    have hne : ∀ s ∈ fields.filterMap Strategy.ofField?, (f.name == s.field) = false := by
      intro s hs
      by_contra hname
      obtain ⟨g, hg, hgs⟩ := hfind s (hsub.subset hs)
      rw [List.find?_cons_of_pos (by simpa using hname)] at hg
      cases hg
      rw [List.filterMap_cons_some hgs, List.map_cons] at honce
      exact (List.nodup_cons.1 honce).1 (List.mem_map_of_mem hs)
    refine List.pairwise_cons.2 ⟨fun g hg hname => ?_, ?_⟩
    · cases hgs : Strategy.ofField? g with
      | none => rfl
      | some s =>
        have hs := hne s (List.mem_filterMap.2 ⟨g, hg, hgs⟩)
        simp [Strategy.field_of_ofField? hgs, hname] at hs
    · refine firstDecides_of_find? (honce.sublist (hsub.map _)) fun s hs => ?_
      obtain ⟨g, hg, hgs⟩ := hfind s (hsub.subset hs)
      rw [List.find?_cons_of_neg (by simpa using hne s hs)] at hg
      exact ⟨g, hg, hgs⟩

end Declarations

variable {schema : Schema} {name : String} {lineage : List EntityClass}

/-- The strategy of a field is in the plan of its class. -/
theorem mem_of_field? (h : schema.lineage name = .ok lineage) {field : String} {f : ClassField}
    {s : Strategy} (hf : schema.field? name field = .ok (some f))
    (hs : Strategy.ofField? f = some s) : s ∈ (ofLineage name lineage).strategies := by
  rw [field?_eq h, Except.ok.injEq] at hf
  rw [strategies_ofLineage]
  exact List.mem_filterMap.2 ⟨f, List.mem_of_find?_eq_some hf, hs⟩

/-- A class of which the lineage is known has a plan. The strategy of each of its fields is in it,
and the plan agrees with the fields of the class exactly if a declaration for which there is a
nearer one of the same name takes no part in cascades. -/
theorem resolves_iff (h : schema.lineage name = .ok lineage) : ∃ plan,
    ofClass schema name = .ok plan ∧
    (∀ field f s, schema.field? name field = .ok (some f) → Strategy.ofField? f = some s →
      s ∈ plan.strategies) ∧
    (plan.Resolves schema ↔ FirstDecides (declarations lineage)) := by
  refine ⟨ofLineage name lineage, by rw [ofClass, h]; rfl, fun field f s => mem_of_field? h, ?_⟩
  constructor
  · rintro ⟨honce, hresolved⟩
    rw [strategies_ofLineage] at honce
    refine firstDecides_of_find? honce fun s hs => ?_
    rw [← strategies_ofLineage name] at hs
    obtain ⟨f, hf, hfs⟩ := (hresolved s).1 hs
    rw [show (ofLineage name lineage).name = name from rfl, field?_eq h] at hf
    exact ⟨f, Except.ok.inj hf, hfs⟩
  · intro hfirst
    refine ⟨?_, fun s => ⟨fun hs => ?_, fun ⟨f, hf, hfs⟩ => mem_of_field? h hf hfs⟩⟩
    · rw [strategies_ofLineage]
      exact nodup_of_firstDecides hfirst
    · rw [strategies_ofLineage] at hs
      obtain ⟨f, hf, hfs⟩ := find?_of_firstDecides hfirst hs
      exact ⟨f, (field?_eq h).trans (congrArg _ hf), hfs⟩

/-- The relation to the pets of a person, who may own them or not. -/
def samplePets (owned : Bool) : ClassField where
  name := "pets"
  relation := some { kind := .oneToMany, target := "Pet", dependent := owned, owned }

/-- A person, who owns pets. -/
def samplePerson : EntityClass where
  name := "Person"
  fields := [samplePets true]

/-- A student, whose pets are not the student's own. -/
def sampleStudent : EntityClass where
  name := "Student"
  superclass := some "Person"
  fields := [samplePets false]

/-- A guard, who has a dog besides. -/
def sampleGuard : EntityClass where
  name := "Guard"
  superclass := some "Person"
  fields := [{
    name := "dog"
    relation := some { kind := .oneToOne, target := "Pet", dependent := true } }]

def samplePeople : Schema where
  classes := [samplePerson, sampleStudent, sampleGuard, { name := "Pet" }]
  distinct := by decide

/-- A guard's plan agrees with the dog and the pets, as they are declared once each. -/
theorem resolves_sample : samplePeople.lineage "Guard" = .ok [sampleGuard, samplePerson] ∧
    ∃ plan, ofClass samplePeople "Guard" = .ok plan ∧ plan.Resolves samplePeople := by
  have hlineage : samplePeople.lineage "Guard" = .ok [sampleGuard, samplePerson] := rfl
  obtain ⟨plan, hplan, -, hiff⟩ := resolves_iff hlineage
  exact ⟨hlineage, plan, hplan, hiff.2 (by decide)⟩

/-- Students have the pets that they do not own as a field, which takes no part in cascades. Their
plan still has the pets that people own deleted with them. -/
theorem keeps_redeclared :
    samplePeople.field? "Student" "pets" = .ok (some (samplePets false)) ∧
    Strategy.ofField? (samplePets false) = none ∧
    (ofClass samplePeople "Student").map (·.strategies) =
      .ok [.deleteDependents "pets" "Pet" true none] :=
  ⟨rfl, rfl, rfl⟩

end CascadePlan
end EntityGraph
