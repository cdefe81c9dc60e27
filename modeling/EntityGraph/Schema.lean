import EntityGraph.Failure

/-!
# Schemas

The classes of the persistent objects: their fields, the relations among them and their
superclasses. A class's name is the kind of its rows. A class has the fields that it declares and
those of its superclasses, the nearest declaration of a name first.

* `Schema.lineage` follows the superclasses of a class and fails if they form a cycle or one of them
  is missing.
-/

namespace EntityGraph

/-- How many rows on each side a relation joins. -/
inductive RelationKind where
  | oneToOne
  | oneToMany
  | manyToOne
deriving DecidableEq

/-- A relation from the rows of a class to those of another. -/
structure Relation where
  kind : RelationKind
  /-- The class of the related rows. -/
  target : String
  /-- The field of the related class that holds the reference. This side then stores none. -/
  mappedBy : Option String := none
  bidirectional : Bool := mappedBy.isSome
  /-- Whether the related rows are deleted with the row. -/
  dependent : Bool := false
  /-- Whether the related rows are written under the row. -/
  owned : Bool := false
  /-- Whether the relation is kept in a structure of its own. -/
  join : Bool := false
deriving DecidableEq

/-- A field of a class: a plain property, or a relation. -/
structure ClassField where
  name : String
  relation : Option Relation := none
  nullable : Bool := true
  /-- Whether the field is kept within the row, without a key of its own. -/
  embedded : Bool := false
deriving DecidableEq

/-- A class of persistent objects, with the fields that it declares itself. -/
structure EntityClass where
  name : String
  superclass : Option String := none
  fields : List ClassField := []
deriving DecidableEq

/-- The field that the class declares under a name. -/
def EntityClass.declared? (c : EntityClass) (name : String) : Option ClassField :=
  c.fields.find? (·.name == name)

/-- Classes with different names. -/
structure Schema where
  classes : List EntityClass
  distinct : (classes.map (·.name)).Nodup

namespace Schema

def empty : Schema := ⟨[], .nil⟩

def size (s : Schema) : Nat := s.classes.length
def isEmpty (s : Schema) : Bool := s.classes.isEmpty

def class? (s : Schema) (name : String) : Option EntityClass := s.classes.find? (·.name == name)

/-- The schema with one more class, whose name has to be new. -/
def register (s : Schema) (c : EntityClass) : Except Failure Schema :=
  if h : c.name ∈ s.classes.map (·.name) then .error (.duplicateClass c.name)
  else .ok ⟨c :: s.classes, List.nodup_cons.2 ⟨h, s.distinct⟩⟩

theorem not_mem_map_filter_ne (classes : List EntityClass) (name : String) :
    name ∉ (classes.filter (·.name != name)).map (·.name) := by
  simp

/-- The schema with a class, in place of one of the same name. -/
def replace (s : Schema) (c : EntityClass) : Schema where
  classes := c :: s.classes.filter (·.name != c.name)
  distinct := List.nodup_cons.2 ⟨not_mem_map_filter_ne _ _,
    s.distinct.sublist (List.filter_sublist.map _)⟩

/-- The classes from `current` on along the superclasses, at most `fuel` of them, after the classes
`visited` on the way from `start`. -/
def lineageFrom (s : Schema) (start : String) :
    Nat → List EntityClass → String → Except Failure (List EntityClass)
  | 0, visited, _ => .ok visited
  | fuel + 1, visited, current =>
    if visited.any (·.name == current) then .error (.inheritanceCycle current start)
    else
      match s.class? current with
      | none => .error (.unknownClass current start)
      | some c =>
        match c.superclass with
        | none => .ok (visited ++ [c])
        | some next => s.lineageFrom start fuel (visited ++ [c]) next

/-- A class and its superclasses, the nearest first. -/
def lineage (s : Schema) (name : String) : Except Failure (List EntityClass) :=
  s.lineageFrom name (s.size + 1) [] name

/-- The nearest declaration of a field in a lineage. -/
def nearestField? (lineage : List EntityClass) (field : String) : Option ClassField :=
  lineage.findSome? (·.declared? field)

/-- The field of a class, declared by itself or by a superclass. -/
def field? (s : Schema) (name field : String) : Except Failure (Option ClassField) := do
  let lineage ← s.lineage name
  return nearestField? lineage field

end Schema
end EntityGraph
