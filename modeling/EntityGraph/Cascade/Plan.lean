import EntityGraph.Schema

/-!
# Cascade plans

What deleting a row of a class means for the rows related to it, field by field: dependent rows are
deleted, references from the other side of a one-to-one relation are nulled, and join fields must
not hold anything. Other fields take no part.
-/

namespace EntityGraph

/-- What a delete does through one field. -/
inductive Strategy where
  /-- The related rows are deleted first. -/
  | deleteDependents (field target : String) (owned : Bool) (mappedBy : Option String)
  /-- The related row's reference is nulled. -/
  | nullReference (field target mappedBy : String)
  /-- No meaning is defined for a field that holds something. -/
  | reserved (field target : String)
deriving DecidableEq

namespace Strategy

def field : Strategy → String
  | deleteDependents field .. => field
  | nullReference field .. => field
  | reserved field _ => field

/-- The strategy for a field of a class, if it takes part in cascades. -/
def ofField? (f : ClassField) : Option Strategy := do
  let r ← f.relation
  if f.embedded then none
  else if r.dependent then some (deleteDependents f.name r.target r.owned r.mappedBy)
  else
    match r.kind, r.mappedBy with
    | .oneToOne, some mappedBy =>
      if r.bidirectional then some (nullReference f.name r.target mappedBy) else none
    | .manyToOne, _ => if r.bidirectional && r.join then some (reserved f.name r.target) else none
    | _, _ => none

def isDelete : Strategy → Bool
  | deleteDependents .. => true
  | _ => false

def isNull : Strategy → Bool
  | nullReference .. => true
  | _ => false

def isReserved : Strategy → Bool
  | reserved .. => true
  | _ => false

end Strategy

/-- The strategies of a class: those of its own fields as declared, then those of its superclasses,
the nearest first. -/
structure CascadePlan where
  name : String
  strategies : List Strategy
deriving DecidableEq

namespace CascadePlan

/-- The strategies of the fields that a class declares. -/
def declared (c : EntityClass) : List Strategy := c.fields.filterMap Strategy.ofField?

def ofLineage (name : String) (lineage : List EntityClass) : CascadePlan :=
  ⟨name, lineage.flatMap declared⟩

/-- The plan for a class. -/
def ofClass (schema : Schema) (name : String) : Except Failure CascadePlan := do
  let lineage ← schema.lineage name
  return ofLineage name lineage

def isEmpty (p : CascadePlan) : Bool := p.strategies.isEmpty
def deletes (p : CascadePlan) : List Strategy := p.strategies.filter Strategy.isDelete
def nulls (p : CascadePlan) : List Strategy := p.strategies.filter Strategy.isNull
def reserved (p : CascadePlan) : List Strategy := p.strategies.filter Strategy.isReserved

end CascadePlan
end EntityGraph
