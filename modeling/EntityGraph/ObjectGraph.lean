import EntityGraph.Schema
import EntityGraph.Scope

/-!
# Writing object graphs

A pending object comes with the objects that it owns, by field. The key of an owned object contains
the key of its owner, which may get its number only when it is written; so an owner is written
before the objects that it owns, and once more when their keys are known.
-/

namespace EntityGraph

/-- Objects that are owned through one field. -/
structure OwnedGroup (Object : Type) where
  field : String
  children : List Object

/-- An object to be written: its handle, its row, and the objects that it owns. -/
inductive PendingObject where
  | mk (handle : ObjectHandle) (row : Row) (owned : List (OwnedGroup PendingObject))

namespace PendingObject

def handle : PendingObject → ObjectHandle
  | mk handle .. => handle

def row : PendingObject → Row
  | mk _ row _ => row

def owned : PendingObject → List (OwnedGroup PendingObject)
  | mk _ _ owned => owned

def kind (o : PendingObject) : String := o.row.kind

end PendingObject

/-- The kind of the relation that `count` objects are to be owned through: it has to be an owned one
and, unless it is one-to-many, takes one object. -/
def Schema.ownedRelation (schema : Schema) (kind field : String) (count : Nat) :
    Except Failure RelationKind := do
  match ← schema.field? kind field with
  | none => throw (.unknownField kind field)
  | some f =>
    match f.relation with
    | none => throw (.notOwned kind field)
    | some r =>
      if ¬r.owned then throw (.notOwned kind field)
      if r.kind ≠ .oneToMany ∧ 1 < count then throw (.singleReference kind field count)
      return r.kind

namespace PendingObject

mutual

/-- The first fault of the owned fields of an object and the objects under it. -/
def check (schema : Schema) : PendingObject → Except Failure Unit
  | mk _ row owned => checkGroups schema row.kind owned

/-- The first fault of the owned fields of an object of a kind. -/
def checkGroups (schema : Schema) (kind : String) :
    List (OwnedGroup PendingObject) → Except Failure Unit
  | [] => .ok ()
  | ⟨field, children⟩ :: groups => do
    let _ ← schema.ownedRelation kind field children.length
    checkAll schema children
    checkGroups schema kind groups

/-- The first fault of a list of objects. -/
def checkAll (schema : Schema) : List PendingObject → Except Failure Unit
  | [] => .ok ()
  | o :: os => do
    check schema o
    checkAll schema os

end

/-- The row with the parent that was recorded for its object. An incomplete key is put under it, and
a complete one has to be there already. -/
def adopt (row : Row) (parent : Option Key) : Except Failure Row :=
  match parent with
  | none => .ok row
  | some p =>
    if row.key.isComplete then
      if row.key.parent = some p then .ok row else .error (.fixedParent row.key p)
    else
      match Key.pending? row.kind (some p) with
      | .ok k => .ok { row with key := k }
      | .error e => .error (.key e)

/-- What a field holds for the objects that are owned through it. -/
def reference (kind : RelationKind) (children : List Key) : Value :=
  match kind with
  | .oneToMany => .list (children.map .key)
  | _ => (children.getLast?.map .key).getD .null

/-- Writes the row of an object under the parent that was recorded for the object, and answers with
its key. -/
def place (handle : ObjectHandle) (row : Row) : Action Key := do
  let row ← MonadExcept.ofExcept (adopt row (← Action.takeParent handle))
  let key ← Action.onStore (.insertStore row.kind) (Store.put row)
  Action.touch 1
  return key

/-- Writes a row once more, now that it holds the keys of the objects that it owns. -/
def refresh (row : Row) : Action Unit := do
  Action.onRegistry (·.mark row.key)
  let _ ← Action.onStore (.refreshStore row.key) (Store.put row)
  Action.onRegistry (·.unmark row.key)

mutual

/-- Writes an object and then those it owns, and answers with its key. -/
def write (schema : Schema) : PendingObject → Action Key
  | mk handle row owned => do
    let key ← place handle row
    if owned.isEmpty then return key
    let row ← writeGroups schema key owned ⟨key, row.properties⟩
    refresh row
    return key

/-- Writes the objects owned by the object under `key`, and answers with its row, updated with their
keys. -/
def writeGroups (schema : Schema) (key : Key) :
    List (OwnedGroup PendingObject) → Row → Action Row
  | [], row => return row
  | ⟨field, children⟩ :: groups, row => do
    let kind ← MonadExcept.ofExcept (schema.ownedRelation row.kind field children.length)
    let keys ← writeAll schema key children
    writeGroups schema key groups (row.set field (reference kind keys))

/-- Writes objects under a parent, and answers with their keys. -/
def writeAll (schema : Schema) (parent : Key) : List PendingObject → Action (List Key)
  | [] => return []
  | o :: os => do
    Action.register o.handle parent
    let key ← write schema o
    let keys ← writeAll schema parent os
    return key :: keys

end

/-- Writes an object graph, unless it does not fit the schema. -/
def insert (schema : Schema) (o : PendingObject) : Action Key := do
  MonadExcept.ofExcept (o.check schema)
  Action.counted .insert o.kind (o.write schema)

end PendingObject
end EntityGraph
