import EntityGraph.Failure
import EntityGraph.Key.Order
import EntityGraph.SortedMap

/-!
# Key registries

A scope's registry says under which parent each of its pending objects is to be written, and which
parents were written and are still to be updated with the keys of their children. Objects are known
by their handles, so that equal objects are not confused, and a registry knows no object of another
scope.
-/

namespace EntityGraph

/-- The registry of one scope. Its objects are listed by their slots. -/
structure KeyRegistry where
  scope : ScopeId
  parents : SortedMap UInt64 Key compare := .empty
  modified : SortedSet Key Key.compare := .empty

namespace KeyRegistry

/-- Records the parent that an object is to be written under, over one recorded before. The object
has to be the scope's own and the parent to have been written. -/
def register (r : KeyRegistry) (object : ObjectHandle) (parent : Key) :
    Except Failure KeyRegistry :=
  if object.scope ≠ r.scope then .error (.foreignObject object r.scope)
  else if ¬parent.isComplete then .error (.incompleteParent parent)
  else .ok { r with parents := r.parents.insert object.slot parent }

/-- The parent recorded for an object. -/
def parent? (r : KeyRegistry) (object : ObjectHandle) : Option Key :=
  if object.scope = r.scope then r.parents.get? object.slot else none

/-- The registry without the parent of an object. -/
def forget (r : KeyRegistry) (object : ObjectHandle) : KeyRegistry :=
  if object.scope = r.scope then { r with parents := r.parents.erase object.slot } else r

/-- The registry with nothing recorded. -/
def clear (r : KeyRegistry) : KeyRegistry := { scope := r.scope }

/-- The number of objects with a parent. -/
def size (r : KeyRegistry) : Nat := r.parents.size

/-- Whether neither a parent nor a modification is recorded. -/
def isEmpty (r : KeyRegistry) : Bool := r.parents.isEmpty && r.modified.isEmpty

def mark (r : KeyRegistry) (parent : Key) : KeyRegistry :=
  { r with modified := r.modified.insert parent () }

def unmark (r : KeyRegistry) (parent : Key) : KeyRegistry :=
  { r with modified := r.modified.erase parent }

def isMarked (r : KeyRegistry) (parent : Key) : Bool := r.modified.contains parent

/-- The marked parents in key order. -/
def marked (r : KeyRegistry) : List Key := r.modified.keys

def clearMarks (r : KeyRegistry) : KeyRegistry := { r with modified := .empty }

end KeyRegistry
end EntityGraph
