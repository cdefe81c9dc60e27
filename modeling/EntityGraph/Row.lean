import EntityGraph.SortedMap
import EntityGraph.Value

/-!
# Rows

A row is a key with properties: values by name, listed in the order of the names. Its kind is the
kind of its key.
-/

namespace EntityGraph

/-- Values by property name. -/
abbrev Properties := SortedMap String Value compareText

/-- One stored or pending entity. -/
structure Row where
  key : Key
  properties : Properties := .empty

namespace Row

def kind (r : Row) : String := r.key.kind
def get? (r : Row) (name : String) : Option Value := r.properties.get? name

/-- The row with the property `name` holding `v`. -/
def set (r : Row) (name : String) (v : Value) : Row :=
  { r with properties := r.properties.insert name v }

/-- The row without the property `name`. -/
def remove (r : Row) (name : String) : Row := { r with properties := r.properties.erase name }

@[simp] theorem key_set (r : Row) (name : String) (v : Value) : (r.set name v).key = r.key := rfl

@[simp] theorem kind_set (r : Row) (name : String) (v : Value) : (r.set name v).kind = r.kind := rfl

theorem get?_set (r : Row) (name name' : String) (v : Value) :
    (r.set name v).get? name' = if name' = name then some v else r.get? name' :=
  SortedMap.get?_insert ..

end Row
end EntityGraph
