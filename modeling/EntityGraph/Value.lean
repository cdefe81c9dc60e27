import EntityGraph.Double
import EntityGraph.Key

/-!
# Values

A value is what a row holds under a property name. `Value.null` is a property that is there and
holds nothing; a missing property is not a value. A list is a property with many values.

Values have three comparisons. `Value.compare` is the order for sorting, defined on all values;
`Value.order?` is the order for filters, defined where the comparison means something; and
`Value.equals` is the equality for filters.
-/

namespace EntityGraph

/-- What a property may hold. -/
inductive Value where
  | null
  | bool (b : Bool)
  | int (i : Int64)
  | float (d : Double)
  | text (s : String)
  | blob (bytes : List UInt8)
  | key (k : Key)
  | list (items : List Value)

instance : Inhabited Value := ⟨.null⟩

namespace Value

def isNull : Value → Bool
  | null => true
  | _ => false

def key? : Value → Option Key
  | key k => some k
  | _ => none

def text? : Value → Option String
  | text s => some s
  | _ => none

def int? : Value → Option Int64
  | int i => some i
  | _ => none

def list? : Value → Option (List Value)
  | list items => some items
  | _ => none

/-- The keys that a value refers to: itself, or those among the items of a list. -/
def referencedKeys : Value → List Key
  | key k => [k]
  | list items => items.filterMap key?
  | _ => []

/-- The place of a value's family in the order of the families; all numbers are one family. -/
def rank : Value → Nat
  | null => 0
  | bool _ => 1
  | int _ => 2
  | float _ => 2
  | text _ => 3
  | blob _ => 4
  | key _ => 5
  | list _ => 6

/-- The binary64 number that an integer is compared as next to a float. -/
def intAsDouble (i : Int64) : Double := Double.ofInt i.toInt

mutual

/-- The order for sorting: by family, then within the family. Integers compare exactly with each
other and as floats with floats; lists compare item by item, a list before its extensions. -/
protected def compare : Value → Value → Ordering
  | null, null => .eq
  | bool a, bool b => Ord.compare a b
  | int a, int b => Ord.compare a b
  | int a, float b => (intAsDouble a).sortCompare b
  | float a, int b => a.sortCompare (intAsDouble b)
  | float a, float b => a.sortCompare b
  | text a, text b => compareText a b
  | blob a, blob b => List.compareLex Ord.compare a b
  | key a, key b => a.compare b
  | list a, list b => Value.compareItems a b
  | a, b => Ord.compare a.rank b.rank

/-- The order of lists for sorting. -/
protected def compareItems : List Value → List Value → Ordering
  | [], [] => .eq
  | [], _ :: _ => .lt
  | _ :: _, [] => .gt
  | a :: as, b :: bs => (a.compare b).then (Value.compareItems as bs)

end

/-- Values are equal when the order for sorting does not tell them apart. -/
instance : BEq Value := ⟨fun a b => a.compare b == .eq⟩

/-- The order for filters: defined within a family, but not for nulls, lists and NaNs. -/
def order? : Value → Value → Option Ordering
  | bool a, bool b => some (Ord.compare a b)
  | int a, int b => some (Ord.compare a b)
  | int a, float b => (intAsDouble a).compare? b
  | float a, int b => a.compare? (intAsDouble b)
  | float a, float b => a.compare? b
  | text a, text b => some (compareText a b)
  | blob a, blob b => some (List.compareLex Ord.compare a b)
  | key a, key b => some (a.compare b)
  | _, _ => none

/-- The equality for filters: values of different families are never equal. -/
def equals (a b : Value) : Bool := a.order? b == some .eq

end Value
end EntityGraph
