import EntityGraph.Failure
import EntityGraph.StableSort
import EntityGraph.Text.Lowercase
import EntityGraph.Text.Search
import EntityGraph.Truth

/-!
# Conditions on rows

What a field of a row is, when it stands in a comparison with an operand, and how two rows are
ordered by their fields. The store's scans and the evaluation in memory both go by these rules.

A comparison with a null operand is a null test. Otherwise a missing or null field makes it unknown,
and a list field satisfies it if one of its items does.
-/

namespace EntityGraph

namespace Value

mutual

/-- A text in lower case, and a list of the lower-case forms of its texts. -/
def lowercase? : Value → Option Value
  | text s => some (text (lowercaseText s))
  | list items => some (list (lowercaseItems items))
  | _ => none

/-- The lower-case forms of those items that have one. -/
def lowercaseItems : List Value → List Value
  | [] => []
  | v :: vs => v.lowercase?.toList ++ lowercaseItems vs

end

/-- A count as an integer value. -/
def ofCount (n : Nat) : Value := int (Int64.ofNat (min n Int64.maxValue.toInt.toNat))

/-- The number of characters, items or bytes. -/
def length? : Value → Option Value
  | text s => some (ofCount s.length)
  | list items => some (ofCount items.length)
  | blob bytes => some (ofCount bytes.length)
  | _ => none

/-- How one value that is not a list compares with an operand. An order is unknown between values
that have none, and so is a test for text on something else. -/
def testScalar (v : Value) (op : Comparator) (operand : Value) : Truth :=
  let ranged (p : Ordering → Bool) : Truth :=
    match v.order? operand with
    | some o => .ofBool (p o)
    | none => .unknown
  match op with
  | .eq => .ofBool (v.equals operand)
  | .ne => .ofBool (!v.equals operand)
  | .lt => ranged Ordering.isLT
  | .le => ranged Ordering.isLE
  | .gt => ranged Ordering.isGT
  | .ge => ranged Ordering.isGE
  | .within =>
    match operand with
    | list candidates => .ofBool (candidates.any v.equals)
    | _ => .unknown
  | .startsWith =>
    match v, operand with
    | text s, text start => .ofBool (startsWithText s start)
    | _, _ => .unknown
  | .contains =>
    match v, operand with
    | text s, text needle => .ofBool (containsText s needle)
    | _, _ => .unknown

mutual

/-- How a value compares with an operand that is not null. A list contains its items; in any other
comparison it stands for all of them. -/
def test (op : Comparator) (operand : Value) : Value → Truth
  | null => .unknown
  | list items =>
    if op = .contains then .ofBool (items.any (·.equals operand))
    else if items.isEmpty then .unknown
    else testAny op operand items
  | v => v.testScalar op operand

/-- Whether one of the values compares so. -/
def testAny (op : Comparator) (operand : Value) : List Value → Truth
  | [] => .fails
  | v :: vs => (test op operand v).or (testAny op operand vs)

end

/-- How a field that may be missing compares with an operand. -/
def compareField (field : Option Value) (op : Comparator) (operand : Value) : Truth :=
  if operand.isNull then
    let missing := field.all isNull
    match op with
    | .eq => .ofBool missing
    | .ne => .ofBool !missing
    | _ => .unknown
  else
    match field with
    | some v => test op operand v
    | none => .unknown

/-- The value that a field is sorted by: the smallest item of a list. -/
def sortKey : Value → Value
  | list [] => null
  | list (v :: vs) => vs.foldl (fun least x => if least.compare x = .gt then x else least) v
  | v => v

/-- The order of two fields in a sort; a missing field counts as null. -/
def sortCompare (a b : Option Value) (direction : Direction) : Ordering :=
  let o := (a.getD null).sortKey.compare (b.getD null).sortKey
  match direction with
  | .ascending => o
  | .descending => o.swap

end Value

/-- The value of a field, if the row has it. -/
def Field.resolve (row : Row) : Field → Option Value
  | .property name => row.get? name
  | .key => some (.key row.key)
  | .length name => (row.get? name).bind Value.length?
  | .lowercase name => (row.get? name).bind Value.lowercase?

/-- The value that an operand stands for. -/
def Operand.resolve (bindings : Bindings) : Operand → Except Failure Value
  | .literal v => .ok v
  | .parameter name =>
    match bindings.values.get? name with
    | some v => .ok v
    | none => .error (.unboundParameter name)

end EntityGraph
