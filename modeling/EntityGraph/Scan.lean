import EntityGraph.Query.Evaluation

/-!
# Scans

A scan is a query in the store's own language: the rows of a kind, perhaps under an ancestor, that
satisfy every one of a list of plain conditions, sorted and cut to a window.
-/

namespace EntityGraph

/-- What the store can look up: a property or the key. -/
inductive ScanField where
  | property (name : String)
  | key
deriving DecidableEq

namespace ScanField

/-- The field of a query that a scan field is. -/
def toField : ScanField → Field
  | property name => .property name
  | key => .key

/-- The scan field that a field is, unless it is derived. -/
def ofField? : Field → Option ScanField
  | .property name => some (property name)
  | .key => some key
  | _ => none

def resolve (f : ScanField) (row : Row) : Option Value := f.toField.resolve row

def text (f : ScanField) : String := f.toField.text

end ScanField

/-- The comparisons that the store can make. -/
inductive ScanOp where
  | eq
  | lt
  | le
  | gt
  | ge
  | within
deriving DecidableEq

namespace ScanOp

def toComparator : ScanOp → Comparator
  | eq => .eq
  | lt => .lt
  | le => .le
  | gt => .gt
  | ge => .ge
  | within => .within

/-- The comparison of a scan that a comparator is, if there is one. -/
def ofComparator? : Comparator → Option ScanOp
  | .eq => some eq
  | .lt => some lt
  | .le => some le
  | .gt => some gt
  | .ge => some ge
  | .within => some within
  | .ne | .startsWith | .contains => none

def isLowerBound : ScanOp → Bool
  | gt | ge => true
  | _ => false

def isUpperBound : ScanOp → Bool
  | lt | le => true
  | _ => false

def isInequality (op : ScanOp) : Bool := op.isLowerBound || op.isUpperBound

end ScanOp

/-- A condition of a scan. -/
structure ScanCondition where
  field : ScanField
  op : ScanOp
  value : Value

/-- Whether a row satisfies the condition; a row without the field does not. -/
def ScanCondition.holds (c : ScanCondition) (row : Row) : Bool :=
  Value.compareField (c.field.resolve row) c.op.toComparator c.value == .holds

/-- One key of the order of a scan. -/
structure ScanSort where
  field : ScanField
  direction : Direction
deriving DecidableEq

def ScanSort.toSortKey (s : ScanSort) : SortKey := ⟨s.field.toField, s.direction⟩

/-- A query in the language of the store. -/
structure Scan where
  kind : String
  ancestor : Option Key := none
  conditions : List ScanCondition := []
  sorts : List ScanSort := []
  window : Window := {}

namespace Scan

/-- Whether the scan selects a row, its window aside. -/
def selects (s : Scan) (row : Row) : Bool :=
  row.kind == s.kind && s.ancestor.all row.key.isWithin && s.conditions.all (·.holds row)

/-- The rows that the scan answers with, from all rows in key order. -/
def answer (s : Scan) (rows : List Row) : List Row :=
  s.window.slice
    (stableSort (compareRows (s.sorts.map ScanSort.toSortKey)) (rows.filter s.selects))

/-- A scan without an order and a window answers with the rows that it selects, in key order. -/
theorem answer_of_unsorted {s : Scan} (hs : s.sorts = []) (hw : s.window = {})
    (rows : List Row) : s.answer rows = rows.filter s.selects := by
  have hsort : ∀ xs : List Row, stableSort (compareRows []) xs = xs :=
    stableSort_of_ne_lt fun a b => by simp [compareRows]
  rw [answer, hs, hw, List.map_nil, hsort]
  rfl

/-- The fields that the scan has inequalities on. -/
def inequalityFields (s : Scan) : List ScanField :=
  (s.conditions.filter (·.op.isInequality)).map (·.field)

/-- The condition that asks for membership in something that is not a list. -/
def badMembership? (s : Scan) : Option ScanCondition :=
  s.conditions.find? fun c => c.op == .within && c.value.list?.isNone

/-- What the store refuses: inequalities on two fields, and membership in what is not a list. -/
def check (s : Scan) : Except StoreError Unit :=
  if s.inequalityFields.any (some · != s.inequalityFields.head?) then
    .error (.rejected "inequality filters on more than one property")
  else
    match s.badMembership? with
    | some c => .error (.rejected s!"'in' filter on {c.field.text} requires a list")
    | none => .ok ()

end Scan
end EntityGraph
