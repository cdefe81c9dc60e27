import EntityGraph.Scan

/-!
# Pushing queries down to the store

`Query.pushDown` decides whether the store can run a query. It validates the query, whatever comes
of it, and then either builds the scan that answers it or gives the first reason why there is none.
A refusal is not a failure: the query is then evaluated in memory.
-/

namespace EntityGraph

/-- Why a query is not run by the store. -/
inductive Refusal where
  /-- The candidates are at hand. -/
  | candidatesInMemory
  | forcedInMemory
  | subquery
  | disjunction
  | negation
  | unsupportedOperator
  | derivedField
  | nullTest
  | multipleInequalityProperties
  /-- More than one lower or upper bound. -/
  | conflictingRange
  | multipleAncestors
  | sortOnDerivedField
  /-- The inequality is not on the first sort key that an equality leaves open. -/
  | sortIncompatible
deriving DecidableEq

def Refusal.label : Refusal → String
  | candidatesInMemory => "candidates_in_memory"
  | forcedInMemory => "forced_in_memory"
  | subquery => "subquery"
  | disjunction => "disjunction"
  | negation => "negation"
  | unsupportedOperator => "unsupported_operator"
  | derivedField => "derived_field"
  | nullTest => "null_test"
  | multipleInequalityProperties => "multiple_inequality_properties"
  | conflictingRange => "conflicting_range"
  | multipleAncestors => "multiple_ancestors"
  | sortOnDerivedField => "sort_on_derived_field"
  | sortIncompatible => "sort_incompatible"

/-- What became of a query that was offered to the store. -/
inductive Pushdown where
  | scan (s : Scan)
  | refused (reason : Refusal)

namespace Pushdown

def isScan : Pushdown → Bool
  | scan _ => true
  | refused _ => false

def refusal? : Pushdown → Option Refusal
  | scan _ => none
  | refused reason => some reason

end Pushdown

/-! ## Validation -/

/-- A field names a property, if any, by a name that is not empty. -/
def Field.validate (f : Field) : Except Failure Unit :=
  if f.property? = some "" then .error .emptyFieldName else .ok ()

/-- A window does not end before it starts. -/
def Window.validate (w : Window) : Except Failure Unit :=
  match w.stop with
  | some stop => if stop < w.start then .error (.invertedWindow w.start stop) else .ok ()
  | none => .ok ()

/-- The complete key that an operand stands for. -/
def Operand.resolveAncestor (operand : Operand) (bindings : Bindings) : Except Failure Key := do
  match ← operand.resolve bindings with
  | .key k => if k.isComplete then return k else throw (.incompleteAncestor k)
  | v => throw (.ancestorNotKey v)

namespace Filter

mutual

/-- The first fault of a filter, from left to right. -/
def validate (bindings : Bindings) : Filter → Except Failure Unit
  | and parts => validateAll bindings parts
  | or parts => validateAll bindings parts
  | not part => validate bindings part
  | compare field op operand => do
    field.validate
    let v ← operand.resolve bindings
    if op = .within ∧ v.list?.isNone then throw (.withinNeedsList field)
  | isNull field => field.validate
  | isNotNull field => field.validate
  | under ancestor => do
    let _ ← ancestor.resolveAncestor bindings
  | inSubquery field name => do
    field.validate
    if (bindings.subqueries.get? name).isNone then throw (.unboundSubquery name)

/-- The first fault of a list of filters. -/
def validateAll (bindings : Bindings) : List Filter → Except Failure Unit
  | [] => .ok ()
  | f :: fs => do
    validate bindings f
    validateAll bindings fs

end
end Filter

/-- The faults of a query, which make it malformed wherever it is evaluated. -/
def Query.validate (q : Query) (bindings : Bindings) : Except Failure Unit := do
  if q.kind = "" then throw .emptyKind
  q.window.validate
  if let some filter := q.filter then filter.validate bindings
  q.ordering.forM (·.field.validate)

/-! ## Building the scan -/

/-- A condition that a conjunction is flattened to. -/
inductive Conjunct where
  | compare (field : Field) (op : Comparator) (operand : Operand)
  | under (ancestor : Operand)

namespace Filter

mutual

/-- The conditions of a filter that is a conjunction of comparisons and ancestor tests. -/
def conjuncts : Filter → Except Refusal (List Conjunct)
  | and parts => allConjuncts parts
  | or _ => .error .disjunction
  | not _ => .error .negation
  | isNull _ => .error .nullTest
  | isNotNull _ => .error .nullTest
  | inSubquery .. => .error .subquery
  | compare field op operand => .ok [.compare field op operand]
  | under ancestor => .ok [.under ancestor]

/-- The conditions of a list of filters. -/
def allConjuncts : List Filter → Except Refusal (List Conjunct)
  | [] => .ok []
  | f :: fs => do
    let cs ← conjuncts f
    let rest ← allConjuncts fs
    return cs ++ rest

end
end Filter

/-- Whether a value is null or a list that holds a null. -/
def Value.asksForNull (v : Value) : Bool :=
  v.isNull || (v.list?.getD []).any Value.isNull

/-- The scan narrowed by one more condition. -/
def Scan.narrow (s : Scan) (bindings : Bindings) : Conjunct → Except Refusal Scan
  | .under ancestor =>
    match ancestor.resolveAncestor bindings with
    | .error _ => .error .unsupportedOperator
    | .ok k =>
      if s.ancestor.any (· != k) then .error .multipleAncestors
      else .ok { s with ancestor := some k }
  | .compare field op operand => do
    let some field := ScanField.ofField? field | throw .derivedField
    let some op := ScanOp.ofComparator? op | throw .unsupportedOperator
    let .ok v := operand.resolve bindings | throw .unsupportedOperator
    if v.asksForNull then throw .nullTest
    if op ≠ .within ∧ v.list?.isSome then throw .unsupportedOperator
    return { s with conditions := s.conditions ++ [⟨field, op, v⟩] }

/-- The scan narrowed by each condition in turn. -/
def Scan.narrowAll (s : Scan) (bindings : Bindings) : List Conjunct → Except Refusal Scan
  | [] => .ok s
  | c :: cs => do
    let s ← s.narrow bindings c
    s.narrowAll bindings cs

/-- The inequalities of a scan have to be on one field, with at most one bound on each side. -/
def Scan.checkInequalities (s : Scan) : Except Refusal Unit :=
  if s.inequalityFields.any (some · != s.inequalityFields.head?) then
    .error .multipleInequalityProperties
  else if 1 < s.conditions.countP (·.op.isLowerBound) ∨ 1 < s.conditions.countP (·.op.isUpperBound)
  then .error .conflictingRange
  else .ok ()

/-- The sort keys of a scan for an ordering. -/
def scanSorts : List SortKey → Except Refusal (List ScanSort)
  | [] => .ok []
  | k :: ks => do
    let some field := ScanField.ofField? k.field | throw .sortOnDerivedField
    let rest ← scanSorts ks
    return ⟨field, k.direction⟩ :: rest

/-- Whether an equality of the scan is on the field. -/
def Scan.pins (s : Scan) (f : ScanField) : Bool :=
  s.conditions.any fun c => c.op == .eq && c.field == f

/-- The scan sorted by an ordering. Keys that an equality pins may come first, and then the field of
the inequalities has to. -/
def Scan.sortBy (s : Scan) (ordering : List SortKey) : Except Refusal Scan := do
  let sorts ← scanSorts ordering
  match s.inequalityFields.head?, sorts.find? (!s.pins ·.field) with
  | some f, some first => if first.field ≠ f then throw .sortIncompatible
  | _, _ => pure ()
  return { s with sorts }

namespace Query

/-- The preference that a query is executed with: its own, or the given one where it has none. -/
def effectivePreference (q : Query) (preference : Preference) : Preference :=
  if q.preference = .auto then preference else q.preference

/-- The scan of a query's candidates, before its filter. Candidates at hand are scanned for by their
keys, and only if the store is asked for. -/
def candidateScan (q : Query) (preference : Preference) : Except Refusal Scan :=
  match q.candidates.rows? with
  | none => .ok { kind := q.kind }
  | some rows =>
    if preference = .native then
      .ok { kind := q.kind, conditions := [⟨.key, .within, .list (rows.map (.key ·.key))⟩] }
    else .error .candidatesInMemory

/-- The scan narrowed by the filter of a query. -/
def filterScan (q : Query) (bindings : Bindings) (s : Scan) : Except Refusal Scan :=
  match q.filter with
  | none => .ok s
  | some filter => do
    if filter.subquery?.isSome then throw .subquery
    let s ← s.narrowAll bindings (← filter.conjuncts)
    s.checkInequalities
    return s

/-- The scan that answers a query, if there is one. -/
def toScan (q : Query) (preference : Preference) (bindings : Bindings) : Except Refusal Scan := do
  if preference = .inMemory then throw .forcedInMemory
  let s ← q.candidateScan preference
  let s ← q.filterScan bindings s
  let s ← s.sortBy q.ordering
  return { s with window := q.window }

/-- Whether the store runs a query, where `preference` is the one for queries without their own. -/
def pushDown (q : Query) (preference : Preference) (bindings : Bindings) :
    Except Failure Pushdown := do
  q.validate bindings
  match q.toScan (q.effectivePreference preference) bindings with
  | .ok s => return .scan s
  | .error reason => return .refused reason

end Query
end EntityGraph
