import EntityGraph.Query.Condition

/-!
# Evaluation in memory

The truth of a filter on a row, and the rows that a query selects from a list of candidates: those
whose filter holds, sorted stably by the ordering and cut to the window.

Evaluation fails only where a parameter or a subquery is unbound or an ancestor is not a key; such
a query is malformed on every row.
-/

namespace EntityGraph

namespace Filter

mutual

/-- The truth of a filter on a row. The parts of a filter are evaluated in turn, all of them. -/
def evaluate (row : Row) (bindings : Bindings) : Filter → Except Failure Truth
  | and parts => evaluateAll row bindings parts
  | or parts => evaluateAny row bindings parts
  | not part => do
    let t ← evaluate row bindings part
    return t.not
  | compare field op operand => do
    let v ← operand.resolve bindings
    return Value.compareField (field.resolve row) op v
  | isNull field => return .ofBool ((field.resolve row).all Value.isNull)
  | isNotNull field => return .ofBool !((field.resolve row).all Value.isNull)
  | under ancestor => do
    match ← ancestor.resolve bindings with
    | .key k => return .ofBool (row.key.isWithin k)
    | v => throw (.ancestorNotKey v)
  | inSubquery field name =>
    match bindings.subqueries.get? name with
    | some results => return Value.compareField (field.resolve row) .within (.list results)
    | none => throw (.unboundSubquery name)

/-- Whether all filters hold. -/
def evaluateAll (row : Row) (bindings : Bindings) : List Filter → Except Failure Truth
  | [] => return .holds
  | f :: fs => do
    let t ← evaluate row bindings f
    let ts ← evaluateAll row bindings fs
    return t.and ts

/-- Whether any filter holds. -/
def evaluateAny (row : Row) (bindings : Bindings) : List Filter → Except Failure Truth
  | [] => return .fails
  | f :: fs => do
    let t ← evaluate row bindings f
    let ts ← evaluateAny row bindings fs
    return t.or ts

end

/-- The rows on which the filter holds. -/
def select (filter : Filter) (bindings : Bindings) : List Row → Except Failure (List Row)
  | [] => return []
  | row :: rows => do
    let t ← filter.evaluate row bindings
    let kept ← select filter bindings rows
    return if t = .holds then row :: kept else kept

end Filter

/-- The order of two rows under an ordering: the first key that tells them apart decides. -/
def compareRows (ordering : List SortKey) (a b : Row) : Ordering :=
  ordering.foldr
    (fun k rest =>
      (Value.sortCompare (k.field.resolve a) (k.field.resolve b) k.direction).then rest)
    .eq

/-- The rows that a query selects from its candidates. -/
def Query.select (q : Query) (bindings : Bindings) (candidates : List Row) :
    Except Failure (List Row) := do
  let kept ← match q.filter with
    | some filter => filter.select bindings candidates
    | none => pure candidates
  return q.window.slice (stableSort (compareRows q.ordering) kept)

end EntityGraph
