import EntityGraph.Store.Error

/-!
# Cascade failures

Why a delete cascade cannot go on. Rows are given by the text of their keys.
-/

namespace EntityGraph

inductive CascadeError where
  /-- A reference to a deleted row may not be null and its row stays. -/
  | requiredReference (owner field relatedKind mappedBy : String)
  /-- The related class lacks the field that a relation maps by. -/
  | missingMapping (owner field target mappedBy : String)
  /-- A join field holds a value, and deleting it has no defined meaning. -/
  | joinField (owner kind field : String)
  /-- A transaction would touch a second entity group. -/
  | crossGroup (owner related : String)
  /-- The store failed. -/
  | store (owner field : String) (cause : StoreError)
deriving DecidableEq

namespace CascadeError

def message : CascadeError → String
  | requiredReference owner field relatedKind mappedBy =>
    s!"cannot null non-nullable back-reference '{relatedKind}.{mappedBy}' while deleting {owner}" ++
      s!" (field '{field}')"
  | missingMapping kind field target mappedBy =>
    s!"field '{kind}.{field}' maps by '{mappedBy}', which '{target}' does not declare"
  | joinField owner kind field =>
    s!"join relationship '{kind}.{field}' on {owner} has no cascade behavior"
  | crossGroup owner related =>
    s!"cascade from {owner} would touch {related} outside its entity group"
  | store owner field cause =>
    "store write failed while cascading " ++ owner ++ " (field '" ++ field ++ "'): " ++
      cause.message

end CascadeError
end EntityGraph
