import EntityGraph.Cascade.Error
import EntityGraph.ObjectHandle
import EntityGraph.Query
import EntityGraph.Value.Text

/-!
# Failures

`Failure` lists the causes for which an operation of the library fails. `Failure.report` classifies
a cause: what class of failure it is, which part found it, its message, and the error that it wraps.
A report is what callers see; `Failure.Report.isRetryable` says when to try again.
-/

namespace EntityGraph

/-- Why an engine configuration is refused. -/
inductive ConfigError where
  | unreadable
  | zeroBatchSize
  | zeroCandidateCap
deriving DecidableEq

def ConfigError.message : ConfigError → String
  | unreadable => "failed to parse engine config"
  | zeroBatchSize => "invalid engine config: query.cursor_batch_size must be greater than 0"
  | zeroCandidateCap =>
    "invalid engine config: query.max_in_memory_candidates must be greater than 0 when set"

/-- The cause of a failed operation. -/
inductive Failure where
  /-- A query without a kind. -/
  | emptyKind
  /-- A window that ends before it starts. -/
  | invertedWindow (start stop : UInt64)
  /-- A field without a name. -/
  | emptyFieldName
  | unboundParameter (name : String)
  | unboundSubquery (name : String)
  /-- A membership test in something that is not a list. -/
  | withinNeedsList (field : Field)
  | incompleteAncestor (key : Key)
  | ancestorNotKey (found : Value)
  /-- More candidates than may be evaluated in memory. -/
  | candidateCap (kind : String) (cap : UInt64)
  /-- More than one row for a query that is to have one. -/
  | notUnique (kind : String) (count : Nat)
  | queryStore (kind : String) (cause : StoreError)
  | cursorStore (kind : String) (cause : StoreError)
  /-- An object that belongs to another scope. -/
  | foreignObject (object : ObjectHandle) (scope : ScopeId)
  /-- A parent that has not been written. -/
  | incompleteParent (key : Key)
  /-- A row with a complete key, registered under another parent. -/
  | fixedParent (key parent : Key)
  /-- Several children in a field that holds one reference. -/
  | singleReference (kind field : String) (count : Nat)
  | insertStore (kind : String) (cause : StoreError)
  | refreshStore (key : Key) (cause : StoreError)
  | deleteStore (owner : Key) (cause : StoreError)
  | inheritanceCycle (current start : String)
  | unknownClass (current start : String)
  | duplicateClass (name : String)
  | unknownField (kind field : String)
  | notOwned (kind field : String)
  | cascade (e : CascadeError)
  | key (e : KeyError)
  | config (e : ConfigError)

namespace Failure

/-- What kind of failure it is. -/
inductive Category where
  /-- The caller asked for something that makes no sense. -/
  | malformed
  /-- The request makes sense but is not done. -/
  | unsupported
  /-- The store failed; the caller may try again. -/
  | execution
  | conflict
  /-- The objects would no longer be consistent. -/
  | integrity
  | configuration
  | invariantViolation
  | internal
deriving DecidableEq

def Category.text : Category → String
  | .malformed => "malformed"
  | .unsupported => "unsupported"
  | .execution => "execution"
  | .conflict => "conflict"
  | .integrity => "integrity"
  | .configuration => "configuration"
  | .invariantViolation => "invariant_violation"
  | .internal => "internal"

/-- Which part found the failure. -/
inductive Origin where
  | key
  | store
  | query
  | cursor
  | registry
  | write
  | cascade
  | model
  | config
deriving DecidableEq

def Origin.text : Origin → String
  | .key => "key"
  | .store => "store"
  | .query => "query"
  | .cursor => "cursor"
  | .registry => "registry"
  | .write => "write"
  | .cascade => "cascade"
  | .model => "model"
  | .config => "config"

/-- The error that a failure wraps. -/
inductive Detail where
  | store (e : StoreError)
  | cascade (e : CascadeError)
  | notUnique (kind : String) (count : Nat)
  | key (e : KeyError)
deriving DecidableEq

def Detail.message : Detail → String
  | .store e => e.message
  | .cascade e => e.message
  | .notUnique kind count =>
    "expected at most one '" ++ kind ++ "' row, found " ++ toString count ++ " or more"
  | .key e => e.message

/-- A classified failure. -/
structure Report where
  category : Category
  origin : Origin
  message : String
  detail : Option Detail := none
deriving DecidableEq

namespace Report

/-- Whether the caller may try the whole operation again. -/
def isRetryable (r : Report) : Bool := r.category == .execution

def isMalformed (r : Report) : Bool := r.category == .malformed

def storeError? (r : Report) : Option StoreError :=
  match r.detail with
  | some (.store e) => some e
  | _ => none

def cascadeError? (r : Report) : Option CascadeError :=
  match r.detail with
  | some (.cascade e) => some e
  | _ => none

/-- The message behind its origin and category. -/
def textWithCategory (r : Report) : String :=
  r.origin.text ++ ":" ++ r.category.text ++ ": " ++ r.message

end Report

def malformedQuery (message : String) : Report := ⟨.malformed, .query, message, none⟩

def storeReport (origin : Origin) (context : String) (cause : StoreError) : Report :=
  ⟨.execution, origin, context ++ ": " ++ cause.message, some (.store cause)⟩

def modelReport (message : String) : Report := ⟨.configuration, .model, message, none⟩

/-- The category of a cascade failure. -/
def cascadeCategory : CascadeError → Category
  | .requiredReference .. => .integrity
  | .missingMapping .. => .configuration
  | .joinField .. => .unsupported
  | .crossGroup .. => .unsupported
  | .store .. => .execution

/-- How a cause is shown to callers. -/
def report : Failure → Report
  | emptyKind => malformedQuery "query kind must be non-empty"
  | invertedWindow start stop =>
    malformedQuery ("invalid query range [" ++ toString start.toNat ++ ", " ++
      toString stop.toNat ++ "): upper bound precedes lower bound")
  | emptyFieldName => malformedQuery "field name must be non-empty"
  | unboundParameter name => malformedQuery s!"query parameter ':{name}' is not bound"
  | unboundSubquery name => malformedQuery s!"subquery '{name}' has no bound results"
  | withinNeedsList field =>
    malformedQuery ("'in' comparison on '" ++ field.text ++ "' requires a list operand")
  | incompleteAncestor k =>
    malformedQuery ("ancestor filter key " ++ k.text ++ " is incomplete")
  | ancestorNotKey found =>
    malformedQuery ("ancestor filter requires a key operand, found " ++ found.describe)
  | candidateCap kind cap =>
    ⟨.unsupported, .query, "in-memory evaluation of '" ++ kind ++
      "' exceeds the candidate cap of " ++ toString cap.toNat ++ " rows", none⟩
  | notUnique kind count =>
    ⟨.conflict, .query, (Detail.notUnique kind count).message, some (.notUnique kind count)⟩
  | queryStore kind cause => storeReport .store s!"query on kind '{kind}' failed" cause
  | cursorStore kind cause => storeReport .cursor s!"cursor fetch on kind '{kind}' failed" cause
  | foreignObject object scope =>
    ⟨.invariantViolation, .registry, "object handle " ++ object.text ++ " belongs to scope " ++
      object.scope.text ++ ", not " ++ scope.text, none⟩
  | incompleteParent k =>
    ⟨.invariantViolation, .registry, "parent key " ++ k.text ++
      " is incomplete; write the parent before registering children", none⟩
  | fixedParent k parent =>
    ⟨.invariantViolation, .write, "cannot re-parent " ++ k.text ++ " under " ++ parent.text ++
      ": complete keys are immutable", none⟩
  | singleReference kind field count =>
    ⟨.invariantViolation, .write, "field '" ++ kind ++ "." ++ field ++
      "' holds a single reference but " ++ toString count ++ " children were supplied", none⟩
  | insertStore kind cause => storeReport .write s!"insert of '{kind}'" cause
  | refreshStore k cause => storeReport .write ("rewrite of " ++ k.text) cause
  | deleteStore owner cause => storeReport .write ("delete of " ++ owner.text) cause
  | inheritanceCycle current start =>
    modelReport s!"inheritance cycle through class '{current}' (starting at '{start}')"
  | unknownClass current start =>
    modelReport s!"class '{current}' is not registered (lineage of '{start}')"
  | duplicateClass name => modelReport s!"class '{name}' is already registered"
  | unknownField kind field => modelReport s!"class '{kind}' has no field '{field}'"
  | notOwned kind field => modelReport s!"field '{kind}.{field}' is not an owned relationship"
  | cascade e => ⟨cascadeCategory e, .cascade, e.message, some (.cascade e)⟩
  | key e => ⟨.invariantViolation, .key, e.message, some (.key e)⟩
  | config e => ⟨.configuration, .config, e.message, none⟩

end Failure
end EntityGraph
