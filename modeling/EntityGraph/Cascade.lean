import EntityGraph.Cascade.Plan
import EntityGraph.Query.Execution

/-!
# Delete cascades

Deleting a row deletes its dependents and nulls the references to it. A cascade is staged in full
before anything is written: it follows the dependents of the owner, deepest first, reaching every
row at most once, and collects the references to null. A cascade that would break the consistency of
the objects, or that the policy forbids, is rejected without a write.
-/

namespace EntityGraph

/-- The fields of the row to delete whose related keys are at hand. They are taken for what is
related, whatever the store says. -/
abbrev LoadedFields := SortedMap String (List Key) compareText

/-- What a cascade deleted and nulled, in the order of the writes. -/
structure CascadeReport where
  deleted : List Key := []
  nulled : List Key := []
deriving DecidableEq

def CascadeReport.isEmpty (r : CascadeReport) : Bool := r.deleted.isEmpty && r.nulled.isEmpty

/-- A row to delete and the field that it was reached through. -/
structure StagedDelete where
  key : Key
  field : String

/-- A row to write with references nulled, and the first field that it was reached through. -/
structure StagedNull where
  row : Row
  field : String

/-- A row whose reference may not be null. -/
structure RequiredReference where
  related : Key
  error : CascadeError

/-- The writes of a cascade, as far as they have been found. -/
structure Staging where
  deletes : List StagedDelete := []
  nulls : List StagedNull := []
  /-- The rows that will be gone, the owner among them. -/
  doomed : List Key := []
  /-- The references that may not be null, which forbid the cascade unless their rows are doomed. -/
  required : List RequiredReference := []

namespace Staging

/-- Nulls a reference in a row, which is staged once however often it is reached. -/
def addNull (s : Staging) (row : Row) (field : String) : Staging :=
  if s.nulls.any (·.row.key == row.key) then
    { s with
      nulls := s.nulls.map fun n =>
        if n.row.key = row.key then { n with row := n.row.set field .null } else n }
  else { s with nulls := s.nulls ++ [⟨row.set field .null, field⟩] }

/-- The first required reference in a row that stays. -/
def brokenReference? (s : Staging) : Option RequiredReference :=
  s.required.find? (·.related ∉ s.doomed)

/-- The first row that the cascade writes outside the owner's entity group. -/
def outsider? (s : Staging) (owner : Key) : Option Key :=
  (s.deletes.map (·.key) ++ s.nulls.map (·.row.key)).find? fun k => !k.sameGroup owner

end Staging

namespace Cascade

/-- The failure of a store call made for a field of a row. -/
def storeFailure (owner : Key) (field : String) (cause : StoreError) : Failure :=
  .cascade (.store owner.text field cause)

/-- The number of rows that a cascade fetches at once. -/
def batchSize : Nat := 20

/-- The scan for the rows that refer to `owner` in a field. -/
def referrers (kind field : String) (owner : Key) : Scan :=
  { kind, conditions := [⟨.property field, .eq, .key owner⟩] }

/-- All rows of a snapshot. -/
def drainRows (snapshot : Snapshot) : StoreM (List Row) := fun s =>
  match BatchSource.drain batchSize snapshot s with
  | ((_, some e), s) => .error e s
  | ((rows, none), s) => .ok rows s

/-- All rows that a scan selects. -/
def scanRows (q : Scan) : StoreM (List Row) := do
  drainRows (← Store.scan q)

/-- The rows stored under keys; keys without a row are passed over. -/
def loadRows (keys : List Key) : StoreM (List Row) := do
  match keys with
  | [] => return []
  | k :: ks =>
    let row ← Store.get k
    let rows ← loadRows ks
    return row.toList ++ rows

/-- How a cascade looks at the store, for a field of a row with the given key. Staging looks at the
store in no other way. -/
structure Lookup (m : Type → Type) where
  /-- The rows stored under keys. -/
  load : Key → String → List Key → m (List Row)
  /-- The rows that a scan selects. -/
  scan : Key → String → Scan → m (List Row)

/-- Looking at the store of a running operation. -/
def storeLookup : Lookup Action where
  load owner field keys := Action.onStore (storeFailure owner field) (loadRows keys)
  scan owner field q := Action.onStore (storeFailure owner field) (scanRows q)

/-- Rejects a join field that holds keys, unless the policy is to leave it alone. -/
def checkReserved (policy : CascadePolicy) (row : Row) (field : String) : Except Failure Unit :=
  if ((row.get? field).map Value.referencedKeys).getD [] = [] then .ok ()
  else
    match policy.joinFields with
    | .reject => .error (.cascade (.joinField row.key.text row.kind field))
    | .skip => .ok ()

/-- The field of the related class that a field of a class maps by. -/
def mappedField (schema : Schema) (kind field target mappedBy : String) :
    Except Failure ClassField := do
  match ← schema.field? target mappedBy with
  | some mapping => return mapping
  | none => throw (.cascade (.missingMapping kind field target mappedBy))

/-- Stages one row that refers to `owner`, which is to be deleted. -/
def stageReferrer (owner : Key) (field target mappedBy : String) (nullable : Bool) (s : Staging)
    (related : Row) : Staging :=
  if related.key ∈ s.doomed then s
  else if nullable then s.addNull related mappedBy
  else
    { s with
      required := s.required ++
        [⟨related.key, .requiredReference owner.text field target mappedBy⟩] }

section Stage

variable {m : Type → Type} [Monad m] [MonadExcept Failure m] (look : Lookup m)

/-- The dependents of a row through a field: those at hand, else the rows directly under it if the
field is owned, else the rows that refer to it, else the rows that it refers to. -/
def dependents (row : Row) (loaded : LoadedFields) (field target : String) (owned : Bool)
    (mappedBy : Option String) : m (List Row) :=
  match loaded.get? field, owned, mappedBy with
  | some keys, _, _ => look.load row.key field keys
  | none, true, _ => do
    let rows ← look.scan row.key field { kind := target, ancestor := some row.key }
    return rows.filter fun r => r.key.parent == some row.key
  | none, false, some back => look.scan row.key field (referrers target back row.key)
  | none, false, none =>
    look.load row.key field (((row.get? field).map Value.referencedKeys).getD [])

/-- Stages a dependent that was reached through a field, and whatever `visit` stages for it, unless
the dependent has been reached before. -/
def stageDependent (visit : Row → Staging → m Staging) (field : String) (s : Staging)
    (child : Row) : m Staging :=
  if child.key ∈ s.doomed then return s
  else do
    let s ← visit child { s with doomed := child.key :: s.doomed }
    return { s with deletes := s.deletes ++ [⟨child.key, field⟩] }

/-- Stages a strategy that deletes dependents. -/
def stageDelete (visit : Row → Staging → m Staging) (loaded : LoadedFields) (row : Row)
    (s : Staging) : Strategy → m Staging
  | .deleteDependents field target owned mappedBy => do
    let children ← dependents look row loaded field target owned mappedBy
    children.foldlM (stageDependent visit field) s
  | _ => return s

/-- Stages a strategy that nulls references: those to a row through the field of a one-to-one
relation. -/
def stageNull (schema : Schema) (row : Row) (s : Staging) : Strategy → m Staging
  | .nullReference field target mappedBy => do
    let mapping ← MonadExcept.ofExcept (mappedField schema row.kind field target mappedBy)
    let related ← look.scan row.key field (referrers target mappedBy row.key)
    return related.foldl (stageReferrer row.key field target mappedBy mapping.nullable) s
  | _ => return s

variable (schema : Schema) (policy : CascadePolicy)

/-- Stages what deleting a row means for the rows related to it, where `visit` does so for its
dependents. -/
def stageRelated (visit : Row → Staging → m Staging) (loaded : LoadedFields) (row : Row)
    (s : Staging) : m Staging := do
  let plan ← MonadExcept.ofExcept (CascadePlan.ofClass schema row.kind)
  plan.reserved.forM fun strategy =>
    MonadExcept.ofExcept (checkReserved policy row strategy.field)
  let s ← plan.deletes.foldlM (stageDelete look visit loaded row) s
  plan.nulls.foldlM (stageNull look schema row) s

/-- Stages what deleting a row means, through at most `depth` rows in depth; `bottom` takes the rows
below. The fields at hand are those of the row itself. -/
def stageWithin (bottom : Row → Staging → m Staging) :
    Nat → LoadedFields → Row → Staging → m Staging
  | 0, _ => bottom
  | depth + 1, loaded => stageRelated look schema policy (stageWithin bottom depth .empty) loaded

end Stage

/-- Rejects a cascade of a transaction that leaves the owner's entity group, unless the policy is to
let it. -/
def checkGroup (policy : CascadePolicy) (scope : Scope) (owner : Key) (s : Staging) :
    Except Failure Unit :=
  if scope.transactional then
    match s.outsider? owner, policy.crossGroup with
    | some related, .reject => .error (.cascade (.crossGroup owner.text related.text))
    | _, _ => .ok ()
  else .ok ()

/-- Stages what deleting a row means. Each step down reaches another row of the store, so that none
is left below a depth of `size + 1` rows. -/
def stageRow {m : Type → Type} [Monad m] [MonadExcept Failure m] (look : Lookup m)
    (schema : Schema) (policy : CascadePolicy) (size : Nat) (loaded : LoadedFields) (owner : Row) :
    m Staging :=
  stageWithin look schema policy (fun _ s => return s) (size + 1) loaded owner
    { doomed := [owner.key] }

/-- Rejects a cascade that breaks a required reference, or that leaves the owner's entity group. -/
def checkStaging (policy : CascadePolicy) (scope : Scope) (owner : Key) (s : Staging) :
    Except Failure Unit :=
  match s.brokenReference? with
  | some r => .error (.cascade r.error)
  | none => checkGroup policy scope owner s

/-- Finds all writes of a cascade. No row is changed. -/
def stage (schema : Schema) (policy : CascadePolicy) (loaded : LoadedFields) (owner : Row) :
    Action Staging := do
  let ctx ← get
  let s ← stageRow storeLookup schema policy ctx.store.size loaded owner
  MonadExcept.ofExcept (checkStaging policy ctx.scope owner.key s)
  return s

/-- Carries out the writes of a cascade: the deletes, the nulls, and the owner's own delete if
`deleteOwner` is set. -/
def apply (owner : Key) (s : Staging) (deleteOwner : Bool) : Action CascadeReport := do
  s.deletes.forM fun d => Action.onStore (storeFailure owner d.field) (Store.delete d.key)
  let nulled ← (s.nulls.filter (·.row.key ∉ s.doomed)).mapM fun n =>
    Action.onStore (storeFailure owner n.field) (Store.put n.row)
  if deleteOwner then Action.onStore (.deleteStore owner) (Store.delete owner)
  return ⟨s.deletes.map (·.key) ++ (if deleteOwner then [owner] else []), nulled⟩

/-- Reports a rejected cascade. -/
def rejecting {α : Type} (kind : String) (body : Action α) : Action α := fun ctx =>
  match body ctx with
  | .ok a ctx => .ok a ctx
  | .error e ctx => .error e (ctx.emit (.cascadeRejected kind))

/-- Stages and carries out a cascade. -/
def run (schema : Schema) (policy : CascadePolicy) (loaded : LoadedFields) (owner : Row)
    (deleteOwner : Bool) : Action CascadeReport :=
  Action.counted .delete owner.kind do
    let s ← rejecting owner.kind (stage schema policy loaded owner)
    let report ← apply owner.key s deleteOwner
    Action.touch report.deleted.length
    Action.emit (.cascaded owner.kind s.deletes.length report.nulled.length)
    return report

/-- Deletes the dependents of a row and nulls the references to it, and leaves the row itself. -/
def execute (schema : Schema) (policy : CascadePolicy) (loaded : LoadedFields) (owner : Row) :
    Action CascadeReport :=
  run schema policy loaded owner false

/-- Deletes a row, with its dependents before it. -/
def delete (schema : Schema) (policy : CascadePolicy) (loaded : LoadedFields) (owner : Row) :
    Action CascadeReport :=
  run schema policy loaded owner true

end Cascade
end EntityGraph
