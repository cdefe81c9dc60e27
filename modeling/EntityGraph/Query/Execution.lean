import EntityGraph.Config
import EntityGraph.Scope

/-!
# Executing queries

A query is run by the store where it can be, and its rows are then handed out through a cursor;
otherwise its candidates are gathered and evaluated in memory. A query for a unique row fails if
there is a second one, before it answers.
-/

namespace EntityGraph

/-- The result of a query: rows, or a cursor over rows still in the store. -/
inductive Result where
  | rows (path : Path) (rest : List Row)
  | stream (cursor : CursorId)

namespace Result

/-- Where the query was evaluated. -/
def path : Result → Path
  | rows path _ => path
  | stream _ => .native

def cursor? : Result → Option CursorId
  | rows .. => none
  | stream id => some id

end Result

namespace Action

/-- The next row of a cursor. -/
def nextRow (c : Cursor Snapshot) : Action (Except StoreError (Option Row) × Cursor Snapshot) :=
  modifyGet fun ctx =>
    let ((row, c), store) := c.next ctx.store
    ((row, c), { ctx with store })

/-- Keeps a cursor for the caller and has the scope follow it. -/
def openCursor (c : Cursor Snapshot) : Action CursorId :=
  modifyGet fun ctx =>
    let scope := ctx.scope.track ctx.held ctx.held.next
    let (id, held) := ctx.held.add c
    (id, { ctx with scope, held })

end Action

namespace Query

/-- Refuses more candidates than the configuration allows. -/
def checkCap (kind : String) (config : QueryConfig) (count : Nat) : Except Failure Unit :=
  match config.candidateCap with
  | some cap => if cap.toNat < count then .error (.candidateCap kind cap) else .ok ()
  | none => .ok ()

/-- Gathers `gathered` and the rows of at most `fuel` batches of a snapshot. -/
def gatherUpTo (kind : String) (config : QueryConfig) :
    Nat → Snapshot → List Row → Action (List Row)
  | 0, _, gathered => return gathered
  | fuel + 1, snapshot, gathered => do
    let (batch, snapshot) ←
      Action.onStore (.queryStore kind) (Store.fetch config.batchSize.toNat snapshot)
    if batch.isEmpty then return gathered
    MonadExcept.ofExcept (checkCap kind config (gathered ++ batch).length)
    gatherUpTo kind config fuel snapshot (gathered ++ batch)

/-- The candidate rows of a query: those at hand, or all rows of its kind. -/
def gather (q : Query) (config : QueryConfig) : Action (List Row) := do
  match q.candidates.rows? with
  | some rows =>
    MonadExcept.ofExcept (checkCap q.kind config rows.length)
    return rows
  | none =>
    let snapshot ← Action.onStore (.queryStore q.kind) (Store.scan { kind := q.kind })
    gatherUpTo q.kind config (snapshot.rows.length + 1) snapshot []

/-- Reports and fails a query that has more than one row. -/
def failNotUnique {α : Type} (kind : String) (count : Nat) : Action α := do
  Action.emit (.notUnique kind)
  throw (.notUnique kind count)

/-- The one row of a cursor, if it has any; at most two are looked at. -/
def uniqueRow (kind : String) (c : Cursor Snapshot) : Action (List Row) := do
  match ← Action.nextRow c with
  | (.error e, _) => throw (.cursorStore kind e)
  | (.ok none, _) => return []
  | (.ok (some first), c) =>
    match ← Action.nextRow c with
    | (.error e, _) => throw (.cursorStore kind e)
    | (.ok none, _) => return [first]
    | (.ok (some _), _) => failNotUnique kind 2

/-- Runs a query as a scan of the store. -/
def executeScan (q : Query) (config : QueryConfig) (unique : Bool) (scan : Scan) :
    Action Result := do
  Action.emit (.planned q.kind .native)
  let snapshot ← Action.onStore (.queryStore q.kind) (Store.scan scan)
  let cursor := Cursor.ofSource q.kind snapshot config.batchSize.toNat
  if unique then
    let rows ← uniqueRow q.kind cursor
    Action.touch rows.length
    return .rows .native rows
  else return .stream (← Action.openCursor cursor)

/-- Runs a query in memory. -/
def executeInMemory (q : Query) (config : QueryConfig) (bindings : Bindings) (unique : Bool) :
    Action Result := do
  Action.emit (.planned q.kind .inMemory)
  let candidates ← q.gather config
  Action.emit (.scanned q.kind candidates.length)
  let rows ← MonadExcept.ofExcept (q.select bindings candidates)
  if unique && 1 < rows.length then failNotUnique q.kind rows.length
  Action.touch rows.length
  return .rows .inMemory rows

/-- Runs a query, for a unique row if `unique` is set. -/
def executeFor (q : Query) (config : QueryConfig) (bindings : Bindings) (unique : Bool) :
    Action Result :=
  Action.counted .query q.kind do
    match ← MonadExcept.ofExcept (q.pushDown config.preference bindings) with
    | .scan s => q.executeScan config unique s
    | .refused reason =>
      Action.emit (.refused q.kind reason)
      q.executeInMemory config bindings unique

/-- Runs a query. -/
def execute (q : Query) (config : QueryConfig) (bindings : Bindings) : Action Result :=
  q.executeFor config bindings q.unique

end Query

namespace Result

/-- Hands out the next row of a result, and nothing at the end. -/
def next : Result → Action (Option Row × Result)
  | rows path [] => return (none, rows path [])
  | rows path (r :: rest) => return (some r, rows path rest)
  | stream id => do
    match ← modifyGet (·.next id) with
    | none => return (none, stream id)
    | some row => return (← MonadExcept.ofExcept row, stream id)

/-- Lets go of a result. -/
def drop : Result → Action Unit
  | rows .. => pure ()
  | stream id => modify fun ctx => { ctx with held := ctx.held.drop id }

/-- All rows that a result has yet to hand out, or the failure among them. The result is used up. -/
def readAll : Result → Action (List Row)
  | rows _ rest => return rest
  | stream id => do
    match (← get).held.get? id with
    | none => return []
    | some c =>
      let all ← modifyGet fun ctx =>
        let (all, store) := c.readAll ctx.store
        (all, { ctx with store, held := ctx.held.drop id })
      match all with
      | .ok all => return all
      | .error e => throw (.cursorStore c.kind e)

end Result

namespace Query

/-- Runs a query and reads all its rows. -/
def rows (q : Query) (config : QueryConfig) (bindings : Bindings) : Action (List Row) := do
  (← q.execute config bindings).readAll

/-- Runs a query for its one row, if it has any. -/
def uniqueRow? (q : Query) (config : QueryConfig) (bindings : Bindings) : Action (Option Row) := do
  let (row, _) ← (← q.executeFor config bindings true).next
  return row

end Query
end EntityGraph
