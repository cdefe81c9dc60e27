import EntityGraph.Query.Pushdown

/-!
# Events

What the operations of the library report of themselves: when a call starts and finishes, how a
query was planned, and what became of cursors and cascades.
-/

namespace EntityGraph

/-- The calls that are counted. -/
inductive CallKind where
  | query
  | insert
  | delete
deriving DecidableEq

/-- Where a query was evaluated. -/
inductive Path where
  | native
  | inMemory
deriving DecidableEq

inductive Event where
  | started (call : CallKind) (kind : String)
  | finished (call : CallKind) (kind : String) (rows : Nat)
  | planned (kind : String) (path : Path)
  | refused (kind : String) (reason : Refusal)
  | scanned (kind : String) (rows : Nat)
  | notUnique (kind : String)
  | disconnected (rows : Nat)
  | cascaded (kind : String) (deleted nulled : Nat)
  | cascadeRejected (kind : String)
deriving DecidableEq

end EntityGraph
