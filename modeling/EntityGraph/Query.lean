import EntityGraph.Query.Filter

/-!
# Queries

A query names a kind, where its candidates come from, a filter, an ordering and a window of the
ordered rows.
-/

namespace EntityGraph

/-- Where a query is evaluated: as a scan of the store if that is possible, in memory, or in the
store even if its candidates are at hand. -/
inductive Preference where
  | auto
  | inMemory
  | native
deriving DecidableEq

/-- The positions from `start` up to, but not including, `stop`; without `stop` all from `start`. -/
structure Window where
  start : UInt64 := 0
  stop : Option UInt64 := none
deriving DecidableEq

namespace Window

/-- Whether the window holds every position. -/
def isUnbounded (w : Window) : Bool := w.start == 0 && w.stop.isNone

/-- How many positions the window holds; none if it ends before it starts. -/
def limit? (w : Window) : Option UInt64 :=
  w.stop.map fun stop => if stop < w.start then 0 else stop - w.start

/-- The elements at the positions of the window. -/
def slice {α : Type} (w : Window) (xs : List α) : List α :=
  let rest := xs.drop w.start.toNat
  match w.limit? with
  | some n => rest.take n.toNat
  | none => rest

end Window

inductive Direction where
  | ascending
  | descending
deriving DecidableEq

/-- One key of an ordering. -/
structure SortKey where
  field : Field
  direction : Direction
deriving DecidableEq

/-- Where the candidate rows of a query come from. -/
inductive Candidates where
  /-- A fresh scan of the kind. -/
  | scan
  /-- The extent of the kind, with its rows if they are at hand. -/
  | extent (rows : Option (List Row))
  /-- Rows supplied by the caller. -/
  | collection (rows : List Row)

/-- The candidate rows that are at hand. -/
def Candidates.rows? : Candidates → Option (List Row)
  | scan => none
  | extent rows => rows
  | collection rows => some rows

/-- A query as the persistence layer hands it over. -/
structure Query where
  kind : String
  candidates : Candidates := .scan
  filter : Option Filter := none
  ordering : List SortKey := []
  window : Window := {}
  unique : Bool := false
  preference : Preference := .auto

end EntityGraph
