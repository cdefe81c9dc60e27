import EntityGraph.Event
import EntityGraph.StableSort

/-!
# Metrics

Events are counted over all (`Totals`) and by kind (`KindCounters`); what is kept by kind is a part
of what is kept over all, and each side has its own way of counting. Counters stop at their
greatest value. A report lists the kinds by how many rows their queries return on average.
-/

namespace EntityGraph

/-- A count that stops at the greatest 64-bit number. -/
structure Counter where
  value : UInt64 := 0
deriving DecidableEq

namespace Counter

/-- The counter after `n` more. -/
def add (c : Counter) (n : Nat) : Counter :=
  ⟨UInt64.ofNat (min (c.value.toNat + n) (UInt64.size - 1))⟩

/-- The quotient of two counters as a number, zero if the second is. -/
def ratio (a b : Counter) : Double :=
  if b.value = 0 then ⟨0⟩ else (Double.ofNat a.value.toNat).quotient (Double.ofNat b.value.toNat)

end Counter

/-- The counters over all. -/
structure Totals where
  queries : Counter := {}
  inserts : Counter := {}
  deletes : Counter := {}
  plannedNative : Counter := {}
  plannedInMemory : Counter := {}
  rowsReturned : Counter := {}
  rowsScanned : Counter := {}
  rowsWritten : Counter := {}
  rowsDeleted : Counter := {}
  cursorDisconnects : Counter := {}
  rowsBuffered : Counter := {}
  cascadeDeletes : Counter := {}
  cascadeNulls : Counter := {}
  cascadeRejections : Counter := {}
  uniqueViolations : Counter := {}
deriving DecidableEq

namespace Totals

/-- The counters over all after an event. -/
def record (t : Totals) : Event → Totals
  | .started .query _ => { t with queries := t.queries.add 1 }
  | .started .insert _ => { t with inserts := t.inserts.add 1 }
  | .started .delete _ => { t with deletes := t.deletes.add 1 }
  | .finished .query _ rows => { t with rowsReturned := t.rowsReturned.add rows }
  | .finished .insert _ rows => { t with rowsWritten := t.rowsWritten.add rows }
  | .finished .delete _ rows => { t with rowsDeleted := t.rowsDeleted.add rows }
  | .planned _ .native => { t with plannedNative := t.plannedNative.add 1 }
  | .planned _ .inMemory => { t with plannedInMemory := t.plannedInMemory.add 1 }
  | .scanned _ rows => { t with rowsScanned := t.rowsScanned.add rows }
  | .notUnique _ => { t with uniqueViolations := t.uniqueViolations.add 1 }
  | .disconnected rows =>
    { t with
      cursorDisconnects := t.cursorDisconnects.add 1
      rowsBuffered := t.rowsBuffered.add rows }
  | .cascaded _ deleted nulled =>
    { t with
      cascadeDeletes := t.cascadeDeletes.add deleted
      cascadeNulls := t.cascadeNulls.add nulled }
  | .cascadeRejected _ => { t with cascadeRejections := t.cascadeRejections.add 1 }
  | .refused .. => t

/-- The counters over all by their names in a report. -/
def named (t : Totals) : List (String × Counter) :=
  [("query_calls", t.queries), ("insert_calls", t.inserts), ("delete_calls", t.deletes),
    ("plan_native", t.plannedNative), ("plan_in_memory", t.plannedInMemory),
    ("rows_returned", t.rowsReturned), ("rows_scanned", t.rowsScanned),
    ("rows_written", t.rowsWritten), ("rows_deleted", t.rowsDeleted),
    ("cursor_disconnects", t.cursorDisconnects), ("rows_buffered", t.rowsBuffered),
    ("cascade_deletes", t.cascadeDeletes), ("cascade_nulls", t.cascadeNulls),
    ("cascade_rejections", t.cascadeRejections), ("unique_violations", t.uniqueViolations)]

end Totals

/-- The counters of one kind. -/
structure KindCounters where
  queries : Counter := {}
  inserts : Counter := {}
  deletes : Counter := {}
  plannedNative : Counter := {}
  plannedInMemory : Counter := {}
  rowsReturned : Counter := {}
  rowsScanned : Counter := {}
  rowsWritten : Counter := {}
  rowsDeleted : Counter := {}
  cascadeDeletes : Counter := {}
  cascadeRejections : Counter := {}
  uniqueViolations : Counter := {}
deriving DecidableEq

namespace KindCounters

/-- The counters of a kind after an event of that kind. What cascades set to null is not counted
by kind. -/
def record (c : KindCounters) : Event → KindCounters
  | .started .query _ => { c with queries := c.queries.add 1 }
  | .started .insert _ => { c with inserts := c.inserts.add 1 }
  | .started .delete _ => { c with deletes := c.deletes.add 1 }
  | .finished .query _ rows => { c with rowsReturned := c.rowsReturned.add rows }
  | .finished .insert _ rows => { c with rowsWritten := c.rowsWritten.add rows }
  | .finished .delete _ rows => { c with rowsDeleted := c.rowsDeleted.add rows }
  | .planned _ .native => { c with plannedNative := c.plannedNative.add 1 }
  | .planned _ .inMemory => { c with plannedInMemory := c.plannedInMemory.add 1 }
  | .scanned _ rows => { c with rowsScanned := c.rowsScanned.add rows }
  | .notUnique _ => { c with uniqueViolations := c.uniqueViolations.add 1 }
  | .cascaded _ deleted _ => { c with cascadeDeletes := c.cascadeDeletes.add deleted }
  | .cascadeRejected _ => { c with cascadeRejections := c.cascadeRejections.add 1 }
  | .refused .. | .disconnected _ => c

/-- The counters of a kind by their names in a report. -/
def named (c : KindCounters) : List (String × Counter) :=
  [("query_calls", c.queries), ("insert_calls", c.inserts), ("delete_calls", c.deletes),
    ("plan_native", c.plannedNative), ("plan_in_memory", c.plannedInMemory),
    ("rows_returned", c.rowsReturned), ("rows_scanned", c.rowsScanned),
    ("rows_written", c.rowsWritten), ("rows_deleted", c.rowsDeleted),
    ("cascade_deletes", c.cascadeDeletes), ("cascade_rejections", c.cascadeRejections),
    ("unique_violations", c.uniqueViolations)]

/-- The queries that were planned. -/
def planned (c : KindCounters) : Counter := c.plannedNative.add c.plannedInMemory.value.toNat

end KindCounters

/-- The kind that an event counts for. -/
def Event.kind? : Event → Option String
  | .started _ kind => some kind
  | .finished _ kind _ => some kind
  | .planned kind _ => some kind
  | .scanned kind _ => some kind
  | .notUnique kind => some kind
  | .cascaded kind .. => some kind
  | .cascadeRejected kind => some kind
  | .refused .. | .disconnected _ => none

/-- The counters of a window of time. -/
structure Metrics where
  /-- When the window began, in milliseconds. -/
  since : UInt64 := 0
  totals : Totals := {}
  kinds : SortedMap String KindCounters compareText := .empty
  /-- How often the store was not asked, by the label of the reason. -/
  refusals : SortedMap String Counter compareText := .empty

namespace Metrics

/-- Counts an event by its kind. -/
def recordKind (m : Metrics) (e : Event) : Metrics :=
  match e.kind? with
  | some kind => { m with kinds := m.kinds.update kind fun c => (c.getD {}).record e }
  | none => m

/-- Counts a reason for not asking the store. -/
def recordRefusal (m : Metrics) : Event → Metrics
  | .refused _ reason =>
    { m with refusals := m.refusals.update reason.label fun c => (c.getD {}).add 1 }
  | _ => m

/-- The metrics after an event. -/
def record (m : Metrics) (e : Event) : Metrics :=
  ({ m with totals := m.totals.record e }.recordKind e).recordRefusal e

/-- The metrics after events, in turn. -/
def recordAll (m : Metrics) (es : List Event) : Metrics := es.foldl record m

/-- The counters over all by their names in a report. -/
def named (m : Metrics) : List (String × Counter) := m.totals.named

/-- The counters of a kind, and what follows from them. -/
structure Summary where
  kind : String
  counters : KindCounters

namespace Summary

/-- The rows that a query of the kind returns on average. -/
def averageRows (s : Summary) : Double := s.counters.rowsReturned.ratio s.counters.queries

/-- The share of the kind's queries that the store ran. -/
def nativeRatio (s : Summary) : Double := s.counters.plannedNative.ratio s.counters.planned

/-- The counters that a summary shows, by their names. -/
def named (s : Summary) : List (String × Counter) :=
  [("query_calls", s.counters.queries), ("delete_calls", s.counters.deletes),
    ("rows_returned", s.counters.rowsReturned), ("rows_scanned", s.counters.rowsScanned),
    ("rows_deleted", s.counters.rowsDeleted), ("cascade_deletes", s.counters.cascadeDeletes),
    ("unique_violations", s.counters.uniqueViolations)]

/-- The order of the summaries: more rows on average first, then more rows, then by kind. -/
protected def compare (a b : Summary) : Ordering :=
  ((b.averageRows.compare? a.averageRows).getD .eq).then <|
    (Ord.compare b.counters.rowsReturned.value a.counters.rowsReturned.value).then <|
      compareText a.kind b.kind

end Summary

/-- The summaries of all kinds. -/
def summaries (m : Metrics) : List Summary :=
  stableSort Summary.compare (m.kinds.entries.map fun e => ⟨e.1, e.2⟩)

/-- Whether the window began at `start` or later; any does if no time is given. -/
def isSince (m : Metrics) (start : Option UInt64) : Bool := start.all (· ≤ m.since)

end Metrics
end EntityGraph
