import EntityGraph.Key.Order
import EntityGraph.Scan

/-!
# The store

An ancestor-keyed store held in memory. It keeps its rows in key order, gives out numbers to rows
that are written with an incomplete key, counts and logs what is asked of it, and fails calls on
demand: faults may be injected that let some calls pass and fail a later one.

A scan is answered at once, as a `Snapshot`, and handed out in batches. Calls that fail change
nothing but the faults.
-/

namespace EntityGraph

/-- The kinds of call that a fault may be injected on. -/
inductive StoreCall where
  | get
  | put
  | delete
  | scan
  | fetch
deriving DecidableEq

/-- A failure that is due after `skip` further calls of its kind. -/
structure Fault where
  call : StoreCall
  skip : Nat
  error : StoreError

/-- How often the store was asked for what. -/
structure StoreStats where
  gets : Nat := 0
  puts : Nat := 0
  deletes : Nat := 0
  scans : Nat := 0
  batches : Nat := 0
  rows : Nat := 0
deriving DecidableEq

/-- A write or scan that the store carried out. -/
inductive StoreEntry where
  | put (key : Key)
  | delete (key : Key)
  | scan (kind : String)
deriving DecidableEq

/-- Properties of rows by key. Rows are stored under complete keys. -/
structure RowTable where
  byKey : SortedMap Key Properties Key.compare
  complete : ∀ e ∈ byKey.entries, e.1.isComplete

namespace RowTable

/-- The table without rows. -/
def empty : RowTable := ⟨.empty, by simp [SortedMap.empty]⟩

/-- The rows in key order. -/
def rows (t : RowTable) : List Row := t.byKey.entries.map fun e => ⟨e.1, e.2⟩

def row? (t : RowTable) (k : Key) : Option Row := (t.byKey.get? k).map fun p => ⟨k, p⟩

def contains (t : RowTable) (k : Key) : Bool := t.byKey.contains k
def size (t : RowTable) : Nat := t.byKey.size
def isEmpty (t : RowTable) : Bool := t.byKey.isEmpty

/-- The table with properties under a complete key. -/
def put (t : RowTable) (k : Key) (h : k.isComplete) (p : Properties) : RowTable where
  byKey := t.byKey.insert k p
  complete := fun e he => by
    rcases SortedMap.mem_insertEntry he with rfl | he
    · exact h
    · exact t.complete e he

/-- The table without the row under a key. -/
def erase (t : RowTable) (k : Key) : RowTable where
  byKey := t.byKey.erase k
  complete := fun e he => t.complete e (List.mem_filter.1 he).1

theorem mem_rows {t : RowTable} {r : Row} : r ∈ t.rows ↔ t.row? r.key = some r := by
  obtain ⟨k, p⟩ := r
  simp only [rows, row?, List.mem_map, Option.map_eq_some_iff, Row.mk.injEq, true_and]
  constructor
  · rintro ⟨e, he, rfl, rfl⟩
    exact ⟨_, SortedMap.mem_entries_iff.1 he, rfl⟩
  · rintro ⟨p', hp, rfl⟩
    exact ⟨(k, p'), SortedMap.mem_entries_iff.2 hp, rfl, rfl⟩

theorem key_of_row? {t : RowTable} {k : Key} {r : Row} (h : t.row? k = some r) : r.key = k := by
  obtain ⟨p, -, rfl⟩ := Option.map_eq_some_iff.1 h
  rfl

theorem isComplete_of_row? {t : RowTable} {k : Key} {r : Row} (h : t.row? k = some r) :
    k.isComplete := by
  obtain ⟨p, hp, -⟩ := Option.map_eq_some_iff.1 h
  exact t.complete _ (SortedMap.mem_entries_iff.2 hp)

theorem row?_put (t : RowTable) (k k' : Key) (h : k.isComplete) (p : Properties) :
    (t.put k h p).row? k' = if k' = k then some ⟨k, p⟩ else t.row? k' := by
  simp only [row?, put, SortedMap.get?_insert]
  split <;> simp_all

theorem row?_erase (t : RowTable) (k k' : Key) :
    (t.erase k).row? k' = if k' = k then none else t.row? k' := by
  simp only [row?, erase, SortedMap.get?_erase]
  split <;> simp

end RowTable

/-- The state of a store. -/
structure Store where
  table : RowTable := .empty
  /-- The highest number given out or seen in a seeded key. -/
  lastNumber : UInt64 := 0
  stats : StoreStats := {}
  log : List StoreEntry := []
  faults : List Fault := []

/-- A call on the store, which may fail. -/
abbrev StoreM := EStateM StoreError Store

/-- The failure that is due on a call, and the faults that are left. The oldest fault of the call's
kind counts down its skips and is then used up; no other fault is touched. -/
def Fault.due (call : StoreCall) : List Fault → Option StoreError × List Fault
  | [] => (none, [])
  | f :: fs =>
    if f.call = call then
      if f.skip = 0 then (some f.error, fs) else (none, { f with skip := f.skip - 1 } :: fs)
    else
      let (e, rest) := due call fs
      (e, f :: rest)

/-- The rows of an answered scan that are still to be handed out. -/
structure Snapshot where
  rows : List Row

namespace Store

def rows (s : Store) : List Row := s.table.rows
def row? (s : Store) (k : Key) : Option Row := s.table.row? k
def contains (s : Store) (k : Key) : Bool := s.table.contains k
def size (s : Store) : Nat := s.table.size
def isEmpty (s : Store) : Bool := s.table.isEmpty

/-- The rows of a kind, in key order. -/
def rowsOfKind (s : Store) (kind : String) : List Row := s.rows.filter (·.kind == kind)

/-- The number that the store gives out next. -/
def nextNumber (s : Store) : UInt64 := s.lastNumber + 1

/-- The key that a row is stored under. -/
def keyFor (s : Store) (r : Row) : Key :=
  if r.key.isComplete then r.key else r.key.assign s.nextNumber

theorem isComplete_keyFor (s : Store) (r : Row) : (s.keyFor r).isComplete := by
  unfold keyFor
  split
  · assumption
  · exact r.key.isComplete_assign _

/-- Puts a row into the store without counting or logging it. An incomplete key gets a number, and
the store gives out no number up to the one at the end of a seeded key. -/
def seed (s : Store) (r : Row) : Key × Store :=
  let k := s.keyFor r
  let last := if r.key.isComplete then s.lastNumber else s.nextNumber
  let last := match k.id with
    | some (.number n) => max last n
    | _ => last
  (k, { s with table := s.table.put k (s.isComplete_keyFor r) r.properties, lastNumber := last })

/-- Injects a fault. -/
def inject (s : Store) (f : Fault) : Store := { s with faults := s.faults ++ [f] }

/-- Forgets the statistics and the log. -/
def resetObservations (s : Store) : Store := { s with stats := {}, log := [] }

/-- The store after it answered a look-up. -/
def afterGet (s : Store) : Store := { s with stats := { s.stats with gets := s.stats.gets + 1 } }

/-- The store after it stored a row. -/
def afterPut (s : Store) (r : Row) : Store :=
  { s with
    table := s.table.put (s.keyFor r) (s.isComplete_keyFor r) r.properties
    lastNumber := if r.key.isComplete then s.lastNumber else s.nextNumber
    stats := { s.stats with puts := s.stats.puts + 1 }
    log := s.log ++ [.put (s.keyFor r)] }

/-- The store after it removed the row under a key. -/
def afterDelete (s : Store) (k : Key) : Store :=
  { s with
    table := s.table.erase k
    stats := { s.stats with deletes := s.stats.deletes + 1 }
    log := s.log ++ [.delete k] }

/-- The store after it answered a scan of a kind. -/
def afterScan (s : Store) (kind : String) : Store :=
  { s with
    stats := { s.stats with scans := s.stats.scans + 1 }
    log := s.log ++ [.scan kind] }

/-- The store after it handed out a batch of `n` rows. -/
def afterFetch (s : Store) (n : Nat) : Store :=
  { s with stats := { s.stats with batches := s.stats.batches + 1, rows := s.stats.rows + n } }

/-- Fails if a fault is due on the call. -/
def failIfDue (call : StoreCall) : StoreM Unit := fun s =>
  match Fault.due call s.faults with
  | (some e, faults) => .error e { s with faults }
  | (none, faults) => .ok () { s with faults }

/-- The row stored under a key. -/
def get (k : Key) : StoreM (Option Row) := do
  failIfDue .get
  modifyGet fun s => (s.row? k, s.afterGet)

/-- Stores a row over what was there before and answers with its key, which gets a number if it is
incomplete. -/
def put (r : Row) : StoreM Key := do
  failIfDue .put
  modifyGet fun s => (s.keyFor r, s.afterPut r)

/-- Removes the row stored under a key, if there is one. -/
def delete (k : Key) : StoreM Unit := do
  failIfDue .delete
  modify (·.afterDelete k)

/-- Answers a scan, unless the store refuses it. -/
def scan (q : Scan) : StoreM Snapshot := do
  failIfDue .scan
  MonadExcept.ofExcept q.check
  modifyGet fun s => (⟨q.answer s.rows⟩, s.afterScan q.kind)

/-- Hands out the next rows of a snapshot, at most `limit`; none when it is exhausted. -/
def fetch (limit : Nat) (snapshot : Snapshot) : StoreM (List Row × Snapshot) := do
  failIfDue .fetch
  let batch := snapshot.rows.take limit
  modify (·.afterFetch batch.length)
  return (batch, ⟨snapshot.rows.drop limit⟩)

end Store
end EntityGraph
