import EntityGraph.Store

/-!
# Cursors

A cursor hands out the rows of a scan one by one and fetches them from the store in batches. It may
be disconnected, which fetches all remaining rows at once; a failure of that is kept until the rows
fetched before it have been handed out.

`BatchSource` is what a cursor asks of the store: batches up to an empty one, finitely many.
-/

namespace EntityGraph

/-- Something that hands out rows in batches, reading and changing a `World`. -/
class BatchSource (Source : Type) (World : outParam Type) where
  /-- The next rows, at most as many as asked for; none at the end. -/
  fetch : Nat → Source → EStateM StoreError World (List Row × Source)
  /-- A bound on the number of batches before an empty one. -/
  remaining : Source → Nat
  remaining_fetch : ∀ {limit source world rows source' world'},
    fetch limit source world = .ok (rows, source') world' → rows ≠ [] →
      remaining source' < remaining source

theorem Store.fetch_eq (limit : Nat) (snapshot : Snapshot) (s : Store) :
    Store.fetch limit snapshot s =
      match Fault.due .fetch s.faults with
      | (some e, faults) => .error e { s with faults }
      | (none, faults) => .ok (snapshot.rows.take limit, ⟨snapshot.rows.drop limit⟩)
          (({ s with faults } : Store).afterFetch (snapshot.rows.take limit).length) := by
  simp only [Store.fetch, Store.failIfDue, bind, EStateM.bind]
  split <;> rename_i h <;> split at h <;> simp_all
  rfl

instance : BatchSource Snapshot Store where
  fetch := Store.fetch
  remaining snapshot := snapshot.rows.length
  remaining_fetch := by
    intro limit snapshot s rows rest s' h hne
    rw [Store.fetch_eq] at h
    split at h
    · cases h
    · simp only [EStateM.Result.ok.injEq, Prod.mk.injEq] at h
      obtain ⟨⟨rfl, rfl⟩, -⟩ := h
      simp only [List.length_drop]
      cases limit with
      | zero => simp at hne
      | succ n =>
        cases hr : snapshot.rows with
        | nil => simp [hr] at hne
        | cons r rs => simp only [List.length_cons]; omega

namespace BatchSource

variable {Source World : Type} [BatchSource Source World]

/-- The rows of at most `fuel` batches, and the failure that ended them. -/
def drainUpTo (limit : Nat) : Nat → Source → World → (List Row × Option StoreError) × World
  | 0, _, world => (([], none), world)
  | fuel + 1, source, world =>
    match fetch limit source world with
    | .error e world => (([], some e), world)
    | .ok ([], _) world => (([], none), world)
    | .ok (rows, source) world =>
      let ((more, e), world) := drainUpTo limit fuel source world
      ((rows ++ more, e), world)

/-- All remaining rows, and the failure that ended them. -/
def drain (limit : Nat) (source : Source) (world : World) :
    (List Row × Option StoreError) × World :=
  drainUpTo limit (remaining source + 1) source world

end BatchSource

/-- A cursor over the rows of a kind. -/
structure Cursor (Source : Type) where
  kind : String
  /-- Where further rows come from, until it is exhausted or fails. -/
  source : Option Source
  /-- Rows that were fetched and not yet handed out. -/
  buffer : List Row := []
  batchSize : Nat
  /-- The failure to report after the buffered rows. -/
  pending : Option StoreError := none
  disconnected : Bool := false

namespace Cursor

variable {Source World : Type} [BatchSource Source World]

/-- A cursor that fetches `batchSize` rows at a time, and at least one. -/
def ofSource (kind : String) (source : Source) (batchSize : Nat) : Cursor Source :=
  { kind, source := some source, batchSize := max batchSize 1 }

/-- Hands out the next row, and nothing at the end. A failure ends the rows. -/
def next (c : Cursor Source) (world : World) :
    (Except StoreError (Option Row) × Cursor Source) × World :=
  match c.buffer, c.pending, c.source with
  | r :: rows, _, _ => ((.ok (some r), { c with buffer := rows }), world)
  | [], some e, _ => ((.error e, { c with pending := none }), world)
  | [], none, none => ((.ok none, c), world)
  | [], none, some source =>
    match BatchSource.fetch c.batchSize source world with
    | .error e world => ((.error e, { c with source := none }), world)
    | .ok ([], _) world => ((.ok none, { c with source := none }), world)
    | .ok (r :: rows, source) world =>
      ((.ok (some r), { c with buffer := rows, source := some source }), world)

/-- Fetches all remaining rows. Answers with the number of rows fetched, unless the cursor had been
disconnected before. -/
def disconnect (c : Cursor Source) (world : World) : (Option Nat × Cursor Source) × World :=
  if c.disconnected then ((none, c), world)
  else
    match c.source with
    | none => ((some 0, { c with disconnected := true }), world)
    | some source =>
      let ((rows, e), world) := BatchSource.drain c.batchSize source world
      ((some rows.length,
        { c with
          source := none
          buffer := c.buffer ++ rows
          pending := e <|> c.pending
          disconnected := true }), world)

/-- All rows that the cursor has yet to hand out, or the failure among them. -/
def readAll (c : Cursor Source) (world : World) : Except StoreError (List Row) × World :=
  match c.pending, c.source with
  | some e, _ => (.error e, world)
  | none, none => (.ok c.buffer, world)
  | none, some source =>
    match BatchSource.drain c.batchSize source world with
    | ((_, some e), world) => (.error e, world)
    | ((rows, none), world) => (.ok (c.buffer ++ rows), world)

/-- The text that names a cursor: its kind, how many rows it has buffered, and whether it has been
disconnected. -/
def describe (c : Cursor Source) : String :=
  "ResultCursor \x7b kind: " ++ quoted c.kind ++ ", buffered: " ++ toString c.buffer.length ++
    ", disconnected: " ++ toString c.disconnected ++ ", .. \x7d"

end Cursor
end EntityGraph
