import EntityGraph.Proofs.Query.Pushdown
import EntityGraph.Proofs.Store.Firing
import EntityGraph.Query.Execution

/-!
# What an executed query answers

A query only reads, and its rows are a function of the table of the store:

* `Query.reads_gather`: gathering answers with the candidates, in batches of any size but none;
* `Cursor.next_spec`, `Cursor.readAll_eq`: handing out one row of a cursor, and all of them;
* `Query.answerFor`: the rows of a query, or the failure in their place;
* `Query.yields_executeFor`: the result of a query holds its rows, be they at hand or in the store;
* `Query.reads_rows`, `Query.reads_uniqueRow`: reading the result answers with them.
-/

namespace EntityGraph

variable {α : Type}

/-- A scan for a kind answers with the rows of the kind, in their order. -/
theorem Scan.answer_kind (kind : String) (rows : List Row) :
    ({ kind } : Scan).answer rows = rows.filter (·.kind == kind) := by
  have hsel : ({ kind } : Scan).selects = fun row => row.kind == kind := by
    funext row
    simp [selects]
  have hunsorted := answer_of_unsorted (s := { kind }) rfl rfl rows
  rw [hunsorted, hsel]

namespace Query

/-! ## Candidates -/

/-- The candidate rows of a query, from the rows of a table if they are not at hand. -/
def candidateRows (q : Query) (t : RowTable) : List Row :=
  q.candidates.rows?.getD (t.rows.filter (·.kind == q.kind))

/-- More candidates are not allowed where fewer are not. -/
theorem checkCap_of_le {kind : String} {config : QueryConfig} {m n : Nat} {e : Failure} (h : m ≤ n)
    (he : checkCap kind config m = .error e) : checkCap kind config n = .error e := by
  unfold checkCap at he ⊢
  cases hc : config.candidateCap with
  | none => simp [hc] at he
  | some cap =>
    simp only [hc] at he ⊢
    split at he
    · rw [if_pos (by omega)]
      exact he
    · cases he

theorem reads_gatherUpTo (kind : String) {config : QueryConfig} (hb : 1 ≤ config.batchSize.toNat) :
    ∀ (fuel : Nat) {snapshot : Snapshot} {gathered : List Row}, snapshot.rows.length < fuel →
      checkCap kind config gathered.length = .ok () →
      Reads Context.store (gatherUpTo kind config fuel snapshot gathered) fun _ =>
        checkCap kind config (gathered ++ snapshot.rows).length >>= fun _ =>
          .ok (gathered ++ snapshot.rows)
  | 0, _, _, hn, _ => by omega
  | fuel + 1, snapshot, gathered, hn, hg => by
    have hstep := (Store.reads_fetch config.batchSize.toNat snapshot).onStore (.queryStore kind)
    rw [gatherUpTo]
    refine hstep.bind_ok ?_
    cases hrows : snapshot.rows.take config.batchSize.toNat with
    | nil =>
      rw [BatchSource.take_eq_nil_of_pos hb hrows, List.append_nil, hg]
      exact Reads.pure gathered
    | cons r rs =>
      have happ : gathered ++ snapshot.rows =
          (gathered ++ (r :: rs)) ++ snapshot.rows.drop config.batchSize.toNat := by
        rw [List.append_assoc, ← hrows, List.take_append_drop]
      cases hcap : checkCap kind config (gathered ++ (r :: rs)).length with
      | error e =>
        have hle : (gathered ++ (r :: rs)).length ≤ (gathered ++ snapshot.rows).length := by
          rw [happ]
          exact (List.prefix_append _ _).length_le
        simp only [List.isEmpty_cons, Bool.false_eq_true, if_false, hcap, checkCap_of_le hle hcap]
        exact Reads.throw e
      | ok u =>
        have hlt : (snapshot.rows.drop config.batchSize.toNat).length < fuel := by
          have := congrArg List.length hrows
          rw [List.length_take, List.length_cons] at this
          rw [List.length_drop]
          omega
        simp only [List.isEmpty_cons, Bool.false_eq_true, if_false, hcap]
        rw [happ]
        exact reads_gatherUpTo kind hb fuel hlt hcap

/-- The candidates of a query, or the failure in their place if they are too many. -/
def gathered (q : Query) (config : QueryConfig) (t : RowTable) : Except Failure (List Row) :=
  checkCap q.kind config (q.candidateRows t).length >>= fun _ => .ok (q.candidateRows t)

/-- The candidates that a query finds: all of them, but none in batches of no rows. -/
def found (q : Query) (config : QueryConfig) (t : RowTable) : Except Failure (List Row) :=
  if q.candidates.rows?.isNone ∧ config.batchSize = 0 then .ok [] else q.gathered config t

theorem toNat_batchSize_pos {config : QueryConfig} :
    1 ≤ config.batchSize.toNat ↔ config.batchSize ≠ 0 := by
  rw [Nat.one_le_iff_ne_zero, ne_eq, ne_eq, ← UInt64.toNat_inj]
  rfl

theorem found_of_pos (q : Query) {config : QueryConfig} (hb : 1 ≤ config.batchSize.toNat)
    (t : RowTable) : q.found config t = q.gathered config t :=
  if_neg fun h => toNat_batchSize_pos.1 hb h.2

/-- Batches of no rows end at once. -/
theorem reads_gatherUpTo_zero (kind : String) {config : QueryConfig} (h0 : config.batchSize = 0)
    (fuel : Nat) (snapshot : Snapshot) :
    Reads Context.store (gatherUpTo kind config (fuel + 1) snapshot []) fun _ => .ok [] := by
  have hstep := (Store.reads_fetch config.batchSize.toNat snapshot).onStore (.queryStore kind)
  rw [gatherUpTo]
  refine hstep.bind_ok ?_
  simp only [h0, UInt64.toNat_zero, List.take_zero, List.isEmpty_nil, if_true]
  exact Reads.pure []

theorem reads_gather (q : Query) (config : QueryConfig) :
    Reads Context.store (q.gather config) (q.found config) := by
  unfold gather found gathered candidateRows
  cases hc : q.candidates.rows? with
  | some rows =>
    simp only [Option.isNone_some, Bool.false_eq_true, false_and, if_false, Option.getD_some]
    exact (Reads.ofExcept (checkCap q.kind config rows.length)).bind fun _ => Reads.pure rows
  | none =>
    have hscan := (Store.reads_scan { kind := q.kind }).onStore (.queryStore q.kind)
    simp only [Option.isNone_none, true_and, Option.getD_none, ← Scan.answer_kind]
    by_cases h0 : config.batchSize = 0
    · simp only [h0, if_true]
      exact hscan.bind fun snapshot => reads_gatherUpTo_zero q.kind h0 _ snapshot
    · have hzero : checkCap q.kind config ([] : List Row).length = .ok () := by
        unfold checkCap
        split <;> rfl
      have h := hscan.bind fun snapshot =>
        reads_gatherUpTo q.kind (toNat_batchSize_pos.2 h0) (snapshot.rows.length + 1)
          (Nat.lt_succ_self _) hzero
      simp only [h0, if_false]
      exact h

end Query

/-! ## Results -/

/-- The rows that a cursor has yet to hand out. -/
def Cursor.unread (c : Cursor Snapshot) : List Row :=
  c.buffer ++ (c.source.map Snapshot.rows).getD []

/-- A batch holds the first rows of a snapshot, and some if there are any, unless a fault fires. -/
theorem BatchSource.fetch_snapshot {limit : Nat} (hl : 1 ≤ limit) (snapshot : Snapshot)
    (s : Store) :
    (∃ e s', BatchSource.fetch limit snapshot s = .error e s' ∧ s.OnlyRead s' ∧
      s.Fired s' (some e)) ∨
    ∃ rows rest s', BatchSource.fetch limit snapshot s = .ok (rows, rest) s' ∧ s.OnlyRead s' ∧
      s.Fired s' none ∧ rows ++ rest.rows = snapshot.rows ∧ (rows = [] → snapshot.rows = []) := by
  have hreads := Store.reads_fetch limit snapshot
  have hacc := Store.accounts_fetch limit snapshot s
  cases h : Store.fetch limit snapshot s with
  | error e s' =>
    obtain ⟨ho, -⟩ | ⟨cause, rfl, hf⟩ := hacc.of_error h
    · exact ho.elim
    · exact .inl ⟨_, s', h, (hreads.of_error h).1, hf⟩
  | ok batch s' =>
    obtain ⟨hr, _, rfl, ha⟩ := hreads.of_ok h
    cases ha
    exact .inr ⟨_, _, s', h, hr, hacc.of_ok h, List.take_append_drop .., take_eq_nil_of_pos hl⟩

/-- Handing out the next row of a cursor takes it from those that it has yet to hand out, or fails
for the fault that fires. -/
theorem Cursor.next_spec {c : Cursor Snapshot} (hb : 1 ≤ c.batchSize) (hp : c.pending = none)
    (s : Store) : ∃ answer c' s', c.next s = ((answer, c'), s') ∧ s.OnlyRead s' ∧
      ((∃ e, answer = .error e ∧ s.Fired s' (some e)) ∨
        answer = .ok c.unread.head? ∧ s.Fired s' none ∧
          1 ≤ c'.batchSize ∧ c'.pending = none ∧ c'.unread = c.unread.tail) := by
  unfold next unread
  rw [hp]
  cases hbuf : c.buffer with
  | cons r rows =>
    exact ⟨_, _, s, rfl, .refl s, .inr ⟨rfl, .refl s, hb, rfl, rfl⟩⟩
  | nil =>
    cases hsrc : c.source with
    | none =>
      refine ⟨_, _, s, rfl, .refl s, .inr ⟨rfl, .refl s, hb, hp, ?_⟩⟩
      simp [hbuf, hsrc]
    | some snapshot =>
      obtain ⟨e, s', hfetch, hr, hf⟩ | ⟨rows, rest, s', hfetch, hr, hf, happ, hnil⟩ :=
        BatchSource.fetch_snapshot hb snapshot s
      · simp only [hfetch]
        exact ⟨_, _, s', rfl, hr, .inl ⟨e, rfl, hf⟩⟩
      · simp only [hfetch, Option.map_some, Option.getD_some, List.nil_append]
        cases rows with
        | nil =>
          refine ⟨_, _, s', rfl, hr, .inr ⟨?_, hf, hb, rfl, ?_⟩⟩
          · rw [hnil rfl]
            rfl
          · simp [hnil rfl]
        | cons r rows =>
          rw [← happ]
          exact ⟨_, _, s', rfl, hr, .inr ⟨rfl, hf, hb, rfl, rfl⟩⟩

@[simp] theorem Cursor.unread_ofSource (kind : String) (snapshot : Snapshot) (batchSize : Nat) :
    (ofSource kind snapshot batchSize).unread = snapshot.rows := rfl

/-- Reading a cursor to the end gives its rows, unless a fault is due. -/
theorem Cursor.readAll_eq {c : Cursor Snapshot} (hb : 1 ≤ c.batchSize) (hp : c.pending = none)
    {s s' : Store} {answer : Except StoreError (List Row)} (h : c.readAll s = (answer, s')) :
    s.OnlyRead s' ∧ (∀ rows, answer = .ok rows → rows = c.unread) ∧
    (s.faults = [] → answer = .ok c.unread) := by
  unfold readAll at h
  unfold unread
  rw [hp] at h
  cases hs : c.source with
  | none =>
    rw [hs] at h
    cases h
    simp only [Option.map_none, Option.getD_none, List.append_nil, Except.ok.injEq]
    exact ⟨.refl _, fun _ hr => hr.symm, fun _ => trivial⟩
  | some snapshot =>
    rw [hs] at h
    cases hd : BatchSource.drain c.batchSize snapshot s with
    | mk r s₁ =>
      obtain ⟨rows, e⟩ := r
      obtain ⟨hr, hrows, he⟩ := BatchSource.drain_snapshot hb hd
      simp only [hd] at h
      cases e with
      | some e =>
        cases h
        refine ⟨hr, fun _ hc => ?_, fun hf => ?_⟩
        · cases hc
        · cases he hf
      | none =>
        cases h
        simp only [Option.map_some, Option.getD_some, ← hrows rfl, Except.ok.injEq]
        exact ⟨hr, fun _ hr => hr.symm, fun _ => trivial⟩

/-- A new cursor is held under its number. -/
theorem HeldCursors.get?_add (h : HeldCursors) (c : Cursor Snapshot) :
    (h.add c).2.get? h.next = some c :=
  SortedMap.get?_insert_self ..

namespace Result

/-- A result has yet to hand out `rows`, at hand or through a held cursor. -/
def Holds (ctx : Context) (all : List Row) : Result → Prop
  | rows _ rest => rest = all
  | stream id => ∃ c, ctx.held.get? id = some c ∧ 1 ≤ c.batchSize ∧ c.pending = none ∧
      c.unread = all

/-- Reading a stream to the end reads its cursor, which is then used up. -/
theorem readAll_stream {id : CursorId} {ctx : Context} {c : Cursor Snapshot}
    (hc : ctx.held.get? id = some c) {answer : Except StoreError (List Row)} {s' : Store}
    (hread : c.readAll ctx.store = (answer, s')) :
    (stream id).readAll ctx = match answer with
      | .ok all => .ok all { ctx with store := s', held := ctx.held.drop id }
      | .error e => .error (.cursorStore c.kind e)
          { ctx with store := s', held := ctx.held.drop id } := by
  rw [readAll, bind_of_ok (get_run ctx)]
  simp only [hc]
  rw [bind_of_ok (modifyGet_run _ ctx)]
  simp only [hread]
  cases answer <;> rfl

/-- Reading a result to the end gives the rows that it holds, unless a fault is due. -/
theorem readAll_eq {r : Result} {ctx : Context} {rows : List Row} (h : r.Holds ctx rows) :
    (∀ {all ctx'}, r.readAll ctx = .ok all ctx' → ctx.store.OnlyRead ctx'.store ∧ all = rows) ∧
    (∀ {e ctx'}, r.readAll ctx = .error e ctx' →
      ctx.store.OnlyRead ctx'.store ∧ ctx.store.faults ≠ []) := by
  cases r with
  | rows path rest =>
    refine ⟨fun hr => ?_, fun hr => ?_⟩
    · cases hr
      exact ⟨.refl _, h⟩
    · cases hr
  | stream id =>
    obtain ⟨c, hc, hb, hp, rfl⟩ := h
    cases hread : c.readAll ctx.store with
    | mk answer s' =>
      obtain ⟨hr, hok, hf⟩ := c.readAll_eq hb hp hread
      rw [readAll_stream hc hread]
      cases answer with
      | ok all =>
        refine ⟨fun h' => ?_, fun h' => ?_⟩
        · cases h'
          exact ⟨hr, hok _ rfl⟩
        · cases h'
      | error e =>
        refine ⟨fun h' => ?_, fun h' => ?_⟩
        · cases h'
        · cases h'
          exact ⟨hr, fun hn => by cases hf hn⟩

/-- A result without a cursor hands out its first row. -/
theorem next_rows (path : Path) (rest : List Row) (ctx : Context) :
    (Result.rows path rest).next ctx = .ok (rest.head?, .rows path rest.tail) ctx := by
  cases rest <;> rfl

/-- The next row of a stream is that of its cursor. -/
theorem next_stream {id : CursorId} {ctx : Context} {c c' : Cursor Snapshot}
    (hc : ctx.held.get? id = some c) {answer : Except StoreError (Option Row)} {s' : Store}
    (hnext : c.next ctx.store = ((answer, c'), s')) :
    (stream id).next ctx = match answer with
      | .ok row => .ok (row, .stream id) { ctx with store := s', held := ctx.held.set id c' }
      | .error e => .error (.cursorStore c.kind e)
          { ctx with store := s', held := ctx.held.set id c' } := by
  have hctx : ctx.next id = (some (answer.mapError (.cursorStore c.kind)),
      { ctx with store := s', held := ctx.held.set id c' }) := by
    rw [Context.next, hc]
    simp only [hnext]
  rw [next, bind_of_ok (modifyGet_run _ ctx)]
  simp only [hctx]
  cases answer <;> rfl

/-- Handing out the next row of a result takes the first of the rows that it holds, unless a fault
is due. -/
theorem next_eq {r : Result} {ctx : Context} {rows : List Row} (h : r.Holds ctx rows) :
    (∀ {row r' ctx'}, r.next ctx = .ok (row, r') ctx' →
      ctx.store.OnlyRead ctx'.store ∧ row = rows.head?) ∧
    (∀ {e ctx'}, r.next ctx = .error e ctx' →
      ctx.store.OnlyRead ctx'.store ∧ ctx.store.faults ≠ []) := by
  cases r with
  | rows path rest =>
    have h : rest = rows := h
    subst h
    rw [next_rows]
    refine ⟨fun h' => ?_, fun h' => ?_⟩
    · cases h'
      exact ⟨.refl _, rfl⟩
    · cases h'
  | stream id =>
    obtain ⟨c, hc, hb, hp, rfl⟩ := h
    obtain ⟨answer, c', s', hnext, hr, hanswer⟩ := c.next_spec hb hp ctx.store
    rw [next_stream hc hnext]
    obtain ⟨e, rfl, hf⟩ | ⟨rfl, -⟩ := hanswer
    · refine ⟨fun h' => ?_, fun h' => ?_⟩
      · cases h'
      · cases h'
        exact ⟨hr, hf.faults_ne_nil⟩
    · refine ⟨fun h' => ?_, fun h' => ?_⟩
      · cases h'
        exact ⟨hr, rfl⟩
      · cases h'

end Result

/-- An operation only reads, and its result holds the rows that `y` makes of the table. -/
abbrev Yields (x : Action Result) (y : RowTable → Except Failure (List Row)) : Prop :=
  ReadsAs Context.store (fun ctx r rows => r.Holds ctx rows) x y

namespace Yields

variable {x : Action Result} {y : RowTable → Except Failure (List Row)}

/-- Counting a call changes neither its result nor what the result holds. -/
theorem counted (h : Yields x y) (call : CallKind) (kind : String) :
    Yields (Action.counted call kind x) y where
  of_ok {ctx r ctx'} h' := by
    unfold Action.counted at h'
    split at h'
    · rename_i r ctx₁ hx
      cases h'
      obtain ⟨hr, rows, hh, hy⟩ := h.of_ok hx
      refine ⟨hr, rows, ?_, hy⟩
      cases r <;> exact hh
    · cases h'
  of_error {ctx e ctx'} h' := by
    unfold Action.counted at h'
    split at h'
    · cases h'
    · rename_i e ctx₁ hx
      cases h'
      obtain ⟨hr, he⟩ := h.of_error hx
      exact ⟨hr, he⟩

/-- Reading a result to the end gives the rows that it holds. -/
theorem readAll (h : Yields x y) : Reads Context.store (x >>= Result.readAll) y where
  of_ok h' := by
    obtain ⟨r, ctx', hx, hread⟩ := bind_run_ok.1 h'
    obtain ⟨hr, rows, hh, hy⟩ := h.of_ok hx
    obtain ⟨hr', rfl⟩ := (Result.readAll_eq hh).1 hread
    exact ⟨hr.trans hr', _, rfl, hy⟩
  of_error h' := by
    rcases bind_run_error.1 h' with hx | ⟨r, ctx', hx, hread⟩
    · exact h.of_error hx
    · obtain ⟨hr, rows, hh, hy⟩ := h.of_ok hx
      obtain ⟨hr', hf⟩ := (Result.readAll_eq hh).2 hread
      exact ⟨hr.trans hr', fun hn => absurd (hr.faults hn) hf⟩

/-- The next row of a result is the first that it holds. -/
theorem next (h : Yields x y) :
    Reads Context.store (do let (row, _) ← (← x).next; return row) fun t =>
      y t >>= fun rows => .ok rows.head? where
  of_ok h' := by
    obtain ⟨r, ctx', hx, h'⟩ := bind_run_ok.1 h'
    obtain ⟨⟨row, r'⟩, ctx'', hnext, h'⟩ := bind_run_ok.1 h'
    cases h'
    obtain ⟨hr, rows, hh, hy⟩ := h.of_ok hx
    obtain ⟨hr', rfl⟩ := (Result.next_eq hh).1 hnext
    exact ⟨hr.trans hr', _, rfl, by rw [hy, ok_bind]⟩
  of_error h' := by
    rcases bind_run_error.1 h' with hx | ⟨r, ctx', hx, h'⟩
    · obtain ⟨hr, he⟩ := h.of_error hx
      exact ⟨hr, fun hn => by rw [he hn, error_bind]⟩
    · obtain ⟨hr, rows, hh, hy⟩ := h.of_ok hx
      rcases bind_run_error.1 h' with hnext | ⟨_, _, _, h'⟩
      · obtain ⟨hr', hf⟩ := (Result.next_eq hh).2 hnext
        exact ⟨hr.trans hr', fun hn => absurd (hr.faults hn) hf⟩
      · cases h'

end Yields

/-! ## Execution -/

namespace Query

/-- The rows of a query, of which there may be one if it is for a unique row. Otherwise the failure
tells of `count` rows. -/
def checkUnique (kind : String) (unique : Bool) (count : Nat) (rows : List Row) :
    Except Failure (List Row) :=
  if unique && 1 < rows.length then .error (.notUnique kind count) else .ok rows

@[simp] theorem checkUnique_false (kind : String) (count : Nat) (rows : List Row) :
    checkUnique kind false count rows = .ok rows := rfl

/-- The rows of a query, for a unique row if `unique` is set, or the failure in their place. -/
def answerFor (q : Query) (config : QueryConfig) (b : Bindings) (unique : Bool) (t : RowTable) :
    Except Failure (List Row) :=
  q.pushDown config.preference b >>= fun
    | .scan s => s.check.mapError (.queryStore q.kind) >>= fun _ =>
        checkUnique q.kind unique 2 (s.answer t.rows)
    | .refused _ => q.found config t >>= fun rows => q.select b rows >>= fun rows =>
        checkUnique q.kind unique rows.length rows

theorem reads_emit (e : Event) : Reads Context.store (Action.emit e) fun _ => .ok () :=
  Reads.modify fun _ => .refl _

theorem reads_failNotUnique {α : Type} (kind : String) (count : Nat) :
    Reads Context.store (failNotUnique kind count : Action α) fun _ =>
      .error (.notUnique kind count) :=
  (reads_emit _).bind_ok (Reads.throw _)

/-- Looking for the one row of a cursor looks at two at most. It fails for the fault that fires, or
if there are two. -/
theorem uniqueRow_run (kind : String) {c : Cursor Snapshot} (hb : 1 ≤ c.batchSize)
    (hp : c.pending = none) (ctx : Context) : ∃ s', ctx.store.OnlyRead s' ∧
      ((∃ e, ctx.store.Fired s' (some e) ∧
        uniqueRow kind c ctx = .error (.cursorStore kind e) { ctx with store := s' }) ∨
      ctx.store.Fired s' none ∧ uniqueRow kind c ctx =
        match checkUnique kind true 2 c.unread with
        | .ok rows => .ok rows { ctx with store := s' }
        | .error e => .error e (({ ctx with store := s' } : Context).emit (.notUnique kind))) := by
  obtain ⟨answer, c', s', hnext, hr, hanswer⟩ := c.next_spec hb hp ctx.store
  have hrow : Action.nextRow c ctx = .ok (answer, c') { ctx with store := s' } := by
    rw [Action.nextRow, modifyGet_run, hnext]
  rw [uniqueRow, bind_of_ok hrow]
  obtain ⟨e, rfl, hf⟩ | ⟨rfl, hf, hb', hp', hu⟩ := hanswer
  · exact ⟨s', hr, .inl ⟨e, hf, rfl⟩⟩
  cases hrows : c.unread with
  | nil => exact ⟨s', hr, .inr ⟨hf, rfl⟩⟩
  | cons first rest =>
    rw [hrows] at hu
    obtain ⟨answer, c'', s'', hnext, hr', hanswer⟩ := c'.next_spec hb' hp' s'
    have hrow : Action.nextRow c' { ctx with store := s' } =
        .ok (answer, c'') { ctx with store := s'' } := by
      rw [Action.nextRow, modifyGet_run, hnext]
    simp only [List.head?_cons]
    rw [bind_of_ok hrow]
    obtain ⟨e, rfl, hf'⟩ | ⟨rfl, hf', -⟩ := hanswer
    · exact ⟨s'', hr.trans hr', .inl ⟨e, hf.trans hf', rfl⟩⟩
    · refine ⟨s'', hr.trans hr', .inr ⟨hf.trans hf', ?_⟩⟩
      rw [hu, List.tail_cons]
      cases rest <;> rfl

theorem reads_uniqueRowOf (kind : String) {c : Cursor Snapshot} (hb : 1 ≤ c.batchSize)
    (hp : c.pending = none) :
    Reads Context.store (uniqueRow kind c) fun _ => checkUnique kind true 2 c.unread where
  of_ok {ctx rows ctx'} h := by
    obtain ⟨s', hr, ⟨e, -, hrun⟩ | ⟨-, hrun⟩⟩ := uniqueRow_run kind hb hp ctx
    · cases hrun.symm.trans h
    · rw [hrun] at h
      split at h
      · rename_i hu
        cases h
        exact ⟨hr, _, rfl, hu⟩
      · cases h
  of_error {ctx e ctx'} h := by
    obtain ⟨s', hr, ⟨e, hf, hrun⟩ | ⟨-, hrun⟩⟩ := uniqueRow_run kind hb hp ctx
    · cases hrun.symm.trans h
      exact ⟨hr, fun hn => absurd hn hf.faults_ne_nil⟩
    · rw [hrun] at h
      split at h
      · cases h
      · rename_i hu
        cases h
        exact ⟨hr, fun _ => hu⟩

theorem yields_rows (path : Path) (all : List Row) :
    Yields (do Action.touch all.length; return .rows path all) fun _ => .ok all where
  of_ok h := by
    cases h
    exact ⟨.refl _, _, rfl, rfl⟩
  of_error h := by cases h

/-- Opening a cursor over a snapshot makes a result that holds its rows. -/
theorem yields_openCursor (kind : String) (snapshot : Snapshot) (batchSize : Nat) :
    Yields (do return .stream (← Action.openCursor (Cursor.ofSource kind snapshot batchSize)))
      fun _ => .ok snapshot.rows where
  of_ok h := by
    cases h
    refine ⟨.refl _, _, ⟨_, HeldCursors.get?_add _ _, ?_, rfl, rfl⟩, rfl⟩
    exact Nat.le_max_right ..
  of_error h := by cases h

theorem yields_executeScan (q : Query) (config : QueryConfig) (unique : Bool) (s : Scan) :
    Yields (q.executeScan config unique s) fun t =>
      s.check.mapError (.queryStore q.kind) >>= fun _ =>
        checkUnique q.kind unique 2 (s.answer t.rows) := by
  have hscan : Reads Context.store (Action.onStore (.queryStore q.kind) (Store.scan s)) fun t =>
      s.check.mapError (.queryStore q.kind) >>= fun _ => .ok (⟨s.answer t.rows⟩ : Snapshot) := by
    have h := (Store.reads_scan s).onStore (.queryStore q.kind)
    simp only [mapError_bind] at h
    exact h
  unfold executeScan
  refine (reads_emit _).bind_ok ?_
  cases unique with
  | false =>
    have h := hscan.bind fun snapshot => yields_openCursor q.kind snapshot config.batchSize.toNat
    simpa [bind_assoc] using h
  | true =>
    have hunique := fun snapshot : Snapshot =>
      (reads_uniqueRowOf q.kind (c := .ofSource q.kind snapshot config.batchSize.toNat)
        (Nat.le_max_right ..) rfl).bind (yields_rows .native)
    have h := hscan.bind hunique
    simpa [bind_assoc] using h

/-- Evaluating in memory makes a result that holds the selected candidates. -/
theorem yields_executeInMemory (q : Query) (config : QueryConfig) (b : Bindings) (unique : Bool) :
    Yields (q.executeInMemory config b unique) fun t =>
      q.found config t >>= fun rows => q.select b rows >>= fun rows =>
        checkUnique q.kind unique rows.length rows := by
  have hrows : ∀ rows : List Row, Yields (do
      if unique && 1 < rows.length then failNotUnique q.kind rows.length
      Action.touch rows.length
      return .rows .inMemory rows) fun _ => checkUnique q.kind unique rows.length rows := by
    intro rows
    unfold checkUnique
    split
    · exact (reads_failNotUnique q.kind rows.length).bind fun _ : Unit => yields_rows .inMemory rows
    · exact yields_rows .inMemory rows
  unfold executeInMemory
  refine (reads_emit _).bind_ok ?_
  refine (q.reads_gather config).bind fun candidates => ?_
  refine (reads_emit _).bind_ok ?_
  exact (Reads.ofExcept (q.select b candidates)).bind hrows

/-- The result of a query holds its rows. -/
theorem yields_executeFor (q : Query) (config : QueryConfig) (b : Bindings) (unique : Bool) :
    Yields (q.executeFor config b unique) (q.answerFor config b unique) := by
  unfold executeFor answerFor
  refine Yields.counted ?_ .query q.kind
  refine (Reads.ofExcept _).bind fun p => ?_
  cases p with
  | scan s => exact q.yields_executeScan config unique s
  | refused reason => exact (reads_emit _).bind_ok (q.yields_executeInMemory config b unique)

/-- Running a query for a unique row answers with the one that it has, if it has any. -/
theorem reads_uniqueRow (q : Query) (config : QueryConfig) (b : Bindings) :
    Reads Context.store (q.uniqueRow? config b) fun t =>
      q.answerFor config b true t >>= fun rows => .ok rows.head? :=
  (q.yields_executeFor config b true).next

/-- Running a query and reading all its rows answers with them. -/
theorem reads_allRows (q : Query) (config : QueryConfig) (b : Bindings) :
    Reads Context.store (q.rows config b) (q.answerFor config b q.unique) :=
  (q.yields_executeFor config b q.unique).readAll

/-! ## Queries that are not for a unique row -/

/-- The rows of a query, or the failure in their place. -/
def answer (q : Query) (config : QueryConfig) (b : Bindings) (t : RowTable) :
    Except Failure (List Row) :=
  q.pushDown config.preference b >>= fun
    | .scan s => s.check.mapError (.queryStore q.kind) >>= fun _ => .ok (s.answer t.rows)
    | .refused _ => q.gathered config t >>= fun rows => q.select b rows

theorem answerFor_false (q : Query) {config : QueryConfig} (b : Bindings)
    (hb : 1 ≤ config.batchSize.toNat) (t : RowTable) :
    q.answerFor config b false t = q.answer config b t := by
  unfold answerFor answer
  cases q.pushDown config.preference b with
  | error e => rfl
  | ok p => cases p <;> simp [found_of_pos q hb]

theorem reads_rows {q : Query} {config : QueryConfig} (b : Bindings) (hu : q.unique = false)
    (hb : 1 ≤ config.batchSize.toNat) :
    Reads Context.store (q.rows config b) (q.answer config b) := by
  have h := q.reads_allRows config b
  rwa [hu, funext (q.answerFor_false b hb)] at h

end Query
end EntityGraph
