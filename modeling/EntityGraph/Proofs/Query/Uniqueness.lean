import EntityGraph.Proofs.Query.Firing
import EntityGraph.Proofs.Store.Faults

/-!
# Queries for a unique row

A query for a unique row either looks at two rows of a scan at most, or counts the rows that were
selected in memory. Both ways it answers as the query without that demand does, except that it fails
where that has more than one row. It leaves no cursor behind, whether it fails or not.

* `Failure.IsNotUnique`, `AnswersUniquely`: how the answer for a unique row stands to all rows;
* `Query.answerFor_true`: the rows of a query for a unique row are those of the query, checked;
* `LeavesCursors`: operations that open no cursor;
* `Query.answersUniquely`: running a query for its unique row.
-/

namespace EntityGraph

variable {α β : Type}

/-! ## Answers -/

/-- A query that is for one row has more of them. -/
def Failure.IsNotUnique (e : Failure) : Prop :=
  e.report.category = .conflict ∧ ∃ kind count, e.report.detail = some (.notUnique kind count)

/-- The answer of a query for a unique row, of which `view` is what is seen of the rows, and the
answer of the same query without that demand. It fails for uniqueness if there are two rows or more;
one row or none is the answer; and any other failure is a failure of both. -/
structure AnswersUniquely (plain : Except Failure (List Row)) (view : List Row → α)
    (answer : Except Failure α) : Prop where
  notUnique_iff : (∃ e, answer = .error e ∧ e.IsNotUnique) ↔
    ∃ rows, plain = .ok rows ∧ 2 ≤ rows.length
  of_atMostOne : ∀ rows, plain = .ok rows → rows.length ≤ 1 → answer = .ok (view rows)
  otherwise : ∀ e, answer = .error e ∧ ¬e.IsNotUnique ↔ plain = .error e

theorem Failure.isNotUnique_notUnique (kind : String) (count : Nat) :
    (Failure.notUnique kind count).IsNotUnique := ⟨rfl, kind, count, rfl⟩

namespace AnswersUniquely

variable {view : List Row → α} {rows : List Row} {e : Failure}

/-- A failure that has nothing to do with the number of rows is one of both. -/
theorem of_error (h : ¬e.IsNotUnique) : AnswersUniquely (.error e) view (.error e) where
  notUnique_iff := by simp [h]
  of_atMostOne := nofun
  otherwise e' := by
    simp only [Except.error.injEq, and_iff_left_iff_imp]
    rintro rfl
    exact h

theorem of_one (h : rows.length ≤ 1) : AnswersUniquely (.ok rows) view (.ok (view rows)) where
  notUnique_iff := by simpa using Nat.lt_succ_of_le h
  of_atMostOne _ hrows _ := by
    cases hrows
    rfl
  otherwise := by simp

theorem of_many (h : 1 < rows.length) (kind : String) (count : Nat) :
    AnswersUniquely (.ok rows) view (.error (.notUnique kind count)) where
  notUnique_iff :=
    iff_of_true ⟨_, rfl, Failure.isNotUnique_notUnique kind count⟩ ⟨rows, rfl, h⟩
  of_atMostOne _ hrows hone := by
    cases hrows
    omega
  otherwise e' := by
    simp only [Except.error.injEq, reduceCtorEq, iff_false]
    rintro ⟨rfl, hne⟩
    exact hne (Failure.isNotUnique_notUnique kind count)

/-- Checking the rows answers so, if the failures before the check are others. -/
theorem of_checkUnique {plain : Except Failure (List Row)} {kind : String}
    (hplain : ∀ e, plain = .error e → ¬e.IsNotUnique) (count : List Row → Nat) :
    AnswersUniquely plain view
      ((plain >>= fun rows => Query.checkUnique kind true (count rows) rows).map view) := by
  cases plain with
  | error e => exact .of_error (hplain e rfl)
  | ok rows =>
    simp only [ok_bind, Query.checkUnique, Bool.true_and, decide_eq_true_eq]
    by_cases h : 1 < rows.length
    · rw [if_pos h]
      exact .of_many h kind _
    · rw [if_neg h]
      exact .of_one (Nat.not_lt.1 h)

end AnswersUniquely

namespace Query

/-- The rows of a query for a unique row are the rows of the query, if they pass a check. How many
rows a failure tells of depends on where the query is run. -/
theorem answerFor_true (q : Query) (config : QueryConfig) (b : Bindings) (t : RowTable) :
    ∃ count : List Row → Nat, q.answerFor config b true t =
      q.answerFor config b false t >>= fun rows => checkUnique q.kind true (count rows) rows := by
  unfold answerFor
  cases q.pushDown config.preference b with
  | error e => exact ⟨List.length, rfl⟩
  | ok p =>
    cases p with
    | scan s =>
      refine ⟨fun _ => 2, ?_⟩
      simp only [ok_bind, checkUnique_false]
      cases s.check <;> rfl
    | refused reason =>
      refine ⟨List.length, ?_⟩
      simp only [ok_bind, checkUnique_false, bind_ok_self, bind_assoc]

/-- A query that is not for a unique row does not fail for uniqueness. -/
theorem not_isNotUnique_of_answerFor {q : Query} {config : QueryConfig} {b : Bindings}
    {t : RowTable} {e : Failure} (h : q.answerFor config b false t = .error e) :
    ¬e.IsNotUnique := by
  rintro ⟨hconflict, -⟩
  cases hv : q.validate b with
  | error e' =>
    rw [answerFor, pushDown_of_invalid hv, error_bind] at h
    cases h
    cases (q.failsMalformed_validate b e hv).symm.trans hconflict
  | ok =>
    cases exceeds_answerFor hv h with
    | candidates => cases hconflict
    | rows hu => cases hu

/-- The rows of a query, checked, against the rows of the same query without the demand. -/
theorem answersUniquely_answerFor (q : Query) (config : QueryConfig) (b : Bindings) (t : RowTable)
    (view : List Row → α) : AnswersUniquely (q.answerFor config b false t) view
      ((q.answerFor config b true t).map view) := by
  obtain ⟨count, hcount⟩ := q.answerFor_true config b t
  rw [hcount]
  exact .of_checkUnique (fun e he => not_isNotUnique_of_answerFor he) count

end Query

/-! ## Cursors -/

/-- An operation opens no cursor and closes none, whether it fails or not. -/
def LeavesCursors (x : Action α) : Prop :=
  ∀ ctx, (finalState (x ctx)).scope = ctx.scope ∧ (finalState (x ctx)).held = ctx.held

namespace LeavesCursors

theorem pure (a : α) : LeavesCursors (Pure.pure a : Action α) := fun _ => ⟨rfl, rfl⟩

theorem bind_of_answers {x : Action α} {f : α → Action β} {p : α → Prop} (hx : LeavesCursors x)
    (ha : x.Answers p) (hf : ∀ a, p a → LeavesCursors (f a)) : LeavesCursors (x >>= f) := by
  intro ctx
  obtain ⟨hscope, hheld⟩ := hx ctx
  cases h : x ctx with
  | error e ctx' =>
    rw [h] at hscope hheld
    rw [bind_of_error h]
    exact ⟨hscope, hheld⟩
  | ok a ctx' =>
    rw [h] at hscope hheld
    rw [bind_of_ok h]
    obtain ⟨hscope', hheld'⟩ := hf a (ha ctx a ctx' h) ctx'
    exact ⟨hscope'.trans hscope, hheld'.trans hheld⟩

theorem bind {x : Action α} {f : α → Action β} (hx : LeavesCursors x)
    (hf : ∀ a, LeavesCursors (f a)) : LeavesCursors (x >>= f) :=
  hx.bind_of_answers (p := fun _ => True) (fun _ _ _ _ => trivial) fun a _ => hf a

theorem throw (e : Failure) : LeavesCursors (MonadExcept.throw e : Action α) := fun _ => ⟨rfl, rfl⟩

theorem ofExcept (r : Except Failure α) : LeavesCursors (MonadExcept.ofExcept r : Action α) := by
  cases r with
  | error e => exact .throw e
  | ok a => exact .pure a

theorem emit (e : Event) : LeavesCursors (Action.emit e) := fun _ => ⟨rfl, rfl⟩

theorem touch (n : Nat) : LeavesCursors (Action.touch n) := fun _ => ⟨rfl, rfl⟩

theorem nextRow (c : Cursor Snapshot) : LeavesCursors (Action.nextRow c) := fun _ => ⟨rfl, rfl⟩

theorem onStore (wrap : StoreError → Failure) (call : StoreM α) :
    LeavesCursors (Action.onStore wrap call) := fun ctx => by
  unfold Action.onStore
  cases call ctx.store <;> exact ⟨rfl, rfl⟩

theorem counted {x : Action α} (h : LeavesCursors x) (call : CallKind) (kind : String) :
    LeavesCursors (Action.counted call kind x) := fun ctx => by
  have hx := h { ctx.emit (.started call kind) with touched := 0 }
  unfold Action.counted
  cases hrun : x { ctx.emit (.started call kind) with touched := 0 } <;>
    rw [hrun] at hx <;> exact hx

end LeavesCursors

namespace Query

theorem leavesCursors_failNotUnique (kind : String) (count : Nat) :
    LeavesCursors (failNotUnique kind count : Action α) :=
  (LeavesCursors.emit _).bind fun _ => .throw _

theorem leavesCursors_gatherUpTo (kind : String) (config : QueryConfig) :
    ∀ (fuel : Nat) (snapshot : Snapshot) (gathered : List Row),
      LeavesCursors (gatherUpTo kind config fuel snapshot gathered)
  | 0, _, gathered => .pure gathered
  | fuel + 1, snapshot, gathered => by
    rw [gatherUpTo]
    refine (LeavesCursors.onStore _ _).bind fun batch => ?_
    dsimp only
    split
    · exact .pure gathered
    · exact (LeavesCursors.ofExcept _).bind fun _ => leavesCursors_gatherUpTo kind config fuel _ _

theorem leavesCursors_gather (q : Query) (config : QueryConfig) :
    LeavesCursors (q.gather config) := by
  unfold gather
  split
  · exact (LeavesCursors.ofExcept _).bind fun _ => .pure _
  · exact (LeavesCursors.onStore _ _).bind fun snapshot =>
      leavesCursors_gatherUpTo q.kind config _ snapshot []

theorem leavesCursors_executeInMemory (q : Query) (config : QueryConfig) (b : Bindings)
    (unique : Bool) : LeavesCursors (q.executeInMemory config b unique) := by
  unfold executeInMemory
  refine (LeavesCursors.emit _).bind fun _ => (q.leavesCursors_gather config).bind fun _ => ?_
  refine (LeavesCursors.emit _).bind fun _ => (LeavesCursors.ofExcept _).bind fun rows => ?_
  split
  · exact (leavesCursors_failNotUnique _ _).bind fun _ =>
      (LeavesCursors.touch _).bind fun _ => .pure _
  · exact (LeavesCursors.touch _).bind fun _ => .pure _

/-- The cursor over which a unique row is looked for is kept by no one. -/
theorem leavesCursors_uniqueRow (kind : String) (c : Cursor Snapshot) :
    LeavesCursors (uniqueRow kind c) := by
  unfold uniqueRow
  refine (LeavesCursors.nextRow c).bind fun first => ?_
  split
  · exact .throw _
  · exact .pure _
  · refine (LeavesCursors.nextRow _).bind fun second => ?_
    split
    · exact .throw _
    · exact .pure _
    · exact leavesCursors_failNotUnique _ _

theorem leavesCursors_executeScan (q : Query) (config : QueryConfig) (s : Scan) :
    LeavesCursors (q.executeScan config true s) := by
  unfold executeScan
  refine (LeavesCursors.emit _).bind fun _ => (LeavesCursors.onStore _ _).bind fun snapshot => ?_
  refine (leavesCursors_uniqueRow _ _).bind fun rows => ?_
  exact (LeavesCursors.touch _).bind fun _ => .pure _

theorem leavesCursors_executeFor (q : Query) (config : QueryConfig) (b : Bindings) :
    LeavesCursors (q.executeFor config b true) := by
  unfold executeFor
  refine LeavesCursors.counted ((LeavesCursors.ofExcept _).bind fun p => ?_) .query q.kind
  cases p with
  | scan s => exact q.leavesCursors_executeScan config s
  | refused reason =>
    exact (LeavesCursors.emit _).bind fun _ => q.leavesCursors_executeInMemory config b true

/-! ## Unique rows -/

/-- Running a query for a unique row answers with the rows of the query, checked. -/
theorem outcome_executeFor_true (q : Query) (config : QueryConfig) (b : Bindings) {ctx : Context}
    (hf : ctx.store.faults = []) : ∃ path, outcome (q.executeFor config b true ctx) =
      (q.answerFor config b true ctx.store.table).map (.rows path) := by
  have hyields := q.yields_executeFor config b true
  cases hrun : q.executeFor config b true ctx with
  | error e ctx' =>
    refine ⟨.native, ?_⟩
    rw [(hyields.of_error hrun).2 hf]
    rfl
  | ok r ctx' =>
    obtain ⟨-, rows, hholds, hrows⟩ := hyields.of_ok hrun
    cases r with
    | rows path rest =>
      refine ⟨path, ?_⟩
      rw [hrows, show rest = rows from hholds]
      rfl
    | stream id => cases q.answers_executeFor_true config b _ _ _ hrun

theorem leavesCursors_uniqueRow? (q : Query) (config : QueryConfig) (b : Bindings) :
    LeavesCursors (q.uniqueRow? config b) := by
  have hcursor := q.answers_executeFor_true config b
  refine (q.leavesCursors_executeFor config b).bind_of_answers hcursor fun r hr => ?_
  cases r with
  | rows path rest =>
    refine LeavesCursors.bind (fun ctx => ?_) fun _ => .pure _
    rw [Result.next_rows]
    exact ⟨rfl, rfl⟩
  | stream id => cases hr

/-- Running a query for a unique row, be it that the query says so or that it is asked for its one
row, answers as the query without that demand does, with its one row if it has any, and fails for
uniqueness exactly if that has two rows or more. In no case, whatever fails, is there a cursor in
the result or a new one that the scope follows. -/
theorem answersUniquely (q : Query) (config : QueryConfig) (b : Bindings) (ctx : Context) :
    (ctx.store.faults = [] →
      (∃ path, AnswersUniquely (outcome (({ q with unique := false } : Query).rows config b ctx))
        (Result.rows path) (outcome (({ q with unique := true } : Query).execute config b ctx))) ∧
      AnswersUniquely (outcome (({ q with unique := false } : Query).rows config b ctx))
        List.head? (outcome (q.uniqueRow? config b ctx))) ∧
    LeavesCursors (({ q with unique := true } : Query).execute config b) ∧
    LeavesCursors (q.uniqueRow? config b) ∧
    (({ q with unique := true } : Query).execute config b).Answers (·.cursor? = none) := by
  refine ⟨fun hf => ?_, leavesCursors_executeFor _ config b, q.leavesCursors_uniqueRow? config b,
    answers_executeFor_true _ config b⟩
  have hplain : outcome (({ q with unique := false } : Query).rows config b ctx) =
      q.answerFor config b false ctx.store.table :=
    (reads_allRows { q with unique := false } config b).outcome_eq hf
  have hrow : outcome (q.uniqueRow? config b ctx) =
      (q.answerFor config b true ctx.store.table).map List.head? := by
    rw [(q.reads_uniqueRow config b).outcome_eq hf]
    cases q.answerFor config b true ctx.store.table <;> rfl
  obtain ⟨path, hresult⟩ := outcome_executeFor_true { q with unique := true } config b hf
  rw [hplain, hrow]
  exact ⟨⟨path, hresult ▸ q.answersUniquely_answerFor config b _ _⟩,
    q.answersUniquely_answerFor config b _ _⟩

/-- The first of the rows of the sample query. -/
def sampleFirst : Query := { sampleQuery with window := { stop := some 1 } }

theorem answersUniquely_sample :
    (∃ e, outcome (sampleQuery.uniqueRow? {} {} sampleContext) = .error e ∧ e.IsNotUnique) ∧
      outcome (sampleFirst.uniqueRow? {} {} sampleContext) = .ok (some (sampleRow 3 7)) := by
  obtain ⟨-, htwo⟩ := (sampleQuery.answersUniquely {} {} sampleContext).1 rfl
  obtain ⟨-, hone⟩ := (sampleFirst.answersUniquely {} {} sampleContext).1 rfl
  exact ⟨htwo.notUnique_iff.2 ⟨[sampleRow 3 7, sampleRow 1 9], rfl, by decide⟩,
    hone.of_atMostOne [sampleRow 3 7] rfl (by decide)⟩

end Query
end EntityGraph
