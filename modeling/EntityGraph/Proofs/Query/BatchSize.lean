import EntityGraph.Proofs.Query.Paths

/-!
# The size of batches

The number of rows that a query fetches at once does not show in what it answers, unless it is zero.
A cursor then fetches one row at a time, but a query that is evaluated in memory finds no candidates
in the store.

* `Query.MissesRows`: a query that answers otherwise than it does in batches of no rows;
* `Query.outcome_batchSize_iff`: the sizes of batches with which a query answers the same;
* `Query.rows_batchSize_zero`: a run in which batches of no rows lose the rows.
-/

namespace EntityGraph

namespace Query

/-- A valid query selects nothing from no candidates. -/
theorem select_nil {q : Query} {b : Bindings} (h : q.validate b = .ok ()) :
    q.select b [] = .ok [] := by
  rw [select_eq h]
  unfold Window.slice
  cases q.window.limit? <;> simp [stableSort]

/-- A query is evaluated in memory on candidates in the store, and it answers with a row or fails:
in batches of no rows it misses that. -/
structure MissesRows (q : Query) (config : QueryConfig) (b : Bindings) (t : RowTable) : Prop where
  inMemory : ∃ reason, q.pushDown config.preference b = .ok (.refused reason)
  inStore : q.candidates.rows? = none
  matched : (q.gathered config t >>= q.select b) ≠ .ok []

variable {q : Query} {config : QueryConfig} {b : Bindings} {t : RowTable} {m n : UInt64}

/-- What a query that is evaluated in memory answers with batches of `m` rows. -/
theorem answerFor_of_refused {reason : Refusal}
    (h : q.pushDown config.preference b = .ok (.refused reason)) (unique : Bool) (m : UInt64)
    (t : RowTable) : q.answerFor { config with batchSize := m } b unique t =
      (q.found { config with batchSize := m } t >>= q.select b) >>= fun rows =>
        checkUnique q.kind unique rows.length rows := by
  rw [answerFor, h, ok_bind, bind_assoc]

/-- Batches of any size but none find all candidates. -/
theorem found_of_ne_zero (h : m ≠ 0) :
    q.found { config with batchSize := m } t = q.gathered config t :=
  q.found_of_pos (toNat_batchSize_pos.2 h) t

/-- Batches of no rows find none of the candidates in the store. -/
theorem found_zero (h : q.candidates.rows? = none) :
    q.found { config with batchSize := 0 } t = .ok [] :=
  if_pos ⟨by rw [h]; rfl, rfl⟩

theorem answerFor_congr (unique : Bool) (h : (m = 0 ↔ n = 0) ∨ ¬q.MissesRows config b t) :
    q.answerFor { config with batchSize := m } b unique t =
      q.answerFor { config with batchSize := n } b unique t := by
  cases hp : q.pushDown config.preference b with
  | error e => simp only [answerFor, hp, error_bind]
  | ok p =>
    cases p with
    | scan s => simp only [answerFor, hp, ok_bind]
    | refused reason =>
      have hv := validate_of_pushDown hp
      rw [answerFor_of_refused hp, answerFor_of_refused hp]
      suffices hsel : (q.found { config with batchSize := m } t >>= q.select b) =
          (q.found { config with batchSize := n } t >>= q.select b) by rw [hsel]
      -- Candidates at hand are not read in batches, so that only those in the store are at issue.
      by_cases hc : q.candidates.rows? = none
      · by_cases hmn : m = 0 ↔ n = 0
        · simp only [found, hmn]
          rfl
        · have hnone : (q.gathered config t >>= q.select b) = .ok [] := by
            by_contra hne
            exact h.elim hmn fun hmiss => hmiss ⟨⟨reason, hp⟩, hc, hne⟩
          have hall : ∀ k : UInt64,
              (q.found { config with batchSize := k } t >>= q.select b) = .ok [] := by
            intro k
            by_cases hk : k = 0
            · rw [hk, found_zero hc, ok_bind, select_nil hv]
            · rw [found_of_ne_zero hk, hnone]
          rw [hall m, hall n]
      · simp only [found, Option.isNone_iff_eq_none, hc, false_and, if_false]
        rfl

variable {α : Type} {view : List Row → α}

/-- Batches of no rows miss what other batches find, and it shows to anyone who can tell no rows
from some. -/
theorem MissesRows.view_ne (h : q.MissesRows config b t) (unique : Bool)
    (hview : ∀ rows, view rows = view [] → rows = []) (hm : m ≠ 0) :
    (q.answerFor { config with batchSize := m } b unique t >>= fun rows => .ok (view rows)) ≠
      (q.answerFor { config with batchSize := 0 } b unique t >>= fun rows => .ok (view rows)) := by
  obtain ⟨reason, hp⟩ := h.inMemory
  have hmatched := h.matched
  rw [answerFor_of_refused hp, answerFor_of_refused hp, found_zero h.inStore, ok_bind,
    select_nil (validate_of_pushDown hp), found_of_ne_zero hm]
  cases hsel : q.gathered config t >>= q.select b with
  | error e => simp [checkUnique]
  | ok rows =>
    rw [hsel] at hmatched
    have hne : rows ≠ [] := fun hnil => hmatched (by rw [hnil])
    simp only [ok_bind, checkUnique]
    split
    · simp
    · simpa using fun heq => hne (hview rows heq)

theorem view_answerFor_iff (unique : Bool) (hview : ∀ rows, view rows = view [] → rows = []) :
    (q.answerFor { config with batchSize := m } b unique t >>= fun rows => .ok (view rows)) =
        (q.answerFor { config with batchSize := n } b unique t >>= fun rows => .ok (view rows)) ↔
      (m = 0 ↔ n = 0) ∨ ¬q.MissesRows config b t := by
  constructor
  · intro heq
    by_contra hcon
    obtain ⟨hmn, hmiss⟩ := not_or.1 hcon
    have hmiss := not_not.1 hmiss
    by_cases hm : m = 0
    · have hn : n ≠ 0 := fun hn => hmn ⟨fun _ => hn, fun _ => hm⟩
      subst hm
      exact hmiss.view_ne unique hview hn heq.symm
    · have hn : n = 0 := not_not.1 fun hn => hmn ⟨fun h => absurd h hm, fun h => absurd h hn⟩
      subst hn
      exact hmiss.view_ne unique hview hm heq
  · intro h
    rw [answerFor_congr unique h]

/-- With two sizes of batches a query has the same outcome, be all its rows read or its one row, if
none or both of the sizes are zero, and else if nothing is missed in batches of no rows. -/
theorem outcome_batchSize_iff (q : Query) (config : QueryConfig) (b : Bindings) (ctx : Context)
    (m n : UInt64) (hf : ctx.store.faults = []) :
    (outcome (q.rows { config with batchSize := m } b ctx) =
        outcome (q.rows { config with batchSize := n } b ctx) ↔
      (m = 0 ↔ n = 0) ∨ ¬q.MissesRows config b ctx.store.table) ∧
    (outcome (q.uniqueRow? { config with batchSize := m } b ctx) =
        outcome (q.uniqueRow? { config with batchSize := n } b ctx) ↔
      (m = 0 ↔ n = 0) ∨ ¬q.MissesRows config b ctx.store.table) := by
  have hrows : ∀ k : UInt64, outcome (q.rows { config with batchSize := k } b ctx) =
      (q.answerFor { config with batchSize := k } b q.unique ctx.store.table >>= fun rows =>
        .ok (id rows)) := by
    intro k
    have hreads : Reads Context.store (q.rows { config with batchSize := k } b) _ :=
      (q.yields_executeFor { config with batchSize := k } b q.unique).readAll
    rw [hreads.outcome_eq hf]
    exact (bind_ok_self _).symm
  have hunique := fun k : UInt64 =>
    (q.reads_uniqueRow { config with batchSize := k } b).outcome_eq hf
  rw [hrows, hrows, hunique, hunique]
  exact ⟨view_answerFor_iff q.unique fun _ h => h,
    view_answerFor_iff true fun rows h => List.head?_eq_none_iff.1 h⟩

/-- Evaluated in memory, the sample query finds its two rows in batches of one and of twenty. -/
theorem outcome_batchSize_sample : sampleContext.store.faults = [] ∧
    outcome (({ sampleQuery with preference := .inMemory } : Query).rows { batchSize := 1 } {}
        sampleContext) =
      outcome (({ sampleQuery with preference := .inMemory } : Query).rows { batchSize := 20 } {}
        sampleContext) := by
  have h := outcome_batchSize_iff { sampleQuery with preference := .inMemory } {} {} sampleContext
    1 20 rfl
  exact ⟨rfl, h.1.2 (.inl (by decide))⟩

/-- Evaluated in memory, the sample query finds two rows in batches of one, and none in batches of
no rows. -/
theorem rows_batchSize_zero : sampleContext.store.faults = [] ∧
    outcome (({ sampleQuery with preference := .inMemory } : Query).rows { batchSize := 1 } {}
        sampleContext) = .ok [sampleRow 3 7, sampleRow 1 9] ∧
    outcome (({ sampleQuery with preference := .inMemory } : Query).rows { batchSize := 0 } {}
        sampleContext) = .ok [] :=
  ⟨rfl, rfl, rfl⟩

end Query
end EntityGraph
