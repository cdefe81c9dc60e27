import EntityGraph.Proofs.Query.Paths
import EntityGraph.Proofs.Store.Numbering

/-!
# Queries with their candidates at hand

A query whose candidates are at hand is evaluated on them in memory, unless the store is asked for:
then it scans for the keys of the candidates. If these are rows of the kind as they are stored, in
key order and each of them once, the scan finds just the candidates, and the query answers alike
wherever it is run.

* `Scan.withCondition`: a scan with a further condition in front, which stands in the way of
  nothing if it is a membership;
* `Query.toScan_materialized`: a query with its candidates at hand is pushed down whenever the same
  query of the rows of its kind is, to the same scan with the keys in front;
* `Query.Stored`: candidates at hand that are rows of the store;
* `Query.outcome_materialized`: such a query answers alike wherever it is run.
-/

namespace EntityGraph

/-! ## One more membership -/

namespace Scan

/-- The scan with one more condition, before all others. -/
def withCondition (s : Scan) (c : ScanCondition) : Scan :=
  { s with conditions := c :: s.conditions }

variable {b : Bindings} {c : ScanCondition} {s : Scan}

theorem narrow_withCondition (x : Conjunct) :
    (s.withCondition c).narrow b x = (s.narrow b x).map (·.withCondition c) := by
  cases x with
  | under ancestor =>
    simp only [narrow, withCondition]
    cases ancestor.resolveAncestor b with
    | error e => rfl
    | ok k => by_cases h : s.ancestor.any (· != k) <;> simp only [h] <;> rfl
  | compare field op operand =>
    simp only [narrow, withCondition]
    cases ScanField.ofField? field <;> simp only
    · rfl
    cases ScanOp.ofComparator? op <;> simp only
    · rfl
    cases operand.resolve b <;> simp only
    · rfl
    split
    · rfl
    · split <;> rfl

theorem narrowAll_withCondition : ∀ {cs : List Conjunct} {s : Scan},
    (s.withCondition c).narrowAll b cs = (s.narrowAll b cs).map (·.withCondition c)
  | [], _ => rfl
  | x :: cs, s => by
    rw [narrowAll, narrowAll, narrow_withCondition]
    cases s.narrow b x with
    | error e => rfl
    | ok s₁ => exact narrowAll_withCondition

variable (hc : c.op = .within)
include hc

theorem inequalityFields_withCondition :
    (s.withCondition c).inequalityFields = s.inequalityFields := by
  simp [inequalityFields, withCondition, hc, ScanOp.isInequality, ScanOp.isLowerBound,
    ScanOp.isUpperBound]

theorem checkInequalities_withCondition :
    (s.withCondition c).checkInequalities = s.checkInequalities := by
  have hlower : c.op.isLowerBound = false := by rw [hc]; rfl
  have hupper : c.op.isUpperBound = false := by rw [hc]; rfl
  rw [checkInequalities, checkInequalities, inequalityFields_withCondition hc]
  simp only [withCondition, List.countP_cons, hlower, hupper, Bool.false_eq_true, if_false,
    Nat.add_zero]

theorem sortBy_withCondition (ordering : List SortKey) :
    (s.withCondition c).sortBy ordering = (s.sortBy ordering).map (·.withCondition c) := by
  have hpins : ∀ f, (s.withCondition c).pins f = s.pins f := by
    intro f
    simp [pins, withCondition, hc]
  simp only [sortBy, inequalityFields_withCondition hc, hpins]
  cases scanSorts ordering with
  | error e => rfl
  | ok sorts =>
    simp only [ok_bind]
    split
    · split <;> rfl
    · rfl

end Scan

namespace Query

theorem filterScan_withCondition {q : Query} {b : Bindings} {c : ScanCondition} {s : Scan}
    (hc : c.op = .within) :
    q.filterScan b (s.withCondition c) = (q.filterScan b s).map (·.withCondition c) := by
  unfold filterScan
  cases q.filter with
  | none => rfl
  | some filter =>
    simp only
    split
    · rfl
    cases filter.conjuncts with
    | error e => rfl
    | ok cs =>
      simp only [ok_bind, Scan.narrowAll_withCondition]
      cases s.narrowAll b cs with
      | error e => rfl
      | ok s₁ =>
        simp only [Except.map, ok_bind, Scan.checkInequalities_withCondition hc]
        cases s₁.checkInequalities <;> rfl

/-- The condition that a row is one of the candidates. -/
def keyCondition (candidates : List Row) : ScanCondition :=
  ⟨.key, .within, .list (candidates.map (.key ·.key))⟩

variable {q : Query} {candidates : List Row}

/-- If the store is asked for, a query with its candidates at hand is pushed down as the same query
of the rows of its kind is, and is refused as that is. The keys come before the other conditions. -/
theorem toScan_materialized (hcand : q.candidates.rows? = some candidates) (b : Bindings) :
    q.toScan .native b = (({ q with candidates := .scan } : Query).toScan .native b).map
      (·.withCondition (keyCondition candidates)) := by
  have hkeys : q.candidateScan .native =
      .ok (({ kind := q.kind } : Scan).withCondition (keyCondition candidates)) := by
    simp only [candidateScan, hcand]
    rfl
  have hscan : ({ q with candidates := .scan } : Query).candidateScan .native =
      .ok { kind := q.kind } := rfl
  have hfilter : ({ q with candidates := .scan } : Query).filterScan b { kind := q.kind } =
      q.filterScan b { kind := q.kind } := rfl
  simp only [toScan, hkeys, hscan, hfilter, ok_bind, reduceCtorEq, if_false,
    filterScan_withCondition (c := keyCondition candidates) rfl]
  cases q.filterScan b { kind := q.kind } with
  | error e => rfl
  | ok s =>
    simp only [Except.map, ok_bind, Scan.sortBy_withCondition (c := keyCondition candidates) rfl]
    cases s.sortBy q.ordering <;> rfl

/-! ## Candidates that are stored -/

theorem holds_keyCondition {row : Row} :
    (keyCondition candidates).holds row = true ↔ ∃ r ∈ candidates, r.key = row.key := by
  have hequals : ∀ k : Key, (Value.key row.key).equals (.key k) = true ↔ k = row.key := by
    intro k
    simp only [Value.equals, Value.order?, beq_iff_eq, Option.some.injEq]
    exact ⟨fun h => (Std.LawfulEqCmp.eq_of_compare h).symm, fun h => h ▸ Std.ReflCmp.compare_self⟩
  simp [keyCondition, ScanCondition.holds, ScanField.resolve, ScanField.toField, Field.resolve,
    ScanOp.toComparator, Value.compareField, Value.isNull, Value.test, Value.testScalar,
    Truth.ofBool_eq_holds, hequals]

/-- The candidates at hand are rows of a kind as they are stored, in key order and each of them
once. -/
structure Stored (kind : String) (t : RowTable) (candidates : List Row) : Prop where
  nodup : candidates.Nodup
  sorted : candidates.Pairwise fun r r' => (r.key.compare r'.key).isLE
  kind : ∀ r ∈ candidates, r.kind = kind
  stored : ∀ r ∈ candidates, t.row? r.key = some r

/-- The rows under the keys of stored candidates are the candidates. -/
theorem Stored.filter_rows {kind : String} {t : RowTable} (h : Stored kind t candidates) :
    t.rows.filter ({ kind, conditions := [keyCondition candidates] } : Scan).selects =
      candidates := by
  have hmem : ∀ r, r ∈ t.rows.filter
      ({ kind, conditions := [keyCondition candidates] } : Scan).selects ↔ r ∈ candidates := by
    intro r
    simp only [List.mem_filter, Scan.selects, Option.all_none, Bool.and_true, List.all_cons,
      List.all_nil, Bool.and_eq_true, beq_iff_eq, holds_keyCondition, RowTable.mem_rows]
    constructor
    · rintro ⟨hrow, -, r', hr', hkey⟩
      have hstored := h.stored r' hr'
      rw [hkey, hrow] at hstored
      cases hstored
      exact hr'
    · exact fun hr => ⟨h.stored r hr, h.kind r hr, r, hr, rfl⟩
  have hrows : t.rows.Pairwise fun r r' => (r.key.compare r'.key).isLE :=
    List.pairwise_map.2 (t.byKey.sorted.imp fun hlt => Ordering.isLE_of_eq_lt hlt)
  refine List.Perm.eq_of_pairwise (fun r r' hr hr' hle hge => ?_) (hrows.filter _) h.sorted <|
    (List.perm_ext_iff_of_nodup (t.nodup_rows.filter _) h.nodup).2 hmem
  -- Rows under one key are the row that is stored there.
  have hkey : r.key = r'.key :=
    Std.LawfulEqCmp.eq_of_compare (Std.OrientedCmp.isLE_antisymm hle hge)
  have hstored := h.stored r ((hmem r).1 hr)
  rw [hkey, h.stored r' hr'] at hstored
  exact (Option.some.inj hstored).symm

/-- A scan that a query with stored candidates is pushed down to answers with those that the query
selects from them. -/
theorem select_eq_answer_of_stored {t : RowTable} {preference : Preference} {b : Bindings}
    {s : Scan} (hcand : q.candidates.rows? = some candidates) (hstored : Stored q.kind t candidates)
    (hv : q.validate b = .ok ()) (h : q.toScan preference b = .ok s) :
    q.select b candidates = .ok (s.answer t.rows) := by
  obtain ⟨s₀, h₀, -⟩ := toScan_spec h
  have hs₀ : s₀ = { kind := q.kind, conditions := [keyCondition candidates] } := by
    simp only [candidateScan, hcand] at h₀
    split at h₀ <;> cases h₀
    rfl
  have hrows : t.rows.filter s₀.selects = candidates := hs₀ ▸ hstored.filter_rows
  have hanswer := select_candidates_eq_answer hv h h₀ t.rows
  rwa [hrows] at hanswer

/-! ## Answers -/

/-- Two runs of a query answer alike: with the same rows, or with failures of one category. -/
inductive AnswersAlike : Except Failure (List Row) → Except Failure (List Row) → Prop where
  | ok (rows : List Row) : AnswersAlike (.ok rows) (.ok rows)
  | error {e e' : Failure} : e'.report.category = e.report.category →
      AnswersAlike (.error e) (.error e')

theorem checkUnique_eq_ok {kind : String} {unique : Bool} {count : Nat} {rows rows' : List Row} :
    checkUnique kind unique count rows = .ok rows' ↔
      rows = rows' ∧ (unique = true → rows.length ≤ 1) := by
  unfold checkUnique
  cases unique with
  | false => simp
  | true => by_cases h : 1 < rows.length <;> simp [h, Nat.not_lt.1]

/-- The number of rows is all that a failure for uniqueness may differ in. -/
theorem answersAlike_checkUnique (kind : String) (unique : Bool) (m n : Nat) (rows : List Row) :
    AnswersAlike (checkUnique kind unique m rows) (checkUnique kind unique n rows) := by
  unfold checkUnique
  split
  · exact .error rfl
  · exact .ok rows

/-- What a query with stored candidates answers: the rows that it selects from them. Where it is run
shows only in the number of rows that a failure for uniqueness tells of. -/
theorem answerFor_of_stored (q : Query) (config : QueryConfig) {t : RowTable} (b : Bindings)
    (hcand : q.candidates.rows? = some candidates) (hstored : Stored q.kind t candidates)
    (hcap : config.candidateCap = none) (unique : Bool) : ∃ count : List Row → Nat,
      q.answerFor config b unique t =
        q.validate b >>= fun _ => q.select b candidates >>= fun rows =>
          checkUnique q.kind unique (count rows) rows := by
  refine q.answerFor_of_candidates config b ?_
    (fun s hv hs => select_eq_answer_of_stored hcand hstored hv hs) unique
  simp [found, gathered, checkCap, candidateRows, hcand, hcap]

/-- A query whose candidates at hand are stored answers alike wherever it is run, and with batches
of any size: with the rows that it selects from the candidates, or with a failure if it is malformed
or has more rows than it may. If the store is asked for, it is pushed down as the query of all rows
of the kind is, with the keys of the candidates in front. -/
theorem outcome_of_stored (q : Query) (config : QueryConfig) (b : Bindings) (ctx : Context)
    (candidates : List Row) (hcand : q.candidates.rows? = some candidates)
    (hstored : Stored q.kind ctx.store.table candidates) (hf : ctx.store.faults = [])
    (hcap : config.candidateCap = none) :
    (∀ own own' preference preference' : Preference, AnswersAlike
      (outcome (({ q with preference := own } : Query).rows { config with preference } b ctx))
      (outcome (({ q with preference := own' } : Query).rows
        { config with preference := preference' } b ctx))) ∧
    (∀ (own preference : Preference) (rows : List Row),
      outcome (({ q with preference := own } : Query).rows { config with preference } b ctx) =
          .ok rows ↔
        q.validate b = .ok () ∧ q.select b candidates = .ok rows ∧
          (q.unique = true → rows.length ≤ 1)) ∧
    q.toScan .native b = (({ q with candidates := .scan } : Query).toScan .native b).map
      (·.withCondition (keyCondition candidates)) := by
  have hrun : ∀ own preference : Preference, ∃ count : List Row → Nat,
      outcome (({ q with preference := own } : Query).rows { config with preference } b ctx) =
        q.validate b >>= fun _ => q.select b candidates >>= fun rows =>
          checkUnique q.kind q.unique (count rows) rows := by
    intro own preference
    have hreads := (({ q with preference := own } : Query).yields_executeFor
      { config with preference } b q.unique).readAll
    obtain ⟨count, hcount⟩ := answerFor_of_stored { q with preference := own }
      { config with preference } b hcand hstored hcap q.unique
    exact ⟨count, (hreads.outcome_eq hf).trans hcount⟩
  refine ⟨fun own own' preference preference' => ?_, fun own preference rows => ?_,
    toScan_materialized hcand b⟩
  · obtain ⟨count, h⟩ := hrun own preference
    obtain ⟨count', h'⟩ := hrun own' preference'
    rw [h, h']
    cases q.validate b with
    | error e => exact .error rfl
    | ok =>
      cases q.select b candidates with
      | error e => exact .error rfl
      | ok rows => exact answersAlike_checkUnique ..
  · obtain ⟨count, h⟩ := hrun own preference
    rw [h]
    simp only [bind_eq_ok, checkUnique_eq_ok]
    constructor
    · rintro ⟨⟨⟩, hv, _, hsel, rfl, hlen⟩
      exact ⟨hv, hsel, hlen⟩
    · rintro ⟨hv, hsel, hlen⟩
      exact ⟨(), hv, rows, hsel, rfl, hlen⟩

/-- Two of three rows in a store, in a collection. -/
def sampleCollection : List Row := [sampleRow 1 9, sampleRow 3 7]

theorem stored_sampleCollection : Stored "Book" sampleContext.store.table sampleCollection where
  nodup := by
    refine List.nodup_cons.2 ⟨fun h => ?_, by simp⟩
    have hkey := congrArg Row.key (List.mem_singleton.1 h)
    revert hkey
    decide
  sorted := List.pairwise_pair.2 (by decide)
  kind r hr := by
    simp only [sampleCollection, List.mem_cons, List.not_mem_nil, or_false] at hr
    rcases hr with rfl | rfl <;> rfl
  stored r hr := by
    simp only [sampleCollection, List.mem_cons, List.not_mem_nil, or_false] at hr
    rcases hr with rfl | rfl <;> rfl

theorem outcome_of_stored_sample :
    outcome (({ sampleQuery with
        candidates := .collection sampleCollection, preference := .native } : Query).rows {} {}
          sampleContext) = .ok [sampleRow 3 7, sampleRow 1 9] ∧
      outcome (({ sampleQuery with
        candidates := .collection sampleCollection, preference := .inMemory } : Query).rows {} {}
          sampleContext) = .ok [sampleRow 3 7, sampleRow 1 9] := by
  have h := outcome_of_stored { sampleQuery with candidates := .collection sampleCollection } {} {}
    sampleContext sampleCollection rfl stored_sampleCollection rfl rfl
  have hselect : ({ sampleQuery with
      candidates := .collection sampleCollection } : Query).select {} sampleCollection =
        .ok [sampleRow 3 7, sampleRow 1 9] := rfl
  exact ⟨(h.2.1 .native .auto _).2 ⟨rfl, hselect, nofun⟩,
    (h.2.1 .inMemory .auto _).2 ⟨rfl, hselect, nofun⟩⟩

end Query
end EntityGraph
