import EntityGraph.Proofs.Query.Paths

/-!
# Paging

The window of a query is applied last, wherever the query is run: to the rows that the query answers
with over every position. Neither the validity of the query nor its path depends on a window that
ends after it starts, so that pages which meet join without a gap or a repetition:

* `Window.slice_append`: two windows that meet hold the elements of the window over both;
* `Query.onPage`: a query over other positions;
* `Query.pushDown_onPage`, `Query.answerFor_onPage`: what a window changes of a query;
* `Query.rows_joined`: the rows of two pages, one after the other, are those of both.
-/

namespace EntityGraph

/-! ## Windows -/

namespace Window

variable {start mid : UInt64} {stop : Option UInt64}

theorem validate_eq_ok_iff : (⟨start, stop⟩ : Window).validate = .ok () ↔
    ∀ n ∈ stop, start ≤ n := by
  unfold validate
  cases stop with
  | none => simp
  | some stop => simp

/-- A window that ends after it starts holds as many positions as lie between. -/
theorem slice_of_le {α : Type} {stop : UInt64} (h : start ≤ stop) (xs : List α) :
    (⟨start, some stop⟩ : Window).slice xs =
      (xs.drop start.toNat).take (stop.toNat - start.toNat) := by
  simp only [slice, limit?, Option.map_some, UInt64.not_lt.2 h, if_false,
    UInt64.toNat_sub_of_le _ _ h]

theorem slice_none {α : Type} (xs : List α) :
    (⟨start, none⟩ : Window).slice xs = xs.drop start.toNat := rfl

/-- The window over every position. -/
@[simp] theorem slice_empty {α : Type} (xs : List α) : ({} : Window).slice xs = xs := rfl

/-- Of two windows that meet, the elements of the first and then those of the second are the
elements of the window over both. -/
theorem slice_append {α : Type} (hmid : start ≤ mid) (hstop : ∀ n ∈ stop, mid ≤ n)
    (xs : List α) : (⟨start, some mid⟩ : Window).slice xs ++ (⟨mid, stop⟩ : Window).slice xs =
      (⟨start, stop⟩ : Window).slice xs := by
  have hle : start.toNat ≤ mid.toNat := UInt64.le_iff_toNat_le.1 hmid
  have hdrop : xs.drop mid.toNat = (xs.drop start.toNat).drop (mid.toNat - start.toNat) := by
    rw [List.drop_drop, Nat.add_sub_cancel' hle]
  cases stop with
  | none => rw [slice_of_le hmid, slice_none, slice_none, hdrop, List.take_append_drop]
  | some stop =>
    have hend : mid ≤ stop := hstop stop rfl
    have hle' : mid.toNat ≤ stop.toNat := UInt64.le_iff_toNat_le.1 hend
    have hsum : stop.toNat - start.toNat =
        (mid.toNat - start.toNat) + (stop.toNat - mid.toNat) := by omega
    rw [slice_of_le hmid, slice_of_le hend, slice_of_le (UInt64.le_trans hmid hend), hdrop, hsum,
      List.take_add]

end Window

/-! ## The window of a query -/

/-- What became of a query that was offered over other positions. -/
def Pushdown.onPage (start : UInt64) (stop : Option UInt64) : Pushdown → Pushdown
  | scan s => .scan { s with window := ⟨start, stop⟩ }
  | refused reason => .refused reason

@[simp] theorem Pushdown.path_onPage (start : UInt64) (stop : Option UInt64) (p : Pushdown) :
    (p.onPage start stop).path = p.path := by
  cases p <;> rfl

namespace Query

/-- A query over the positions from `start` up to `stop`, in the place of its own. -/
abbrev onPage (q : Query) (start : UInt64) (stop : Option UInt64) : Query :=
  { q with window := ⟨start, stop⟩ }

variable {q : Query} {config : QueryConfig} {b : Bindings} {start mid : UInt64}
  {stop : Option UInt64}

/-- A window that ends after it starts shows in no fault. -/
theorem validate_onPage (h : ∀ n ∈ stop, start ≤ n) :
    (q.onPage start stop).validate b = (q.onPage 0 none).validate b := by
  have hw : (⟨start, stop⟩ : Window).validate = .ok () := Window.validate_eq_ok_iff.2 h
  have hall : (⟨0, none⟩ : Window).validate = .ok () := rfl
  simp only [validate, hw, hall]

/-- The scan of a query over a page is the scan over all positions, with the window of the page. -/
theorem toScan_onPage (start : UInt64) (stop : Option UInt64) (preference : Preference) :
    (q.onPage start stop).toScan preference b =
      ((q.onPage 0 none).toScan preference b).map ({ · with window := ⟨start, stop⟩ }) := by
  by_cases h : preference = .inMemory
  · subst h
    rfl
  · rw [toScan_eq h, toScan_eq h]
    change (q.candidateScan preference >>= fun s => q.filterScan b s >>= fun s => _) =
      Except.map _ (q.candidateScan preference >>= fun s => q.filterScan b s >>= fun s => _)
    cases q.candidateScan preference with
    | error reason => rfl
    | ok s => cases hfilter : q.filterScan b s with
      | error reason => simp [hfilter, Except.map]
      | ok s => cases hsort : s.sortBy q.ordering <;> simp [hfilter, hsort, Except.map]

/-- A window that ends after it starts neither has a query refused nor has it run by the store. -/
theorem pushDown_onPage (h : ∀ n ∈ stop, start ≤ n) (preference : Preference) :
    (q.onPage start stop).pushDown preference b =
      ((q.onPage 0 none).pushDown preference b).map (Pushdown.onPage start stop) := by
  unfold pushDown effectivePreference
  rw [validate_onPage h]
  cases (q.onPage 0 none).validate b with
  | error e => rfl
  | ok =>
    simp only [ok_bind, toScan_onPage start stop]
    cases (q.onPage 0 none).toScan _ b <;> rfl

/-- A query over a page selects the page of what it selects over all positions. -/
theorem select_onPage (start : UInt64) (stop : Option UInt64) (candidates : List Row) :
    (q.onPage start stop).select b candidates =
      ((q.onPage 0 none).select b candidates).map (⟨start, stop⟩ : Window).slice := by
  unfold select
  cases hf : q.filter with
  | none => rfl
  | some f => cases hs : f.select b candidates <;> simp [hs, Except.map]

/-- A query over a page answers with the page of what it answers over all positions, or fails with
the same failure. -/
theorem answerFor_onPage (h : ∀ n ∈ stop, start ≤ n) (t : RowTable) :
    (q.onPage start stop).answerFor config b false t =
      ((q.onPage 0 none).answerFor config b false t).map (⟨start, stop⟩ : Window).slice := by
  unfold answerFor
  rw [pushDown_onPage h]
  cases hp : (q.onPage 0 none).pushDown config.preference b with
  | error e => rfl
  | ok p =>
    cases p with
    | scan s =>
      obtain ⟨-, hs⟩ := pushDown_eq_scan.1 hp
      obtain ⟨-, -, -, -, hw, -⟩ := toScan_spec hs
      have hall : ({ s with window := ⟨start, stop⟩ } : Scan).answer t.rows =
          (⟨start, stop⟩ : Window).slice (s.answer t.rows) := by
        rw [Scan.answer, Scan.answer, hw]
        rfl
      change (s.check.mapError (Failure.queryStore q.kind) >>= fun _ => .ok _) = Except.map _
        (s.check.mapError (Failure.queryStore q.kind) >>= fun _ => .ok _)
      rw [hall]
      cases s.check <;> rfl
    | refused reason =>
      change (q.found config t >>= fun rows =>
        (q.onPage start stop).select b rows >>= fun rows => .ok rows) = Except.map _
          (q.found config t >>= fun rows =>
            (q.onPage 0 none).select b rows >>= fun rows => .ok rows)
      simp only [bind_ok_self, select_onPage start stop]
      cases q.found config t <;> rfl

/-- What running a query over a page and reading all its rows comes to. -/
theorem outcome_onPage (hu : q.unique = false) (h : ∀ n ∈ stop, start ≤ n) {ctx : Context}
    (hf : ctx.store.faults = []) : outcome ((q.onPage start stop).rows config b ctx) =
      ((q.onPage 0 none).answerFor config b false ctx.store.table).map
        (⟨start, stop⟩ : Window).slice := by
  rw [((q.onPage start stop).reads_allRows config b).outcome_eq hf, hu, answerFor_onPage h]

/-- A query takes one path over every page. -/
theorem takes_onPage {p : Pushdown} (h : ∀ n ∈ stop, start ≤ n)
    (hp : (q.onPage 0 none).pushDown config.preference b = .ok p) :
    (q.onPage start stop).Takes config b p.path := by
  have hpage : (q.onPage start stop).pushDown config.preference b = .ok (p.onPage start stop) := by
    rw [pushDown_onPage h, hp]
    rfl
  rw [← Pushdown.path_onPage start stop p]
  exact takes_of_pushDown hpage

/-- Two pages against the page over both of them: their rows, one after the other, are the rows of
that page, or all three fail for one reason. -/
inductive Joins : Except Failure (List Row) → Except Failure (List Row) →
    Except Failure (List Row) → Prop
  | rows (first second : List Row) : Joins (.ok first) (.ok second) (.ok (first ++ second))
  | failed (e : Failure) : Joins (.error e) (.error e) (.error e)

/-- A query that is not for a unique row is run over two pages that meet and over the page over
both, on stores with the same rows and without faults. The rows of the two pages, one after the
other, are those of the page over both, or all three fail for one reason. All three take one path,
unless the query is malformed. -/
theorem rows_joined (q : Query) (config : QueryConfig) (b : Bindings) (hu : q.unique = false)
    (hmid : start ≤ mid) (hstop : ∀ n ∈ stop, mid ≤ n) {ctx ctx₁ ctx₂ : Context}
    (hf : ctx.store.faults = []) (hf₁ : ctx₁.store.faults = []) (hf₂ : ctx₂.store.faults = [])
    (ht₁ : ctx₁.store.table = ctx.store.table) (ht₂ : ctx₂.store.table = ctx.store.table) :
    Joins (outcome ((q.onPage start (some mid)).rows config b ctx₁))
      (outcome ((q.onPage mid stop).rows config b ctx₂))
      (outcome ((q.onPage start stop).rows config b ctx)) ∧
    ((∃ e, outcome ((q.onPage start stop).rows config b ctx) = .error e ∧
        e.report.category = .malformed) ∨
      ∃ path, (q.onPage start (some mid)).Takes config b path ∧
        (q.onPage mid stop).Takes config b path ∧ (q.onPage start stop).Takes config b path) := by
  have hfirst : ∀ n ∈ some mid, start ≤ n := by simpa using hmid
  have hwhole : ∀ n ∈ stop, start ≤ n := fun n hn => UInt64.le_trans hmid (hstop n hn)
  rw [outcome_onPage hu hfirst hf₁, outcome_onPage hu hstop hf₂, outcome_onPage hu hwhole hf, ht₁,
    ht₂]
  constructor
  · cases (q.onPage 0 none).answerFor config b false ctx.store.table with
    | error e => exact .failed e
    | ok rows =>
      simp only [Except.map]
      rw [← Window.slice_append hmid hstop rows]
      exact .rows _ _
  · cases hv : (q.onPage 0 none).validate b with
    | error e =>
      refine .inl ⟨e, ?_, failsMalformed_validate _ b e hv⟩
      rw [answerFor, pushDown_of_invalid hv]
      rfl
    | ok =>
      obtain ⟨p, hp⟩ := exists_pushDown hv config.preference
      exact .inr ⟨p.path, takes_onPage hfirst hp, takes_onPage hstop hp, takes_onPage hwhole hp⟩

/-- The first row of the sample query on one page and the other, with room for more, on the next. -/
theorem rows_joined_sample : sampleContext.store.faults = [] ∧
    outcome ((sampleQuery.onPage 0 (some 1)).rows {} {} sampleContext) = .ok [sampleRow 3 7] ∧
    outcome ((sampleQuery.onPage 1 (some 9)).rows {} {} sampleContext) = .ok [sampleRow 1 9] ∧
    Joins (outcome ((sampleQuery.onPage 0 (some 1)).rows {} {} sampleContext))
      (outcome ((sampleQuery.onPage 1 (some 9)).rows {} {} sampleContext))
      (outcome ((sampleQuery.onPage 0 (some 9)).rows {} {} sampleContext)) := by
  have hf : sampleContext.store.faults = [] := rfl
  have hmid : (0 : UInt64) ≤ 1 := by decide
  have hstop : ∀ n ∈ some (9 : UInt64), 1 ≤ n := by simp
  exact ⟨hf, rfl, rfl, (sampleQuery.rows_joined {} {} rfl hmid hstop hf hf hf rfl rfl).1⟩

end Query
end EntityGraph
