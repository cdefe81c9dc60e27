import EntityGraph.Proofs.Query.Execution

/-!
# Both paths of a query

A query whose candidates are the rows of its kind answers the same whether the store runs it or it
is evaluated in memory, and it fails only where it is malformed:

* `Query.failsMalformed_validate`: a query that does not pass validation is malformed;
* `Query.Takes`: the path that a query takes, and of which its results tell;
* `Query.answerFor_of_candidates`: what a query answers of which the candidates are known;
* `Query.answer_eq_select`: what a query answers, whatever its preference;
* `Query.outcome_rows_eq_select`: the outcome of running the query and reading all its rows.
-/

namespace EntityGraph

variable {α β : Type}

/-! ## Faults of a query -/

/-- A step fails for malformed queries only. -/
def FailsMalformed (x : Except Failure α) : Prop :=
  ∀ e, x = .error e → e.report.category = .malformed

namespace FailsMalformed

theorem ok (a : α) : FailsMalformed (.ok a) := fun _ h => by cases h

theorem error {e : Failure} (h : e.report.category = .malformed) :
    FailsMalformed (.error e : Except Failure α) := fun _ he => by
  cases he
  exact h

theorem bind {x : Except Failure α} {f : α → Except Failure β} (hx : FailsMalformed x)
    (hf : ∀ a, FailsMalformed (f a)) : FailsMalformed (x >>= f) := by
  cases x with
  | error e => exact error (hx e rfl)
  | ok a => exact hf a

end FailsMalformed

theorem Field.failsMalformed_validate (f : Field) : FailsMalformed f.validate := by
  unfold Field.validate
  split
  · exact .error rfl
  · exact .ok ()

theorem Window.failsMalformed_validate (w : Window) : FailsMalformed w.validate := by
  unfold Window.validate
  split
  · split
    · exact .error rfl
    · exact .ok ()
  · exact .ok ()

theorem Operand.failsMalformed_resolve (o : Operand) (b : Bindings) :
    FailsMalformed (o.resolve b) := by
  unfold resolve
  split
  · exact .ok _
  · split
    · exact .ok _
    · exact .error rfl

theorem Operand.failsMalformed_resolveAncestor (o : Operand) (b : Bindings) :
    FailsMalformed (o.resolveAncestor b) := by
  refine (o.failsMalformed_resolve b).bind fun v => ?_
  split
  · split
    · exact .ok _
    · exact .error rfl
  · exact .error rfl

namespace Filter

mutual

theorem failsMalformed_validate (b : Bindings) : ∀ f : Filter, FailsMalformed (f.validate b)
  | and parts => by
    rw [validate]
    exact failsMalformed_validateAll b parts
  | or parts => by
    rw [validate]
    exact failsMalformed_validateAll b parts
  | not part => by
    rw [validate]
    exact failsMalformed_validate b part
  | compare field op operand => by
    rw [validate]
    refine field.failsMalformed_validate.bind fun _ => ?_
    refine (operand.failsMalformed_resolve b).bind fun v => ?_
    split
    · exact .error rfl
    · exact .ok _
  | isNull field => by
    rw [validate]
    exact field.failsMalformed_validate
  | isNotNull field => by
    rw [validate]
    exact field.failsMalformed_validate
  | under ancestor => by
    rw [validate]
    exact (ancestor.failsMalformed_resolveAncestor b).bind fun _ => .ok _
  | inSubquery field name => by
    rw [validate]
    refine field.failsMalformed_validate.bind fun _ => ?_
    split
    · exact .error rfl
    · exact .ok _

theorem failsMalformed_validateAll (b : Bindings) :
    ∀ fs : List Filter, FailsMalformed (validateAll b fs)
  | [] => by
    rw [validateAll]
    exact .ok _
  | f :: fs => by
    rw [validateAll]
    exact (failsMalformed_validate b f).bind fun _ => failsMalformed_validateAll b fs

end
end Filter

namespace Query

theorem failsMalformed_ordering : ∀ ks : List SortKey,
    FailsMalformed (ks.forM (·.field.validate) : Except Failure Unit)
  | [] => .ok _
  | k :: ks => k.field.failsMalformed_validate.bind fun _ => failsMalformed_ordering ks

/-- A query that does not pass validation is malformed. -/
theorem failsMalformed_validate (q : Query) (b : Bindings) : FailsMalformed (q.validate b) := by
  unfold validate
  by_cases hk : q.kind = ""
  · simp only [hk, if_true]
    exact .error rfl
  · simp only [hk, if_false]
    refine q.window.failsMalformed_validate.bind fun _ => ?_
    cases q.filter with
    | none => exact failsMalformed_ordering q.ordering
    | some f => exact (f.failsMalformed_validate b).bind fun _ => failsMalformed_ordering q.ordering

/-! ## The path of a result -/

end Query

/-- Whatever an operation answers with has a property. -/
def Action.Answers (x : Action α) (p : α → Prop) : Prop :=
  ∀ ctx a ctx', x ctx = .ok a ctx' → p a

namespace Action.Answers

variable {x : Action α} {p : α → Prop}

theorem pure {a : α} (h : p a) : Answers (Pure.pure a : Action α) p := fun _ _ _ hx => by
  cases hx
  exact h

theorem mono {p' : α → Prop} (h : x.Answers p) (hp : ∀ a, p a → p' a) : x.Answers p' :=
  fun _ a _ hx => hp a (h _ a _ hx)

/-- A sequence answers as its last step does. -/
theorem bind {f : α → Action β} {p : β → Prop} (h : ∀ a, (f a).Answers p) :
    Answers (x >>= f) p := fun _ _ _ hx => by
  obtain ⟨a, ctx', -, hf⟩ := bind_run_ok.1 hx
  exact h a _ _ _ hf

theorem counted (h : x.Answers p) (call : CallKind) (kind : String) :
    Answers (Action.counted call kind x) p := fun _ _ _ hx => by
  unfold Action.counted at hx
  split at hx
  · rename_i hbody
    cases hx
    exact h _ _ _ hbody
  · cases hx

end Action.Answers

/-- Where a query is evaluated that the store runs or refuses. -/
def Pushdown.path : Pushdown → Path
  | scan _ => .native
  | refused _ => .inMemory

namespace Query

/-- The result of a scan of the store is on the native path, and no cursor if it is for a unique
row. -/
theorem answers_executeScan (q : Query) (config : QueryConfig) (unique : Bool) (s : Scan) :
    (q.executeScan config unique s).Answers fun r =>
      r.path = .native ∧ (unique = true → r.cursor? = none) := by
  unfold executeScan
  refine .bind fun _ => .bind fun snapshot => ?_
  cases unique with
  | false => exact .bind fun id => .pure ⟨rfl, nofun⟩
  | true => exact .bind fun rows => .bind fun _ => .pure ⟨rfl, fun _ => rfl⟩

/-- The result of an evaluation in memory has its rows at hand. -/
theorem answers_executeInMemory (q : Query) (config : QueryConfig) (b : Bindings) (unique : Bool) :
    (q.executeInMemory config b unique).Answers fun r =>
      r.path = .inMemory ∧ r.cursor? = none := by
  unfold executeInMemory
  refine .bind fun _ => .bind fun candidates => .bind fun _ => .bind fun rows => ?_
  split
  · exact .bind fun _ => .bind fun _ => .pure ⟨rfl, rfl⟩
  · exact .bind fun _ => .pure ⟨rfl, rfl⟩

/-- The result of a query tells whether the store ran it or refused it. -/
theorem answers_executeFor {q : Query} {config : QueryConfig} {b : Bindings} {p : Pushdown}
    (hp : q.pushDown config.preference b = .ok p) (unique : Bool) :
    (q.executeFor config b unique).Answers (·.path = p.path) := by
  unfold executeFor
  rw [hp]
  refine .counted ?_ .query q.kind
  change Action.Answers ((pure p : Action Pushdown) >>= _) _
  rw [pure_bind]
  cases p with
  | scan s => exact (q.answers_executeScan config unique s).mono fun _ h => h.1
  | refused reason =>
    exact .bind fun _ => (q.answers_executeInMemory config b unique).mono fun _ h => h.1

/-- The result of a query for a unique row is no cursor. -/
theorem answers_executeFor_true (q : Query) (config : QueryConfig) (b : Bindings) :
    (q.executeFor config b true).Answers (·.cursor? = none) := by
  unfold executeFor
  refine .counted (.bind fun p => ?_) .query q.kind
  cases p with
  | scan s => exact (q.answers_executeScan config true s).mono fun _ h => h.2 rfl
  | refused reason =>
    exact .bind fun _ => (q.answers_executeInMemory config b true).mono fun _ h => h.2

/-- A query takes a path: the store runs it or refuses it, and its results tell which it was. -/
structure Takes (q : Query) (config : QueryConfig) (b : Bindings) (path : Path) : Prop where
  pushDown : ∃ p, q.pushDown config.preference b = .ok p ∧ p.path = path
  result : ∀ unique, (q.executeFor config b unique).Answers (·.path = path)

/-- A query takes the path that it is offered. -/
theorem takes_of_pushDown {q : Query} {config : QueryConfig} {b : Bindings} {p : Pushdown}
    (hp : q.pushDown config.preference b = .ok p) : q.Takes config b p.path where
  pushDown := ⟨p, hp, rfl⟩
  result := answers_executeFor hp

/-! ## Answers -/

/-- A query that is pushed down or refused has passed validation. -/
theorem validate_of_pushDown {q : Query} {preference : Preference} {b : Bindings} {p : Pushdown}
    (h : q.pushDown preference b = .ok p) : q.validate b = .ok () := by
  obtain ⟨⟨⟩, hv, -⟩ := bind_eq_ok.1 h
  exact hv

theorem pushDown_of_invalid {q : Query} {b : Bindings} {e : Failure}
    (h : q.validate b = .error e) (preference : Preference) :
    q.pushDown preference b = .error e := by
  rw [pushDown, h, error_bind]

theorem exists_pushDown {q : Query} {b : Bindings} (h : q.validate b = .ok ())
    (preference : Preference) : ∃ p, q.pushDown preference b = .ok p := by
  unfold pushDown
  rw [h, ok_bind]
  split
  · exact ⟨_, rfl⟩
  · exact ⟨_, rfl⟩

/-- Offering a query to the store fails only as its validation does. -/
theorem validate_of_pushDown_error {q : Query} {preference : Preference} {b : Bindings}
    {e : Failure} (h : q.pushDown preference b = .error e) : q.validate b = .error e := by
  cases hv : q.validate b with
  | error e' =>
    cases (pushDown_of_invalid hv preference).symm.trans h
    rfl
  | ok =>
    obtain ⟨p, hp⟩ := exists_pushDown hv preference
    cases hp.symm.trans h

theorem pushDown_eq_scan {q : Query} {preference : Preference} {b : Bindings} {s : Scan} :
    q.pushDown preference b = .ok (.scan s) ↔
      q.validate b = .ok () ∧ q.toScan (q.effectivePreference preference) b = .ok s := by
  unfold pushDown
  cases q.validate b with
  | error e => simp
  | ok u => cases q.toScan (q.effectivePreference preference) b <;> simp

theorem pushDown_eq_refused {q : Query} {preference : Preference} {b : Bindings}
    {reason : Refusal} : q.pushDown preference b = .ok (.refused reason) ↔
      q.validate b = .ok () ∧ q.toScan (q.effectivePreference preference) b = .error reason := by
  unfold pushDown
  cases q.validate b with
  | error e => simp
  | ok u => cases q.toScan (q.effectivePreference preference) b <;> simp

/-- What a query of the rows of its kind answers, whatever its preference. -/
theorem answer_eq_select {q : Query} {config : QueryConfig} (b : Bindings) (t : RowTable)
    (hc : q.candidates.rows? = none) (hcap : config.candidateCap = none) :
    q.answer config b t =
      q.validate b >>= fun _ => q.select b (t.rows.filter (·.kind == q.kind)) := by
  unfold answer pushDown
  cases hv : q.validate b with
  | error e => rfl
  | ok u =>
    cases hs : q.toScan (q.effectivePreference config.preference) b with
    | ok s =>
      obtain ⟨-, -, -, -, -, hcheck⟩ := toScan_spec hs
      have hsel := select_eq_answer hc hv hs t.rows
      simp only [ok_bind, pure_eq_ok, hcheck hv, hsel]
      rfl
    | error reason =>
      simp [gathered, checkCap, candidateRows, hc, hcap]

/-- What a query answers of which the candidates are known: the rows that it selects from them. Where
it is run shows only in the number of rows that a failure for uniqueness tells of. -/
theorem answerFor_of_candidates (q : Query) (config : QueryConfig) (b : Bindings) {t : RowTable}
    {candidates : List Row} (hfound : q.found config t = .ok candidates)
    (hscan : ∀ s, q.validate b = .ok () →
      q.toScan (q.effectivePreference config.preference) b = .ok s →
        q.select b candidates = .ok (s.answer t.rows))
    (unique : Bool) : ∃ count : List Row → Nat,
      q.answerFor config b unique t =
        q.validate b >>= fun _ => q.select b candidates >>= fun rows =>
          checkUnique q.kind unique (count rows) rows := by
  unfold answerFor
  cases hp : q.pushDown config.preference b with
  | error e => exact ⟨List.length, by rw [validate_of_pushDown_error hp]; rfl⟩
  | ok p =>
    have hv := validate_of_pushDown hp
    cases p with
    | scan s =>
      obtain ⟨-, hs⟩ := pushDown_eq_scan.1 hp
      obtain ⟨-, -, -, -, -, hcheck⟩ := toScan_spec hs
      refine ⟨fun _ => 2, ?_⟩
      rw [hv, hscan s hv hs, ok_bind]
      simp only [hcheck hv]
      rfl
    | refused reason =>
      refine ⟨List.length, ?_⟩
      rw [hv, ok_bind]
      simp only [hfound]
      rfl

/-- What a query of the rows of its kind answers. -/
theorem answerFor_of_scan (q : Query) (config : QueryConfig) (b : Bindings) (t : RowTable)
    (hc : q.candidates.rows? = none) (hb : 1 ≤ config.batchSize.toNat)
    (hcap : config.candidateCap = none) (unique : Bool) : ∃ count : List Row → Nat,
      q.answerFor config b unique t =
        q.validate b >>= fun _ => q.select b (t.rows.filter (·.kind == q.kind)) >>= fun rows =>
          checkUnique q.kind unique (count rows) rows := by
  refine q.answerFor_of_candidates config b ?_ (fun s hv hs => select_eq_answer hc hv hs t.rows)
    unique
  rw [q.found_of_pos hb]
  simp [gathered, checkCap, candidateRows, hc, hcap]

/-- A query of the rows of its kind that is not for a unique row has one outcome, whether it is run
by the store or in memory: the rows of the kind that its filter keeps, in its ordering and its
window, or a fault that makes it malformed. A scan that it is pushed down to answers with these
rows, in batches of any size. -/
theorem outcome_rows_eq_select (q : Query) (config : QueryConfig) (b : Bindings) (ctx : Context)
    (hc : q.candidates.rows? = none) (hu : q.unique = false) (hf : ctx.store.faults = [])
    (hb : 1 ≤ config.batchSize) (hcap : config.candidateCap = none) :
    (∀ own preference : Preference,
      outcome (({ q with preference := own } : Query).rows { config with preference } b ctx) =
        q.validate b >>= fun _ => q.select b (ctx.store.rowsOfKind q.kind)) ∧
    (∀ e, (q.validate b >>= fun _ => q.select b (ctx.store.rowsOfKind q.kind)) = .error e →
      e.report.category = .malformed) ∧
    (∀ (own preference : Preference) (s : Scan),
      ({ q with preference := own } : Query).pushDown preference b = .ok (.scan s) →
      ∃ snapshot store, Store.scan s ctx.store = .ok snapshot store ∧ ∀ limit, 1 ≤ limit →
        ∃ rows, q.select b (ctx.store.rowsOfKind q.kind) = .ok rows ∧
          (BatchSource.drain limit snapshot store).1 = (rows, none)) := by
  have hbatch : 1 ≤ config.batchSize.toNat := hb
  refine ⟨fun own preference => ?_, ?_, fun own preference s hs => ?_⟩
  · have hreads : Reads Context.store
        (({ q with preference := own } : Query).rows { config with preference } b) _ :=
      reads_rows b hu hbatch
    rw [hreads.outcome_eq hf]
    exact answer_eq_select b ctx.store.table hc hcap
  · intro e he
    cases hv : q.validate b with
    | error e' =>
      rw [hv, error_bind] at he
      cases he
      exact q.failsMalformed_validate b e hv
    | ok u =>
      rw [hv, ok_bind, select_eq hv] at he
      cases he
  · obtain ⟨hv, hscan⟩ := pushDown_eq_scan.1 hs
    obtain ⟨-, -, -, -, -, hcheck⟩ := toScan_spec hscan
    obtain ⟨store, hr, hrun⟩ := Store.scan_of_check (hcheck hv) hf
    refine ⟨_, store, hrun, fun limit hl => ⟨s.answer ctx.store.rows, ?_, ?_⟩⟩
    · exact select_eq_answer (q := { q with preference := own }) hc hv hscan ctx.store.rows
    · exact BatchSource.drain_of_faults_eq_nil hl _ (hr.faults hf)

/-- A row of kind `Book` under the number `n`, with `a` as its one property. -/
def sampleRow (n : UInt64) (a : Int64) : Row where
  key := .single ⟨"Book", some (.number n)⟩ ⟨by simp, by simp⟩
  properties := SortedMap.empty.insert "a" (.int a)

/-- Three rows in a store. -/
def sampleContext : Context where
  scope := .start ⟨1⟩ false
  store := ((((({} : Store).seed (sampleRow 1 9)).2).seed (sampleRow 2 5)).2.seed (sampleRow 3 7)).2
  held := {}

/-- The rows whose property is above five, from the smallest on. -/
def sampleQuery : Query where
  kind := "Book"
  filter := some (.compare (.property "a") .gt (.literal (.int 5)))
  ordering := [⟨.property "a", .ascending⟩]

theorem outcome_rows_sample :
    outcome (({ sampleQuery with preference := .native } : Query).rows {} {} sampleContext) =
        .ok [sampleRow 3 7, sampleRow 1 9] ∧
      outcome (({ sampleQuery with preference := .inMemory } : Query).rows {} {} sampleContext) =
        .ok [sampleRow 3 7, sampleRow 1 9] := by
  have h := outcome_rows_eq_select sampleQuery {} {} sampleContext rfl rfl rfl (by decide) rfl
  have hsel : (sampleQuery.validate {} >>= fun _ =>
      sampleQuery.select {} (sampleContext.store.rowsOfKind "Book")) =
        .ok [sampleRow 3 7, sampleRow 1 9] := rfl
  exact ⟨(h.1 .native .auto).trans hsel, (h.1 .inMemory .auto).trans hsel⟩

end Query
end EntityGraph
