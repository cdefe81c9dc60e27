import EntityGraph.Proofs.Query.Firing

/-!
# Malformed queries

Whether a query is malformed depends on the query and its parameters alone, and not on where its
candidates come from, how it is to be run, or what is stored. A query that is not malformed has a
truth on every row, and it fails only for the store or for the number of its rows.

* `Query.sourced`: a query with other candidates, another preference and another number of rows;
* `Query.FailsEverywhere`, `Query.RunsEverywhere`: the two ways in which queries fare;
* `Query.failsEverywhere_or_runsEverywhere`: every query fares in one of them.
-/

namespace EntityGraph

namespace Query

/-- The query for other candidates, with another preference, and for a unique row or not. -/
def sourced (q : Query) (candidates : Candidates) (preference : Preference) (unique : Bool) :
    Query :=
  { q with candidates, preference, unique }

/-- A query is malformed wherever its candidates come from. Running it fails as pushing it down
does, and nothing is asked of the store. -/
structure FailsEverywhere (q : Query) (b : Bindings) (e : Failure) : Prop where
  malformed : e.report.category = .malformed
  pushDown : ∀ candidates own unique preference,
    (q.sourced candidates own unique).pushDown preference b = .error e
  execute : ∀ candidates own unique config ctx, ∃ ctx',
    (q.sourced candidates own unique).execute config b ctx = .error e ctx' ∧ ctx'.store = ctx.store

/-- A query is pushed down or refused wherever its candidates come from, and its filter has a truth
on every row. Running it fails for a fault of the store that fires, or for the number of its
candidates or rows. -/
structure RunsEverywhere (q : Query) (b : Bindings) : Prop where
  pushDown : ∀ candidates own unique preference, ∃ p,
    (q.sourced candidates own unique).pushDown preference b = .ok p
  evaluate : ∀ f ∈ q.filter, ∀ row, ∃ t, f.evaluate row b = .ok t
  execute : ∀ candidates own unique config ctx e ctx',
    (q.sourced candidates own unique).execute config b ctx = .error e ctx' →
      (Exceeds q.kind config unique e ∧ ctx.store.Fired ctx'.store none) ∨
        ∃ cause, (e = .queryStore q.kind cause ∨ e = .cursorStore q.kind cause) ∧
          ctx.store.Fired ctx'.store (some cause)

variable {q : Query} {b : Bindings}

/-- A query that is not pushed down fails before it looks at the store. -/
theorem executeFor_of_pushDown_error {config : QueryConfig} {e : Failure}
    (h : q.pushDown config.preference b = .error e) (unique : Bool) (ctx : Context) :
    ∃ ctx', q.executeFor config b unique ctx = .error e ctx' ∧ ctx'.store = ctx.store := by
  -- Only the count of the query's rows and the event of its start come before its validation.
  let started : Context := { ctx.emit (.started .query q.kind) with touched := 0 }
  have hrun : (MonadExcept.ofExcept (q.pushDown config.preference b) : Action Pushdown) started =
      .error e started := by
    rw [h]
    rfl
  exact ⟨_, Action.counted_of_error (bind_of_error hrun), rfl⟩

/-- What a query that has passed validation fails with. -/
theorem execute_error (hv : q.validate b = .ok ()) {config : QueryConfig} {ctx ctx' : Context}
    {e : Failure} (h : q.execute config b ctx = .error e ctx') :
    (Exceeds q.kind config q.unique e ∧ ctx.store.Fired ctx'.store none) ∨
      ∃ cause, (e = .queryStore q.kind cause ∨ e = .cursorStore q.kind cause) ∧
        ctx.store.Fired ctx'.store (some cause) := by
  obtain ⟨hown, hf⟩ | htells := (q.accounts_executeFor config b q.unique ctx).of_error h
  · obtain hp | hexceeds := hown
    · obtain ⟨p, hok⟩ := exists_pushDown hv config.preference
      cases hok.symm.trans hp
    · exact .inl ⟨hexceeds, hf⟩
  · exact .inr htells

/-- Every query is malformed or not, whatever its candidates are and however it is run: it fails
everywhere in the same way, or its filter has a truth on every row and nothing but the store and the
number of its rows is in its way. -/
theorem failsEverywhere_or_runsEverywhere (q : Query) (b : Bindings) :
    (∃ e, q.FailsEverywhere b e) ∨ q.RunsEverywhere b := by
  have hsame : ∀ candidates own unique,
      (q.sourced candidates own unique).validate b = q.validate b := fun _ _ _ => rfl
  cases hv : q.validate b with
  | error e =>
    have hpush : ∀ candidates own unique preference,
        (q.sourced candidates own unique).pushDown preference b = .error e :=
      fun _ _ _ => pushDown_of_invalid ((hsame ..).trans hv)
    refine .inl ⟨e, q.failsMalformed_validate b e hv, hpush, ?_⟩
    exact fun _ _ unique _ ctx => executeFor_of_pushDown_error (hpush ..) unique ctx
  | ok u =>
    refine .inr ⟨fun _ _ _ => exists_pushDown ((hsame ..).trans hv), fun f hf row => ?_, ?_⟩
    · exact Filter.exists_evaluate row (validate_filter hv f hf)
    · exact fun _ _ _ _ _ _ _ h => execute_error ((hsame ..).trans hv) h

end Query
end EntityGraph
