import EntityGraph.Proofs.Query.Paths

/-!
# Faults that end a query

A query accounts for the faults that fire while it runs. Otherwise it fails only before it looks at
the store, or because it has more candidates or more rows than it may have.

* `Query.Exceeds`: the failures of a query that depend on its rows;
* `Query.accounts_executeFor`: running a query;
* `Result.accounts_readAll`, `Result.accounts_next`: reading what it holds;
* `Query.accounts_rows`, `Query.accounts_uniqueRow?`: running a query and reading its result.
-/

namespace EntityGraph

namespace Query

/-- The failures of a query that has more candidates than may be evaluated in memory, or more rows
than the one that it is for. -/
inductive Exceeds (kind : String) (config : QueryConfig) (unique : Bool) : Failure → Prop where
  | candidates {cap} : config.candidateCap = some cap →
      Exceeds kind config unique (.candidateCap kind cap)
  | rows {count} : unique = true → 1 < count → Exceeds kind config unique (.notUnique kind count)

/-- A query fails in a way of its own if it is malformed or has too many candidates or rows. -/
def telling (q : Query) (config : QueryConfig) (b : Bindings) (unique : Bool) :
    Telling Failure where
  own e := q.pushDown config.preference b = .error e ∨ Exceeds q.kind config unique e
  tells cause e := e = .queryStore q.kind cause ∨ e = .cursorStore q.kind cause

variable {q : Query} {config : QueryConfig} {b : Bindings} {unique : Bool}

theorem tells_queryStore (cause : StoreError) :
    (q.telling config b unique).tells cause (.queryStore q.kind cause) := .inl rfl

theorem own_of_exceeds {e : Failure} (h : Exceeds q.kind config unique e) :
    (q.telling config b unique).own e := .inr h

theorem exceeds_checkCap {count : Nat} {e : Failure} (h : checkCap q.kind config count = .error e) :
    Exceeds q.kind config unique e := by
  unfold checkCap at h
  cases hc : config.candidateCap with
  | none => simp [hc] at h
  | some cap =>
    simp only [hc] at h
    split at h
    · cases h
      exact .candidates hc
    · cases h

theorem exceeds_checkUnique {count : Nat} {rows : List Row} {e : Failure}
    (hcount : 1 < rows.length → 1 < count)
    (h : checkUnique q.kind unique count rows = .error e) : Exceeds q.kind config unique e := by
  unfold checkUnique at h
  split at h
  · rename_i hu
    cases h
    obtain ⟨hunique, hrows⟩ := Bool.and_eq_true_iff.1 hu
    exact .rows hunique (hcount (of_decide_eq_true hrows))
  · cases h

theorem exceeds_found {t : RowTable} {e : Failure} (h : q.found config t = .error e) :
    Exceeds q.kind config unique e := by
  unfold found gathered at h
  split at h
  · cases h
  · cases hcap : checkCap q.kind config (q.candidateRows t).length with
    | error e' =>
      rw [hcap] at h
      cases h
      exact exceeds_checkCap hcap
    | ok =>
      rw [hcap] at h
      cases h

/-- A valid query answers with rows, unless it has more candidates or rows than it may have. -/
theorem exceeds_answerFor (hv : q.validate b = .ok ()) {t : RowTable} {e : Failure}
    (h : q.answerFor config b unique t = .error e) : Exceeds q.kind config unique e := by
  obtain ⟨p, hp⟩ := exists_pushDown hv config.preference
  unfold answerFor at h
  rw [hp, ok_bind] at h
  cases p with
  | scan s =>
    obtain ⟨-, -, -, -, -, hcheck⟩ := toScan_spec (pushDown_eq_scan.1 hp).2
    simp only [hcheck hv] at h
    exact exceeds_checkUnique (fun _ => by decide) h
  | refused reason =>
    cases hfound : q.found config t with
    | error e' =>
      simp only [hfound, error_bind] at h
      cases h
      exact exceeds_found hfound
    | ok candidates =>
      simp only [hfound, select_eq hv, ok_bind] at h
      exact exceeds_checkUnique id h

/-- Too many candidates or rows make no query malformed. -/
theorem Exceeds.category_ne {kind : String} {e : Failure} (h : Exceeds kind config unique e) :
    e.report.category ≠ .malformed := by
  cases h with
  | candidates | rows => exact nofun

theorem accounts_gatherUpTo : ∀ (fuel : Nat) (snapshot : Snapshot) (gathered : List Row)
    (ctx : Context), Accounts Context.store (q.telling config b unique)
      (gatherUpTo q.kind config fuel snapshot gathered) ctx
  | 0, _, gathered, ctx => .pure gathered ctx
  | fuel + 1, snapshot, gathered, ctx => by
    rw [gatherUpTo]
    refine (Accounts.onStore tells_queryStore (Store.accounts_fetch _ snapshot _)).bind
      fun batch ctx _ => ?_
    obtain ⟨rows, rest⟩ := batch
    dsimp only
    split
    · exact .pure gathered ctx
    · exact (Accounts.ofExcept (fun _ he => own_of_exceeds (exceeds_checkCap he)) ctx).bind
        fun _ ctx _ => accounts_gatherUpTo fuel rest _ ctx

theorem accounts_gather (ctx : Context) :
    Accounts Context.store (q.telling config b unique) (q.gather config) ctx := by
  unfold gather
  split
  · exact (Accounts.ofExcept (fun _ he => own_of_exceeds (exceeds_checkCap he)) ctx).bind
      fun _ ctx _ => .pure _ ctx
  · exact (Accounts.onStore tells_queryStore (Store.accounts_scan rfl _)).bind
      fun snapshot ctx _ => accounts_gatherUpTo _ snapshot [] ctx

theorem accounts_uniqueRow {c : Cursor Snapshot} (hb : 1 ≤ c.batchSize) (hp : c.pending = none)
    (ctx : Context) :
    Accounts Context.store (q.telling config b true) (uniqueRow q.kind c) ctx := by
  obtain ⟨s', -, ⟨e, hf, hrun⟩ | ⟨hf, hrun⟩⟩ := uniqueRow_run q.kind hb hp ctx
  · exact .of_tells hrun (.inr rfl) hf
  · split at hrun
    · exact .of_eq_ok hrun hf
    · rename_i hu
      exact .of_own hrun (own_of_exceeds (exceeds_checkUnique (fun _ => by decide) hu)) hf

theorem accounts_executeScan {s : Scan} (hs : s.check = .ok ()) (ctx : Context) :
    Accounts Context.store (q.telling config b unique) (q.executeScan config unique s) ctx := by
  unfold executeScan
  refine (Accounts.emit _ ctx).bind fun _ ctx _ => ?_
  refine (Accounts.onStore tells_queryStore (Store.accounts_scan hs _)).bind
    fun snapshot ctx _ => ?_
  cases unique with
  | false =>
    exact (Accounts.modifyGet (f := fun ctx : Context => _) (fun _ => ⟨rfl, rfl⟩) ctx).bind
      fun id ctx _ => .pure _ ctx
  | true =>
    refine (accounts_uniqueRow (Nat.le_max_right ..) rfl ctx).bind fun rows ctx _ => ?_
    exact (Accounts.touch _ ctx).bind fun _ ctx _ => .pure _ ctx

/-- Evaluation of a query that has passed validation does not fail. -/
theorem accounts_executeInMemory (hv : q.validate b = .ok ()) (ctx : Context) :
    Accounts Context.store (q.telling config b unique) (q.executeInMemory config b unique) ctx := by
  unfold executeInMemory
  refine (Accounts.emit _ ctx).bind fun _ ctx _ => ?_
  refine (accounts_gather ctx).bind fun candidates ctx _ => ?_
  refine (Accounts.emit _ ctx).bind fun _ ctx _ => ?_
  rw [select_eq hv]
  refine (Accounts.pure _ ctx).bind fun rows ctx _ => ?_
  split
  · rename_i h
    obtain ⟨hu, hcount⟩ := Bool.and_eq_true_iff.1 h
    have hexceeds : Exceeds q.kind config unique (.notUnique q.kind rows.length) :=
      .rows hu (of_decide_eq_true hcount)
    refine Accounts.bind ?_ fun _ ctx _ => (Accounts.touch _ ctx).bind fun _ ctx _ => .pure _ ctx
    exact (Accounts.emit _ ctx).bind fun _ ctx _ => .throw (own_of_exceeds hexceeds) ctx
  · exact (Accounts.touch _ ctx).bind fun _ ctx _ => .pure _ ctx

/-- A query that is run accounts for the faults that fire. -/
theorem accounts_executeFor (q : Query) (config : QueryConfig) (b : Bindings) (unique : Bool)
    (ctx : Context) :
    Accounts Context.store (q.telling config b unique) (q.executeFor config b unique) ctx := by
  refine Accounts.counted (fun ctx => ?_) .query q.kind ctx
  have hfail : ∀ e, q.pushDown config.preference b = .error e →
      (q.telling config b unique).own e := fun e he => .inl he
  refine (Accounts.ofExcept hfail ctx).bind fun p ctx hp => ?_
  have hp : q.pushDown config.preference b = .ok p := by
    rw [ofExcept_run] at hp
    split at hp
    · rename_i hpush
      cases hp
      exact hpush
    · cases hp
  -- Past this point the query is valid: no scan of it is refused, and no evaluation of it fails.
  have hv := validate_of_pushDown hp
  cases p with
  | scan s =>
    obtain ⟨-, hscan⟩ := pushDown_eq_scan.1 hp
    obtain ⟨-, -, -, -, -, hcheck⟩ := toScan_spec hscan
    exact accounts_executeScan (hcheck hv) ctx
  | refused reason =>
    exact (Accounts.emit _ ctx).bind fun _ ctx _ => accounts_executeInMemory hv ctx

end Query

/-! ## Reading results -/

namespace Result

variable {T : Telling Failure} (htells : ∀ kind e, T.tells e (.cursorStore kind e)) {r : Result}
  {ctx : Context} {rows : List Row}
include htells

theorem accounts_next (h : r.Holds ctx rows) : Accounts Context.store T r.next ctx := by
  cases r with
  | rows path rest => exact .of_eq_ok (next_rows path rest ctx) (.refl _)
  | stream id =>
    obtain ⟨c, hc, hb, hp, -⟩ := h
    obtain ⟨answer, c', s', hnext, -, hanswer⟩ := c.next_spec hb hp ctx.store
    have hrun := next_stream hc hnext
    obtain ⟨e, rfl, hf⟩ | ⟨rfl, hf, -⟩ := hanswer
    · exact .of_tells hrun (htells _ e) hf
    · exact .of_eq_ok hrun hf

end Result

/-! ## Queries whose rows are read -/

namespace Query

variable {q : Query} {config : QueryConfig} {b : Bindings} {unique : Bool}

/-- The failures of a query that are its own are not those of the store. -/
theorem category_of_own {e : Failure} (h : (q.telling config b unique).own e) :
    Failure.telling.own e := by
  show e.report.category ≠ .execution
  obtain h | h := h
  · have hv : q.validate b = .error e := by
      cases hv : q.validate b with
      | error e' =>
        rw [pushDown, hv] at h
        cases h
        rfl
      | ok u =>
        rw [pushDown, hv, ok_bind] at h
        split at h <;> cases h
    simp [q.failsMalformed_validate b e hv]
  · cases h <;> simp [Failure.report]

theorem tells_of_tells {e : Failure} {cause : StoreError}
    (h : (q.telling config b unique).tells cause e) : Failure.telling.tells cause e := by
  obtain rfl | rfl := h
  · exact Failure.tells_of_report rfl
  · exact Failure.tells_of_report rfl

/-- Running a query makes a result that can be read. -/
theorem accounts_read {α : Type} {read : Result → Action α}
    (hread : ∀ {r rows ctx}, Result.Holds ctx rows r →
      Accounts Context.store Failure.telling (read r) ctx) (ctx : Context) :
    Accounts Context.store Failure.telling (q.executeFor config b unique >>= read) ctx := by
  have hrun := q.accounts_executeFor config b unique ctx
  refine (hrun.mono (fun _ => category_of_own) fun _ _ => tells_of_tells).bind fun r ctx' hx => ?_
  obtain ⟨-, rows, hholds, -⟩ := (q.yields_executeFor config b unique).of_ok hx
  exact hread hholds

/-- Looking for the one row of a query accounts for the faults that fire. -/
theorem accounts_uniqueRow? (q : Query) (config : QueryConfig) (b : Bindings) (ctx : Context) :
    Accounts Context.store Failure.telling (q.uniqueRow? config b) ctx :=
  accounts_read (fun h => (Result.accounts_next (fun _ _ => Failure.tells_of_report rfl) h).bind
    fun _ ctx _ => .pure _ ctx) ctx

end Query
end EntityGraph
