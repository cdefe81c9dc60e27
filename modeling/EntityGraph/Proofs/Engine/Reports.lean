import EntityGraph.Proofs.Cascade.Faults
import EntityGraph.Proofs.ObjectGraph.Visits
import EntityGraph.Proofs.Query.Firing
import EntityGraph.Proofs.Query.Malformed

/-!
# What calls report of themselves

Every call reports a fixed course of events, whether it succeeds or fails. Most of what it does
reports nothing (`Silent`): it runs the same whatever was reported before, so that its part in the
course of a call can be read off a run of its own.

* `Query.course`, `Cascade.course`, `PendingObject.course`: the events of a query, of a cascade and
  of an insert;
* `Query.events_executeFor`, `Cascade.events_run`, `PendingObject.events_insert`: the calls report
  them, in this order;
* `Context.reportsCourses`: all calls.
-/

namespace EntityGraph

variable {α β : Type}

/-! ## Operations that report nothing -/

/-- The context with other events reported and another number of rows touched. -/
def Context.reporting (ctx : Context) (events : List Event) (touched : Nat) : Context :=
  { ctx with events, touched }

/-- An operation reports nothing and counts no row: it runs the same, whatever was reported and
counted before. -/
def Silent (x : Action α) : Prop :=
  ∀ ctx events touched, x (ctx.reporting events touched) =
    match x ctx with
    | .ok a ctx' => .ok a (ctx'.reporting events touched)
    | .error e ctx' => .error e (ctx'.reporting events touched)

namespace Silent

section Runs

variable {x : Action α} (h : Silent x) {ctx ctx' : Context}
include h

theorem outcome_reporting (ctx : Context) (events : List Event) (touched : Nat) :
    outcome (x (ctx.reporting events touched)) = outcome (x ctx) := by
  rw [h]
  cases x ctx <;> rfl

theorem unreported (ctx : Context) : (finalState (x ctx)).events = ctx.events ∧
    (finalState (x ctx)).touched = ctx.touched := by
  have hx : x ctx = _ := h ctx ctx.events ctx.touched
  rw [hx]
  cases x ctx <;> exact ⟨rfl, rfl⟩

theorem of_ok {a : α} (hrun : x ctx = .ok a ctx') :
    ctx'.events = ctx.events ∧ ctx'.touched = ctx.touched := by
  have hfinal := h.unreported ctx
  rw [hrun] at hfinal
  exact hfinal

theorem of_error {e : Failure} (hrun : x ctx = .error e ctx') :
    ctx'.events = ctx.events ∧ ctx'.touched = ctx.touched := by
  have hfinal := h.unreported ctx
  rw [hrun] at hfinal
  exact hfinal

end Runs

theorem pure (a : α) : Silent (Pure.pure a : Action α) := fun _ _ _ => rfl

theorem bind {x : Action α} {f : α → Action β} (hx : Silent x) (hf : ∀ a, Silent (f a)) :
    Silent (x >>= f) := by
  intro ctx events touched
  have h := hx ctx events touched
  cases hrun : x ctx with
  | error e c =>
    rw [hrun] at h
    rw [bind_of_error h, bind_of_error hrun]
  | ok a c =>
    rw [hrun] at h
    rw [bind_of_ok h, bind_of_ok hrun]
    exact hf a c events touched

theorem ofExcept (r : Except Failure α) : Silent (MonadExcept.ofExcept r : Action α) := by
  intro ctx events touched
  cases r <;> rfl

theorem onStore (wrap : StoreError → Failure) (call : StoreM α) :
    Silent (Action.onStore wrap call) := by
  intro ctx events touched
  simp only [Action.onStore, Context.reporting]
  cases call ctx.store <;> rfl

theorem get_bind {f : Context → Action α}
    (hf : ∀ ctx events touched, f (ctx.reporting events touched) = f ctx)
    (h : ∀ ctx, Silent (f ctx)) : Silent (get >>= f) := by
  intro ctx events touched
  rw [bind_of_ok (get_run _), bind_of_ok (get_run _), hf]
  exact h ctx ctx events touched

theorem compositional : Compositional Silent where
  pure := .pure
  bind := .bind
  ofExcept _ := .ofExcept _

end Silent

/-- The context in which a counted call runs. -/
def Context.starting (ctx : Context) (call : CallKind) (kind : String) : Context :=
  ctx.reporting (ctx.events ++ [.started call kind]) 0

/-- A run reports events and touches rows. -/
structure Reports (ctx : Context) (events : List Event) (touched : Nat)
    (r : EStateM.Result Failure Context α) : Prop where
  events : (finalState r).events = ctx.events ++ events
  touched : (finalState r).touched = ctx.touched + touched

namespace Reports

variable {ctx c : Context} {before events : List Event} {touched : Nat}

/-- Nothing is touched before the last part of a run. -/
theorem after {r : EStateM.Result Failure Context α} (h : Reports c events touched r)
    (hevents : c.events = ctx.events ++ before) (htouched : c.touched = ctx.touched) :
    Reports ctx (before ++ events) touched r where
  events := by rw [h.events, hevents, List.append_assoc]
  touched := by rw [h.touched, htouched]

/-- A counted call reports its start and, with the rows that its body touches, its finish. -/
theorem counted {call : CallKind} {kind : String} {body : Action α}
    (h : Reports (ctx.starting call kind) events touched (body (ctx.starting call kind))) :
    (finalState (Action.counted call kind body ctx)).events =
      ctx.events ++ .started call kind :: (events ++ [.finished call kind touched]) := by
  obtain ⟨hevents, htouched⟩ := h
  have hfinal : (finalState (Action.counted call kind body ctx)).events =
      (finalState (body (ctx.starting call kind))).events ++
        [.finished call kind (finalState (body (ctx.starting call kind))).touched] := by
    cases hrun : body (ctx.starting call kind) with
    | ok a c => rw [Action.counted_of_ok hrun]; rfl
    | error e c => rw [Action.counted_of_error hrun]; rfl
  rw [hfinal, hevents, htouched]
  simp [Context.starting, Context.reporting]

end Reports

/-- A counted call answers as its body does. -/
theorem Action.outcome_counted (call : CallKind) (kind : String) (body : Action α)
    (ctx : Context) :
    outcome (counted call kind body ctx) = outcome (body (ctx.starting call kind)) := by
  cases h : body (ctx.starting call kind) with
  | ok a c => rw [counted_of_ok h]; rfl
  | error e c => rw [counted_of_error h]; rfl

/-! ## Queries -/

namespace Query

theorem silent_gatherUpTo (kind : String) (config : QueryConfig) :
    ∀ (fuel : Nat) (snapshot : Snapshot) (gathered : List Row),
      Silent (gatherUpTo kind config fuel snapshot gathered)
  | 0, _, gathered => .pure gathered
  | fuel + 1, snapshot, gathered => by
    rw [gatherUpTo]
    refine (Silent.onStore _ _).bind fun batch => ?_
    dsimp only
    split
    · exact .pure gathered
    · exact (Silent.ofExcept _).bind fun _ => silent_gatherUpTo kind config fuel _ _

theorem silent_gather (q : Query) (config : QueryConfig) : Silent (q.gather config) := by
  unfold gather
  split
  · exact (Silent.ofExcept _).bind fun _ => .pure _
  · exact (Silent.onStore _ _).bind fun snapshot => silent_gatherUpTo q.kind config _ snapshot []

/-- What is reported of the candidates of a query: their number, if they can be gathered. -/
def scanned (q : Query) (config : QueryConfig) (ctx : Context) : List Event :=
  match outcome (q.gather config ctx) with
  | .ok candidates => [.scanned q.kind candidates.length]
  | .error _ => []

/-- What is reported of an answer: that it has more rows than the one that the query is for. -/
def violation (kind : String) : Except Failure α → List Event
  | .error e => if e.report.isNotUnique then [.notUnique kind] else []
  | .ok _ => []

/-- What is reported of how a query is run. -/
def planning (q : Query) (config : QueryConfig) (b : Bindings) (ctx : Context) : List Event :=
  match q.pushDown config.preference b with
  | .error _ => []
  | .ok (.scan _) => [.planned q.kind .native]
  | .ok (.refused reason) =>
    .refused q.kind reason :: .planned q.kind .inMemory :: q.scanned config ctx

/-- The rows that an answer holds; a cursor over rows in the store holds none. -/
def heldRows : Except Failure Result → Nat
  | .ok (.rows _ rest) => rest.length
  | _ => 0

/-- The events of a query, for a unique row if `unique` is set. -/
def course (q : Query) (config : QueryConfig) (b : Bindings) (unique : Bool) (ctx : Context) :
    List Event :=
  let answer := outcome (q.executeFor config b unique ctx)
  .started .query q.kind ::
    (q.planning config b ctx ++ violation q.kind answer ++
      [.finished .query q.kind (heldRows answer)])

/-- A run reports events, and then whether it is for a unique row and has more; it touches the rows
that it answers with. -/
abbrev Tells (kind : String) (ctx : Context) (events : List Event)
    (r : EStateM.Result Failure Context Result) : Prop :=
  Reports ctx (events ++ violation kind (outcome r)) (heldRows (outcome r)) r

variable {q : Query} {config : QueryConfig} {b : Bindings} {unique : Bool} {ctx : Context}

/-- Asking a cursor for its next row changes nothing but the store. -/
theorem nextRow_run (c : Cursor Snapshot) (ctx : Context) : ∃ answer c' store,
    Action.nextRow c ctx = .ok (answer, c') { ctx with store } := ⟨_, _, _, rfl⟩

/-- Looking at two rows reports that there is a second one. -/
theorem reports_uniqueRow (kind : String) (c : Cursor Snapshot) (ctx : Context) :
    Reports ctx (violation kind (outcome (uniqueRow kind c ctx))) 0 (uniqueRow kind c ctx) := by
  have hnil : ctx.events = ctx.events ++ [] := (List.append_nil _).symm
  unfold uniqueRow
  obtain ⟨first, c₁, store₁, h₁⟩ := nextRow_run c ctx
  rw [bind_of_ok h₁]
  match first with
  | .error e => exact ⟨hnil, rfl⟩
  | .ok none => exact ⟨hnil, rfl⟩
  | .ok (some row) =>
    obtain ⟨second, c₂, store₂, h₂⟩ := nextRow_run c₁ { ctx with store := store₁ }
    dsimp only
    rw [bind_of_ok h₂]
    match second with
    | .error e => exact ⟨hnil, rfl⟩
    | .ok none => exact ⟨hnil, rfl⟩
    | .ok (some row') => exact ⟨rfl, rfl⟩

/-- Nothing else is reported of a run that fails in another way. -/
theorem Tells.error {kind : String} {ctx' : Context} {events : List Event} {e : Failure}
    (hevents : ctx'.events = ctx.events ++ events) (htouched : ctx'.touched = ctx.touched)
    (he : e.report.isNotUnique = false) : Tells kind ctx events (.error e ctx') where
  events := by
    show ctx'.events = _ ++ (events ++ if e.report.isNotUnique then _ else _)
    rw [he, hevents]
    exact congrArg (ctx.events ++ ·) (List.append_nil events).symm
  touched := htouched

/-- Answering with the one row of a cursor reports that there is a second one, or touches it. -/
theorem tells_uniqueRow (kind : String) (cursor : Cursor Snapshot) (ctx : Context) :
    Tells kind ctx [] ((do
      let rows ← uniqueRow kind cursor
      Action.touch rows.length
      return .rows .native rows : Action Result) ctx) := by
  have h := reports_uniqueRow kind cursor ctx
  cases hrow : uniqueRow kind cursor ctx with
  | error e c =>
    rw [hrow] at h
    rw [bind_of_error hrow]
    exact ⟨h.events, h.touched⟩
  | ok rows c =>
    rw [hrow] at h
    rw [bind_of_ok hrow]
    exact ⟨h.events, congrArg (· + rows.length) h.touched⟩

/-- Answering with selected rows reports that there are too many, or touches them. -/
theorem tells_selected (kind : String) (rows : List Row) (ctx : Context) :
    Tells kind ctx [] ((do
      if unique && 1 < rows.length then failNotUnique kind rows.length
      Action.touch rows.length
      return .rows .inMemory rows : Action Result) ctx) := by
  split
  · have hfail : (failNotUnique kind rows.length : Action PUnit) ctx =
        .error (.notUnique kind rows.length) (ctx.emit (.notUnique kind)) := rfl
    show Tells kind ctx [] ((failNotUnique kind rows.length >>= fun _ => _) ctx)
    rw [bind_of_error hfail]
    exact ⟨rfl, rfl⟩
  · exact ⟨(List.append_nil _).symm, rfl⟩

/-- A query that the store runs reports its path. -/
theorem tells_executeScan (s : Scan) (ctx : Context) :
    Tells q.kind ctx [.planned q.kind .native] (q.executeScan config unique s ctx) := by
  let planned := ctx.emit (.planned q.kind .native)
  have hemit : Action.emit (.planned q.kind .native) ctx = .ok () planned := rfl
  unfold executeScan
  rw [bind_of_ok hemit]
  cases hscan : Action.onStore (.queryStore q.kind) (Store.scan s) planned with
  | error e c =>
    obtain ⟨hevents, htouched⟩ := (Silent.onStore _ _).of_error hscan
    obtain ⟨cause, rfl, -⟩ := Action.onStore_error hscan
    rw [bind_of_error hscan]
    exact .error hevents htouched rfl
  | ok snapshot c =>
    obtain ⟨hevents, htouched⟩ := (Silent.onStore _ _).of_ok hscan
    rw [bind_of_ok hscan]
    cases unique with
    | false => exact ⟨hevents, htouched⟩
    | true => exact (tells_uniqueRow q.kind (.ofSource q.kind snapshot _) c).after hevents htouched

/-- Gathering candidates fails for the store, or for their number. -/
theorem isNotUnique_of_gather (hv : q.validate b = .ok ()) {e : Failure} {ctx ctx' : Context}
    (h : q.gather config ctx = .error e ctx') : e.report.isNotUnique = false := by
  have hacc : Accounts Context.store (q.telling config b false) (q.gather config) ctx :=
    accounts_gather ctx
  obtain ⟨hpush | hexceeds, -⟩ | ⟨cause, rfl | rfl, -⟩ := hacc.of_error h
  · obtain ⟨p, hp⟩ := exists_pushDown hv config.preference
    cases hp.symm.trans hpush
  · cases hexceeds with
    | candidates => rfl
    | rows hu => cases hu
  · rfl
  · rfl

theorem scanned_reporting (q : Query) (config : QueryConfig) (ctx : Context) (events : List Event)
    (touched : Nat) : q.scanned config (ctx.reporting events touched) = q.scanned config ctx := by
  unfold scanned
  rw [(q.silent_gather config).outcome_reporting]

/-- A query that is evaluated in memory reports its path and the number of its candidates. -/
theorem tells_executeInMemory (hv : q.validate b = .ok ()) (ctx : Context) :
    Tells q.kind ctx (.planned q.kind .inMemory :: q.scanned config ctx)
      (q.executeInMemory config b unique ctx) := by
  let planned := ctx.emit (.planned q.kind .inMemory)
  have hemit : Action.emit (.planned q.kind .inMemory) ctx = .ok () planned := rfl
  have hsame : q.scanned config planned = q.scanned config ctx := q.scanned_reporting ..
  unfold executeInMemory
  rw [bind_of_ok hemit, ← hsame, scanned]
  cases hgather : q.gather config planned with
  | error e c =>
    obtain ⟨hevents, htouched⟩ := (q.silent_gather config).of_error hgather
    rw [bind_of_error hgather]
    exact .error hevents htouched (isNotUnique_of_gather hv hgather)
  | ok candidates c =>
    obtain ⟨hevents, htouched⟩ := (q.silent_gather config).of_ok hgather
    let scanned := c.emit (.scanned q.kind candidates.length)
    have hscanned : Action.emit (.scanned q.kind candidates.length) c = .ok () scanned := rfl
    have hevents' : scanned.events = ctx.events ++
        [.planned q.kind .inMemory, .scanned q.kind candidates.length] := by
      show c.events ++ _ = _
      rw [hevents]
      exact List.append_assoc ..
    rw [bind_of_ok hgather, bind_of_ok hscanned, select_eq hv, bind_of_ok (ofExcept_run ..)]
    exact (tells_selected q.kind _ scanned).after hevents' htouched

/-- What a query does between the events of its start and its finish. -/
def body (q : Query) (config : QueryConfig) (b : Bindings) (unique : Bool) : Action Result := do
  match ← MonadExcept.ofExcept (q.pushDown config.preference b) with
  | .scan s => q.executeScan config unique s
  | .refused reason =>
    Action.emit (.refused q.kind reason)
    q.executeInMemory config b unique

theorem executeFor_eq_counted (q : Query) (config : QueryConfig) (b : Bindings) (unique : Bool) :
    q.executeFor config b unique = Action.counted .query q.kind (q.body config b unique) := rfl

/-- A query is planned first, unless it is malformed. -/
theorem tells_body (q : Query) (config : QueryConfig) (b : Bindings) (unique : Bool)
    (ctx : Context) :
    Tells q.kind ctx (q.planning config b ctx) (q.body config b unique ctx) := by
  unfold planning body
  cases hp : q.pushDown config.preference b with
  | error e =>
    have hmalformed := q.failsMalformed_validate b e (validate_of_pushDown_error hp)
    refine .error (List.append_nil _).symm rfl ?_
    cases e <;> first | rfl | cases hmalformed
  | ok p =>
    rw [bind_of_ok (ofExcept_run ..)]
    cases p with
    | scan s => exact tells_executeScan s ctx
    | refused reason =>
      let refused := ctx.emit (.refused q.kind reason)
      have hrefused : Action.emit (.refused q.kind reason) ctx = .ok () refused := rfl
      have hsame : q.scanned config refused = q.scanned config ctx := q.scanned_reporting ..
      dsimp only
      rw [bind_of_ok hrefused, ← hsame]
      exact (tells_executeInMemory (validate_of_pushDown hp) refused).after rfl rfl

theorem planning_reporting (q : Query) (config : QueryConfig) (b : Bindings) (ctx : Context)
    (events : List Event) (touched : Nat) :
    q.planning config b (ctx.reporting events touched) = q.planning config b ctx := by
  unfold planning
  rw [scanned_reporting]

/-- A query reports its course. -/
theorem events_executeFor (q : Query) (config : QueryConfig) (b : Bindings) (unique : Bool)
    (ctx : Context) : (finalState (q.executeFor config b unique ctx)).events =
      ctx.events ++ q.course config b unique ctx := by
  have hplan : q.planning config b (ctx.starting .query q.kind) = q.planning config b ctx :=
    q.planning_reporting config b ctx _ 0
  have h := (q.tells_body config b unique (ctx.starting .query q.kind)).counted
  rw [hplan, ← Action.outcome_counted, ← executeFor_eq_counted] at h
  exact h

/-- The path that is reported is that of the result. -/
theorem mem_planning {r : Result} {ctx' : Context}
    (h : q.executeFor config b unique ctx = .ok r ctx') (path : Path) :
    .planned q.kind path ∈ q.planning config b ctx ↔ r.path = path := by
  cases hp : q.pushDown config.preference b with
  | error e =>
    obtain ⟨_, he, -⟩ := executeFor_of_pushDown_error hp unique ctx
    cases h.symm.trans he
  | ok p =>
    have hpath : r.path = p.path := answers_executeFor hp unique _ _ _ h
    have hscanned : .planned q.kind path ∉ q.scanned config ctx := by
      unfold scanned
      split <;> simp
    rw [hpath, planning, hp]
    cases p <;> cases path <;> simp [Pushdown.path, hscanned]

/-- Looking for the one row of a query reports no more than the query. -/
theorem events_uniqueRow (q : Query) (config : QueryConfig) (b : Bindings) (ctx : Context) :
    (finalState (q.uniqueRow? config b ctx)).events = ctx.events ++ q.course config b true ctx := by
  rw [← events_executeFor]
  unfold uniqueRow?
  cases hrun : q.executeFor config b true ctx with
  | error e c => rw [bind_of_error hrun]; rfl
  | ok r c =>
    have hrows : r.cursor? = none := q.answers_executeFor_true config b _ _ _ hrun
    cases r with
    | rows path rest =>
      rw [bind_of_ok hrun, bind_of_ok (Result.next_rows ..)]
      rfl
    | stream id => cases hrows

end Query

/-! ## Cascades -/

namespace Cascade

theorem silent_stage (schema : Schema) (policy : CascadePolicy) (loaded : LoadedFields)
    (owner : Row) : Silent (stage schema policy loaded owner) := by
  refine Silent.get_bind (fun _ _ _ => rfl) fun ctx => ?_
  have hrow : Silent (stageRow storeLookup schema policy ctx.store.size loaded owner) :=
    Silent.compositional.stageRow (fun _ _ _ => .onStore _ _) (fun _ _ _ _ => .onStore _ _)
      schema policy ctx.store.size loaded owner
  exact hrow.bind fun s => (Silent.ofExcept _).bind fun _ => .pure s

theorem silent_apply (owner : Key) (s : Staging) (deleteOwner : Bool) :
    Silent (apply owner s deleteOwner) :=
  Silent.compositional.apply (fun _ _ => .onStore _ _) (fun _ _ => .onStore _ _) (.onStore _ _) s
    deleteOwner

/-- What is reported of a staging: that the cascade is rejected, if it fails. -/
def rejection (kind : String) : Except Failure Staging → List Event
  | .error _ => [.cascadeRejected kind]
  | .ok _ => []

/-- What is reported of an answer: how many rows besides the owner are deleted, and how many have
references nulled. -/
def effects (owner : Row) : Except Failure CascadeReport → List Event
  | .ok report =>
    [.cascaded owner.kind (report.deleted.countP (· ≠ owner.key)) report.nulled.length]
  | .error _ => []

/-- The rows that an answer reports as deleted. -/
def deletedRows : Except Failure CascadeReport → Nat
  | .ok report => report.deleted.length
  | .error _ => 0

/-- The events of a cascade. -/
def course (schema : Schema) (policy : CascadePolicy) (loaded : LoadedFields) (owner : Row)
    (deleteOwner : Bool) (ctx : Context) : List Event :=
  let answer := outcome (run schema policy loaded owner deleteOwner ctx)
  .started .delete owner.kind ::
    (rejection owner.kind (outcome (stage schema policy loaded owner ctx)) ++
      effects owner answer ++ [.finished .delete owner.kind (deletedRows answer)])

/-- The owner is not among the deletes that are staged for it. -/
theorem countP_deleted {schema : Schema} {policy : CascadePolicy} {loaded : LoadedFields}
    {owner : Row} {deleteOwner : Bool} {ctx ctx₁ ctx₂ : Context} {s : Staging}
    {report : CascadeReport} (hstage : stage schema policy loaded owner ctx = .ok s ctx₁)
    (happly : apply owner.key s deleteOwner ctx₁ = .ok report ctx₂) :
    report.deleted.countP (· ≠ owner.key) = s.deletes.length := by
  obtain ⟨-, -, new, hs⟩ := explores_of_stage hstage
  have hnew : s.deletes.map (·.key) = new := hs.explores.deletes
  have hfresh : ∀ k ∈ new, k ≠ owner.key := fun k hk he =>
    hs.explores.fresh k hk (he ▸ List.mem_cons_self)
  have hcount : new.countP (· ≠ owner.key) = new.length :=
    List.countP_eq_length.2 fun k hk => decide_eq_true (hfresh k hk)
  have howner : (if deleteOwner then [owner.key] else []).countP (· ≠ owner.key) = 0 := by
    cases deleteOwner <;> simp
  rw [deleted_of_apply happly, hnew, List.countP_append, hcount, howner, ← hnew]
  exact List.length_map _

/-- What a cascade does between the events of its start and its finish. -/
def body (schema : Schema) (policy : CascadePolicy) (loaded : LoadedFields) (owner : Row)
    (deleteOwner : Bool) : Action CascadeReport := do
  let s ← rejecting owner.kind (stage schema policy loaded owner)
  let report ← apply owner.key s deleteOwner
  Action.touch report.deleted.length
  Action.emit (.cascaded owner.kind s.deletes.length report.nulled.length)
  return report

theorem run_eq_counted (schema : Schema) (policy : CascadePolicy) (loaded : LoadedFields)
    (owner : Row) (deleteOwner : Bool) : run schema policy loaded owner deleteOwner =
      Action.counted .delete owner.kind (body schema policy loaded owner deleteOwner) := rfl

/-- A cascade is rejected if it cannot be staged, and reports its effects once it is carried out. -/
theorem reports_body (schema : Schema) (policy : CascadePolicy) (loaded : LoadedFields)
    (owner : Row) (deleteOwner : Bool) (ctx : Context) :
    let r := body schema policy loaded owner deleteOwner ctx
    Reports ctx (rejection owner.kind (outcome (stage schema policy loaded owner ctx)) ++
      effects owner (outcome r)) (deletedRows (outcome r)) r := by
  unfold body
  dsimp only
  cases hstage : stage schema policy loaded owner ctx with
  | error e c =>
    obtain ⟨hevents, htouched⟩ := (silent_stage schema policy loaded owner).of_error hstage
    have hrejected : rejecting owner.kind (stage schema policy loaded owner) ctx =
        .error e (c.emit (.cascadeRejected owner.kind)) := by
      rw [rejecting, hstage]
    rw [bind_of_error hrejected]
    exact ⟨congrArg (· ++ [Event.cascadeRejected owner.kind]) hevents, htouched⟩
  | ok s c =>
    obtain ⟨hevents, htouched⟩ := (silent_stage schema policy loaded owner).of_ok hstage
    have hstaged : rejecting owner.kind (stage schema policy loaded owner) ctx = .ok s c := by
      rw [rejecting, hstage]
    rw [bind_of_ok hstaged]
    cases happly : apply owner.key s deleteOwner c with
    | error e c' =>
      obtain ⟨hevents', htouched'⟩ := (silent_apply owner.key s deleteOwner).of_error happly
      rw [bind_of_error happly]
      exact ⟨(hevents'.trans hevents).trans (List.append_nil _).symm, htouched'.trans htouched⟩
    | ok report c' =>
      obtain ⟨hevents', htouched'⟩ := (silent_apply owner.key s deleteOwner).of_ok happly
      rw [bind_of_ok happly]
      refine ⟨?_, congrArg (· + report.deleted.length) (htouched'.trans htouched)⟩
      show c'.events ++ [.cascaded owner.kind s.deletes.length report.nulled.length] = _ ++
        [.cascaded owner.kind (report.deleted.countP (· ≠ owner.key)) report.nulled.length]
      rw [hevents'.trans hevents, countP_deleted hstage happly]

/-- A cascade reports its course. -/
theorem events_run (schema : Schema) (policy : CascadePolicy) (loaded : LoadedFields) (owner : Row)
    (deleteOwner : Bool) (ctx : Context) :
    (finalState (run schema policy loaded owner deleteOwner ctx)).events =
      ctx.events ++ course schema policy loaded owner deleteOwner ctx := by
  have hstage : outcome (stage schema policy loaded owner (ctx.starting .delete owner.kind)) =
      outcome (stage schema policy loaded owner ctx) :=
    (silent_stage schema policy loaded owner).outcome_reporting ..
  have h := (reports_body schema policy loaded owner deleteOwner
    (ctx.starting .delete owner.kind)).counted
  rw [hstage, ← Action.outcome_counted, ← run_eq_counted] at h
  exact h

end Cascade

/-! ## Inserts -/

namespace PendingObject

/-- The events of an insert: none if the graph does not fit the schema. -/
def course (schema : Schema) (o : PendingObject) (ctx : Context) : List Event :=
  match o.check schema with
  | .ok _ => [.started .insert o.kind,
      .finished .insert o.kind ((o.reached schema ctx).countP (·.key?.isSome))]
  | .error _ => []

/-- An insert reports its course. -/
theorem events_insert (schema : Schema) (o : PendingObject) (ctx : Context) :
    (finalState (o.insert schema ctx)).events = ctx.events ++ o.course schema ctx := by
  unfold course reached
  cases hcheck : o.check schema with
  | error e =>
    rw [insert_of_check_error hcheck]
    exact (List.append_nil _).symm
  | ok =>
    have hvisited : Visited schema (o.visits schema (o.begun ctx)) _ _ _ := visited_write o _
    have htrail := hvisited.trail
    have h : Reports (ctx.starting .insert o.kind) [] _
        (o.write schema (ctx.starting .insert o.kind)) :=
      ⟨htrail.events.trans (List.append_nil _).symm, htrail.touched⟩
    have hinsert : o.insert schema ctx = Action.counted .insert o.kind (o.write schema) ctx := by
      unfold insert
      rw [hcheck, bind_of_ok (ofExcept_run ..)]
    rw [hinsert]
    exact h.counted

end PendingObject

/-! ## All calls -/

/-- Calls report their courses, in a context and with arguments of any kind. -/
structure Context.ReportsCourses (ctx : Context) : Prop where
  query : ∀ (q : Query) config b unique,
    (finalState (q.executeFor config b unique ctx)).events =
      ctx.events ++ q.course config b unique ctx
  /-- The path in the course of a query is that of its result. -/
  path : ∀ (q : Query) config b unique r ctx', q.executeFor config b unique ctx = .ok r ctx' →
    ∀ path, .planned q.kind path ∈ q.planning config b ctx ↔ r.path = path
  /-- Looking for the one row of a query reports no more. -/
  uniqueRow : ∀ (q : Query) config b,
    (finalState (q.uniqueRow? config b ctx)).events = ctx.events ++ q.course config b true ctx
  cascade : ∀ schema policy loaded owner deleteOwner,
    (finalState (Cascade.run schema policy loaded owner deleteOwner ctx)).events =
      ctx.events ++ Cascade.course schema policy loaded owner deleteOwner ctx
  insert : ∀ schema (o : PendingObject),
    (finalState (o.insert schema ctx)).events = ctx.events ++ o.course schema ctx

theorem Context.reportsCourses (ctx : Context) : ctx.ReportsCourses where
  query q config b unique := q.events_executeFor config b unique ctx
  path _ _ _ _ _ _ h := Query.mem_planning h
  uniqueRow q config b := q.events_uniqueRow config b ctx
  cascade schema policy loaded owner deleteOwner :=
    Cascade.events_run schema policy loaded owner deleteOwner ctx
  insert schema o := o.events_insert schema ctx

/-- A query for one row that has two touches none. -/
example : (finalState (Query.sampleQuery.executeFor {} {} true Query.sampleContext)).events =
    [.started .query "Book", .planned "Book" .native, .notUnique "Book",
      .finished .query "Book" 0] := by
  decide +kernel

end EntityGraph
