import Mathlib.Data.List.Infix
import EntityGraph.Proofs.Cascade.Effect
import EntityGraph.Proofs.ObjectGraph.Steps
import EntityGraph.Proofs.Store.Faults

/-!
# Cascades that meet faults

A cascade is staged by calls that read and carried out by calls that write, one after the other. A
fault that is due on one of them ends it there.

* `Compositional.stageRow`, `Sequential.apply`: what holds of the calls of the store, and of
  sequences of operations, holds of staging and of carrying out;
* `Cascade.withstands_stage`, `Cascade.withstands_apply`: the faults that end staging, and those
  that end the writes;
* `Cascade.cut_of_run_error`: what a cascade that fails has written;
* `Cascade.log_of_delete`: a delete removes its owner last;
* `Cascade.cutShort`: with faults, a cascade writes the beginning of what it writes without them.
-/

namespace EntityGraph

namespace Cascade

/-! ## Failures that are not the store's -/

theorem ofClass_error {schema : Schema} {name : String} {e : Failure}
    (h : CascadePlan.ofClass schema name = .error e) : e.report.category = .configuration := by
  unfold CascadePlan.ofClass Schema.lineage at h
  cases hl : schema.lineageFrom name (schema.size + 1) [] name with
  | ok classes =>
    rw [hl] at h
    cases h
  | error e' =>
    rw [hl] at h
    cases h
    exact Schema.lineageFrom_error hl

theorem mappedField_error {schema : Schema} {kind field target mappedBy : String} {e : Failure}
    (h : mappedField schema kind field target mappedBy = .error e) :
    e.report.category = .configuration := by
  unfold mappedField at h
  cases hf : schema.field? target mappedBy with
  | error e' =>
    rw [hf, error_bind] at h
    cases h
    exact Schema.field?_error hf
  | ok mapping =>
    rw [hf, ok_bind] at h
    cases mapping <;> cases h
    rfl

theorem checkReserved_eq_error {policy : CascadePolicy} {row : Row} {field : String} {e : Failure}
    (h : checkReserved policy row field = .error e) :
    e = .cascade (.joinField row.key.text row.kind field) := by
  unfold checkReserved at h
  split at h
  · cases h
  · split at h <;> cases h
    rfl

theorem checkReserved_error {policy : CascadePolicy} {row : Row} {field : String} {e : Failure}
    (h : checkReserved policy row field = .error e) : e.report.category = .unsupported := by
  rw [checkReserved_eq_error h]
  rfl

end Cascade

/-! ## Staging and carrying out as sequences of calls -/

namespace Compositional

open Cascade

variable {P : ∀ {α : Type}, Action α → Prop} (hP : Compositional P)
include hP

-- No scan is asked for that the store refuses.
variable {look : Lookup Action} (hload : ∀ owner field keys, P (look.load owner field keys))
  (hscan : ∀ owner field q, q.check = .ok () → P (look.scan owner field q))
include hload hscan

theorem dependents (row : Row) (loaded : LoadedFields) (field target : String) (owned : Bool)
    (mappedBy : Option String) : P (dependents look row loaded field target owned mappedBy) := by
  unfold Cascade.dependents
  split
  · exact hload ..
  · exact hP.bind (hscan _ _ _ (check_children ..)) fun _ => hP.pure _
  · exact hscan _ _ _ (check_referrers ..)
  · exact hload ..

variable {visit : Row → Staging → Action Staging} (hvisit : ∀ row s, P (visit row s))
include hvisit

theorem stageDelete (loaded : LoadedFields) (row : Row) (s : Staging) (strategy : Strategy) :
    P (stageDelete look visit loaded row s strategy) := by
  have hdependent : ∀ field s child, P (stageDependent visit field s child) := by
    intro field s child
    unfold stageDependent
    split
    · exact hP.pure s
    · exact hP.bind (hvisit ..) fun _ => hP.pure _
  cases strategy with
  | deleteDependents field target owned mappedBy =>
    exact hP.bind (hP.dependents hload hscan ..) fun children => hP.foldlM (hdependent field) ..
  | nullReference | reserved => exact hP.pure s

omit hload hvisit in
theorem stageNull (schema : Schema) (row : Row) (s : Staging) (strategy : Strategy) :
    P (stageNull look schema row s strategy) := by
  cases strategy with
  | nullReference field target mappedBy =>
    refine hP.bind (hP.ofExcept fun e he => by simp [mappedField_error he]) fun _ => ?_
    exact hP.bind (hscan _ _ _ (check_referrers ..)) fun _ => hP.pure _
  | deleteDependents | reserved => exact hP.pure s

theorem stageRelated (schema : Schema) (policy : CascadePolicy) (loaded : LoadedFields) (row : Row)
    (s : Staging) : P (stageRelated look schema policy visit loaded row s) := by
  have hreserved : ∀ strategy : Strategy,
      P (MonadExcept.ofExcept (checkReserved policy row strategy.field)) :=
    fun _ => hP.ofExcept fun e he => by simp [checkReserved_error he]
  refine hP.bind (hP.ofExcept fun e he => by simp [ofClass_error he]) fun _ => ?_
  exact hP.bind (hP.forM hreserved _) fun _ =>
    hP.bind (hP.foldlM (hP.stageDelete hload hscan hvisit loaded row) _ s) fun s =>
      hP.foldlM (hP.stageNull hscan schema row) _ s

omit hvisit in
/-- What holds of looking at the store, of answers and of sequences, holds of staging. -/
theorem stageRow (schema : Schema) (policy : CascadePolicy) (size : Nat) (loaded : LoadedFields)
    (owner : Row) : P (stageRow look schema policy size loaded owner) := by
  have hwithin : ∀ depth loaded row s,
      P (stageWithin look schema policy (fun _ s => return s) depth loaded row s) := by
    intro depth
    induction depth with
    | zero => exact fun _ _ s => hP.pure s
    | succ depth ih => exact hP.stageRelated hload hscan (ih .empty) schema policy
  exact hwithin ..

end Compositional

open Cascade in
/-- What holds of deletes and puts, of answers and of sequences, holds of carrying out a staging. -/
theorem Sequential.apply {P : ∀ {α : Type}, Action α → Prop} (hP : Sequential P) {owner : Key}
    (hdelete : ∀ field key, P (Action.onStore (storeFailure owner field) (Store.delete key)))
    (hput : ∀ field row, P (Action.onStore (storeFailure owner field) (Store.put row)))
    (howner : P (Action.onStore (.deleteStore owner) (Store.delete owner)))
    (s : Staging) (deleteOwner : Bool) : P (Cascade.apply owner s deleteOwner) := by
  refine hP.bind (hP.forM (fun d => hdelete ..) _) fun _ =>
    hP.bind (hP.mapM (fun n => hput ..) _) fun nulled => ?_
  cases deleteOwner with
  | false => exact hP.pure _
  | true => exact hP.bind howner fun _ => hP.pure _

namespace Cascade

/-! ## Faults while staging and carrying out -/

section Withstands

variable {calls : StoreCall → Prop}

theorem category_storeFailure (owner : Key) (field : String) (e : StoreError) :
    (storeFailure owner field e).report.category = .execution := rfl

theorem category_deleteStore (owner : Key) (e : StoreError) :
    (Failure.deleteStore owner e).report.category = .execution := rfl

theorem withstands_load (hget : calls .get) (owner : Key) (field : String) (keys : List Key) :
    Withstands calls (storeLookup.load owner field keys) := by
  show Withstands calls (Action.onStore (storeFailure owner field) (loadRows keys))
  induction keys with
  | nil => exact .pure []
  | cons k ks ih =>
    simp only [loadRows, Action.onStore_bind]
    exact (Withstands.get (category_storeFailure _ _) hget k).bind fun row =>
      ih.bind fun rows => .pure _

/-- The rows of at most `fuel` batches of a snapshot, or the failure that ended them. -/
def drainRowsUpTo (fuel : Nat) (snapshot : Snapshot) : StoreM (List Row) := fun s =>
  match BatchSource.drainUpTo batchSize fuel snapshot s with
  | ((_, some e), s) => .error e s
  | ((rows, none), s) => .ok rows s

/-- Draining a snapshot is fetching a batch and draining the rest. -/
theorem drainRowsUpTo_succ (fuel : Nat) (snapshot : Snapshot) :
    drainRowsUpTo (fuel + 1) snapshot =
      Store.fetch batchSize snapshot >>= fun batch =>
        if batch.1 = [] then pure []
        else drainRowsUpTo fuel batch.2 >>= fun more => pure (batch.1 ++ more) := by
  funext s
  cases h : Store.fetch batchSize snapshot s with
  | error e s₁ =>
    have hfetch : BatchSource.fetch batchSize snapshot s = .error e s₁ := h
    rw [bind_of_error h]
    simp only [drainRowsUpTo, BatchSource.drainUpTo, hfetch]
  | ok batch s₁ =>
    obtain ⟨rows, rest⟩ := batch
    have hfetch : BatchSource.fetch batchSize snapshot s = .ok (rows, rest) s₁ := h
    rw [bind_of_ok h]
    cases rows with
    | nil =>
      simp only [drainRowsUpTo, BatchSource.drainUpTo, hfetch]
      rfl
    | cons r rows =>
      cases hd : BatchSource.drainUpTo batchSize fuel rest s₁ with
      | mk drained s₂ =>
        obtain ⟨more, e⟩ := drained
        cases e with
        | none =>
          have hmore : drainRowsUpTo fuel rest s₁ = .ok more s₂ := by rw [drainRowsUpTo, hd]
          simp only [reduceCtorEq, if_false, bind, EStateM.bind, hmore]
          simp only [drainRowsUpTo, BatchSource.drainUpTo, hfetch, hd]
          rfl
        | some e =>
          have hmore : drainRowsUpTo fuel rest s₁ = .error e s₂ := by rw [drainRowsUpTo, hd]
          simp only [reduceCtorEq, if_false, bind, EStateM.bind, hmore]
          simp only [drainRowsUpTo, BatchSource.drainUpTo, hfetch, hd]

theorem withstands_scan (hscan : calls .scan) (hfetch : calls .fetch) (owner : Key) (field : String)
    (q : Scan) : Withstands calls (storeLookup.scan owner field q) := by
  have hdrain : ∀ fuel snapshot, Withstands calls
      (Action.onStore (storeFailure owner field) (drainRowsUpTo fuel snapshot)) := by
    intro fuel
    induction fuel with
    | zero => exact fun _ => .pure []
    | succ fuel ih =>
      intro snapshot
      rw [drainRowsUpTo_succ, Action.onStore_bind]
      refine (Withstands.fetch (category_storeFailure _ _) hfetch ..).bind fun batch => ?_
      split
      · exact .pure []
      · rw [Action.onStore_bind]
        exact (ih _).bind fun more => .pure _
  show Withstands calls (Action.onStore (storeFailure owner field) (scanRows q))
  simp only [scanRows, Action.onStore_bind]
  exact (Withstands.scan (category_storeFailure _ _) hscan q).bind fun snapshot => hdrain _ snapshot

/-- Staging halts for faults on calls that read. -/
theorem withstands_stage (schema : Schema) (policy : CascadePolicy) (loaded : LoadedFields)
    (owner : Row) :
    Withstands (fun call => call.isWrite = false) (stage schema policy loaded owner) := by
  have hscan := fun owner field q (_ : Scan.check q = .ok ()) =>
    @withstands_scan (fun call => call.isWrite = false) rfl rfl owner field q
  refine Withstands.get_bind (fun _ => rfl) fun ctx => ?_
  have hstage := (Withstands.compositional fun call => call.isWrite = false).stageRow
    (withstands_load rfl) hscan schema policy ctx.store.size loaded owner
  exact hstage.bind fun s => (Withstands.ofExcept _).bind fun _ => .pure s

/-- Carrying out a staging halts for faults on calls that write. -/
theorem withstands_apply (owner : Key) (s : Staging) (deleteOwner : Bool) :
    Withstands (fun call => call.isWrite = true) (apply owner s deleteOwner) :=
  (Withstands.compositional _).apply (fun _ => .delete (category_storeFailure _ _) (by rfl))
    (fun _ => .put (category_storeFailure _ _) (by rfl))
    (.delete (category_deleteStore _) (by rfl) _) s deleteOwner

theorem succeeds_apply (owner : Key) (s : Staging) (deleteOwner : Bool) :
    Succeeds (apply owner s deleteOwner) :=
  Succeeds.sequential.apply (fun _ => .delete _) (fun _ => .put _) (.delete _ _) s deleteOwner

theorem withstands_run (schema : Schema) (policy : CascadePolicy) (loaded : LoadedFields)
    (owner : Row) (deleteOwner : Bool) :
    Withstands (fun _ => True) (run schema policy loaded owner deleteOwner) := by
  have hsame : ∀ ctx : Context, ctx.store = ctx.store ∧ ctx.calm = ctx.calm := fun _ => ⟨rfl, rfl⟩
  have hemit : ∀ (e : Context → Event) (_ : ∀ ctx : Context, e ctx.calm = e ctx) (ctx : Context),
      (ctx.emit (e ctx)).store = ctx.store ∧ ctx.calm.emit (e ctx.calm) = (ctx.emit (e ctx)).calm :=
    fun e he ctx => ⟨rfl, by rw [he]; rfl⟩
  have hstage : Withstands (fun _ => True)
      (rejecting owner.kind (stage schema policy loaded owner)) :=
    ((withstands_stage schema policy loaded owner).mono fun _ _ => trivial).between id id
      (·.emit (.cascadeRejected owner.kind)) hsame hsame (hemit _ fun _ => rfl)
  have hbody := hstage.bind fun s =>
    ((withstands_apply owner.key s deleteOwner).mono fun _ _ => trivial).bind fun report =>
      (Withstands.modify
        (f := fun ctx => { ctx with touched := ctx.touched + report.deleted.length })
        (fun _ => rfl) fun _ => rfl).bind fun _ =>
      (Withstands.modify
        (f := (·.emit (.cascaded owner.kind s.deletes.length report.nulled.length)))
        (fun _ => rfl) fun _ => rfl).bind fun _ => .pure report
  let finished (ctx : Context) : Context := ctx.emit (.finished .delete owner.kind ctx.touched)
  have hfinished := hemit (fun ctx => .finished .delete owner.kind ctx.touched) fun _ => rfl
  exact hbody.between (fun ctx => { ctx.emit (.started .delete owner.kind) with touched := 0 })
    finished finished (fun _ => ⟨rfl, rfl⟩) hfinished hfinished

end Withstands

/-! ## What is left undone -/

/-- The puts and deletes of a log. -/
def writes (log : List StoreEntry) : List StoreEntry := log.filter (·.isWrite)

/-- The puts and deletes that an operation adds to the log of the store. -/
def written {α : Type} (x : Action α) (ctx : Context) : List StoreEntry :=
  writes ((finalState (x ctx)).store.log.drop ctx.store.log.length)

/-- What faults do to a cascade: it writes the beginning of what it writes without them. -/
structure CutShort (x : Action CascadeReport) (ctx : Context) : Prop where
  /-- Nothing is taken out of the log. -/
  grows : ctx.store.log <+: (finalState (x ctx)).store.log
  written_prefix : written x ctx <+: written x ctx.calm
  /-- Where it succeeds without faults, it does so with them, or the store fails before all is
  written. -/
  of_ok : ∀ report c, x ctx.calm = .ok report c →
    (∃ ctx', x ctx = .ok report ctx' ∧ written x ctx = written x ctx.calm) ∨
      ∃ e ctx', x ctx = .error e ctx' ∧ e.report.category = .execution ∧
        (written x ctx = written x ctx.calm → written x ctx.calm = [])
  /-- Where it fails, it does so without faults and has written nothing, or for one fault, and has
  written nothing if that is on a call that reads. -/
  of_error : ∀ e ctx', x ctx = .error e ctx' →
    (written x ctx = [] ∧ ∃ c, x ctx.calm = .error e c) ∨
      e.report.category = .execution ∧ ∃ call,
        Fault.UsedUp call ctx.store.faults ctx'.store.faults ∧
          (call.isWrite = false → written x ctx = [])
  /-- Where it fails for another reason than the store, it has written nothing. -/
  of_category : ∀ e ctx', x ctx = .error e ctx' → e.report.category ≠ .execution →
    written x ctx = []

theorem written_of_log {α : Type} {x : Action α} {ctx : Context} {added : List StoreEntry}
    (h : (finalState (x ctx)).store.log = ctx.store.log ++ added) :
    written x ctx = writes added := by
  rw [written, h, List.drop_left]

theorem written_of_onlyRead {α : Type} {x : Action α} {ctx : Context}
    (h : ctx.store.OnlyRead (finalState (x ctx)).store) : written x ctx = [] := by
  obtain ⟨kinds, hlog⟩ := h.log
  rw [written_of_log hlog, writes, List.filter_eq_nil_iff]
  intro w hw
  obtain ⟨kind, -, rfl⟩ := List.mem_map.1 hw
  simp [StoreEntry.isWrite]

section Run

variable {schema : Schema} {policy : CascadePolicy} {loaded : LoadedFields} {owner : Row}
  {deleteOwner : Bool} {ctx ctx' : Context} {e : Failure}

/-- The context in which a cascade is staged. -/
def begun (owner : Row) (ctx : Context) : Context :=
  { ctx.emit (.started .delete owner.kind) with touched := 0 }

/-- A cascade that fails does so while it is staged, or while it is carried out. -/
theorem run_eq_error (h : run schema policy loaded owner deleteOwner ctx = .error e ctx') :
    (∃ ctx₁, stage schema policy loaded owner (begun owner ctx) = .error e ctx₁ ∧
        ctx'.store = ctx₁.store) ∨
      ∃ s ctx₁ ctx₂, stage schema policy loaded owner (begun owner ctx) = .ok s ctx₁ ∧
        apply owner.key s deleteOwner ctx₁ = .error e ctx₂ ∧ ctx'.store = ctx₂.store := by
  unfold run Action.counted at h
  split at h
  · cases h
  · rename_i e ctx₃ hbody
    cases h
    obtain hstage | ⟨s, ctx₁, hstage, hbody⟩ := bind_run_error.1 hbody
    · unfold rejecting at hstage
      split at hstage
      · cases hstage
      · rename_i hs
        cases hstage
        exact .inl ⟨_, hs, rfl⟩
    · obtain happly | ⟨report, ctx₂, happly, hbody⟩ := bind_run_error.1 hbody
      · unfold rejecting at hstage
        split at hstage
        · rename_i hs
          cases hstage
          exact .inr ⟨s, ctx₁, ctx₃, hs, happly, rfl⟩
        · cases hstage
      · cases hbody

theorem onlyRead_of_stage_error (h : stage schema policy loaded owner ctx = .error e ctx') :
    ctx.store.OnlyRead ctx'.store := by
  obtain ⟨x, hx, hreads⟩ := reads_stage schema policy loaded owner ctx
  exact (hreads.of_error (hx ▸ h)).1

theorem run_of_stage_error {ctx₁ : Context}
    (h : stage schema policy loaded owner (begun owner ctx) = .error e ctx₁) :
    ∃ ctx', run schema policy loaded owner deleteOwner ctx = .error e ctx' := by
  have hstage : rejecting owner.kind (stage schema policy loaded owner) (begun owner ctx) =
      .error e (ctx₁.emit (.cascadeRejected owner.kind)) := by
    rw [rejecting, h]
  exact ⟨_, Action.counted_of_error (bind_of_error hstage)⟩

theorem run_of_apply_ok {s : Staging} {ctx₁ ctx₂ : Context} {report : CascadeReport}
    (h : stage schema policy loaded owner (begun owner ctx) = .ok s ctx₁)
    (h' : apply owner.key s deleteOwner ctx₁ = .ok report ctx₂) :
    ∃ ctx', run schema policy loaded owner deleteOwner ctx = .ok report ctx' ∧
      ctx'.store = ctx₂.store := by
  have hstage : rejecting owner.kind (stage schema policy loaded owner) (begun owner ctx) =
      .ok s ctx₁ := by
    rw [rejecting, h]
  exact ⟨_, Action.counted_of_ok ((bind_of_ok hstage).trans (bind_of_ok h')), rfl⟩

/-- What a cascade that fails has written: nothing if it fails while it is staged, and otherwise the
beginning of the writes that were staged. -/
theorem cut_of_run_error (h : run schema policy loaded owner deleteOwner ctx = .error e ctx') :
    (written (run schema policy loaded owner deleteOwner) ctx = [] ∧
      ((∃ c, run schema policy loaded owner deleteOwner ctx.calm = .error e c) ∨
        e.report.category = .execution ∧ ∃ call, call.isWrite = false ∧
          Fault.UsedUp call ctx.store.faults ctx'.store.faults)) ∨
      ∃ report c, run schema policy loaded owner deleteOwner ctx.calm = .ok report c ∧
        Halted (fun call => call.isWrite = true) ctx.store ctx'.store e c.store := by
  obtain ⟨ctx₁, hs, hstore⟩ | ⟨s, ctx₁, ctx₂, hs, ha, hstore⟩ := run_eq_error h
  · left
    refine ⟨written_of_onlyRead ?_, ?_⟩
    · have hread := onlyRead_of_stage_error hs
      rw [h, finalState, hstore]
      exact hread
    · obtain ⟨hcalm, -⟩ | hh := (withstands_stage schema policy loaded owner).of_error hs
      · exact .inl (run_of_stage_error hcalm)
      · obtain ⟨call, rest, hcall, hused, -⟩ := hh.cut
        rw [hstore]
        exact .inr ⟨hh.category, call, hcall, hused⟩
  · right
    obtain ⟨hcalm, hkept⟩ := (withstands_stage schema policy loaded owner).of_ok hs
    have hcalm : stage schema policy loaded owner (begun owner ctx.calm) = .ok s ctx₁.calm := hcalm
    obtain ⟨report, ctx₃, happly, -⟩ := succeeds_apply owner.key s deleteOwner ctx₁.calm rfl
    obtain ⟨c, hrun, hc⟩ := run_of_apply_ok hcalm happly
    refine ⟨report, c, hrun, ?_⟩
    obtain ⟨hfail, -⟩ | hh := (withstands_apply owner.key s deleteOwner).of_error ha
    · cases happly.symm.trans hfail
    · rw [happly] at hh
      rw [hstore, hc]
      exact hh.of_kept hkept

/-- A fault on a call that writes leaves some of the writes undone. -/
theorem written_ne_of_halted {x : Action CascadeReport} {whole : Context} {report : CascadeReport}
    (hgrows : ctx.store.log <+: (finalState (x ctx)).store.log) (h : x ctx = .error e ctx')
    (hcalm : x ctx.calm = .ok report whole)
    (hh : Halted (fun call => call.isWrite = true) ctx.store ctx'.store e whole.store) :
    written x ctx ≠ written x ctx.calm := by
  obtain ⟨added, hadded⟩ := hgrows
  obtain ⟨call, rest, hcall, -, hrest, hwrite⟩ := hh.cut
  obtain ⟨w, hw, hw'⟩ := hwrite hcall
  have hwhole : (finalState (x ctx.calm)).store.log = ctx.calm.store.log ++ (added ++ rest) := by
    rw [h] at hadded
    rw [hcalm, finalState, hrest, ← List.append_assoc]
    exact congrArg (· ++ rest) hadded.symm
  rw [written_of_log hadded.symm, written_of_log hwhole, writes, writes, List.filter_append]
  intro heq
  have hnil : rest.filter (·.isWrite) = [] := by simpa using heq
  exact List.filter_eq_nil_iff.1 hnil w hw hw'

theorem cutShort_run (deleteOwner : Bool) (ctx : Context) :
    CutShort (run schema policy loaded owner deleteOwner) ctx := by
  have hwith := withstands_run schema policy loaded owner deleteOwner
  refine ⟨hwith.grows ctx, ?_, fun report c hcalm => ?_, fun e ctx' h => ?_, fun e ctx' h hne => ?_⟩
  · exact List.IsPrefix.filter _ (List.IsPrefix.drop (hwith.log_prefix ctx) _)
  · cases h : run schema policy loaded owner deleteOwner ctx with
    | ok report' ctx' =>
      obtain ⟨hcalm', -⟩ := hwith.of_ok h
      cases hcalm.symm.trans hcalm'
      refine .inl ⟨ctx', rfl, ?_⟩
      rw [written, written, h, hcalm']
      rfl
    | error e ctx' =>
      refine .inr ⟨e, ctx', rfl, ?_⟩
      obtain ⟨hnil, ⟨c', hfail⟩ | ⟨hcat, -⟩⟩ | ⟨report', c', hcalm', hh⟩ := cut_of_run_error h
      · cases hcalm.symm.trans hfail
      · exact ⟨hcat, fun heq => heq.symm.trans hnil⟩
      · exact ⟨hh.category, fun heq =>
          absurd heq (written_ne_of_halted (hwith.grows ctx) h hcalm' hh)⟩
  · obtain ⟨hnil, hfail | ⟨hcat, call, hcall, hused⟩⟩ | ⟨report', c', hcalm', hh⟩ :=
      cut_of_run_error h
    · exact .inl ⟨hnil, hfail⟩
    · exact .inr ⟨hcat, call, hused, fun _ => hnil⟩
    · obtain ⟨call, rest, hcall, hused, -⟩ := hh.cut
      exact .inr ⟨hh.category, call, hused, fun hread => by simp [hread] at hcall⟩
  · obtain ⟨hnil, -⟩ | ⟨report', c', hcalm', hh⟩ := cut_of_run_error h
    · exact hnil
    · exact absurd hh.category hne

end Run

/-! ## The owner -/

theorem log_of_deletes {owner : Key} : ∀ {ds : List StagedDelete} {ctx ctx' : Context},
    (ds.forM fun d => Action.onStore (storeFailure owner d.field) (Store.delete d.key)) ctx =
      .ok () ctx' →
    ctx'.store.log = ctx.store.log ++ ds.map (.delete ·.key)
  | [], ctx, ctx', h => by
    cases h
    simp
  | d :: ds, ctx, ctx', h => by
    obtain ⟨⟨⟩, ctx₁, hd, h⟩ := bind_run_ok.1 h
    rw [log_of_deletes h, Store.log_of_delete (Action.onStore_ok hd).1, List.append_assoc]
    rfl

theorem log_of_nulls {owner : Key} : ∀ {ns : List StagedNull} {ctx ctx' : Context}
    {keys : List Key},
    (ns.mapM fun n => Action.onStore (storeFailure owner n.field) (Store.put n.row)) ctx =
      .ok keys ctx' →
    ctx'.store.log = ctx.store.log ++ keys.map .put
  | [], ctx, ctx', keys, h => by
    cases h
    simp
  | n :: ns, ctx, ctx', keys, h => by
    rw [List.mapM_cons] at h
    obtain ⟨k, ctx₁, hn, h⟩ := bind_run_ok.1 h
    obtain ⟨ks, ctx₂, hrest, h⟩ := bind_run_ok.1 h
    cases h
    rw [log_of_nulls hrest, Store.log_of_put (Action.onStore_ok hn).1, List.append_assoc]
    rfl

theorem log_of_apply {owner : Key} {s : Staging} {deleteOwner : Bool} {ctx ctx' : Context}
    {report : CascadeReport} (h : apply owner s deleteOwner ctx = .ok report ctx') :
    ctx'.store.log = ctx.store.log ++ (s.deletes.map (.delete ·.key) ++ report.nulled.map .put ++
      if deleteOwner then [.delete owner] else []) := by
  obtain ⟨⟨⟩, c₁, hdeletes, h⟩ := bind_run_ok.1 h
  obtain ⟨nulled, c₂, hnulls, h⟩ := bind_run_ok.1 h
  have hlog := log_of_nulls hnulls
  rw [log_of_deletes hdeletes] at hlog
  cases deleteOwner with
  | false =>
    cases h
    simp [hlog]
  | true =>
    obtain ⟨⟨⟩, c₃, howner, h⟩ := bind_run_ok.1 h
    cases h
    rw [Store.log_of_delete (Action.onStore_ok howner).1, hlog]
    simp

/-- A cascade that succeeds looks at the store, then deletes the dependents, then puts the rows with
references nulled, and deletes the owner last. -/
theorem log_of_run {schema : Schema} {policy : CascadePolicy} {loaded : LoadedFields} {owner : Row}
    {deleteOwner : Bool} {ctx ctx' : Context} {report : CascadeReport}
    (h : run schema policy loaded owner deleteOwner ctx = .ok report ctx') :
    ∃ (kinds : List String) (dependents : List Key),
      report.deleted = dependents ++ (if deleteOwner then [owner.key] else []) ∧
      owner.key ∉ dependents ∧
      ctx'.store.log = ctx.store.log ++ (kinds.map .scan ++ (dependents.map .delete ++
        report.nulled.map .put ++ if deleteOwner then [.delete owner.key] else [])) := by
  obtain ⟨s, ctx₀, ctx₁, ctx₂, hstore, -, hstage, happly, hlast⟩ := run_eq_ok h
  obtain ⟨hr, -, new, hs⟩ := explores_of_stage hstage
  obtain ⟨kinds, hkinds⟩ := hr.log
  refine ⟨kinds, s.deletes.map (·.key), deleted_of_apply happly, ?_, ?_⟩
  · rw [hs.explores.deletes]
    exact fun hk => hs.explores.fresh _ (by simpa using hk) List.mem_cons_self
  · rw [hlast, log_of_apply happly, hkinds, hstore]
    simp only [List.append_assoc, List.map_map, Function.comp_def]

/-- A delete that succeeds removes its owner once, and last. -/
theorem log_of_delete {schema : Schema} {policy : CascadePolicy} {loaded : LoadedFields}
    {owner : Row} {ctx ctx' : Context} {report : CascadeReport}
    (h : delete schema policy loaded owner ctx = .ok report ctx') : ∃ before,
      ctx'.store.log = ctx.store.log ++ (before ++ [.delete owner.key]) ∧
        .delete owner.key ∉ before := by
  obtain ⟨kinds, dependents, -, hfresh, hlog⟩ := log_of_run h
  refine ⟨kinds.map .scan ++ (dependents.map .delete ++ report.nulled.map .put), ?_, ?_⟩
  · simpa only [if_true, List.append_assoc] using hlog
  · simpa using hfresh

/-- A delete that has removed its owner has carried out all that it staged. -/
theorem ok_of_mem_written {schema : Schema} {policy : CascadePolicy} {loaded : LoadedFields}
    {owner : Row} {ctx : Context}
    (h : .delete owner.key ∈ written (delete schema policy loaded owner) ctx) :
    ∃ report ctx', delete schema policy loaded owner ctx = .ok report ctx' := by
  cases hrun : delete schema policy loaded owner ctx with
  | ok report ctx' => exact ⟨report, ctx', rfl⟩
  | error e ctx' =>
    exfalso
    obtain ⟨hnil, -⟩ | ⟨report, c, hcalm, hh⟩ := cut_of_run_error hrun
    · have hnil : written (delete schema policy loaded owner) ctx = [] := hnil
      rw [hnil] at h
      cases h
    obtain ⟨added, hadded⟩ : ctx.store.log <+:
        (finalState (delete schema policy loaded owner ctx)).store.log :=
      (withstands_run schema policy loaded owner true).grows ctx
    rw [written_of_log hadded.symm] at h
    rw [hrun] at hadded
    -- What was logged so far is less than all, and all but the last entry is not the owner's.
    obtain ⟨before, hbefore, hnotin⟩ := log_of_delete hcalm
    obtain ⟨call, rest, hcall, -, hrest, hwrite⟩ := hh.cut
    obtain ⟨w, hw, -⟩ := hwrite hcall
    have hall : added ++ rest = before ++ [.delete owner.key] := by
      refine (List.append_right_inj ctx.store.log).1 ?_
      rw [← List.append_assoc, hadded]
      exact hrest.symm.trans hbefore
    obtain heq | hpre := List.prefix_concat_iff.1 ⟨rest, hall⟩
    · rw [heq] at hall
      rw [List.append_right_eq_self.1 hall] at hw
      cases hw
    · exact hnotin (hpre.subset (List.mem_filter.1 h).1)

/-- Whatever faults are injected, a cascade writes the beginning of what it writes without them, and
a delete has removed its owner only if it has carried out everything. -/
theorem cutShort (schema : Schema) (policy : CascadePolicy) (loaded : LoadedFields) (owner : Row)
    (ctx : Context) :
    CutShort (execute schema policy loaded owner) ctx ∧
    CutShort (delete schema policy loaded owner) ctx ∧
    (.delete owner.key ∈ written (delete schema policy loaded owner) ctx →
      ∃ report ctx', delete schema policy loaded owner ctx = .ok report ctx' ∧
        written (delete schema policy loaded owner) ctx =
          written (delete schema policy loaded owner) ctx.calm) := by
  have hdelete : CutShort (delete schema policy loaded owner) ctx := cutShort_run true ctx
  refine ⟨cutShort_run false ctx, hdelete, fun h => ?_⟩
  obtain ⟨report, ctx', hrun⟩ := ok_of_mem_written h
  have hcalm := ((withstands_run schema policy loaded owner true).of_ok hrun).1
  obtain ⟨ctx'', -, hwritten⟩ | ⟨e, ctx'', hfail, -⟩ := hdelete.of_ok _ _ hcalm
  · exact ⟨report, ctx', hrun, hwritten⟩
  · cases hrun.symm.trans hfail

/-- The nodes of the cycle, in a store whose second delete times out. -/
def sampleTimeout : Context :=
  { sampleCycle with store := sampleCycle.store.inject ⟨.delete, 1, .timeout "delete"⟩ }

theorem cutShort_sample :
    written (delete sampleSchema {} .empty (sampleNode 1 2)) sampleTimeout =
        [.delete (sampleNode 2 1).key] ∧
      ∃ e ctx', delete sampleSchema {} .empty (sampleNode 1 2) sampleTimeout = .error e ctx' ∧
        e.report.category = .execution := by
  obtain ⟨c, hcalm⟩ : ∃ c, delete sampleSchema {} .empty (sampleNode 1 2) sampleTimeout.calm =
      .ok ⟨[(sampleNode 2 1).key, (sampleNode 1 2).key], []⟩ c :=
    exists_eq_ok (by decide +kernel)
  have hwritten : written (delete sampleSchema {} .empty (sampleNode 1 2)) sampleTimeout =
      [.delete (sampleNode 2 1).key] := by decide +kernel
  have hwhole : written (delete sampleSchema {} .empty (sampleNode 1 2)) sampleTimeout.calm =
      [.delete (sampleNode 2 1).key, .delete (sampleNode 1 2).key] := by decide +kernel
  obtain ⟨-, hdelete, -⟩ := cutShort sampleSchema {} .empty (sampleNode 1 2) sampleTimeout
  obtain ⟨ctx', -, heq⟩ | ⟨e, ctx', hfail, hcat, -⟩ := hdelete.of_ok _ _ hcalm
  · rw [hwritten, hwhole] at heq
    simp at heq
  · exact ⟨hwritten, e, ctx', hfail, hcat⟩

end Cascade
end EntityGraph
