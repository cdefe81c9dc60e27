import EntityGraph.Proofs.Store.Writing

/-!
# Runs with and without faults

An operation that meets no fault that is due does what it does on a store without faults. One that
meets such a fault stops there: it uses the fault up, and what it has logged is the beginning of
what it logs without faults.

* `Fault.count_due`: a call uses up one fault of its kind if it fails, and none otherwise;
* `Fault.due_congr`, `Fault.waiting_due_of_ne`: a call depends on the faults that wait for its kind,
  and leaves those that wait for another;
* `Withstands`: an operation against itself without faults. Sequences of such operations are such
  operations (`Withstands.compositional`);
* `Withstands.onFault`: a call of the store withstands faults if what it does once it has passed
  them does;
* `Succeeds`: an operation that only a fault makes fail.
-/

namespace EntityGraph

def StoreCall.isWrite : StoreCall → Bool
  | .put | .delete => true
  | .get | .scan | .fetch => false

def StoreEntry.isWrite : StoreEntry → Bool
  | .put _ | .delete _ => true
  | .scan _ => false

/-! ## Faults -/

namespace Fault

/-- The number of faults that wait for calls of a kind. -/
def count (call : StoreCall) (faults : List Fault) : Nat := faults.countP (·.call = call)

/-- No fault was used up. -/
def Kept (faults faults' : List Fault) : Prop := ∀ call, count call faults' = count call faults

/-- One fault was used up, on a call of the kind. -/
def UsedUp (call : StoreCall) (faults faults' : List Fault) : Prop :=
  ∀ c, count c faults' + (if c = call then 1 else 0) = count c faults

theorem Kept.refl (faults : List Fault) : Kept faults faults := fun _ => rfl

theorem Kept.trans {fs₁ fs₂ fs₃ : List Fault} (h : Kept fs₁ fs₂) (h' : Kept fs₂ fs₃) :
    Kept fs₁ fs₃ := fun call => (h' call).trans (h call)

theorem UsedUp.of_kept {call : StoreCall} {fs₁ fs₂ fs₃ : List Fault} (h : Kept fs₁ fs₂)
    (h' : UsedUp call fs₂ fs₃) : UsedUp call fs₁ fs₃ := fun c => (h' c).trans (h c)

theorem count_cons (c : StoreCall) (f : Fault) (fs : List Fault) :
    count c (f :: fs) = count c fs + if c = f.call then 1 else 0 := by
  simp [count, List.countP_cons, eq_comm]

/-- A call that fails for a fault uses it up; a call that goes on leaves all faults for later. -/
theorem count_due (call : StoreCall) (faults : List Fault) :
    (∃ e rest, due call faults = (some e, rest) ∧ UsedUp call faults rest) ∨
      ∃ rest, due call faults = (none, rest) ∧ Kept faults rest := by
  induction faults with
  | nil => exact .inr ⟨[], rfl, .refl []⟩
  | cons f fs ih =>
    unfold due
    by_cases hc : f.call = call
    · rw [if_pos hc]
      by_cases hs : f.skip = 0
      · rw [if_pos hs]
        exact .inl ⟨f.error, fs, rfl, fun c => by rw [count_cons, hc]⟩
      · rw [if_neg hs]
        exact .inr ⟨_, rfl, fun c => by rw [count_cons, count_cons]⟩
    · rw [if_neg hc]
      obtain ⟨e, rest, hd, hu⟩ | ⟨rest, hd, hk⟩ := ih
      · rw [hd]
        refine .inl ⟨e, f :: rest, rfl, fun c => ?_⟩
        have := hu c
        rw [count_cons, count_cons]
        omega
      · rw [hd]
        exact .inr ⟨f :: rest, rfl, fun c => by rw [count_cons, count_cons, hk c]⟩

/-- The faults that wait for calls of a kind. -/
def waiting (call : StoreCall) (faults : List Fault) : List Fault := faults.filter (·.call = call)

theorem due_waiting (call : StoreCall) (faults : List Fault) :
    due call (waiting call faults) = ((due call faults).1, waiting call (due call faults).2) := by
  induction faults with
  | nil => rfl
  | cons f fs ih =>
    by_cases hc : f.call = call
    · by_cases hs : f.skip = 0 <;> simp [waiting, due, hc, hs]
    · simpa [waiting, due, hc] using ih

theorem waiting_due_of_ne {call call' : StoreCall} (h : call' ≠ call) (faults : List Fault) :
    waiting call (due call' faults).2 = waiting call faults := by
  induction faults with
  | nil => rfl
  | cons f fs ih =>
    by_cases hc : f.call = call'
    · by_cases hs : f.skip = 0 <;> simp [waiting, due, hc, hs, h]
    · by_cases hf : f.call = call
      · simpa [waiting, due, hf, h.symm] using ih
      · simpa [waiting, due, hc, hf] using ih

theorem due_congr {call : StoreCall} {faults faults' : List Fault}
    (h : waiting call faults = waiting call faults') :
    (due call faults).1 = (due call faults').1 ∧
      waiting call (due call faults).2 = waiting call (due call faults').2 := by
  have hdue := due_waiting call faults
  rw [h, due_waiting] at hdue
  exact (Prod.ext_iff.1 hdue).imp Eq.symm Eq.symm

end Fault

/-! ## Operations -/

/-- The state that a computation ends in. -/
def finalState {ε σ α : Type} : EStateM.Result ε σ α → σ
  | .ok _ s => s
  | .error _ s => s

theorem finalState_map {ε σ α β : Type} (f : α → β) (x : EStateM ε σ α) (s : σ) :
    finalState ((f <$> x) s) = finalState (x s) := by
  change finalState (EStateM.map f x s) = _
  unfold EStateM.map
  cases x s <;> rfl

/-- The store with no fault injected. -/
def Store.calm (s : Store) : Store := { s with faults := [] }

/-- The context with no fault injected in the store. -/
def Context.calm (ctx : Context) : Context := { ctx with store := ctx.store.calm }

variable {α β : Type}

/-- A fault on one of the `calls` ended a run that started with the store `s` and would have ended
with `whole` without it: what was logged so far is the beginning of the whole log, and if the call
was to write, there are writes in the rest. -/
structure Halted (calls : StoreCall → Prop) (s s' : Store) (e : Failure) (whole : Store) :
    Prop where
  category : e.report.category = .execution
  cut : ∃ call rest, calls call ∧ Fault.UsedUp call s.faults s'.faults ∧
    whole.log = s'.log ++ rest ∧ (call.isWrite → ∃ w ∈ rest, w.isWrite)

/-- An operation does what it does without faults, or halts for a fault on one of the `calls`. -/
structure Withstands (calls : StoreCall → Prop) (x : Action α) : Prop where
  grows : ∀ ctx, ctx.store.log <+: (finalState (x ctx)).store.log
  of_ok : ∀ {ctx a ctx'}, x ctx = .ok a ctx' →
    x ctx.calm = .ok a ctx'.calm ∧ Fault.Kept ctx.store.faults ctx'.store.faults
  of_error : ∀ {ctx e ctx'}, x ctx = .error e ctx' →
    (x ctx.calm = .error e ctx'.calm ∧ Fault.Kept ctx.store.faults ctx'.store.faults) ∨
      Halted calls ctx.store ctx'.store e (finalState (x ctx.calm)).store

theorem Halted.extend {calls : StoreCall → Prop} {s s' whole whole' : Store} {e : Failure}
    (h : Halted calls s s' e whole) (hp : whole.log <+: whole'.log) :
    Halted calls s s' e whole' where
  category := h.category
  cut := by
    obtain ⟨call, rest, hc, hu, hl, hw⟩ := h.cut
    obtain ⟨more, hm⟩ := hp
    refine ⟨call, rest ++ more, hc, hu, ?_, fun h => ?_⟩
    · rw [← hm, hl, List.append_assoc]
    · obtain ⟨w, hmem, hwrite⟩ := hw h
      exact ⟨w, List.mem_append_left _ hmem, hwrite⟩

theorem Halted.of_kept {calls : StoreCall → Prop} {s s₁ s' whole : Store} {e : Failure}
    (hk : Fault.Kept s.faults s₁.faults) (h : Halted calls s₁ s' e whole) :
    Halted calls s s' e whole where
  category := h.category
  cut := by
    obtain ⟨call, rest, hc, hu, h⟩ := h.cut
    exact ⟨call, rest, hc, hu.of_kept hk, h⟩

namespace Withstands

variable {calls : StoreCall → Prop}

theorem mono {calls' : StoreCall → Prop} {x : Action α} (h : Withstands calls x)
    (hc : ∀ call, calls call → calls' call) : Withstands calls' x where
  grows := h.grows
  of_ok := h.of_ok
  of_error hx := (h.of_error hx).imp_right fun hh => ⟨hh.category, by
    obtain ⟨call, rest, hcall, hcut⟩ := hh.cut
    exact ⟨call, rest, hc _ hcall, hcut⟩⟩

/-- A change that looks at no fault, touches none and logs nothing. -/
theorem modifyGet {f : Context → α × Context}
    (hcalm : ∀ ctx, f ctx.calm = ((f ctx).1, (f ctx).2.calm))
    (hfaults : ∀ ctx, (f ctx).2.store.faults = ctx.store.faults)
    (hlog : ∀ ctx, ctx.store.log <+: (f ctx).2.store.log) :
    Withstands calls (MonadState.modifyGet f : Action α) where
  grows := hlog
  of_ok {ctx a ctx'} h := by
    cases h
    refine ⟨?_, fun call => by rw [hfaults ctx]⟩
    rw [modifyGet_run, hcalm]
  of_error h := by cases h

/-- A change of the context that leaves the store alone. -/
theorem modify {f : Context → Context} (hcalm : ∀ ctx : Context, f ctx.calm = (f ctx).calm)
    (hstore : ∀ ctx, (f ctx).store = ctx.store) :
    Withstands calls (modify f : Action Unit) :=
  modifyGet (f := fun ctx => ((), f ctx)) (fun ctx => congrArg _ (hcalm ctx))
    (fun ctx => congrArg _ (hstore ctx)) fun ctx => hstore ctx ▸ List.prefix_rfl

theorem pure (a : α) : Withstands calls (Pure.pure a) where
  grows _ := List.prefix_rfl
  of_ok h := by
    cases h
    exact ⟨rfl, .refl _⟩
  of_error h := by cases h

theorem ofExcept (r : Except Failure α) : Withstands calls (MonadExcept.ofExcept r) := by
  cases r with
  | ok a => exact pure a
  | error e =>
    refine ⟨fun _ => List.prefix_rfl, nofun, fun h => ?_⟩
    cases h
    exact .inl ⟨rfl, .refl _⟩

theorem bind {x : Action α} {f : α → Action β} (hx : Withstands calls x)
    (hf : ∀ a, Withstands calls (f a)) : Withstands calls (x >>= f) where
  grows ctx := by
    have hgrow := hx.grows ctx
    cases h : x ctx with
    | ok a ctx₁ =>
      rw [h] at hgrow
      rw [bind_of_ok h]
      exact hgrow.trans ((hf a).grows ctx₁)
    | error e ctx₁ =>
      rw [h] at hgrow
      rw [bind_of_error h]
      exact hgrow
  of_ok {ctx b ctx''} h := by
    obtain ⟨a, ctx', h₁, h₂⟩ := bind_run_ok.1 h
    obtain ⟨hc₁, hk₁⟩ := hx.of_ok h₁
    obtain ⟨hc₂, hk₂⟩ := (hf a).of_ok h₂
    exact ⟨by rw [bind_of_ok hc₁, hc₂], hk₁.trans hk₂⟩
  of_error {ctx e ctx''} h := by
    obtain h₁ | ⟨a, ctx', h₁, h₂⟩ := bind_run_error.1 h
    · refine (hx.of_error h₁).imp (fun ⟨hc, hk⟩ => ⟨bind_of_error hc, hk⟩) fun hh => ?_
      cases hc : x ctx.calm with
      | ok a ctx₁ =>
        rw [hc] at hh
        rw [bind_of_ok hc]
        exact hh.extend ((hf a).grows ctx₁)
      | error e' ctx₁ =>
        rw [hc] at hh
        rw [bind_of_error hc]
        exact hh
    · obtain ⟨hc, hk⟩ := hx.of_ok h₁
      rw [bind_of_ok hc]
      exact ((hf a).of_error h₂).imp (fun ⟨hc₂, hk₂⟩ => ⟨hc₂, hk.trans hk₂⟩) (·.of_kept hk)

/-- An operation that looks at its context, but at no fault. -/
theorem get_bind {f : Context → Action β} (hcalm : ∀ ctx : Context, f ctx.calm = f ctx)
    (hf : ∀ ctx, Withstands calls (f ctx)) : Withstands calls (MonadState.get >>= f) where
  grows ctx := (hf ctx).grows ctx
  of_ok {ctx _ _} h := by
    rw [bind_of_ok (get_run _), hcalm]
    exact (hf ctx).of_ok h
  of_error {ctx _ _} h := by
    rw [bind_of_ok (get_run _), hcalm]
    exact (hf ctx).of_error h

/-- What is logged with faults is the beginning of what is logged without them. -/
theorem log_prefix {x : Action α} (hx : Withstands calls x) (ctx : Context) :
    (finalState (x ctx)).store.log <+: (finalState (x ctx.calm)).store.log := by
  cases h : x ctx with
  | ok a ctx' =>
    rw [(hx.of_ok h).1]
    exact List.prefix_rfl
  | error e ctx' =>
    obtain ⟨hc, -⟩ | hh := hx.of_error h
    · rw [hc]
      exact List.prefix_rfl
    · obtain ⟨call, rest, -, -, hrest, -⟩ := hh.cut
      exact ⟨rest, hrest.symm⟩

theorem compositional (calls : StoreCall → Prop) : Compositional (Withstands calls) where
  pure := .pure
  bind := .bind
  ofExcept _ := .ofExcept _

/-- An operation between changes of the context that leave the store alone. -/
theorem between {x : Action α} (hx : Withstands calls x) (before after failed : Context → Context)
    (hb : ∀ ctx, (before ctx).store = ctx.store ∧ before ctx.calm = (before ctx).calm)
    (ha : ∀ ctx, (after ctx).store = ctx.store ∧ after ctx.calm = (after ctx).calm)
    (hf : ∀ ctx, (failed ctx).store = ctx.store ∧ failed ctx.calm = (failed ctx).calm) :
    Withstands calls fun ctx => match x (before ctx) with
      | .ok a ctx => .ok a (after ctx)
      | .error e ctx => .error e (failed ctx) where
  grows ctx := by
    have hgrow := hx.grows (before ctx)
    rw [(hb ctx).1] at hgrow
    cases h : x (before ctx) with
    | ok a ctx₁ =>
      rw [h] at hgrow
      exact (ha ctx₁).1 ▸ hgrow
    | error e ctx₁ =>
      rw [h] at hgrow
      exact (hf ctx₁).1 ▸ hgrow
  of_ok {ctx a ctx'} h := by
    split at h
    · rename_i ctx₁ h₁
      cases h
      obtain ⟨hc, hk⟩ := hx.of_ok h₁
      rw [(hb ctx).1] at hk
      simp only [(hb ctx).2, hc, (ha ctx₁).2, (ha ctx₁).1]
      exact ⟨trivial, hk⟩
    · cases h
  of_error {ctx e ctx'} h := by
    split at h
    · cases h
    · rename_i e ctx₁ h₁
      cases h
      obtain ⟨hc, hk⟩ | hh := hx.of_error h₁
      · rw [(hb ctx).1] at hk
        simp only [(hb ctx).2, hc, (hf ctx₁).2, (hf ctx₁).1]
        exact .inl ⟨trivial, hk⟩
      · refine .inr ?_
        rw [(hb ctx).1] at hh
        simp only [(hb ctx).2, (hf ctx₁).1]
        cases hc : x (before ctx).calm with
        | ok a ctx₂ =>
          rw [hc] at hh
          simpa only [finalState, (ha ctx₂).1] using hh
        | error e ctx₂ =>
          rw [hc] at hh
          simpa only [finalState, (hf ctx₂).1] using hh

end Withstands

/-! ## Calls of the store -/

namespace Action

variable (wrap : StoreError → Failure)

theorem onStore_bind (x : StoreM α) (f : α → StoreM β) :
    onStore wrap (x >>= f) = onStore wrap x >>= fun a => onStore wrap (f a) := by
  funext ctx
  simp only [onStore, bind, EStateM.bind]
  cases x ctx.store <;> rfl

theorem onStore_modifyGet (f : Store → α × Store) :
    onStore wrap (modifyGet f) =
      modifyGet fun ctx : Context => ((f ctx.store).1, { ctx with store := (f ctx.store).2 }) := rfl

theorem onStore_ofExcept (r : Except StoreError α) :
    onStore wrap (MonadExcept.ofExcept r) = MonadExcept.ofExcept (r.mapError wrap) := by
  cases r <;> rfl

end Action

namespace Withstands

variable {calls : StoreCall → Prop} {wrap : StoreError → Failure}

/-- A change of the store that looks at no fault, touches none and logs at the end. -/
theorem onStore_modifyGet {f : Store → α × Store}
    (hcalm : ∀ s, f s.calm = ((f s).1, (f s).2.calm)) (hfaults : ∀ s, (f s).2.faults = s.faults)
    (hlog : ∀ s, s.log <+: (f s).2.log) :
    Withstands calls (Action.onStore wrap (MonadState.modifyGet f : StoreM α)) := by
  rw [Action.onStore_modifyGet]
  refine modifyGet (fun ctx => ?_) (fun ctx => hfaults ctx.store) fun ctx => hlog ctx.store
  simp only [Context.calm, hcalm]

/-- A call fails for a fault, which is used up, or goes on. -/
theorem failIfDue_bind_run (wrap : StoreError → Failure) (call : StoreCall) (x : StoreM α)
    (ctx : Context) :
    (∃ e ctx₁, Action.onStore wrap (Store.failIfDue call >>= fun _ => x) ctx =
        .error (wrap e) ctx₁ ∧ Fault.UsedUp call ctx.store.faults ctx₁.store.faults ∧
          ctx₁.store.log = ctx.store.log) ∨
      ∃ ctx₁, Action.onStore wrap (Store.failIfDue call >>= fun _ => x) ctx =
        Action.onStore wrap x ctx₁ ∧ Fault.Kept ctx.store.faults ctx₁.store.faults ∧
          ctx₁.store.log = ctx.store.log ∧ ctx₁.calm = ctx.calm := by
  obtain ⟨e, rest, hd, hu⟩ | ⟨rest, hd, hk⟩ := Fault.count_due call ctx.store.faults
  · have hfail : Store.failIfDue call ctx.store = .error e { ctx.store with faults := rest } := by
      rw [Store.failIfDue, hd]
    refine .inl ⟨e, { ctx with store := { ctx.store with faults := rest } }, ?_, hu, rfl⟩
    rw [Action.onStore, bind_of_error hfail]
  · have hpass : Store.failIfDue call ctx.store = .ok () { ctx.store with faults := rest } := by
      rw [Store.failIfDue, hd]
    refine .inr ⟨{ ctx with store := { ctx.store with faults := rest } }, ?_, hk, rfl, rfl⟩
    rw [Action.onStore, bind_of_ok hpass]
    rfl

theorem failIfDue_bind_calm (call : StoreCall) (x : StoreM α) (ctx : Context) :
    Action.onStore wrap (Store.failIfDue call >>= fun _ => x) ctx.calm =
      Action.onStore wrap x ctx.calm := rfl

/-- A call that may fail for a fault, and that logs a write if it is to write. -/
theorem onFault {call : StoreCall} (hcall : calls call)
    (hwrap : ∀ e, (wrap e).report.category = .execution) {x : StoreM α}
    (hx : Withstands calls (Action.onStore wrap x))
    (hw : call.isWrite → ∀ ctx, ∃ rest,
      (finalState (Action.onStore wrap x ctx)).store.log = ctx.store.log ++ rest ∧
        ∃ w ∈ rest, w.isWrite) :
    Withstands calls (Action.onStore wrap (Store.failIfDue call >>= fun _ => x)) where
  grows ctx := by
    obtain ⟨e, ctx₁, hrun, -, hlog⟩ | ⟨ctx₁, hrun, -, hlog, -⟩ :=
      failIfDue_bind_run wrap call x ctx
    · rw [hrun]
      exact hlog ▸ List.prefix_rfl
    · rw [hrun, ← hlog]
      exact hx.grows ctx₁
  of_ok {ctx a ctx'} h := by
    obtain ⟨e, ctx₁, hrun, -⟩ | ⟨ctx₁, hrun, hk, -, hcalm⟩ :=
      failIfDue_bind_run wrap call x ctx
    · cases hrun.symm.trans h
    · obtain ⟨hc, hk'⟩ := hx.of_ok (hrun.symm.trans h)
      rw [failIfDue_bind_calm, ← hcalm]
      exact ⟨hc, hk.trans hk'⟩
  of_error {ctx e ctx'} h := by
    rw [failIfDue_bind_calm]
    obtain ⟨e₁, ctx₁, hrun, hu, hlog⟩ | ⟨ctx₁, hrun, hk, -, hcalm⟩ :=
      failIfDue_bind_run wrap call x ctx
    · cases hrun.symm.trans h
      obtain ⟨rest, hrest⟩ := hx.grows ctx.calm
      refine .inr ⟨hwrap e₁, call, rest, hcall, hu, ?_, fun hwrite => ?_⟩
      · rw [← hrest, hlog]
        rfl
      · obtain ⟨rest', hrest', hmem⟩ := hw hwrite ctx.calm
        rw [← hrest] at hrest'
        exact List.append_cancel_left hrest' ▸ hmem
    · rw [← hcalm]
      exact (hx.of_error (hrun.symm.trans h)).imp (fun ⟨hc, hk'⟩ => ⟨hc, hk.trans hk'⟩)
        (·.of_kept hk)

variable (hwrap : ∀ e, (wrap e).report.category = .execution)
include hwrap

theorem get (hcall : calls .get) (k : Key) :
    Withstands calls (Action.onStore wrap (Store.get k)) := by
  refine onFault hcall hwrap ?_ nofun
  exact onStore_modifyGet (fun _ => rfl) (fun _ => rfl) fun _ => List.prefix_rfl

theorem scan (hcall : calls .scan) (q : Scan) :
    Withstands calls (Action.onStore wrap (Store.scan q)) := by
  refine onFault hcall hwrap ?_ nofun
  rw [Action.onStore_bind, Action.onStore_ofExcept]
  refine (ofExcept _).bind fun _ => ?_
  exact onStore_modifyGet (fun _ => rfl) (fun _ => rfl) fun _ => List.prefix_append ..

theorem fetch (hcall : calls .fetch) (limit : Nat) (snapshot : Snapshot) :
    Withstands calls (Action.onStore wrap (Store.fetch limit snapshot)) := by
  refine onFault hcall hwrap ?_ nofun
  rw [Action.onStore_bind]
  refine bind ?_ fun _ => pure _
  exact onStore_modifyGet (fun _ => rfl) (fun _ => rfl) fun _ => List.prefix_rfl

theorem put (hcall : calls .put) (r : Row) :
    Withstands calls (Action.onStore wrap (Store.put r)) := by
  refine onFault hcall hwrap ?_ fun _ ctx => ⟨[.put (ctx.store.keyFor r)], rfl, _, .head _, rfl⟩
  exact onStore_modifyGet (fun _ => rfl) (fun _ => rfl) fun _ => List.prefix_append ..

theorem delete (hcall : calls .delete) (k : Key) :
    Withstands calls (Action.onStore wrap (Store.delete k)) := by
  refine onFault hcall hwrap ?_ fun _ _ => ⟨[.delete k], rfl, _, .head _, rfl⟩
  exact onStore_modifyGet (fun _ => rfl) (fun _ => rfl) fun _ => List.prefix_append ..

end Withstands

/-! ## Calls that only a fault makes fail -/

/-- Without faults an operation succeeds. -/
def Succeeds (x : Action α) : Prop :=
  ∀ ctx, ctx.store.faults = [] → ∃ a ctx', x ctx = .ok a ctx' ∧ ctx'.store.faults = []

namespace Succeeds

theorem pure (a : α) : Succeeds (Pure.pure a) := fun ctx hf => ⟨a, ctx, rfl, hf⟩

theorem bind {x : Action α} {f : α → Action β} (hx : Succeeds x) (hf : ∀ a, Succeeds (f a)) :
    Succeeds (x >>= f) := by
  intro ctx hn
  obtain ⟨a, ctx₁, h₁, hn₁⟩ := hx ctx hn
  obtain ⟨b, ctx₂, h₂, hn₂⟩ := hf a ctx₁ hn₁
  exact ⟨b, ctx₂, (bind_of_ok h₁).trans h₂, hn₂⟩

theorem sequential : Sequential Succeeds := ⟨.pure, .bind⟩

theorem put (wrap : StoreError → Failure) (r : Row) :
    Succeeds (Action.onStore wrap (Store.put r)) := by
  intro ctx hn
  obtain ⟨faults, hf, ⟨e, hne, -⟩ | ho⟩ := Action.put_run wrap r ctx
  · exact absurd hn hne
  · exact ⟨_, _, ho, hf hn⟩

theorem delete (wrap : StoreError → Failure) (k : Key) :
    Succeeds (Action.onStore wrap (Store.delete k)) := by
  intro ctx hn
  obtain ⟨faults, hf, ⟨e, hne, -⟩ | ho⟩ := Store.delete_run k ctx.store
  · exact absurd hn hne
  · refine ⟨(), { ctx with store := ({ ctx.store with faults } : Store).afterDelete k }, ?_, hf hn⟩
    rw [Action.onStore, ho]

end Succeeds
end EntityGraph
