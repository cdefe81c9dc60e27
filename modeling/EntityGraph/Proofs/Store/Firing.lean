import Mathlib.Data.Multiset.AddSub
import EntityGraph.Failure.Public
import EntityGraph.Proofs.Store.Schedule

/-!
# Faults that fire

A fault fires when a call of the store fails for it, and is then gone.

* `Fault.fired`: the faults that have fired between two states of the store, which are those that
  are no longer pending;
* `Store.ServesScans`: every scan that is sent takes its item of the schedule of scans, so that the
  schedule tells whether all of them were answered or failed for a fault. A scan that the store
  refuses shows (`Store.not_servesScans_of_refused`);
* `Accounts`: an operation goes on only if no fault fires, and ends with the first that does. What
  it fails with then tells of the error of that fault, and otherwise is its own. No scan of it is
  refused. Sequences of such operations are such operations (`Accounts.bind`,
  `Accounts.compositional`);
* `Store.accounts_get`, `Store.accounts_put`, `Store.accounts_delete`, `Store.accounts_scan`,
  `Store.accounts_fetch`: the calls of the store, of which a scan must not be refused.
-/

namespace EntityGraph

namespace Fault

/-- The faults that are still to fire, by their calls and their errors. -/
def pending (faults : List Fault) : Multiset (StoreCall × StoreError) :=
  faults.map fun f => (f.call, f.error)

theorem pending_cons (f : Fault) (fs : List Fault) :
    pending (f :: fs) = (f.call, f.error) ::ₘ pending fs := rfl

/-- A call fires the fault that it fails for, and none if it goes on. -/
theorem pending_due (call : StoreCall) (faults : List Fault) :
    (∃ e rest, due call faults = (some e, rest) ∧ pending faults = (call, e) ::ₘ pending rest) ∨
      ∃ rest, due call faults = (none, rest) ∧ pending faults = pending rest := by
  -- The first fault of the call decides, also where it only counts down: that leaves it pending.
  induction faults with
  | nil => exact .inr ⟨[], rfl, rfl⟩
  | cons f fs ih =>
    unfold due
    by_cases hc : f.call = call
    · rw [if_pos hc]
      by_cases hs : f.skip = 0
      · rw [if_pos hs]
        exact .inl ⟨f.error, fs, rfl, by rw [pending_cons, hc]⟩
      · rw [if_neg hs]
        exact .inr ⟨_, rfl, rfl⟩
    · rw [if_neg hc]
      obtain ⟨e, rest, hd, hp⟩ | ⟨rest, hd, hp⟩ := ih
      · rw [hd]
        refine .inl ⟨e, f :: rest, rfl, ?_⟩
        rw [pending_cons, pending_cons, hp, Multiset.cons_swap]
      · rw [hd]
        exact .inr ⟨f :: rest, rfl, by rw [pending_cons, pending_cons, hp]⟩

theorem schedule_due_of_ne {call call' : StoreCall} (h : call' ≠ call) (faults : List Fault) :
    schedule call (due call' faults).2 = schedule call faults :=
  schedule_congr (waiting_due_of_ne h faults)

end Fault

/-! ## Between two states of the store -/

/-- All scans that the store was sent between two states were answered or failed for a fault, as
`failed` of them did: together they have taken the items of the schedule that are gone. A schedule
may be of any length, so that no scan is out of its sight. -/
structure Store.ServesScans (s s' : Store) (failed : Nat) : Prop where
  answered : s.stats.scans ≤ s'.stats.scans
  taken : Fault.schedule .scan s'.faults =
    (Fault.schedule .scan s.faults).drop (s'.stats.scans - s.stats.scans + failed)

/-- The fault with the given error has fired between two states of the store, and no other; without
an error none has. No scan was refused. -/
def Store.Fired (s s' : Store) : Option StoreError → Prop
  | none => Fault.pending s.faults = Fault.pending s'.faults ∧ s.ServesScans s' 0
  | some cause => ∃ call, Fault.pending s.faults = (call, cause) ::ₘ Fault.pending s'.faults ∧
      s.ServesScans s' (if call = .scan then 1 else 0)

/-- Nothing was sent to the store that shows in its faults or in its count of scans. -/
structure Store.Unasked (s s' : Store) : Prop where
  faults : s'.faults = s.faults
  scans : s'.stats.scans = s.stats.scans

namespace Store.ServesScans

theorem of_unasked {s s' : Store} (h : s.Unasked s') : s.ServesScans s' 0 where
  answered := h.scans.ge
  taken := by rw [h.faults, h.scans, Nat.sub_self, List.drop_zero]

theorem trans {s₁ s₂ s₃ : Store} {n : Nat} (h : s₁.ServesScans s₂ 0) (h' : s₂.ServesScans s₃ n) :
    s₁.ServesScans s₃ n where
  answered := h.answered.trans h'.answered
  taken := by
    have hfirst := h.answered
    have hnext := h'.answered
    rw [h'.taken, h.taken, List.drop_drop]
    congr 1
    omega

end Store.ServesScans

namespace Store.Fired

theorem of_unasked {s s' : Store} (h : s.Unasked s') : s.Fired s' none :=
  ⟨by rw [h.faults], .of_unasked h⟩

theorem refl (s : Store) : s.Fired s none := of_unasked ⟨rfl, rfl⟩

theorem trans {s₁ s₂ s₃ : Store} {e : Option StoreError} (h : s₁.Fired s₂ none)
    (h' : s₂.Fired s₃ e) : s₁.Fired s₃ e := by
  obtain ⟨hp, hs⟩ := h
  cases e with
  | none => exact ⟨hp.trans h'.1, hs.trans h'.2⟩
  | some cause =>
    obtain ⟨call, hp', hs'⟩ := h'
    exact ⟨call, hp.trans hp', hs.trans hs'⟩

theorem trans_unasked {s₁ s₂ s₃ : Store} {e : Option StoreError} (h : s₁.Fired s₂ e)
    (h' : s₂.Unasked s₃) : s₁.Fired s₃ e := by
  cases e with
  | none => exact h.trans (of_unasked h')
  | some cause =>
    obtain ⟨call, hp, hs⟩ := h
    refine ⟨call, by rw [h'.faults, hp], h'.scans ▸ hs.answered, ?_⟩
    rw [h'.faults, h'.scans, hs.taken]

theorem faults_ne_nil {s s' : Store} {cause : StoreError} (h : s.Fired s' (some cause)) :
    s.faults ≠ [] := by
  obtain ⟨call, hp, -⟩ := h
  intro hn
  rw [hn] at hp
  exact Multiset.zero_ne_cons hp

end Store.Fired

/-! ## Operations -/

/-- How the failures of an operation are read: which are its own, and which tell of an error of the
store. -/
structure Telling (ε : Type) where
  own : ε → Prop
  tells : StoreError → ε → Prop

/-- The calls of the store have no failures of their own. -/
def StoreError.telling : Telling StoreError := ⟨fun _ => False, Eq⟩

variable {ε σ α β : Type}

/-- An operation on a state that contains a store goes on only if no fault fires. It fails in a way
of its own, or for the one fault that fires, of whose error it tells. No scan of it is refused. -/
structure Accounts (store : σ → Store) (T : Telling ε) (x : EStateM ε σ α) (s : σ) : Prop where
  of_ok : ∀ {a s'}, x s = .ok a s' → (store s).Fired (store s') none
  of_error : ∀ {e s'}, x s = .error e s' →
    (T.own e ∧ (store s).Fired (store s') none) ∨
      ∃ cause, T.tells cause e ∧ (store s).Fired (store s') (some cause)

namespace Accounts

variable {store : σ → Store} {T : Telling ε}

theorem exists_fired {x : EStateM ε σ α} {s : σ} (h : Accounts store T x s) :
    ∃ e, (store s).Fired (store (finalState (x s))) e := by
  cases hx : x s with
  | ok a s' => exact ⟨none, h.of_ok hx⟩
  | error e s' =>
    obtain ⟨-, hf⟩ | ⟨cause, -, hf⟩ := h.of_error hx
    · exact ⟨none, hf⟩
    · exact ⟨some cause, hf⟩

theorem of_eq_ok {x : EStateM ε σ α} {s s' : σ} {a : α} (h : x s = .ok a s')
    (hf : (store s).Fired (store s') none) : Accounts store T x s where
  of_ok h' := by
    cases h.symm.trans h'
    exact hf
  of_error h' := by cases h.symm.trans h'

theorem of_own {x : EStateM ε σ α} {s s' : σ} {e : ε} (h : x s = .error e s') (ho : T.own e)
    (hf : (store s).Fired (store s') none) : Accounts store T x s where
  of_ok h' := by cases h.symm.trans h'
  of_error h' := by
    cases h.symm.trans h'
    exact .inl ⟨ho, hf⟩

theorem of_tells {x : EStateM ε σ α} {s s' : σ} {e : ε} {cause : StoreError}
    (h : x s = .error e s') (ht : T.tells cause e) (hf : (store s).Fired (store s') (some cause)) :
    Accounts store T x s where
  of_ok h' := by cases h.symm.trans h'
  of_error h' := by
    cases h.symm.trans h'
    exact .inr ⟨cause, ht, hf⟩

theorem mono {T' : Telling ε} {x : EStateM ε σ α} {s : σ} (h : Accounts store T x s)
    (hown : ∀ e, T.own e → T'.own e) (htells : ∀ cause e, T.tells cause e → T'.tells cause e) :
    Accounts store T' x s where
  of_ok := h.of_ok
  of_error hx := (h.of_error hx).imp (fun ⟨ho, hf⟩ => ⟨hown _ ho, hf⟩)
    fun ⟨cause, ht, hf⟩ => ⟨cause, htells _ _ ht, hf⟩

theorem bind {x : EStateM ε σ α} {f : α → EStateM ε σ β} {s : σ} (hx : Accounts store T x s)
    (hf : ∀ a s', x s = .ok a s' → Accounts store T (f a) s') : Accounts store T (x >>= f) s where
  of_ok h := by
    obtain ⟨a, s', h₁, h₂⟩ := bind_run_ok.1 h
    exact (hx.of_ok h₁).trans ((hf a s' h₁).of_ok h₂)
  of_error h := by
    obtain h₁ | ⟨a, s', h₁, h₂⟩ := bind_run_error.1 h
    · exact hx.of_error h₁
    · have hnone := hx.of_ok h₁
      exact ((hf a s' h₁).of_error h₂).imp (fun ⟨ho, hn⟩ => ⟨ho, hnone.trans hn⟩)
        fun ⟨cause, ht, hs⟩ => ⟨cause, ht, hnone.trans hs⟩

theorem pure (a : α) (s : σ) : Accounts store T (Pure.pure a) s := .of_eq_ok rfl (.refl _)

theorem throw {e : ε} (h : T.own e) (s : σ) :
    Accounts store T (MonadExcept.throw e : EStateM ε σ α) s :=
  .of_own rfl h (.refl _)

theorem ofExcept {r : Except ε α} (h : ∀ e, r = .error e → T.own e) (s : σ) :
    Accounts store T (MonadExcept.ofExcept r) s := by
  cases r with
  | ok a => exact pure a s
  | error e => exact throw (h e rfl) s

/-- A change of the state that touches no fault and counts no scan. -/
theorem modifyGet {f : σ → α × σ} (h : ∀ s, (store s).Unasked (store (f s).2)) (s : σ) :
    Accounts store T (MonadState.modifyGet f : EStateM ε σ α) s :=
  .of_eq_ok rfl (.of_unasked (h s))

theorem modify {f : σ → σ} (h : ∀ s, (store s).Unasked (store (f s))) (s : σ) :
    Accounts store T (modify f : EStateM ε σ Unit) s :=
  modifyGet (f := fun s => ((), f s)) h s

theorem get (s : σ) : Accounts store T (MonadState.get : EStateM ε σ σ) s :=
  .of_eq_ok rfl (.refl _)

end Accounts

/-! ## Calls of the store -/

namespace Store

/-- A call that is not a scan leaves the schedule of scans. -/
theorem servesScans_due {call : StoreCall} (hc : call ≠ .scan) (s : Store) :
    s.ServesScans { s with faults := (Fault.due call s.faults).2 } 0 where
  answered := Nat.le_refl _
  taken := by rw [Fault.schedule_due_of_ne hc, Nat.sub_self, List.drop_zero]

theorem accounts_failIfDue (call : StoreCall) (hc : call ≠ .scan) (s : Store) :
    Accounts id StoreError.telling (failIfDue call) s := by
  have hscans := servesScans_due hc s
  obtain ⟨e, rest, hd, hp⟩ | ⟨rest, hd, hp⟩ := Fault.pending_due call s.faults
  · have hfail : failIfDue call s = .error e { s with faults := rest } := by rw [failIfDue, hd]
    rw [hd] at hscans
    exact .of_tells hfail rfl ⟨call, hp, by rw [if_neg hc]; exact hscans⟩
  · have hpass : failIfDue call s = .ok () { s with faults := rest } := by rw [failIfDue, hd]
    rw [hd] at hscans
    exact .of_eq_ok hpass ⟨hp, hscans⟩

/-- A scan is answered unless a fault is due on it. -/
theorem accounts_scan {q : Scan} (hq : q.check = .ok ()) (s : Store) :
    Accounts id StoreError.telling (scan q) s := by
  have htaken := (Fault.schedule_due .scan s.faults).2
  rw [← List.drop_one] at htaken
  obtain ⟨e, rest, hd, hp⟩ | ⟨rest, hd, hp⟩ := Fault.pending_due .scan s.faults
  · have hfail : scan q s = .error e { s with faults := rest } :=
      bind_of_error (by rw [failIfDue, hd])
    rw [hd] at htaken
    exact .of_tells hfail rfl ⟨.scan, hp, Nat.le_refl _, by simpa using htaken⟩
  · let passed : Store := { s with faults := rest }
    have hdue : failIfDue .scan s = .ok () passed := by rw [failIfDue, hd]
    have hpass : scan q s = .ok ⟨q.answer passed.rows⟩ (passed.afterScan q.kind) := by
      rw [scan, bind_of_ok hdue, hq]
      rfl
    rw [hd] at htaken
    exact .of_eq_ok hpass ⟨hp, Nat.le_succ _, by simpa [passed, afterScan] using htaken⟩

theorem accounts_fetch (limit : Nat) (snapshot : Snapshot) (s : Store) :
    Accounts id StoreError.telling (fetch limit snapshot) s :=
  (accounts_failIfDue .fetch (by decide) s).bind fun _ s' _ =>
    (Accounts.modify (f := (·.afterFetch (snapshot.rows.take limit).length))
      (fun _ => ⟨rfl, rfl⟩) s').bind fun _ s'' _ => .pure _ s''

/-- A scan that the store refuses is neither answered nor failed for a fault. -/
theorem not_servesScans_of_refused {q : Scan} {e : StoreError} (hq : q.check = .error e) {s : Store}
    (hdue : (Fault.due .scan s.faults).1 = none) (hitems : Fault.schedule .scan s.faults ≠ []) :
    ¬s.ServesScans (finalState (scan q s)) 0 := by
  intro h
  have hrun : scan q s = .error e { s with faults := (Fault.due .scan s.faults).2 } := by
    rw [scan, bind_of_ok (failIfDue_of_not_due hdue), hq]
    rfl
  have htaken := congrArg List.length h.taken
  rw [hrun, finalState, (Fault.schedule_due .scan s.faults).2, List.length_tail, Nat.sub_self,
    List.drop_zero] at htaken
  have hlength := List.length_pos_of_ne_nil hitems
  omega

end Store

/-- Draining a snapshot ends with the fault that fires, if one does. -/
theorem BatchSource.fired_drainUpTo (limit : Nat) : ∀ (fuel : Nat) {snapshot : Snapshot}
    {s s' : Store} {rows : List Row} {e : Option StoreError},
    drainUpTo limit fuel snapshot s = ((rows, e), s') → s.Fired s' e
  | 0, _, _, _, _, _, h => by
    cases h
    exact .refl _
  | fuel + 1, snapshot, s, s', rows, e, h => by
    have hfetch := Store.accounts_fetch limit snapshot s
    unfold drainUpTo at h
    split at h
    · rename_i e' s₁ h₁
      cases h
      obtain ⟨ho, -⟩ | ⟨cause, rfl, hf⟩ := hfetch.of_error h₁
      · exact ho.elim
      · exact hf
    · rename_i rest s₁ h₁
      cases h
      exact hfetch.of_ok h₁
    · rename_i batch rest s₁ _ h₁
      have hnone : s.Fired s₁ none := hfetch.of_ok h₁
      cases hd : drainUpTo limit fuel rest s₁ with
      | mk r s₂ =>
        obtain ⟨more, e₂⟩ := r
        rw [hd] at h
        cases h
        exact hnone.trans (fired_drainUpTo limit fuel hd)

/-! ## Calls within operations -/

/-- Whether a failure tells of the store shows in its category, and of which error in what it
wraps. -/
def Failure.telling : Telling Failure where
  own e := e.report.category ≠ .execution
  tells cause e := e.report.category = .execution ∧ e.report.storeCause? = some cause

/-- A failure that is reported as the store's tells of its error. -/
theorem Failure.tells_of_report {f : Failure} {origin : Failure.Origin} {context : String}
    {cause : StoreError} (h : f.report = storeReport origin context cause) :
    Failure.telling.tells cause f :=
  ⟨by rw [h]; rfl, by rw [h]; rfl⟩

theorem Accounts.compositional :
    Compositional fun x => ∀ ctx, Accounts Context.store Failure.telling x ctx where
  pure a ctx := .pure a ctx
  bind hx hf ctx := (hx ctx).bind fun a ctx' _ => hf a ctx'
  ofExcept h ctx := .ofExcept h ctx

/-- A call within an operation, whose failures tell of the error that they wrap. -/
theorem Accounts.onStore {T : Telling Failure} {wrap : StoreError → Failure}
    (hwrap : ∀ e, T.tells e (wrap e)) {call : StoreM α} {ctx : Context}
    (h : Accounts id StoreError.telling call ctx.store) :
    Accounts Context.store T (Action.onStore wrap call) ctx where
  of_ok hx := h.of_ok (Action.onStore_ok hx).1
  of_error hx := by
    unfold Action.onStore at hx
    split at hx
    · cases hx
    · rename_i e s' hc
      cases hx
      obtain ⟨ho, -⟩ | ⟨cause, rfl, hf⟩ := h.of_error hc
      · exact ho.elim
      · exact .inr ⟨cause, hwrap cause, hf⟩

theorem Accounts.emit {T : Telling Failure} (e : Event) (ctx : Context) :
    Accounts Context.store T (Action.emit e) ctx :=
  .modify (f := fun ctx : Context => ctx.emit e) (fun _ => ⟨rfl, rfl⟩) ctx

theorem Accounts.touch {T : Telling Failure} (rows : Nat) (ctx : Context) :
    Accounts Context.store T (Action.touch rows) ctx :=
  .modify (f := fun ctx : Context => { ctx with touched := ctx.touched + rows })
    (fun _ => ⟨rfl, rfl⟩) ctx

theorem Accounts.onRegistry {T : Telling Failure} (f : KeyRegistry → KeyRegistry) (ctx : Context) :
    Accounts Context.store T (Action.onRegistry f) ctx :=
  .modify (f := fun ctx : Context =>
    { ctx with scope := { ctx.scope with registry := f ctx.scope.registry } })
    (fun _ => ⟨rfl, rfl⟩) ctx

/-- An operation between changes of the context that touch no fault and count no scan. -/
theorem Accounts.between {T : Telling Failure} {x : Action α}
    (before after failed : Context → Context) {ctx : Context}
    (hx : Accounts Context.store T x (before ctx))
    (hb : ∀ ctx : Context, ctx.store.Unasked (before ctx).store)
    (ha : ∀ ctx : Context, ctx.store.Unasked (after ctx).store)
    (hf : ∀ ctx : Context, ctx.store.Unasked (failed ctx).store) :
    Accounts Context.store T (fun ctx => match x (before ctx) with
      | .ok a ctx => .ok a (after ctx)
      | .error e ctx => .error e (failed ctx)) ctx where
  of_ok h := by
    split at h
    · rename_i ctx₁ h₁
      cases h
      exact (Store.Fired.of_unasked (hb ctx)).trans ((hx.of_ok h₁).trans_unasked (ha ctx₁))
    · cases h
  of_error h := by
    split at h
    · cases h
    · rename_i ctx₁ h₁
      cases h
      have hend : ∀ {c}, (before ctx).store.Fired ctx₁.store c →
          ctx.store.Fired (failed ctx₁).store c := fun h =>
        (Store.Fired.of_unasked (hb ctx)).trans (h.trans_unasked (hf ctx₁))
      exact (hx.of_error h₁).imp (fun ⟨ho, hn⟩ => ⟨ho, hend hn⟩)
        fun ⟨cause, ht, hs⟩ => ⟨cause, ht, hend hs⟩

theorem Accounts.counted {T : Telling Failure} {x : Action α}
    (hx : ∀ ctx, Accounts Context.store T x ctx) (call : CallKind) (kind : String) (ctx : Context) :
    Accounts Context.store T (Action.counted call kind x) ctx := by
  let started (ctx : Context) : Context := { ctx.emit (.started call kind) with touched := 0 }
  let finished (ctx : Context) : Context := ctx.emit (.finished call kind ctx.touched)
  exact (hx (started ctx)).between started finished finished (fun _ => ⟨rfl, rfl⟩)
    (fun _ => ⟨rfl, rfl⟩) fun _ => ⟨rfl, rfl⟩

end EntityGraph
