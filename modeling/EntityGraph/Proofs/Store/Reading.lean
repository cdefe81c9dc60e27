import EntityGraph.Proofs.Sequencing
import EntityGraph.Scope

/-!
# Operations that only read

Look-ups, scans and fetches leave the rows of the store as they are. What they answer is a function
of the table, unless a fault ends them:

* `Store.OnlyRead`: what such calls may do to a store;
* `Reads`: an operation only reads, and answers what a function makes of the table. Sequences and
  folds of such operations are such operations (`ReadsAs.bind`, `Reads.foldlM`);
* `Store.reads_get`, `Store.reads_scan`, `Store.reads_fetch`: the calls of the store that read;
* `BatchSource.drain_snapshot`: a snapshot hands out its rows, whatever the size of the batches.
-/

namespace EntityGraph

variable {ε σ α β γ : Type}

/-- `s'` is `s` after calls that write nothing. -/
structure Store.OnlyRead (s s' : Store) : Prop where
  table : s'.table = s.table
  lastNumber : s'.lastNumber = s.lastNumber
  log : ∃ kinds : List String, s'.log = s.log ++ kinds.map .scan
  /-- A store without faults gets none. -/
  faults : s.faults = [] → s'.faults = []

namespace Store.OnlyRead

theorem refl (s : Store) : s.OnlyRead s := ⟨rfl, rfl, ⟨[], by simp⟩, id⟩

theorem trans {s₁ s₂ s₃ : Store} (h : s₁.OnlyRead s₂) (h' : s₂.OnlyRead s₃) : s₁.OnlyRead s₃ := by
  obtain ⟨kinds, hk⟩ := h.log
  obtain ⟨kinds', hk'⟩ := h'.log
  refine ⟨h'.table.trans h.table, h'.lastNumber.trans h.lastNumber, ⟨kinds ++ kinds', ?_⟩,
    fun hf => h'.faults (h.faults hf)⟩
  rw [hk', hk, List.map_append, List.append_assoc]

end Store.OnlyRead

/-- An operation on a state that contains a store only reads, and its answer stands in `R` to what
`y` makes of the table of the store. It may also fail for a fault. -/
structure ReadsAs (store : σ → Store) (R : σ → α → β → Prop) (x : EStateM ε σ α)
    (y : RowTable → Except ε β) : Prop where
  of_ok : ∀ {s a s'}, x s = .ok a s' →
    (store s).OnlyRead (store s') ∧ ∃ b, R s' a b ∧ y (store s).table = .ok b
  of_error : ∀ {s e s'}, x s = .error e s' →
    (store s).OnlyRead (store s') ∧ ((store s).faults = [] → y (store s).table = .error e)

/-- An operation only reads, and answers what `y` makes of the table. -/
abbrev Reads (store : σ → Store) (x : EStateM ε σ α) (y : RowTable → Except ε α) : Prop :=
  ReadsAs store (fun _ a b => a = b) x y

/-- A sequence of operations of which the first reads. -/
theorem ReadsAs.bind {store : σ → Store} {R : σ → β → γ → Prop} {x : EStateM ε σ α}
    {y : RowTable → Except ε α} {f : α → EStateM ε σ β} {g : α → RowTable → Except ε γ}
    (hx : Reads store x y) (hf : ∀ a, ReadsAs store R (f a) (g a)) :
    ReadsAs store R (x >>= f) fun t => y t >>= fun a => g a t where
  of_ok h := by
    obtain ⟨a, s₁, h₁, h₂⟩ := bind_run_ok.1 h
    obtain ⟨hr₁, _, rfl, ha⟩ := hx.of_ok h₁
    obtain ⟨hr₂, b, hR, hb⟩ := (hf a).of_ok h₂
    refine ⟨hr₁.trans hr₂, b, hR, ?_⟩
    rw [ha, ok_bind, ← hr₁.table, hb]
  of_error h := by
    rcases bind_run_error.1 h with h₁ | ⟨a, s₁, h₁, h₂⟩
    · obtain ⟨hr, he⟩ := hx.of_error h₁
      exact ⟨hr, fun hn => by rw [he hn, error_bind]⟩
    · obtain ⟨hr₁, _, rfl, ha⟩ := hx.of_ok h₁
      obtain ⟨hr₂, he⟩ := (hf a).of_error h₂
      refine ⟨hr₁.trans hr₂, fun hn => ?_⟩
      rw [ha, ok_bind, ← hr₁.table, he (hr₁.faults hn)]

/-- A sequence of operations of which the first has a known answer. -/
theorem ReadsAs.bind_ok {store : σ → Store} {R : σ → β → γ → Prop} {x : EStateM ε σ α}
    {f : α → EStateM ε σ β} {z : RowTable → Except ε γ} {a : α} (hx : Reads store x fun _ => .ok a)
    (hf : ReadsAs store R (f a) z) : ReadsAs store R (x >>= f) z where
  of_ok h := by
    obtain ⟨a', s₁, h₁, h₂⟩ := bind_run_ok.1 h
    obtain ⟨hr₁, _, rfl, ha⟩ := hx.of_ok h₁
    cases ha
    obtain ⟨hr₂, hb⟩ := hf.of_ok h₂
    exact ⟨hr₁.trans hr₂, hr₁.table ▸ hb⟩
  of_error h := by
    rcases bind_run_error.1 h with h₁ | ⟨a', s₁, h₁, h₂⟩
    · obtain ⟨hr, he⟩ := hx.of_error h₁
      exact ⟨hr, fun hn => by cases he hn⟩
    · obtain ⟨hr₁, _, rfl, ha⟩ := hx.of_ok h₁
      cases ha
      obtain ⟨hr₂, he⟩ := hf.of_error h₂
      exact ⟨hr₁.trans hr₂, fun hn => hr₁.table ▸ he (hr₁.faults hn)⟩

namespace Reads

variable {store : σ → Store}

theorem eq_ok {x : EStateM ε σ α} {y : RowTable → Except ε α} (h : Reads store x y) {s s' : σ}
    {a : α} (hx : x s = .ok a s') : y (store s).table = .ok a := by
  obtain ⟨-, _, rfl, ha⟩ := h.of_ok hx
  exact ha

/-- Without faults the answer is a function of the table. -/
theorem outcome_eq {x : EStateM ε σ α} {y : RowTable → Except ε α} (h : Reads store x y) {s : σ}
    (hf : (store s).faults = []) : outcome (x s) = y (store s).table := by
  cases hx : x s with
  | ok a s' => exact (eq_ok h hx).symm
  | error e s' => exact ((h.of_error hx).2 hf).symm

theorem pure (a : α) : Reads store (Pure.pure a : EStateM ε σ α) fun _ => .ok a where
  of_ok h := by
    cases h
    exact ⟨.refl _, _, rfl, rfl⟩
  of_error h := by cases h

theorem throw (e : ε) : Reads store (MonadExcept.throw e : EStateM ε σ α) fun _ => .error e where
  of_ok h := by cases h
  of_error h := by
    cases h
    exact ⟨.refl _, fun _ => rfl⟩

theorem ofExcept (x : Except ε α) :
    Reads store (MonadExcept.ofExcept x : EStateM ε σ α) fun _ => x := by
  cases x with
  | ok a => exact pure a
  | error e => exact throw e

/-- A change of the state that reads from the store at most. -/
theorem modify {f : σ → σ} (h : ∀ s, (store s).OnlyRead (store (f s))) :
    Reads store (modify f : EStateM ε σ Unit) fun _ => .ok () where
  of_ok h' := by
    cases h'
    exact ⟨h _, _, rfl, rfl⟩
  of_error h' := by cases h'

theorem foldlM {f : β → α → EStateM ε σ β} {g : β → α → RowTable → Except ε β}
    (hf : ∀ b a, Reads store (f b a) (g b a)) : ∀ (as : List α) (b : β),
      Reads store (as.foldlM f b) fun t => as.foldlM (fun b a => g b a t) b
  | [], b => pure b
  | a :: as, b => by
    simp only [List.foldlM_cons]
    exact (hf b a).bind fun b => foldlM hf as b

theorem forM {f : α → EStateM ε σ Unit} {g : α → RowTable → Except ε Unit}
    (hf : ∀ a, Reads store (f a) (g a)) : ∀ as : List α,
      Reads store (as.forM f) fun t => as.forM fun a => g a t
  | [] => pure ()
  | a :: as => (hf a).bind fun _ => forM hf as

end Reads

/-! ## Calls of the store -/

namespace Store

/-- A store that a fault was looked for in. -/
theorem failIfDue_run (call : StoreCall) (s : Store) : ∃ faults,
    (s.faults = [] → faults = []) ∧
    ((∃ e, s.faults ≠ [] ∧ failIfDue call s = .error e { s with faults }) ∨
      failIfDue call s = .ok () { s with faults }) := by
  unfold failIfDue
  cases h : Fault.due call s.faults with
  | mk e faults =>
    refine ⟨faults, fun hn => ?_, ?_⟩
    · rw [hn] at h
      exact (congrArg Prod.snd h).symm
    · cases e with
      | none => exact .inr rfl
      | some e =>
        refine .inl ⟨e, fun hn => ?_, rfl⟩
        rw [hn] at h
        cases congrArg Prod.fst h

theorem reads_failIfDue (call : StoreCall) : Reads id (failIfDue call) fun _ => .ok () where
  of_ok {s a s'} h := by
    obtain ⟨faults, hn, ⟨e, -, he⟩ | ho⟩ := failIfDue_run call s
    · rw [he] at h
      cases h
    · rw [ho] at h
      cases h
      exact ⟨⟨rfl, rfl, ⟨[], by simp⟩, hn⟩, _, rfl, rfl⟩
  of_error {s a s'} h := by
    obtain ⟨faults, hn, ⟨e, hf, he⟩ | ho⟩ := failIfDue_run call s
    · rw [he] at h
      cases h
      exact ⟨⟨rfl, rfl, ⟨[], by simp⟩, hn⟩, fun hn => absurd hn hf⟩
    · rw [ho] at h
      cases h

/-- A look at the table that changes no more than the counts and the log. -/
theorem reads_modifyGet {f : RowTable → α} {g : Store → Store} (h : ∀ s : Store, s.OnlyRead (g s)) :
    Reads id (modifyGet fun s => (f s.table, g s) : StoreM α) fun t => .ok (f t) where
  of_ok h' := by
    cases h'
    exact ⟨h _, _, rfl, rfl⟩
  of_error h' := by cases h'

theorem onlyRead_afterGet (s : Store) : s.OnlyRead s.afterGet :=
  ⟨rfl, rfl, ⟨[], by simp [afterGet]⟩, id⟩

theorem onlyRead_afterScan (s : Store) (kind : String) : s.OnlyRead (s.afterScan kind) :=
  ⟨rfl, rfl, ⟨[kind], rfl⟩, id⟩

theorem onlyRead_afterFetch (s : Store) (n : Nat) : s.OnlyRead (s.afterFetch n) :=
  ⟨rfl, rfl, ⟨[], by simp [afterFetch]⟩, id⟩

theorem reads_get (k : Key) : Reads id (get k) fun t => .ok (t.row? k) :=
  (reads_failIfDue .get).bind_ok <| reads_modifyGet (f := (·.row? k)) onlyRead_afterGet

theorem reads_scan (q : Scan) :
    Reads id (scan q) fun t => q.check >>= fun _ => .ok ⟨q.answer t.rows⟩ :=
  (reads_failIfDue .scan).bind_ok <| (Reads.ofExcept q.check).bind fun _ =>
    reads_modifyGet (f := fun t => (⟨q.answer t.rows⟩ : Snapshot)) (onlyRead_afterScan · q.kind)

theorem reads_fetch (limit : Nat) (snapshot : Snapshot) : Reads id (fetch limit snapshot)
    fun _ => .ok (snapshot.rows.take limit, ⟨snapshot.rows.drop limit⟩) := by
  have hcount : Reads id (modify (·.afterFetch (snapshot.rows.take limit).length) : StoreM Unit)
      fun _ => .ok () := Reads.modify (onlyRead_afterFetch · _)
  exact (reads_failIfDue .fetch).bind_ok (hcount.bind_ok (Reads.pure _))

/-- Without faults a scan that the store does not refuse is answered. -/
theorem scan_of_check {q : Scan} (hq : q.check = .ok ()) {s : Store} (hf : s.faults = []) :
    ∃ s', s.OnlyRead s' ∧ scan q s = .ok ⟨q.answer s.rows⟩ s' := by
  cases hrun : scan q s with
  | ok snapshot s' =>
    obtain ⟨hr, _, rfl, ha⟩ := (reads_scan q).of_ok hrun
    rw [hq, ok_bind] at ha
    cases ha
    exact ⟨s', hr, rfl⟩
  | error e s' =>
    have he := ((reads_scan q).of_error hrun).2 hf
    rw [hq] at he
    cases he

end Store

/-! ## Batches -/

namespace BatchSource

theorem take_eq_nil_of_pos {n : Nat} (hn : 1 ≤ n) {rows : List Row} (h : rows.take n = []) :
    rows = [] := by
  rcases List.take_eq_nil_iff.1 h with h | h
  · omega
  · exact h

theorem drainUpTo_snapshot {limit : Nat} (hl : 1 ≤ limit) : ∀ (fuel : Nat) {snapshot : Snapshot}
    {s s' : Store} {rows : List Row} {e : Option StoreError}, snapshot.rows.length < fuel →
      drainUpTo limit fuel snapshot s = ((rows, e), s') →
      s.OnlyRead s' ∧ (e = none → rows = snapshot.rows) ∧ (s.faults = [] → e = none)
  | 0, _, _, _, _, _, hn, _ => by omega
  | fuel + 1, snapshot, s, s', rows, e, hn, h => by
    have hfetch := Store.reads_fetch limit snapshot
    unfold drainUpTo at h
    split at h
    · rename_i e' s₁ h₁
      obtain ⟨hr, he⟩ := hfetch.of_error h₁
      cases h
      exact ⟨hr, fun hc => by simp at hc, fun hf => by simpa using he hf⟩
    · rename_i rest s₁ h₁
      obtain ⟨hr, _, rfl, ha⟩ := hfetch.of_ok h₁
      simp only [Except.ok.injEq, Prod.mk.injEq] at ha
      cases h
      exact ⟨hr, fun _ => (take_eq_nil_of_pos hl ha.1).symm, fun _ => rfl⟩
    · rename_i batch rest s₁ hne h₁
      obtain ⟨hr, _, rfl, ha⟩ := hfetch.of_ok h₁
      simp only [Except.ok.injEq, Prod.mk.injEq] at ha
      obtain ⟨rfl, rfl⟩ := ha
      cases hd : drainUpTo limit fuel (⟨snapshot.rows.drop limit⟩ : Snapshot) s₁ with
      | mk r s₂ =>
        obtain ⟨more, e₂⟩ := r
        rw [hd] at h
        cases h
        have hpos : snapshot.rows.length ≠ 0 := fun h0 =>
          hne (by rw [List.length_eq_zero_iff.1 h0, List.take_nil])
        have hlt : (snapshot.rows.drop limit).length < fuel := by
          rw [List.length_drop]
          omega
        obtain ⟨hr₂, hrows, he⟩ := drainUpTo_snapshot hl fuel hlt hd
        refine ⟨hr.trans hr₂, fun hc => ?_, fun hf => he (hr.faults hf)⟩
        rw [hrows hc, List.take_append_drop]

/-- A snapshot hands out its rows, in batches of any size, unless a fault is due. -/
theorem drain_snapshot {limit : Nat} (hl : 1 ≤ limit) {snapshot : Snapshot} {s s' : Store}
    {rows : List Row} {e : Option StoreError}
    (h : drain limit snapshot s = ((rows, e), s')) :
    s.OnlyRead s' ∧ (e = none → rows = snapshot.rows) ∧ (s.faults = [] → e = none) :=
  drainUpTo_snapshot hl _ (Nat.lt_succ_self _) h

theorem drain_of_faults_eq_nil {limit : Nat} (hl : 1 ≤ limit) (snapshot : Snapshot) {s : Store}
    (hf : s.faults = []) : (drain limit snapshot s).1 = (snapshot.rows, none) := by
  cases hd : drain limit snapshot s with
  | mk r s' =>
    obtain ⟨rows, e⟩ := r
    obtain ⟨-, hrows, he⟩ := drain_snapshot hl hd
    rw [he hf, hrows (he hf)]

end BatchSource

namespace Reads

variable {x : StoreM α} {y : RowTable → Except StoreError α}

/-- A call on the store of an operation, whose failure is wrapped. -/
theorem onStore (h : Reads id x y) (wrap : StoreError → Failure) :
    Reads Context.store (Action.onStore wrap x) fun t => (y t).mapError wrap where
  of_ok {ctx a ctx'} h' := by
    unfold Action.onStore at h'
    split at h'
    · rename_i a s' hx
      cases h'
      obtain ⟨hr, _, rfl, ha⟩ := h.of_ok hx
      refine ⟨hr, _, rfl, ?_⟩
      show (y (id ctx.store).table).mapError wrap = _
      rw [ha]
      rfl
    · cases h'
  of_error {ctx e ctx'} h' := by
    unfold Action.onStore at h'
    split at h'
    · cases h'
    · rename_i e s' hx
      cases h'
      obtain ⟨hr, he⟩ := h.of_error hx
      refine ⟨hr, fun hn => ?_⟩
      show (y (id ctx.store).table).mapError wrap = _
      rw [he hn]
      rfl

end Reads

end EntityGraph
