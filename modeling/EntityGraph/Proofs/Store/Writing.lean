import EntityGraph.Proofs.Store.Reading

/-!
# Operations that write

A put stores a row under its key and a delete removes the row under one, unless a fault is due; a
call that fails leaves all but the faults as they were.

* `Store.put_run`, `Store.delete_run`: what a put and a delete do to a store;
* `Action.onStore_ok`, `Action.put_run`: calls on the store of an operation;
* `Action.counted_of_ok`, `Action.counted_of_error`: counted calls;
* `Sequential`, `Compositional`: properties of operations that sequences of them have too, and with
  these folds and maps.
-/

namespace EntityGraph

/-- Tables with the same rows under every key list the same rows. -/
theorem RowTable.rows_eq_of_row? {t t' : RowTable} (h : ∀ k, t.row? k = t'.row? k) :
    t.rows = t'.rows := by
  have hkeys : t.byKey = t'.byKey := SortedMap.ext_get? fun k => by
    have hk := h k
    unfold row? at hk
    cases ht : t.byKey.get? k <;> cases ht' : t'.byKey.get? k <;> simp_all
  rw [rows, rows, hkeys]

namespace Store

theorem keyFor_of_isComplete {s : Store} {r : Row} (h : r.key.isComplete) : s.keyFor r = r.key :=
  if_pos h

theorem keyFor_of_not_isComplete {s : Store} {r : Row} (h : ¬r.key.isComplete) :
    s.keyFor r = r.key.assign s.nextNumber :=
  if_neg h

/-- A put takes a number only for a key that is still open. -/
theorem lastNumber_afterPut (s : Store) (r : Row) :
    (s.afterPut r).lastNumber = if r.key.isComplete then s.lastNumber else s.lastNumber + 1 :=
  rfl

theorem kind_keyFor (s : Store) (r : Row) : (s.keyFor r).kind = r.kind := by
  unfold keyFor
  split
  · rfl
  · exact Key.kind_assign ..

theorem put_run (r : Row) (s : Store) : ∃ faults, (s.faults = [] → faults = []) ∧
    ((∃ e, s.faults ≠ [] ∧ put r s = .error e { s with faults }) ∨
      put r s = .ok (s.keyFor r) (({ s with faults } : Store).afterPut r)) := by
  obtain ⟨faults, hf, ⟨e, hne, he⟩ | ho⟩ := failIfDue_run .put s
  · exact ⟨faults, hf, .inl ⟨e, hne, bind_of_error he⟩⟩
  · exact ⟨faults, hf, .inr (bind_of_ok ho)⟩

theorem delete_run (k : Key) (s : Store) : ∃ faults, (s.faults = [] → faults = []) ∧
    ((∃ e, s.faults ≠ [] ∧ delete k s = .error e { s with faults }) ∨
      delete k s = .ok () (({ s with faults } : Store).afterDelete k)) := by
  obtain ⟨faults, hf, ⟨e, hne, he⟩ | ho⟩ := failIfDue_run .delete s
  · exact ⟨faults, hf, .inl ⟨e, hne, bind_of_error he⟩⟩
  · exact ⟨faults, hf, .inr (bind_of_ok ho)⟩

theorem put_eq_ok {r : Row} {s s' : Store} {k : Key} (h : put r s = .ok k s') :
    k = s.keyFor r ∧ s'.table = s.table.put (s.keyFor r) (s.isComplete_keyFor r) r.properties := by
  obtain ⟨faults, -, ⟨e, -, he⟩ | ho⟩ := put_run r s
  · rw [he] at h
    cases h
  · rw [ho] at h
    cases h
    exact ⟨rfl, rfl⟩

theorem delete_eq_ok {k : Key} {s s' : Store} (h : delete k s = .ok () s') :
    s'.table = s.table.erase k := by
  obtain ⟨faults, -, ⟨e, -, he⟩ | ho⟩ := delete_run k s
  · rw [he] at h
    cases h
  · rw [ho] at h
    cases h
    rfl

theorem log_of_put {r : Row} {s s' : Store} {k : Key} (h : put r s = .ok k s') :
    s'.log = s.log ++ [.put k] := by
  obtain ⟨faults, -, ⟨e, -, he⟩ | ho⟩ := put_run r s
  · rw [he] at h
    cases h
  · rw [ho] at h
    cases h
    rfl

theorem log_of_delete {k : Key} {s s' : Store} (h : delete k s = .ok () s') :
    s'.log = s.log ++ [.delete k] := by
  obtain ⟨faults, -, ⟨e, -, he⟩ | ho⟩ := delete_run k s
  · rw [he] at h
    cases h
  · rw [ho] at h
    cases h
    rfl

end Store

theorem Action.onStore_ok {α : Type} {wrap : StoreError → Failure} {call : StoreM α}
    {ctx ctx' : Context} {a : α} (h : Action.onStore wrap call ctx = .ok a ctx') :
    call ctx.store = .ok a ctx'.store ∧ ctx' = { ctx with store := ctx'.store } := by
  unfold Action.onStore at h
  split at h
  · rename_i hc
    cases h
    exact ⟨hc, rfl⟩
  · cases h

theorem Action.onStore_error {α : Type} {wrap : StoreError → Failure} {call : StoreM α}
    {ctx ctx' : Context} {e : Failure} (h : Action.onStore wrap call ctx = .error e ctx') :
    ∃ cause, e = wrap cause ∧ call ctx.store = .error cause ctx'.store := by
  unfold Action.onStore at h
  split at h
  · cases h
  · rename_i hc
    cases h
    exact ⟨_, rfl, hc⟩

theorem Action.put_run (wrap : StoreError → Failure) (r : Row) (ctx : Context) : ∃ faults,
    (ctx.store.faults = [] → faults = []) ∧
      ((∃ e, ctx.store.faults ≠ [] ∧ Action.onStore wrap (Store.put r) ctx =
          .error (wrap e) { ctx with store := { ctx.store with faults } }) ∨
        Action.onStore wrap (Store.put r) ctx = .ok (ctx.store.keyFor r)
          { ctx with store := ({ ctx.store with faults } : Store).afterPut r }) := by
  obtain ⟨faults, hf, ⟨e, hne, he⟩ | ho⟩ := Store.put_run r ctx.store
  · exact ⟨faults, hf, .inl ⟨e, hne, by simp only [Action.onStore, he]⟩⟩
  · exact ⟨faults, hf, .inr (by simp only [Action.onStore, ho])⟩

namespace Action

variable {α : Type} {call : CallKind} {kind : String} {body : Action α} {ctx ctx' : Context}

theorem counted_of_ok {a : α}
    (h : body { ctx.emit (.started call kind) with touched := 0 } = .ok a ctx') :
    counted call kind body ctx = .ok a (ctx'.emit (.finished call kind ctx'.touched)) := by
  simp only [counted, h]

theorem counted_of_error {e : Failure}
    (h : body { ctx.emit (.started call kind) with touched := 0 } = .error e ctx') :
    counted call kind body ctx = .error e (ctx'.emit (.finished call kind ctx'.touched)) := by
  simp only [counted, h]

end Action

/-! ## Properties of sequences -/

/-- A property of operations that holds of answers, and of sequences of operations that have it. -/
structure Sequential (P : ∀ {α : Type}, Action α → Prop) : Prop where
  pure : ∀ {α : Type} (a : α), P (pure a : Action α)
  bind : ∀ {α β : Type} {x : Action α} {f : α → Action β}, P x → (∀ a, P (f a)) → P (x >>= f)

/-- Such a property that also holds of failures other than the store's. -/
structure Compositional (P : ∀ {α : Type}, Action α → Prop) : Prop extends Sequential P where
  ofExcept : ∀ {α : Type} {r : Except Failure α},
    (∀ e, r = .error e → e.report.category ≠ .execution) → P (MonadExcept.ofExcept r : Action α)

namespace Sequential

variable {P : ∀ {α : Type}, Action α → Prop} (hP : Sequential P) {α β : Type}
include hP

theorem foldlM {f : β → α → Action β} (hf : ∀ b a, P (f b a)) :
    ∀ (as : List α) (b : β), P (as.foldlM f b)
  | [], b => hP.pure b
  | a :: as, b => by
    rw [List.foldlM_cons]
    exact hP.bind (hf b a) fun b => foldlM hf as b

theorem forM {f : α → Action Unit} (hf : ∀ a, P (f a)) : ∀ as : List α, P (as.forM f)
  | [] => hP.pure ()
  | a :: as => hP.bind (hf a) fun _ => forM hf as

theorem mapM {f : α → Action β} (hf : ∀ a, P (f a)) : ∀ as : List α, P (as.mapM f)
  | [] => hP.pure []
  | a :: as => by
    rw [List.mapM_cons]
    exact hP.bind (hf a) fun b => hP.bind (mapM hf as) fun bs => hP.pure (b :: bs)

end Sequential
end EntityGraph
