import EntityGraph.ObjectGraph
import EntityGraph.Proofs.Store.Writing

/-!
# The steps of writing an object graph

What the parts of a write do: the keys that are made, the checks that may fail, and the registry and
the store in between.

* `PendingObject.of_adopt_eq_ok`, `PendingObject.adopt_eq_ok`: when an object is taken up by its
  parent, and what becomes of its key;
* `Steady`: an operation goes on from the log that is there, in its scope, and it fails for the
  store only if a fault is due. Sequences of such operations are such operations (`Steady.bind`).
-/

namespace EntityGraph

variable {α β : Type}

/-! ## Keys -/

namespace Key

/-- A key without its id can be made under any parent that was written. -/
theorem pending?_eq_ok {p : Key} (hp : p.isComplete) {kind : String} (h : kind ≠ "") :
    ∃ k, pending? kind (some p) = .ok k ∧ k.kind = kind ∧ k.isComplete = false := by
  have hv : PathElement.Valid ⟨kind, none⟩ := ⟨h, by simp⟩
  have hm : PathElement.make kind none = .ok ⟨⟨kind, none⟩, hv⟩ := by
    simp [PathElement.make, h]
  refine ⟨p.extend hp ⟨kind, none⟩ hv, ?_, ?_, ?_⟩
  · simp only [pending?, extend?, hp, dif_pos, hm, ok_bind, pure_eq_ok]
  · simp [Key.kind]
  · simp [isComplete, Key.id]

theorem of_pending?_eq_ok {kind : String} {parent : Option Key} {k : Key}
    (h : pending? kind parent = .ok k) : k.kind = kind ∧ k.isComplete = false := by
  cases parent with
  | none =>
    obtain ⟨e, he, hk⟩ := bind_eq_ok.1 h
    cases hk
    have hm := PathElement.eq_of_make he
    constructor
    · simp [Key.kind, hm]
    · simp [isComplete, Key.id, hm]
  | some p =>
    simp only [pending?, extend?] at h
    split at h
    · obtain ⟨e, he, hk⟩ := bind_eq_ok.1 h
      cases hk
      have hm := PathElement.eq_of_make he
      constructor
      · simp [Key.kind, hm]
      · simp [isComplete, Key.id, hm]
    · cases h

end Key

/-! ## Failures that are not the store's -/

theorem Schema.lineageFrom_error {schema : Schema} {start : String} {e : Failure} :
    ∀ {fuel : Nat} {visited : List EntityClass} {current : String},
      schema.lineageFrom start fuel visited current = .error e → e.report.category = .configuration
  | 0, _, _, h => by cases h
  | fuel + 1, visited, current, h => by
    unfold lineageFrom at h
    split at h
    · cases h
      rfl
    · split at h
      · cases h
        rfl
      · split at h
        · cases h
        · exact lineageFrom_error h

theorem Schema.field?_error {schema : Schema} {kind field : String} {e : Failure}
    (h : schema.field? kind field = .error e) : e.report.category = .configuration := by
  unfold field? lineage at h
  cases hl : schema.lineageFrom kind (schema.size + 1) [] kind with
  | ok classes =>
    rw [hl] at h
    cases h
  | error e' =>
    rw [hl] at h
    cases h
    exact lineageFrom_error hl

theorem Schema.ownedRelation_error {schema : Schema} {kind field : String} {count : Nat}
    {e : Failure} (h : schema.ownedRelation kind field count = .error e) :
    e.report.category ≠ .execution := by
  unfold ownedRelation at h
  cases hf : schema.field? kind field with
  | error e' =>
    rw [hf, error_bind] at h
    cases h
    simp [field?_error hf]
  | ok f =>
    rw [hf, ok_bind] at h
    cases f with
    | none =>
      cases h
      simp [Failure.report, Failure.modelReport]
    | some f =>
      cases hr : f.relation with
      | none =>
        simp only [hr] at h
        cases h
        simp [Failure.report, Failure.modelReport]
      | some r =>
        simp only [hr] at h
        split at h
        · cases h
          simp [Failure.report, Failure.modelReport]
        · split at h
          · cases h
            simp [Failure.report]
          · cases h

namespace PendingObject

theorem adopt_error {row : Row} {parent : Option Key} {e : Failure}
    (h : adopt row parent = .error e) : e.report.category = .invariantViolation := by
  unfold adopt at h
  split at h
  · cases h
  · split at h
    · split at h
      · cases h
      · cases h
        rfl
    · split at h
      · cases h
      · cases h
        rfl

/-- A complete key is kept, and it was under the parent before; an incomplete one stays so. -/
theorem of_adopt_eq_ok {row row' : Row} {parent : Option Key} (h : adopt row parent = .ok row') :
    row'.kind = row.kind ∧
      (row.key.isComplete → row' = row ∧ ∀ p, parent = some p → row.key.parent = some p) ∧
      (¬row.key.isComplete → ¬row'.key.isComplete) := by
  unfold adopt at h
  split at h
  · cases h
    exact ⟨rfl, fun _ => ⟨rfl, fun p hp => by cases hp⟩, id⟩
  · rename_i p
    split at h
    · rename_i hc
      split at h
      · rename_i hp
        cases h
        refine ⟨rfl, fun _ => ⟨rfl, fun p' hp' => ?_⟩, id⟩
        cases hp'
        exact hp
      · cases h
    · rename_i hc
      split at h
      · rename_i k hk
        cases h
        obtain ⟨hkind, hinc⟩ := Key.of_pending?_eq_ok hk
        refine ⟨hkind, fun hc' => absurd hc' hc, fun _ => ?_⟩
        simp [hinc]
      · cases h

/-- An object is taken up by a parent that was written, if its key is still open or is there. -/
theorem adopt_eq_ok {row : Row} {p : Key} (hp : p.isComplete)
    (h : row.key.isComplete → row.key.parent = some p) : ∃ row', adopt row (some p) = .ok row' := by
  unfold adopt
  by_cases hc : row.key.isComplete
  · exact ⟨row, by simp [hc, h hc]⟩
  · obtain ⟨k, hk, -, -⟩ := Key.pending?_eq_ok hp row.key.kind_ne_empty
    refine ⟨{ row with key := k }, ?_⟩
    simp only [hc, Row.kind, hk]
    rfl

end PendingObject

/-! ## Operations that write -/

/-- `ctx'` is `ctx` after operations of its scope that may write. -/
structure Context.GoesOnAs (ctx ctx' : Context) : Prop where
  scope : ctx'.scope.id = ctx.scope.id
  log : ctx.store.log <+: ctx'.store.log
  /-- A store without faults gets none. -/
  faults : ctx.store.faults = [] → ctx'.store.faults = []

namespace Context.GoesOnAs

theorem refl (ctx : Context) : ctx.GoesOnAs ctx := ⟨rfl, List.prefix_rfl, id⟩

theorem trans {c₁ c₂ c₃ : Context} (h : c₁.GoesOnAs c₂) (h' : c₂.GoesOnAs c₃) : c₁.GoesOnAs c₃ :=
  ⟨h'.scope.trans h.scope, h.log.trans h'.log, fun hf => h'.faults (h.faults hf)⟩

end Context.GoesOnAs

theorem KeyRegistry.register_eq_ok {r r' : KeyRegistry} {object : ObjectHandle} {parent : Key} :
    r.register object parent = .ok r' ↔ object.scope = r.scope ∧ parent.isComplete ∧
      { r with parents := r.parents.insert object.slot parent } = r' := by
  unfold register
  by_cases hs : object.scope = r.scope
  · by_cases hp : parent.isComplete
    · simp [hs, hp]
    · simp [hs, hp]
  · simp [hs]

theorem KeyRegistry.scope_of_register {r r' : KeyRegistry} {object : ObjectHandle} {parent : Key}
    (h : r.register object parent = .ok r') : r'.scope = r.scope := by
  obtain ⟨-, -, rfl⟩ := KeyRegistry.register_eq_ok.1 h
  rfl

/-- An object that was registered has its parent. -/
theorem KeyRegistry.parent?_of_register {r r' : KeyRegistry} {object : ObjectHandle} {parent : Key}
    (h : r.register object parent = .ok r') : r'.parent? object = some parent := by
  obtain ⟨hs, -, rfl⟩ := KeyRegistry.register_eq_ok.1 h
  simp [parent?, hs]

theorem KeyRegistry.register_error {r : KeyRegistry} {object : ObjectHandle} {parent : Key}
    {e : Failure} (h : r.register object parent = .error e) :
    e.report.category = .invariantViolation := by
  unfold register at h
  split at h
  · cases h
    rfl
  · split at h
    · cases h
      rfl
    · cases h

theorem Action.register_run (object : ObjectHandle) (parent : Key) (ctx : Context) :
    Action.register object parent ctx =
      match ctx.scope.registry.register object parent with
      | .ok registry => .ok () { ctx with scope := { ctx.scope with registry } }
      | .error e => .error e ctx := by
  unfold Action.register
  rw [bind_of_ok (get_run ctx)]
  cases h : ctx.scope.registry.register object parent <;> rfl

/-- An object of the scope is registered under a parent that was written. -/
theorem Action.register_of_scope {object : ObjectHandle} {parent : Key} {ctx : Context}
    (hs : object.scope = ctx.scope.id) (hp : parent.isComplete) :
    ∃ ctx' : Context, Action.register object parent ctx = .ok () ctx' ∧
      ctx'.scope.id = ctx.scope.id ∧ ctx'.scope.registry.parent? object = some parent := by
  obtain ⟨registry, hr⟩ : ∃ r, ctx.scope.registry.register object parent = .ok r :=
    ⟨_, KeyRegistry.register_eq_ok.2 ⟨hs, hp, rfl⟩⟩
  refine ⟨{ ctx with scope := { ctx.scope with registry } }, ?_,
    KeyRegistry.scope_of_register hr, KeyRegistry.parent?_of_register hr⟩
  rw [Action.register_run, hr]

/-- An operation goes on from every context, and it fails for the store only if a fault is due. -/
structure Steady (x : Action α) : Prop where
  of_ok : ∀ {ctx a ctx'}, x ctx = .ok a ctx' → ctx.GoesOnAs ctx'
  of_error : ∀ {ctx e ctx'}, x ctx = .error e ctx' →
    ctx.GoesOnAs ctx' ∧ (ctx.store.faults = [] → e.report.category ≠ .execution)

namespace Steady

theorem bind {x : Action α} {f : α → Action β} (hx : Steady x) (hf : ∀ a, Steady (f a)) :
    Steady (x >>= f) where
  of_ok h := by
    obtain ⟨a, c, h₁, h₂⟩ := bind_run_ok.1 h
    exact (hx.of_ok h₁).trans ((hf a).of_ok h₂)
  of_error h := by
    rcases bind_run_error.1 h with h₁ | ⟨a, c, h₁, h₂⟩
    · exact hx.of_error h₁
    · have hg := hx.of_ok h₁
      obtain ⟨hg', he⟩ := (hf a).of_error h₂
      exact ⟨hg.trans hg', fun hn => he (hg.faults hn)⟩

theorem pure (a : α) : Steady (Pure.pure a) where
  of_ok h := by
    cases h
    exact .refl _
  of_error h := by cases h

theorem ofExcept {x : Except Failure α} (h : ∀ e, x = .error e → e.report.category ≠ .execution) :
    Steady (MonadExcept.ofExcept x) where
  of_ok h' := by
    rw [ofExcept_run] at h'
    split at h' <;> cases h'
    exact .refl _
  of_error h' := by
    rw [ofExcept_run] at h'
    split at h' <;> cases h'
    exact ⟨.refl _, fun _ => h _ rfl⟩

theorem get : Steady (MonadState.get : Action Context) where
  of_ok h := by
    cases h
    exact .refl _
  of_error h := by cases h

theorem modify {f : Context → Context} (h : ∀ ctx : Context, ctx.GoesOnAs (f ctx)) :
    Steady (modify f) where
  of_ok h' := by
    cases h'
    exact h _
  of_error h' := by cases h'

theorem onRegistry {f : KeyRegistry → KeyRegistry} (h : ∀ r, (f r).scope = r.scope) :
    Steady (Action.onRegistry f) :=
  Steady.modify fun _ => ⟨h _, List.prefix_rfl, id⟩

theorem touch (rows : Nat) : Steady (Action.touch rows) :=
  Steady.modify fun _ => ⟨rfl, List.prefix_rfl, id⟩

theorem takeParent (object : ObjectHandle) : Steady (Action.takeParent object) := by
  refine get.bind fun ctx => (onRegistry fun r => ?_).bind fun _ => pure _
  unfold KeyRegistry.forget
  split <;> rfl

theorem register (object : ObjectHandle) (parent : Key) :
    Steady (Action.register object parent) where
  of_ok {ctx a ctx'} h := by
    rw [Action.register_run] at h
    split at h
    · rename_i hr
      cases h
      exact ⟨KeyRegistry.scope_of_register hr, List.prefix_rfl, id⟩
    · cases h
  of_error {ctx e ctx'} h := by
    rw [Action.register_run] at h
    split at h
    · cases h
    · rename_i hr
      cases h
      refine ⟨.refl _, fun _ => ?_⟩
      simp [KeyRegistry.register_error hr]

theorem put (wrap : StoreError → Failure) (r : Row) :
    Steady (Action.onStore wrap (Store.put r)) where
  of_ok {ctx k ctx'} h := by
    obtain ⟨faults, hf, ⟨e, -, he⟩ | ho⟩ := Action.put_run wrap r ctx
    · rw [he] at h
      cases h
    · rw [ho] at h
      cases h
      exact ⟨rfl, List.prefix_append _ _, hf⟩
  of_error {ctx e ctx'} h := by
    obtain ⟨faults, hf, ⟨e, hne, he⟩ | ho⟩ := Action.put_run wrap r ctx
    · rw [he] at h
      cases h
      exact ⟨⟨rfl, List.prefix_rfl, hf⟩, fun hn => absurd hn hne⟩
    · rw [ho] at h
      cases h

end Steady

end EntityGraph
