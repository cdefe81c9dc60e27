import EntityGraph.Proofs.ObjectGraph.Steps

/-!
# Writing an object graph

An object is placed, then the objects that it owns are written group by group, and then it is
refreshed.

* `PendingObject.place_run`: how the row of an object is placed;
* `PendingObject.Stepwise.write`: what holds of the steps of a write, and of sequences of
  operations, holds of the write;
* `PendingObject.steady_write`: a write goes on from the log that is there, in its scope, and it
  fails for the store only if a fault is due.
-/

namespace EntityGraph

namespace PendingObject

variable {schema : Schema}

/-! ## One row -/

theorem place_run (handle : ObjectHandle) (row : Row) (ctx : Context) :
    ∃ ctx₁ : Context, ctx₁.store = ctx.store ∧ ctx₁.scope.id = ctx.scope.id ∧
      place handle row ctx =
        match adopt row (ctx.scope.registry.parent? handle) with
        | .error e => .error e ctx₁
        | .ok row' => (do
            let key ← Action.onStore (.insertStore row'.kind) (Store.put row')
            Action.touch 1
            return key : Action Key) ctx₁ := by
  refine ⟨{ ctx with scope := { ctx.scope with registry := ctx.scope.registry.forget handle } },
    rfl, ?_, ?_⟩
  · simp only [Scope.id, KeyRegistry.forget]
    split <;> rfl
  · have ht : Action.takeParent handle ctx = .ok (ctx.scope.registry.parent? handle)
        { ctx with scope := { ctx.scope with registry := ctx.scope.registry.forget handle } } := rfl
    unfold place
    rw [bind_of_ok ht]
    cases h : adopt row (ctx.scope.registry.parent? handle) with
    | error e => rfl
    | ok row' => rfl

/-- An object that is not taken up by its parent leaves the store alone. -/
theorem place_of_adopt_error {handle : ObjectHandle} {row : Row} {ctx : Context} {e : Failure}
    (h : adopt row (ctx.scope.registry.parent? handle) = .error e) :
    ∃ ctx', place handle row ctx = .error e ctx' ∧ ctx'.store = ctx.store := by
  obtain ⟨ctx₁, hs, -, hp⟩ := place_run handle row ctx
  rw [h] at hp
  exact ⟨ctx₁, hp, hs⟩

/-- An object that is taken up by its parent is placed, unless a fault is due. -/
theorem place_of_adopt_ok {handle : ObjectHandle} {row row' : Row} {ctx : Context}
    (h : adopt row (ctx.scope.registry.parent? handle) = .ok row') : ∃ faults,
      (∃ e ctx', ctx.store.faults ≠ [] ∧
        place handle row ctx = .error (.insertStore row'.kind e) ctx') ∨
      ∃ ctx' : Context, place handle row ctx = .ok (ctx.store.keyFor row') ctx' ∧
        ctx'.store = ({ ctx.store with faults } : Store).afterPut row' ∧
        ctx'.scope.id = ctx.scope.id := by
  obtain ⟨ctx₁, hs, hid, hp⟩ := place_run handle row ctx
  rw [h] at hp
  obtain ⟨faults, -, ⟨e, hne, he⟩ | ho⟩ := Action.put_run (.insertStore row'.kind) row' ctx₁
  · exact ⟨faults, .inl ⟨e, _, hs ▸ hne, hp.trans (bind_of_error he)⟩⟩
  · rw [hs] at ho
    exact ⟨faults, .inr ⟨_, hp.trans (bind_of_ok ho), rfl, hid⟩⟩

theorem of_place_eq_ok {handle : ObjectHandle} {row : Row} {ctx ctx' : Context} {k : Key}
    (h : place handle row ctx = .ok k ctx') : ∃ row' faults,
      adopt row (ctx.scope.registry.parent? handle) = .ok row' ∧ k = ctx.store.keyFor row' ∧
        ctx'.store = ({ ctx.store with faults } : Store).afterPut row' ∧
        ctx'.scope.id = ctx.scope.id := by
  cases ha : adopt row (ctx.scope.registry.parent? handle) with
  | error e =>
    obtain ⟨c, hc, -⟩ := place_of_adopt_error ha
    rw [hc] at h
    cases h
  | ok row' =>
    obtain ⟨faults, ⟨e, c, -, hc⟩ | ⟨c, hc, hs, hid⟩⟩ := place_of_adopt_ok ha
    · rw [hc] at h
      cases h
    · rw [hc] at h
      cases h
      exact ⟨row', faults, rfl, rfl, hs, hid⟩

theorem key_of_place {handle : ObjectHandle} {row : Row} {ctx ctx' : Context} {k : Key}
    (h : place handle row ctx = .ok k ctx') :
    k.isComplete ∧ k.kind = row.kind ∧ (row.key.isComplete → k = row.key) := by
  obtain ⟨row', faults, ha, rfl, -, -⟩ := of_place_eq_ok h
  obtain ⟨hkind, hc, -⟩ := of_adopt_eq_ok ha
  refine ⟨ctx.store.isComplete_keyFor row', (ctx.store.kind_keyFor row').trans hkind, fun hk => ?_⟩
  obtain ⟨rfl, -⟩ := hc hk
  exact Store.keyFor_of_isComplete hk

theorem refresh_run (row : Row) (ctx : Context) : ∃ faults,
    (∃ e ctx', ctx.store.faults ≠ [] ∧ refresh row ctx = .error (.refreshStore row.key e) ctx') ∨
      ∃ ctx' : Context, refresh row ctx = .ok () ctx' ∧
        ctx'.store = ({ ctx.store with faults } : Store).afterPut row ∧
        ctx'.scope.id = ctx.scope.id := by
  have hm : Action.onRegistry (·.mark row.key) ctx = .ok ()
      { ctx with scope := { ctx.scope with registry := ctx.scope.registry.mark row.key } } := rfl
  unfold refresh
  rw [bind_of_ok hm]
  obtain ⟨faults, -, ⟨e, hne, he⟩ | ho⟩ := Action.put_run (.refreshStore row.key) row
    { ctx with scope := { ctx.scope with registry := ctx.scope.registry.mark row.key } }
  · exact ⟨faults, .inl ⟨e, _, hne, bind_of_error he⟩⟩
  · exact ⟨faults, .inr ⟨_, bind_of_ok ho, rfl, rfl⟩⟩

theorem of_refresh_eq_ok {row : Row} {ctx ctx' : Context} {u : Unit}
    (h : refresh row ctx = .ok u ctx') : ∃ faults,
      ctx'.store = ({ ctx.store with faults } : Store).afterPut row ∧
        ctx'.scope.id = ctx.scope.id := by
  obtain ⟨faults, ⟨e, c, -, hr⟩ | ⟨c, hr, hs, hid⟩⟩ := refresh_run row ctx
  · rw [hr] at h
    cases h
  · rw [hr] at h
    cases h
    exact ⟨faults, hs, hid⟩

/-! ## Whole graphs -/

theorem write_eq_ok {handle : ObjectHandle} {row : Row} {owned : List (OwnedGroup PendingObject)}
    {ctx ctx' : Context} {k : Key} : (mk handle row owned).write schema ctx = .ok k ctx' ↔
      ∃ c₁, place handle row ctx = .ok k c₁ ∧
        ((owned = [] ∧ c₁ = ctx') ∨
          owned ≠ [] ∧ ∃ row' c₂, writeGroups schema k owned ⟨k, row.properties⟩ c₁ = .ok row' c₂ ∧
            refresh row' c₂ = .ok () ctx') := by
  rw [write, bind_run_ok]
  cases owned with
  | nil =>
    constructor
    · rintro ⟨key, c₁, hp, h⟩
      cases h
      exact ⟨_, hp, .inl ⟨rfl, rfl⟩⟩
    · rintro ⟨c₁, hp, ⟨-, rfl⟩ | ⟨hne, -⟩⟩
      · exact ⟨k, c₁, hp, rfl⟩
      · exact absurd rfl hne
  | cons group groups =>
    simp only [List.isEmpty_cons, Bool.false_eq_true, if_false, reduceCtorEq, false_and, false_or,
      ne_eq, not_false_eq_true, true_and, bind_run_ok]
    constructor
    · rintro ⟨key, c₁, hp, row', c₂, hg, u, c₃, hr, h⟩
      cases h
      exact ⟨c₁, hp, row', c₂, hg, hr⟩
    · rintro ⟨c₁, hp, row', c₂, hg, hr⟩
      exact ⟨k, c₁, hp, row', c₂, hg, (), ctx', hr, rfl⟩

theorem write_error {handle : ObjectHandle} {row : Row} {owned : List (OwnedGroup PendingObject)}
    {ctx ctx' : Context} {e : Failure}
    (h : (mk handle row owned).write schema ctx = .error e ctx') :
    place handle row ctx = .error e ctx' ∨ ∃ k c₁, place handle row ctx = .ok k c₁ ∧
      (writeGroups schema k owned ⟨k, row.properties⟩ c₁ = .error e ctx' ∨
        ∃ row' c₂, writeGroups schema k owned ⟨k, row.properties⟩ c₁ = .ok row' c₂ ∧
          refresh row' c₂ = .error e ctx') := by
  rw [write] at h
  rcases bind_run_error.1 h with h | ⟨k, c₁, hp, h⟩
  · exact .inl h
  · refine .inr ⟨k, c₁, hp, ?_⟩
    split at h
    · cases h
    · rcases bind_run_error.1 h with h | ⟨row', c₂, hg, h⟩
      · exact .inl h
      · rcases bind_run_error.1 h with h | ⟨u, c₃, -, h⟩
        · exact .inr ⟨row', c₂, hg, h⟩
        · cases h

theorem writeGroups_cons_eq_ok {key : Key} {field : String} {children : List PendingObject}
    {groups : List (OwnedGroup PendingObject)} {row row' : Row} {ctx ctx' : Context} :
    writeGroups schema key (⟨field, children⟩ :: groups) row ctx = .ok row' ctx' ↔
      ∃ kind keys c₁, schema.ownedRelation row.kind field children.length = .ok kind ∧
        writeAll schema key children ctx = .ok keys c₁ ∧
        writeGroups schema key groups (row.set field (reference kind keys)) c₁ = .ok row' ctx' := by
  rw [writeGroups, bind_run_ok]
  constructor
  · rintro ⟨kind, c, hk, h⟩
    obtain ⟨keys, c₁, ha, hg⟩ := bind_run_ok.1 h
    rw [ofExcept_run] at hk
    split at hk
    · rename_i hk'
      cases hk
      exact ⟨kind, keys, c₁, hk', ha, hg⟩
    · cases hk
  · rintro ⟨kind, keys, c₁, hk, ha, hg⟩
    refine ⟨kind, ctx, ?_, bind_run_ok.2 ⟨keys, c₁, ha, hg⟩⟩
    rw [ofExcept_run, hk]

theorem writeAll_cons_eq_ok {parent : Key} {o : PendingObject} {os : List PendingObject}
    {ctx ctx' : Context} {keys : List Key} :
    writeAll schema parent (o :: os) ctx = .ok keys ctx' ↔
      ∃ registry k c₁ ks, ctx.scope.registry.register o.handle parent = .ok registry ∧
        o.write schema { ctx with scope := { ctx.scope with registry } } = .ok k c₁ ∧
        writeAll schema parent os c₁ = .ok ks ctx' ∧ k :: ks = keys := by
  rw [writeAll, bind_run_ok]
  simp only [Action.register_run]
  constructor
  · rintro ⟨u, c, hr, h⟩
    obtain ⟨k, c₁, hw, h⟩ := bind_run_ok.1 h
    obtain ⟨ks, c₂, ha, h⟩ := bind_run_ok.1 h
    cases h
    split at hr
    · rename_i registry hr'
      cases hr
      exact ⟨registry, k, c₁, ks, hr', hw, ha, rfl⟩
    · cases hr
  · rintro ⟨registry, k, c₁, ks, hr, hw, ha, rfl⟩
    refine ⟨(), { ctx with scope := { ctx.scope with registry } }, ?_, ?_⟩
    · rw [hr]
    · exact bind_run_ok.2 ⟨k, c₁, hw, bind_run_ok.2 ⟨ks, ctx', ha, rfl⟩⟩

/-- An object that is written was taken up by the parent recorded for it. -/
theorem adopt_of_write_eq_ok {o : PendingObject} {ctx ctx' : Context} {k : Key}
    (h : o.write schema ctx = .ok k ctx') :
    ∃ row', adopt o.row (ctx.scope.registry.parent? o.handle) = .ok row' := by
  obtain ⟨handle, row, owned⟩ := o
  obtain ⟨c₁, hp, -⟩ := write_eq_ok.1 h
  obtain ⟨row', faults, ha, -⟩ := of_place_eq_ok hp
  exact ⟨row', ha⟩

theorem key_of_writeGroups {key : Key} :
    ∀ {groups : List (OwnedGroup PendingObject)} {row row' : Row} {ctx ctx' : Context},
      writeGroups schema key groups row ctx = .ok row' ctx' → row'.key = row.key
  | [], row, row', ctx, ctx', h => by
    rw [writeGroups] at h
    cases h
    rfl
  | ⟨field, children⟩ :: groups, row, row', ctx, ctx', h => by
    obtain ⟨kind, keys, c₁, -, -, hg⟩ := writeGroups_cons_eq_ok.1 h
    exact (key_of_writeGroups hg).trans (Row.key_set ..)

/-- A property of sequences of operations that holds of the steps of a write. -/
structure Stepwise (P : ∀ {α : Type}, Action α → Prop) : Prop extends Compositional P where
  takeParent : ∀ object, P (Action.takeParent object)
  register : ∀ object parent, P (Action.register object parent)
  onRegistry : ∀ {f : KeyRegistry → KeyRegistry}, (∀ r, (f r).scope = r.scope) →
    P (Action.onRegistry f)
  touch : ∀ rows, P (Action.touch rows)
  insert : ∀ kind row, P (Action.onStore (.insertStore kind) (Store.put row))
  refresh : ∀ key row, P (Action.onStore (.refreshStore key) (Store.put row))

namespace Stepwise

variable {P : ∀ {α : Type}, Action α → Prop} (hP : Stepwise P)
include hP

theorem place (handle : ObjectHandle) (row : Row) : P (place handle row) := by
  refine hP.bind (hP.takeParent handle) fun parent => ?_
  refine hP.bind (hP.ofExcept fun e he => ?_) fun row' => ?_
  · simp [adopt_error he]
  · exact hP.bind (hP.insert _ row') fun key => hP.bind (hP.touch 1) fun _ => hP.pure key

theorem refreshed (row : Row) : P (PendingObject.refresh row) :=
  hP.bind (hP.onRegistry fun _ => rfl) fun _ => hP.bind (hP.refresh row.key row) fun _ =>
    hP.onRegistry fun _ => rfl

mutual

/-- What holds of the steps of a write, and of sequences, holds of the write. -/
theorem write : ∀ o : PendingObject, P (o.write schema)
  | .mk handle row owned => by
    rw [PendingObject.write]
    refine hP.bind (hP.place handle row) fun key => ?_
    split
    · exact hP.pure key
    · refine hP.bind (writeGroups key owned _) fun row' => ?_
      exact hP.bind (hP.refreshed row') fun _ => hP.pure key

theorem writeGroups (key : Key) : ∀ (groups : List (OwnedGroup PendingObject)) (row : Row),
    P (PendingObject.writeGroups schema key groups row)
  | [], row => by
    rw [PendingObject.writeGroups]
    exact hP.pure row
  | ⟨field, children⟩ :: groups, row => by
    rw [PendingObject.writeGroups]
    refine hP.bind (hP.ofExcept fun e he => Schema.ownedRelation_error he) fun kind => ?_
    exact hP.bind (writeAll key children) fun keys => writeGroups key groups _

theorem writeAll (parent : Key) : ∀ os : List PendingObject,
    P (PendingObject.writeAll schema parent os)
  | [] => by
    rw [PendingObject.writeAll]
    exact hP.pure []
  | o :: os => by
    rw [PendingObject.writeAll]
    refine hP.bind (hP.register o.handle parent) fun _ => hP.bind (write o) fun key => ?_
    exact hP.bind (writeAll parent os) fun keys => hP.pure _

end
end Stepwise

theorem stepwise_steady : Stepwise Steady where
  pure := .pure
  bind := .bind
  ofExcept := .ofExcept
  takeParent := .takeParent
  register := .register
  onRegistry := .onRegistry
  touch := .touch
  insert _ := .put _
  refresh _ := .put _

theorem steady_place (handle : ObjectHandle) (row : Row) : Steady (place handle row) :=
  stepwise_steady.place handle row

theorem steady_refresh (row : Row) : Steady (refresh row) := stepwise_steady.refreshed row

theorem steady_write (o : PendingObject) : Steady (o.write schema) := stepwise_steady.write o

theorem steady_writeGroups (key : Key) (groups : List (OwnedGroup PendingObject)) (row : Row) :
    Steady (writeGroups schema key groups row) :=
  stepwise_steady.writeGroups key groups row

theorem steady_writeAll (parent : Key) (os : List PendingObject) :
    Steady (writeAll schema parent os) :=
  stepwise_steady.writeAll parent os

/-- An object that is taken up by its parent is in the log, whatever fails after it was placed. -/
theorem log_of_write_error {o : PendingObject} {row' : Row} {ctx ctx' : Context} {e : Failure}
    (hf : ctx.store.faults = []) (ha : adopt o.row (ctx.scope.registry.parent? o.handle) = .ok row')
    (h : o.write schema ctx = .error e ctx') :
    ctx.store.log ++ [.put (ctx.store.keyFor row')] <+: ctx'.store.log := by
  obtain ⟨handle, row, owned⟩ := o
  obtain ⟨faults, ⟨e', c₁, hne, -⟩ | ⟨c₁, hp, hs, -⟩⟩ := place_of_adopt_ok ha
  · exact absurd hf hne
  have hl : c₁.store.log = ctx.store.log ++ [.put (ctx.store.keyFor row')] := by
    rw [hs]
    rfl
  rw [← hl]
  rcases write_error h with h | ⟨k, c, hp', h⟩
  · exact absurd (hp.symm.trans h) (by simp)
  · obtain ⟨rfl, rfl⟩ : ctx.store.keyFor row' = k ∧ c₁ = c := by
      simpa using hp.symm.trans hp'
    rcases h with h | ⟨row₂, c₂, hg, h⟩
    · exact ((steady_writeGroups _ _ _).of_error h).1.log
    · exact (((steady_writeGroups _ _ _).of_ok hg).trans ((steady_refresh _).of_error h).1).log

/-! ## Inserts -/

theorem insert_of_check_error {o : PendingObject} {e : Failure} (h : o.check schema = .error e)
    (ctx : Context) : o.insert schema ctx = .error e ctx := by
  unfold insert
  exact bind_of_error (by rw [h]; rfl)

/-- The context that the write of an insert starts in. -/
def begun (o : PendingObject) (ctx : Context) : Context :=
  { ctx.emit (.started .insert o.kind) with touched := 0 }

@[simp] theorem scope_begun (o : PendingObject) (ctx : Context) : (o.begun ctx).scope = ctx.scope :=
  rfl

@[simp] theorem store_begun (o : PendingObject) (ctx : Context) : (o.begun ctx).store = ctx.store :=
  rfl

/-- An insert that passes the check fails as its write does. -/
theorem insert_error_iff {o : PendingObject} (h : o.check schema = .ok ()) {ctx ctx' : Context}
    {e : Failure} : o.insert schema ctx = .error e ctx' ↔
      ∃ c, o.write schema (o.begun ctx) = .error e c ∧
        c.emit (.finished .insert o.kind c.touched) = ctx' := by
  have hc : (MonadExcept.ofExcept (o.check schema) : Action Unit) ctx = .ok () ctx := by
    rw [h]
    rfl
  unfold insert
  rw [bind_of_ok hc]
  simp only [Action.counted, begun]
  cases o.write schema { ctx.emit (.started .insert o.kind) with touched := 0 } with
  | ok k c => simp
  | error e' c => simp [and_assoc]

end PendingObject
end EntityGraph
