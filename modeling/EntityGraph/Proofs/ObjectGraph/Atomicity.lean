import EntityGraph.Proofs.ObjectGraph.Writing

/-!
# When inserting is atomic

An insert checks the owned fields of a graph before it writes, but it looks at the handles of the
owned objects, and at their complete keys, only when it comes to write them. An object of another
scope, or with a complete key that is not under its owner, is then refused after its owner was
stored.

* `PendingObject.InPlace`: the objects that an object owns belong to the scope, and their complete
  keys are under those of their owners;
* `PendingObject.insert_atomic_iff`: exactly the graphs that are refused at once or are in place are
  never left half written by a failure that is not the store's;
* `PendingObject.insert_leaves_owner`: an owner that stays behind.

That graphs in place suffice is an induction over the write. That they are needed follows from two
runs: one on an empty store and one on a store that gives out other numbers. An owner without a
complete key gets another key in each, so no child with a complete key is under it in both.
-/

namespace EntityGraph

namespace PendingObject

variable {schema : Schema}

mutual

/-- The objects under an object belong to a scope, and those with a complete key are under it. -/
def InPlace (scope : ScopeId) : PendingObject → Prop
  | mk _ row owned => GroupsInPlace scope row.key owned

/-- The objects of groups belong to a scope, and those with a complete key are under their owner. -/
def GroupsInPlace (scope : ScopeId) (owner : Key) : List (OwnedGroup PendingObject) → Prop
  | [] => True
  | ⟨_, children⟩ :: groups => AllInPlace scope owner children ∧ GroupsInPlace scope owner groups

/-- Objects belong to a scope, and those with a complete key are under their owner. -/
def AllInPlace (scope : ScopeId) (owner : Key) : List PendingObject → Prop
  | [] => True
  | o :: os =>
    (o.handle.scope = scope ∧
      (o.row.key.isComplete → owner.isComplete ∧ o.row.key.parent = some owner) ∧
      InPlace scope o) ∧ AllInPlace scope owner os

end

/-! ## Graphs in place fail for the store only -/

/-- A failure of the operation is the store's. -/
def FailsForStore {α : Type} (x : Action α) (ctx : Context) : Prop :=
  ∀ e ctx', x ctx = .error e ctx' → e.report.category = .execution

theorem FailsForStore.bind {α β : Type} {x : Action α} {f : α → Action β} {ctx : Context}
    (hx : FailsForStore x ctx) (hf : ∀ a ctx', x ctx = .ok a ctx' → FailsForStore (f a) ctx') :
    FailsForStore (x >>= f) ctx := by
  intro e ctx' h
  rcases bind_run_error.1 h with h | ⟨a, c, ha, h⟩
  · exact hx e ctx' h
  · exact hf a c ha e ctx' h

theorem failsForStore_pure {α : Type} (a : α) (ctx : Context) :
    FailsForStore (pure a : Action α) ctx := by
  intro e ctx' h
  cases h

theorem failsForStore_place {handle : ObjectHandle} {row row' : Row} {ctx : Context}
    (h : adopt row (ctx.scope.registry.parent? handle) = .ok row') :
    FailsForStore (place handle row) ctx := by
  intro e ctx' he
  obtain ⟨faults, ⟨e', c, -, hp⟩ | ⟨c, hp, -, -⟩⟩ := place_of_adopt_ok h
  · rw [hp] at he
    cases he
    rfl
  · rw [hp] at he
    cases he

theorem failsForStore_refresh (row : Row) (ctx : Context) : FailsForStore (refresh row) ctx := by
  intro e ctx' he
  obtain ⟨faults, ⟨e', c, -, hr⟩ | ⟨c, hr, -, -⟩⟩ := refresh_run row ctx
  · rw [hr] at he
    cases he
    rfl
  · rw [hr] at he
    cases he

/-- `key` is one that the owner with the key `owner` may have been written under. -/
structure WrittenUnder (owner key : Key) : Prop where
  complete : key.isComplete
  kind : key.kind = owner.kind
  kept : owner.isComplete → key = owner

-- By induction on the graph. What is in place is so under the key of its owner in the graph, and an
-- owner with a complete key is written under that key: this is what `WrittenUnder` hands down.
mutual

theorem failsForStore_write : ∀ (o : PendingObject) {ctx : Context} {row' : Row},
    o.check schema = .ok () → adopt o.row (ctx.scope.registry.parent? o.handle) = .ok row' →
      InPlace ctx.scope.id o → FailsForStore (o.write schema) ctx
  | mk handle row owned, ctx, row', hc, ha, hi => by
    unfold write
    unfold check at hc
    unfold InPlace at hi
    refine (failsForStore_place ha).bind fun key c hp => ?_
    obtain ⟨hk, hkind, hkept⟩ := key_of_place hp
    have hw : WrittenUnder row.key key := ⟨hk, hkind, hkept⟩
    have hrow : Row.kind ⟨key, row.properties⟩ = row.key.kind := hkind
    rw [← ((steady_place handle row).of_ok hp).scope] at hi
    split
    · exact failsForStore_pure key c
    · refine (failsForStore_writeGroups owned hw hrow hc hi).bind fun row' c' _ => ?_
      exact (failsForStore_refresh row' c').bind fun _ c'' _ => failsForStore_pure key c''

theorem failsForStore_writeGroups : ∀ (groups : List (OwnedGroup PendingObject)) {owner key : Key}
    {row : Row} {ctx : Context}, WrittenUnder owner key → row.kind = owner.kind →
      checkGroups schema owner.kind groups = .ok () → GroupsInPlace ctx.scope.id owner groups →
        FailsForStore (writeGroups schema key groups row) ctx
  | [], owner, key, row, ctx, hw, hkind, hc, hi => by
    unfold writeGroups
    exact failsForStore_pure row ctx
  | ⟨field, children⟩ :: groups, owner, key, row, ctx, hw, hkind, hc, hi => by
    unfold checkGroups at hc
    obtain ⟨kind, hr, hc⟩ := bind_eq_ok.1 hc
    obtain ⟨_, hca, hcg⟩ := bind_eq_ok.1 hc
    unfold GroupsInPlace at hi
    obtain ⟨hia, hig⟩ := hi
    unfold writeGroups
    rw [hkind, hr]
    show FailsForStore (writeAll schema key children >>= _) ctx
    refine (failsForStore_writeAll children hw hca hia).bind fun keys c ha => ?_
    rw [← ((steady_writeAll key children).of_ok ha).scope] at hig
    exact failsForStore_writeGroups groups hw hkind hcg hig

theorem failsForStore_writeAll : ∀ (os : List PendingObject) {owner key : Key} {ctx : Context},
    WrittenUnder owner key → checkAll schema os = .ok () → AllInPlace ctx.scope.id owner os →
      FailsForStore (writeAll schema key os) ctx
  | [], owner, key, ctx, hw, hc, hi => by
    unfold writeAll
    exact failsForStore_pure [] ctx
  | o :: os, owner, key, ctx, hw, hc, hi => by
    unfold checkAll at hc
    obtain ⟨_, hco, hcs⟩ := bind_eq_ok.1 hc
    unfold AllInPlace at hi
    obtain ⟨⟨hs, hp, hio⟩, his⟩ := hi
    obtain ⟨c₀, hr, hid, hparent⟩ := Action.register_of_scope hs hw.complete
    have hpar : o.row.key.isComplete → o.row.key.parent = some key := fun hk => by
      rw [(hp hk).2, hw.kept (hp hk).1]
    obtain ⟨row', ha⟩ := adopt_eq_ok hw.complete hpar
    rw [← hparent] at ha
    unfold writeAll
    intro e ctx' he
    rw [bind_of_ok hr] at he
    rw [← hid] at hio his
    refine FailsForStore.bind (failsForStore_write o hco ha hio) (fun k c hk => ?_) e ctx' he
    rw [← ((steady_write o).of_ok hk).scope] at his
    exact (failsForStore_writeAll os hw hcs his).bind fun ks c' _ => failsForStore_pure _ c'

end

/-! ## Graphs that are written whatever the numbers are in place -/

/-- Two contexts of one scope whose stores give out different numbers. -/
structure Apart (c₁ c₂ : Context) : Prop where
  scope : c₁.scope.id = c₂.scope.id
  number : c₂.store.lastNumber = c₁.store.lastNumber + 1

/-- Keys that an object with the key `key` was written under in contexts that are apart. -/
structure WrittenApart (key k₁ k₂ : Key) : Prop where
  kept : key.isComplete → k₁ = key ∧ k₂ = key
  ne : ¬key.isComplete → k₁ ≠ k₂

theorem Apart.nextNumber_ne {c₁ c₂ : Context} (h : Apart c₁ c₂) :
    c₁.store.nextNumber ≠ c₂.store.nextNumber := by
  unfold Store.nextNumber
  rw [h.number]
  simp

theorem apart_place {handle : ObjectHandle} {row : Row} {c₁ c₂ c₁' c₂' : Context} {k₁ k₂ : Key}
    (h : Apart c₁ c₂) (h₁ : place handle row c₁ = .ok k₁ c₁')
    (h₂ : place handle row c₂ = .ok k₂ c₂') : Apart c₁' c₂' ∧ WrittenApart row.key k₁ k₂ := by
  obtain ⟨row₁, faults₁, ha₁, rfl, hs₁, hid₁⟩ := of_place_eq_ok h₁
  obtain ⟨row₂, faults₂, ha₂, rfl, hs₂, hid₂⟩ := of_place_eq_ok h₂
  obtain ⟨-, hkept₁, hopen₁⟩ := of_adopt_eq_ok ha₁
  obtain ⟨-, hkept₂, hopen₂⟩ := of_adopt_eq_ok ha₂
  have hid : c₁'.scope.id = c₂'.scope.id := by rw [hid₁, hid₂, h.scope]
  by_cases hc : row.key.isComplete
  · obtain ⟨rfl, -⟩ := hkept₁ hc
    obtain ⟨rfl, -⟩ := hkept₂ hc
    have hl₁ : c₁'.store.lastNumber = c₁.store.lastNumber := by
      rw [hs₁, Store.lastNumber_afterPut, if_pos hc]
    have hl₂ : c₂'.store.lastNumber = c₂.store.lastNumber := by
      rw [hs₂, Store.lastNumber_afterPut, if_pos hc]
    refine ⟨⟨hid, ?_⟩, fun _ => ?_, fun hn => absurd hc hn⟩
    · rw [hl₁, hl₂, h.number]
    · exact ⟨Store.keyFor_of_isComplete hc, Store.keyFor_of_isComplete hc⟩
  · have ho₁ := hopen₁ hc
    have ho₂ := hopen₂ hc
    have hl₁ : c₁'.store.lastNumber = c₁.store.lastNumber + 1 := by
      rw [hs₁, Store.lastNumber_afterPut, if_neg ho₁]
    have hl₂ : c₂'.store.lastNumber = c₂.store.lastNumber + 1 := by
      rw [hs₂, Store.lastNumber_afterPut, if_neg ho₂]
    refine ⟨⟨hid, ?_⟩, fun hc' => absurd hc' hc, fun _ he => ?_⟩
    · rw [hl₁, hl₂, h.number]
    · rw [Store.keyFor_of_not_isComplete ho₁, Store.keyFor_of_not_isComplete ho₂] at he
      have hn := congrArg Key.id he
      simp only [Key.id_assign, Option.some.injEq, KeyId.number.injEq] at hn
      exact h.nextNumber_ne hn

theorem apart_refresh {row₁ row₂ : Row} {c₁ c₂ c₁' c₂' : Context} (h : Apart c₁ c₂)
    (hc₁ : row₁.key.isComplete) (hc₂ : row₂.key.isComplete) (h₁ : refresh row₁ c₁ = .ok () c₁')
    (h₂ : refresh row₂ c₂ = .ok () c₂') : Apart c₁' c₂' := by
  obtain ⟨faults₁, hs₁, hid₁⟩ := of_refresh_eq_ok h₁
  obtain ⟨faults₂, hs₂, hid₂⟩ := of_refresh_eq_ok h₂
  have hl₁ : c₁'.store.lastNumber = c₁.store.lastNumber := by
    rw [hs₁, Store.lastNumber_afterPut, if_pos hc₁]
  have hl₂ : c₂'.store.lastNumber = c₂.store.lastNumber := by
    rw [hs₂, Store.lastNumber_afterPut, if_pos hc₂]
  constructor
  · rw [hid₁, hid₂, h.scope]
  · rw [hl₁, hl₂, h.number]

-- By induction on the graph, over both runs at once. The numbers stay apart, since a put takes a
-- number in both runs or in none.
mutual

theorem inPlace_of_write : ∀ (o : PendingObject) {c₁ c₂ c₁' c₂' : Context} {k₁ k₂ : Key},
    Apart c₁ c₂ → o.write schema c₁ = .ok k₁ c₁' → o.write schema c₂ = .ok k₂ c₂' →
      Apart c₁' c₂' ∧ WrittenApart o.row.key k₁ k₂ ∧ InPlace c₁.scope.id o
  | mk handle row owned, c₁, c₂, c₁', c₂', k₁, k₂, h, h₁, h₂ => by
    obtain ⟨d₁, hp₁, hr₁⟩ := write_eq_ok.1 h₁
    obtain ⟨d₂, hp₂, hr₂⟩ := write_eq_ok.1 h₂
    obtain ⟨hd, hk⟩ := apart_place h hp₁ hp₂
    have hid : d₁.scope.id = c₁.scope.id := ((steady_place handle row).of_ok hp₁).scope
    unfold InPlace
    rcases hr₁ with ⟨rfl, rfl⟩ | ⟨hne, row₁, e₁, hg₁, hf₁⟩
    · rcases hr₂ with ⟨-, rfl⟩ | ⟨hne, -⟩
      · exact ⟨hd, hk, trivial⟩
      · exact absurd rfl hne
    · rcases hr₂ with ⟨rfl, -⟩ | ⟨-, row₂, e₂, hg₂, hf₂⟩
      · exact absurd rfl hne
      · obtain ⟨he, hi⟩ := inPlace_of_writeGroups owned hd hk hg₁ hg₂
        have hc₁ : row₁.key.isComplete := by
          rw [key_of_writeGroups hg₁]
          exact (key_of_place hp₁).1
        have hc₂ : row₂.key.isComplete := by
          rw [key_of_writeGroups hg₂]
          exact (key_of_place hp₂).1
        exact ⟨apart_refresh he hc₁ hc₂ hf₁ hf₂, hk, hid ▸ hi⟩

theorem inPlace_of_writeGroups : ∀ (groups : List (OwnedGroup PendingObject)) {owner k₁ k₂ : Key}
    {row₁ row₂ row₁' row₂' : Row} {c₁ c₂ c₁' c₂' : Context}, Apart c₁ c₂ →
      WrittenApart owner k₁ k₂ → writeGroups schema k₁ groups row₁ c₁ = .ok row₁' c₁' →
        writeGroups schema k₂ groups row₂ c₂ = .ok row₂' c₂' →
          Apart c₁' c₂' ∧ GroupsInPlace c₁.scope.id owner groups
  | [], owner, k₁, k₂, row₁, row₂, row₁', row₂', c₁, c₂, c₁', c₂', h, hk, h₁, h₂ => by
    rw [writeGroups] at h₁ h₂
    cases h₁
    cases h₂
    exact ⟨h, trivial⟩
  | ⟨field, children⟩ :: groups, owner, k₁, k₂, row₁, row₂, row₁', row₂', c₁, c₂, c₁', c₂', h, hk,
      h₁, h₂ => by
    obtain ⟨kind₁, keys₁, d₁, -, ha₁, hg₁⟩ := writeGroups_cons_eq_ok.1 h₁
    obtain ⟨kind₂, keys₂, d₂, -, ha₂, hg₂⟩ := writeGroups_cons_eq_ok.1 h₂
    obtain ⟨hd, hia⟩ := inPlace_of_writeAll children h hk ha₁ ha₂
    obtain ⟨h', hig⟩ := inPlace_of_writeGroups groups hd hk hg₁ hg₂
    rw [((steady_writeAll k₁ children).of_ok ha₁).scope] at hig
    unfold GroupsInPlace
    exact ⟨h', hia, hig⟩

theorem inPlace_of_writeAll : ∀ (os : List PendingObject) {owner k₁ k₂ : Key}
    {keys₁ keys₂ : List Key} {c₁ c₂ c₁' c₂' : Context}, Apart c₁ c₂ → WrittenApart owner k₁ k₂ →
      writeAll schema k₁ os c₁ = .ok keys₁ c₁' → writeAll schema k₂ os c₂ = .ok keys₂ c₂' →
        Apart c₁' c₂' ∧ AllInPlace c₁.scope.id owner os
  | [], owner, k₁, k₂, keys₁, keys₂, c₁, c₂, c₁', c₂', h, hk, h₁, h₂ => by
    rw [writeAll] at h₁ h₂
    cases h₁
    cases h₂
    exact ⟨h, trivial⟩
  | o :: os, owner, k₁, k₂, keys₁, keys₂, c₁, c₂, c₁', c₂', h, hk, h₁, h₂ => by
    obtain ⟨r₁, l₁, d₁, ls₁, hr₁, hw₁, ha₁, -⟩ := writeAll_cons_eq_ok.1 h₁
    obtain ⟨r₂, l₂, d₂, ls₂, hr₂, hw₂, ha₂, -⟩ := writeAll_cons_eq_ok.1 h₂
    have hs₁ := KeyRegistry.scope_of_register hr₁
    have hs₂ := KeyRegistry.scope_of_register hr₂
    have hr : Apart { c₁ with scope := { c₁.scope with registry := r₁ } }
        { c₂ with scope := { c₂.scope with registry := r₂ } } :=
      ⟨(hs₁.trans h.scope).trans hs₂.symm, h.number⟩
    obtain ⟨hd, -, hio⟩ := inPlace_of_write o hr hw₁ hw₂
    obtain ⟨h', his⟩ := inPlace_of_writeAll os hd hk ha₁ ha₂
    have hid : d₁.scope.id = c₁.scope.id := ((steady_write o).of_ok hw₁).scope.trans hs₁
    obtain ⟨hobject, -, -⟩ := KeyRegistry.register_eq_ok.1 hr₁
    refine ⟨h', ⟨hobject, fun hc => ?_, ?_⟩, hid ▸ his⟩
    · obtain ⟨row₁, hrow₁⟩ := adopt_of_write_eq_ok hw₁
      obtain ⟨row₂, hrow₂⟩ := adopt_of_write_eq_ok hw₂
      have hp₁ := ((of_adopt_eq_ok hrow₁).2.1 hc).2 k₁ (KeyRegistry.parent?_of_register hr₁)
      have hp₂ := ((of_adopt_eq_ok hrow₂).2.1 hc).2 k₂ (KeyRegistry.parent?_of_register hr₂)
      -- both runs took the child up under the key of its owner, which is thus the same in both
      have he : k₁ = k₂ := Option.some.inj (hp₁.symm.trans hp₂)
      by_cases ho : owner.isComplete
      · exact ⟨ho, by rw [hp₁, (hk.kept ho).1]⟩
      · exact absurd he (hk.ne ho)
    · rw [← show r₁.scope = c₁.scope.id from hs₁]
      exact hio

end

/-! ## Inserts -/

theorem store_of_write_of_adopt_error {o : PendingObject} {ctx ctx' : Context} {e e' : Failure}
    (ha : adopt o.row (ctx.scope.registry.parent? o.handle) = .error e)
    (h : o.write schema ctx = .error e' ctx') : ctx'.store = ctx.store := by
  obtain ⟨handle, row, owned⟩ := o
  obtain ⟨c, hp, hs⟩ := place_of_adopt_error ha
  rcases write_error h with h | ⟨k, c₁, hp', -⟩
  · cases hp.symm.trans h
    exact hs
  · exact absurd (hp.symm.trans hp') (by simp)

/-- A graph that is taken up and never left half written is written on any store without faults. -/
theorem write_eq_ok_of_atomic {o : PendingObject} {row' : Row} {ctx : Context}
    (hc : o.check schema = .ok ())
    (ha : adopt o.row (ctx.scope.registry.parent? o.handle) = .ok row') (hf : ctx.store.faults = [])
    (h : ∀ e ctx', o.insert schema ctx = .error e ctx' → e.report.category ≠ .execution →
      ctx'.store.log = ctx.store.log) :
    ∃ k ctx', o.write schema (o.begun ctx) = .ok k ctx' := by
  rw [← scope_begun o ctx] at ha
  rw [← store_begun o ctx] at hf
  cases hw : o.write schema (o.begun ctx) with
  | ok k c => exact ⟨k, c, rfl⟩
  | error e c =>
    have hcat := ((steady_write o).of_error hw).2 hf
    have hlog := h e _ ((insert_error_iff hc).2 ⟨c, hw, rfl⟩) hcat
    have hput := (log_of_write_error hf ha hw).length_le
    have hlen := congrArg List.length hlog
    simp only [store_begun, Context.emit, List.length_append, List.length_singleton] at hput hlen
    omega

/-- The inserts that never leave a graph half written unless the store fails: those that are refused
at once, for their fields or the parent of their root, and those of graphs in place. -/
theorem insert_atomic_iff (schema : Schema) (o : PendingObject) (ctx : Context) :
    (∀ (store : Store) (e : Failure) (ctx' : Context),
      o.insert schema { ctx with store } = .error e ctx' → e.report.category ≠ .execution →
        ctx'.store.rows = store.rows ∧ ctx'.store.log = store.log) ↔
      (∃ e, o.check schema = .error e) ∨
      (∃ e, adopt o.row (ctx.scope.registry.parent? o.handle) = .error e) ∨
      InPlace ctx.scope.id o := by
  cases hc : o.check schema with
  | error e =>
    refine ⟨fun _ => .inl ⟨e, rfl⟩, fun _ store e' ctx' he _ => ?_⟩
    rw [insert_of_check_error hc] at he
    cases he
    exact ⟨rfl, rfl⟩
  | ok _ =>
    cases ha : adopt o.row (ctx.scope.registry.parent? o.handle) with
    | error e =>
      refine ⟨fun _ => .inr (.inl ⟨e, rfl⟩), fun _ store e' ctx' he _ => ?_⟩
      obtain ⟨c, hw, rfl⟩ := (insert_error_iff hc).1 he
      have ha' : adopt o.row
          ((o.begun { ctx with store }).scope.registry.parent? o.handle) = .error e := ha
      have hs := store_of_write_of_adopt_error ha' hw
      exact ⟨congrArg Store.rows hs, congrArg Store.log hs⟩
    | ok row' =>
      constructor
      · intro h
        refine .inr (.inr ?_)
        have hatomic : ∀ store : Store, store.faults = [] →
            ∃ k c, o.write schema (o.begun { ctx with store }) = .ok k c := fun store hf => by
          have hrun := fun e ctx' he hcat => (h store e ctx' he hcat).2
          exact write_eq_ok_of_atomic hc ha hf hrun
        obtain ⟨k₁, c₁, h₁⟩ := hatomic {} rfl
        obtain ⟨k₂, c₂, h₂⟩ := hatomic { lastNumber := 1 } rfl
        have hapart : Apart (o.begun { ctx with store := {} })
            (o.begun { ctx with store := { lastNumber := 1 } }) := ⟨rfl, rfl⟩
        exact (inPlace_of_write o hapart h₁ h₂).2.2
      · rintro (⟨_, h⟩ | ⟨_, h⟩ | hi) store e ctx' he hcat
        · cases h
        · cases h
        · obtain ⟨c, hw, rfl⟩ := (insert_error_iff hc).1 he
          have ha' : adopt o.row
              ((o.begun { ctx with store }).scope.registry.parent? o.handle) = .ok row' := ha
          exact absurd (failsForStore_write o hc ha' hi _ _ hw) hcat

/-- People own pets. -/
def petSchema : Schema where
  classes := [
    { name := "Person"
      fields := [{
        name := "pets"
        relation := some { kind := .oneToMany, target := "Pet", owned := true } }] },
    { name := "Pet" }]
  distinct := by simp

/-- A person of one scope with a pet of another. -/
def foreignPet : PendingObject :=
  mk ⟨⟨1⟩, 0⟩ { key := .single ⟨"Person", none⟩ ⟨by simp, by simp⟩ }
    [⟨"pets", [mk ⟨⟨2⟩, 0⟩ { key := .single ⟨"Pet", none⟩ ⟨by simp, by simp⟩ } []]⟩]

/-- The person passes the check and is stored, then the pet is refused. -/
theorem insert_leaves_owner :
    foreignPet.check petSchema = .ok () ∧
      ∃ e ctx', foreignPet.insert petSchema { scope := .start ⟨1⟩ false, store := {}, held := {} } =
          .error e ctx' ∧ e.report.category = .invariantViolation ∧
        ctx'.store.log = [.put (.single ⟨"Person", some (.number 1)⟩ ⟨by simp, by simp⟩)] ∧
        ctx'.store.rows.length = 1 :=
  ⟨rfl, _, _, rfl, rfl, rfl, rfl⟩

end PendingObject
end EntityGraph
