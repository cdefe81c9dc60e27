import EntityGraph.Proofs.ObjectGraph.Effect
import EntityGraph.Proofs.Store.Faults

/-!
# How far a write comes

A write goes down an object graph, and it may end at any object: when the object is taken up by its
parent, when its row is put, when one that it owns is registered, or when its row is put once more.
`PendingObject.visits` lists the objects that it came to. Whether the write succeeds or fails, they
tell what it leaves in its scope (`Visited`).

* `KeyRegistry.parent?_forget`, `KeyRegistry.isMarked_unmark_mark`: the entries of the registry;
* `PendingObject.place_cases`, `PendingObject.refresh_cases`: what becomes of the scope when a row
  is put;
* `PendingObject.visited_write`: what becomes of it when a graph is written.
-/

namespace EntityGraph

/-! ## Entries of the registry -/

namespace KeyRegistry

theorem parent?_forget (r : KeyRegistry) (object h : ObjectHandle) :
    (r.forget object).parent? h = if h = object then none else r.parent? h := by
  obtain ⟨scope, slot⟩ := h
  obtain ⟨scope', slot'⟩ := object
  by_cases hs' : scope' = r.scope
  · by_cases hs : scope = r.scope
    · simp [forget, parent?, hs, hs', SortedMap.get?_erase]
    · have hne : scope ≠ scope' := fun h => hs (h.trans hs')
      simp [forget, parent?, hs, hs']
  · by_cases hs : scope = r.scope
    · have hne : scope ≠ scope' := fun h => hs' (h ▸ hs)
      simp [forget, parent?, hs, hs', Ne.symm hs']
    · simp [forget, parent?, hs, hs']

theorem parent?_of_register_of_ne {r r' : KeyRegistry} {object h : ObjectHandle} {parent : Key}
    (hr : r.register object parent = .ok r') (hne : h ≠ object) : r'.parent? h = r.parent? h := by
  obtain ⟨hs, -, rfl⟩ := register_eq_ok.1 hr
  by_cases hh : h.scope = r.scope
  · have hslot : h.slot ≠ object.slot := fun he => hne (by
      cases h; cases object; simp_all)
    simp [parent?, hh, SortedMap.get?_insert_of_ne _ _ hslot]
  · simp [parent?, hh]

@[simp] theorem isMarked_forget (r : KeyRegistry) (object : ObjectHandle) (k : Key) :
    (r.forget object).isMarked k = r.isMarked k := by
  unfold forget
  split <;> rfl

theorem isMarked_of_register {r r' : KeyRegistry} {object : ObjectHandle} {parent k : Key}
    (hr : r.register object parent = .ok r') : r'.isMarked k = r.isMarked k := by
  obtain ⟨-, -, rfl⟩ := register_eq_ok.1 hr
  rfl

theorem isMarked_mark (r : KeyRegistry) (parent k : Key) :
    (r.mark parent).isMarked k ↔ k = parent ∨ r.isMarked k := by
  simp only [isMarked, mark, SortedMap.contains, SortedMap.get?_insert]
  split <;> simp_all

theorem isMarked_unmark_mark (r : KeyRegistry) (parent k : Key) :
    ((r.mark parent).unmark parent).isMarked k ↔ r.isMarked k ∧ k ≠ parent := by
  simp only [isMarked, mark, unmark, SortedMap.contains, SortedMap.get?_erase,
    SortedMap.get?_insert]
  split <;> simp_all

end KeyRegistry

namespace Context

/-- The registry of the scope. -/
def registry (ctx : Context) : KeyRegistry := ctx.scope.registry

/-- The context with another registry in its scope. -/
def withRegistry (ctx : Context) (registry : KeyRegistry) : Context :=
  { ctx with scope := { ctx.scope with registry } }

end Context

/-! ## Visits -/

/-- An object that a write comes to, and the context in which it does. -/
structure Visit where
  object : PendingObject
  ctx : Context

namespace Visit

/-- What becomes of the row of the object. -/
def place (v : Visit) : EStateM.Result Failure Context Key :=
  PendingObject.place v.object.handle v.object.row v.ctx

/-- The key that the object is placed under, if it is placed. -/
def key? (v : Visit) : Option Key := (outcome v.place).toOption

end Visit

namespace PendingObject

variable (schema : Schema)

mutual

/-- The objects that the write of an object comes to, in turn. Those that the object owns follow
once it is placed. -/
def visits : PendingObject → Context → List Visit
  | mk handle row owned, ctx =>
    ⟨mk handle row owned, ctx⟩ ::
      match place handle row ctx with
      | .ok key ctx => groupVisits key owned ⟨key, row.properties⟩ ctx
      | .error .. => []

/-- Those that the write of groups comes to. A group follows once the one before it is written. -/
def groupVisits (key : Key) : List (OwnedGroup PendingObject) → Row → Context → List Visit
  | [], _, _ => []
  | ⟨field, children⟩ :: groups, row, ctx =>
    match schema.ownedRelation row.kind field children.length with
    | .error _ => []
    | .ok kind =>
      allVisits key children ctx ++
        match writeAll schema key children ctx with
        | .ok keys ctx => groupVisits key groups (row.set field (reference kind keys)) ctx
        | .error .. => []

/-- Those that the write of a list of objects comes to. An object is registered first, and it
follows once the one before it is written. -/
def allVisits (parent : Key) : List PendingObject → Context → List Visit
  | [], _ => []
  | o :: os, ctx =>
    match Action.register o.handle parent ctx with
    | .error .. => []
    | .ok _ ctx =>
      visits o ctx ++
        match o.write schema ctx with
        | .ok _ ctx => allVisits parent os ctx
        | .error .. => []

end

variable {schema}

/-! ## One row -/

/-- Whether or not the row of an object is placed, the object has no parent any longer; it counts as
touched if it is. -/
theorem place_cases (handle : ObjectHandle) (row : Row) (ctx : Context) : ∃ store,
    (∃ e, place handle row ctx =
      .error e { ctx.withRegistry (ctx.registry.forget handle) with store }) ∨
    ∃ k, place handle row ctx = .ok k
      { ctx.withRegistry (ctx.registry.forget handle) with store, touched := ctx.touched + 1 } := by
  have ht : Action.takeParent handle ctx = .ok (ctx.registry.parent? handle)
      (ctx.withRegistry (ctx.registry.forget handle)) := rfl
  unfold place
  rw [bind_of_ok ht]
  cases adopt row (ctx.registry.parent? handle) with
  | error e => exact ⟨ctx.store, .inl ⟨e, rfl⟩⟩
  | ok row' =>
    rw [bind_of_ok (ofExcept_run ..)]
    obtain ⟨faults, -, ⟨e, -, he⟩ | ho⟩ := Action.put_run (.insertStore row'.kind) row'
      (ctx.withRegistry (ctx.registry.forget handle))
    · exact ⟨{ ctx.store with faults }, .inl ⟨_, bind_of_error he⟩⟩
    · exact ⟨({ ctx.store with faults } : Store).afterPut row', .inr ⟨_, bind_of_ok ho⟩⟩

/-- A row is marked while it is put once more, and stays so if that fails. -/
theorem refresh_cases (row : Row) (ctx : Context) : ∃ faults,
    (∃ error, refresh row ctx = .error (.refreshStore row.key error)
      { ctx.withRegistry (ctx.registry.mark row.key) with store := { ctx.store with faults } }) ∨
    refresh row ctx = .ok ()
      { ctx.withRegistry ((ctx.registry.mark row.key).unmark row.key) with
        store := ({ ctx.store with faults } : Store).afterPut row } := by
  have hm : Action.onRegistry (·.mark row.key) ctx = .ok ()
      (ctx.withRegistry (ctx.registry.mark row.key)) := rfl
  unfold refresh
  rw [bind_of_ok hm]
  obtain ⟨faults, -, ⟨e, -, he⟩ | ho⟩ := Action.put_run (.refreshStore row.key) row
    (ctx.withRegistry (ctx.registry.mark row.key))
  · exact ⟨faults, .inl ⟨e, bind_of_error he⟩⟩
  · exact ⟨faults, .inr (bind_of_ok ho)⟩

end PendingObject

/-! ## What visits leave -/

open PendingObject (writeGroups writeAll refresh)

variable {α β : Type} {schema : Schema}

/-- Of the parents that were recorded in the scope, those of the visited objects are gone. The
objects that were placed are counted, and nothing is reported. -/
structure Trail (visits : List Visit) (ctx ctx' : Context) : Prop where
  events : ctx'.events = ctx.events
  id : ctx'.registry.scope = ctx.registry.scope
  parent? : ∀ h, ctx'.registry.parent? h =
    if h ∈ visits.map (·.object.handle) then none else ctx.registry.parent? h
  touched : ctx'.touched = ctx.touched + visits.countP (·.key?.isSome)

namespace Trail

variable {xs ys : List Visit} {ctx c ctx' : Context}

theorem nil (ctx : Context) : Trail [] ctx ctx := ⟨rfl, rfl, fun _ => rfl, rfl⟩

theorem append (h : Trail xs ctx c) (h' : Trail ys c ctx') : Trail (xs ++ ys) ctx ctx' where
  events := h'.events.trans h.events
  id := h'.id.trans h.id
  parent? o := by
    rw [h'.parent?, h.parent?, List.map_append]
    by_cases hy : o ∈ ys.map (·.object.handle) <;> by_cases hx : o ∈ xs.map (·.object.handle) <;>
      simp [hx, hy]
  touched := by rw [h'.touched, h.touched, List.countP_append, Nat.add_assoc]

theorem place (v : Visit) : Trail [v] v.ctx (finalState v.place) := by
  have hid : (v.ctx.registry.forget v.object.handle).scope = v.ctx.registry.scope := by
    unfold KeyRegistry.forget
    split <;> rfl
  have hparent (h : ObjectHandle) : (v.ctx.registry.forget v.object.handle).parent? h =
      if h ∈ [v].map (·.object.handle) then none else v.ctx.registry.parent? h := by
    rw [KeyRegistry.parent?_forget]
    simp only [List.map_cons, List.map_nil, List.mem_singleton]
  obtain ⟨store, ⟨e, he⟩ | ⟨k, ho⟩⟩ := PendingObject.place_cases v.object.handle v.object.row v.ctx
  · have hk : v.key? = none := by rw [Visit.key?, Visit.place, he]; rfl
    rw [Visit.place, he]
    exact ⟨rfl, hid, hparent, by simp [hk, finalState, Context.withRegistry]⟩
  · have hk : v.key? = some k := by rw [Visit.key?, Visit.place, ho]; rfl
    rw [Visit.place, ho]
    exact ⟨rfl, hid, hparent, by simp [hk, finalState]⟩

theorem refresh (row : Row) (ctx : Context) : Trail [] ctx (finalState (refresh row ctx)) := by
  obtain ⟨faults, ⟨error, he⟩ | ho⟩ := PendingObject.refresh_cases row ctx
  · rw [he]
    exact ⟨rfl, rfl, fun _ => rfl, rfl⟩
  · rw [ho]
    exact ⟨rfl, rfl, fun _ => rfl, rfl⟩

/-- An object that was registered and then visited has no parent any longer. -/
theorem registered {registry : KeyRegistry} {object : ObjectHandle} {parent : Key}
    (hr : ctx.registry.register object parent = .ok registry)
    (h : Trail xs (ctx.withRegistry registry) ctx') (hmem : object ∈ xs.map (·.object.handle)) :
    Trail xs ctx ctx' where
  events := h.events
  id := h.id.trans (KeyRegistry.scope_of_register hr)
  parent? o := by
    rw [h.parent?]
    split
    · rfl
    · rename_i ho
      exact KeyRegistry.parent?_of_register_of_ne hr fun he => ho (he ▸ hmem)
  touched := h.touched

end Trail

/-- A row that is placed, or is not, keeps the marks. -/
theorem Visit.isMarked_place (v : Visit) (k : Key) :
    (finalState v.place).registry.isMarked k = v.ctx.registry.isMarked k := by
  obtain ⟨store, ⟨e, he⟩ | ⟨k', ho⟩⟩ := PendingObject.place_cases v.object.handle v.object.row v.ctx
  · rw [Visit.place, he]
    exact KeyRegistry.isMarked_forget ..
  · rw [Visit.place, ho]
    exact KeyRegistry.isMarked_forget ..

/-- The write of an object ended when its row was put once more, with the keys of the objects that
it owns, all of which had been written. -/
def Visit.EndsAtRefresh (schema : Schema) (v : Visit) (k : Key) (e : Failure) (ctx' : Context) :
    Prop :=
  v.object.owned ≠ [] ∧ ∃ c₁ row c₂, v.place = .ok k c₁ ∧
    writeGroups schema k v.object.owned ⟨k, v.object.row.properties⟩ c₁ = .ok row c₂ ∧
    refresh row c₂ = .error e ctx'

/-- What a run that was to write `objects` leaves in its scope, once it came to the objects of the
visits. -/
structure Visited (schema : Schema) (visits : List Visit) (objects : List PendingObject)
    (ctx : Context) (r : EStateM.Result Failure Context α) : Prop where
  trail : Trail visits ctx (finalState r)
  reached : visits.map (·.object) <+: objects
  of_ok : ∀ {a ctx'}, r = .ok a ctx' → visits.map (·.object) = objects ∧
    ∀ k, ctx'.registry.isMarked k ↔
      ctx.registry.isMarked k ∧ ∀ v ∈ visits, v.object.owned ≠ [] → v.key? ≠ some k
  of_error : ∀ {e ctx'}, r = .error e ctx' → ∀ k, ctx'.registry.isMarked k →
    ctx.registry.isMarked k ∨ ∃ v ∈ visits, v.EndsAtRefresh schema k e ctx'

namespace Visited

variable {xs ys : List Visit} {os ps : List PendingObject} {ctx c : Context}

theorem done (a : α) (ctx : Context) : Visited schema [] [] ctx (.ok a ctx) where
  trail := .nil ctx
  reached := List.prefix_rfl
  of_ok h := by
    cases h
    exact ⟨rfl, fun k => by simp⟩
  of_error h := by cases h

theorem fail (objects : List PendingObject) (e : Failure) (ctx : Context) :
    Visited schema [] objects ctx (.error e ctx : EStateM.Result Failure Context α) where
  trail := .nil ctx
  reached := List.nil_prefix
  of_ok h := by cases h
  of_error h := by
    cases h
    exact fun k hk => .inl hk

/-- The objects that are written next are visited next. -/
theorem andThen {a : α} {r : EStateM.Result Failure Context β}
    (h : Visited schema xs os ctx (.ok a c)) (h' : Visited schema ys ps c r) :
    Visited schema (xs ++ ys) (os ++ ps) ctx r where
  trail := h.trail.append h'.trail
  reached := by
    rw [List.map_append, (h.of_ok rfl).1]
    exact (List.prefix_append_right_inj _).2 h'.reached
  of_ok hr := by
    obtain ⟨hobjects, hmarks⟩ := h.of_ok rfl
    obtain ⟨hobjects', hmarks'⟩ := h'.of_ok hr
    refine ⟨by rw [List.map_append, hobjects, hobjects'], fun k => ?_⟩
    rw [hmarks', hmarks, List.forall_mem_append, and_assoc]
  of_error hr k hk := by
    rcases h'.of_error hr k hk with hk | ⟨v, hv, he⟩
    · exact .inl (((h.of_ok rfl).2 k).1 hk).1
    · exact .inr ⟨v, List.mem_append_right _ hv, he⟩

/-- The objects after a failure are not visited. -/
theorem stop {e : Failure} (h : Visited schema xs os ctx (.error e c : EStateM.Result _ _ α))
    (ps : List PendingObject) :
    Visited schema xs (os ++ ps) ctx (.error e c : EStateM.Result _ _ β) where
  trail := h.trail
  reached := h.reached.trans (List.prefix_append ..)
  of_ok hr := by cases hr
  of_error hr := by
    cases hr
    exact h.of_error rfl

/-- What is answered does not matter. -/
theorem answer {x : Action α} (h : Visited schema xs os ctx (x c)) (f : α → β) :
    Visited schema xs os ctx ((x >>= fun a => pure (f a)) c) := by
  cases hx : x c with
  | ok a c' =>
    rw [hx] at h
    rw [bind_of_ok hx]
    exact ⟨h.trail, h.reached, fun hr => by cases hr; exact h.of_ok rfl, fun hr => by cases hr⟩
  | error e c' =>
    rw [hx] at h
    rw [bind_of_error hx]
    exact List.append_nil os ▸ h.stop []

theorem registered {registry : KeyRegistry} {object : ObjectHandle} {parent : Key}
    {r : EStateM.Result Failure Context α} (hr : ctx.registry.register object parent = .ok registry)
    (h : Visited schema xs os (ctx.withRegistry registry) r)
    (hmem : object ∈ xs.map (·.object.handle)) : Visited schema xs os ctx r where
  trail := h.trail.registered hr hmem
  reached := h.reached
  of_ok ho := by
    refine ⟨(h.of_ok ho).1, fun k => ?_⟩
    rw [(h.of_ok ho).2 k, ← KeyRegistry.isMarked_of_register hr]
    rfl
  of_error he k hk := by
    rw [← KeyRegistry.isMarked_of_register hr]
    exact h.of_error he k hk

end Visited

namespace PendingObject

/-! ## Whole graphs -/

theorem objects_eq (o : PendingObject) : o.objects = o :: groupObjects o.owned := by
  obtain ⟨handle, row, owned⟩ := o
  rw [objects]
  rfl

variable {v : Visit} {c : Context}

theorem write_of_place_error {e : Failure} (hp : v.place = .error e c) :
    v.object.write schema v.ctx = .error e c := by
  obtain ⟨⟨handle, row, owned⟩, ctx⟩ := v
  rw [write]
  exact bind_of_error hp

theorem write_of_place_ok {k : Key} (hp : v.place = .ok k c) :
    v.object.write schema v.ctx =
      if v.object.owned.isEmpty then .ok k c
      else (do
        let row ← writeGroups schema k v.object.owned ⟨k, v.object.row.properties⟩
        refresh row
        return k : Action Key) c := by
  obtain ⟨⟨handle, row, owned⟩, ctx⟩ := v
  rw [write]
  refine (bind_of_ok hp).trans ?_
  change _ = if owned.isEmpty then _ else _
  split <;> rfl

theorem visits_of_place_error {e : Failure} (hp : v.place = .error e c) :
    v.object.visits schema v.ctx = [v] := by
  obtain ⟨⟨handle, row, owned⟩, ctx⟩ := v
  have hp : place handle row ctx = .error e c := hp
  simp only [visits, hp]

theorem visits_of_place_ok {k : Key} (hp : v.place = .ok k c) :
    v.object.visits schema v.ctx =
      v :: groupVisits schema k v.object.owned ⟨k, v.object.row.properties⟩ c := by
  obtain ⟨⟨handle, row, owned⟩, ctx⟩ := v
  have hp : place handle row ctx = .ok k c := hp
  simp only [visits, hp]
  rfl

/-- An object that is not placed. -/
theorem visited_unplaced {e : Failure} (hp : v.place = .error e c) :
    Visited schema [v] v.object.objects v.ctx (.error e c : EStateM.Result _ _ Key) where
  trail := by
    have h := Trail.place v
    rw [hp] at h
    exact h
  reached := by
    rw [objects_eq]
    exact List.prefix_append [_] _
  of_ok h := by cases h
  of_error h k hk := by
    cases h
    refine .inl ?_
    rw [← v.isMarked_place, hp]
    exact hk

section Placed

variable {k : Key} (hp : v.place = .ok k c)
include hp

theorem trail_placed : Trail [v] v.ctx c := by
  have h := Trail.place v
  rw [hp] at h
  exact h

theorem isMarked_placed (k' : Key) : c.registry.isMarked k' = v.ctx.registry.isMarked k' := by
  have h := v.isMarked_place k'
  rw [hp] at h
  exact h

theorem key?_placed : v.key? = some k := by
  rw [Visit.key?, hp]
  rfl

/-- An object that owns none is written once it is placed. -/
theorem visited_leaf (ho : v.object.owned = []) :
    Visited schema [v] v.object.objects v.ctx (.ok k c : EStateM.Result _ _ Key) where
  trail := trail_placed hp
  reached := by
    rw [objects_eq]
    exact List.prefix_append [_] _
  of_ok h := by
    cases h
    refine ⟨by rw [objects_eq, ho]; rfl, fun k' => ?_⟩
    simp [isMarked_placed hp, ho]
  of_error h := by cases h

/-- An object that owns others is written once they are and its row is put once more. -/
theorem visited_owner {xs : List Visit} (ho : v.object.owned ≠ [])
    (hg : Visited schema xs (groupObjects v.object.owned) c
      (writeGroups schema k v.object.owned ⟨k, v.object.row.properties⟩ c)) :
    Visited schema (v :: xs) v.object.objects v.ctx
      ((do
        let row ← writeGroups schema k v.object.owned ⟨k, v.object.row.properties⟩
        refresh row
        return k : Action Key) c) := by
  have hreached : (v :: xs).map (·.object) <+: v.object.objects := by
    rw [objects_eq, List.map_cons]
    exact List.cons_prefix_cons.2 ⟨rfl, hg.reached⟩
  have htrail := (trail_placed hp).append hg.trail
  cases hw : writeGroups schema k v.object.owned ⟨k, v.object.row.properties⟩ c with
  | error e c₁ =>
    rw [hw] at hg htrail
    rw [bind_of_error hw]
    refine ⟨htrail, hreached, nofun, fun h k' hk => ?_⟩
    cases h
    rcases hg.of_error rfl k' hk with hk | ⟨x, hx, he⟩
    · exact .inl (isMarked_placed hp k' ▸ hk)
    · exact .inr ⟨x, List.mem_cons_of_mem _ hx, he⟩
  | ok row c₁ =>
    rw [hw] at hg htrail
    obtain ⟨hobjects, hmarks⟩ := hg.of_ok rfl
    have hkey : row.key = k := key_of_writeGroups hw
    have htrail' := htrail.append (.refresh row c₁)
    rw [List.append_nil] at htrail'
    rw [bind_of_ok hw]
    obtain ⟨faults, ⟨error, he⟩ | hr⟩ := refresh_cases row c₁
    · rw [he] at htrail'
      rw [bind_of_error he]
      refine ⟨htrail', hreached, nofun, fun h k' hk => ?_⟩
      cases h
      rcases (KeyRegistry.isMarked_mark ..).1 hk with rfl | hk
      · exact .inr ⟨v, List.mem_cons_self, ho, c, row, c₁, hkey ▸ hp, hkey ▸ hw, he⟩
      · exact .inl (isMarked_placed hp k' ▸ ((hmarks k').1 hk).1)
    · rw [hr] at htrail'
      rw [bind_of_ok hr]
      refine ⟨htrail', hreached, fun h => ?_, nofun⟩
      cases h
      refine ⟨by rw [objects_eq, List.map_cons, hobjects], fun k' => ?_⟩
      refine (KeyRegistry.isMarked_unmark_mark ..).trans ?_
      rw [hkey, List.forall_mem_cons, key?_placed hp, ← isMarked_placed hp]
      simp only [ne_eq, ho, not_false_eq_true, Option.some.injEq, forall_const, eq_comm (a := k)]
      rw [show c₁.registry.isMarked k' ↔ _ from hmarks k']
      exact ⟨fun ⟨⟨hm, hx⟩, hne⟩ => ⟨hm, hne, hx⟩, fun ⟨hm, hne, hx⟩ => ⟨⟨hm, hx⟩, hne⟩⟩

end Placed

theorem handle_mem_visits (o : PendingObject) (ctx : Context) :
    o.handle ∈ (o.visits schema ctx).map (·.object.handle) := by
  obtain ⟨handle, row, owned⟩ := o
  rw [visits]
  exact List.mem_cons_self

-- By induction on the graph, with what the run has made of the context so far.
mutual

/-- What the write of a graph leaves in its scope is told by the objects that it came to. -/
theorem visited_write : ∀ (o : PendingObject) (ctx : Context),
    Visited schema (o.visits schema ctx) o.objects ctx (o.write schema ctx)
  | mk handle row owned, ctx => by
    let v : Visit := ⟨mk handle row owned, ctx⟩
    show Visited schema (v.object.visits schema v.ctx) v.object.objects v.ctx
      (v.object.write schema v.ctx)
    cases hp : v.place with
    | error e c =>
      rw [visits_of_place_error hp, write_of_place_error hp]
      exact visited_unplaced hp
    | ok k c =>
      rw [visits_of_place_ok hp, write_of_place_ok hp]
      split
      · rename_i ho
        have ho : v.object.owned = [] := List.isEmpty_iff.1 ho
        rw [ho, groupVisits]
        exact visited_leaf hp ho
      · rename_i ho
        exact visited_owner hp (fun h => ho (List.isEmpty_iff.2 h))
          (visited_writeGroups k owned _ c)

theorem visited_writeGroups (key : Key) : ∀ (groups : List (OwnedGroup PendingObject)) (row : Row)
    (ctx : Context), Visited schema (groupVisits schema key groups row ctx) (groupObjects groups)
      ctx (writeGroups schema key groups row ctx)
  | [], row, ctx => by
    rw [groupVisits, groupObjects, writeGroups]
    exact .done row ctx
  | ⟨field, children⟩ :: groups, row, ctx => by
    rw [groupVisits, groupObjects, writeGroups]
    cases hr : schema.ownedRelation row.kind field children.length with
    | error e => exact .fail _ e ctx
    | ok kind =>
      have ha := visited_writeAll key children ctx
      rw [bind_of_ok (ofExcept_run ..)]
      cases hw : writeAll schema key children ctx with
      | error e c =>
        rw [hw] at ha
        rw [bind_of_error hw]
        simpa using ha.stop _
      | ok keys c =>
        rw [hw] at ha
        rw [bind_of_ok hw]
        exact ha.andThen (visited_writeGroups key groups _ c)

theorem visited_writeAll (parent : Key) : ∀ (os : List PendingObject) (ctx : Context),
    Visited schema (allVisits schema parent os ctx) (allObjects os) ctx
      (writeAll schema parent os ctx)
  | [], ctx => by
    rw [allVisits, allObjects, writeAll]
    exact .done [] ctx
  | o :: os, ctx => by
    rw [allVisits, allObjects, writeAll]
    cases hr : ctx.scope.registry.register o.handle parent with
    | error e =>
      have hrun : Action.register o.handle parent ctx = .error e ctx := by
        rw [Action.register_run, hr]
      rw [bind_of_error hrun, hrun]
      exact .fail _ e ctx
    | ok registry =>
      have hrun : Action.register o.handle parent ctx = .ok () (ctx.withRegistry registry) := by
        rw [Action.register_run, hr]
        rfl
      have ho := visited_write o (ctx.withRegistry registry)
      rw [bind_of_ok hrun, hrun]
      refine .registered hr ?_ ?_
      · cases hw : o.write schema (ctx.withRegistry registry) with
        | error e c =>
          rw [hw] at ho
          rw [bind_of_error hw]
          simpa only [hw, List.append_nil] using ho.stop (allObjects os)
        | ok k c =>
          rw [hw] at ho
          rw [bind_of_ok hw]
          simpa only [hw] using ho.andThen ((visited_writeAll parent os c).answer (k :: ·))
      · rw [List.map_append]
        exact List.mem_append_left _ (handle_mem_visits o _)

end

/-! ## Inserts -/

/-- The objects that an insert comes to: none if the graph does not fit the schema. -/
def reached (schema : Schema) (o : PendingObject) (ctx : Context) : List Visit :=
  match o.check schema with
  | .ok _ => o.visits schema (o.begun ctx)
  | .error _ => []

/-- An insert that passes the check is its write, between two events. -/
theorem insert_run {o : PendingObject} (h : o.check schema = .ok ()) (ctx : Context) :
    o.insert schema ctx = match o.write schema (o.begun ctx) with
      | .ok k c => .ok k (c.emit (.finished .insert o.kind c.touched))
      | .error e c => .error e (c.emit (.finished .insert o.kind c.touched)) := by
  unfold insert
  rw [h, bind_of_ok (ofExcept_run ..)]
  cases hw : o.write schema (o.begun ctx) with
  | ok k c => exact Action.counted_of_ok hw
  | error e c => exact Action.counted_of_error hw

end PendingObject
end EntityGraph
