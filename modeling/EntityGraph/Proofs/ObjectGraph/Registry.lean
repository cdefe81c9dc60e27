import EntityGraph.Proofs.ObjectGraph.References
import EntityGraph.Proofs.ObjectGraph.Visits

/-!
# What an insert leaves in the registry

An insert records a parent for every object that it is about to write under one, and takes it back
when it comes to the object; it marks an object while its row is put once more. So nothing is left
of it, even if it fails, but one mark: that of an object whose row could not be put once more.

* `WrittenObject.depth_lt`: the keys of the objects under an object are longer than its own;
* `Visit.Unreferred`, `Visit.unreferred_of_endsAtRefresh`: an object whose row was left without the
  keys of those that it owns;
* `PendingObject.insert_leavesRegistry`: what becomes of the registry.
-/

namespace EntityGraph

theorem Key.length_path_of_parent {k a : Key} (h : k.parent = some a) :
    k.path.length = a.path.length + 1 := by
  unfold parent at h
  split at h
  · cases h
  · cases h
    have := List.length_pos_iff.2 k.wellFormed.nonempty
    show _ = k.path.dropLast.length + 1
    rw [List.length_dropLast]
    omega

namespace WrittenObject

/-- Every object is under the key of its owner. -/
def Nested (w : WrittenObject) : Prop :=
  ∀ x ∈ w.objects, ∀ c ∈ x.children, c.key.parent = some x.key

theorem Nested.child {w c : WrittenObject} (h : w.Nested) (hc : c ∈ w.children) : c.Nested :=
  fun x hx => h x (mem_objects_of_child hc hx)

theorem Nested.length_child {w c : WrittenObject} (h : w.Nested) (hc : c ∈ w.children) :
    c.key.path.length = w.key.path.length + 1 :=
  Key.length_path_of_parent (h w (mem_objects_self w) c hc)

/-- The objects under an object have longer keys. -/
theorem Nested.length_lt {w : WrittenObject} (h : w.Nested) :
    ∀ x ∈ w.objects, x = w ∨ w.key.path.length < x.key.path.length := by
  induction w using induct with
  | h w ih =>
    intro x hx
    rw [objects_eq] at hx
    rcases List.mem_cons.1 hx with rfl | hx
    · exact .inl rfl
    · obtain ⟨c, hc, hx⟩ := List.mem_flatMap.1 hx
      have hlen := h.length_child hc
      rcases ih c hc (h.child hc) x hx with rfl | hlt
      · exact .inr (by omega)
      · exact .inr (by omega)

/-- What is put for the objects under an object leaves its row alone. -/
theorem Nested.lastPut_self {w : WrittenObject} (h : w.Nested) (old : Option Row) :
    lastPut w.key old (w.children.flatMap puts) = old := by
  rcases leaves_flatMap (fun c _ => leaves_puts w.key c) old with ⟨x, hx, hk, -⟩ | ⟨-, hold⟩
  · obtain ⟨c, hc, hx⟩ := List.mem_flatMap.1 hx
    have hlen := h.length_child hc
    rcases (h.child hc).length_lt x hx with rfl | hlt
    · rw [hk] at hlen
      omega
    · rw [hk] at hlt
      omega
  · exact hold

/-- What is put for the objects under an object leaves those that it owns with their rows. -/
theorem Nested.lastPut_child {w c : WrittenObject} (h : w.Nested) (hc : c ∈ w.children)
    (old : Option Row) : ∃ c' ∈ w.children, c'.key = c.key ∧
      lastPut c.key old (w.children.flatMap puts) = some c'.stored := by
  rcases leaves_flatMap (fun c' _ => leaves_puts c.key c') old with ⟨x, hx, hk, hrow⟩ | ⟨hne, -⟩
  · obtain ⟨c', hc', hx⟩ := List.mem_flatMap.1 hx
    have hlen := h.length_child hc
    have hlen' := h.length_child hc'
    rcases (h.child hc').length_lt x hx with rfl | hlt
    · exact ⟨x, hc', hk, hrow⟩
    · rw [hk] at hlt
      omega
  · exact absurd rfl (hne c (List.mem_flatMap.2 ⟨c, hc, mem_objects_self c⟩))

end WrittenObject

theorem Wrote.of_faults {schema : Schema} {s s' : Store} {objects : List WrittenObject}
    {puts : List Row} (h : Wrote schema s s' objects puts) (faults : List Fault) :
    Wrote schema s { s' with faults } objects puts :=
  ⟨h.fits, h.row?, h.log, h.numbers⟩

/-- An object and those that it owns are stored, but a failure of the store kept their keys out of
its row. -/
structure Visit.Unreferred (schema : Schema) (v : Visit) (k : Key) (e : Failure) (s : Store) :
    Prop where
  placed : v.key? = some k
  failure : ∃ error, e = .refreshStore k error
  row : s.row? k = some ⟨k, v.object.row.properties⟩
  children : ∃ w : WrittenObject, w.pending = v.object ∧ w.key = k ∧
    Wrote schema v.ctx.store s w.objects
      (⟨k, v.object.row.properties⟩ :: w.children.flatMap (·.puts)) ∧
    ∀ c ∈ w.children, ∃ c' ∈ w.children, c'.key = c.key ∧ s.row? c.key = some c'.stored

open PendingObject
open WrittenObject (lastPut)

variable {schema : Schema}

/-- A write that ends when the row of an object is put once more leaves the object and those that it
owns stored. -/
theorem Visit.unreferred_of_endsAtRefresh {v : Visit} {k : Key} {e : Failure} {ctx' : Context}
    (h : v.EndsAtRefresh schema k e ctx') : v.Unreferred schema k e ctx'.store := by
  obtain ⟨⟨handle, row, owned⟩, ctx⟩ := v
  obtain ⟨-, c₁, row', c₂, hp, hg, hr⟩ := h
  have hg : writeGroups schema k owned ⟨k, row.properties⟩ c₁ = .ok row' c₂ := hg
  obtain ⟨hk, hkind, -⟩ := key_of_place hp
  obtain ⟨gs, rfl, rfl, hrel, hpar, hw⟩ := wrote_writeGroups owned hg
  let w := WrittenObject.mk k handle row gs
  have hwrote : Wrote schema ctx.store c₂.store w.objects
      (⟨k, row.properties⟩ :: w.children.flatMap (·.puts)) := by
    have h := (wrote_place hp gs ⟨hk, hkind, hrel, hpar⟩).append hw
    rw [WrittenObject.groupPuts_eq] at h
    exact h
  have hnested : w.Nested := fun x hx => (hwrote.fits x hx).parent
  have hkey : (WrittenObject.refer ⟨k, row.properties⟩ gs).key = k := WrittenObject.key_refer ..
  obtain ⟨faults, ⟨error, he⟩ | ho⟩ := refresh_cases (WrittenObject.refer ⟨k, row.properties⟩ gs) c₂
  · rw [he] at hr
    cases hr
    refine ⟨key?_placed hp, ⟨error, by rw [hkey]⟩, ?_, w, rfl, rfl, hwrote.of_faults faults, ?_⟩
    · refine (hwrote.row? k).trans ?_
      show lastPut k (if k = k then some _ else _) _ = _
      rw [if_pos rfl]
      exact hnested.lastPut_self _
    · intro c hc
      obtain ⟨c', hc', hk', hrow⟩ := hnested.lastPut_child hc
        (lastPut c.key (ctx.store.row? c.key) [⟨k, row.properties⟩])
      exact ⟨c', hc', hk', (hwrote.row? c.key).trans hrow⟩
  · rw [ho] at hr
    cases hr

namespace PendingObject

/-- What an insert leaves in the registry of its scope, whatever is in the scope and the store and
whatever faults are due. -/
structure LeavesRegistry (schema : Schema) (o : PendingObject) (ctx : Context) : Prop where
  scope : (finalState (o.insert schema ctx)).registry.scope = ctx.registry.scope
  /-- No parent is recorded that was not before, and those of the objects that the insert came to
  are gone. -/
  parent? : ∀ h, (finalState (o.insert schema ctx)).registry.parent? h =
    if h ∈ (o.reached schema ctx).map (·.object.handle) then none else ctx.registry.parent? h
  /-- The insert comes to the objects of the graph in turn. -/
  initial : (o.reached schema ctx).map (·.object) <+: o.objects
  /-- If it succeeds, it came to all of them, and those that own others are not marked. -/
  of_ok : ∀ {key ctx'}, o.insert schema ctx = .ok key ctx' →
    (o.reached schema ctx).map (·.object) = o.objects ∧
      ∀ k, ctx'.registry.isMarked k ↔ ctx.registry.isMarked k ∧
        ∀ v ∈ o.reached schema ctx, v.object.owned ≠ [] → v.key? ≠ some k
  /-- If it fails, it marked one object at most, and its row could not be put once more. -/
  of_error : ∀ {e ctx'}, o.insert schema ctx = .error e ctx' →
    (∀ k, ctx'.registry.isMarked k → ctx.registry.isMarked k) ∨
      ∃ k, (∀ k', ctx'.registry.isMarked k' → ctx.registry.isMarked k' ∨ k' = k) ∧
        ∃ v ∈ o.reached schema ctx, v.Unreferred schema k e ctx'.store

/-- The marks that a write adds are one at most. -/
theorem marked_of_error {visits : List Visit} {objects : List PendingObject} {ctx c : Context}
    {e : Failure} {α : Type}
    (h : Visited schema visits objects ctx (.error e c : EStateM.Result Failure Context α)) :
    (∀ k, c.registry.isMarked k → ctx.registry.isMarked k) ∨
      ∃ k, (∀ k', c.registry.isMarked k' → ctx.registry.isMarked k' ∨ k' = k) ∧
        ∃ v ∈ visits, v.Unreferred schema k e c.store := by
  by_cases hnew : ∃ k, c.registry.isMarked k ∧ ¬ctx.registry.isMarked k
  · obtain ⟨k, hk, hold⟩ := hnew
    obtain ⟨v, hv, he⟩ := (h.of_error rfl k hk).resolve_left hold
    have hu := Visit.unreferred_of_endsAtRefresh he
    refine .inr ⟨k, fun k' hk' => ?_, v, hv, hu⟩
    rcases h.of_error rfl k' hk' with hold' | ⟨v', -, he'⟩
    · exact .inl hold'
    · -- The failure names the object whose row could not be put.
      obtain ⟨error, rfl⟩ := hu.failure
      obtain ⟨error', herror⟩ := (Visit.unreferred_of_endsAtRefresh he').failure
      cases herror
      exact .inr rfl
  · refine .inl fun k hk => ?_
    by_cases hold : ctx.registry.isMarked k
    · exact hold
    · exact absurd ⟨k, hk, hold⟩ hnew

/-- An insert leaves the registry as it was, but for the parents of the objects that it came to, the
marks of those that it wrote, and the mark of one whose row could not be put once more. -/
theorem insert_leavesRegistry (schema : Schema) (o : PendingObject) (ctx : Context) :
    LeavesRegistry schema o ctx := by
  cases hc : o.check schema with
  | error e =>
    have hr : o.reached schema ctx = [] := by rw [reached, hc]
    have hi := insert_of_check_error hc ctx
    exact {
      scope := by rw [hi]; rfl
      parent? := fun h => by rw [hi, hr]; rfl
      initial := by rw [hr]; exact List.nil_prefix
      of_ok := fun h => by rw [hi] at h; cases h
      of_error := fun h => by
        rw [hi] at h
        cases h
        exact .inl fun _ hk => hk }
  | ok =>
    have hr : o.reached schema ctx = o.visits schema (o.begun ctx) := by rw [reached, hc]
    have hi := insert_run hc ctx
    have hv : Visited schema _ o.objects _ (o.write schema (o.begun ctx)) :=
      visited_write o (o.begun ctx)
    rw [← hr] at hv
    cases hw : o.write schema (o.begun ctx) with
    | ok k c =>
      rw [hw] at hi hv
      exact {
        scope := by rw [hi]; exact hv.trail.id
        parent? := by rw [hi]; exact hv.trail.parent?
        initial := hv.reached
        of_ok := fun h => by
          rw [hi] at h
          cases h
          obtain ⟨hobjects, hmarks⟩ := hv.of_ok rfl
          exact ⟨hobjects, hmarks⟩
        of_error := fun h => by rw [hi] at h; cases h }
    | error e c =>
      rw [hw] at hi hv
      exact {
        scope := by rw [hi]; exact hv.trail.id
        parent? := by rw [hi]; exact hv.trail.parent?
        initial := hv.reached
        of_ok := fun h => by rw [hi] at h; cases h
        of_error := fun h => by
          rw [hi] at h
          cases h
          have hmarked := marked_of_error hv
          exact hmarked }

/-- A person whose row cannot be put once more stays marked, and no parent is recorded any longer;
both rows are stored. -/
example :
    let store := ({} : Store).inject ⟨.put, 2, .timeout "lost"⟩
    let ctx := finalState ((petOwner [[newPet 1]]).insert petSchema { emptyStore with store })
    ctx.registry.marked = ctx.store.rows.head?.toList.map (·.key) ∧ ctx.registry.size = 0 ∧
      ctx.store.rows.map (·.kind) = ["Person", "Pet"] := by
  decide +kernel

end PendingObject
end EntityGraph
