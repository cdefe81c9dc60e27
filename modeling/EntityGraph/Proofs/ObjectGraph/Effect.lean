import EntityGraph.Proofs.ObjectGraph.Writing
import EntityGraph.Proofs.ObjectGraph.WrittenGraph

/-!
# What a write does to the store

A write that succeeds gives every object of a graph a key, and it puts the rows of the graph that
was written. It does nothing else to the rows, the log and the numbers of the store.

* `WrittenObject.Fits`: what a key and the objects that are owned have to do with each other;
* `GivesNumbers`: the numbers that open keys get;
* `Wrote`: what has become of the store, by objects written one after the other (`Wrote.append`);
* `PendingObject.wrote_write`: a write leaves the store so.
-/

namespace EntityGraph

/-! ## Keys -/

namespace Key

theorem parent_congr {k k' : Key} (h : k.ancestorPath = k'.ancestorPath) :
    k.parent = k'.parent := by
  simp only [parent, h]

@[simp] theorem parent_assign (k : Key) (n : UInt64) : (k.assign n).parent = k.parent :=
  parent_congr (List.dropLast_concat ..)

@[simp] theorem parent_extend (k : Key) (hk : k.isComplete) (e : PathElement) (h : e.Valid) :
    (k.extend hk e h).parent = some k := by
  have hp : (k.extend hk e h).ancestorPath = k.path := List.dropLast_concat ..
  simp [parent, hp, k.wellFormed.nonempty]

theorem parent_of_pending? {kind : String} {p k : Key} (h : pending? kind (some p) = .ok k) :
    k.parent = some p := by
  simp only [pending?, extend?] at h
  split at h
  · obtain ⟨e, -, hk⟩ := bind_eq_ok.1 h
    cases hk
    exact parent_extend ..
  · cases h

end Key

theorem Store.parent_keyFor (s : Store) (r : Row) : (s.keyFor r).parent = r.key.parent := by
  unfold keyFor
  split
  · rfl
  · exact Key.parent_assign ..

/-- An object is taken up under the parent recorded for it, or stays where it is. -/
theorem PendingObject.parent_of_adopt {row row' : Row} {parent : Option Key}
    (h : adopt row parent = .ok row') : row'.key.parent = parent.or row.key.parent := by
  cases parent with
  | none =>
    cases h
    rfl
  | some p =>
    by_cases hc : row.key.isComplete
    · obtain ⟨rfl, hp⟩ := (of_adopt_eq_ok h).2.1 hc
      exact hp p rfl
    · simp only [adopt, hc, Bool.false_eq_true, if_false] at h
      split at h
      · rename_i k hk
        cases h
        exact Key.parent_of_pending? hk
      · cases h

theorem PendingObject.properties_of_adopt {row row' : Row} {parent : Option Key}
    (h : adopt row parent = .ok row') : row'.properties = row.properties := by
  unfold adopt at h
  repeat' split at h
  all_goals cases h
  all_goals rfl

/-! ## Stores -/

/-- The numbers from the last one on go to the objects with open keys, one after the other. -/
inductive GivesNumbers : UInt64 → List WrittenObject → UInt64 → Prop
  | nil {n : UInt64} : GivesNumbers n [] n
  | kept {n n' : UInt64} {x : WrittenObject} {xs : List WrittenObject}
    (h : x.row.key.isComplete) (hk : x.key = x.row.key) (hs : GivesNumbers n xs n') :
    GivesNumbers n (x :: xs) n'
  | given {n n' : UInt64} {x : WrittenObject} {xs : List WrittenObject}
    (h : ¬x.row.key.isComplete) (hk : x.key.id = some (.number (n + 1)))
    (hs : GivesNumbers (n + 1) xs n') : GivesNumbers n (x :: xs) n'

theorem GivesNumbers.append {n₁ n₂ n₃ : UInt64} {xs ys : List WrittenObject}
    (h : GivesNumbers n₁ xs n₂) (h' : GivesNumbers n₂ ys n₃) :
    GivesNumbers n₁ (xs ++ ys) n₃ := by
  induction h with
  | nil => exact h'
  | kept hc hk _ ih => exact .kept hc hk (ih h')
  | given hc hk _ ih => exact .given hc hk (ih h')

namespace WrittenObject

/-- An object was written under a complete key of its kind, the groups that it owns were written
through owned relations of that kind, and the objects in them under its key. -/
structure Fits (schema : Schema) (x : WrittenObject) : Prop where
  complete : x.key.isComplete
  kind : x.key.kind = x.row.kind
  relation : ∀ g ∈ x.owned,
    schema.ownedRelation x.key.kind g.field g.children.length = .ok g.kind
  parent : ∀ c ∈ x.children, c.key.parent = some x.key

end WrittenObject

/-- What has become of a store, once objects were written and rows put for them. -/
structure Wrote (schema : Schema) (s s' : Store) (objects : List WrittenObject) (puts : List Row) :
    Prop where
  fits : ∀ x ∈ objects, x.Fits schema
  row? : ∀ k, s'.row? k = WrittenObject.lastPut k (s.row? k) puts
  log : s'.log = s.log ++ puts.map (.put ·.key)
  numbers : GivesNumbers s.lastNumber objects s'.lastNumber

namespace Wrote

variable {schema : Schema}

theorem nil (s : Store) : Wrote schema s s [] [] where
  fits _ hx := absurd hx List.not_mem_nil
  row? _ := rfl
  log := (List.append_nil _).symm
  numbers := .nil

theorem append {s₁ s₂ s₃ : Store} {xs ys : List WrittenObject} {ps qs : List Row}
    (h : Wrote schema s₁ s₂ xs ps) (h' : Wrote schema s₂ s₃ ys qs) :
    Wrote schema s₁ s₃ (xs ++ ys) (ps ++ qs) where
  fits x hx := (List.mem_append.1 hx).elim (h.fits x) (h'.fits x)
  row? k := by rw [h'.row?, h.row?, WrittenObject.lastPut_append]
  log := by rw [h'.log, h.log, List.map_append, List.append_assoc]
  numbers := h.numbers.append h'.numbers

end Wrote

theorem Store.row?_afterPut (s : Store) (r : Row) (k : Key) : (s.afterPut r).row? k =
    WrittenObject.lastPut k (s.row? k) [⟨s.keyFor r, r.properties⟩] := by
  rw [WrittenObject.lastPut_singleton]
  simp only [eq_comm (b := k)]
  exact RowTable.row?_put _ _ _ (s.isComplete_keyFor r) _

namespace PendingObject

variable {schema : Schema}

theorem wrote_place {handle : ObjectHandle} {row : Row} {ctx ctx' : Context} {k : Key}
    (h : place handle row ctx = .ok k ctx') (owned : List (WrittenGroup WrittenObject))
    (hf : (WrittenObject.mk k handle row owned).Fits schema) :
    Wrote schema ctx.store ctx'.store [.mk k handle row owned] [⟨k, row.properties⟩] := by
  obtain ⟨row', faults, ha, rfl, hs, -⟩ := of_place_eq_ok h
  obtain ⟨-, hkept, hopen⟩ := of_adopt_eq_ok ha
  rw [hs]
  refine ⟨fun x hx => List.mem_singleton.1 hx ▸ hf, fun k' => ?_, rfl, ?_⟩
  · rw [← properties_of_adopt ha]
    exact Store.row?_afterPut { ctx.store with faults } row' k'
  · rw [Store.lastNumber_afterPut]
    by_cases hc : row.key.isComplete
    · obtain ⟨rfl, -⟩ := hkept hc
      rw [if_pos hc]
      exact .kept hc (Store.keyFor_of_isComplete hc) .nil
    · rw [if_neg (hopen hc)]
      refine .given hc ?_ .nil
      rw [WrittenObject.key, Store.keyFor_of_not_isComplete (hopen hc), Key.id_assign]
      rfl

theorem wrote_refresh {row : Row} {ctx ctx' : Context} {u : Unit} (hk : row.key.isComplete)
    (h : refresh row ctx = .ok u ctx') : Wrote schema ctx.store ctx'.store [] [row] := by
  obtain ⟨faults, hs, -⟩ := of_refresh_eq_ok h
  have hkey : Store.keyFor { ctx.store with faults } row = row.key := Store.keyFor_of_isComplete hk
  rw [hs]
  refine ⟨fun x hx => absurd hx List.not_mem_nil, fun k => ?_, ?_, ?_⟩
  · rw [Store.row?_afterPut, hkey]
    rfl
  · exact congrArg (fun k => ctx.store.log ++ [.put k]) hkey
  · rw [Store.lastNumber_afterPut, if_pos hk]
    exact .nil

/-- The parent that an object is written under. -/
def destination (o : PendingObject) (ctx : Context) : Option Key :=
  (ctx.scope.registry.parent? o.handle).or o.row.key.parent

theorem parent_of_place {handle : ObjectHandle} {row : Row} {ctx ctx' : Context} {k : Key}
    (h : place handle row ctx = .ok k ctx') (owned : List (OwnedGroup PendingObject)) :
    k.parent = (mk handle row owned).destination ctx := by
  obtain ⟨row', faults, ha, rfl, -, -⟩ := of_place_eq_ok h
  rw [Store.parent_keyFor, parent_of_adopt ha]
  rfl

-- By induction on the graph: what was put for the objects of a group comes after what was put for
-- their owner and before what is put for the next group.
mutual

/-- A graph that is written leaves its rows in the store, and nothing else. -/
theorem wrote_write : ∀ (o : PendingObject) {ctx ctx' : Context} {k : Key},
    o.write schema ctx = .ok k ctx' → ∃ w : WrittenObject, w.pending = o ∧ w.key = k ∧
      k.parent = o.destination ctx ∧ Wrote schema ctx.store ctx'.store w.objects w.puts
  | mk handle row owned, ctx, ctx', k, h => by
    obtain ⟨c₁, hp, h⟩ := write_eq_ok.1 h
    obtain ⟨hk, hkind, -⟩ := key_of_place hp
    rcases h with ⟨rfl, rfl⟩ | ⟨hne, row', c₂, hg, hr⟩
    · refine ⟨.mk k handle row [], rfl, rfl, parent_of_place hp _, wrote_place hp [] ?_⟩
      exact ⟨hk, hkind, fun g hg => absurd hg List.not_mem_nil,
        fun c hc => absurd hc List.not_mem_nil⟩
    · obtain ⟨gs, rfl, rfl, hrel, hpar, hw⟩ := wrote_writeGroups owned hg
      have hplaced := wrote_place hp gs ⟨hk, hkind, hrel, hpar⟩
      have hrow : (WrittenObject.refer ⟨k, row.properties⟩ gs).key.isComplete := by
        rw [WrittenObject.key_refer]
        exact hk
      have hputs : (WrittenObject.mk k handle row gs).puts = ⟨k, row.properties⟩ ::
          (WrittenObject.groupPuts gs ++ [WrittenObject.refer ⟨k, row.properties⟩ gs]) := by
        cases gs with
        | nil => exact absurd rfl hne
        | cons g gs => rfl
      refine ⟨.mk k handle row gs, rfl, rfl, parent_of_place hp _, ?_⟩
      rw [hputs]
      simpa [WrittenObject.objects] using (hplaced.append hw).append (wrote_refresh hrow hr)

theorem wrote_writeGroups : ∀ (groups : List (OwnedGroup PendingObject)) {key : Key}
    {row row' : Row} {ctx ctx' : Context}, writeGroups schema key groups row ctx = .ok row' ctx' →
      ∃ gs : List (WrittenGroup WrittenObject), WrittenObject.pendingGroups gs = groups ∧
        WrittenObject.refer row gs = row' ∧
        (∀ g ∈ gs, schema.ownedRelation row.kind g.field g.children.length = .ok g.kind) ∧
        (∀ c ∈ gs.flatMap (·.children), c.key.parent = some key) ∧
        Wrote schema ctx.store ctx'.store (WrittenObject.groupObjects gs)
          (WrittenObject.groupPuts gs)
  | [], key, row, row', ctx, ctx', h => by
    rw [writeGroups] at h
    cases h
    exact ⟨[], rfl, rfl, fun g hg => absurd hg List.not_mem_nil,
      fun c hc => absurd hc List.not_mem_nil, .nil _⟩
  | ⟨field, children⟩ :: groups, key, row, row', ctx, ctx', h => by
    obtain ⟨kind, keys, c₁, hkind, ha, hg⟩ := writeGroups_cons_eq_ok.1 h
    obtain ⟨ws, rfl, rfl, hpar, hw⟩ := wrote_writeAll children ha
    obtain ⟨gs, rfl, rfl, hrel, hpar', hw'⟩ := wrote_writeGroups groups hg
    rw [WrittenObject.length_pendingAll] at hkind
    refine ⟨⟨field, kind, ws⟩ :: gs, rfl, rfl, ?_, ?_, hw.append hw'⟩
    · exact List.forall_mem_cons.2 ⟨hkind, hrel⟩
    · intro c hc
      rw [List.flatMap_cons, List.mem_append] at hc
      exact hc.elim (hpar c) (hpar' c)

theorem wrote_writeAll : ∀ (os : List PendingObject) {parent : Key} {ctx ctx' : Context}
    {keys : List Key}, writeAll schema parent os ctx = .ok keys ctx' →
      ∃ ws : List WrittenObject, WrittenObject.pendingAll ws = os ∧ ws.map (·.key) = keys ∧
        (∀ w ∈ ws, w.key.parent = some parent) ∧
        Wrote schema ctx.store ctx'.store (WrittenObject.allObjects ws) (WrittenObject.allPuts ws)
  | [], parent, ctx, ctx', keys, h => by
    rw [writeAll] at h
    cases h
    exact ⟨[], rfl, rfl, fun w hw => absurd hw List.not_mem_nil, .nil _⟩
  | o :: os, parent, ctx, ctx', keys, h => by
    obtain ⟨registry, k, c₁, ks, hr, hw, ha, rfl⟩ := writeAll_cons_eq_ok.1 h
    obtain ⟨w, rfl, rfl, hpar, hw⟩ := wrote_write o hw
    obtain ⟨ws, rfl, rfl, hpars, hws⟩ := wrote_writeAll os ha
    refine ⟨w :: ws, rfl, rfl, List.forall_mem_cons.2 ⟨?_, hpars⟩, hw.append hws⟩
    rw [hpar, destination, KeyRegistry.parent?_of_register hr]
    rfl

end

/-- What an insert that succeeds does to the store is what its write does. -/
theorem of_insert_eq_ok {o : PendingObject} {ctx ctx' : Context} {k : Key}
    (h : o.insert schema ctx = .ok k ctx') :
    ∃ c, o.write schema (o.begun ctx) = .ok k c ∧ ctx'.store = c.store := by
  unfold insert at h
  obtain ⟨u, c₀, hc, h⟩ := bind_run_ok.1 h
  rw [ofExcept_run] at hc
  split at hc
  · cases hc
    simp only [Action.counted] at h
    split at h
    · rename_i c hw
      cases h
      exact ⟨c, hw, rfl⟩
    · cases h
  · cases hc

theorem wrote_insert {o : PendingObject} {ctx ctx' : Context} {k : Key}
    (h : o.insert schema ctx = .ok k ctx') : ∃ w : WrittenObject, w.pending = o ∧ w.key = k ∧
      k.parent = o.destination ctx ∧ Wrote schema ctx.store ctx'.store w.objects w.puts := by
  obtain ⟨c, hw, hs⟩ := of_insert_eq_ok h
  have hwrote := wrote_write o hw
  rw [hs]
  exact hwrote

end PendingObject
end EntityGraph
