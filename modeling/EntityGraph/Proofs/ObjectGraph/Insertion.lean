import EntityGraph.Proofs.ObjectGraph.References
import EntityGraph.Proofs.Store.Numbering

/-!
# Inserting new objects

The objects of a graph whose keys are all open get numbers above the last one. If no row is stored
under such a number, every object comes to have a row of its own, and no other row changes.

* `GivesNumbers.above`: the numbers are above the last one and differ from each other;
* `Key.sameGroup_of_parent`: a row belongs to the entity group of the row above it;
* `Wrote.rows_perm`: objects that are written under new keys are added to the rows;
* `WrittenObject.Inserted`, `PendingObject.insert_new`: what becomes of the store.
-/

namespace EntityGraph

/-! ## Numbers -/

/-- The numbers that open keys get are above the last one, and no two keys get the same. -/
theorem GivesNumbers.above {n n' : UInt64} {xs : List WrittenObject} (h : GivesNumbers n xs n')
    (hopen : ∀ x ∈ xs, ¬x.row.key.isComplete) (hroom : n.toNat + xs.length < UInt64.size) :
    (∀ x ∈ xs, ∃ m, x.key.id = some (.number m) ∧ n < m) ∧ (xs.map (·.key.id)).Nodup := by
  induction h with
  | nil => exact ⟨fun x hx => absurd hx List.not_mem_nil, .nil⟩
  | kept hc => exact absurd hc (hopen _ List.mem_cons_self)
  | @given n n' x xs _ hk _ ih =>
    rw [List.length_cons] at hroom
    have hnext : (n + 1).toNat = n.toNat + 1 := toNat_succ_number (by omega)
    have hlt : n < n + 1 := by
      rw [UInt64.lt_iff_toNat_lt]
      omega
    obtain ⟨habove, hnodup⟩ := ih (fun y hy => hopen y (List.mem_cons_of_mem _ hy)) (by omega)
    constructor
    · intro y hy
      rcases List.mem_cons.1 hy with rfl | hy
      · exact ⟨n + 1, hk, hlt⟩
      · obtain ⟨m, hm, hle⟩ := habove y hy
        exact ⟨m, hm, UInt64.lt_trans hlt hle⟩
    · refine List.nodup_cons.2 ⟨fun hmem => ?_, hnodup⟩
      obtain ⟨y, hy, he⟩ := List.mem_map.1 hmem
      obtain ⟨m, hm, hle⟩ := habove y hy
      cases (hm.symm.trans he).trans hk
      exact UInt64.lt_irrefl _ hle

/-! ## Entity groups -/

namespace Key

theorem rootElement_of_parent {k p : Key} (h : k.parent = some p) :
    k.rootElement = p.rootElement := by
  unfold parent at h
  split at h
  · cases h
  · cases h
    exact (List.head_dropLast _).symm

/-- A row belongs to the entity group of the row above it. -/
theorem sameGroup_of_parent {k p root : Key} (h : k.parent = some p) (hp : p.sameGroup root) :
    k.sameGroup root := by
  unfold sameGroup at hp ⊢
  rw [rootElement_of_parent h]
  exact hp

end Key

namespace WrittenObject

/-- Objects that are written under their owners belong to the entity group of the first one. -/
theorem sameGroup_of_parent (root : Key) (w : WrittenObject) :
    (∀ x ∈ w.objects, ∀ c ∈ x.children, c.key.parent = some x.key) → w.key.sameGroup root →
      ∀ x ∈ w.objects, x.key.sameGroup root := by
  induction w using induct with
  | h w ih =>
    intro hparent hroot x hx
    rw [objects_eq, List.mem_cons] at hx
    rcases hx with rfl | hx
    · exact hroot
    · obtain ⟨c, hc, hx⟩ := List.mem_flatMap.1 hx
      refine ih c hc (fun y hy => hparent y (mem_objects_of_child hc hy)) ?_ x hx
      exact Key.sameGroup_of_parent (hparent w w.mem_objects_self c hc) hroot

end WrittenObject

/-! ## Rows -/

theorem eq_of_map_nodup {α β : Type} {f : α → β} {xs : List α} (h : (xs.map f).Nodup) {a b : α}
    (ha : a ∈ xs) (hb : b ∈ xs) (he : f a = f b) : a = b := by
  obtain ⟨i, hi, rfl⟩ := List.getElem_of_mem ha
  obtain ⟨j, hj, rfl⟩ := List.getElem_of_mem hb
  have hi' : i < (xs.map f).length := by simpa using hi
  have hj' : j < (xs.map f).length := by simpa using hj
  have hij : (xs.map f)[i] = (xs.map f)[j] := by simpa using he
  cases (List.getElem_inj h).1 hij
  rfl

open WrittenObject in
/-- Objects that are written under keys of their own are added to the rows. -/
theorem Wrote.rows_perm {schema : Schema} {s s' : Store} {w : WrittenObject}
    (h : Wrote schema s s' w.objects w.puts) (hfresh : ∀ x ∈ w.objects, s.row? x.key = none)
    (hdistinct : (w.objects.map key).Nodup) :
    s'.rows.Perm (s.rows ++ w.objects.map stored) := by
  have hstored : (w.objects.map stored).Nodup := by
    have hkeys : ((w.objects.map stored).map Row.key).Nodup := by
      simpa [List.map_map, Function.comp_def] using hdistinct
    exact List.Pairwise.of_map Row.key (fun a b hab he => hab (congrArg Row.key he)) hkeys
  have hapart : ∀ r ∈ s.rows, ∀ r' ∈ w.objects.map stored, r ≠ r' := by
    rintro r hr _ hr' rfl
    obtain ⟨x, hx, rfl⟩ := List.mem_map.1 hr'
    have hrow := RowTable.mem_rows.1 hr
    rw [key_stored] at hrow
    exact absurd ((hfresh x hx).symm.trans hrow) (by simp)
  have hnodup : (s.rows ++ w.objects.map stored).Nodup :=
    List.nodup_append.2 ⟨RowTable.nodup_rows _, hstored, hapart⟩
  refine (List.perm_ext_iff_of_nodup (RowTable.nodup_rows _) hnodup).2 fun r => ?_
  rw [RowTable.mem_rows, List.mem_append, List.mem_map]
  show s'.row? r.key = some r ↔ _
  rw [h.row?]
  rcases leaves_puts r.key w (s.row? r.key) with ⟨x, hx, hk, hl⟩ | ⟨hne, hl⟩
  · rw [hl, Option.some.injEq]
    constructor
    · exact fun he => .inr ⟨x, hx, he⟩
    · rintro (hr | ⟨y, hy, rfl⟩)
      · exact absurd ((hk ▸ hfresh x hx).symm.trans (RowTable.mem_rows.1 hr)) (by simp)
      · rw [key_stored] at hk
        rw [eq_of_map_nodup hdistinct hx hy hk]
  · rw [hl]
    constructor
    · exact fun he => .inl (RowTable.mem_rows.2 he)
    · rintro (hr | ⟨y, hy, rfl⟩)
      · exact RowTable.mem_rows.1 hr
      · exact absurd (key_stored y).symm (hne y hy)

/-! ## Inserts -/

namespace WrittenObject

/-- The rows of a graph of new objects have come to those of a store. -/
structure Inserted (w : WrittenObject) (s s' : Store) : Prop where
  /-- Each object has the row that it is left with, and the other rows are as they were. -/
  rows : s'.rows.Perm (s.rows ++ w.objects.map stored)
  complete : ∀ x ∈ w.objects, x.key.isComplete
  fresh : ∀ x ∈ w.objects, s.row? x.key = none
  distinct : (w.objects.map key).Nodup
  kind : ∀ x ∈ w.objects, x.key.kind = x.row.kind
  parent : ∀ x ∈ w.objects, ∀ c ∈ x.children, c.key.parent = some x.key
  group : ∀ x ∈ w.objects, x.key.sameGroup w.key
  kept : ∀ x ∈ w.objects, ∀ field, (∀ g ∈ x.owned, g.field ≠ field) →
    x.stored.get? field = x.row.get? field
  /-- An owner is put before the objects that it owns. -/
  order : ∃ keys, s'.log = s.log ++ keys.map .put ∧
    ∀ x ∈ w.objects, ∀ c ∈ x.children, PutAfter x.key c.key keys

theorem inserted_of_wrote {schema : Schema} {s s' : Store} {w : WrittenObject}
    (h : Wrote schema s s' w.objects w.puts) (hopen : ∀ x ∈ w.objects, ¬x.row.key.isComplete)
    (hbelow : ∀ k n, s.row? k ≠ none → k.id = some (.number n) → n ≤ s.lastNumber)
    (hroom : s.lastNumber.toNat + w.objects.length < UInt64.size) : w.Inserted s s' := by
  obtain ⟨habove, hids⟩ := h.numbers.above hopen hroom
  have hfresh : ∀ x ∈ w.objects, s.row? x.key = none := fun x hx => by
    obtain ⟨n, hid, hlt⟩ := habove x hx
    refine Classical.byContradiction fun hne => ?_
    exact UInt64.lt_irrefl _ (UInt64.lt_of_lt_of_le hlt (hbelow x.key n hne hid))
  have hdistinct : (w.objects.map key).Nodup := by
    have hkeys : ((w.objects.map key).map Key.id).Nodup := by
      rw [List.map_map]
      exact hids
    exact List.Pairwise.of_map Key.id (fun a b hab he => hab (congrArg Key.id he)) hkeys
  have hparent := fun x hx => (h.fits x hx).parent
  refine ⟨h.rows_perm hfresh hdistinct, fun x hx => (h.fits x hx).complete, hfresh, hdistinct,
    fun x hx => (h.fits x hx).kind, hparent, ?_, fun _ _ _ hf => get?_stored_of_ne hf, ?_⟩
  · exact sameGroup_of_parent w.key w hparent (beq_self_eq_true _)
  · refine ⟨w.puts.map (·.key), ?_, putAfter_owner w hdistinct⟩
    rw [h.log, List.map_map]
    rfl

end WrittenObject

namespace PendingObject

/-- An insert of new objects that succeeds gives every object a row of its own, if no row is stored
under a number above the last one. The root is put under the parent that was registered for it, or
else where its open key says, and every other object under its owner. -/
theorem insert_new {schema : Schema} {o : PendingObject} {ctx ctx' : Context} {k : Key}
    (hopen : ∀ p ∈ o.objects, ¬p.row.key.isComplete)
    (hbelow : ∀ k n, ctx.store.row? k ≠ none → k.id = some (.number n) → n ≤ ctx.store.lastNumber)
    (hroom : ctx.store.lastNumber.toNat + o.objects.length < UInt64.size)
    (h : o.insert schema ctx = .ok k ctx') :
    ∃ w : WrittenObject, w.pending = o ∧ w.objects.map WrittenObject.pending = o.objects ∧
      w.key = k ∧ k.parent = (ctx.scope.registry.parent? o.handle).or o.row.key.parent ∧
      w.Inserted ctx.store ctx'.store := by
  obtain ⟨w, rfl, rfl, hparent, hwrote⟩ := wrote_insert h
  have hobjects := w.objects_pending
  refine ⟨w, rfl, hobjects.symm, rfl, hparent, ?_⟩
  refine WrittenObject.inserted_of_wrote hwrote (fun x hx => ?_) hbelow ?_
  · have hmem : x.pending ∈ w.pending.objects := hobjects ▸ List.mem_map_of_mem hx
    obtain ⟨key, handle, row, owned⟩ := x
    exact hopen _ hmem
  · rwa [hobjects, List.length_map] at hroom

def city : Row where
  key := .single ⟨"City", some (.number 3)⟩ ⟨by simp, by simp⟩

/-- A scope whose first object is to be written under the city. -/
def inCity : Context where
  scope :=
    { registry := { scope := ⟨1⟩, parents := .ofList [(0, city.key)] }, transactional := false }
  store := (({} : Store).seed city).2
  held := {}

theorem insert_new_sample : ∃ k ctx',
    (petOwner [[newPet 1, newPet 2]]).insert petSchema inCity = .ok k ctx' ∧
      k.parent = some city.key ∧ ∃ w : WrittenObject, w.key = k ∧
        w.Inserted inCity.store ctx'.store := by
  obtain ⟨k, ctx', hrun⟩ : ∃ k ctx',
      (petOwner [[newPet 1, newPet 2]]).insert petSchema inCity = .ok k ctx' := ⟨_, _, rfl⟩
  have hopen : ∀ p ∈ (petOwner [[newPet 1, newPet 2]]).objects, ¬p.row.key.isComplete := by
    decide +kernel
  have hbelow : ∀ k n, inCity.store.row? k ≠ none → k.id = some (.number n) →
      n ≤ inCity.store.lastNumber := by
    intro k n hne hid
    rcases RowTable.of_row?_put (Store.isComplete_keyFor {} city) hne with hne | rfl
    · exact absurd rfl hne
    · cases hid
      decide
  obtain ⟨w, -, -, hk, hparent, hw⟩ := insert_new hopen hbelow (by decide) hrun
  exact ⟨k, ctx', hrun, hparent, w, hk, hw⟩

end PendingObject
end EntityGraph
