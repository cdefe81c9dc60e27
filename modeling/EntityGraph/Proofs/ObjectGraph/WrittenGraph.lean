import EntityGraph.ObjectGraph

/-!
# Object graphs that were written

What a write makes of an object graph is the graph with a key for every object. The rows that are
put, in their order, and the row that each object is left with follow from it.

* `WrittenObject.objects`: all objects of a graph, owners before those that they own;
* `WrittenObject.puts`, `WrittenObject.stored`: an object is put before those that it owns, and once
  more, with their keys, after them;
* `WrittenObject.induct`: induction over the objects that an object owns;
* `WrittenObject.get?_refer`: a field that objects are owned through is set by its last group;
* `WrittenObject.leaves_puts`: the row that is left under a key is that of an object with it;
* `WrittenObject.putAfter_owner`: the first put of an object comes after one of its owner.
-/

namespace EntityGraph

namespace PendingObject

mutual

/-- The object and all those under it, owners first. -/
def objects : PendingObject → List PendingObject
  | mk handle row owned => mk handle row owned :: groupObjects owned

def groupObjects : List (OwnedGroup PendingObject) → List PendingObject
  | [] => []
  | ⟨_, children⟩ :: groups => allObjects children ++ groupObjects groups

def allObjects : List PendingObject → List PendingObject
  | [] => []
  | o :: os => objects o ++ allObjects os

end

end PendingObject

/-- Objects that were written through one field, and the kind of its relation. -/
structure WrittenGroup (Object : Type) where
  field : String
  kind : RelationKind
  children : List Object

/-- An object with the key that it was written under, and with the objects that it owns. -/
inductive WrittenObject where
  | mk (key : Key) (handle : ObjectHandle) (row : Row) (owned : List (WrittenGroup WrittenObject))

namespace WrittenObject

def key : WrittenObject → Key
  | mk key .. => key

/-- The row that the object came with. -/
def row : WrittenObject → Row
  | mk _ _ row _ => row

def owned : WrittenObject → List (WrittenGroup WrittenObject)
  | mk _ _ _ owned => owned

/-- The objects that are owned, over all groups. -/
def children (w : WrittenObject) : List WrittenObject := w.owned.flatMap (·.children)

/-- The row with the keys of the objects that are owned through the fields of the groups. -/
def refer (row : Row) (groups : List (WrittenGroup WrittenObject)) : Row :=
  groups.foldl (fun r g => r.set g.field (PendingObject.reference g.kind (g.children.map (·.key))))
    row

/-- The row that the object is left with. -/
def stored (w : WrittenObject) : Row := refer ⟨w.key, w.row.properties⟩ w.owned

mutual

/-- The graph that was to be written. -/
def pending : WrittenObject → PendingObject
  | mk _ handle row owned => .mk handle row (pendingGroups owned)

def pendingGroups : List (WrittenGroup WrittenObject) → List (OwnedGroup PendingObject)
  | [] => []
  | ⟨field, _, children⟩ :: groups => ⟨field, pendingAll children⟩ :: pendingGroups groups

def pendingAll : List WrittenObject → List PendingObject
  | [] => []
  | w :: ws => pending w :: pendingAll ws

end

mutual

/-- The object and all those under it, owners first. -/
def objects : WrittenObject → List WrittenObject
  | mk key handle row owned => mk key handle row owned :: groupObjects owned

def groupObjects : List (WrittenGroup WrittenObject) → List WrittenObject
  | [] => []
  | ⟨_, _, children⟩ :: groups => allObjects children ++ groupObjects groups

def allObjects : List WrittenObject → List WrittenObject
  | [] => []
  | w :: ws => objects w ++ allObjects ws

end

mutual

/-- The rows that are put, in their order. -/
def puts : WrittenObject → List Row
  | mk key _ row owned =>
    ⟨key, row.properties⟩ ::
      if owned.isEmpty then [] else groupPuts owned ++ [refer ⟨key, row.properties⟩ owned]

def groupPuts : List (WrittenGroup WrittenObject) → List Row
  | [] => []
  | ⟨_, _, children⟩ :: groups => allPuts children ++ groupPuts groups

def allPuts : List WrittenObject → List Row
  | [] => []
  | w :: ws => puts w ++ allPuts ws

end

/-! ## Objects by the objects that they own -/

theorem allObjects_eq : ∀ ws : List WrittenObject, allObjects ws = ws.flatMap objects
  | [] => rfl
  | w :: ws => by rw [allObjects, allObjects_eq ws, List.flatMap_cons]

theorem groupObjects_eq : ∀ groups : List (WrittenGroup WrittenObject),
    groupObjects groups = (groups.flatMap (·.children)).flatMap objects
  | [] => rfl
  | ⟨_, _, children⟩ :: groups => by
    rw [groupObjects, allObjects_eq, groupObjects_eq groups, List.flatMap_cons,
      List.flatMap_append]

theorem objects_eq (w : WrittenObject) : w.objects = w :: w.children.flatMap objects := by
  obtain ⟨key, handle, row, owned⟩ := w
  rw [objects, groupObjects_eq]
  rfl

theorem allPuts_eq : ∀ ws : List WrittenObject, allPuts ws = ws.flatMap puts
  | [] => rfl
  | w :: ws => by rw [allPuts, allPuts_eq ws, List.flatMap_cons]

theorem groupPuts_eq : ∀ groups : List (WrittenGroup WrittenObject),
    groupPuts groups = (groups.flatMap (·.children)).flatMap puts
  | [] => rfl
  | ⟨_, _, children⟩ :: groups => by
    rw [groupPuts, allPuts_eq, groupPuts_eq groups, List.flatMap_cons, List.flatMap_append]

theorem puts_eq (w : WrittenObject) : w.puts = ⟨w.key, w.row.properties⟩ ::
    if w.owned.isEmpty then [] else w.children.flatMap puts ++ [w.stored] := by
  obtain ⟨key, handle, row, owned⟩ := w
  rw [puts, groupPuts_eq]
  rfl

theorem mem_objects_self (w : WrittenObject) : w ∈ w.objects := by
  rw [objects_eq]
  exact List.mem_cons_self

theorem mem_objects_of_child {w c x : WrittenObject} (hc : c ∈ w.children) (hx : x ∈ c.objects) :
    x ∈ w.objects := by
  rw [objects_eq]
  exact List.mem_cons_of_mem _ (List.mem_flatMap.2 ⟨c, hc, hx⟩)

mutual

/-- What holds of an object if it holds of those that it owns, holds of every object. -/
theorem induct {p : WrittenObject → Prop} (h : ∀ w, (∀ c ∈ w.children, p c) → p w) : ∀ w, p w
  | mk _ _ _ owned => h _ (inductGroups h owned)

theorem inductGroups {p : WrittenObject → Prop} (h : ∀ w, (∀ c ∈ w.children, p c) → p w) :
    ∀ groups : List (WrittenGroup WrittenObject), ∀ c ∈ groups.flatMap (·.children), p c
  | [], _, hc => by cases hc
  | ⟨_, _, children⟩ :: groups, c, hc => by
    rw [List.flatMap_cons, List.mem_append] at hc
    rcases hc with hc | hc
    · exact inductAll h children c hc
    · exact inductGroups h groups c hc

theorem inductAll {p : WrittenObject → Prop} (h : ∀ w, (∀ c ∈ w.children, p c) → p w) :
    ∀ ws : List WrittenObject, ∀ c ∈ ws, p c
  | [], _, hc => by cases hc
  | w :: ws, c, hc => by
    rcases List.mem_cons.1 hc with he | hc
    · exact he ▸ induct h w
    · exact inductAll h ws c hc

end

/-- The objects are closed under owning. -/
theorem child_mem_objects {c x : WrittenObject} (hc : c ∈ x.children) (w : WrittenObject) :
    x ∈ w.objects → c ∈ w.objects := by
  induction w using induct with
  | h w ih =>
    intro hx
    rw [objects_eq, List.mem_cons] at hx
    rcases hx with rfl | hx
    · exact mem_objects_of_child hc (mem_objects_self c)
    · obtain ⟨d, hd, hx⟩ := List.mem_flatMap.1 hx
      exact mem_objects_of_child hd (ih d hd hx)

mutual

theorem objects_pending : ∀ w : WrittenObject, w.pending.objects = w.objects.map pending
  | mk key handle row owned => by
    rw [pending, PendingObject.objects, groupObjects_pending owned]
    rfl

theorem groupObjects_pending : ∀ groups : List (WrittenGroup WrittenObject),
    PendingObject.groupObjects (pendingGroups groups) = (groupObjects groups).map pending
  | [] => rfl
  | ⟨_, _, children⟩ :: groups => by
    rw [pendingGroups, PendingObject.groupObjects, allObjects_pending children,
      groupObjects_pending groups, groupObjects, List.map_append]

theorem allObjects_pending : ∀ ws : List WrittenObject,
    PendingObject.allObjects (pendingAll ws) = (allObjects ws).map pending
  | [] => rfl
  | w :: ws => by
    rw [pendingAll, PendingObject.allObjects, objects_pending w, allObjects_pending ws, allObjects,
      List.map_append]

end

theorem length_pendingAll : ∀ ws : List WrittenObject, (pendingAll ws).length = ws.length
  | [] => rfl
  | _ :: ws => congrArg (· + 1) (length_pendingAll ws)

theorem pendingAll_eq : ∀ ws : List WrittenObject, pendingAll ws = ws.map pending
  | [] => rfl
  | w :: ws => congrArg (pending w :: ·) (pendingAll_eq ws)

theorem pendingGroups_eq : ∀ groups : List (WrittenGroup WrittenObject),
    pendingGroups groups = groups.map fun g => ⟨g.field, g.children.map pending⟩
  | [] => rfl
  | ⟨field, kind, children⟩ :: groups => by
    rw [pendingGroups, pendingAll_eq, pendingGroups_eq groups]
    rfl

theorem kind_pending : ∀ w : WrittenObject, w.pending.kind = w.row.kind
  | mk .. => rfl

theorem owned_pending : ∀ w : WrittenObject,
    w.pending.owned = w.owned.map fun g => ⟨g.field, g.children.map pending⟩
  | mk _ _ _ owned => pendingGroups_eq owned

/-! ## The rows that are left -/

@[simp] theorem key_refer : ∀ (groups : List (WrittenGroup WrittenObject)) (row : Row),
    (refer row groups).key = row.key
  | [], _ => rfl
  | _ :: groups, _ => key_refer groups _

@[simp] theorem key_stored (w : WrittenObject) : w.stored.key = w.key := key_refer ..

/-- A field that objects are owned through refers to those of its last group. -/
theorem get?_refer (field : String) : ∀ (groups : List (WrittenGroup WrittenObject)) (row : Row),
    (refer row groups).get? field = ((groups.filter (·.field = field)).getLast?.map fun g =>
      PendingObject.reference g.kind (g.children.map (·.key))).or (row.get? field)
  | [], _ => rfl
  | g :: groups, row => by
    rw [refer, List.foldl_cons, ← refer, get?_refer field groups, Row.get?_set]
    by_cases hf : g.field = field
    · rw [List.filter_cons_of_pos (by simpa using hf), List.getLast?_cons]
      cases (groups.filter (·.field = field)).getLast? <;> simp [hf]
    · rw [List.filter_cons_of_neg (by simpa using hf), if_neg (Ne.symm hf)]

/-- Properties that no group is owned through are kept. -/
theorem get?_stored_of_ne {w : WrittenObject} {field : String}
    (h : ∀ g ∈ w.owned, g.field ≠ field) : w.stored.get? field = w.row.get? field := by
  have hf : w.owned.filter (·.field = field) = [] := by simpa using h
  rw [stored, get?_refer, hf]
  rfl

/-- The row under a key after rows were put: the last of them with the key, or what was there. -/
def lastPut (k : Key) (old : Option Row) (puts : List Row) : Option Row :=
  puts.foldl (fun old r => if r.key = k then some r else old) old

theorem lastPut_append (k : Key) (old : Option Row) (ps qs : List Row) :
    lastPut k old (ps ++ qs) = lastPut k (lastPut k old ps) qs :=
  List.foldl_append ..

theorem lastPut_singleton (k : Key) (old : Option Row) (r : Row) :
    lastPut k old [r] = if r.key = k then some r else old :=
  rfl

/-- A key is left with the row of one of the objects that have it, or with the row that was there if
none has. -/
def Leaves (k : Key) (old new : Option Row) (objects : List WrittenObject) : Prop :=
  (∃ x ∈ objects, x.key = k ∧ new = some x.stored) ∨ (∀ x ∈ objects, x.key ≠ k) ∧ new = old

theorem Leaves.append {k : Key} {o₁ o₂ o₃ : Option Row} {xs ys : List WrittenObject}
    (h : Leaves k o₁ o₂ xs) (h' : Leaves k o₂ o₃ ys) : Leaves k o₁ o₃ (xs ++ ys) := by
  rcases h' with ⟨x, hx, hk, hn⟩ | ⟨hne, rfl⟩
  · exact .inl ⟨x, List.mem_append_right _ hx, hk, hn⟩
  · rcases h with ⟨x, hx, hk, hn⟩ | ⟨hne', hn⟩
    · exact .inl ⟨x, List.mem_append_left _ hx, hk, hn⟩
    · refine .inr ⟨fun x hx => ?_, hn⟩
      rcases List.mem_append.1 hx with hx | hx
      · exact hne' x hx
      · exact hne x hx

theorem leaves_flatMap {k : Key} : ∀ {ws : List WrittenObject},
    (∀ w ∈ ws, ∀ old, Leaves k old (lastPut k old w.puts) w.objects) → ∀ old,
      Leaves k old (lastPut k old (ws.flatMap puts)) (ws.flatMap objects)
  | [], _, _ => .inr ⟨fun _ hx => absurd hx List.not_mem_nil, rfl⟩
  | w :: ws, h, old => by
    rw [List.flatMap_cons, List.flatMap_cons, lastPut_append]
    exact (h w List.mem_cons_self old).append
      (leaves_flatMap (fun w' hw' => h w' (List.mem_cons_of_mem _ hw')) _)

/-- The rows that are put leave every key with the row of an object that has it. -/
theorem leaves_puts (k : Key) (w : WrittenObject) :
    ∀ old, Leaves k old (lastPut k old w.puts) w.objects := by
  induction w using induct with
  | h w ih =>
    intro old
    rw [puts_eq, objects_eq, ← List.singleton_append, lastPut_append, lastPut_singleton]
    by_cases hk : w.key = k
    · refine .inl ⟨w, List.mem_cons_self, hk, ?_⟩
      cases ho : w.owned with
      | nil => simp [lastPut, hk, stored, ho, refer]
      | cons g gs =>
        simp only [List.isEmpty_cons, Bool.false_eq_true, if_false, lastPut_append,
          lastPut_singleton, key_stored, if_pos hk]
    · rw [if_neg hk]
      have hrest : lastPut k old (if w.owned.isEmpty then [] else
          w.children.flatMap puts ++ [w.stored]) = lastPut k old (w.children.flatMap puts) := by
        cases ho : w.owned with
        | nil => simp [children, ho]
        | cons g gs => simp [lastPut_append, lastPut_singleton, hk]
      rw [hrest]
      rcases leaves_flatMap ih old with ⟨x, hx, h⟩ | ⟨hne, h⟩
      · exact .inl ⟨x, List.mem_cons_of_mem _ hx, h⟩
      · refine .inr ⟨fun x hx => ?_, h⟩
        rcases List.mem_cons.1 hx with rfl | hx
        · exact hk
        · exact hne x hx

/-! ## The order of the puts -/

/-- The first put under `b` comes after one under `a`. -/
def PutAfter (a b : Key) (keys : List Key) : Prop :=
  ∃ before after, keys = before ++ b :: after ∧ b ∉ before ∧ a ∈ before

theorem PutAfter.append {a b : Key} {keys : List Key} (h : PutAfter a b keys) {front : List Key}
    (hb : b ∉ front) (back : List Key) : PutAfter a b (front ++ keys ++ back) := by
  obtain ⟨before, after, rfl, hn, ha⟩ := h
  refine ⟨front ++ before, after ++ back, by simp, ?_, List.mem_append_right _ ha⟩
  rw [List.mem_append]
  exact not_or.2 ⟨hb, hn⟩

theorem putAfter_cons {a b : Key} (hne : b ≠ a) {keys : List Key} (hb : b ∈ keys) :
    PutAfter a b (a :: keys) := by
  obtain ⟨before, after, rfl, hn⟩ := List.eq_append_cons_of_mem hb
  refine ⟨a :: before, after, rfl, ?_, List.mem_cons_self⟩
  rw [List.mem_cons]
  exact not_or.2 ⟨hne, hn⟩

/-- Only rows of the objects are put. -/
theorem exists_of_mem_puts (w : WrittenObject) :
    ∀ r ∈ w.puts, ∃ x ∈ w.objects, x.key = r.key := by
  induction w using induct with
  | h w ih =>
    intro r hr
    rw [puts_eq, List.mem_cons] at hr
    rcases hr with rfl | hr
    · exact ⟨w, mem_objects_self w, rfl⟩
    · split at hr
      · exact absurd hr List.not_mem_nil
      · rw [List.mem_append, List.mem_flatMap, List.mem_singleton] at hr
        rcases hr with ⟨c, hc, hr⟩ | rfl
        · obtain ⟨x, hx, hk⟩ := ih c hc r hr
          exact ⟨x, mem_objects_of_child hc hx, hk⟩
        · exact ⟨w, mem_objects_self w, w.key_stored.symm⟩

theorem key_mem_puts (w : WrittenObject) : w.key ∈ w.puts.map (·.key) := by
  rw [puts_eq]
  exact List.mem_cons_self

/-- The keys that are put for the objects under an object, between its own two puts. -/
theorem keys_puts_of_child {w c : WrittenObject} (hc : c ∈ w.children) :
    w.puts.map (·.key) = w.key :: ((w.children.flatMap puts).map (·.key) ++ [w.key]) := by
  have ho : w.owned.isEmpty = false := by
    cases ho : w.owned with
    | nil => simp [children, ho] at hc
    | cons g gs => rfl
  simp [puts_eq w, ho]

/-- Nothing is put under the key of an object while those before it are written. -/
theorem key_notMem_puts {front back : List WrittenObject} {x : WrittenObject}
    (hn : ((front.flatMap objects).map key ++ (back.flatMap objects).map key).Nodup)
    (hx : x ∈ back.flatMap objects) : x.key ∉ (front.flatMap puts).map (·.key) := by
  intro hm
  obtain ⟨r, hr, hk⟩ := List.mem_map.1 hm
  obtain ⟨w, hw, hr⟩ := List.mem_flatMap.1 hr
  obtain ⟨y, hy, hyk⟩ := exists_of_mem_puts w r hr
  have hy : y ∈ front.flatMap objects := List.mem_flatMap.2 ⟨w, hw, hy⟩
  exact (List.nodup_append.1 hn).2.2 _ (List.mem_map_of_mem hy) _ (List.mem_map_of_mem hx)
    (hyk.trans hk)

/-- If no two objects have the same key, an owner is put before the objects that it owns. -/
theorem putAfter_owner (w : WrittenObject) : (w.objects.map key).Nodup → ∀ x ∈ w.objects,
    ∀ c ∈ x.children, PutAfter x.key c.key (w.puts.map (·.key)) := by
  induction w using induct with
  | h w ih =>
    intro hn x hx c hc
    rw [objects_eq] at hn hx
    obtain ⟨hw, hn⟩ := List.nodup_cons.1 hn
    -- no object below has the key of the owner, which is put first and last
    have hself : ∀ y ∈ w.children.flatMap objects, y.key ≠ w.key := fun y hy he =>
      hw (he ▸ List.mem_map_of_mem hy)
    rcases List.mem_cons.1 hx with rfl | hx
    · rw [keys_puts_of_child hc]
      refine putAfter_cons (hself c (List.mem_flatMap.2 ⟨c, hc, mem_objects_self c⟩)) ?_
      rw [List.map_flatMap]
      exact List.mem_append_left _ (List.mem_flatMap.2 ⟨c, hc, key_mem_puts c⟩)
    · obtain ⟨d, hd, hx⟩ := List.mem_flatMap.1 hx
      have hcd := child_mem_objects hc d hx
      have hne := hself c (List.mem_flatMap.2 ⟨d, hd, hcd⟩)
      obtain ⟨left, right, hsplit⟩ := List.append_of_mem hd
      rw [hsplit, List.flatMap_append, List.map_append] at hn
      have hnd : (d.objects.map key).Nodup := by
        rw [List.flatMap_cons, List.map_append] at hn
        exact (List.nodup_append.1 (List.nodup_append.1 hn).2.1).1
      have hleft : c.key ∉ (left.flatMap puts).map (·.key) :=
        key_notMem_puts hn (List.mem_flatMap.2 ⟨d, List.mem_cons_self, hcd⟩)
      have hfront : c.key ∉ w.key :: (left.flatMap puts).map (·.key) := by
        rw [List.mem_cons]
        exact not_or.2 ⟨hne, hleft⟩
      have := (ih d hd hnd x hx c hc).append hfront ((right.flatMap puts).map (·.key) ++ [w.key])
      rw [keys_puts_of_child hd, hsplit]
      simpa using this

end WrittenObject
end EntityGraph
