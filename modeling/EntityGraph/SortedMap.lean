/-!
# Finite maps in key order

`SortedMap κ α cmp` is a finite map kept as its list of entries, strictly increasing under `cmp`.
The order is part of the type, so listing a map (`entries`, `keys`, `values`) always answers in key
order and two maps with the same entries are equal.

* `get?_insert`, `get?_erase`: what a write does to look-ups;
* `mem_entries_iff`: an entry is listed exactly when its key looks it up;
* `ext_get?`: a map is determined by its look-ups.
-/

namespace EntityGraph

universe u v

/-- A finite map whose entries are listed in strictly increasing key order. -/
structure SortedMap (κ : Type u) (α : Type v) (cmp : κ → κ → Ordering) where
  entries : List (κ × α)
  sorted : entries.Pairwise (fun a b => cmp a.1 b.1 = .lt)

namespace SortedMap

variable {κ : Type u} {α : Type v} {cmp : κ → κ → Ordering}

/-- The map without entries. -/
def empty : SortedMap κ α cmp := ⟨[], .nil⟩

instance : EmptyCollection (SortedMap κ α cmp) := ⟨empty⟩
instance : Inhabited (SortedMap κ α cmp) := ⟨empty⟩

theorem ext {m₁ m₂ : SortedMap κ α cmp} (h : m₁.entries = m₂.entries) : m₁ = m₂ := by
  cases m₁; cases m₂; cases h; rfl

instance [DecidableEq κ] [DecidableEq α] : DecidableEq (SortedMap κ α cmp) := fun a b =>
  if h : a.entries = b.entries then isTrue (ext h) else isFalse fun e => h (e ▸ rfl)

def keys (m : SortedMap κ α cmp) : List κ := m.entries.map (·.1)
def values (m : SortedMap κ α cmp) : List α := m.entries.map (·.2)
def size (m : SortedMap κ α cmp) : Nat := m.entries.length
def isEmpty (m : SortedMap κ α cmp) : Bool := m.entries.isEmpty

/-- The value of the entry whose key compares equal to `k`. -/
def get? (m : SortedMap κ α cmp) (k : κ) : Option α :=
  (m.entries.find? fun e => cmp k e.1 == .eq).map (·.2)

def contains (m : SortedMap κ α cmp) (k : κ) : Bool := (m.get? k).isSome

theorem not_lt_self [Std.ReflCmp cmp] (k : κ) : cmp k k ≠ .lt := by
  have h : cmp k k = .eq := Std.ReflCmp.compare_self
  simp [h]

/-- Puts `(k, a)` at its place in an increasing list, over an entry with an equal key. -/
def insertEntry (cmp : κ → κ → Ordering) (k : κ) (a : α) : List (κ × α) → List (κ × α)
  | [] => [(k, a)]
  | e :: es =>
    match cmp k e.1 with
    | .lt => (k, a) :: e :: es
    | .eq => (k, a) :: es
    | .gt => e :: insertEntry cmp k a es

theorem mem_insertEntry {k : κ} {a : α} {x : κ × α} :
    ∀ {es : List (κ × α)}, x ∈ insertEntry cmp k a es → x = (k, a) ∨ x ∈ es
  | [], h => by simpa [insertEntry] using h
  | e :: es, h => by
    unfold insertEntry at h
    split at h
    · simpa using h
    · rcases List.mem_cons.1 h with h | h
      · exact .inl h
      · exact .inr (List.mem_cons_of_mem _ h)
    · rcases List.mem_cons.1 h with h | h
      · exact .inr (h ▸ List.mem_cons_self)
      · exact (mem_insertEntry h).imp_right (List.mem_cons_of_mem _)

section Lawful

variable [Std.TransCmp cmp]

theorem pairwise_insertEntry (k : κ) (a : α) : ∀ {es : List (κ × α)},
    es.Pairwise (fun x y => cmp x.1 y.1 = .lt) →
    (insertEntry cmp k a es).Pairwise (fun x y => cmp x.1 y.1 = .lt)
  | [], _ => by simp [insertEntry]
  | e :: es, h => by
    obtain ⟨he, hes⟩ := List.pairwise_cons.1 h
    unfold insertEntry
    split
    · rename_i hlt
      refine List.pairwise_cons.2 ⟨fun x hx => ?_, h⟩
      rcases List.mem_cons.1 hx with rfl | hx
      · exact hlt
      · exact Std.TransCmp.lt_trans hlt (he x hx)
    · rename_i heq
      refine List.pairwise_cons.2 ⟨fun x hx => ?_, hes⟩
      exact Std.TransCmp.lt_of_eq_of_lt heq (he x hx)
    · rename_i hgt
      refine List.pairwise_cons.2 ⟨fun x hx => ?_, pairwise_insertEntry k a hes⟩
      rcases mem_insertEntry hx with rfl | hx
      · exact Std.OrientedCmp.gt_iff_lt.1 hgt
      · exact he x hx

/-- The map with `k` bound to `a`. -/
def insert (m : SortedMap κ α cmp) (k : κ) (a : α) : SortedMap κ α cmp :=
  ⟨insertEntry cmp k a m.entries, pairwise_insertEntry k a m.sorted⟩

/-- The map with the value at `k` changed by `f`, which sees the old value if there is one. -/
def update (m : SortedMap κ α cmp) (k : κ) (f : Option α → α) : SortedMap κ α cmp :=
  m.insert k (f (m.get? k))

/-- Binds each key of the list in turn; a later binding of a key replaces an earlier one. -/
def ofList (es : List (κ × α)) : SortedMap κ α cmp :=
  es.foldl (fun m e => m.insert e.1 e.2) empty

end Lawful

/-- The map without a binding for `k`. -/
def erase (m : SortedMap κ α cmp) (k : κ) : SortedMap κ α cmp :=
  ⟨m.entries.filter fun e => cmp k e.1 != .eq, m.sorted.filter _⟩

@[simp] theorem get?_empty (k : κ) : (empty : SortedMap κ α cmp).get? k = none := rfl

theorem mem_insertEntry_self (k : κ) (a : α) : ∀ es : List (κ × α), (k, a) ∈ insertEntry cmp k a es
  | [] => by simp [insertEntry]
  | e :: es => by
    unfold insertEntry
    split
    · exact List.mem_cons_self
    · exact List.mem_cons_self
    · exact List.mem_cons_of_mem _ (mem_insertEntry_self k a es)

theorem mem_insertEntry_of_ne [Std.LawfulEqCmp cmp] {k : κ} {a : α} {x : κ × α} (hx : x.1 ≠ k) :
    ∀ {es : List (κ × α)}, x ∈ insertEntry cmp k a es ↔ x ∈ es
  | [] => by
    simp only [insertEntry, List.mem_singleton, List.not_mem_nil, iff_false]
    rintro rfl
    exact hx rfl
  | e :: es => by
    have hne : x ≠ (k, a) := fun h => hx (congrArg Prod.fst h)
    unfold insertEntry
    split
    · simp [hne]
    · rename_i heq
      have : x ≠ e := fun h => hx (by rw [h]; exact (Std.LawfulEqCmp.eq_of_compare heq).symm)
      simp [hne, this]
    · simp [mem_insertEntry_of_ne hx]

theorem mem_erase_entries [Std.LawfulEqCmp cmp] {m : SortedMap κ α cmp} {k : κ} {x : κ × α} :
    x ∈ (m.erase k).entries ↔ x ∈ m.entries ∧ x.1 ≠ k := by
  simp only [erase, List.mem_filter, bne_iff_ne, ne_eq, and_congr_right_iff]
  intro _
  constructor
  · intro h e
    exact h (by rw [e]; exact Std.ReflCmp.compare_self)
  · intro h e
    exact h (Std.LawfulEqCmp.eq_of_compare e).symm

theorem mem_entries_iff [Std.LawfulEqCmp cmp] {m : SortedMap κ α cmp} {k : κ} {a : α} :
    (k, a) ∈ m.entries ↔ m.get? k = some a := by
  obtain ⟨es, hs⟩ := m
  simp only [get?]
  induction es with
  | nil => simp
  | cons e es ih =>
    obtain ⟨he, hes⟩ := List.pairwise_cons.1 hs
    by_cases hk : cmp k e.1 = .eq
    · have hke : k = e.1 := Std.LawfulEqCmp.eq_of_compare hk
      rw [List.find?_cons_of_pos (by simp [hk])]
      simp only [List.mem_cons, Option.map_some, Option.some.injEq]
      constructor
      · rintro (h | h)
        · exact (congrArg Prod.snd h).symm
        · have := he _ h
          rw [← hke] at this
          exact absurd this (not_lt_self k)
      · rintro rfl
        exact .inl (by rw [hke])
    · rw [List.find?_cons_of_neg (by simp [hk]), ← ih hes]
      simp only [List.mem_cons]
      constructor
      · rintro (h | h)
        · exact absurd (by rw [← h]; exact Std.ReflCmp.compare_self) hk
        · exact h
      · exact .inr

theorem get?_erase [Std.LawfulEqCmp cmp] [DecidableEq κ] (m : SortedMap κ α cmp) (k k' : κ) :
    (m.erase k).get? k' = if k' = k then none else m.get? k' := by
  apply Option.ext
  intro b
  rw [← mem_entries_iff, mem_erase_entries, mem_entries_iff]
  split <;> simp_all

section Lookups

variable [Std.TransCmp cmp] [Std.LawfulEqCmp cmp]

@[simp] theorem get?_insert_self (m : SortedMap κ α cmp) (k : κ) (a : α) :
    (m.insert k a).get? k = some a :=
  mem_entries_iff.1 (mem_insertEntry_self k a m.entries)

theorem get?_insert_of_ne (m : SortedMap κ α cmp) {k k' : κ} (a : α) (h : k' ≠ k) :
    (m.insert k a).get? k' = m.get? k' := by
  apply Option.ext
  intro b
  rw [← mem_entries_iff, ← mem_entries_iff]
  exact mem_insertEntry_of_ne h

theorem get?_insert [DecidableEq κ] (m : SortedMap κ α cmp) (k k' : κ) (a : α) :
    (m.insert k a).get? k' = if k' = k then some a else m.get? k' := by
  split
  · rename_i h
    rw [h, get?_insert_self]
  · rename_i h
    exact get?_insert_of_ne m a h

/-- A map is determined by its look-ups. -/
theorem ext_get? {m₁ m₂ : SortedMap κ α cmp} (h : ∀ k, m₁.get? k = m₂.get? k) : m₁ = m₂ := by
  refine ext (List.Perm.eq_of_pairwise ?_ m₁.sorted m₂.sorted ?_)
  · intro a b _ _ hab hba
    exact absurd hab (by rw [Std.OrientedCmp.gt_iff_lt.2 hba]; decide)
  · refine (List.perm_ext_iff_of_nodup ?_ ?_).2 fun x => ?_
    · exact m₁.sorted.imp fun {a b} hab e => by
        rw [e] at hab
        exact absurd hab (not_lt_self _)
    · exact m₂.sorted.imp fun {a b} hab e => by
        rw [e] at hab
        exact absurd hab (not_lt_self _)
    · obtain ⟨k, a⟩ := x
      rw [mem_entries_iff, mem_entries_iff, h k]

end Lookups

end SortedMap

/-- A finite set listed in increasing order. -/
abbrev SortedSet (κ : Type u) (cmp : κ → κ → Ordering) := SortedMap κ Unit cmp

end EntityGraph
