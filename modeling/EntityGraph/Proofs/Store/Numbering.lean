import EntityGraph.Proofs.Store.Writing

/-!
# The numbers that a store gives out

A row with an open key gets the number after the last one that the store has given out or seen in a
seeded key. A put of a caller's own number is not seen, and its row is replaced when the store comes
to that number.

* `StoreWrite`, `Numbering`: calls that store rows or remove them, and a store with the keys that it
  has given out;
* `Numbering.isFresh_iff`: the next row with an open key is stored under a key of its own exactly
  when no key that is taken ends in the next number;
* `Numbering.allFresh_iff`: as many rows as there are numbers left are stored so exactly when no key
  that is taken ends in a number above the last one (`Numbering.Below`);
* `Numbering.Below.step`, `Numbering.Below.run`: every call keeps it so, but for a put under a
  chosen number above the last one;
* `Numbering.fresh_after_iff`: the rows that come after any calls on an empty store;
* `Numbering.put_replaces_chosen`: a row that is lost.
-/

namespace EntityGraph

/-! ## Rows of a table -/

namespace RowTable

theorem nodup_rows (t : RowTable) : t.rows.Nodup := by
  refine List.Pairwise.map _ (fun a b hab he => ?_) t.byKey.sorted
  rw [Row.mk.injEq] at he
  exact SortedMap.not_lt_self b.1 (he.1 ▸ hab)

/-- A row under a key that is not in the table comes to the others. -/
theorem rows_put_of_new {t : RowTable} {k : Key} (h : k.isComplete) (p : Properties)
    (hk : t.row? k = none) : (t.put k h p).rows.Perm (⟨k, p⟩ :: t.rows) := by
  have hnew : (⟨k, p⟩ : Row) ∉ t.rows := fun hm => by
    rw [mem_rows, hk] at hm
    cases hm
  refine (List.perm_ext_iff_of_nodup (nodup_rows _) (List.nodup_cons.2 ⟨hnew, t.nodup_rows⟩)).2
    fun r => ?_
  rw [mem_rows, row?_put, List.mem_cons, mem_rows]
  split
  · rename_i hr
    rw [hr, hk]
    simp [eq_comm]
  · rename_i hr
    have : r ≠ ⟨k, p⟩ := fun he => hr (congrArg Row.key he)
    simp [this]

theorem of_row?_put {t : RowTable} {k k' : Key} (h : k.isComplete) {p : Properties}
    (hne : (t.put k h p).row? k' ≠ none) : t.row? k' ≠ none ∨ k' = k := by
  rw [row?_put] at hne
  split at hne
  · exact .inr ‹_›
  · exact .inl hne

theorem of_row?_erase {t : RowTable} {k k' : Key} (hne : (t.erase k).row? k' ≠ none) :
    t.row? k' ≠ none := by
  rw [row?_erase] at hne
  split at hne
  · exact absurd rfl hne
  · exact hne

end RowTable

namespace Key

/-- The key without the id of its last element. -/
def reopen (k : Key) : Key where
  path := k.ancestorPath ++ [⟨k.kind, none⟩]
  wellFormed := by
    refine ⟨by simp, fun e he => ?_, ?_⟩
    · rcases List.mem_append.1 he with he | he
      · exact k.wellFormed.valid e (List.dropLast_subset _ he)
      · rw [List.mem_singleton.1 he]
        exact ⟨k.kind_ne_empty, by simp⟩
    · rw [List.dropLast_concat]
      exact k.wellFormed.complete

theorem not_isComplete_reopen (k : Key) : ¬k.reopen.isComplete := by
  simp [isComplete, id, last, reopen]

/-- A key that ends in a number is what its open form is completed to by that number. -/
theorem assign_reopen {k : Key} {n : UInt64} (h : k.id = some (.number n)) :
    k.reopen.assign n = k := by
  have hlast : k.last = ⟨k.kind, some (.number n)⟩ := by
    rw [← h]
    rfl
  have hpath : (k.reopen.assign n).path = k.path := by
    rw [k.path_eq, hlast]
    simp [assign, withId, reopen, ancestorPath, kind, last]
  cases k
  simpa [assign, withId] using hpath

end Key

theorem toNat_succ_number {n : UInt64} (h : n.toNat + 1 < UInt64.size) :
    (n + 1).toNat = n.toNat + 1 := by
  rw [UInt64.toNat_add]
  exact Nat.mod_eq_of_lt h

/-! ## Calls that store rows -/

/-- A call that stores a row or removes one. -/
inductive StoreWrite where
  | seed (row : Row)
  | put (row : Row)
  | delete (key : Key)

namespace StoreWrite

/-- The row that is stored, if its key is still open. -/
def openRow? : StoreWrite → Option Row
  | seed r | put r => if r.key.isComplete then none else some r
  | delete _ => none

/-- Carries out the call: the key that a row was stored under, and the store. A put that a fault
ends stores nothing. -/
def run (s : Store) : StoreWrite → Option Key × Store
  | seed r => (some (s.seed r).1, (s.seed r).2)
  | put r =>
    match Store.put r s with
    | .ok k s' => (some k, s')
    | .error _ s' => (none, s')
  | delete k =>
    match Store.delete k s with
    | .ok _ s' | .error _ s' => (none, s')

end StoreWrite

/-- A store, and the keys that it completed by a number. -/
structure Numbering where
  store : Store := {}
  given : List Key := []

namespace Numbering

/-- A key that is stored or was given out. -/
def Taken (n : Numbering) (k : Key) : Prop := n.store.row? k ≠ none ∨ k ∈ n.given

/-- The store after a call, which gives out a key if it stores a row with an open one. -/
def step (n : Numbering) (w : StoreWrite) : Numbering where
  store := (w.run n.store).2
  given := if w.openRow?.isSome then n.given ++ (w.run n.store).1.toList else n.given

/-- The store after a list of calls. -/
def run (n : Numbering) (ws : List StoreWrite) : Numbering := ws.foldl step n

/-- If the call stores a row with an open key, it adds that row to the others, under a key that is
not taken. Only a fault may keep it from doing so. -/
def IsFresh (n : Numbering) (w : StoreWrite) : Prop :=
  ∀ r, w.openRow? = some r →
    match (w.run n.store).1 with
    | none => n.store.faults ≠ [] ∧ (n.step w).store.rows = n.store.rows
    | some k => ¬n.Taken k ∧ (n.step w).store.rows.Perm (⟨k, r.properties⟩ :: n.store.rows)

/-- Calls are fresh one after the other. -/
def AllFresh (n : Numbering) : List StoreWrite → Prop
  | [] => True
  | w :: ws => n.IsFresh w ∧ (n.step w).AllFresh ws

end Numbering

/-! ## One row with an open key -/

/-- A row with an open key that was stored under the next number. -/
structure Store.Numbers (s s' : Store) (r : Row) : Prop where
  table : s'.table = s.table.put _ (r.key.isComplete_assign s.nextNumber) r.properties
  lastNumber : s'.lastNumber = s.nextNumber

theorem Store.numbers_seed {s : Store} {r : Row} (h : ¬r.key.isComplete) :
    (s.seed r).1 = r.key.assign s.nextNumber ∧ s.Numbers (s.seed r).2 r := by
  have hk := keyFor_of_not_isComplete (s := s) h
  refine ⟨hk, ?_, ?_⟩
  · simp only [seed, hk]
  · have hmax : max s.nextNumber s.nextNumber = s.nextNumber := ite_self _
    simp [seed, hk, h, hmax]

theorem Store.numbers_afterPut {s : Store} {r : Row} (h : ¬r.key.isComplete)
    (faults : List Fault) : s.Numbers (({ s with faults } : Store).afterPut r) r := by
  have hk : Store.keyFor { s with faults } r = r.key.assign s.nextNumber :=
    keyFor_of_not_isComplete h
  refine ⟨?_, ?_⟩
  · simp only [afterPut, hk]
  · simp only [afterPut, h]
    rfl

/-- A row with an open key is stored under the next number, unless a fault is due. -/
theorem StoreWrite.run_of_openRow? {w : StoreWrite} {r : Row} (h : w.openRow? = some r)
    (s : Store) :
    (∃ faults, s.faults ≠ [] ∧ w.run s = (none, { s with faults })) ∨
      ∃ s', w.run s = (some (r.key.assign s.nextNumber), s') ∧ s.Numbers s' r := by
  cases w with
  | seed r' =>
    obtain ⟨ho, rfl⟩ : ¬r'.key.isComplete ∧ r' = r := by simpa [openRow?] using h
    obtain ⟨hk, hs⟩ := Store.numbers_seed (s := s) ho
    exact .inr ⟨_, congrArg (fun k => (some k, (s.seed r').2)) hk, hs⟩
  | put r' =>
    obtain ⟨ho, rfl⟩ : ¬r'.key.isComplete ∧ r' = r := by simpa [openRow?] using h
    obtain ⟨faults, -, ⟨e, hne, he⟩ | hput⟩ := Store.put_run r' s
    · exact .inl ⟨faults, hne, by simp only [run, he]⟩
    · refine .inr ⟨_, ?_, Store.numbers_afterPut ho faults⟩
      simp only [run, hput, Store.keyFor_of_not_isComplete ho]
  | delete k => cases h

namespace Numbering

variable {n : Numbering} {w : StoreWrite} {r : Row} {k : Key}

/-- What becomes of a row with an open key: a fault keeps it out, or it is stored. -/
theorem step_of_openRow? (h : w.openRow? = some r) :
    ((w.run n.store).1 = none ∧ n.store.faults ≠ [] ∧ (n.step w).store.table = n.store.table ∧
      (n.step w).store.lastNumber = n.store.lastNumber ∧ (n.step w).given = n.given) ∨
    ((w.run n.store).1 = some (r.key.assign n.store.nextNumber) ∧
      n.store.Numbers (n.step w).store r ∧
      (n.step w).given = n.given ++ [r.key.assign n.store.nextNumber]) := by
  rcases w.run_of_openRow? h n.store with ⟨faults, hf, hr⟩ | ⟨s', hr, hs⟩
  · left
    simp [step, h, hr, hf]
  · right
    simp [step, h, hr, hs]

/-- The row that was stored is there, and every other row as it was. -/
theorem row?_of_numbers {s s' : Store} (h : s.Numbers s' r) (k : Key) :
    s'.row? k = if k = r.key.assign s.nextNumber then some ⟨k, r.properties⟩ else s.row? k := by
  unfold Store.row?
  rw [h.table, RowTable.row?_put]
  split
  · rename_i hk
    rw [hk]
  · rfl

theorem taken_step_iff (h : w.openRow? = some r) :
    (n.step w).Taken k ↔ n.Taken k ∨ (w.run n.store).1 = some k := by
  unfold Taken
  rcases step_of_openRow? (n := n) h with ⟨hr, -, ht, -, hg⟩ | ⟨hr, hs, hg⟩
  · simp [Store.row?, ht, hg, hr]
  · rw [row?_of_numbers hs, hg, hr, List.mem_append, List.mem_singleton, Option.some.injEq,
      eq_comm (a := r.key.assign n.store.nextNumber)]
    by_cases hk : k = r.key.assign n.store.nextNumber <;> simp [hk]

/-- A row with an open key is stored under a key that is not taken. -/
theorem isFresh_of_not_taken (h : w.openRow? = some r)
    (hk : ¬n.Taken (r.key.assign n.store.nextNumber)) : n.IsFresh w := by
  intro r' hr'
  cases h.symm.trans hr'
  rcases step_of_openRow? h with ⟨hr, hf, ht, -, -⟩ | ⟨hr, hs, -⟩
  · rw [hr]
    exact ⟨hf, congrArg RowTable.rows ht⟩
  · rw [hr]
    refine ⟨hk, ?_⟩
    have hnew : n.store.row? (r.key.assign n.store.nextNumber) = none :=
      Classical.not_not.1 (not_or.1 hk).1
    show (n.step w).store.table.rows.Perm _
    rw [hs.table]
    exact RowTable.rows_put_of_new _ _ hnew

/-- The row that is seeded to see whether a key is given out again. -/
def probe (k : Key) : StoreWrite := .seed { key := k.reopen }

theorem openRow?_probe (k : Key) : (probe k).openRow? = some { key := k.reopen } := by
  simp [probe, StoreWrite.openRow?, k.not_isComplete_reopen]

theorem run_probe (k : Key) (s : Store) :
    ((probe k).run s).1 = some (k.reopen.assign s.nextNumber) :=
  congrArg some (Store.numbers_seed k.not_isComplete_reopen).1

/-- A key that is taken is given out again when the store comes to its number. -/
theorem not_isFresh_probe (hk : n.Taken k) (hid : k.id = some (.number n.store.nextNumber)) :
    ¬n.IsFresh (probe k) := by
  intro h
  have hf := h _ (openRow?_probe k)
  rw [run_probe, Key.assign_reopen hid] at hf
  exact hf.1 hk

/-- The next row with an open key, whatever it is, is stored under a key of its own exactly when no
key that is taken ends in the next number. -/
theorem isFresh_iff (n : Numbering) : (∀ w, n.IsFresh w) ↔
    ∀ k, n.Taken k → k.id ≠ some (.number n.store.nextNumber) := by
  constructor
  · intro h k hk hid
    exact not_isFresh_probe hk hid (h _)
  · intro h w r hr
    exact isFresh_of_not_taken hr (fun ht => h _ ht (Key.id_assign ..)) r hr

/-! ## What keeps the numbers apart -/

/-- No key that is taken ends in a number above the last one. -/
def Below (n : Numbering) : Prop :=
  ∀ k m, n.Taken k → k.id = some (.number m) → m ≤ n.store.lastNumber

/-- The call does not put a row under a chosen number above the last one. -/
def Heeds (n : Numbering) (w : StoreWrite) : Prop :=
  ∀ r m, w = .put r → r.key.id = some (.number m) → m ≤ n.store.lastNumber

theorem toNat_nextNumber {s : Store} (h : s.lastNumber.toNat + 1 < UInt64.size) :
    s.nextNumber.toNat = s.lastNumber.toNat + 1 :=
  toNat_succ_number h

theorem Below.step_of_openRow? (hb : n.Below)
    (hroom : n.store.lastNumber.toNat + 1 < UInt64.size) (h : w.openRow? = some r) :
    (n.step w).Below := by
  intro k m hk hid
  rw [taken_step_iff h] at hk
  rcases Numbering.step_of_openRow? (n := n) h with ⟨hr, -, -, hl, -⟩ | ⟨hr, hs, -⟩
  · rw [hr] at hk
    rw [hl]
    exact hb k m (hk.resolve_right nofun) hid
  · rw [hr] at hk
    rw [hs.lastNumber, UInt64.le_iff_toNat_le]
    rcases hk with hk | hk
    · have hle := UInt64.le_iff_toNat_le.1 (hb k m hk hid)
      rw [toNat_nextNumber hroom]
      omega
    · cases hk
      rw [Key.id_assign, Option.some.injEq, KeyId.number.injEq] at hid
      exact Nat.le_of_eq (congrArg UInt64.toNat hid.symm)

theorem le_max_number (a b : UInt64) : a ≤ max a b ∧ b ≤ max a b := by
  show a ≤ (if a ≤ b then b else a) ∧ b ≤ if a ≤ b then b else a
  split
  · exact ⟨‹_›, UInt64.le_refl b⟩
  · exact ⟨UInt64.le_refl a, UInt64.le_of_lt (UInt64.not_le.1 ‹_›)⟩

/-- A row that is seeded under a complete key is seen by the store. -/
theorem seed_of_isComplete {s : Store} (h : r.key.isComplete) :
    (∀ k, (s.seed r).2.row? k ≠ none → s.row? k ≠ none ∨ k = r.key) ∧
      s.lastNumber ≤ (s.seed r).2.lastNumber ∧
        ∀ m, r.key.id = some (.number m) → m ≤ (s.seed r).2.lastNumber := by
  have hk := Store.keyFor_of_isComplete (s := s) h
  refine ⟨fun k hne => hk ▸ RowTable.of_row?_put (s.isComplete_keyFor r) hne, ?_, fun m hm => ?_⟩
  · simp only [Store.seed, hk, h, if_true]
    split
    · exact (le_max_number ..).1
    · exact UInt64.le_refl _
  · simp only [Store.seed, hk, h, if_true, hm]
    exact (le_max_number ..).2

/-- A put under a complete key is not seen by the store. -/
theorem run_put_of_isComplete {s : Store} (h : r.key.isComplete) :
    (∀ k, ((StoreWrite.put r).run s).2.row? k ≠ none → s.row? k ≠ none ∨ k = r.key) ∧
      ((StoreWrite.put r).run s).2.lastNumber = s.lastNumber := by
  obtain ⟨faults, -, ⟨e, -, he⟩ | hput⟩ := Store.put_run r s
  · have hrun : (StoreWrite.put r).run s = (none, { s with faults }) := by
      simp only [StoreWrite.run, he]
    rw [hrun]
    exact ⟨fun k hne => .inl hne, rfl⟩
  · have hrun : (StoreWrite.put r).run s =
        (some (s.keyFor r), ({ s with faults } : Store).afterPut r) := by
      simp only [StoreWrite.run, hput]
    have hk : Store.keyFor { s with faults } r = r.key := Store.keyFor_of_isComplete h
    rw [hrun]
    refine ⟨fun k hne => ?_, if_pos h⟩
    exact hk ▸ RowTable.of_row?_put (Store.isComplete_keyFor _ r) hne

theorem run_delete (s : Store) (k' : Key) :
    (∀ k, ((StoreWrite.delete k').run s).2.row? k ≠ none → s.row? k ≠ none) ∧
      ((StoreWrite.delete k').run s).2.lastNumber = s.lastNumber := by
  obtain ⟨faults, -, ⟨e, -, he⟩ | hdel⟩ := Store.delete_run k' s
  · have hrun : (StoreWrite.delete k').run s = (none, { s with faults }) := by
      simp only [StoreWrite.run, he]
    rw [hrun]
    exact ⟨fun k hne => hne, rfl⟩
  · have hrun : (StoreWrite.delete k').run s =
        (none, ({ s with faults } : Store).afterDelete k') := by
      simp only [StoreWrite.run, hdel]
    rw [hrun]
    exact ⟨fun k hne => RowTable.of_row?_erase hne, rfl⟩

/-- Every call keeps the numbers apart, but for a put under a chosen number above the last one. -/
theorem Below.step (hb : n.Below) (hroom : n.store.lastNumber.toNat + 1 < UInt64.size)
    (hw : n.Heeds w) : (n.step w).Below := by
  cases ho : w.openRow? with
  | some r => exact hb.step_of_openRow? hroom ho
  | none =>
    have hgiven : (n.step w).given = n.given := by simp [Numbering.step, ho]
    intro k m hk hid
    unfold Taken at hk
    rw [hgiven] at hk
    cases w with
    | seed r =>
      have hc : r.key.isComplete := by simpa [StoreWrite.openRow?] using ho
      obtain ⟨hrow, hle, hseen⟩ := seed_of_isComplete (s := n.store) hc
      rcases hk with hk | hk
      · rcases hrow k hk with hk | rfl
        · exact UInt64.le_trans (hb k m (.inl hk) hid) hle
        · exact hseen m hid
      · exact UInt64.le_trans (hb k m (.inr hk) hid) hle
    | put r =>
      have hc : r.key.isComplete := by simpa [StoreWrite.openRow?] using ho
      obtain ⟨hrow, hl⟩ := run_put_of_isComplete (s := n.store) hc
      show m ≤ ((StoreWrite.put r).run n.store).2.lastNumber
      rw [hl]
      rcases hk with hk | hk
      · rcases hrow k hk with hk | rfl
        · exact hb k m (.inl hk) hid
        · exact hw r m rfl hid
      · exact hb k m (.inr hk) hid
    | delete k' =>
      obtain ⟨hrow, hl⟩ := run_delete n.store k'
      show m ≤ ((StoreWrite.delete k').run n.store).2.lastNumber
      rw [hl]
      exact hb k m (hk.imp_left (hrow k)) hid

/-- Every call of the list finds a number left, and heeds those that the store has seen. -/
def AllHeed (n : Numbering) : List StoreWrite → Prop
  | [] => True
  | w :: ws => n.store.lastNumber.toNat + 1 < UInt64.size ∧ n.Heeds w ∧ (n.step w).AllHeed ws

theorem Below.run : ∀ {ws : List StoreWrite} {n : Numbering}, n.Below → n.AllHeed ws →
    (n.run ws).Below
  | [], _, hb, _ => hb
  | _ :: _, _, hb, h => (hb.step h.1 h.2.1).run h.2.2

/-! ## Many rows with open keys -/

theorem not_taken_of_below (hb : n.Below) (hroom : n.store.lastNumber.toNat + 1 < UInt64.size)
    (r : Row) : ¬n.Taken (r.key.assign n.store.nextNumber) := by
  intro ht
  have hle := UInt64.le_iff_toNat_le.1 (hb _ _ ht (Key.id_assign ..))
  rw [toNat_nextNumber hroom] at hle
  omega

theorem lastNumber_step_le (hroom : n.store.lastNumber.toNat + 1 < UInt64.size)
    (h : w.openRow? = some r) :
    (n.step w).store.lastNumber.toNat ≤ n.store.lastNumber.toNat + 1 := by
  rcases step_of_openRow? (n := n) h with ⟨-, -, -, hl, -⟩ | ⟨-, hs, -⟩
  · rw [hl]
    exact Nat.le_succ _
  · rw [hs.lastNumber]
    exact Nat.le_of_eq (toNat_nextNumber hroom)

theorem Below.allFresh : ∀ {ws : List StoreWrite} {n : Numbering}, n.Below →
    (∀ w ∈ ws, w.openRow?.isSome) → n.store.lastNumber.toNat + ws.length < UInt64.size →
      n.AllFresh ws
  | [], n, _, _, _ => trivial
  | w :: ws, n, hb, ho, hroom => by
    obtain ⟨r, hr⟩ := Option.isSome_iff_exists.1 (ho w List.mem_cons_self)
    rw [List.length_cons] at hroom
    have hone : n.store.lastNumber.toNat + 1 < UInt64.size := by omega
    have hl := lastNumber_step_le hone hr
    refine ⟨isFresh_of_not_taken hr (not_taken_of_below hb hone r),
      (hb.step_of_openRow? hone hr).allFresh ?_ ?_⟩
    · exact fun w' hw' => ho w' (List.mem_cons_of_mem _ hw')
    · omega

-- By induction on the distance of the number from the last one: with each row that is stored the
-- numbers come one closer to that of the key, which stays taken.
theorem not_allFresh_probe {k : Key} {m : UInt64} (hid : k.id = some (.number m)) (d : Nat) :
    ∀ {n : Numbering}, n.Taken k → m.toNat = n.store.lastNumber.toNat + (d + 1) →
      ¬n.AllFresh (List.replicate (d + 1) (probe k)) := by
  induction d with
  | zero =>
    intro n ht hm hf
    have hnext : n.store.nextNumber = m := by
      apply UInt64.toNat_inj.1
      rw [toNat_nextNumber (hm ▸ m.toNat_lt), hm]
    exact not_isFresh_probe ht (hnext ▸ hid) hf.1
  | succ d ih =>
    intro n ht hm hf
    have ht' : (n.step (probe k)).Taken k := (taken_step_iff (openRow?_probe k)).2 (.inl ht)
    have hl : (n.step (probe k)).store.lastNumber = n.store.nextNumber :=
      (Store.numbers_seed k.not_isComplete_reopen).2.lastNumber
    have hlt : m.toNat < UInt64.size := m.toNat_lt
    have hroom : n.store.lastNumber.toNat + 1 < UInt64.size := by omega
    refine ih ht' ?_ hf.2
    rw [hl, toNat_nextNumber hroom, hm]
    omega

/-- As many rows with open keys as there are numbers left are stored under keys of their own exactly
when no key that is taken ends in a number above the last one. -/
theorem allFresh_iff (n : Numbering) :
    (∀ ws : List StoreWrite, (∀ w ∈ ws, w.openRow?.isSome) →
      n.store.lastNumber.toNat + ws.length < UInt64.size → n.AllFresh ws) ↔ n.Below := by
  constructor
  · intro h k m hk hid
    apply Classical.byContradiction
    intro hlt
    have hlt := UInt64.lt_iff_toNat_lt.1 (UInt64.not_le.1 hlt)
    obtain ⟨d, hd⟩ : ∃ d, m.toNat = n.store.lastNumber.toNat + (d + 1) :=
      ⟨m.toNat - n.store.lastNumber.toNat - 1, by omega⟩
    refine not_allFresh_probe hid d hk hd (h _ ?_ ?_)
    · intro w hw
      rw [List.eq_of_mem_replicate hw, openRow?_probe]
      rfl
    · rw [List.length_replicate, ← hd]
      exact m.toNat_lt
  · intro hb ws ho hroom
    exact hb.allFresh ho hroom

/-- An empty store after calls on it. -/
def after (faults : List Fault) (calls : List StoreWrite) : Numbering :=
  run { store := { faults } } calls

/-- When the rows with open keys that come after any calls on an empty store are stored under keys
of their own: the next one, exactly when no key that is taken ends in the next number; as many as
there are numbers left, exactly when none ends in a number above the last one. The latter is so
unless a caller put a row under such a number or the numbers were used up. -/
theorem fresh_after_iff (faults : List Fault) (calls : List StoreWrite) :
    ((∀ w, (after faults calls).IsFresh w) ↔ ∀ k, (after faults calls).Taken k →
      k.id ≠ some (.number (after faults calls).store.nextNumber)) ∧
    ((∀ ws : List StoreWrite, (∀ w ∈ ws, w.openRow?.isSome) →
      (after faults calls).store.lastNumber.toNat + ws.length < UInt64.size →
        (after faults calls).AllFresh ws) ↔ (after faults calls).Below) ∧
    (AllHeed { store := { faults } } calls → (after faults calls).Below) := by
  refine ⟨isFresh_iff _, allFresh_iff _, fun h => Below.run (fun k m hk _ => ?_) h⟩
  rcases hk with hk | hk
  · exact absurd rfl hk
  · cases hk

/-- A person under a number that a caller chose. -/
def chosenPerson : Row where
  key := .single ⟨"Person", some (.number 1)⟩ ⟨by simp, by simp⟩
  properties := .ofList [("name", .text "Ann")]

/-- A person whose number is still to be given out. -/
def newPerson : Row where
  key := chosenPerson.key.reopen

/-- The first person that the store numbers takes the place of one that was put under number 1. -/
theorem put_replaces_chosen :
    (after [] [.put chosenPerson]).store.rows = [chosenPerson] ∧
      (after [] [.put chosenPerson, .put newPerson]).store.rows =
        [{ key := chosenPerson.key }] ∧
      ¬(after [] [.put chosenPerson]).IsFresh (.put newPerson) :=
  ⟨rfl, rfl, fun h => (h newPerson rfl).1 (.inl nofun)⟩

end Numbering
end EntityGraph
