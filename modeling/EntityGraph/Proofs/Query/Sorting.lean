import Mathlib.Data.List.Nodup
import EntityGraph.Proofs.Query.Pushdown
import EntityGraph.Proofs.StableSort
import EntityGraph.Proofs.Value.Order

/-!
# The order of selected rows

A query that is evaluated in memory selects the rows that its filter holds on, in the order that its
ordering asks for. Where no float is sorted by, that is a total preorder of the rows: a missing or
empty field counts as null and a list as its smallest item, and the first key that tells two rows
apart decides. Rows that no key tells apart stay in the order in which they come.

* `Value.SortsBy`: the value that a field is sorted by;
* `SortKey.Before`, `SortKey.Ties`, `Precedes`: what an ordering says of two rows;
* `preorders_compareRows`, `precedes_iff`, `ties_iff`: the comparison of rows is what the ordering
  says;
* `Query.select_sorted`: the rows that a query selects, and their order.
-/

namespace EntityGraph

/-! ## What a field is sorted by -/

namespace Value

/-- The value that a field is sorted by: a missing or empty field counts as null, and a list as its
smallest item. -/
inductive SortsBy : Option Value → Value → Prop where
  | missing : SortsBy none .null
  | empty : SortsBy (some (.list [])) .null
  | least {items : List Value} {v : Value} : v ∈ items → (∀ w ∈ items, (v.compare w).isLE) →
      SortsBy (some (.list items)) v
  | single {v : Value} : v.list? = none → SortsBy (some v) v

theorem chained_of_not_hasFloat {a b c : Value} (ha : ¬a.HasFloat) (hb : ¬b.HasFloat)
    (hc : ¬c.HasFloat) : Chained (a.compare b) (b.compare c) (a.compare c) :=
  @chained (fun v => ¬v.HasFloat) (fun _ h _ hv hf => h (.item hv hf))
    (fun _ _ _ _ hd => absurd (.float _) hd) a b c ha hb hc

/-- The smaller of two values, and the first if neither is. -/
def lesser (v x : Value) : Value := if v.compare x = .gt then x else v

theorem lesser_eq (v x : Value) : lesser v x = v ∨ lesser v x = x := by
  unfold lesser
  split <;> simp

theorem lesser_isLE (v x : Value) :
    ((lesser v x).compare v).isLE ∧ ((lesser v x).compare x).isLE := by
  unfold lesser
  split
  · rename_i hgt
    simp [compare_swap v x, hgt, compare_self]
  · rename_i hle
    exact ⟨by simp [compare_self], Ordering.isLE_iff_ne_gt.2 hle⟩

/-- The smallest of a list of values is one of them, and none is smaller. -/
theorem foldl_lesser : ∀ {vs : List Value} {v : Value}, (∀ w ∈ v :: vs, ¬w.HasFloat) →
    vs.foldl lesser v ∈ v :: vs ∧ ∀ w ∈ v :: vs, ((vs.foldl lesser v).compare w).isLE
  | [], v, _ => by simp [compare_self]
  | x :: vs, v, hfree => by
    have hfree' : ∀ w ∈ lesser v x :: vs, ¬w.HasFloat := by
      intro w hw
      rcases List.mem_cons.1 hw with rfl | hw
      · obtain he | he := lesser_eq v x
        · rw [he]
          exact hfree v (by simp)
        · rw [he]
          exact hfree x (by simp)
      · exact hfree w (by simp [hw])
    obtain ⟨hmem, hall⟩ := foldl_lesser hfree'
    rw [List.foldl_cons]
    generalize vs.foldl lesser (lesser v x) = m at *
    have hbelow : ∀ w, ¬w.HasFloat → ((lesser v x).compare w).isLE → (m.compare w).isLE :=
      fun w hw => (chained_of_not_hasFloat (hfree' m hmem) (hfree' _ List.mem_cons_self)
        hw).isLE_trans (hall _ List.mem_cons_self)
    refine ⟨?_, fun w hw => ?_⟩
    · rcases List.mem_cons.1 hmem with rfl | hmem
      · rcases lesser_eq v x with he | he <;> simp [he]
      · simp [hmem]
    · simp only [List.mem_cons] at hw
      rcases hw with rfl | rfl | hw
      · exact hbelow w (hfree w (by simp)) (lesser_isLE w x).1
      · exact hbelow w (hfree w (by simp)) (lesser_isLE v w).2
      · exact hall w (List.mem_cons_of_mem _ hw)

section SortsBy

variable {f g : Option Value} {v w : Value} (hf : ∀ x, f = some x → ¬x.HasFloat)
include hf

theorem sortsBy_sortKey : SortsBy f (f.getD .null).sortKey := by
  cases f with
  | none => exact .missing
  | some x => cases x with
    | list items => cases items with
      | nil => exact .empty
      | cons v vs =>
        obtain ⟨hmem, hall⟩ := foldl_lesser fun w hw hfloat => hf _ rfl (.item hw hfloat)
        exact .least hmem hall
    | _ => exact .single rfl

theorem SortsBy.not_hasFloat (h : SortsBy f v) : ¬v.HasFloat := by
  cases h with
  | missing | empty => exact nofun
  | least hmem _ => exact fun hfloat => hf _ rfl (.item hmem hfloat)
  | single _ => exact hf v rfl

omit hf in
/-- A field is sorted by one value, but for the choice among smallest items that are alike. -/
theorem SortsBy.compare_eq (h : SortsBy f v) (h' : SortsBy f w) : v.compare w = .eq := by
  cases h with
  | missing =>
    cases h'
    rfl
  | empty =>
    cases h' with
    | empty => rfl
    | least hmem _ => cases hmem
    | single hl => cases hl
  | least hmem hall =>
    cases h' with
    | empty => cases hmem
    | least hmem' hall' =>
      have hle := hall _ hmem'
      have hge := hall' _ hmem
      rw [compare_swap v w] at hge
      cases hvw : v.compare w <;> simp [hvw] at hle hge ⊢
    | single hl => cases hl
  | single hl =>
    cases h' with
    | single _ => exact compare_self v
    | empty | least _ _ => cases hl

/-- Fields compare as the values that they are sorted by. -/
theorem SortsBy.compare_sortKey (hg : ∀ x, g = some x → ¬x.HasFloat) (h : SortsBy f v)
    (h' : SortsBy g w) : (f.getD .null).sortKey.compare (g.getD .null).sortKey = v.compare w := by
  have hv := sortsBy_sortKey hf
  have hw := sortsBy_sortKey hg
  have hvf := hv.not_hasFloat hf
  have hwf := hw.not_hasFloat hg
  have hleft := chained_of_not_hasFloat (h.not_hasFloat hf) hvf hwf
  have hright := chained_of_not_hasFloat (h.not_hasFloat hf) hwf (h'.not_hasFloat hg)
  rw [← hleft.eq_left (h.compare_eq hv), ← hright.eq_right (hw.compare_eq h')]

end SortsBy
end Value

/-! ## What an ordering says -/

namespace SortKey

/-- A key puts one row before another. -/
def Before (k : SortKey) (a b : Row) : Prop :=
  ∃ v w, Value.SortsBy (k.field.resolve a) v ∧ Value.SortsBy (k.field.resolve b) w ∧
    match k.direction with
    | .ascending => v.compare w = .lt
    | .descending => v.compare w = .gt

/-- A key does not tell two rows apart. -/
def Ties (k : SortKey) (a b : Row) : Prop :=
  ∃ v w, Value.SortsBy (k.field.resolve a) v ∧ Value.SortsBy (k.field.resolve b) w ∧
    v.compare w = .eq

end SortKey

/-- An ordering puts one row before another: the first key that tells them apart does. -/
def Precedes : List SortKey → Row → Row → Prop
  | [], _, _ => False
  | k :: ks, a, b => k.Before a b ∨ k.Ties a b ∧ Precedes ks a b

/-- No field of a row that is sorted by has a float in it. -/
def FloatFree (ordering : List SortKey) (row : Row) : Prop :=
  ∀ k ∈ ordering, ∀ v, k.field.resolve row = some v → ¬v.HasFloat

section Compare

variable {k : SortKey} {ordering : List SortKey} {a b c : Row}

theorem compareRows_cons (k : SortKey) (ks : List SortKey) (a b : Row) :
    compareRows (k :: ks) a b =
      (Value.sortCompare (k.field.resolve a) (k.field.resolve b) k.direction).then
        (compareRows ks a b) := rfl

theorem compareRows_swap (ordering : List SortKey) (a b : Row) :
    compareRows ordering b a = (compareRows ordering a b).swap := by
  induction ordering with
  | nil => rfl
  | cons k ks ih =>
    rw [compareRows_cons, compareRows_cons, Ordering.swap_then, ih]
    congr 1
    unfold Value.sortCompare
    cases k.direction
    · exact Value.compare_swap _ _
    · exact congrArg Ordering.swap (Value.compare_swap _ _)

theorem chained_compareRows (ha : FloatFree ordering a) (hb : FloatFree ordering b)
    (hc : FloatFree ordering c) :
    Chained (compareRows ordering a b) (compareRows ordering b c) (compareRows ordering a c) := by
  induction ordering with
  | nil => exact ⟨fun _ => rfl, fun _ => rfl, fun _ => rfl⟩
  | cons k ks ih =>
    obtain ⟨ha, has⟩ := List.forall_mem_cons.1 ha
    obtain ⟨hb, hbs⟩ := List.forall_mem_cons.1 hb
    obtain ⟨hc, hcs⟩ := List.forall_mem_cons.1 hc
    simp only [compareRows_cons]
    refine Chained.lex ?_ fun _ _ => ih has hbs hcs
    have hvalues := Value.chained_of_not_hasFloat ((Value.sortsBy_sortKey ha).not_hasFloat ha)
      ((Value.sortsBy_sortKey hb).not_hasFloat hb) ((Value.sortsBy_sortKey hc).not_hasFloat hc)
    unfold Value.sortCompare
    cases k.direction
    · exact hvalues
    · exact hvalues.swap

/-- Rows without floats to sort by are ordered. -/
theorem preorders_compareRows (ordering : List SortKey) :
    Preorders (FloatFree ordering) (compareRows ordering) where
  asymm _ _ h := by
    rw [compareRows_swap, h]
    nofun
  trans ha hb hc := (chained_compareRows ha hb hc).ne_lt_trans

theorem SortKey.before_iff (ha : ∀ v, k.field.resolve a = some v → ¬v.HasFloat)
    (hb : ∀ v, k.field.resolve b = some v → ¬v.HasFloat) : k.Before a b ↔
      Value.sortCompare (k.field.resolve a) (k.field.resolve b) k.direction = .lt := by
  unfold Before Value.sortCompare
  constructor
  · rintro ⟨v, w, hv, hw, h⟩
    rw [hv.compare_sortKey ha hb hw]
    cases hdir : k.direction <;> simp [hdir] at h ⊢ <;> exact h
  · intro h
    refine ⟨_, _, Value.sortsBy_sortKey ha, Value.sortsBy_sortKey hb, ?_⟩
    cases hdir : k.direction <;> simp [hdir] at h ⊢ <;> exact h

theorem SortKey.ties_iff (ha : ∀ v, k.field.resolve a = some v → ¬v.HasFloat)
    (hb : ∀ v, k.field.resolve b = some v → ¬v.HasFloat) : k.Ties a b ↔
      Value.sortCompare (k.field.resolve a) (k.field.resolve b) k.direction = .eq := by
  have hsort : Value.sortCompare (k.field.resolve a) (k.field.resolve b) k.direction = .eq ↔
      ((k.field.resolve a).getD .null).sortKey.compare ((k.field.resolve b).getD .null).sortKey =
        .eq := by
    unfold Value.sortCompare
    cases k.direction <;> simp
  rw [hsort]
  constructor
  · rintro ⟨v, w, hv, hw, h⟩
    rwa [hv.compare_sortKey ha hb hw]
  · exact fun h => ⟨_, _, Value.sortsBy_sortKey ha, Value.sortsBy_sortKey hb, h⟩

theorem precedes_iff (ha : FloatFree ordering a) (hb : FloatFree ordering b) :
    Precedes ordering a b ↔ compareRows ordering a b = .lt := by
  induction ordering with
  | nil => exact ⟨nofun, nofun⟩
  | cons k ks ih =>
    obtain ⟨ha, has⟩ := List.forall_mem_cons.1 ha
    obtain ⟨hb, hbs⟩ := List.forall_mem_cons.1 hb
    rw [Precedes, SortKey.before_iff ha hb, SortKey.ties_iff ha hb, ih has hbs, compareRows_cons,
      Ordering.then_eq_lt]

theorem ties_iff (ha : FloatFree ordering a) (hb : FloatFree ordering b) :
    (∀ k ∈ ordering, k.Ties a b) ↔ compareRows ordering a b = .eq := by
  induction ordering with
  | nil => exact ⟨fun _ => rfl, fun _ => nofun⟩
  | cons k ks ih =>
    obtain ⟨ha, has⟩ := List.forall_mem_cons.1 ha
    obtain ⟨hb, hbs⟩ := List.forall_mem_cons.1 hb
    rw [List.forall_mem_cons, SortKey.ties_iff ha hb, ih has hbs, compareRows_cons,
      Ordering.then_eq_eq]

/-- Rows that an ordering by the key does not tell apart have one key. -/
theorem key_eq_of_compareRows (hkey : ∃ k ∈ ordering, k.field = .key)
    (h : compareRows ordering a b = .eq) : a.key = b.key := by
  obtain ⟨k, hk, hfield⟩ := hkey
  induction ordering with
  | nil => cases hk
  | cons k' ks ih =>
    rw [compareRows_cons, Ordering.then_eq_eq] at h
    rcases List.mem_cons.1 hk with rfl | hk
    · have hcompare : a.key.compare b.key = .eq := by
        have h := h.1
        rw [hfield] at h
        cases hdir : k.direction <;>
          simpa [Value.sortCompare, Field.resolve, Value.sortKey, Value.compare, hdir] using h
      exact Std.LawfulEqCmp.eq_of_compare hcompare
    · exact ih h.2 hk

end Compare

/-! ## What a query selects -/

/-- An element at a position of the window. -/
theorem Window.getElem?_slice {α : Type} (w : Window) (xs : List α) (i : Nat) :
    (w.slice xs)[i]? = if w.stop.all fun stop => w.start.toNat + i < stop.toNat then
      xs[w.start.toNat + i]? else none := by
  unfold slice limit?
  cases w.stop with
  | none => simp
  | some stop =>
    by_cases hlt : stop < w.start
    · have hle : stop.toNat < w.start.toNat := UInt64.lt_iff_toNat_lt.1 hlt
      simp only [Option.map_some, if_pos hlt, Option.all_some, decide_eq_true_eq]
      rw [if_neg (by omega)]
      rfl
    · have hle : w.start ≤ stop := UInt64.not_lt.1 hlt
      have hsub : (stop - w.start).toNat = stop.toNat - w.start.toNat :=
        UInt64.toNat_sub_of_le _ _ hle
      simp only [Option.map_some, if_neg hlt, hsub, List.getElem?_take, List.getElem?_drop,
        Option.all_some, decide_eq_true_eq]
      split <;> split <;> first | rfl | omega

namespace Query

variable {q : Query} {b : Bindings}

/-- The rows that a query selects, without its window, are the candidates that its filter holds on,
each as often as it comes, and the ordering puts each of them before those that follow or does not
tell them apart. Rows that it does not tell apart stay in the order of the candidates. The window
selects the positions that it holds. If the ordering has the key in it and no two candidates have
one key, the order of the candidates does not matter. -/
theorem select_sorted (q : Query) (b : Bindings) (rows result : List Row)
    (h : q.select b rows = .ok result)
    (hfree : ∀ row ∈ rows, q.keeps b row → FloatFree q.ordering row) :
    ∃ sorted, Query.select { q with window := {} } b rows = .ok sorted ∧
      (sorted.Perm (rows.filter (q.keeps b)) ∧
        sorted.Pairwise (fun r r' => Precedes q.ordering r r' ∨ ∀ k ∈ q.ordering, k.Ties r r') ∧
        ∀ tied : List Row, tied.Sublist (rows.filter (q.keeps b)) →
          tied.Pairwise (fun r r' => ∀ k ∈ q.ordering, k.Ties r r') → tied.Sublist sorted) ∧
      (∀ i, result[i]? = if q.window.stop.all fun stop => q.window.start.toNat + i < stop.toNat then
        sorted[q.window.start.toNat + i]? else none) ∧
      ((∃ k ∈ q.ordering, k.field = .key) → (rows.map (·.key)).Nodup →
        ∀ rows' : List Row, rows'.Perm rows → q.select b rows' = .ok result) := by
  obtain ⟨hall, rfl⟩ := select_eq_ok.1 h
  generalize hkept : rows.filter (q.keeps b) = kept
  have hfree : ∀ r ∈ kept, FloatFree q.ordering r := by
    intro r hr
    rw [← hkept] at hr
    obtain ⟨hr, hk⟩ := List.mem_filter.1 hr
    exact hfree r hr hk
  have hperm := perm_stableSort (compareRows q.ordering) kept
  have hsorted := pairwise_stableSort (preorders_compareRows q.ordering) hfree
  refine ⟨stableSort (compareRows q.ordering) kept, ?_, ⟨hperm, ?_, fun tied htied hties => ?_⟩,
    q.window.getElem?_slice _, fun hkey hnodup rows' hrows => ?_⟩
  · rw [← hkept]
    exact select_eq_ok.2 ⟨hall, rfl⟩
  · refine hsorted.imp_of_mem fun {r r'} hr hr' hle => ?_
    have hr := hfree r (hperm.mem_iff.1 hr)
    have hr' := hfree r' (hperm.mem_iff.1 hr')
    rw [precedes_iff hr hr', ties_iff hr hr']
    rw [compareRows_swap] at hle
    cases hc : compareRows q.ordering r r' <;> simp [hc] at hle ⊢
  · refine sublist_stableSort htied (hties.imp_of_mem fun {r r'} hr hr' hk => ?_)
    rw [compareRows_swap,
      (ties_iff (hfree r (htied.subset hr)) (hfree r' (htied.subset hr'))).1 hk]
    nofun
  · refine select_eq_ok.2 ⟨fun f hf r hr => hall f hf r (hrows.mem_iff.1 hr), ?_⟩
    have hkept' : (rows'.filter (q.keeps b)).Perm kept := hkept ▸ hrows.filter _
    congr 1
    refine (stableSort_eq_of_perm (preorders_compareRows q.ordering) hkept'.symm hfree ?_).symm
    intro r hr r' hr' hle hle'
    -- Rows that tie have one key, and no other row has it.
    have htie : compareRows q.ordering r r' = .eq := by
      rw [compareRows_swap] at hle'
      cases hc : compareRows q.ordering r r' <;> simp [hc] at hle hle' ⊢
    have hmem : ∀ r ∈ kept, r ∈ rows := fun r hr => (List.mem_filter.1 (hkept ▸ hr)).1
    exact List.inj_on_of_nodup_map hnodup (hmem r hr) (hmem r' hr')
      (key_eq_of_compareRows hkey htie)

/-- A player with scores. -/
def samplePlayer (n : UInt64) (scores : List Int64) : Row where
  key := .single ⟨"Player", some (.number n)⟩ ⟨by simp, by simp⟩
  properties := SortedMap.empty.insert "scores" (.list (scores.map .int))

/-- The first two players but the fourth, the one with the greatest lowest score before all. -/
def sampleRanking : Query where
  kind := "Player"
  filter := some (.compare .key .ne (.literal (.key (samplePlayer 4 []).key)))
  ordering := [⟨.property "scores", .descending⟩, ⟨.key, .ascending⟩]
  window := { stop := some 2 }

/-- Four players, of whom two have no score. -/
def samplePlayers : List Row :=
  [samplePlayer 2 [], samplePlayer 4 [9], samplePlayer 1 [], samplePlayer 3 [5, 2]]

theorem floatFree_samplePlayer (n : UInt64) (scores : List Int64) :
    FloatFree sampleRanking.ordering (samplePlayer n scores) := by
  intro k hk v hv hfloat
  simp only [sampleRanking, List.mem_cons, List.not_mem_nil, or_false] at hk
  obtain rfl | rfl := hk
  · obtain rfl : Value.list (scores.map .int) = v := Option.some.inj hv
    cases hfloat with
    | item hm hitem =>
      obtain ⟨i, -, rfl⟩ := List.mem_map.1 hm
      cases hitem
  · obtain rfl : Value.key (samplePlayer n scores).key = v := Option.some.inj hv
    cases hfloat

theorem select_sorted_sample :
    sampleRanking.select {} samplePlayers = .ok [samplePlayer 3 [5, 2], samplePlayer 1 []] ∧
      sampleRanking.select {} samplePlayers.reverse =
        .ok [samplePlayer 3 [5, 2], samplePlayer 1 []] := by
  have hselect : sampleRanking.select {} samplePlayers =
      .ok [samplePlayer 3 [5, 2], samplePlayer 1 []] := rfl
  obtain ⟨sorted, -, -, -, hany⟩ := select_sorted sampleRanking {} _ _ hselect <| by
    simp only [samplePlayers, List.mem_cons, List.not_mem_nil, or_false]
    rintro row (rfl | rfl | rfl | rfl) - <;> exact floatFree_samplePlayer _ _
  have hkey : ∃ k ∈ sampleRanking.ordering, k.field = .key :=
    ⟨_, List.mem_cons_of_mem _ List.mem_cons_self, rfl⟩
  exact ⟨hselect, hany hkey (by decide +kernel) _ (List.reverse_perm _)⟩

end Query
end EntityGraph
