import Mathlib.Data.List.Sort
import EntityGraph.Proofs.Key.Encoding
import EntityGraph.Store

/-!
# Subtrees are ranges

A key and its descendants are a range of keys, with the key at its beginning, and a range of bytes,
those that begin with the bytes of the key.

* `PathElement.bytes_prefix_iff`: no element's bytes are a beginning of those of another one, also
  not with more bytes behind them. This follows from the way in which elements sort (`SortsAs`);
* `flatMap_bytes_prefix_iff`: so the bytes of a path begin with those of its beginnings only;
* `prefix_of_between`: what sorts between a path and one of its extensions is an extension too;
* `Key.isRange`: a key and its descendants, by their bytes, by their order and in a table of rows.
-/

namespace EntityGraph

/-! ## Bytes -/

/-- Bytes of which one begin the other are equal in the order. -/
theorem SortsAs.eq_of_isPrefix {o : Ordering} {as bs us vs : List UInt8} (h : SortsAs o as bs)
    (hp : as ++ us <+: bs ++ vs) : o = .eq := by
  obtain ⟨ws, hws⟩ := hp
  have hcompare := h (us ++ ws) vs
  rw [← List.append_assoc, hws, Std.ReflOrd.compare_self] at hcompare
  exact (Ordering.then_eq_eq.1 hcompare.symm).1

theorem PathElement.bytes_prefix_iff {e f : PathElement} (he : e.id.isSome) (hf : f.id.isSome)
    {us vs : List UInt8} : e.bytes ++ us <+: f.bytes ++ vs ↔ e = f ∧ us <+: vs := by
  constructor
  · intro h
    obtain rfl := Std.LawfulEqCmp.eq_of_compare ((bytes_sortsAs he hf).eq_of_isPrefix h)
    exact ⟨rfl, (List.prefix_append_right_inj _).1 h⟩
  · rintro ⟨rfl, h⟩
    exact (List.prefix_append_right_inj _).2 h

/-- The bytes of a path without a missing id begin with those of another exactly if the path begins
with the other. -/
theorem flatMap_bytes_prefix_iff : ∀ {p q : List PathElement}, (∀ e ∈ p, e.id.isSome) →
    (∀ e ∈ q, e.id.isSome) →
    (p.flatMap PathElement.bytes <+: q.flatMap PathElement.bytes ↔ p <+: q)
  | [], _, _, _ => by simp
  | e :: p, [], _, _ => by
    obtain ⟨b, bs, he⟩ := e.exists_bytes_eq_cons
    simp [he]
  | e :: p, f :: q, hp, hq => by
    obtain ⟨he, hp⟩ := List.forall_mem_cons.1 hp
    obtain ⟨hf, hq⟩ := List.forall_mem_cons.1 hq
    rw [List.flatMap_cons, List.flatMap_cons, PathElement.bytes_prefix_iff he hf,
      flatMap_bytes_prefix_iff hp hq, List.cons_prefix_cons]

/-! ## Order -/

theorem PathElement.compare_self (e : PathElement) : e.compare e = .eq :=
  Std.ReflCmp.compare_self

theorem isLE_compareLex_of_prefix : ∀ {p q : List PathElement}, p <+: q →
    (List.compareLex PathElement.compare p q).isLE
  | [], _, _ => List.isLE_compareLex_nil_left
  | e :: p, [], h => absurd h (by simp)
  | e :: p, f :: q, h => by
    obtain ⟨rfl, htail⟩ := List.cons_prefix_cons.1 h
    rw [List.compareLex_cons_cons, e.compare_self, Ordering.eq_then]
    exact isLE_compareLex_of_prefix htail

/-- What is between a path and one that begins with it begins with it too. -/
theorem prefix_of_between : ∀ {p q r : List PathElement},
    (List.compareLex PathElement.compare p q).isLE →
    (List.compareLex PathElement.compare q r).isLE → p <+: r → p <+: q
  | [], _, _, _, _, _ => List.nil_prefix
  | _ :: _, [], _, hpq, _, _ => by cases hpq
  | _ :: _, _ :: _, [], _, _, h => absurd h (by simp)
  | e :: p, f :: q, g :: r, hpq, hqr, h => by
    obtain ⟨rfl, htail⟩ := List.cons_prefix_cons.1 h
    rw [List.compareLex_cons_cons] at hpq hqr
    -- Neither element comes before the other, so that the rests of the paths decide.
    obtain rfl : e = f := Std.LawfulEqCmp.eq_of_compare <| Std.OrientedCmp.isLE_antisymm
      (Ordering.isLE_left_of_isLE_then hpq) (Ordering.isLE_left_of_isLE_then hqr)
    rw [e.compare_self, Ordering.eq_then] at hpq hqr
    exact List.cons_prefix_cons.2 ⟨rfl, prefix_of_between hpq hqr htail⟩

namespace Key

variable {a k x d : Key}

theorem isLE_of_isWithin (h : d.isWithin a) : (a.compare d).isLE :=
  isLE_compareLex_of_prefix (isWithin_iff.1 h)

theorem isWithin_of_between (hd : d.isWithin a) (hx : (a.compare x).isLE)
    (hxd : (x.compare d).isLE) : x.isWithin a :=
  isWithin_iff.2 (prefix_of_between hx hxd (isWithin_iff.1 hd))

/-- Whether a key neither comes before another nor is within it. -/
def isBehind (a k : Key) : Bool := a.compare k != .gt && !k.isWithin a

/-- A key behind another comes behind all that is within that one. -/
theorem lt_of_isBehind (hk : a.isBehind k) (hd : d.isWithin a) : d.compare k = .lt := by
  simp only [isBehind, Bool.and_eq_true, bne_iff_ne, Bool.not_eq_true'] at hk
  by_cases hkd : k.compare d = .gt
  · exact Std.OrientedCmp.gt_iff_lt.1 hkd
  · have hwithin := isWithin_of_between hd (Ordering.isLE_iff_ne_gt.2 hk.1)
      (Ordering.isLE_iff_ne_gt.2 hkd)
    cases hk.2.symm.trans hwithin

theorem isWithin_self (a : Key) : a.isWithin a := by simp [isWithin]

theorem isWithin_of_isAncestorOf (h : a.isAncestorOf d) : d.isWithin a := by
  rw [isWithin, h, Bool.or_true]

theorem lt_of_isAncestorOf (h : a.isAncestorOf d) : a.compare d = .lt := by
  have hle := Ordering.isLE_iff_eq_lt_or_eq_eq.1 (isLE_of_isWithin (isWithin_of_isAncestorOf h))
  refine hle.resolve_right fun heq => ?_
  obtain rfl := Std.LawfulEqCmp.eq_of_compare heq
  simp [isAncestorOf] at h

/-- A key is before another, is the same, is below it or is behind it. -/
theorem place (a k : Key) :
    k.compare a = .lt ∨ k = a ∨ a.isAncestorOf k ∨ a.isBehind k := by
  have hle : k.compare a = .lt ∨ a.compare k ≠ .gt := by
    rw [ne_eq, Std.OrientedCmp.gt_iff_lt]
    exact Decidable.em _
  cases hk : k.isWithin a with
  | true =>
    simp only [isWithin, Bool.or_eq_true, beq_iff_eq] at hk
    tauto
  | false =>
    refine hle.imp_right fun hle => .inr (.inr ?_)
    simp [isBehind, hk, hle]

end Key

/-! ## Rows -/

/-- Rows are listed in the order of their keys. -/
def Row.Before (r r' : Row) : Prop := r.key.compare r'.key = .lt

instance : Std.Irrefl Row.Before := ⟨fun r => SortedMap.not_lt_self r.key⟩

instance : Std.Antisymm Row.Before where
  antisymm _ _ h h' := by cases (Std.OrientedCmp.gt_iff_lt.2 h).symm.trans h'

/-- Sorted rows before a key, a row of the key, rows below it and rows behind it are sorted. -/
theorem pairwise_blocks {a : Key} {before below behind : List Row} {own : Option Row}
    (hbefore : before.Pairwise Row.Before ∧ ∀ r ∈ before, r.key.compare a = .lt)
    (hown : ∀ r, own = some r → r.key = a)
    (hbelow : below.Pairwise Row.Before ∧ ∀ r ∈ below, a.isAncestorOf r.key)
    (hbehind : behind.Pairwise Row.Before ∧ ∀ r ∈ behind, a.isBehind r.key) :
    (before ++ (own.toList ++ (below ++ behind))).Pairwise Row.Before := by
  have hle : ∀ r ∈ own.toList ++ (below ++ behind), (a.compare r.key).isLE := by
    simp only [List.mem_append, Option.mem_toList]
    rintro r (hr | hr | hr)
    · exact Key.isLE_of_isWithin (hown r hr ▸ a.isWithin_self)
    · exact Ordering.isLE_of_eq_lt (Key.lt_of_isAncestorOf (hbelow.2 r hr))
    · exact Ordering.isLE_of_eq_lt (Key.lt_of_isBehind (hbehind.2 r hr) a.isWithin_self)
  refine List.pairwise_append.2 ⟨hbefore.1, List.pairwise_append.2 ⟨by cases own <;> simp,
    List.pairwise_append.2 ⟨hbelow.1, hbehind.1, fun r hr r' hr' => ?_⟩, fun r hr r' hr' => ?_⟩,
    fun r hr r' hr' => Std.TransCmp.lt_of_lt_of_isLE (hbefore.2 r hr) (hle r' hr')⟩
  · exact Key.lt_of_isBehind (hbehind.2 r' hr') (Key.isWithin_of_isAncestorOf (hbelow.2 r hr))
  · rw [Row.Before, hown r (Option.mem_toList.1 hr)]
    rcases List.mem_append.1 hr' with hr' | hr'
    · exact Key.lt_of_isAncestorOf (hbelow.2 r' hr')
    · exact Key.lt_of_isBehind (hbehind.2 r' hr') a.isWithin_self

namespace RowTable

theorem pairwise_rows (t : RowTable) : t.rows.Pairwise Row.Before :=
  List.pairwise_map.2 t.byKey.sorted

/-- A table lists the rows before a key, the row of the key, the rows below it and those behind. -/
theorem rows_eq_blocks (t : RowTable) (a : Key) : t.rows =
    t.rows.filter (·.key.compare a == .lt) ++ ((t.row? a).toList ++
      (t.rows.filter (a.isAncestorOf ·.key) ++ t.rows.filter (a.isBehind ·.key))) := by
  refine t.pairwise_rows.eq_of_mem_iff (pairwise_blocks ⟨t.pairwise_rows.filter _, by simp⟩
    (fun r => key_of_row?) ⟨t.pairwise_rows.filter _, by simp⟩
    ⟨t.pairwise_rows.filter _, by simp⟩) fun r => ?_
  have hrow : t.row? a = some r ↔ r ∈ t.rows ∧ r.key = a :=
    ⟨fun h => ⟨mem_rows.2 (key_of_row? h ▸ h), key_of_row? h⟩, fun ⟨h, ha⟩ => ha ▸ mem_rows.1 h⟩
  have hplace := Key.place a r.key
  simp only [List.mem_append, List.mem_filter, Option.mem_toList, hrow, beq_iff_eq]
  tauto

end RowTable

namespace Key

/-- A key and its descendants are a range. -/
structure IsRange (a : Key) : Prop where
  /-- The bytes of a complete key are a beginning of those of its descendants, and of no others. -/
  bytes : ∀ b : Key, a.isComplete → b.isComplete → ∃ as bs, a.encode = .ok as ∧ b.encode = .ok bs ∧
    (as <+: bs ↔ b.isWithin a)
  /-- The key comes first. -/
  first : ∀ d : Key, d.isWithin a → (a.compare d).isLE
  /-- There is nothing else between the key and its descendants. -/
  between : ∀ x d : Key, d.isWithin a → (a.compare x).isLE → (x.compare d).isLE → x.isWithin a
  /-- In a table the row of the key is followed by those of its descendants, and these by rows that
  come behind all of its descendants, stored or not. -/
  rows : ∀ t : RowTable, ∃ before behind,
    t.rows = before ++ ((t.row? a).toList ++ (t.rows.filter (a.isAncestorOf ·.key) ++ behind)) ∧
    (∀ r ∈ before, r.key.compare a = .lt) ∧
    ∀ r ∈ behind, ∀ d : Key, d.isWithin a → d.compare r.key = .lt

theorem isRange (a : Key) : a.IsRange where
  bytes b ha hb := by
    refine ⟨_, _, if_pos ha, if_pos hb, ?_⟩
    rw [isWithin_iff]
    exact flatMap_bytes_prefix_iff (isSome_of_isComplete ha) (isSome_of_isComplete hb)
  first _ := isLE_of_isWithin
  between _ _ := isWithin_of_between
  rows t := ⟨_, _, t.rows_eq_blocks a, by simp, fun r hr d =>
    lt_of_isBehind (List.mem_filter.1 hr).2⟩

end Key
end EntityGraph
