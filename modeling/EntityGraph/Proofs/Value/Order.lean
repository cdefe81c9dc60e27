import EntityGraph.Proofs.Value.Rounding
import EntityGraph.Value
import EntityGraph.Key.Order

/-!
# The order of values

Sorting compares two integers exactly, and an integer with a float by the nearest number. The two
agree until a float meets two integers that both round to it, and that is the only way in which the
order for sorting fails to be transitive.

* `Value.compare_swap`: the order does not depend on the side a value stands on;
* `Value.chained`: the order is transitive on values whose integers rounding tells apart;
* `Value.sortable_iff`: the sets of values of which the order is a total preorder with the NaNs at
  the end of the numbers;
* `Value.sortable_of_exact`: such are the values whose integers have at most 53 binary digits and
  whose NaNs are not negative.
-/

namespace EntityGraph

/-! ## Chains of comparisons -/

/-- What the comparisons of `a` with `b` and of `b` with `c` leave open for that of `a` with `c` in
a total preorder. -/
structure Chained (ab bc ac : Ordering) : Prop where
  eq_left : ab = .eq → ac = bc
  eq_right : bc = .eq → ac = ab
  agree : ab = bc → ac = ab

namespace Chained

variable {ab bc ac x : Ordering}

theorem of_transCmp {α : Type} (cmp : α → α → Ordering) [Std.TransCmp cmp] (a b c : α) :
    Chained (cmp a b) (cmp b c) (cmp a c) where
  eq_left h := Std.TransCmp.congr_left h
  eq_right h := (Std.TransCmp.congr_right h).symm
  agree h := by
    cases hab : cmp a b with
    | lt => exact Std.TransCmp.lt_trans hab (h ▸ hab)
    | eq => exact Std.TransCmp.eq_trans hab (h ▸ hab)
    | gt => exact Std.TransCmp.gt_trans hab (h ▸ hab)

theorem left (h : x ≠ .eq) : Chained x bc x :=
  ⟨fun hx => absurd hx h, fun _ => rfl, fun _ => rfl⟩

theorem right (h : x ≠ .eq) : Chained ab x x :=
  ⟨fun _ => rfl, fun hx => absurd hx h, fun hx => hx.symm⟩

theorem apart (hab : ab ≠ .eq) (hbc : bc ≠ .eq) (h : ab ≠ bc) : Chained ab bc ac :=
  ⟨fun hx => absurd hx hab, fun hx => absurd hx hbc, fun hx => absurd hx h⟩

theorem middle (h : x ≠ .eq) : Chained x x.swap ac := by
  cases x with
  | lt => exact apart h nofun nofun
  | eq => exact absurd rfl h
  | gt => exact apart h nofun nofun

/-- The second comparisons decide where the first tell nothing apart. -/
theorem lex {ab' bc' ac' : Ordering} (h : Chained ab bc ac)
    (h' : ab = .eq → bc = .eq → Chained ab' bc' ac') :
    Chained (ab.then ab') (bc.then bc') (ac.then ac') := by
  have hthen : ∀ {x y : Ordering}, x ≠ .eq → x.then y = x := by
    intro x y hx
    cases x <;> first | rfl | exact absurd rfl hx
  by_cases hab : ab = .eq <;> by_cases hbc : bc = .eq
  · rw [h.eq_left hab, hab, hbc]
    exact h' hab hbc
  · simp only [h.eq_left hab, hthen hbc]
    exact right hbc
  · simp only [h.eq_right hbc, hthen hab]
    exact left hab
  · simp only [hthen hab, hthen hbc]
    by_cases hs : ab = bc
    · simp only [h.agree hs, hthen hab]
      exact left hab
    · exact apart hab hbc hs

theorem isLE_trans (h : Chained ab bc ac) (hab : ab.isLE) (hbc : bc.isLE) : ac.isLE := by
  by_cases he : ab = .eq
  · rwa [h.eq_left he]
  · by_cases hc : bc = .eq
    · rwa [h.eq_right hc]
    · rwa [h.agree]
      cases ab <;> cases bc <;> simp_all

theorem swap {ab bc ac : Ordering} (h : Chained ab bc ac) :
    Chained ab.swap bc.swap ac.swap where
  eq_left he := by rw [h.eq_left (Ordering.swap_eq_eq.1 he)]
  eq_right he := by rw [h.eq_right (Ordering.swap_eq_eq.1 he)]
  agree he := by rw [h.agree (Ordering.swap_inj.1 he)]

theorem ne_lt_trans {ab bc ac : Ordering} (h : Chained ab bc ac) (hab : ab ≠ .lt)
    (hbc : bc ≠ .lt) : ac ≠ .lt := by
  have hge := h.swap.isLE_trans (Ordering.isLE_iff_ne_gt.2 (by simpa using hab))
    (Ordering.isLE_iff_ne_gt.2 (by simpa using hbc))
  simpa using Ordering.isLE_iff_ne_gt.1 hge

end Chained

namespace Value

/-- What a value has whenever its items have it, every value has. -/
theorem induct {p : Value → Prop} (h : ∀ v, (∀ w ∈ v.list?.getD [], p w) → p v) : ∀ v, p v
  | .list items => h _ fun w (_ : w ∈ items) => induct h w
  | .null | .bool _ | .int _ | .float _ | .text _ | .blob _ | .key _ => h _ nofun

/-- A float is in a value, at whatever depth. -/
inductive HasFloat : Value → Prop where
  | float (d : Double) : HasFloat (.float d)
  | item {items : List Value} {v : Value} : v ∈ items → HasFloat v → HasFloat (.list items)

theorem compare_eq_then (a b : Value) :
    a.compare b = (Ord.compare a.rank b.rank).then (a.compare b) := by
  cases a <;> cases b <;> simp [Value.compare, rank]

theorem compare_toInt (i k : Int64) : Ord.compare i k = Ord.compare i.toInt k.toInt := by
  simp [Ord.compare, compareOfLessAndEq, Int64.lt_iff_toInt_lt, ← Int64.toInt_inj]

/-! ## Numbers -/

/-- The place of a number or NaN in the order for sorting next to a float. -/
def numberPlace : Value → Int
  | int i => (intAsDouble i).place
  | float d => d.place
  | _ => 0

theorem exists_of_rank_eq_two {v : Value} (h : v.rank = 2) :
    (∃ i, v = int i) ∨ ∃ d, v = float d := by
  cases v <;> simp [rank] at h ⊢

theorem compare_float_left (d : Double) {v : Value} (h : v.rank = 2) :
    (float d).compare v = Ord.compare d.place v.numberPlace := by
  obtain ⟨i, rfl⟩ | ⟨e, rfl⟩ := exists_of_rank_eq_two h <;>
    simp only [Value.compare, Double.sortCompare_eq, numberPlace]

theorem compare_float_right (d : Double) {v : Value} (h : v.rank = 2) :
    v.compare (float d) = Ord.compare v.numberPlace d.place := by
  obtain ⟨i, rfl⟩ | ⟨e, rfl⟩ := exists_of_rank_eq_two h <;>
    simp only [Value.compare, Double.sortCompare_eq, numberPlace]

/-- Rounding keeps the order of two integers, or gives both one place. -/
theorem compare_int (i k : Int64) :
    (int i).compare (int k) = Ord.compare (int i).numberPlace (int k).numberPlace ∨
      (int i).numberPlace = (int k).numberPlace ∧ i ≠ k := by
  simp only [Value.compare, numberPlace, intAsDouble]
  by_cases heq : i = k
  · left
    rw [heq, Int.compare_eq_eq.2 rfl]
    exact Std.ReflCmp.compare_self
  by_cases hp : (Double.ofInt i.toInt).place = (Double.ofInt k.toInt).place
  · exact .inr ⟨hp, heq⟩
  left
  rw [compare_toInt]
  have hne : i.toInt ≠ k.toInt := fun h => heq (Int64.toInt_inj.1 h)
  by_cases h : i.toInt < k.toInt
  · have hle := Double.place_ofInt_mono (Int.le_of_lt h)
    rw [Int.compare_eq_lt.2 h, Int.compare_eq_lt.2 (by omega)]
  · have hle := Double.place_ofInt_mono (i := k.toInt) (j := i.toInt) (by omega)
    rw [Int.compare_eq_gt.2 (by omega), Int.compare_eq_gt.2 (by omega)]

section

variable {S : Value → Prop}

/-- Lists keep what holds of their items. -/
theorem chained_items {as bs cs : List Value}
    (h : ∀ a ∈ as, ∀ b c, S b → S c → Chained (a.compare b) (b.compare c) (a.compare c))
    (hbs : ∀ b ∈ bs, S b) (hcs : ∀ c ∈ cs, S c) :
    Chained (Value.compareItems as bs) (Value.compareItems bs cs) (Value.compareItems as cs) := by
  induction as generalizing bs cs with
  | nil =>
    cases bs with
    | nil =>
      cases cs with
      | nil => exact ⟨fun _ => rfl, fun _ => rfl, fun _ => rfl⟩
      | cons c cs => exact .right nofun
    | cons b bs =>
      cases cs with
      | nil => exact .middle nofun
      | cons c cs => exact .left nofun
  | cons a as ih =>
    cases bs with
    | nil =>
      cases cs with
      | nil => exact .left nofun
      | cons c cs => exact .middle nofun
    | cons b bs =>
      cases cs with
      | nil => exact .right nofun
      | cons c cs =>
        have hhead := h a (.head _) b c (hbs b (.head _)) (hcs c (.head _))
        exact hhead.lex fun _ _ => ih (fun v hv => h v (.tail _ hv))
          (fun v hv => hbs v (.tail _ hv)) (fun v hv => hcs v (.tail _ hv))

variable (hitems : ∀ items, S (.list items) → ∀ v ∈ items, S v)
  (hround : ∀ i j, S (.int i) → S (.int j) → S (.float (intAsDouble i)) →
    intAsDouble i = intAsDouble j → i = j)
include hround

/-- A float keeps apart from two integers that rounding does not tell apart. -/
theorem place_ne_of_round {d : Double} {i j : Int64} (hd : S (.float d)) (hi : S (.int i))
    (hj : S (.int j)) (hne : i ≠ j) (hp : (int i).numberPlace = (int j).numberPlace) :
    (int i).numberPlace ≠ d.place := by
  intro h
  have hij : intAsDouble i = intAsDouble j := Double.ofInt_eq_of_place hp
  have h0 : (int i).numberPlace ≠ 0 := by
    intro h0
    refine hne (Int64.toInt_inj.1 ?_)
    rw [Double.place_ofInt_eq_zero h0, Double.place_ofInt_eq_zero (hp.symm.trans h0)]
  have hd' : intAsDouble i = d := Double.eq_of_place_eq h h0
  exact hne (hround i j hi hj (hd' ▸ hd) hij)

theorem chained_numbers {a b c : Value} (ha : S a) (hb : S b) (hc : S c) (hra : a.rank = 2)
    (hrb : b.rank = 2) (hrc : c.rank = 2) :
    Chained (a.compare b) (b.compare c) (a.compare c) := by
  have hplaces := Chained.of_transCmp Ord.compare a.numberPlace b.numberPlace c.numberPlace
  obtain ⟨i, rfl⟩ | ⟨x, rfl⟩ := exists_of_rank_eq_two hra <;>
    obtain ⟨j, rfl⟩ | ⟨y, rfl⟩ := exists_of_rank_eq_two hrb <;>
    obtain ⟨k, rfl⟩ | ⟨z, rfl⟩ := exists_of_rank_eq_two hrc
  · exact Chained.of_transCmp Ord.compare i j k
  · rw [compare_float_right _ hra, compare_float_right _ hrb]
    obtain h | ⟨h, hne⟩ := compare_int i j
    · rw [h]
      exact hplaces
    · have hz := place_ne_of_round hround hc ha hb hne h
      rw [← h]
      exact .right (mt Int.compare_eq_eq.1 hz)
  · rw [compare_float_right _ hra, compare_float_left _ hrc]
    obtain h | ⟨h, hne⟩ := compare_int i k
    · rw [h]
      exact hplaces
    · have hy := place_ne_of_round hround hb ha hc hne h
      rw [← h, Std.OrientedOrd.eq_swap (a := y.place)]
      exact .middle (mt Int.compare_eq_eq.1 hy)
  · rw [compare_float_right _ hra, compare_float_left _ hrc, compare_float_right _ hra]
    exact hplaces
  · rw [compare_float_left _ hrb, compare_float_left _ hrc]
    obtain h | ⟨h, hne⟩ := compare_int j k
    · rw [h]
      exact hplaces
    · have hx := place_ne_of_round hround ha hb hc hne h
      rw [← h]
      exact .left fun he => hx (Int.compare_eq_eq.1 he).symm
  · rw [compare_float_left x hrb, compare_float_left x hrc, compare_float_right z hrb]
    exact hplaces
  all_goals
    rw [compare_float_left x hrb, compare_float_left y hrc, compare_float_left x hrc]
    exact hplaces

include hitems

/-- No three values are out of order if rounding does not make them so. -/
theorem chained (a : Value) : ∀ b c, S a → S b → S c →
    Chained (a.compare b) (b.compare c) (a.compare c) := by
  induction a using induct with | _ a ih
  intro b c ha hb hc
  rw [compare_eq_then a b, compare_eq_then b c, compare_eq_then a c]
  refine (Chained.of_transCmp Ord.compare a.rank b.rank c.rank).lex fun hab hbc => ?_
  rw [Nat.compare_eq_eq] at hab hbc
  by_cases hnum : a.rank = 2
  · exact chained_numbers hround ha hb hc hnum (by omega) (by omega)
  cases a <;> cases b <;> simp [rank] at hab hnum <;> cases c <;> simp [rank] at hbc
  case null.null.null => exact ⟨fun _ => rfl, fun _ => rfl, fun _ => rfl⟩
  case bool.bool.bool x y z => exact .of_transCmp Ord.compare x y z
  case text.text.text x y z => exact .of_transCmp compareText x y z
  case blob.blob.blob x y z => exact .of_transCmp (List.compareLex Ord.compare) x y z
  case key.key.key x y z => exact .of_transCmp Key.compare x y z
  case list.list.list x y z =>
    simp only [Value.compare]
    refine chained_items (fun v hv b c => ?_) (hitems y hb) (hitems z hc)
    exact ih v hv b c (hitems x ha v hv)

end

/-- A number: an integer, or a float that is not a NaN. -/
def isNumber : Value → Bool
  | int _ => true
  | float d => !d.isNaN
  | _ => false

/-- The order for sorting is a total preorder of the values with `S`, with the NaNs above the
numbers. -/
structure Sortable (S : Value → Prop) : Prop where
  trans : ∀ a b c, S a → S b → S c → (a.compare b).isLE → (b.compare c).isLE → (a.compare c).isLE
  total : ∀ a b, S a → S b → (a.compare b).isLE ∨ (b.compare a).isLE
  alike : ∀ a b c, S a → S b → S c → a.compare b = .eq → a.compare c = b.compare c
  nan_last : ∀ a d, S a → S (.float d) → a.isNumber → d.isNaN → a.compare (.float d) = .lt

theorem numberPlace_mem {v : Value} (h : v.isNumber) :
    v.rank = 2 ∧ -(Double.infinityMagnitude : Int) ≤ v.numberPlace ∧
      v.numberPlace ≤ Double.infinityMagnitude := by
  cases v with
  | int i =>
    have hle := Double.ratioMagnitude_le i.toInt.natAbs 1
    refine ⟨rfl, ?_⟩
    simp only [numberPlace, intAsDouble, Double.place_ofInt]
    split <;> omega
  | float d =>
    have hnan : d.isNaN = false := by simpa [isNumber] using h
    have hle : d.magnitude ≤ Double.infinityMagnitude := by simpa [Double.isNaN] using hnan
    refine ⟨rfl, ?_⟩
    simp only [numberPlace, Double.place, hnan, Bool.false_eq_true, if_false, Double.ordinal]
    split <;> omega
  | _ => cases h

/-- A NaN is on the side of its sign of every number. -/
theorem compare_nan {v : Value} {d : Double} (hv : v.isNumber) (hd : d.isNaN) :
    v.compare (.float d) = if d.isNegative then .gt else .lt := by
  obtain ⟨hrank, hlow, hup⟩ := numberPlace_mem hv
  have hmag : Double.infinityMagnitude < d.magnitude := by simpa [Double.isNaN] using hd
  rw [compare_float_right d hrank, Double.place, if_pos hd, Double.totalOrdinal]
  by_cases hs : d.isNegative
  · rw [if_pos hs, if_pos hs, Int.compare_eq_gt]
    omega
  · rw [if_neg hs, if_neg hs, Int.compare_eq_lt]
    omega

theorem swap_items {as bs : List Value}
    (h : ∀ a ∈ as, ∀ b : Value, b.compare a = (a.compare b).swap) :
    Value.compareItems bs as = (Value.compareItems as bs).swap := by
  induction as generalizing bs with
  | nil => cases bs <;> rfl
  | cons a as ih =>
    cases bs with
    | nil => rfl
    | cons b bs =>
      simp only [Value.compareItems, Ordering.swap_then]
      rw [h a (.head _), ih fun v hv => h v (.tail _ hv)]

theorem compare_swap (a : Value) : ∀ b : Value, b.compare a = (a.compare b).swap := by
  induction a using induct with | _ a ih
  intro b
  cases a <;> cases b <;> simp only [Value.compare, Double.sortCompare_eq, Ordering.swap_eq]
  case text.text | blob.blob | key.key => exact Std.OrientedCmp.eq_swap
  case list.list xs ys => exact swap_items ih
  all_goals exact Std.OrientedOrd.eq_swap

theorem compare_self (v : Value) : v.compare v = .eq := by
  have h := compare_swap v v
  cases hv : v.compare v <;> simp [hv] at h ⊢

/-- Values are sortable if rounding tells their integers apart and no NaN is negative. -/
theorem sortable_of_round {S : Value → Prop}
    (hitems : ∀ items, S (.list items) → ∀ v ∈ items, S v)
    (hround : ∀ i j, S (.int i) → S (.int j) → S (.float (intAsDouble i)) →
      intAsDouble i = intAsDouble j → i = j)
    (hnan : ∀ a d, S a → S (.float d) → a.isNumber → d.isNaN → d.isNegative = false) :
    Sortable S where
  trans a b c ha hb hc := (chained hitems hround a b c ha hb hc).isLE_trans
  total a b _ _ := by
    rw [compare_swap a b]
    cases a.compare b <;> simp
  alike a b c ha hb hc := (chained hitems hround a b c ha hb hc).eq_left
  nan_last a d ha hd hnum hn := by
    rw [compare_nan hnum hn, hnan a d ha hd hnum hn]
    rfl

/-- Exactly when no float is the number nearest to two integers, and no negative NaN stands next to
a number, the order for sorting is a total preorder of the values with `S`. -/
theorem sortable_iff {S : Value → Prop} (hitems : ∀ items, S (.list items) → ∀ v ∈ items, S v) :
    Sortable S ↔
      (∀ i j, S (.int i) → S (.int j) → S (.float (intAsDouble i)) →
        intAsDouble i = intAsDouble j → i = j) ∧
      ∀ a d, S a → S (.float d) → a.isNumber → d.isNaN → d.isNegative = false := by
  refine ⟨fun h => ⟨fun i j hi hj hd heq => ?_, fun a d ha hd hnum hnan => ?_⟩,
    fun h => sortable_of_round hitems h.1 h.2⟩
  · have hd_i : (float (intAsDouble i)).compare (int i) = .eq := by
      rw [compare_float_left _ rfl]
      exact Int.compare_eq_eq.2 rfl
    have hd_j : (float (intAsDouble i)).compare (int j) = .eq := by
      rw [compare_float_left _ rfl, heq]
      exact Int.compare_eq_eq.2 rfl
    have hij := h.alike _ _ _ hd hi hj hd_i
    exact Std.LawfulEqOrd.eq_of_compare (hij.symm.trans hd_j)
  · have hlt := h.nan_last a d ha hd hnum hnan
    rw [compare_nan hnum hnan] at hlt
    cases hs : d.isNegative with
    | false => rfl
    | true => simp [hs] at hlt

/-- Two integers that round to one float are sortable next to another float. -/
theorem sortable_sample :
    Sortable fun v => v = .int 9007199254740993 ∨ v = .int 9007199254740992 ∨
      v = .float ⟨0x3FF8000000000000⟩ ∨
        v = .list [.int 9007199254740993, .float ⟨0x3FF8000000000000⟩] := by
  have hfloat : intAsDouble 9007199254740993 ≠ ⟨0x3FF8000000000000⟩ ∧
      intAsDouble 9007199254740992 ≠ ⟨0x3FF8000000000000⟩ := by decide +kernel
  refine (sortable_iff fun items h v hv => ?_).2
    ⟨fun i j hi hj hd _ => ?_, fun a d ha hd hnum hnan => ?_⟩
  · simp only [reduceCtorEq, false_or, list.injEq] at h
    subst h
    simp only [List.mem_cons, List.not_mem_nil, or_false] at hv
    obtain rfl | rfl := hv
    · exact .inl rfl
    · exact .inr (.inr (.inl rfl))
  · simp only [reduceCtorEq, false_or, or_false, int.injEq, float.injEq] at hi hd
    obtain rfl | rfl := hi
    · exact absurd hd hfloat.1
    · exact absurd hd hfloat.2
  · simp only [reduceCtorEq, false_or, or_false, float.injEq] at hd
    subst hd
    rfl

/-- A float equals two integers that are not equal, and a negative NaN sorts before a number. -/
theorem compare_not_sortable :
    ((int 9007199254740993).compare (float ⟨0x4340000000000000⟩) = .eq ∧
      (float ⟨0x4340000000000000⟩).compare (int 9007199254740992) = .eq ∧
      (int 9007199254740993).compare (int 9007199254740992) = .gt) ∧
    ((⟨0xFFF8000000000000⟩ : Double).isNaN ∧
      (float ⟨0xFFF8000000000000⟩).compare (float ⟨0x3FF0000000000000⟩) = .lt) := by
  decide +kernel

/-- Values are sortable if no integer needs more than 53 binary digits and no NaN is negative. -/
theorem sortable_of_exact {S : Value → Prop}
    (hitems : ∀ items, S (.list items) → ∀ v ∈ items, S v)
    (hint : ∀ i, S (.int i) → i.toInt.natAbs ≤ 2 * Double.leadingDigit)
    (hnan : ∀ d, S (.float d) → d.isNaN → d.isNegative = false) : Sortable S := by
  refine sortable_of_round hitems (fun i j hi hj _ heq => ?_) fun _ d _ hd _ => hnan d hd
  have hplace : (Double.ofInt i.toInt).place = (Double.ofInt j.toInt).place := congrArg _ heq
  refine Int64.toInt_inj.1 ?_
  rcases Int.lt_trichotomy i.toInt j.toInt with h | h | h
  · have := Double.place_ofInt_lt h (hint i hi) (hint j hj)
    omega
  · exact h
  · have := Double.place_ofInt_lt h (hint j hj) (hint i hi)
    omega

end Value
end EntityGraph
