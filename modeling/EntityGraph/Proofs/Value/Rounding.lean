import EntityGraph.Double

/-!
# The order of binary64 numbers

Sorting puts the data in the order of their places, and rounding keeps the order of the integers.

* `Double.sortCompare_eq`: the order used for sorting is the order of the places;
* `Double.eq_of_place_eq`: apart from the two zeros, a place belongs to one datum;
* `Double.roundQuotient_mono`, `Double.ratioMagnitude_one_mono`: rounding quotients and naturals;
* `Double.place_ofInt_mono`: the number nearest to an integer has a place no higher than that of a
  greater integer;
* `Double.place_ofInt_lt`: integers of at most 53 binary digits keep their distance.
-/

namespace EntityGraph
namespace Double

/-! ## Places -/

/-- The place of a datum in the order used for sorting: that of its number, or, for a NaN, its place
in the total order. -/
def place (d : Double) : Int := if d.isNaN then d.totalOrdinal else d.ordinal

theorem compare_totalOrdinal_of_isNaN {a b : Double} (ha : a.isNaN) (hb : b.isNaN = false) :
    compare a.totalOrdinal b.totalOrdinal = compare a.totalOrdinal b.ordinal := by
  have ha : infinityMagnitude < a.magnitude := by simpa [isNaN] using ha
  have hb : b.magnitude ≤ infinityMagnitude := by simpa [isNaN] using hb
  unfold totalOrdinal ordinal
  by_cases hs : a.isNegative
  · have hlt : ∀ x : Int, -(b.magnitude : Int) - 1 ≤ x →
        compare (-(a.magnitude : Int) - 1) x = .lt := fun x hx => by
      rw [Int.compare_eq_lt]
      omega
    simp only [hs, if_true]
    rw [hlt _ (by split <;> omega), hlt _ (by split <;> omega)]
  · have hgt : ∀ x : Int, x ≤ b.magnitude → compare (a.magnitude : Int) x = .gt := fun x hx => by
      rw [Int.compare_eq_gt]
      omega
    simp only [hs, Bool.false_eq_true, if_false]
    rw [hgt _ (by split <;> omega), hgt _ (by split <;> omega)]

/-- The order used for sorting is the order of the places. -/
theorem sortCompare_eq (a b : Double) : a.sortCompare b = compare a.place b.place := by
  unfold sortCompare compare? totalCompare place
  by_cases ha : a.isNaN <;> by_cases hb : b.isNaN
  · simp [ha, hb]
  · simpa [ha, hb] using compare_totalOrdinal_of_isNaN ha (by simpa using hb)
  · have h := congrArg Ordering.swap (compare_totalOrdinal_of_isNaN hb (by simpa using ha))
    simpa [ha, hb, ← Std.OrientedCmp.eq_swap] using h
  · simp [ha, hb]

theorem toNat_bits (d : Double) :
    d.bits.toNat = d.magnitude + if d.isNegative then signBit else 0 := by
  have hsize : d.bits.toNat < 2 * signBit := d.bits.toNat_lt
  have hmod := Nat.div_add_mod d.bits.toNat signBit
  rw [magnitude]
  by_cases h : signBit ≤ d.bits.toNat
  · rw [isNegative, decide_eq_true h, if_pos rfl, Nat.mod_eq_sub_mod h, Nat.mod_eq_of_lt (by omega)]
    omega
  · rw [isNegative, decide_eq_false h, Nat.mod_eq_of_lt (by omega)]
    rfl

/-- Both zeros have place 0; apart from them, data are told apart by their places. -/
theorem eq_of_place_eq {a b : Double} (h : a.place = b.place) (h0 : a.place ≠ 0) : a = b := by
  have hbits : a.magnitude = b.magnitude ∧ a.isNegative = b.isNegative := by
    revert h h0
    unfold place totalOrdinal ordinal isNaN
    cases a.isNegative <;> cases b.isNegative <;>
      simp only [decide_eq_true_eq, Bool.false_eq_true, if_false, if_true, reduceCtorEq, and_true,
        and_false] <;>
      split <;> split <;> omega
  have hn : a.bits.toNat = b.bits.toNat := by rw [toNat_bits, toNat_bits, hbits.1, hbits.2]
  cases a
  cases b
  exact congrArg mk (UInt64.toNat_inj.1 hn)

/-! ## Quotients -/

/-- A quotient is rounded down up to a half, and at a half to the even neighbour. -/
theorem roundQuotient_eq (n d : Nat) : roundQuotient n d =
    if 2 * (n % d) < d ∨ 2 * (n % d) = d ∧ n / d % 2 = 0 then n / d else n / d + 1 := by
  simp only [roundQuotient]
  split
  · rename_i h
    rw [if_pos (.inl (Nat.compare_eq_lt.1 h))]
  · rename_i h
    have h := Nat.compare_eq_gt.1 h
    rw [if_neg (by omega)]
  · rename_i h
    have h := Nat.compare_eq_eq.1 h
    simp [h]

theorem le_roundQuotient (n d : Nat) : n / d ≤ roundQuotient n d := by
  rw [roundQuotient_eq]
  split <;> omega

theorem roundQuotient_le (n d : Nat) : roundQuotient n d ≤ n / d + 1 := by
  rw [roundQuotient_eq]
  split <;> omega

/-- A quotient without a remainder is not rounded. -/
theorem roundQuotient_mul (n : Nat) {d : Nat} (hd : 0 < d) : roundQuotient (n * d) d = n := by
  rw [roundQuotient_eq, Nat.mul_mod_left, if_pos (.inl hd), Nat.mul_div_cancel _ hd]

theorem roundQuotient_one (n : Nat) : roundQuotient n 1 = n := by
  have h := roundQuotient_mul n Nat.one_pos
  rwa [Nat.mul_one] at h

/-- Rounding keeps the order. -/
theorem roundQuotient_mono {n m d : Nat} (h : n ≤ m) : roundQuotient n d ≤ roundQuotient m d := by
  have hq : n / d ≤ m / d := Nat.div_le_div_right h
  by_cases hlt : n / d < m / d
  · exact Nat.le_trans (roundQuotient_le n d) (Nat.le_trans hlt (le_roundQuotient m d))
  · have he : n / d = m / d := by omega
    have hr : n % d ≤ m % d := by
      have hn := Nat.div_add_mod n d
      have hm := Nat.div_add_mod m d
      rw [← he] at hm
      omega
    rw [roundQuotient_eq, roundQuotient_eq, he]
    split <;> split <;> omega

theorem two_pow_pos (k : Nat) : 0 < Nat.pow 2 k := Nat.two_pow_pos k

theorem two_pow_mul {a b c : Nat} (h : a + b = c) : Nat.pow 2 a * Nat.pow 2 b = Nat.pow 2 c := by
  rw [← h]
  exact (Nat.pow_add 2 a b).symm

/-! ## Naturals -/

/-- The significand that a natural with its leading binary digit at `log` rounds to. -/
def significand (n log : Nat) : Nat :=
  if 52 ≤ log then roundQuotient n (Nat.pow 2 (log - 52)) else n * Nat.pow 2 (52 - log)

theorem significand_mono {n m log : Nat} (h : n ≤ m) : significand n log ≤ significand m log := by
  unfold significand
  split
  · exact roundQuotient_mono h
  · exact Nat.mul_le_mul_right _ h

theorem significand_two_pow (log j : Nat) :
    significand (Nat.pow 2 (log + j)) log = Nat.pow 2 (52 + j) := by
  unfold significand
  split
  · rename_i hl
    rw [← two_pow_mul (a := 52 + j) (b := log - 52) (by omega), roundQuotient_mul _ (two_pow_pos _)]
  · exact two_pow_mul (by omega)

/-- The significand has 53 binary digits, or is the next power of two. -/
theorem le_significand {n log : Nat} (h : Nat.pow 2 log ≤ n) : leadingDigit ≤ significand n log :=
  Nat.le_trans (Nat.le_of_eq (significand_two_pow log 0).symm) (significand_mono h)

theorem significand_le {n log : Nat} (h : n ≤ Nat.pow 2 (log + 1)) :
    significand n log ≤ 2 * leadingDigit :=
  Nat.le_trans (significand_mono h) (Nat.le_of_eq (significand_two_pow log 1))

/-- The unit in the last place of a natural. -/
theorem unitExponent_one {n : Nat} (h : n ≠ 0) : unitExponent n 1 = (n.log2 : Int) - 52 := by
  have hone : Nat.log2 1 = 0 := rfl
  have hle := le_significand (Nat.log2_self_le h)
  have hk : ¬((scaleQuotient n 1 ((n.log2 : Int) - 52)).1 <
      (scaleQuotient n 1 ((n.log2 : Int) - 52)).2 * leadingDigit) := by
    have hlow : Nat.pow 2 n.log2 ≤ n := Nat.log2_self_le h
    unfold scaleQuotient
    split
    · rename_i hl
      rw [Nat.not_lt, Nat.one_mul]
      exact Nat.le_trans (Nat.le_of_eq (two_pow_mul (b := 52) (by omega))) hlow
    · rename_i hl
      rw [Nat.not_lt, Nat.one_mul]
      refine Nat.le_trans (Nat.le_of_eq ?_) (Nat.mul_le_mul_right _ hlow)
      exact (two_pow_mul (c := 52) (by omega)).symm
  simp only [unitExponent, hone, Int.ofNat_zero, Int.sub_zero, if_neg hk]
  omega

theorem roundQuotient_scaleQuotient (n log : Nat) :
    roundQuotient (scaleQuotient n 1 ((log : Int) - 52)).1
      (scaleQuotient n 1 ((log : Int) - 52)).2 = significand n log := by
  unfold scaleQuotient significand
  by_cases hl : 52 ≤ log
  · have hs : ((log : Int) - 52).toNat = log - 52 := by omega
    rw [if_pos hl, if_pos (by omega), hs, Nat.one_mul]
  · have hs : (-((log : Int) - 52)).toNat = 52 - log := by omega
    rw [if_neg hl, if_neg (by omega), hs, roundQuotient_one]

theorem ratioMagnitude_of_unitExponent {n d : Nat} (h : n ≠ 0) {k : Int}
    (hk : unitExponent n d = k) : ratioMagnitude n d =
      match scaleQuotient n d k with
      | (n', d') =>
        min ((k + 1074).toNat * leadingDigit + roundQuotient n' d') infinityMagnitude := by
  subst hk
  exact if_neg h

theorem ratioMagnitude_one {n : Nat} (h : n ≠ 0) : ratioMagnitude n 1 =
    min ((n.log2 + 1022) * leadingDigit + significand n n.log2) infinityMagnitude := by
  have he : ((n.log2 : Int) - 52 + 1074).toNat = n.log2 + 1022 := by omega
  have hs := roundQuotient_scaleQuotient n n.log2
  rw [ratioMagnitude_of_unitExponent h (unitExponent_one h), he]
  cases hq : scaleQuotient n 1 ((n.log2 : Int) - 52) with
  | mk n' d' =>
    rw [← hs, hq]

/-- Rounding a natural keeps the order. -/
theorem ratioMagnitude_one_mono {n m : Nat} (h : n ≤ m) :
    ratioMagnitude n 1 ≤ ratioMagnitude m 1 := by
  by_cases hn : n = 0
  · rw [hn, ratioMagnitude, if_pos rfl]
    exact Nat.zero_le _
  · have hm : m ≠ 0 := by omega
    rw [ratioMagnitude_one hn, ratioMagnitude_one hm]
    have hlog : n.log2 ≤ m.log2 := (Nat.le_log2 hm).2 (Nat.le_trans (Nat.log2_self_le hn) h)
    suffices hs : (n.log2 + 1022) * leadingDigit + significand n n.log2 ≤
        (m.log2 + 1022) * leadingDigit + significand m m.log2 by omega
    by_cases he : n.log2 = m.log2
    · rw [he]
      exact Nat.add_le_add_left (significand_mono h) _
    · have hup := significand_le (Nat.le_of_lt (Nat.lt_log2_self (n := n)))
      have hlow := le_significand (Nat.log2_self_le hm)
      have hmul : (n.log2 + 1 + 1022) * leadingDigit ≤ (m.log2 + 1022) * leadingDigit :=
        Nat.mul_le_mul_right _ (by omega)
      simp only [Nat.add_mul] at hmul ⊢
      omega

/-- Naturals of at most 53 binary digits are not rounded. -/
theorem significand_lt {n m log : Nat} (h : n < m) (hlog : log ≤ 52) :
    significand n log < significand m log := by
  have hexact : ∀ n, significand n log = n * Nat.pow 2 (52 - log) := by
    intro n
    unfold significand
    split
    · have hl : log = 52 := by omega
      rw [hl]
      exact (roundQuotient_one n).trans (Nat.mul_one n).symm
    · rfl
  rw [hexact, hexact]
  exact Nat.mul_lt_mul_of_pos_right h (two_pow_pos _)

theorem infinityMagnitude_eq : infinityMagnitude = 2047 * leadingDigit := rfl

theorem min_infinityMagnitude_lt {a b : Nat} (h : a < b) (ha : a ≤ 1076 * leadingDigit) :
    min a infinityMagnitude < min b infinityMagnitude := by
  rw [infinityMagnitude_eq]
  have hpos : 0 < leadingDigit := by decide
  generalize leadingDigit = l at *
  omega

theorem ratioMagnitude_one_lt {n m : Nat} (h : n < m) (hm : m ≤ 2 * leadingDigit) :
    ratioMagnitude n 1 < ratioMagnitude m 1 := by
  have hpos : 0 < leadingDigit := by decide
  have hm0 : m ≠ 0 := by omega
  have hlow := le_significand (Nat.log2_self_le hm0)
  by_cases hn : n = 0
  · rw [hn, ratioMagnitude_one hm0, ratioMagnitude, if_pos rfl, infinityMagnitude_eq]
    omega
  · have hlogn : n.log2 ≤ 52 := Nat.le_of_lt_succ ((Nat.log2_lt hn).2 (Nat.lt_of_lt_of_le h hm))
    have hlog : n.log2 ≤ m.log2 :=
      (Nat.le_log2 hm0).2 (Nat.le_trans (Nat.log2_self_le hn) (Nat.le_of_lt h))
    have hup : significand n n.log2 < 2 * leadingDigit :=
      Nat.lt_of_lt_of_eq (significand_lt Nat.lt_log2_self hlogn) (significand_two_pow _ 1)
    have hfinite : (n.log2 + 1022) * leadingDigit ≤ 1074 * leadingDigit :=
      Nat.mul_le_mul_right _ (by omega)
    rw [ratioMagnitude_one hn, ratioMagnitude_one hm0]
    refine min_infinityMagnitude_lt ?_ (by generalize leadingDigit = l at *; omega)
    by_cases he : n.log2 = m.log2
    · rw [← he]
      exact Nat.add_lt_add_left (significand_lt h hlogn) _
    · have hmul : (n.log2 + 1 + 1022) * leadingDigit ≤ (m.log2 + 1022) * leadingDigit :=
        Nat.mul_le_mul_right _ (by omega)
      simp only [Nat.add_mul] at hmul ⊢
      omega

/-! ## Integers -/

theorem infinityMagnitude_lt_signBit : infinityMagnitude < signBit := by decide

theorem signBit_lt_size : signBit < UInt64.size := by decide

theorem ratioMagnitude_le (n d : Nat) : ratioMagnitude n d ≤ infinityMagnitude := by
  by_cases h : n = 0
  · rw [ratioMagnitude, if_pos h]
    exact Nat.zero_le _
  · rw [ratioMagnitude_of_unitExponent h rfl]
    cases scaleQuotient n d (unitExponent n d) with
    | mk n' d' => exact Nat.min_le_right ..

theorem ratioMagnitude_lt_signBit (n d : Nat) : ratioMagnitude n d < signBit :=
  Nat.lt_of_le_of_lt (ratioMagnitude_le n d) infinityMagnitude_lt_signBit

theorem toNat_bits_ofRatio (n d : Nat) : (ofRatio n d).bits.toNat = ratioMagnitude n d := by
  rw [ofRatio]
  exact UInt64.toNat_ofNat_of_lt'
    (Nat.lt_trans (ratioMagnitude_lt_signBit n d) signBit_lt_size)

theorem magnitude_ofNat (n : Nat) : (ofNat n).magnitude = ratioMagnitude n 1 := by
  rw [magnitude, ofNat, toNat_bits_ofRatio, Nat.mod_eq_of_lt (ratioMagnitude_lt_signBit n 1)]

theorem isNegative_ofNat (n : Nat) : (ofNat n).isNegative = false := by
  have h := ratioMagnitude_lt_signBit n 1
  simp only [isNegative, ofNat, toNat_bits_ofRatio, decide_eq_false_iff_not]
  omega

theorem xor_signBit {a : Nat} (h : a < signBit) : a ^^^ signBit = a + signBit := by
  have hs : signBit = 2 ^ 63 := by decide
  rw [hs] at h ⊢
  refine Nat.eq_of_testBit_eq fun i => ?_
  rw [Nat.testBit_xor, Nat.add_comm, Nat.testBit_two_pow]
  rcases Nat.lt_trichotomy i 63 with hi | hi | hi
  · have hne : ¬63 = i := by omega
    simp [Nat.testBit_two_pow_add_gt hi, hne]
  · subst hi
    rw [Nat.testBit_two_pow_add_eq]
    simp
  · have hpow : 2 ^ 64 ≤ 2 ^ i := Nat.pow_le_pow_right (by decide) hi
    have hne : ¬63 = i := by omega
    rw [Nat.testBit_lt_two_pow (by omega), Nat.testBit_lt_two_pow (by omega)]
    simp [hne]

theorem toNat_bits_negate {d : Double} (h : d.isNegative = false) :
    d.negate.bits.toNat = d.bits.toNat + signBit := by
  have h : d.bits.toNat < signBit := by simpa [isNegative] using h
  rw [← xor_signBit h]
  exact UInt64.toNat_xor ..

theorem magnitude_negate {d : Double} (h : d.isNegative = false) :
    d.negate.magnitude = d.magnitude := by
  simp only [magnitude, toNat_bits_negate h, Nat.add_mod_right]

theorem isNegative_negate {d : Double} (h : d.isNegative = false) : d.negate.isNegative = true := by
  simp [isNegative, toNat_bits_negate h]

theorem magnitude_ofInt (i : Int) : (ofInt i).magnitude = ratioMagnitude i.natAbs 1 := by
  unfold ofInt
  split
  · rw [magnitude_negate (isNegative_ofNat _), magnitude_ofNat]
  · exact magnitude_ofNat _

theorem isNaN_ofInt (i : Int) : (ofInt i).isNaN = false := by
  have h := ratioMagnitude_le i.natAbs 1
  simp only [isNaN, magnitude_ofInt, decide_eq_false_iff_not]
  omega

/-- The place of the number nearest to an integer. -/
theorem place_ofInt (i : Int) : (ofInt i).place =
    if i < 0 then -(ratioMagnitude i.natAbs 1 : Int) else ratioMagnitude i.natAbs 1 := by
  rw [place, isNaN_ofInt, if_neg Bool.false_ne_true, ordinal, magnitude_ofInt]
  unfold ofInt
  by_cases h : i < 0
  · rw [if_pos h, isNegative_negate (isNegative_ofNat _), if_pos rfl, if_pos h]
  · rw [if_neg h, isNegative_ofNat, if_neg Bool.false_ne_true, if_neg h]

/-- Rounding an integer keeps the order. -/
theorem place_ofInt_mono {i j : Int} (h : i ≤ j) : (ofInt i).place ≤ (ofInt j).place := by
  rw [place_ofInt, place_ofInt]
  by_cases hi : i < 0
  · rw [if_pos hi]
    split
    · have := ratioMagnitude_one_mono (n := j.natAbs) (m := i.natAbs) (by omega)
      omega
    · omega
  · rw [if_neg hi, if_neg (by omega)]
    have := ratioMagnitude_one_mono (n := i.natAbs) (m := j.natAbs) (by omega)
    omega

/-- Integers of at most 53 binary digits are not rounded. -/
theorem place_ofInt_lt {i j : Int} (h : i < j) (hi : i.natAbs ≤ 2 * leadingDigit)
    (hj : j.natAbs ≤ 2 * leadingDigit) : (ofInt i).place < (ofInt j).place := by
  rw [place_ofInt, place_ofInt]
  by_cases hneg : i < 0
  · rw [if_pos hneg]
    split
    · have := ratioMagnitude_one_lt (n := j.natAbs) (m := i.natAbs) (by omega) hi
      omega
    · have := ratioMagnitude_one_lt (n := 0) (m := i.natAbs) (by omega) hi
      omega
  · rw [if_neg hneg, if_neg (by omega)]
    have := ratioMagnitude_one_lt (n := i.natAbs) (m := j.natAbs) (by omega) hj
    omega

/-- Only zero rounds to zero. -/
theorem place_ofInt_eq_zero {i : Int} (h : (ofInt i).place = 0) : i = 0 := by
  have hz : (ofInt 0).place = 0 := by rw [place_ofInt]; rfl
  have hone : (0 : Int).natAbs ≤ 2 * leadingDigit ∧ (1 : Int).natAbs ≤ 2 * leadingDigit ∧
      (-1 : Int).natAbs ≤ 2 * leadingDigit := by decide
  rcases Int.lt_trichotomy i 0 with hi | hi | hi
  · have hlt := place_ofInt_lt (i := -1) (j := 0) (by decide) hone.2.2 hone.1
    have hle := place_ofInt_mono (i := i) (j := -1) (by omega)
    omega
  · exact hi
  · have hlt := place_ofInt_lt (i := 0) (j := 1) (by decide) hone.1 hone.2.1
    have hle := place_ofInt_mono (i := 1) (j := i) (by omega)
    omega

/-- Integers that rounding gives one place get one number. -/
theorem ofInt_eq_of_place {i j : Int} (h : (ofInt i).place = (ofInt j).place) :
    ofInt i = ofInt j := by
  by_cases h0 : (ofInt i).place = 0
  · rw [place_ofInt_eq_zero h0, place_ofInt_eq_zero (h.symm.trans h0)]
  · exact eq_of_place_eq h h0

end Double
end EntityGraph
