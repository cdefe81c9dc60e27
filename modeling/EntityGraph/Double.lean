/-!
# Binary64 numbers

A `Double` is an IEEE 754 binary64 datum given by its bits, so that the sign of a zero and the sign
and payload of a NaN are part of it. Everything here is exact integer arithmetic:

* `compare?` is the order of the numbers: both zeros are equal and a NaN compares with nothing;
* `totalCompare` is IEEE 754's total order of the data, in which every datum has a place;
* `ofRatio` rounds a quotient of naturals to the nearest number, ties to even.
-/

namespace EntityGraph

/-- A binary64 datum by its 64 bits. -/
structure Double where
  bits : UInt64
deriving DecidableEq

namespace Double

/-- The bit of the sign, above all others. -/
def signBit : Nat := 0x8000000000000000

/-- The leading digit of a significand, which the bits leave out unless the number is subnormal. -/
def leadingDigit : Nat := 0x10000000000000

/-- The bits below the sign, as a number. -/
def magnitude (d : Double) : Nat := d.bits.toNat % signBit

def isNegative (d : Double) : Bool := signBit ≤ d.bits.toNat

/-- The magnitude of infinity; larger magnitudes are NaNs. -/
def infinityMagnitude : Nat := 0x7FF0000000000000

def isNaN (d : Double) : Bool := infinityMagnitude < d.magnitude

def isInfinite (d : Double) : Bool := d.magnitude == infinityMagnitude

/-- The place of a datum that is not a NaN in the order of the numbers; both zeros have place 0. -/
def ordinal (d : Double) : Int := if d.isNegative then -d.magnitude else d.magnitude

/-- The place of a datum in the total order, in which -0 comes before 0. -/
def totalOrdinal (d : Double) : Int := if d.isNegative then -d.magnitude - 1 else d.magnitude

/-- The order of two numbers, undefined for a NaN. -/
def compare? (a b : Double) : Option Ordering :=
  if a.isNaN || b.isNaN then none else some (compare a.ordinal b.ordinal)

/-- The total order of the data: negative NaNs, numbers in order with -0 before 0, NaNs. -/
def totalCompare (a b : Double) : Ordering := compare a.totalOrdinal b.totalOrdinal

/-- The order used for sorting: the order of the numbers, and the total order next to a NaN. -/
def sortCompare (a b : Double) : Ordering := (a.compare? b).getD (a.totalCompare b)

/-- The quotient `n / d` rounded to an integer, a half to the even neighbour. -/
def roundQuotient (n d : Nat) : Nat :=
  let q := n / d
  match compare (2 * (n % d)) d with
  | .lt => q
  | .gt => q + 1
  | .eq => if q % 2 = 0 then q else q + 1

/-- `n · 2^(-k)` and `d`, scaled by a power of two so that both are naturals. -/
def scaleQuotient (n d : Nat) (k : Int) : Nat × Nat :=
  if 0 ≤ k then (n, d * Nat.pow 2 k.toNat) else (n * Nat.pow 2 (-k).toNat, d)

/-- The exponent `k` of the unit in the last place of `n / d`: 53 binary digits, but never below the
unit `2^(-1074)` of the subnormal numbers. -/
def unitExponent (n d : Nat) : Int :=
  let k := (n.log2 : Int) - d.log2 - 52
  let (n', d') := scaleQuotient n d k
  max (if n' < d' * leadingDigit then k - 1 else k) (-1074)

/-- The magnitude of the number nearest to `n / d`. A significand that is rounded up to the next
power of two carries into the exponent. -/
def ratioMagnitude (n d : Nat) : Nat :=
  if n = 0 then 0
  else
    let k := unitExponent n d
    let (n', d') := scaleQuotient n d k
    min ((k + 1074).toNat * leadingDigit + roundQuotient n' d') infinityMagnitude

/-- The number nearest to `n / d`, ties to even. -/
def ofRatio (n d : Nat) : Double := ⟨UInt64.ofNat (ratioMagnitude n d)⟩

def ofNat (n : Nat) : Double := ofRatio n 1

def negate (d : Double) : Double := ⟨d.bits ^^^ 0x8000000000000000⟩

/-- The number nearest to an integer. -/
def ofInt (i : Int) : Double := if i < 0 then (ofNat i.natAbs).negate else ofNat i.natAbs

/-- The significand and the exponent of the unit of a finite number: its absolute value is
`significand · 2^exponent`. -/
def decompose (d : Double) : Nat × Int :=
  let biased : Nat := d.magnitude / leadingDigit
  let fraction : Nat := d.magnitude % leadingDigit
  if biased = 0 then (fraction, -1074) else (leadingDigit + fraction, (biased : Int) - 1075)

/-- The absolute value of a finite number as a quotient of naturals. -/
def toRatio (d : Double) : Nat × Nat :=
  let (m, q) := d.decompose
  if 0 ≤ q then (m * Nat.pow 2 q.toNat, 1) else (m, Nat.pow 2 (-q).toNat)

/-- The number nearest to the product of two finite numbers that are not negative. -/
def product (a b : Double) : Double :=
  let (n₁, d₁) := a.toRatio
  let (n₂, d₂) := b.toRatio
  ofRatio (n₁ * n₂) (d₁ * d₂)

/-- The number nearest to the quotient of two finite numbers that are not negative, the second not
zero. -/
def quotient (a b : Double) : Double :=
  let (n₁, d₁) := a.toRatio
  let (n₂, d₂) := b.toRatio
  ofRatio (n₁ * d₂) (d₁ * n₂)

end Double
end EntityGraph
