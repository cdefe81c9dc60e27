import EntityGraph.Double

/-!
# Shortest decimal text of a number

A finite number is written with the fewest decimal digits that round back to it, and of those with
the digits nearest to it; of two that are equally near, the greater magnitude is written.
`Double.shortest` finds the digits in exact arithmetic; `Double.text` lays them out.
-/

namespace EntityGraph

/-- The decimal number `digits · 10^exponent`. -/
structure Decimal where
  digits : Nat
  exponent : Int
deriving DecidableEq

namespace Decimal

/-- The same number without trailing zero digits, of which it drops at most `fuel`. -/
def stripZeros : Nat → Decimal → Decimal
  | 0, d => d
  | fuel + 1, d =>
    if d.digits ≠ 0 ∧ d.digits % 10 = 0 then stripZeros fuel ⟨d.digits / 10, d.exponent + 1⟩ else d

/-- The number of decimal digits of `n`, at least one. -/
def width (n : Nat) : Nat := (Nat.toDigits 10 n).length

end Decimal

namespace Double

/-- A positive number and the bounds of the reals that round to it, over one denominator. -/
structure RoundingInterval where
  lower : Nat
  value : Nat
  upper : Nat
  denominator : Nat
  /-- Whether the bounds round to the number, too. -/
  closed : Bool

/-- The reals that round to the absolute value of a finite number other than zero. Below a power of
two the next number is half as far away as above it. -/
def roundingInterval (d : Double) : RoundingInterval :=
  let (m, q) := d.decompose
  let below := if m = leadingDigit ∧ 2 * leadingDigit ≤ d.magnitude then 4 * m - 1 else 4 * m - 2
  let (up, down) := if 2 ≤ q then (Nat.pow 2 (q - 2).toNat, 1) else (1, Nat.pow 2 (2 - q).toNat)
  ⟨below * up, 4 * m * up, (4 * m + 2) * up, down, m % 2 = 0⟩

/-- The interval in units of `10^e`. -/
def RoundingInterval.scale (r : RoundingInterval) (e : Int) : RoundingInterval :=
  if 0 ≤ e then { r with denominator := r.denominator * Nat.pow 10 e.toNat }
  else
    let f := Nat.pow 10 (-e).toNat
    { r with lower := r.lower * f, value := r.value * f, upper := r.upper * f }

/-- Whether the integer `x` rounds to the number. -/
def RoundingInterval.has (r : RoundingInterval) (x : Nat) : Bool :=
  let y := x * r.denominator
  if r.closed then r.lower ≤ y && y ≤ r.upper else r.lower < y && y < r.upper

/-- An integer that rounds to the number: its floor or the next one, the nearer if both do, and the
next one if they are equally near. -/
def RoundingInterval.neighbour? (r : RoundingInterval) : Option Nat :=
  let c := r.value / r.denominator
  match r.has c, r.has (c + 1) with
  | true, true => some (if 2 * (r.value % r.denominator) < r.denominator then c else c + 1)
  | true, false => some c
  | false, true => some (c + 1)
  | false, false => none

/-- How many zeros follow the point of the fraction `n / d < 1`, counting at most `fuel`. -/
def leadingZeros : Nat → Nat → Nat → Nat
  | 0, _, _ => 0
  | fuel + 1, n, d => if d ≤ n * 10 then 0 else leadingZeros fuel (n * 10) d + 1

/-- The `p` with `10^(p-1) ≤ n / d < 10^p`. -/
def decimalPlace (n d : Nat) : Int :=
  if d ≤ n then Decimal.width (n / d) else -leadingZeros 400 n d

/-- The fewest digits that round back to the absolute value of a finite number. -/
def shortest (d : Double) : Decimal :=
  if d.magnitude = 0 then ⟨0, 0⟩
  else
    let r := d.roundingInterval
    let p := decimalPlace r.value r.denominator
    ((List.range 17).findSome? fun (i : Nat) =>
      let e := p - (i + 1)
      ((r.scale e).neighbour?).map fun x => Decimal.stripZeros 17 ⟨x, e⟩).getD ⟨0, 0⟩

/-- The digits of a decimal number with its point: positional from `10^(-4)` up to `10^16` and then
always with a fraction, else one digit before the point and an exponent. -/
def layout (d : Decimal) : String :=
  let digits := Nat.toDigits 10 d.digits
  let point := (digits.length : Int) + d.exponent
  let zeros (n : Int) := List.replicate n.toNat '0'
  if d.digits ≠ 0 ∧ (point ≤ -4 ∨ 16 < point) then
    let fraction := digits.drop 1
    String.ofList (digits.take 1 ++ (if fraction.isEmpty then [] else '.' :: fraction)) ++ "e" ++
      toString (point - 1)
  else if point ≤ 0 then String.ofList (['0', '.'] ++ zeros (-point) ++ digits)
  else
    let fraction := digits.drop point.toNat
    String.ofList (digits.take point.toNat ++ zeros d.exponent ++ ['.'] ++
      (if fraction.isEmpty then ['0'] else fraction))

/-- The text of a datum; a zero keeps its sign and a NaN has none. -/
def text (d : Double) : String :=
  if d.isNaN then "NaN"
  else
    (if d.isNegative then "-" else "") ++
      if d.isInfinite then "inf" else layout d.shortest

end Double
end EntityGraph
