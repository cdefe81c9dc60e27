/-!
# Ranges of code points

Properties of characters are given as lists of inclusive ranges of code points.
-/

namespace EntityGraph

/-- The code points from `first` to `last`, both included. -/
structure CodeRange where
  first : Nat
  last : Nat

/-- Whether some range of the list holds the character. -/
def CodeRange.listHas (ranges : List CodeRange) (c : Char) : Bool :=
  ranges.any fun r => r.first ≤ c.toNat && c.toNat ≤ r.last

end EntityGraph
