/-!
# Reading step by step

A step of a reader takes the characters that are left, and answers with what it read and what is
then left, or with nothing if what it reads does not come next. Here are the parts that the readers
of more than one format are made of: digits of a base, and characters given by code point.
-/

namespace EntityGraph.Text

/-- A step of a reader. -/
abbrev Step (α : Type) := List Char → Option (α × List Char)

def isHexDigit (c : Char) : Bool :=
  c.isDigit || ('a' ≤ c && c ≤ 'f') || ('A' ≤ c && c ≤ 'F')

/-- The value of a digit in any base up to sixteen. -/
def digitValue (c : Char) : Nat :=
  if c.isDigit then c.toNat - '0'.toNat
  else if 'a' ≤ c then c.toNat - 'a'.toNat + 10
  else c.toNat - 'A'.toNat + 10

def numberValue (base : Nat) (ds : List Char) : Nat :=
  ds.foldl (fun n c => n * base + digitValue c) 0

/-- The number that the next `count` digits make. -/
def fixedNumber (base : Nat) (isDigit : Char → Bool) (count : Nat) : Step Nat := fun cs =>
  let ds := cs.take count
  if ds.length = count ∧ ds.all isDigit then some (numberValue base ds, cs.drop count) else none

def hexNumber : Nat → Step Nat := fixedNumber 16 isHexDigit

/-- The character of a code point, unless it is half of a pair. -/
def charOf? (n : Nat) : Option Char := if n.isValidChar then some (Char.ofNat n) else none

end EntityGraph.Text
