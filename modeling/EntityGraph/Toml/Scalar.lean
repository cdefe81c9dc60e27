import EntityGraph.Text.Step
import EntityGraph.Toml

/-!
# TOML scalars

How numbers, truth values and points in time are spelled in a TOML document.
-/

namespace EntityGraph.Toml

open Text (Step isHexDigit numberValue fixedNumber)

/-- Whether each underscore of a text stands between two digits, where `before` tells whether the
character before the text counts as one. -/
def spaced (isDigit : Char → Bool) : Bool → List Char → Bool
  | _, [] => true
  | before, c :: cs =>
    if c = '_' then before && cs.head?.any isDigit && spaced isDigit false cs
    else spaced isDigit (isDigit c) cs

/-- The number that digits spell, if they do, with underscores between them. -/
def spelled? (base : Nat) (isDigit : Char → Bool) (cs : List Char) : Option Nat :=
  let ds := cs.filter (· ≠ '_')
  if !ds.isEmpty && ds.all isDigit then some (numberValue base ds) else none

/-- A sign, if a text has one, and the text behind it. -/
def splitSign : List Char → Option Char × List Char
  | '+' :: cs => (some '+', cs)
  | '-' :: cs => (some '-', cs)
  | cs => (none, cs)

/-- The integer whose digits stand behind the name of their base. There may be none. -/
def prefixed? (base : Nat) (isDigit : Char → Bool) (cs : List Char) : Option Node :=
  if cs.all (fun c => isDigit c || c = '_') && spaced isDigit false cs then
    some (.integer ((spelled? base isDigit cs).map Int.ofNat))
  else none

/-- A decimal integer behind its sign. It does not start with a needless zero. Behind its first
underscore any characters may stand, without a value, so long as the underscores stand between
hexadecimal digits. -/
def decimal? (sign : Option Char) (cs : List Char) : Option Node :=
  if cs.isEmpty || (cs.head? = some '0' && 1 < cs.length) then none
  else if spaced isHexDigit false cs then
    some (.integer ((spelled? 10 Char.isDigit cs).map fun n =>
      if sign = some '-' then -(n : Int) else n))
  else none

/-- Whether a text is a run of digits and underscores with at least one digit. -/
def isRun (cs : List Char) : Bool := cs.any Char.isDigit && cs.all fun c => c.isDigit || c = '_'

/-- Whether a text starts with a zero before other digits. -/
def hasNeedlessZero (cs : List Char) : Bool := cs.head? = some '0' && 1 < cs.countP Char.isDigit

def isExponentMark (c : Char) : Bool := c = 'e' || c = 'E'

/-- Whether a text is a number with a fraction or an exponent, behind its sign. -/
def isFloat (cs : List Char) : Bool :=
  let mantissa := cs.takeWhile (!isExponentMark ·)
  let exponent := cs.dropWhile (!isExponentMark ·)
  let whole := mantissa.takeWhile (· ≠ '.')
  let fraction := mantissa.dropWhile (· ≠ '.')
  spaced Char.isDigit false cs && isRun whole && !hasNeedlessZero whole &&
    (fraction.isEmpty || isRun (fraction.drop 1)) &&
    (exponent.isEmpty || isRun (splitSign (exponent.drop 1)).2)

def decimalNumber : Nat → Step Nat := fixedNumber 10 Char.isDigit

def daysInMonth (year month : Nat) : Nat :=
  if month = 2 then
    if year % 4 = 0 ∧ (year % 100 ≠ 0 ∨ year % 400 = 0) then 29 else 28
  else if month = 4 ∨ month = 6 ∨ month = 9 ∨ month = 11 then 30
  else 31

/-- The text behind the date at the front of a text. -/
def afterDate? (cs : List Char) : Option (List Char) := do
  let (year, cs) ← decimalNumber 4 cs
  let '-' :: cs := cs | none
  let (month, cs) ← decimalNumber 2 cs
  let '-' :: cs := cs | none
  let (day, cs) ← decimalNumber 2 cs
  if 1 ≤ month ∧ month ≤ 12 ∧ 1 ≤ day ∧ day ≤ daysInMonth year month then some cs else none

/-- The text behind the hour and minute at the front of a text. -/
def afterMinute? (cs : List Char) : Option (List Char) := do
  let (hour, cs) ← decimalNumber 2 cs
  let ':' :: cs := cs | none
  let (minute, cs) ← decimalNumber 2 cs
  if hour ≤ 23 ∧ minute ≤ 59 then some cs else none

/-- The text behind the fraction of a second at the front of a text, if there is a point. -/
def afterFraction? : List Char → Option (List Char)
  | '.' :: cs =>
    if (cs.takeWhile Char.isDigit).isEmpty then none else some (cs.dropWhile Char.isDigit)
  | cs => some cs

/-- The text behind the seconds at the front of a text, which may be left out. -/
def afterSecond? : List Char → Option (List Char)
  | ':' :: cs => do
    let (second, cs) ← decimalNumber 2 cs
    if second ≤ 60 then afterFraction? cs else none
  | cs => some cs

/-- The text behind the time at the front of a text. -/
def afterTime? (cs : List Char) : Option (List Char) := do
  let cs ← afterMinute? cs
  afterSecond? cs

/-- Whether a text is the offset of a time, or nothing. -/
def isOffset : List Char → Bool
  | [] => true
  | ['Z'] => true
  | ['z'] => true
  | c :: cs => (c = '+' || c = '-') && afterMinute? cs == some []

/-- Whether a text is a date, a time, or a date with a time. -/
def isMoment (cs : List Char) : Bool :=
  match afterDate? cs with
  | some [] => true
  | some (c :: rest) =>
    (c = 'T' || c = 't' || c = ' ') && ((afterTime? rest).map isOffset).getD false
  | none => afterTime? cs == some []

/-- The number or point in time that a text spells. What follows the digits at its front tells which
of them it is. -/
def numeric? (cs : List Char) : Option Node :=
  let (sign, body) := splitSign cs
  match body.dropWhile Char.isDigit with
  | [] => decimal? sign body
  | c :: rest =>
    if c = '-' || c = ':' then if isMoment cs then some (.moment (String.ofList cs)) else none
    else if (c :: rest).contains ' ' then none
    else if (c :: rest).any fun d => d = '.' || isExponentMark d then
      if isFloat body then some (.float (String.ofList cs)) else none
    else if c = '_' then decimal? sign body
    else none

/-- The value that an unquoted text spells. -/
def scalar? : List Char → Option Node
  | '0' :: 'x' :: cs => prefixed? 16 isHexDigit cs
  | '0' :: 'o' :: cs => prefixed? 8 (fun c => '0' ≤ c && c ≤ '7') cs
  | '0' :: 'b' :: cs => prefixed? 2 (fun c => c = '0' || c = '1') cs
  | cs =>
    if cs = "true".toList then some (.boolean true)
    else if cs = "false".toList then some (.boolean false)
    else if (splitSign cs).2 = "inf".toList ∨ (splitSign cs).2 = "nan".toList then
      some (.float (String.ofList cs))
    else numeric? cs

end EntityGraph.Toml
