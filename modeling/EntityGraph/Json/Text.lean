import EntityGraph.Double.Shortest
import EntityGraph.Json
import EntityGraph.SortedMap
import EntityGraph.Text.Order
import EntityGraph.Text.Step

/-!
# The text of JSON documents

`Json.parse` reads a document, and `Json.render` writes one without blanks. The members of an object
are read in the order of their names; of two members with one name the later is kept.

A number is an integer if it has neither a point nor an exponent and 64 bits hold it; minus zero is
no integer. Every other number is a float: its digits, as far as 64 bits hold them, are rounded to a
float, and that is multiplied or divided by a power of ten and rounded again. So a float of many
digits need not be the one nearest to what is written.
-/

namespace EntityGraph.Json

open Text (Step digitValue numberValue hexNumber charOf?)

def isBlank (c : Char) : Bool := c = ' ' || c = '\t' || c = '\n' || c = '\r'

def skipBlanks (cs : List Char) : List Char := cs.dropWhile isBlank

/-! ## Numbers -/

/-- A number as it is spelled. Without a point there are no fraction digits, with one there is at
least one. -/
structure Numeral where
  isNegative : Bool
  whole : List Char
  fraction : List Char
  exponent : Option Int

/-- The integer that a numeral spells, if it is one. -/
def Numeral.integer? (n : Numeral) : Option Int :=
  let m := numberValue 10 n.whole
  if !n.fraction.isEmpty || n.exponent.isSome then none
  else if n.isNegative then
    if 0 < m ∧ m ≤ Int64.minValue.toInt.natAbs then some (-m) else none
  else if m < UInt64.size then some m
  else none

/-- Appends digits to a number as long as 64 bits hold it, and answers with the digits left over. -/
def appendDigits (n : Nat) : List Char → Nat × List Char
  | [] => (n, [])
  | c :: cs =>
    let m := n * 10 + digitValue c
    if m < UInt64.size then appendDigits m cs else (n, c :: cs)

/-- The greatest power of ten that is a float. -/
def greatestPower : Nat := 308

/-- The float nearest to a power of ten. -/
def powerOfTen (n : Nat) : Double := .ofNat (Nat.pow 10 n)

/-- `d · 10^n`, if it is finite. -/
def raised? (d : Double) (n : Nat) : Option Double :=
  if n ≤ greatestPower then
    let p := d.product (powerOfTen n)
    if p.isInfinite then none else some p
  else if d.magnitude = 0 then some d
  else none

/-- `d / 10^n`, where each factor `10^308` of a greater power is divided out by itself. -/
def lowered (d : Double) (n : Nat) : Double :=
  if n ≤ greatestPower then d.quotient (powerOfTen n)
  else if d.magnitude = 0 then d
  else lowered (d.quotient (powerOfTen greatestPower)) (n - greatestPower)
termination_by n
decreasing_by simp [greatestPower] at *; omega

/-- The float that a numeral spells, if it is finite. -/
def Numeral.float? (n : Numeral) : Option Double := do
  let (m, beyond) := appendDigits 0 n.whole
  let (m, unread) := appendDigits m n.fraction
  let exponent := n.exponent.getD 0 + beyond.length + unread.length - n.fraction.length
  let d ← if 0 ≤ exponent then raised? (.ofNat m) exponent.toNat
    else some (lowered (.ofNat m) (-exponent).toNat)
  return if n.isNegative then d.negate else d

/-- The digits that come next. -/
def digits (cs : List Char) : List Char × List Char :=
  (cs.takeWhile Char.isDigit, cs.dropWhile Char.isDigit)

/-- A minus, if it comes next. -/
def minus : List Char → Bool × List Char
  | '-' :: cs => (true, cs)
  | cs => (false, cs)

/-- The digits behind a point, if there is one. -/
def fraction : Step (List Char)
  | '.' :: cs => if (digits cs).1.isEmpty then none else some (digits cs)
  | cs => some ([], cs)

/-- An exponent behind its mark. -/
def exponent : Step Int := fun cs =>
  let (isNegative, cs) := match cs with
    | '+' :: cs => (false, cs)
    | cs => minus cs
  let (ds, cs) := digits cs
  let n := numberValue 10 ds
  if ds.isEmpty then none else some (if isNegative then -n else n, cs)

/-- An exponent, if there is one. -/
def exponent? : Step (Option Int)
  | 'e' :: cs => do
    let (e, cs) ← exponent cs
    return (some e, cs)
  | 'E' :: cs => do
    let (e, cs) ← exponent cs
    return (some e, cs)
  | cs => some (none, cs)

/-- A number as it is spelled. Its whole part does not start with a needless zero. -/
def numeral : Step Numeral := fun cs => do
  let (isNegative, cs) := minus cs
  let (whole, cs) := digits cs
  if whole.isEmpty || (whole.head? = some '0' && 1 < whole.length) then none
  let (fraction, cs) ← fraction cs
  let (exponent, cs) ← exponent? cs
  return ({ isNegative, whole, fraction, exponent }, cs)

def number : Step Json := fun cs => do
  let (n, cs) ← numeral cs
  match n.integer? with
  | some i => return (integer i, cs)
  | none => return (float (← n.float?), cs)

/-! ## Strings -/

/-- The character that `\u` spells: one code unit, or a pair of them. -/
def codeUnits : Step Char := fun cs => do
  let (high, cs) ← hexNumber 4 cs
  if 0xD800 ≤ high ∧ high < 0xDC00 then
    let '\\' :: 'u' :: cs := cs | none
    let (low, cs) ← hexNumber 4 cs
    if 0xDC00 ≤ low ∧ low < 0xE000 then
      return (← charOf? (0x10000 + (high - 0xD800) * 0x400 + (low - 0xDC00)), cs)
    else none
  else return (← charOf? high, cs)

/-- The character that an escape spells, behind its backslash. -/
def escaped : Step Char
  | '\x22' :: cs => some ('\x22', cs)
  | '\\' :: cs => some ('\\', cs)
  | '/' :: cs => some ('/', cs)
  | 'b' :: cs => some ('\x08', cs)
  | 'f' :: cs => some ('\x0c', cs)
  | 'n' :: cs => some ('\n', cs)
  | 'r' :: cs => some ('\r', cs)
  | 't' :: cs => some ('\t', cs)
  | 'u' :: cs => codeUnits cs
  | _ => none

/-- The rest of a string, of at most `fuel` characters. -/
def characters : Nat → Step (List Char)
  | 0, _ => none
  | _, [] => none
  | _, '\x22' :: cs => some ([], cs)
  | fuel + 1, '\\' :: cs => do
    let (c, cs) ← escaped cs
    let (rest, cs) ← characters fuel cs
    return (c :: rest, cs)
  | fuel + 1, c :: cs =>
    if 0x20 ≤ c.toNat then do
      let (rest, cs) ← characters fuel cs
      return (c :: rest, cs)
    else none

/-- A string behind its first quote. -/
def stringRest : Step String := fun cs => do
  let (s, cs) ← characters (cs.length + 1) cs
  return (String.ofList s, cs)

/-! ## Documents -/

mutual

/-- A document of at most `fuel` parts, behind blanks. -/
def document : Nat → Step Json
  | 0, _ => none
  | fuel + 1, cs =>
    match skipBlanks cs with
    | 'n' :: 'u' :: 'l' :: 'l' :: cs => some (null, cs)
    | 't' :: 'r' :: 'u' :: 'e' :: cs => some (bool true, cs)
    | 'f' :: 'a' :: 'l' :: 's' :: 'e' :: cs => some (bool false, cs)
    | '\x22' :: cs => do
      let (s, cs) ← stringRest cs
      return (string s, cs)
    | '[' :: cs =>
      match skipBlanks cs with
      | ']' :: cs => some (array [], cs)
      | cs => do
        let (js, cs) ← items fuel cs
        return (array js, cs)
    | '\x7b' :: cs =>
      match skipBlanks cs with
      | '\x7d' :: cs => some (object [], cs)
      | cs => do
        let (ms, cs) ← members fuel cs
        return (object (SortedMap.ofList ms : SortedMap String Json compareText).entries, cs)
    | cs => number cs

/-- The items of an array, up to its bracket. -/
def items : Nat → Step (List Json)
  | 0, _ => none
  | fuel + 1, cs => do
    let (j, cs) ← document fuel cs
    match skipBlanks cs with
    | ',' :: cs => do
      let (js, cs) ← items fuel cs
      return (j :: js, cs)
    | ']' :: cs => return ([j], cs)
    | _ => none

/-- The members of an object, up to its brace. -/
def members : Nat → Step (List (String × Json))
  | 0, _ => none
  | fuel + 1, cs => do
    let '\x22' :: cs := skipBlanks cs | none
    let (name, cs) ← stringRest cs
    let ':' :: cs := skipBlanks cs | none
    let (j, cs) ← document fuel cs
    match skipBlanks cs with
    | ',' :: cs => do
      let (ms, cs) ← members fuel cs
      return ((name, j) :: ms, cs)
    | '\x7d' :: cs => return ([(name, j)], cs)
    | _ => none

end

/-- Reads a document, around which blanks may stand. -/
def parse (s : String) : Option Json := do
  let (j, cs) ← document (s.length + 1) s.toList
  if (skipBlanks cs).isEmpty then some j else none

/-! ## Writing -/

/-- The spelling of one character of a string. -/
def spelling (c : Char) : String :=
  if c = '\x22' then "\\\""
  else if c = '\\' then "\\\\"
  else if c.toNat < 0x10 then "\\u000" ++ String.ofList (Nat.toDigits 16 c.toNat)
  else if c.toNat < 0x20 then "\\u00" ++ String.ofList (Nat.toDigits 16 c.toNat)
  else c.toString

def renderString (s : String) : String := "\"" ++ String.join (s.toList.map spelling) ++ "\""

mutual

/-- Writes a document. -/
def render : Json → String
  | null => "null"
  | bool b => if b then "true" else "false"
  | integer i => i.repr
  | float d => d.text
  | string s => renderString s
  | array js => "[" ++ ",".intercalate (renderItems js) ++ "]"
  | object ms => "\x7b" ++ ",".intercalate (renderMembers ms) ++ "\x7d"

def renderItems : List Json → List String
  | [] => []
  | j :: js => j.render :: renderItems js

def renderMembers : List (String × Json) → List String
  | [] => []
  | (name, j) :: ms => (renderString name ++ ":" ++ j.render) :: renderMembers ms

end

end EntityGraph.Json
