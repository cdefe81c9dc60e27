import EntityGraph.Toml.Scalar

/-!
# Reading TOML

`Toml.read` reads a document, or answers with nothing if it is not one.
-/

namespace EntityGraph.Toml

open Text (Step hexNumber charOf?)

def isBlank (c : Char) : Bool := c = ' ' || c = '\t'

def skipBlanks (cs : List Char) : List Char := cs.dropWhile isBlank

/-- Characters that may stand in a comment or a string: no controls but the tab. -/
def isPlain (c : Char) : Bool := c = '\t' || (0x20 ≤ c.toNat && c.toNat ≠ 0x7F)

/-- The text behind a line break. -/
def afterBreak? : List Char → Option (List Char)
  | '\n' :: cs => some cs
  | '\r' :: '\n' :: cs => some cs
  | _ => none

/-- The text behind a comment, if there is one. -/
def skipComment : List Char → List Char
  | '#' :: cs => cs.dropWhile isPlain
  | cs => cs

/-- The text behind the end of a line, where a comment may stand. -/
def afterLine? (cs : List Char) : Option (List Char) :=
  match skipComment (skipBlanks cs) with
  | [] => some []
  | cs => afterBreak? cs

/-- Skips blanks, comments and at most `fuel` line breaks. -/
def skipLines : Nat → List Char → List Char
  | 0, cs => cs
  | fuel + 1, cs =>
    match afterBreak? (skipComment (skipBlanks cs)) with
    | some rest => skipLines fuel rest
    | none => skipBlanks cs

/-- Skips blanks, comments and line breaks. -/
def skipAll (cs : List Char) : List Char := skipLines (cs.length + 1) cs

/-! ## Strings -/

/-- The character that `count` hexadecimal digits spell. -/
def hexChar (count : Nat) : Step Char := fun cs => do
  let (n, cs) ← hexNumber count cs
  return (← charOf? n, cs)

/-- The character that an escape spells, behind its backslash. -/
def escaped : Step Char
  | 'b' :: cs => some ('\x08', cs)
  | 't' :: cs => some ('\t', cs)
  | 'n' :: cs => some ('\n', cs)
  | 'f' :: cs => some ('\x0c', cs)
  | 'r' :: cs => some ('\r', cs)
  | 'e' :: cs => some ('\x1b', cs)
  | '\x22' :: cs => some ('\x22', cs)
  | '\\' :: cs => some ('\\', cs)
  | 'x' :: cs => hexChar 2 cs
  | 'u' :: cs => hexChar 4 cs
  | 'U' :: cs => hexChar 8 cs
  | _ => none

/-- The rest of a string of one line between double quotes, of at most `fuel` characters. -/
def basicString : Nat → Step (List Char)
  | 0, _ => none
  | _, [] => none
  | _, '\x22' :: cs => some ([], cs)
  | fuel + 1, '\\' :: cs => do
    let (c, cs) ← escaped cs
    let (rest, cs) ← basicString fuel cs
    return (c :: rest, cs)
  | fuel + 1, c :: cs =>
    if isPlain c then do
      let (rest, cs) ← basicString fuel cs
      return (c :: rest, cs)
    else none

/-- The rest of a string of one line between single quotes. -/
def literalString : Step (List Char)
  | [] => none
  | '\x27' :: cs => some ([], cs)
  | c :: cs =>
    if isPlain c then do
      let (rest, cs) ← literalString cs
      return (c :: rest, cs)
    else none

/-- The text behind a line break at the very front, if there is one. -/
def skipBreak (cs : List Char) : List Char := (afterBreak? cs).getD cs

/-- The end of a string of many lines: three quotes, before which up to two more belong to it. -/
def closing (quote : Char) (cs : List Char) : Option (List Char × List Char) :=
  let run := (cs.takeWhile (· = quote)).length
  if run < 3 then none
  else
    let count := min run 5
    some (List.replicate (count - 3) quote, cs.drop count)

/-- Skips blanks and at most `fuel` line breaks. -/
def skipBreaks : Nat → List Char → List Char
  | 0, cs => cs
  | fuel + 1, cs =>
    match afterBreak? (skipBlanks cs) with
    | some rest => skipBreaks fuel rest
    | none => skipBlanks cs

/-- The text behind a backslash that ends a line, and behind the blanks and breaks after it. -/
def afterContinuation? (cs : List Char) : Option (List Char) :=
  (afterBreak? (skipBlanks cs)).map fun rest => skipBreaks (rest.length + 1) rest

/-- The rest of a string of many lines, of at most `fuel` characters. -/
def manyLines (quote : Char) : Nat → Step (List Char)
  | 0, _ => none
  | _, [] => none
  | fuel + 1, c :: cs =>
    match closing quote (c :: cs) with
    | some done => some done
    | none =>
      if c = '\\' ∧ quote = '\x22' then
        match afterContinuation? cs with
        | some cs => manyLines quote fuel cs
        | none => do
          let (e, cs) ← escaped cs
          let (rest, cs) ← manyLines quote fuel cs
          return (e :: rest, cs)
      else
        match afterBreak? (c :: cs) with
        | some cs => do
          let (rest, cs) ← manyLines quote fuel cs
          return ('\n' :: rest, cs)
        | none =>
          if isPlain c then do
            let (rest, cs) ← manyLines quote fuel cs
            return (c :: rest, cs)
          else none

/-! ## Keys -/

def isBare (c : Char) : Bool := c.isAlphanum || c = '_' || c = '-'

/-- One part of a key: bare or between quotes. -/
def keyPart : Step String
  | '\x22' :: cs => do
    let (s, cs) ← basicString (cs.length + 1) cs
    return (String.ofList s, cs)
  | '\x27' :: cs => do
    let (s, cs) ← literalString cs
    return (String.ofList s, cs)
  | cs =>
    let part := cs.takeWhile isBare
    if part.isEmpty then none else some (String.ofList part, cs.dropWhile isBare)

/-- The parts of a key, of which there are at most `fuel`, and the blanks behind it. -/
def keyParts : Nat → Step (List String)
  | 0, _ => none
  | fuel + 1, cs => do
    let (part, cs) ← keyPart (skipBlanks cs)
    match skipBlanks cs with
    | '.' :: cs => do
      let (parts, cs) ← keyParts fuel cs
      return (part :: parts, cs)
    | cs => return ([part], cs)

/-- The most parts that a key may have, and the most brackets that may be open in a value. -/
def depthLimit : Nat := 80

/-- A key: the path to its table, and its name there. -/
def key : Step (List String × String) := fun cs => do
  let (parts, cs) ← keyParts depthLimit cs
  let name ← parts.getLast?
  return ((parts.dropLast, name), cs)

/-! ## Values -/

/-- Characters of a value without quotes or brackets: all that do not end it. -/
def isScalarChar (c : Char) : Bool := !"=,[]\x7b\x7d \t#\r\n".toList.contains c

/-- Whether a text starts with more of a value without quotes or brackets. -/
def startsScalar (cs : List Char) : Bool :=
  cs.head?.any fun c => isScalarChar c && c ≠ '\x22' && c ≠ '\x27'

/-- The text of a value without quotes or brackets, and what is left behind it. Blanks between two
parts of the text belong to it, those behind it do not. -/
def scalarText : List Char → List Char × List Char
  | [] => ([], [])
  | c :: cs =>
    if isScalarChar c || (isBlank c && startsScalar (skipBlanks cs)) then
      let (text, rest) := scalarText cs
      (c :: text, rest)
    else ([], c :: cs)

/-- A value without quotes or brackets. -/
def scalar : Step Node := fun cs => do
  let (text, rest) := scalarText cs
  return (← scalar? text, rest)

mutual

/-- A value, of at most `fuel` parts and with at most `depth` open brackets. -/
def value : Nat → Nat → Step Node
  | 0, _, _ => none
  | _, _, '\x22' :: '\x22' :: '\x22' :: cs => do
    let (s, cs) ← manyLines '\x22' (cs.length + 1) (skipBreak cs)
    return (.string (String.ofList s), cs)
  | _, _, '\x27' :: '\x27' :: '\x27' :: cs => do
    let (s, cs) ← manyLines '\x27' (cs.length + 1) (skipBreak cs)
    return (.string (String.ofList s), cs)
  | _, _, '\x22' :: cs => do
    let (s, cs) ← basicString (cs.length + 1) cs
    return (.string (String.ofList s), cs)
  | _, _, '\x27' :: cs => do
    let (s, cs) ← literalString cs
    return (.string (String.ofList s), cs)
  | fuel + 1, depth + 1, '[' :: cs => do
    let (items, cs) ← arrayItems fuel depth cs
    return (.array items, cs)
  | fuel + 1, depth + 1, '\x7b' :: cs => do
    let (t, cs) ← bracedEntries fuel depth { form := .braced } cs
    return (t.toNode, cs)
  | _, _, cs => scalar cs

/-- The items of an array, behind its bracket or a comma. -/
def arrayItems : Nat → Nat → Step (List Node)
  | 0, _, _ => none
  | fuel + 1, depth, cs =>
    match skipAll cs with
    | ']' :: cs => some ([], cs)
    | cs => do
      let (v, cs) ← value fuel depth cs
      match skipAll cs with
      | ',' :: cs => do
        let (vs, cs) ← arrayItems fuel depth cs
        return (v :: vs, cs)
      | ']' :: cs => return ([v], cs)
      | _ => none

/-- The table between braces, behind its brace or a comma, where `t` is what came before. -/
def bracedEntries : Nat → Nat → Table → Step Table
  | 0, _, _, _ => none
  | fuel + 1, depth, t, cs =>
    match skipAll cs with
    | '\x7d' :: cs => some (t, cs)
    | cs => do
      let ((path, name), cs) ← key cs
      let '=' :: cs := skipAll cs | none
      let (v, cs) ← value fuel depth (skipAll cs)
      let t ← t.addDotted path name v
      match skipAll cs with
      | ',' :: cs => bracedEntries fuel depth t cs
      | '\x7d' :: cs => return (t, cs)
      | _ => none

end

/-! ## Documents -/

/-- A document as far as it has been read, and the path of its last header. -/
structure Draft where
  root : Table := { form := .headed }
  current : List String := []

/-- The draft with a key and its value in the table of the last header. -/
def Draft.add (d : Draft) (path : List String) (name : String) (v : Node) : Option Draft := do
  let root ← d.root.changeAt .current (·.addDotted path name v) d.current
  return { d with root }

/-- A header or a key with its value, up to the end of its line. -/
def line (d : Draft) : Step Draft
  | '[' :: '[' :: cs => do
    let ((path, name), cs) ← key cs
    let ']' :: ']' :: cs := cs | none
    let cs ← afterLine? cs
    return (⟨← d.root.addRepeated path name, path ++ [name]⟩, cs)
  | '[' :: cs => do
    let ((path, name), cs) ← key cs
    let ']' :: cs := cs | none
    let cs ← afterLine? cs
    return (⟨← d.root.addHeader path name, path ++ [name]⟩, cs)
  | cs => do
    let ((path, name), cs) ← key cs
    let '=' :: cs := cs | none
    let (v, cs) ← value (cs.length + 1) depthLimit (skipBlanks cs)
    let cs ← afterLine? cs
    return (← d.add path name v, cs)

/-- The document of at most `fuel` lines. -/
def lines : Nat → Draft → List Char → Option Table
  | 0, _, _ => none
  | fuel + 1, d, cs =>
    match skipComment (skipAll cs) with
    | [] => some d.root
    | cs => do
      let (d, cs) ← line d cs
      lines fuel d cs

/-- The text without a byte order mark at its front. -/
def skipMark : List Char → List Char
  | '\uFEFF' :: cs => cs
  | cs => cs

/-- Reads a document. -/
def read (text : String) : Option Table :=
  let cs := skipMark text.toList
  lines (cs.length + 1) {} cs

end EntityGraph.Toml
