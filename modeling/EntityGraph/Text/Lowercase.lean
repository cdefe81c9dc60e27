import EntityGraph.Text.CaseTable

/-!
# Lower case

The lower-case form of a text under Unicode's default mapping: each character by itself, except
that a capital sigma at the end of a word becomes a final sigma.
-/

namespace EntityGraph

/-- The lower-case form of one character; only the dotted capital I needs two. -/
def lowercaseChar (c : Char) : List Char :=
  if c.toNat < 128 then [c.toLower]
  else if c = 'İ' then ['i', '\u0307']
  else
    match lowercaseRuns.find? fun r =>
        r.first ≤ c.toNat && c.toNat ≤ r.last && (c.toNat - r.first) % r.step == 0 with
    | some r => [Char.ofNat (c.toNat + r.shift).toNat]
    | none => [c]

/-- Whether the first character that is not case-ignorable is a cased one. -/
def casedNext (cs : List Char) : Bool :=
  match cs.dropWhile (CodeRange.listHas caseIgnorableRanges) with
  | [] => false
  | c :: _ => CodeRange.listHas casedRanges c

/-- The lower-case form of a list of characters that follows `before`, which is listed backwards.
A sigma is final if a cased letter comes before it and none after it, case-ignorable characters
aside. -/
def lowercaseAfter (before : List Char) : List Char → List Char
  | [] => []
  | c :: rest =>
    (if c = 'Σ' then [if casedNext before && !casedNext rest then 'ς' else 'σ']
      else lowercaseChar c) ++ lowercaseAfter (c :: before) rest

/-- The lower-case form of a text. -/
def lowercaseText (s : String) : String := String.ofList (lowercaseAfter [] s.toList)

end EntityGraph
