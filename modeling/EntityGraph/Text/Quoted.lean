import EntityGraph.Text.PrintTable

/-!
# Quoted text

Text between double quotes, in which a quote, a backslash and every character that does not show by
itself is escaped.
-/

namespace EntityGraph

/-- The spelling of one character between double quotes. -/
def quotedChar (c : Char) : String :=
  if c = '\x00' then "\\0"
  else if c = '\t' then "\\t"
  else if c = '\n' then "\\n"
  else if c = '\r' then "\\r"
  else if c = '\x22' then "\\\""
  else if c = '\\' then "\\\\"
  else if CodeRange.listHas attachedRanges c || CodeRange.listHas unprintableRanges c then
    "\\u\x7b" ++ String.ofList (Nat.toDigits 16 c.toNat) ++ "\x7d"
  else c.toString

/-- A text between double quotes. -/
def quoted (s : String) : String := "\"" ++ String.join (s.toList.map quotedChar) ++ "\""

end EntityGraph
