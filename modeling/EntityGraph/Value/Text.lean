import EntityGraph.Double.Shortest
import EntityGraph.Text.Quoted
import EntityGraph.Value

/-!
# The text of a value

The text by which a message names a value: its family and its content, with texts quoted and the
path of a key spelled out.
-/

namespace EntityGraph

/-- Texts between brackets, separated by commas. -/
def bracketed (items : List String) : String := "[" ++ ", ".intercalate items ++ "]"

def KeyId.describe : KeyId → String
  | .number n => "Id(" ++ toString n.toNat ++ ")"
  | .name s => "Name(" ++ quoted s ++ ")"

def PathElement.describe (e : PathElement) : String :=
  "PathElement \x7b kind: " ++ quoted e.kind ++ ", id: " ++
    (match e.id with | some id => "Some(" ++ id.describe ++ ")" | none => "None") ++ " \x7d"

def Key.describe (k : Key) : String :=
  "Key \x7b path: " ++ bracketed (k.path.map PathElement.describe) ++ " \x7d"

/-- The family and the content of a value. -/
def Value.describe : Value → String
  | .null => "Null"
  | .bool b => "Bool(" ++ toString b ++ ")"
  | .int i => "Int(" ++ toString i.toInt ++ ")"
  | .float d => "Float(" ++ d.text ++ ")"
  | .text s => "Text(" ++ quoted s ++ ")"
  | .blob bytes => "Blob(" ++ bracketed (bytes.map fun b => toString b.toNat) ++ ")"
  | .key k => "Key(" ++ k.describe ++ ")"
  | .list items => "List(" ++ bracketed (items.map Value.describe) ++ ")"

end EntityGraph
