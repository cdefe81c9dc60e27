import EntityGraph.Json
import EntityGraph.Value

/-!
# JSON forms of keys and values
-/

namespace EntityGraph

open Json (tagged ofOption required optional)

/-! ## Keys -/

def KeyId.toJson : KeyId → Json
  | number n => tagged "Id" n
  | name s => tagged "Name" (.string s)

def KeyId.ofJson (j : Json) : Except JsonError KeyId := do
  match ← j.toTagged with
  | ("Id", some content) => return number (← content.toUInt64)
  | ("Name", some content) => return name (← content.toString)
  | _ => throw .shape

def PathElement.toJson (e : PathElement) : Json :=
  .object [("kind", .string e.kind), ("id", ofOption KeyId.toJson e.id)]

def PathElement.ofJson (j : Json) : Except JsonError PathElement := do
  let fields ← j.toRecord ["kind", "id"] fun
    | "kind", v => discard v.toString
    | _, v => discard (v.toOption KeyId.ofJson)
  return ⟨← required fields "kind" Json.toString, ← optional fields "id" KeyId.ofJson⟩

def Key.toJson (k : Key) : Json := .object [("path", .array (k.path.map PathElement.toJson))]

/-- The path of a key's form, whose rules are not checked. -/
def Json.toPath (j : Json) : Except JsonError (List PathElement) := do
  (← j.toArray).mapM PathElement.ofJson

def Key.ofJson (j : Json) : Except JsonError Key := do
  let fields ← j.toRecord ["path"] fun _ v => discard v.toPath
  let path ← required fields "path" Json.toPath
  match Key.ofPath path with
  | .ok k => return k
  | .error e => throw (.key e)

/-! ## Values -/

mutual

def Value.toJson : Value → Json
  | .null => .string "Null"
  | .bool b => tagged "Bool" (.bool b)
  | .int i => tagged "Int" (.integer i.toInt)
  | .float d => tagged "Float" (.ofDouble d)
  | .text s => tagged "Text" (.string s)
  | .blob bytes => tagged "Blob" (.array (bytes.map fun b => .integer b.toNat))
  | .key k => tagged "Key" k.toJson
  | .list items => tagged "List" (.array (Value.listToJson items))

def Value.listToJson : List Value → List Json
  | [] => []
  | v :: vs => v.toJson :: Value.listToJson vs

end

mutual

def Value.ofJson : Json → Except JsonError Value
  | .string tag => if tag = "Null" then .ok .null else .error .shape
  | .object [(tag, content)] => Value.ofTagged tag content
  | _ => .error .shape

def Value.ofTagged (tag : String) : Json → Except JsonError Value
  | .array items =>
    if tag = "List" then .list <$> Value.listOfJson items
    else if tag = "Blob" then .blob <$> items.mapM Json.toByte
    else if tag = "Key" then .key <$> Key.ofJson (.array items)
    else .error .shape
  | content =>
    match tag with
    | "Null" => if Json.isUnit (some content) then .ok .null else .error .shape
    | "Bool" => .bool <$> content.toBool
    | "Int" => .int <$> content.toInt64
    | "Float" => .float <$> content.toDouble
    | "Text" => .text <$> content.toString
    | "Key" => .key <$> Key.ofJson content
    | _ => .error .shape

def Value.listOfJson : List Json → Except JsonError (List Value)
  | [] => .ok []
  | j :: js => do
    let v ← Value.ofJson j
    let vs ← Value.listOfJson js
    return v :: vs

end

end EntityGraph
