import EntityGraph.Json.Value
import EntityGraph.Scan

/-!
# JSON forms of scans

`Scan.ofJson` reads what `Scan.toJson` writes.
-/

namespace EntityGraph

open Json (tagged ofOption required optional)

def ScanField.toJson : ScanField → Json
  | property name => tagged "property" (.string name)
  | key => .string "key"

def ScanField.ofJson (j : Json) : Except JsonError ScanField := do
  match ← j.toTagged with
  | ("property", some content) => return property (← content.toString)
  | ("key", content) => if Json.isUnit content then return key else throw .shape
  | _ => throw .shape

def ScanOp.name : ScanOp → String
  | eq => "eq"
  | lt => "lt"
  | le => "lte"
  | gt => "gt"
  | ge => "gte"
  | within => "in"

def ScanOp.ofName? : String → Option ScanOp
  | "eq" => some eq
  | "lt" => some lt
  | "lte" => some le
  | "gt" => some gt
  | "gte" => some ge
  | "in" => some within
  | _ => none

def Direction.name : Direction → String
  | ascending => "asc"
  | descending => "desc"

def Direction.ofName? : String → Option Direction
  | "asc" => some ascending
  | "desc" => some descending
  | _ => none

/-- A case without data, by its name. -/
def Json.toCase {α : Type} (ofName? : String → Option α) (j : Json) : Except JsonError α := do
  match ← j.toTagged with
  | (tag, content) =>
    match ofName? tag with
    | some a => if Json.isUnit content then return a else throw .shape
    | none => throw .shape

def ScanCondition.toJson (c : ScanCondition) : Json :=
  .object [("field", c.field.toJson), ("op", .string c.op.name), ("value", c.value.toJson)]

def ScanCondition.ofJson (j : Json) : Except JsonError ScanCondition := do
  let fields ← j.toRecord ["field", "op", "value"] fun
    | "field", v => discard (ScanField.ofJson v)
    | "op", v => discard (v.toCase ScanOp.ofName?)
    | _, v => discard (Value.ofJson v)
  return ⟨← required fields "field" ScanField.ofJson,
    ← required fields "op" (Json.toCase ScanOp.ofName?), ← required fields "value" Value.ofJson⟩

def ScanSort.toJson (s : ScanSort) : Json :=
  .object [("field", s.field.toJson), ("direction", .string s.direction.name)]

def ScanSort.ofJson (j : Json) : Except JsonError ScanSort := do
  let fields ← j.toRecord ["field", "direction"] fun
    | "field", v => discard (ScanField.ofJson v)
    | _, v => discard (v.toCase Direction.ofName?)
  return ⟨← required fields "field" ScanField.ofJson,
    ← required fields "direction" (Json.toCase Direction.ofName?)⟩

def Window.toJson (w : Window) : Json :=
  .object [("from", w.start), ("to", ofOption (fun n : UInt64 => n) w.stop)]

def Window.ofJson (j : Json) : Except JsonError Window := do
  let fields ← j.toRecord ["from", "to"] fun
    | "from", v => discard v.toUInt64
    | _, v => discard (v.toOption Json.toUInt64)
  return ⟨← required fields "from" Json.toUInt64, ← optional fields "to" Json.toUInt64⟩

def Json.toConditions (j : Json) : Except JsonError (List ScanCondition) := do
  (← j.toArray).mapM ScanCondition.ofJson

def Json.toSorts (j : Json) : Except JsonError (List ScanSort) := do
  (← j.toArray).mapM ScanSort.ofJson

def Scan.toJson (s : Scan) : Json :=
  .object [("kind", .string s.kind), ("ancestor", ofOption Key.toJson s.ancestor),
    ("filters", .array (s.conditions.map ScanCondition.toJson)),
    ("sorts", .array (s.sorts.map ScanSort.toJson)), ("range", s.window.toJson)]

def Scan.ofJson (j : Json) : Except JsonError Scan := do
  let fields ← j.toRecord ["kind", "ancestor", "filters", "sorts", "range"] fun
    | "kind", v => discard v.toString
    | "ancestor", v => discard (v.toOption Key.ofJson)
    | "filters", v => discard v.toConditions
    | "sorts", v => discard v.toSorts
    | _, v => discard (Window.ofJson v)
  return {
    kind := ← required fields "kind" Json.toString
    ancestor := ← optional fields "ancestor" Key.ofJson
    conditions := ← required fields "filters" Json.toConditions
    sorts := ← required fields "sorts" Json.toSorts
    window := ← required fields "range" Window.ofJson }

end EntityGraph
