import EntityGraph.Double
import EntityGraph.Key

/-!
# JSON documents

Documents, and how the parts of a type are read from one. A case of a type with data is an object
with one member, named for the case; a case without is its name. A record is an object with its
fields as members, or the list of its fields; members that it does not know are passed over, and a
missing member is null where the field is optional.

What cannot be read either has the wrong shape or holds a path that is not a key's.
-/

namespace EntityGraph

/-- A JSON document. A number is an integer or a float. -/
inductive Json where
  | null
  | bool (b : Bool)
  | integer (i : Int)
  | float (d : Double)
  | string (s : String)
  | array (items : List Json)
  | object (members : List (String × Json))

instance : Inhabited Json := ⟨.null⟩

/-- The form of a 64-bit number. -/
instance : Coe UInt64 Json := ⟨fun n => .integer n.toNat⟩

/-- Why a document is not the form of anything. -/
inductive JsonError where
  | shape
  | key (e : KeyError)
deriving DecidableEq

namespace Json

/-- The form of an optional field. -/
def ofOption {α : Type} (f : α → Json) : Option α → Json
  | none => null
  | some a => f a

/-- The form of a case with data. -/
def tagged (tag : String) (content : Json) : Json := object [(tag, content)]

def toInt : Json → Except JsonError Int
  | integer i => .ok i
  | _ => .error .shape

/-- An integer within bounds. -/
def toIntWithin (lower upper : Int) (j : Json) : Except JsonError Int := do
  let i ← j.toInt
  if lower ≤ i ∧ i ≤ upper then return i else throw .shape

def toUInt64 (j : Json) : Except JsonError UInt64 := do
  return UInt64.ofNat (← j.toIntWithin 0 (UInt64.size - 1)).toNat

def toInt64 (j : Json) : Except JsonError Int64 := do
  return Int64.ofInt (← j.toIntWithin Int64.minValue.toInt Int64.maxValue.toInt)

def toByte (j : Json) : Except JsonError UInt8 := do
  return UInt8.ofNat (← j.toIntWithin 0 255).toNat

def toString : Json → Except JsonError String
  | string s => .ok s
  | _ => .error .shape

def toBool : Json → Except JsonError Bool
  | bool b => .ok b
  | _ => .error .shape

def toArray : Json → Except JsonError (List Json)
  | array items => .ok items
  | _ => .error .shape

/-- The content of an optional field. -/
def toOption {α : Type} (f : Json → Except JsonError α) : Json → Except JsonError (Option α)
  | null => .ok none
  | j => some <$> f j

/-- The tag and the content of a case. -/
def toTagged : Json → Except JsonError (String × Option Json)
  | string tag => .ok (tag, none)
  | object [(tag, content)] => .ok (tag, some content)
  | _ => .error .shape

/-- A case without data may also be given with a null. -/
def isUnit : Option Json → Bool
  | none => true
  | some null => true
  | _ => false

/-- A float, or the float nearest to an integer. -/
def toDouble : Json → Except JsonError Double
  | integer i => .ok (.ofInt i)
  | float d => .ok d
  | _ => .error .shape

/-- The form of a float, null if it is not finite. -/
def ofDouble (d : Double) : Json := if d.isNaN || d.isInfinite then null else float d

/-- The fields of a record by name. The fields that are there are checked in the order in which the
document has them; in a list they have to be all there. -/
def toRecord (names : List String) (check : String → Json → Except JsonError Unit) :
    Json → Except JsonError (String → Option Json)
  | object members => do
    members.forM fun m => if m.1 ∈ names then check m.1 m.2 else .ok ()
    return fun name => members.lookup name
  | array items => do
    (names.zip items).forM fun m => check m.1 m.2
    if items.length ≠ names.length then throw .shape
    return fun name => (names.zip items).lookup name
  | _ => .error .shape

/-- A field that has to be there. -/
def required {α : Type} (fields : String → Option Json) (name : String)
    (f : Json → Except JsonError α) : Except JsonError α :=
  match fields name with
  | some j => f j
  | none => .error .shape

/-- A field that may be missing. -/
def optional {α : Type} (fields : String → Option Json) (name : String)
    (f : Json → Except JsonError α) : Except JsonError (Option α) :=
  match fields name with
  | some j => j.toOption f
  | none => .ok none

end Json

end EntityGraph
