import EntityGraph.Key

/-!
# Key bytes

The bytes of a complete key. A kind or name is written with its zero bytes escaped and a terminator
below every escape, a number with its eight bytes from the highest down, and a tag before the id
puts numbers before names, so that the bytes of two keys compare as the keys do.
-/

namespace EntityGraph

/-- Bytes with each zero byte followed by `0xFF`, closed by `0x00 0x01`. -/
def escapeBytes : List UInt8 → List UInt8
  | [] => [0x00, 0x01]
  | b :: bs => if b = 0x00 then 0x00 :: 0xFF :: escapeBytes bs else b :: escapeBytes bs

/-- The eight bytes of a number, the highest first. -/
def bigEndian (n : UInt64) : List UInt8 :=
  [56, 48, 40, 32, 24, 16, 8, 0].map fun (shift : UInt64) => (n >>> shift).toUInt8

def KeyId.bytes : KeyId → List UInt8
  | .number n => 0x01 :: bigEndian n
  | .name s => 0x02 :: escapeBytes (utf8 s)

/-- The bytes of an element; a missing id has none. -/
def PathElement.bytes (e : PathElement) : List UInt8 :=
  escapeBytes (utf8 e.kind) ++ (e.id.map KeyId.bytes).getD []

/-- The bytes of a complete key. -/
def Key.encode (k : Key) : Except KeyError (List UInt8) :=
  if k.isComplete then .ok (k.path.flatMap PathElement.bytes) else .error (.incomplete k.text)

end EntityGraph
