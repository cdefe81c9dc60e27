import EntityGraph.Failure.Public
import EntityGraph.Json

/-!
# JSON forms of public errors
-/

namespace EntityGraph

open Json (tagged)

def ErrorKind.toJson (k : ErrorKind) : Json :=
  match k.titles with
  | (group, some fault) => tagged group (.string fault)
  | (group, none) => .string group

def PublicError.toJson (e : PublicError) : Json :=
  .object [("kind", e.kind.toJson), ("origin", .string e.origin.title),
    ("message", .string e.message)]

end EntityGraph
