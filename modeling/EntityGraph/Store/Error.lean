/-!
# Store failures

What the store reports when a call on it fails.
-/

namespace EntityGraph

/-- A failure reported by the store, with the text that came with it. -/
inductive StoreError where
  | timeout (operation : String)
  | unavailable (message : String)
  | rejected (message : String)
  | conflict (message : String)
  | notFound (key : String)
deriving DecidableEq

namespace StoreError

def message : StoreError → String
  | timeout operation => s!"store operation timed out: {operation}"
  | unavailable text => s!"store unavailable: {text}"
  | rejected text => s!"store rejected native query: {text}"
  | conflict text => s!"store write conflict: {text}"
  | notFound key => s!"row not found: {key}"

/-- Whether the whole operation may succeed when it is tried again. -/
def isTransient : StoreError → Bool
  | timeout _ | unavailable _ | conflict _ => true
  | rejected _ | notFound _ => false

end StoreError
end EntityGraph
