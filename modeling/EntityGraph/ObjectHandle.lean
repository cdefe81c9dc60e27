/-!
# Object handles

While an object has no key it is known by a handle: the scope that it was made in and its number
there. Two pending objects may agree in everything but their handles.
-/

namespace EntityGraph

/-- The number of a scope. -/
structure ScopeId where
  number : UInt64
deriving DecidableEq

def ScopeId.text (s : ScopeId) : String := "#" ++ toString s.number

/-- The identity of an object in flight. -/
structure ObjectHandle where
  scope : ScopeId
  slot : UInt64
deriving DecidableEq

def ObjectHandle.text (h : ObjectHandle) : String := h.scope.text ++ "/" ++ toString h.slot

end EntityGraph
