import EntityGraph.Metrics
import EntityGraph.Query.Execution

/-!
# Sessions

A session is a store with the scopes that were opened over it, the cursors that callers hold and the
metrics of what happened. Operations run in one of its scopes and cannot touch another. The events
of an operation are counted, unless they are recorded for the caller instead.
-/

namespace EntityGraph

/-- A store with its scopes, cursors and metrics. Scopes are numbered from 1. -/
structure Session where
  store : Store := {}
  scopes : List Scope := []
  held : HeldCursors := {}
  metrics : Metrics := {}

namespace Session

/-- The scope of a number. -/
def scope? (s : Session) (id : ScopeId) : Option Scope :=
  if id.number = 0 then none else s.scopes[id.number.toNat - 1]?

/-- Opens a new scope. -/
def openScope (s : Session) (transactional : Bool) : ScopeId × Session :=
  let id := ⟨UInt64.ofNat (s.scopes.length + 1)⟩
  (id, { s with scopes := s.scopes ++ [Scope.start id transactional] })

/-- The session after one of its scopes changed. -/
def setScope (s : Session) (id : ScopeId) (scope : Scope) : Session :=
  { s with scopes := s.scopes.set (id.number.toNat - 1) scope }

/-- What an operation in a scope sees of the session. -/
def context (s : Session) (scope : Scope) : Context := { scope, store := s.store, held := s.held }

/-- The session after an operation in a scope. -/
def resume (s : Session) (id : ScopeId) (ctx : Context) : Session :=
  { s.setScope id ctx.scope with store := ctx.store, held := ctx.held }

/-- Runs an operation in a scope and answers with what it returned and the events it reported. -/
def runIn {ε α : Type} (s : Session) (id : ScopeId) (scope : Scope)
    (body : EStateM ε Context α) : (Except ε α × List Event) × Session :=
  match body (s.context scope) with
  | .ok a ctx => ((.ok a, ctx.events), s.resume id ctx)
  | .error e ctx => ((.error e, ctx.events), s.resume id ctx)

/-- The session with events counted. -/
def count (s : Session) (events : List Event) : Session :=
  { s with metrics := s.metrics.recordAll events }

/-- Changes the store. -/
def withStore (s : Session) (f : Store → Store) : Session := { s with store := f s.store }

/-- Runs a call on the store. -/
def call {α : Type} (s : Session) (body : StoreM α) : Except StoreError α × Session :=
  match body s.store with
  | .ok a store => (.ok a, { s with store })
  | .error e store => (.error e, { s with store })

end Session
end EntityGraph
