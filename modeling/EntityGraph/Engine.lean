import EntityGraph.Cascade
import EntityGraph.Failure.Public
import EntityGraph.ObjectGraph

/-!
# The engine

The operations on persistent objects behind one interface, for a schema and a valid configuration.
What fails in them is shown as a public error.
-/

namespace EntityGraph

/-- A schema with a valid configuration. -/
structure Engine where
  schema : Schema
  config : Config
  valid : config.validate = .ok ()

namespace Engine

variable {α : Type}

/-- The engine for a configuration, unless that is refused. -/
def ofConfig (schema : Schema) (config : Config) : Except PublicError Engine :=
  match h : config.validate with
  | .ok () => .ok ⟨schema, config, h⟩
  | .error e => .error (Failure.config e).publicError

/-- An operation with its failure shown as a public error. -/
def published (body : Action α) : EStateM PublicError Context α := fun ctx =>
  match body ctx with
  | .ok a ctx => .ok a ctx
  | .error e ctx => .error e.publicError ctx

/-- Runs a query. -/
def query (e : Engine) (q : Query) (bindings : Bindings) : EStateM PublicError Context Result :=
  published (q.execute e.config.query bindings)

/-- Runs a query and reads all its rows. -/
def queryRows (e : Engine) (q : Query) (bindings : Bindings) :
    EStateM PublicError Context (List Row) :=
  published (q.rows e.config.query bindings)

/-- Runs a query for its one row, if it has any. -/
def queryUnique (e : Engine) (q : Query) (bindings : Bindings) :
    EStateM PublicError Context (Option Row) :=
  published (q.uniqueRow? e.config.query bindings)

/-- Writes an object graph. -/
def insert (e : Engine) (o : PendingObject) : EStateM PublicError Context Key :=
  published (o.insert e.schema)

/-- Deletes a row, with its dependents before it. -/
def delete (e : Engine) (loaded : LoadedFields) (owner : Row) :
    EStateM PublicError Context CascadeReport :=
  published (Cascade.delete e.schema e.config.cascade loaded owner)

end Engine
end EntityGraph
