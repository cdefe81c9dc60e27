import EntityGraph.Cursor
import EntityGraph.Event
import EntityGraph.Registry

/-!
# Scopes

A scope is one connection or transaction. It numbers its pending objects, keeps their registry, and
follows the cursors that were opened in it, so that it can disconnect those that are still held when
it ends.

`Context` is what an operation sees and changes: its scope, the store, the cursors that callers hold
and the events reported so far. `Action` is an operation on it that may fail; what it did before it
failed stays done.
-/

namespace EntityGraph

/-- The number of a held cursor. -/
abbrev CursorId := Nat

/-- The cursors that callers hold. -/
structure HeldCursors (Source : Type := Snapshot) where
  next : CursorId := 0
  cursors : SortedMap CursorId (Cursor Source) compare := .empty

namespace HeldCursors

variable {Source : Type}

def get? (h : HeldCursors Source) (id : CursorId) : Option (Cursor Source) := h.cursors.get? id

def isHeld (h : HeldCursors Source) (id : CursorId) : Bool := h.cursors.contains id

/-- Hands a new cursor to the caller. -/
def add (h : HeldCursors Source) (c : Cursor Source) : CursorId × HeldCursors Source :=
  (h.next, { next := h.next + 1, cursors := h.cursors.insert h.next c })

/-- The cursors after one of them changed. -/
def set (h : HeldCursors Source) (id : CursorId) (c : Cursor Source) : HeldCursors Source :=
  { h with cursors := h.cursors.insert id c }

/-- The cursors after the caller dropped one. -/
def drop (h : HeldCursors Source) (id : CursorId) : HeldCursors Source :=
  { h with cursors := h.cursors.erase id }

end HeldCursors

/-- What a scope is told of its transaction and connection. -/
inductive ScopeEvent where
  | preCommit
  | preClose
  | postClose
  | flushed
deriving DecidableEq

/-- One connection or transaction. -/
structure Scope where
  registry : KeyRegistry
  /-- Whether it is a transaction, which is bound to one entity group. -/
  transactional : Bool
  nextSlot : UInt64 := 0
  /-- The cursors opened in the scope since it last disconnected them. -/
  cursors : List CursorId := []
  closed : Bool := false

namespace Scope

def start (id : ScopeId) (transactional : Bool) : Scope :=
  { registry := { scope := id }, transactional }

def id (s : Scope) : ScopeId := s.registry.scope

/-- A handle for a new object in flight. -/
def newObject (s : Scope) : ObjectHandle × Scope :=
  (⟨s.id, s.nextSlot⟩, { s with nextSlot := s.nextSlot + 1 })

/-- Follows a cursor, and no longer those that were dropped. -/
def track {Source : Type} (s : Scope) (held : HeldCursors Source) (id : CursorId) : Scope :=
  { s with cursors := s.cursors.filter held.isHeld ++ [id] }

/-- The number of followed cursors that are still held. -/
def openCursors {Source : Type} (s : Scope) (held : HeldCursors Source) : Nat :=
  s.cursors.countP held.isHeld

end Scope

/-- What an operation in a scope sees and changes. -/
structure Context (Source : Type := Snapshot) (World : Type := Store) where
  scope : Scope
  store : World
  held : HeldCursors Source
  events : List Event := []
  /-- The rows that the running call has touched. -/
  touched : Nat := 0

/-- An operation in a scope. -/
abbrev Action := EStateM Failure Context

namespace Context

variable {Source World : Type}

def emit (ctx : Context Source World) (e : Event) : Context Source World :=
  { ctx with events := ctx.events ++ [e] }

variable [BatchSource Source World]

/-- The answer of a held cursor to a call for its next row, nothing if it is not held. -/
def next (ctx : Context Source World) (id : CursorId) :
    Option (Except Failure (Option Row)) × Context Source World :=
  match ctx.held.get? id with
  | none => (none, ctx)
  | some c =>
    let ((row, c'), store) := c.next ctx.store
    (some (row.mapError (.cursorStore c.kind)), { ctx with store, held := ctx.held.set id c' })

/-- Disconnects a held cursor, and reports it unless that had been done before. -/
def disconnect (ctx : Context Source World) (id : CursorId) : Context Source World :=
  match ctx.held.get? id with
  | none => ctx
  | some c =>
    let ((fetched, c), store) := c.disconnect ctx.store
    let ctx := { ctx with store, held := ctx.held.set id c }
    match fetched with
    | some n => ctx.emit (.disconnected n)
    | none => ctx

/-- Disconnects the cursors that the scope follows and lets go of them. -/
def disconnectAll (ctx : Context Source World) : Context Source World :=
  let ctx' := ctx.scope.cursors.foldl disconnect ctx
  { ctx' with scope := { ctx'.scope with cursors := [] } }

/-- What a scope does on an event: it lets go of its cursors before it ends, forgets its registry
when it has ended, and its marks when its writes have reached the store. -/
def notify (ctx : Context Source World) : ScopeEvent → Context Source World
  | .preCommit => ctx.disconnectAll
  | .preClose => ctx.disconnectAll
  | .postClose =>
    { ctx with scope := { ctx.scope with registry := ctx.scope.registry.clear, closed := true } }
  | .flushed =>
    { ctx with scope := { ctx.scope with registry := ctx.scope.registry.clearMarks } }

/-- Ends the scope. -/
def close (ctx : Context Source World) : Context Source World := (ctx.notify .preClose).notify .postClose

end Context

namespace Action

variable {α : Type}

def emit (e : Event) : Action Unit := modify (·.emit e)

/-- A call on the store, whose failure is wrapped. -/
def onStore (wrap : StoreError → Failure) (call : StoreM α) : Action α := fun ctx =>
  match call ctx.store with
  | .ok a store => .ok a { ctx with store }
  | .error e store => .error (wrap e) { ctx with store }

/-- Counts rows as touched by the running call. -/
def touch (rows : Nat) : Action Unit := modify fun ctx => { ctx with touched := ctx.touched + rows }

/-- Reports the start and the finish of a call, the latter with the rows that it touched, whether or
not the call fails. -/
def counted (call : CallKind) (kind : String) (body : Action α) : Action α := fun ctx =>
  let done (ctx : Context) : Context := ctx.emit (.finished call kind ctx.touched)
  match body { ctx.emit (.started call kind) with touched := 0 } with
  | .ok a ctx => .ok a (done ctx)
  | .error e ctx => .error e (done ctx)

/-- An operation on the registry of the scope. -/
def onRegistry (f : KeyRegistry → KeyRegistry) : Action Unit :=
  modify fun ctx => { ctx with scope := { ctx.scope with registry := f ctx.scope.registry } }

/-- A handle for a new object in flight. -/
def newObject : Action ObjectHandle :=
  modifyGet fun ctx =>
    let (object, scope) := ctx.scope.newObject
    (object, { ctx with scope })

/-- Records the parent that an object is to be written under. -/
def register (object : ObjectHandle) (parent : Key) : Action Unit := do
  let registry ← MonadExcept.ofExcept ((← get).scope.registry.register object parent)
  onRegistry fun _ => registry

/-- The parent recorded for an object, which is forgotten. -/
def takeParent (object : ObjectHandle) : Action (Option Key) := do
  let parent := (← get).scope.registry.parent? object
  onRegistry (·.forget object)
  return parent

end Action
end EntityGraph
