import EntityGraph.Failure

/-!
# Public errors

The errors that the engine shows to its callers. Their kinds are coarser than the categories of the
reports they come from, and they do not tell what error was wrapped: a failure of the store is of
the kind that the store reported, and only those may be tried again.
-/

namespace EntityGraph

/-- What is wrong with a query. -/
inductive QueryFault where
  | invalid
  | unsupported
  | notUnique
deriving DecidableEq

/-- What went wrong in the store. -/
inductive StoreFault where
  | unavailable
  | rejected
  | conflict
  | notFound
deriving DecidableEq

/-- What is wrong with a cascade. -/
inductive CascadeFault where
  | integrity
  | unsupported
deriving DecidableEq

inductive ErrorKind where
  | query (fault : QueryFault)
  | store (fault : StoreFault)
  | cascade (fault : CascadeFault)
  /-- The engine or the model is not configured properly. -/
  | configuration
  /-- The caller can do nothing about it. -/
  | internal
deriving DecidableEq

def QueryFault.title : QueryFault → String
  | invalid => "Invalid"
  | unsupported => "Unsupported"
  | notUnique => "NotUnique"

def StoreFault.title : StoreFault → String
  | unavailable => "Unavailable"
  | rejected => "Rejected"
  | conflict => "Conflict"
  | notFound => "NotFound"

def CascadeFault.title : CascadeFault → String
  | integrity => "Integrity"
  | unsupported => "Unsupported"

namespace ErrorKind

/-- The group of the kind, and what is wrong in particular. -/
def titles : ErrorKind → String × Option String
  | query fault => ("Query", some fault.title)
  | store fault => ("Store", some fault.title)
  | cascade fault => ("Cascade", some fault.title)
  | configuration => ("Configuration", none)
  | internal => ("Internal", none)

def text (k : ErrorKind) : String :=
  match k.titles with
  | (group, some fault) => group ++ "(" ++ fault ++ ")"
  | (group, none) => group

end ErrorKind

/-- The name of an origin in a public error. -/
def Failure.Origin.title : Failure.Origin → String
  | .key => "Key"
  | .store => "Store"
  | .query => "Query"
  | .cursor => "Cursor"
  | .registry => "Registry"
  | .write => "Write"
  | .cascade => "Cascade"
  | .model => "Model"
  | .config => "Config"

/-- An error of the engine. -/
structure PublicError where
  kind : ErrorKind
  origin : Failure.Origin
  message : String
deriving DecidableEq

/-- Whether the caller may try the whole operation again: after a failure of the store. -/
def PublicError.isRetryable (e : PublicError) : Bool :=
  match e.kind with
  | .store _ => true
  | _ => false

/-- The kind of a failure of the store. -/
def StoreError.fault : StoreError → StoreFault
  | timeout _ | unavailable _ => .unavailable
  | rejected _ => .rejected
  | conflict _ => .conflict
  | notFound _ => .notFound

namespace Failure.Report

/-- The failure of the store that a report is about. -/
def storeCause? (r : Report) : Option StoreError :=
  match r.detail with
  | some (.store e) => some e
  | some (.cascade (.store _ _ e)) => some e
  | _ => none

def isNotUnique (r : Report) : Bool :=
  match r.detail with
  | some (.notUnique ..) => true
  | _ => false

/-- The kind of public error that a report becomes. -/
def errorKind (r : Report) : ErrorKind :=
  match r.category with
  | .malformed => .query .invalid
  | .unsupported => if r.cascadeError?.isSome then .cascade .unsupported else .query .unsupported
  | .conflict => if r.isNotUnique then .query .notUnique else .store .conflict
  | .execution => .store ((r.storeCause?.map StoreError.fault).getD .unavailable)
  | .integrity => .cascade .integrity
  | .configuration => .configuration
  | .invariantViolation => .internal
  | .internal => .internal

def publicError (r : Report) : PublicError := ⟨r.errorKind, r.origin, r.message⟩

end Failure.Report

def Failure.publicError (f : Failure) : PublicError := f.report.publicError

end EntityGraph
