/-!
# TOML documents

The tables and values of a TOML document, and the rules by which its lines build them: every table
and key is defined once, a table written between braces is closed, and dotted keys extend only
tables without a header of their own.
-/

namespace EntityGraph.Toml

/-- How a table came to be. -/
inductive TableForm where
  /-- By a header of its own, or as the document. -/
  | headed
  /-- On the way to the table of a header. -/
  | implied
  /-- On the way to a dotted key. -/
  | dotted
  /-- Between braces. -/
  | braced
deriving DecidableEq

/-- A value. Of numbers with a fraction and of points in time only the text is kept. An integer may
be spelled with characters that are no digits of its base, and then it has no value. -/
inductive Node where
  | string (s : String)
  | integer (value : Option Int)
  | float (text : String)
  | boolean (b : Bool)
  | moment (text : String)
  | array (items : List Node)
  /-- The tables of one repeated header. -/
  | tables (items : List Node)
  | table (form : TableForm) (entries : List (String × Node))

/-- A table without its place in the document. -/
structure Table where
  form : TableForm
  entries : List (String × Node) := []

namespace Table

def toNode (t : Table) : Node := .table t.form t.entries

def get? (t : Table) (name : String) : Option Node := t.entries.lookup name

/-- The table with an entry, in the place of one of the same name. -/
def set (t : Table) (name : String) (n : Node) : Table :=
  if (t.get? name).isSome then
    { t with entries := t.entries.map fun e => if e.1 = name then (name, n) else e }
  else { t with entries := t.entries ++ [(name, n)] }

end Table

/-- The kinds of path to a table. -/
inductive PathKind where
  /-- The path of the last header. -/
  | current
  /-- The path of a new header. -/
  | header
  /-- The path of a dotted key. -/
  | dotted
deriving DecidableEq

namespace PathKind

/-- Whether such a path may lead through a table. -/
def mayEnter : PathKind → TableForm → Bool
  | current, _ => true
  | _, .braced => false
  | header, _ => true
  | dotted, form => form = .implied || form = .dotted

/-- The form of a table that is made on such a path. -/
def newForm : PathKind → TableForm
  | dotted => .dotted
  | _ => .implied

/-- The form of a table that such a path has led through. A dotted key takes over an implied table,
so that no header can define it later. -/
def formAfter : PathKind → TableForm → TableForm
  | dotted, .implied => .dotted
  | _, form => form

end PathKind

/-- Changes the table at the end of a path. A repeated header stands for its last table. -/
def Table.changeAt (kind : PathKind) (change : Table → Option Table) :
    List String → Table → Option Table
  | [], t => change t
  | name :: path, t =>
    match t.get? name with
    | none => do
      let inner ← changeAt kind change path { form := kind.newForm }
      return t.set name inner.toNode
    | some (.table form entries) =>
      if kind.mayEnter form then do
        let inner ← changeAt kind change path { form := kind.formAfter form, entries }
        return t.set name inner.toNode
      else none
    | some (.tables items) =>
      match items.getLast? with
      | some (.table form entries) => do
        let inner ← changeAt kind change path { form, entries }
        return t.set name (.tables (items.dropLast ++ [inner.toNode]))
      | _ => none
    | some _ => none

/-- Adds a key and its value at the end of a dotted path, which does not end in a table with a
header of its own. -/
def Table.addDotted (path : List String) (name : String) (v : Node) (t : Table) : Option Table :=
  t.changeAt .dotted
    (fun inner =>
      if path ≠ [] ∧ inner.form = .headed then none
      else if (inner.get? name).isSome then none
      else some (inner.set name v))
    path

/-- Defines the table of a header. -/
def Table.addHeader (path : List String) (name : String) (t : Table) : Option Table :=
  t.changeAt .header
    (fun inner =>
      match inner.get? name with
      | none => some (inner.set name (.table .headed []))
      | some (.table .implied entries) => some (inner.set name (.table .headed entries))
      | some _ => none)
    path

/-- Adds a table to those of a repeated header. -/
def Table.addRepeated (path : List String) (name : String) (t : Table) : Option Table :=
  t.changeAt .header
    (fun inner =>
      match inner.get? name with
      | none => some (inner.set name (.tables [.table .headed []]))
      | some (.tables items) => some (inner.set name (.tables (items ++ [.table .headed []])))
      | some _ => none)
    path

end EntityGraph.Toml
