import EntityGraph.Config
import EntityGraph.Toml.Reader

/-!
# Reading configurations

A configuration is read from a TOML document with the tables `query` and `cascade`. What is missing
takes its default; what is not known is refused. A table may also be given by the list of its values
in order, and a choice by a table with one empty entry of its name.
-/

namespace EntityGraph

open Toml (Node Table)

namespace Toml.Node

/-- Whether there is nothing in a table or list. -/
def isEmpty : Node → Bool
  | table _ [] => true
  | array [] => true
  | _ => false

/-- The fields of a record by name: the entries of a table, which have to be among them, or the
items of a list. -/
def fields? (names : List String) : Node → Option (List (String × Node))
  | table _ entries => if entries.all (·.1 ∈ names) then some entries else none
  | array items => some (names.zip items)
  | tables items => some (names.zip items)
  | _ => none

/-- A choice among cases by their names. -/
def choice? {α : Type} (names : List (String × α)) : Node → Option α
  | string s => names.lookup s
  | table _ [(name, content)] => if content.isEmpty then names.lookup name else none
  | _ => none

/-- A number of 64 bits without a sign. -/
def count? : Node → Option UInt64
  | integer (some i) => if 0 ≤ i ∧ i < UInt64.size then some (UInt64.ofNat i.toNat) else none
  | _ => none

end Toml.Node

/-- A field of a record, or its default where it is missing. -/
def fieldOr {α : Type} (fields : List (String × Node)) (name : String) (default : α)
    (f : Node → Option α) : Option α :=
  match fields.lookup name with
  | some n => f n
  | none => some default

/-- The preferences by their names. -/
def Preference.names : List (String × Preference) :=
  [("auto", .auto), ("in_memory", .inMemory), ("native", .native)]

/-- The policies for join fields by their names. -/
def JoinPolicy.names : List (String × JoinPolicy) := [("reject", .reject), ("skip", .skip)]

/-- The policies for entity groups by their names. -/
def GroupPolicy.names : List (String × GroupPolicy) := [("reject", .reject), ("warn", .warn)]

def QueryConfig.ofToml? (n : Node) : Option QueryConfig := do
  let fields ← n.fields? ["execution", "cursor_batch_size", "max_in_memory_candidates"]
  let base : QueryConfig := {}
  return {
    preference := ← fieldOr fields "execution" base.preference (Node.choice? Preference.names)
    batchSize := ← fieldOr fields "cursor_batch_size" base.batchSize Node.count?
    candidateCap :=
      ← fieldOr fields "max_in_memory_candidates" base.candidateCap fun n => some <$> n.count? }

def CascadePolicy.ofToml? (n : Node) : Option CascadePolicy := do
  let fields ← n.fields? ["join_relation", "cross_group"]
  let base : CascadePolicy := {}
  return {
    joinFields := ← fieldOr fields "join_relation" base.joinFields (Node.choice? JoinPolicy.names)
    crossGroup := ← fieldOr fields "cross_group" base.crossGroup (Node.choice? GroupPolicy.names) }

def Config.ofToml? (t : Table) : Option Config := do
  let fields ← t.toNode.fields? ["query", "cascade"]
  let base : Config := {}
  return {
    query := ← fieldOr fields "query" base.query QueryConfig.ofToml?
    cascade := ← fieldOr fields "cascade" base.cascade CascadePolicy.ofToml? }

/-- Reads and validates a configuration. -/
def Config.read (text : String) : Except ConfigError Config := do
  let some t := Toml.read text | throw .unreadable
  let some c := Config.ofToml? t | throw .unreadable
  c.validate
  return c

end EntityGraph
