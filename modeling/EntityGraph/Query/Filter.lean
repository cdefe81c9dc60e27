import EntityGraph.Row

/-!
# Filters

The conditions of a query: comparisons of a field with an operand, null tests, ancestor tests and
subquery memberships, joined by and, or and not. A filter says nothing of how it is evaluated.
-/

namespace EntityGraph

/-- What a condition or a sort looks at: a property, the row's key, or a value derived from a
property, which the store cannot look up. -/
inductive Field where
  | property (name : String)
  | key
  | length (name : String)
  | lowercase (name : String)
deriving DecidableEq

namespace Field

/-- The property that is looked at. -/
def property? : Field → Option String
  | property name => some name
  | key => none
  | length name => some name
  | lowercase name => some name

def text : Field → String
  | property name => name
  | key => "__key__"
  | length name => s!"len({name})"
  | lowercase name => s!"lower({name})"

end Field

/-- The right-hand side of a condition: a value, or a parameter that is bound to one. -/
inductive Operand where
  | literal (v : Value)
  | parameter (name : String)

/-- How a field is compared with an operand. -/
inductive Comparator where
  | eq
  | ne
  | lt
  | le
  | gt
  | ge
  | within
  | startsWith
  | contains
deriving DecidableEq

namespace Comparator

/-- Whether the comparator asks for an order. -/
def isRange : Comparator → Bool
  | lt | le | gt | ge => true
  | _ => false

def label : Comparator → String
  | eq => "=="
  | ne => "!="
  | lt => "<"
  | le => "<="
  | gt => ">"
  | ge => ">="
  | within => "in"
  | startsWith => "starts_with"
  | contains => "contains"

end Comparator

/-- A condition on a row. -/
inductive Filter where
  | and (parts : List Filter)
  | or (parts : List Filter)
  | not (part : Filter)
  | compare (field : Field) (op : Comparator) (operand : Operand)
  | isNull (field : Field)
  | isNotNull (field : Field)
  /-- The row's key is the operand or one of its descendants. -/
  | under (ancestor : Operand)
  /-- The field is among the results of a subquery. -/
  | inSubquery (field : Field) (name : String)

namespace Filter

mutual

/-- The name of the first subquery in the filter. -/
def subquery? : Filter → Option String
  | and parts => firstSubquery? parts
  | or parts => firstSubquery? parts
  | not part => part.subquery?
  | inSubquery _ name => some name
  | _ => none

/-- The name of the first subquery in a list of filters. -/
def firstSubquery? : List Filter → Option String
  | [] => none
  | f :: fs => f.subquery? <|> firstSubquery? fs

end
end Filter

/-- The values that stand for the parameters of a query, and the results of its subqueries. -/
structure Bindings where
  values : SortedMap String Value compareText := .empty
  subqueries : SortedMap String (List Value) compareText := .empty

end EntityGraph
