import EntityGraph.Failure

/-!
# Configuration

How queries are executed and what delete cascades may do. A configuration is valid if its batch size
and its cap, where it has one, are not zero.
-/

namespace EntityGraph

/-- How queries are executed. -/
structure QueryConfig where
  /-- The preference of queries without one of their own. -/
  preference : Preference := .auto
  /-- The number of rows fetched at once. -/
  batchSize : UInt64 := 20
  /-- The number of candidates that may be evaluated in memory. -/
  candidateCap : Option UInt64 := none
deriving DecidableEq

/-- What a cascade does where a join field holds a value. -/
inductive JoinPolicy where
  | reject
  | skip
deriving DecidableEq

/-- What a cascade in a transaction does where it leaves the owner's entity group. -/
inductive GroupPolicy where
  | reject
  | warn
deriving DecidableEq

/-- What delete cascades may do. -/
structure CascadePolicy where
  joinFields : JoinPolicy := .reject
  crossGroup : GroupPolicy := .reject
deriving DecidableEq

structure Config where
  query : QueryConfig := {}
  cascade : CascadePolicy := {}
deriving DecidableEq

/-- The first fault of a configuration. -/
def Config.validate (c : Config) : Except ConfigError Unit :=
  if c.query.batchSize = 0 then .error .zeroBatchSize
  else if c.query.candidateCap = some 0 then .error .zeroCandidateCap
  else .ok ()

end EntityGraph
