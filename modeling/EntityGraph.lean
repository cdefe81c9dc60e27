import EntityGraph.Config.Reader
import EntityGraph.Engine
import EntityGraph.Json.PublicError
import EntityGraph.Json.Scan
import EntityGraph.Json.Text
import EntityGraph.Key.Encoding
import EntityGraph.Session
import EntityGraph.Proofs.Query.Pushdown
import EntityGraph.Proofs.Store.Reading
import EntityGraph.Proofs.Query.Execution
import EntityGraph.Proofs.Query.Paths
import EntityGraph.Proofs.Cascade.Lookup
import EntityGraph.Proofs.Cascade.Exploration
import EntityGraph.Proofs.Cascade.Closure
import EntityGraph.Proofs.Cascade.Effect
import EntityGraph.Proofs.ObjectGraph.Steps
import EntityGraph.Proofs.ObjectGraph.Writing
import EntityGraph.Proofs.ObjectGraph.Atomicity
import EntityGraph.Proofs.Key.Encoding
import EntityGraph.Proofs.Store.Numbering
import EntityGraph.Proofs.ObjectGraph.WrittenGraph
import EntityGraph.Proofs.ObjectGraph.Effect
import EntityGraph.Proofs.ObjectGraph.References
import EntityGraph.Proofs.ObjectGraph.Insertion
import EntityGraph.Proofs.Value.Rounding
import EntityGraph.Proofs.Value.Order
import EntityGraph.Proofs.Store.Faults
import EntityGraph.Proofs.Store.Schedule
import EntityGraph.Proofs.Cascade.Faults
import EntityGraph.Proofs.Cascade.Composite
import EntityGraph.Proofs.Cascade.Verdict
import EntityGraph.Proofs.Cascade.Steps
import EntityGraph.Proofs.Cascade.Integrity
import EntityGraph.Proofs.Cascade.Policy
import EntityGraph.Proofs.ObjectGraph.Removal
import EntityGraph.Proofs.Cursor.Answers
import EntityGraph.Proofs.Cursor.Interleaving
import EntityGraph.Proofs.Cursor.Stream
import EntityGraph.Proofs.Query.BatchSize
import EntityGraph.Proofs.Query.Malformed
import EntityGraph.Proofs.Query.Runnable
import EntityGraph.Proofs.Engine.StoreErrors
import EntityGraph.Proofs.Query.Meaning
import EntityGraph.Proofs.Query.Refinement
import EntityGraph.Proofs.StableSort
import EntityGraph.Proofs.Cascade.Order
import EntityGraph.Proofs.Cascade.Repetition
import EntityGraph.Proofs.Query.Sorting
import EntityGraph.Proofs.Query.Materialized
import EntityGraph.Proofs.Query.Equivalence
import EntityGraph.Proofs.Query.Substitution
import EntityGraph.Proofs.Query.Expansion
import EntityGraph.Proofs.Query.Rearrangement
import EntityGraph.Proofs.Query.Uniqueness
import EntityGraph.Proofs.Query.Paging
import EntityGraph.Proofs.Query.Following
import EntityGraph.Proofs.Cascade.Redeclaration
import EntityGraph.Proofs.ObjectGraph.Ownership
import EntityGraph.Proofs.Schema.Lineage
import EntityGraph.Proofs.Key.Subtree
import EntityGraph.Proofs.Key.Paths
import EntityGraph.Proofs.Key.Validity
import EntityGraph.Proofs.Json.Forms
import EntityGraph.Proofs.Json.Values
import EntityGraph.Proofs.Json.Scans
import EntityGraph.Proofs.Value.Agreement
import EntityGraph.Proofs.Metrics
import EntityGraph.Proofs.ObjectGraph.Registry
import EntityGraph.Proofs.Session.Registries
import EntityGraph.Proofs.Engine.Reports
