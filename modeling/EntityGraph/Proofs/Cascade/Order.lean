import EntityGraph.Proofs.Cascade.Faults

/-!
# The order of the writes of a cascade

Where no row is reached from itself, a cascade deletes every row after all rows that are reached
from it, whichever of the fields and rows that lead to it is followed first. In any case it deletes
the dependents, then puts the rows whose references it has nulled, and deletes the owner last.

* `Cascade.Acyclic`, `Cascade.DeepestFirst`: no row is reached from itself, and a list of rows in
  which each comes after those reached from it;
* `Cascade.Searched.deepestFirst`: what a search finds to delete is listed so;
* `Cascade.written_of_run`: the writes of a cascade, one after the other;
* `Cascade.writes_in_order`: the order of the deletes and of all writes.
-/

open Relation (ReflTransGen TransGen)

namespace EntityGraph

namespace Cascade

section Search

variable (schema : Schema) (t : RowTable) (owner : Row) (loaded : LoadedFields)

/-- Neither the owner nor a row that it reaches is reached from itself. -/
def Acyclic : Prop :=
  ∀ k, ReflTransGen (Depends schema t owner loaded) owner.key k →
    ¬TransGen (Depends schema t owner loaded) k k

/-- Every row of a list comes after all rows that are reached from it. -/
def DeepestFirst (keys : List Key) : Prop :=
  ∀ before k after, keys = before ++ k :: after →
    ∀ b, TransGen (Depends schema t owner loaded) k b → b ∈ before

variable {schema t owner loaded}

/-- A list of rows is deepest first if each comes after its dependents. -/
theorem deepestFirst_of_depends {keys : List Key}
    (h : ∀ before k after, keys = before ++ k :: after →
      ∀ b, Depends schema t owner loaded k b → b ∈ before) :
    DeepestFirst schema t owner loaded keys := by
  intro before k after hkeys b hb
  induction hb with
  | single hb => exact h before k after hkeys _ hb
  | @tail b c _ hc ih =>
    obtain ⟨front, back, rfl⟩ := List.append_of_mem ih
    have hc : c ∈ front := h front b (back ++ k :: after) (by rw [hkeys]; simp) c hc
    exact List.mem_append_left _ hc

variable {s : Staging} {new : List Key}

/-- A search finds the rows to delete deepest first. -/
theorem Searched.deepestFirst (h : Searched schema t owner loaded s new)
    (hacyclic : Acyclic schema t owner loaded) : DeepestFirst schema t owner loaded new := by
  refine deepestFirst_of_depends fun before k after hnew b hb => ?_
  have hreach : TransGen (Depends schema t owner loaded) owner.key k :=
    h.explores.reach k (by simp [hnew])
  -- A dependent that the search was not done with is on the way to the row, which closes a cycle.
  obtain hd | hbefore | hback := h.explores.order before k after hnew b hb
  · rw [List.mem_singleton.1 hd] at hb
    exact absurd (hreach.tail hb) (hacyclic owner.key .refl)
  · exact hbefore
  · exact absurd (.head' hb hback) (hacyclic k hreach.to_reflTransGen)

/-- The owner comes after all that a search finds. -/
theorem Searched.deepestFirst_owner (h : Searched schema t owner loaded s new)
    (hacyclic : Acyclic schema t owner loaded) :
    DeepestFirst schema t owner loaded (new ++ [owner.key]) := by
  intro before k after hkeys b hb
  obtain ⟨rest, hnew⟩ | ⟨rest, rfl, hlast⟩ := append_eq_append_cons hkeys
  · exact h.deepestFirst hacyclic before k rest hnew b hb
  · obtain ⟨rfl, rfl, -⟩ : rest = [] ∧ k = owner.key ∧ after = [] := by
      simpa [List.singleton_eq_append_iff] using hlast
    obtain rfl | hnew := h.mem_doomed.1 (h.mem_doomed_iff.2 hb.to_reflTransGen)
    · exact absurd hb (hacyclic owner.key .refl)
    · exact List.mem_append_left _ hnew

end Search

section Run

variable {schema : Schema} {policy : CascadePolicy} {loaded : LoadedFields} {owner : Row}
  {deleteOwner : Bool} {ctx ctx' : Context} {report : CascadeReport}
  (h : run schema policy loaded owner deleteOwner ctx = .ok report ctx')
include h

/-- All that the owner reaches is deleted, deepest first. -/
theorem deepestFirst_of_run (hacyclic : Acyclic schema ctx.store.table owner loaded) :
    DeepestFirst schema ctx.store.table owner loaded report.deleted ∧
      ∀ b, TransGen (Depends schema ctx.store.table owner loaded) owner.key b →
        b ∈ report.deleted := by
  obtain ⟨s, new, hx, -⟩ := explored_of_run h
  have howner := hx.searched.deepestFirst_owner hacyclic
  rw [hx.deleted]
  refine ⟨?_, fun b hb => List.mem_append_left _ (howner new owner.key [] rfl b hb)⟩
  cases deleteOwner with
  | false => simpa using hx.searched.deepestFirst hacyclic
  | true => exact howner

/-- The writes of a cascade, one after the other. -/
theorem written_of_run : ∃ dependents : List Key,
    report.deleted = dependents ++ (if deleteOwner then [owner.key] else []) ∧
    written (run schema policy loaded owner deleteOwner) ctx =
      dependents.map .delete ++ report.nulled.map .put ++
        if deleteOwner then [.delete owner.key] else [] := by
  obtain ⟨kinds, dependents, hdeleted, -, hlog⟩ := log_of_run h
  refine ⟨dependents, hdeleted, ?_⟩
  have hscans : (kinds.map StoreEntry.scan).filter (·.isWrite) = [] := by
    simp [StoreEntry.isWrite]
  have hwrites : ∀ entries : List StoreEntry, (∀ e ∈ entries, e.isWrite) →
      entries.filter (·.isWrite) = entries := fun entries => List.filter_eq_self.2
  rw [written_of_log (by rw [h]; exact hlog), writes, List.filter_append, hscans, List.nil_append]
  refine hwrites _ fun e he => ?_
  cases deleteOwner <;> grind [StoreEntry.isWrite]

end Run

/-- Where no row is reached from itself, a cascade that succeeds deletes all that the owner reaches,
every row after all rows that are reached from it. In any case, its writes are the deletes of the
dependents, then the puts of the rows with references nulled, and then, if the owner is to go, the
delete of the owner. -/
theorem writes_in_order (schema : Schema) (policy : CascadePolicy) (loaded : LoadedFields)
    (owner : Row) (ctx : Context) (report : CascadeReport) (ctx' : Context) :
    (execute schema policy loaded owner ctx = .ok report ctx' →
      (Acyclic schema ctx.store.table owner loaded →
        DeepestFirst schema ctx.store.table owner loaded report.deleted ∧
          ∀ b, TransGen (Depends schema ctx.store.table owner loaded) owner.key b →
            b ∈ report.deleted) ∧
      written (execute schema policy loaded owner) ctx =
        report.deleted.map .delete ++ report.nulled.map .put) ∧
    (delete schema policy loaded owner ctx = .ok report ctx' →
      (Acyclic schema ctx.store.table owner loaded →
        DeepestFirst schema ctx.store.table owner loaded report.deleted ∧
          ∀ b, TransGen (Depends schema ctx.store.table owner loaded) owner.key b →
            b ∈ report.deleted) ∧
      ∃ dependents, report.deleted = dependents ++ [owner.key] ∧
        written (delete schema policy loaded owner) ctx =
          dependents.map .delete ++ report.nulled.map .put ++ [.delete owner.key]) := by
  refine ⟨fun h => ⟨deepestFirst_of_run h, ?_⟩, fun h => ⟨deepestFirst_of_run h, ?_⟩⟩
  · obtain ⟨dependents, hdeleted, hwritten⟩ := written_of_run h
    have hdeleted : report.deleted = dependents := by simpa using hdeleted
    rw [hdeleted]
    exact hwritten.trans (List.append_nil _)
  · exact written_of_run h

/-- A node that refers to several dependent nodes. -/
def sampleParent (n : UInt64) (next : List UInt64) : Row where
  key := (sampleNode n 0).key
  properties := SortedMap.empty.insert "next"
    (.list (next.map fun m => .key (sampleNode m 0).key))

/-- Three nodes of which the first refers to both others and the second to the third, which has a
mark on it. -/
def sampleShared : Context where
  scope := .start ⟨1⟩ false
  store := ((((({} : Store).seed (sampleParent 1 [2, 3])).2.seed (sampleParent 2 [3])).2.seed
    (sampleParent 3 [])).2.seed (sampleMark 4 3)).2
  held := {}

theorem rows_sampleShared : sampleShared.store.table.rows =
    [sampleMark 4 3, sampleParent 1 [2, 3], sampleParent 2 [3], sampleParent 3 []] := rfl

/-- The place of a node among the three. -/
def samplePlace (k : Key) : Nat :=
  [(sampleNode 1 0).key, (sampleNode 2 0).key, (sampleNode 3 0).key].idxOf k

/-- A node refers to nodes that come after it. -/
theorem acyclic_sampleShared : Acyclic sampleMarkedSchema sampleShared.store.table
    (sampleParent 1 [2, 3]) .empty := by
  have hnext : ∀ row ∈ sampleShared.store.table.rows,
      ∀ k ∈ ((row.get? "next").map Value.referencedKeys).getD [],
        samplePlace row.key < samplePlace k := by
    decide +kernel
  have hstrategies : ∀ row ∈ sampleShared.store.table.rows,
      ∀ plan ∈ (CascadePlan.ofClass sampleMarkedSchema row.kind).toOption,
        ∀ strategy ∈ plan.deletes, strategy = .deleteDependents "next" "N" false none := by
    decide +kernel
  have hlt : ∀ a b, Depends sampleMarkedSchema sampleShared.store.table (sampleParent 1 [2, 3])
      .empty a b → samplePlace a < samplePlace b := by
    rintro a b ⟨row, fields, child, hvis, rfl, ⟨plan, hplan, strategy, hst, hres⟩, rfl⟩
    obtain ⟨rfl, hrow⟩ : fields = .empty ∧ row ∈ sampleShared.store.table.rows := by
      cases hvis with
      | owner => exact ⟨rfl, by simp [rows_sampleShared]⟩
      | stored hr _ => exact ⟨rfl, RowTable.mem_rows.2 hr⟩
    have hstrategy : strategy = .deleteDependents "next" "N" false none := by
      refine hstrategies row hrow plan ?_ strategy (List.mem_filter.2 ⟨hst, hres.isDelete⟩)
      rw [hplan]
      rfl
    subst hstrategy
    cases hres with
    | loaded hl => cases hl
    | referenced _ hv hk hr =>
      rw [RowTable.key_of_row? hr]
      exact hnext row hrow _ (by simpa [hv] using hk)
  have hle : ∀ a b, TransGen (Depends sampleMarkedSchema sampleShared.store.table
      (sampleParent 1 [2, 3]) .empty) a b → samplePlace a < samplePlace b := by
    intro a b h
    induction h with
    | single h => exact hlt _ _ h
    | tail _ h ih => exact ih.trans (hlt _ _ h)
  exact fun k _ h => Nat.lt_irrefl _ (hle k k h)

theorem writes_in_order_sample :
    Acyclic sampleMarkedSchema sampleShared.store.table (sampleParent 1 [2, 3]) .empty ∧
    ∃ report ctx', delete sampleMarkedSchema {} .empty (sampleParent 1 [2, 3]) sampleShared =
      .ok report ctx' ∧
      report = ⟨[(sampleNode 3 0).key, (sampleNode 2 0).key, (sampleNode 1 0).key],
        [(sampleMark 4 3).key]⟩ ∧
      DeepestFirst sampleMarkedSchema sampleShared.store.table (sampleParent 1 [2, 3]) .empty
        report.deleted ∧
      written (delete sampleMarkedSchema {} .empty (sampleParent 1 [2, 3])) sampleShared =
        [.delete (sampleNode 3 0).key, .delete (sampleNode 2 0).key, .put (sampleMark 4 3).key,
          .delete (sampleNode 1 0).key] := by
  obtain ⟨ctx', hrun⟩ : ∃ ctx', delete sampleMarkedSchema {} .empty (sampleParent 1 [2, 3])
      sampleShared = .ok ⟨[(sampleNode 3 0).key, (sampleNode 2 0).key, (sampleNode 1 0).key],
        [(sampleMark 4 3).key]⟩ ctx' := exists_eq_ok (by decide +kernel)
  obtain ⟨-, hdelete⟩ := writes_in_order sampleMarkedSchema {} .empty (sampleParent 1 [2, 3])
    sampleShared ⟨[(sampleNode 3 0).key, (sampleNode 2 0).key, (sampleNode 1 0).key],
        [(sampleMark 4 3).key]⟩ ctx'
  obtain ⟨hfirst, dependents, hdeleted, hwritten⟩ := hdelete hrun
  refine ⟨acyclic_sampleShared, _, ctx', hrun, rfl, (hfirst acyclic_sampleShared).1, ?_⟩
  have hdependents : dependents = [(sampleNode 3 0).key, (sampleNode 2 0).key] :=
    (List.append_inj_left' hdeleted rfl).symm
  rw [hwritten, hdependents]
  rfl

end Cascade
end EntityGraph
