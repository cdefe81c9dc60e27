import EntityGraph.Cascade
import EntityGraph.Proofs.Store.Reading

/-!
# Staging as a function of the table

Staging a cascade only reads. What it stages is what the same steps stage when they look at a table
instead of the store:

* `Cascade.tableLookup`: looking at a table;
* `Cascade.reads_stageWithin`: staging with the store answers what staging with its table does.
-/

namespace EntityGraph

namespace Cascade

/-- Looking at a table. -/
def tableLookup (t : RowTable) : Lookup (Except Failure) where
  load _ _ keys := .ok (keys.filterMap t.row?)
  scan owner field q :=
    q.check.mapError (storeFailure owner field) >>= fun _ => .ok (q.answer t.rows)

theorem reads_loadRows : ∀ keys : List Key,
    Reads id (loadRows keys) fun t => .ok (keys.filterMap t.row?)
  | [] => Reads.pure []
  | k :: ks => by
    have h := (Store.reads_get k).bind fun row =>
      (reads_loadRows ks).bind fun rows => Reads.pure (row.toList ++ rows)
    have hy : ∀ t : RowTable, (k :: ks).filterMap t.row? =
        (t.row? k).toList ++ ks.filterMap t.row? := by
      intro t
      cases hk : t.row? k <;> simp [hk]
    simp only [ok_bind, ← hy] at h
    exact h

theorem reads_drainRows (snapshot : Snapshot) :
    Reads id (drainRows snapshot) fun _ => .ok snapshot.rows where
  of_ok {s rows s'} h := by
    unfold drainRows at h
    split at h
    · cases h
    · rename_i rows s₁ hd
      obtain ⟨hr, hrows, -⟩ := BatchSource.drain_snapshot (by decide) hd
      cases h
      exact ⟨hr, _, hrows rfl, rfl⟩
  of_error {s e s'} h := by
    unfold drainRows at h
    split at h
    · rename_i rows e s₁ hd
      obtain ⟨hr, -, he⟩ := BatchSource.drain_snapshot (by decide) hd
      cases h
      exact ⟨hr, fun hn => by cases he hn⟩
    · cases h

theorem reads_scanRows (q : Scan) :
    Reads id (scanRows q) fun t => q.check >>= fun _ => .ok (q.answer t.rows) := by
  have h := (Store.reads_scan q).bind fun snapshot => reads_drainRows snapshot
  simp only [bind_assoc, ok_bind] at h
  exact h

variable (schema : Schema) (policy : CascadePolicy)

theorem reads_load (owner : Key) (field : String) (keys : List Key) :
    Reads Context.store (storeLookup.load owner field keys) fun t =>
      (tableLookup t).load owner field keys :=
  (reads_loadRows keys).onStore _

theorem reads_scan (owner : Key) (field : String) (q : Scan) :
    Reads Context.store (storeLookup.scan owner field q) fun t =>
      (tableLookup t).scan owner field q := by
  have h := (reads_scanRows q).onStore (storeFailure owner field)
  simp only [mapError_bind] at h
  exact h

theorem reads_dependents (row : Row) (loaded : LoadedFields) (field target : String) (owned : Bool)
    (mappedBy : Option String) :
    Reads Context.store (dependents storeLookup row loaded field target owned mappedBy) fun t =>
      dependents (tableLookup t) row loaded field target owned mappedBy := by
  unfold dependents
  split
  · exact reads_load ..
  · exact (reads_scan ..).bind fun rows => Reads.pure _
  · exact reads_scan ..
  · exact reads_load ..

theorem reads_stageDependent {visit : Row → Staging → Action Staging}
    {visit' : RowTable → Row → Staging → Except Failure Staging}
    (hv : ∀ row s, Reads Context.store (visit row s) fun t => visit' t row s) (field : String)
    (s : Staging) (child : Row) :
    Reads Context.store (stageDependent visit field s child) fun t =>
      stageDependent (visit' t) field s child := by
  unfold stageDependent
  split
  · exact Reads.pure s
  · exact (hv _ _).bind fun s => Reads.pure _

theorem reads_stageDelete {visit : Row → Staging → Action Staging}
    {visit' : RowTable → Row → Staging → Except Failure Staging}
    (hv : ∀ row s, Reads Context.store (visit row s) fun t => visit' t row s)
    (loaded : LoadedFields) (row : Row) (s : Staging) (strategy : Strategy) :
    Reads Context.store (stageDelete storeLookup visit loaded row s strategy) fun t =>
      stageDelete (tableLookup t) (visit' t) loaded row s strategy := by
  cases strategy with
  | deleteDependents field target owned mappedBy =>
    exact (reads_dependents row loaded field target owned mappedBy).bind fun children =>
      Reads.foldlM (reads_stageDependent hv field) children s
  | nullReference | reserved => exact Reads.pure s

theorem reads_stageNull (row : Row) (s : Staging) (strategy : Strategy) :
    Reads Context.store (stageNull storeLookup schema row s strategy) fun t =>
      stageNull (tableLookup t) schema row s strategy := by
  cases strategy with
  | nullReference field target mappedBy =>
    have h := (Reads.ofExcept (mappedField schema row.kind field target mappedBy)).bind
      fun mapping => (reads_scan row.key field (referrers target mappedBy row.key)).bind
        fun related => Reads.pure <|
          related.foldl (stageReferrer row.key field target mappedBy mapping.nullable) s
    simp only [stageNull, ofExcept_eq]
    exact h
  | deleteDependents | reserved => exact Reads.pure s

theorem reads_stageRelated {visit : Row → Staging → Action Staging}
    {visit' : RowTable → Row → Staging → Except Failure Staging}
    (hv : ∀ row s, Reads Context.store (visit row s) fun t => visit' t row s)
    (loaded : LoadedFields) (row : Row) (s : Staging) :
    Reads Context.store (stageRelated storeLookup schema policy visit loaded row s) fun t =>
      stageRelated (tableLookup t) schema policy (visit' t) loaded row s := by
  have hreserved : ∀ strategies : List Strategy, Reads Context.store
      (strategies.forM fun strategy =>
        MonadExcept.ofExcept (checkReserved policy row strategy.field) : Action Unit) fun _ =>
      strategies.forM fun strategy => checkReserved policy row strategy.field :=
    fun strategies => Reads.forM (fun strategy => Reads.ofExcept _) strategies
  have hdeletes : ∀ (strategies : List Strategy) (s : Staging), Reads Context.store
      (strategies.foldlM (stageDelete storeLookup visit loaded row) s) fun t =>
      strategies.foldlM (stageDelete (tableLookup t) (visit' t) loaded row) s :=
    Reads.foldlM (reads_stageDelete hv loaded row)
  have hnulls : ∀ (strategies : List Strategy) (s : Staging), Reads Context.store
      (strategies.foldlM (stageNull storeLookup schema row) s) fun t =>
      strategies.foldlM (stageNull (tableLookup t) schema row) s :=
    Reads.foldlM (reads_stageNull schema row)
  have h := (Reads.ofExcept (CascadePlan.ofClass schema row.kind)).bind fun plan =>
    (hreserved plan.reserved).bind fun _ =>
    (hdeletes plan.deletes s).bind fun s => hnulls plan.nulls s
  simp only [stageRelated, ofExcept_eq]
  exact h

/-- Staging with the store answers what staging with its table does. -/
theorem reads_stageWithin {bottom : Row → Staging → Action Staging}
    {bottom' : Row → Staging → Except Failure Staging}
    (hb : ∀ row s, Reads Context.store (bottom row s) fun _ => bottom' row s) (depth : Nat) :
    ∀ (loaded : LoadedFields) (row : Row) (s : Staging),
      Reads Context.store (stageWithin storeLookup schema policy bottom depth loaded row s) fun t =>
        stageWithin (tableLookup t) schema policy bottom' depth loaded row s := by
  induction depth with
  | zero => exact fun _ => hb
  | succ depth ih =>
    intro loaded row s
    simp only [stageWithin]
    exact @reads_stageRelated schema policy _
      (fun t => stageWithin (tableLookup t) schema policy bottom' depth .empty) (ih .empty) loaded
      row s

end Cascade
end EntityGraph
