import EntityGraph.Proofs.Cascade.Steps

/-!
# Cascade policies

A policy does not change what a cascade does, it forbids some cascades: those that leave behind what
a join field of a deleted row holds, and those in a transaction that write outside the owner's
entity group. The first are found in the middle of the search and the second in what it has staged,
but both can be told from the report of the cascade under the policy that forbids nothing.

* `Cascade.lenient`, `Cascade.Forbids`: the policy that forbids nothing, and what another forbids;
* `Cascade.Guards`: a part of a search under a policy against the same part under the lenient one;
* `Cascade.search_iff_lenient`, `Cascade.checkStaging_eq_ok`: what a policy says of a search and of
  what it has staged;
* `Cascade.only_forbids`: how a cascade under a policy compares to the lenient one.
-/

namespace EntityGraph

namespace Cascade

/-- The policy that forbids nothing. -/
def lenient : CascadePolicy := { joinFields := .skip, crossGroup := .warn }

/-- A property of a row is a key, or a list with a key among its items. -/
def HoldsKey (row : Row) (field : String) : Prop :=
  (∃ k, row.get? field = some (.key k)) ∨ ∃ items k, row.get? field = some (.list items) ∧
    .key k ∈ items

/-- A join field of the class of a row holds a key. -/
def HoldsJoin (schema : Schema) (row : Row) : Prop :=
  ∃ field target, HasStrategy schema row.kind (.reserved field target) ∧ HoldsKey row field

/-- A policy forbids a cascade with a report: it rejects join fields that hold keys, and the owner
or a stored row that is deleted has one, or it rejects writes outside the owner's entity group, and
there is one in a transaction. -/
def Forbids (schema : Schema) (policy : CascadePolicy) (owner : Row) (ctx : Context)
    (report : CascadeReport) : Prop :=
  (policy.joinFields = .reject ∧ ∃ row, (row = owner ∨
      row ∈ ctx.store.rows ∧ row.key ≠ owner.key ∧ row.key ∈ report.deleted) ∧
    HoldsJoin schema row) ∨
  (policy.crossGroup = .reject ∧ ctx.scope.transactional = true ∧
    ∃ k ∈ report.deleted ++ report.nulled, ¬k.sameGroup owner.key)

/-! ## Join fields -/

theorem referencedKeys_ne_nil {row : Row} {field : String} :
    ((row.get? field).map Value.referencedKeys).getD [] ≠ [] ↔ HoldsKey row field := by
  unfold HoldsKey
  cases row.get? field with
  | none => simp
  | some v => cases v with
    | key k => simp [Value.referencedKeys]
    | list items =>
      simp only [Option.map_some, Option.getD_some, Value.referencedKeys, ne_eq,
        List.filterMap_eq_nil_iff, not_forall]
      constructor
      · rintro ⟨v, hv, hk⟩
        cases v with
        | key k => exact .inr ⟨items, k, rfl, hv⟩
        | _ => exact absurd rfl hk
      · rintro (⟨k, hk⟩ | ⟨items', k, hi, hk⟩)
        · cases hk
        · cases hi
          exact ⟨_, hk, by simp [Value.key?]⟩
    | _ => simp [Value.referencedKeys]

/-- A policy lets a row go. -/
def Clears (schema : Schema) (policy : CascadePolicy) (row : Row) : Prop :=
  policy.joinFields = .reject → ¬HoldsJoin schema row

theorem checkReserved_eq_ok {policy : CascadePolicy} {row : Row} {field : String} :
    checkReserved policy row field = .ok () ↔
      (policy.joinFields = .reject → ¬HoldsKey row field) := by
  rw [← referencedKeys_ne_nil, checkReserved]
  split
  · simp [*]
  · cases policy.joinFields <;> simp [*]

theorem clears_iff {schema : Schema} {policy : CascadePolicy} {row : Row} {plan : CascadePlan}
    (hplan : CascadePlan.ofClass schema row.kind = .ok plan) :
    plan.reserved.forM (fun strategy => checkReserved policy row strategy.field) = .ok () ↔
      Clears schema policy row := by
  simp only [forM_eq_ok, checkReserved_eq_ok]
  constructor
  · rintro h hreject ⟨field, target, ⟨plan', hplan', hst⟩, hholds⟩
    cases hplan.symm.trans hplan'
    exact h _ (List.mem_filter.2 ⟨hst, rfl⟩) hreject hholds
  · intro h strategy hst hreject hholds
    obtain ⟨hst, hreserved⟩ := List.mem_filter.1 hst
    cases strategy with
    | reserved field target => exact h hreject ⟨field, target, ⟨plan, hplan, hst⟩, hholds⟩
    | deleteDependents | nullReference => cases hreserved

/-! ## Searches under a policy -/

/-- The stored rows that are doomed since `s` are clear. -/
def ClearSince (t : RowTable) (clear : Row → Prop) (s s' : Staging) : Prop :=
  ∀ r ∈ t.rows, r.key ∈ s'.doomed → r.key ∉ s.doomed → clear r

theorem clearSince_trans_iff {t : RowTable} {clear : Row → Prop} {s s₁ s₂ : Staging}
    (h : ∀ k ∈ s.doomed, k ∈ s₁.doomed) (h' : ∀ k ∈ s₁.doomed, k ∈ s₂.doomed) :
    ClearSince t clear s s₂ ↔ ClearSince t clear s s₁ ∧ ClearSince t clear s₁ s₂ := by
  constructor
  · intro hc
    exact ⟨fun r hr hd => hc r hr (h' _ hd), fun r hr hd hn => hc r hr hd fun hs => hn (h _ hs)⟩
  · rintro ⟨hc₁, hc₂⟩ r hr hd hn
    by_cases hd₁ : r.key ∈ s₁.doomed
    · exact hc₁ r hr hd₁ hn
    · exact hc₂ r hr hd hd₁

/-- A part of a search from `s` succeeds as the part `y` does, provided that `P` holds and that the
rows doomed meanwhile are clear. -/
structure Guards (t : RowTable) (clear : Row → Prop) (P : Prop) (s : Staging)
    (x y : Except Failure Staging) : Prop where
  ok_iff : ∀ {s'}, x = .ok s' ↔ y = .ok s' ∧ P ∧ ClearSince t clear s s'
  doomed : ∀ {s'}, y = .ok s' → ∀ k ∈ s.doomed, k ∈ s'.doomed

section Parts

variable {schema : Schema} {policy : CascadePolicy} {t : RowTable} {clear : Row → Prop} {P : Prop}
  {s : Staging}

namespace Guards

/-- A part that dooms nothing and that no policy forbids. -/
theorem of_doomed_eq {x : Except Failure Staging} (h : ∀ s', x = .ok s' → s'.doomed = s.doomed) :
    Guards t clear True s x x where
  ok_iff := by
    intro s'
    refine ⟨fun hx => ⟨hx, trivial, fun r _ hd hn => ?_⟩, And.left⟩
    exact absurd (h s' hx ▸ hd) hn
  doomed hx k hk := by
    rw [h _ hx]
    exact hk

theorem refl (s : Staging) : Guards t clear True s (.ok s) (.ok s) :=
  .of_doomed_eq fun s' h => by
    cases h
    rfl

theorem error (e : Failure) : Guards t clear P s (.error e) (.error e) :=
  ⟨by simp, fun h => by cases h⟩

theorem bind {x y : Except Failure Staging} {f g : Staging → Except Failure Staging}
    (h : Guards t clear P s x y) (hf : ∀ s', y = .ok s' → Guards t clear True s' (f s') (g s')) :
    Guards t clear P s (x >>= f) (y >>= g) := by
  cases hy : y with
  | error e =>
    rw [error_bind]
    refine ⟨?_, fun h => by cases h⟩
    intro s''
    refine ⟨fun hx => ?_, fun h => by cases h.1⟩
    obtain ⟨s', hx, -⟩ := bind_eq_ok.1 hx
    cases hy.symm.trans (h.ok_iff.1 hx).1
  | ok s₁ =>
    rw [ok_bind]
    have hf := hf s₁ hy
    refine ⟨?_, fun hg k hk => hf.doomed hg k (h.doomed hy k hk)⟩
    intro s''
    constructor
    · intro hx
      obtain ⟨s', hx, hfx⟩ := bind_eq_ok.1 hx
      obtain ⟨hy', hP, hc⟩ := h.ok_iff.1 hx
      cases hy.symm.trans hy'
      obtain ⟨hg, -, hc'⟩ := hf.ok_iff.1 hfx
      exact ⟨hg, hP, (clearSince_trans_iff (h.doomed hy) (hf.doomed hg)).2 ⟨hc, hc'⟩⟩
    · rintro ⟨hg, hP, hc⟩
      obtain ⟨hc, hc'⟩ := (clearSince_trans_iff (h.doomed hy) (hf.doomed hg)).1 hc
      rw [h.ok_iff.2 ⟨hy, hP, hc⟩]
      exact hf.ok_iff.2 ⟨hg, trivial, hc'⟩

/-- A part after a check, which the policy may forbid to pass. -/
theorem check {c c' : Except Failure Unit} {x y : Except Failure Staging} (hc' : c' = .ok ())
    (hc : c = .ok () ↔ P) (h : Guards t clear True s x y) :
    Guards t clear P s (c >>= fun _ => x) (c' >>= fun _ => y) := by
  rw [hc', ok_bind]
  refine ⟨?_, h.doomed⟩
  intro s'
  rw [bind_eq_ok]
  constructor
  · rintro ⟨⟨⟩, hok, hx⟩
    obtain ⟨hy, -, hcl⟩ := h.ok_iff.1 hx
    exact ⟨hy, hc.1 hok, hcl⟩
  · rintro ⟨hy, hP, hcl⟩
    exact ⟨(), hc.2 hP, h.ok_iff.2 ⟨hy, trivial, hcl⟩⟩

theorem foldlM {α : Type} {f g : Staging → α → Except Failure Staging} :
    ∀ {as : List α} {s : Staging}, (∀ a ∈ as, ∀ s, Guards t clear True s (f s a) (g s a)) →
      Guards t clear True s (as.foldlM f s) (as.foldlM g s)
  | [], s, _ => .refl s
  | a :: as, s, h => by
    rw [List.foldlM_cons, List.foldlM_cons]
    exact (h a List.mem_cons_self s).bind fun s' _ =>
      foldlM fun b hb => h b (List.mem_cons_of_mem _ hb)

/-- Dooming a stored row first, which has to be clear itself. -/
theorem doom {child : Row} {x y : Except Failure Staging} (hc : child ∈ t.rows)
    (hn : child.key ∉ s.doomed)
    (h : Guards t clear (clear child) { s with doomed := child.key :: s.doomed } x y) :
    Guards t clear True s x y := by
  refine ⟨?_, fun hy k hk => h.doomed hy k (List.mem_cons_of_mem _ hk)⟩
  intro s'
  rw [h.ok_iff]
  constructor
  · rintro ⟨hy, hclear, hcl⟩
    refine ⟨hy, trivial, fun r hr hd hr' => ?_⟩
    by_cases he : r.key = child.key
    · -- A stored row under the key of the child is the child.
      have hrow : some r = some child := by
        rw [← RowTable.mem_rows.1 hr, he, RowTable.mem_rows.1 hc]
      cases hrow
      exact hclear
    · refine hcl r hr hd fun hm => ?_
      rcases List.mem_cons.1 hm with hm | hm
      · exact he hm
      · exact hr' hm
  · rintro ⟨hy, -, hcl⟩
    refine ⟨hy, hcl child hc (h.doomed hy _ List.mem_cons_self) hn, fun r hr hd hr' => ?_⟩
    exact hcl r hr hd fun hm => hr' (List.mem_cons_of_mem _ hm)

end Guards

variable {look : Lookup (Except Failure)} (hlook : Finds t look)

theorem guards_stageDependent {visit visit' : Row → Staging → Except Failure Staging}
    (hvisit : ∀ row s, Guards t clear (clear row) s (visit row s) (visit' row s)) {child : Row}
    (hc : child ∈ t.rows) (field : String) (s : Staging) :
    Guards t clear True s (stageDependent visit field s child)
      (stageDependent visit' field s child) := by
  unfold stageDependent
  split
  · exact .refl s
  · refine (Guards.doom hc ‹_› (hvisit child _)).bind fun s' _ => .of_doomed_eq fun s'' h => ?_
    cases h
    rfl

theorem guards_stageNull (row : Row) (strategy : Strategy) (s : Staging) :
    Guards t clear True s (stageNull look schema row s strategy)
      (stageNull look schema row s strategy) := by
  cases strategy with
  | nullReference field target mappedBy =>
    refine .of_doomed_eq fun s' h => ?_
    obtain ⟨mapping, -, h⟩ := bind_eq_ok.1 h
    obtain ⟨related, -, h⟩ := bind_eq_ok.1 h
    cases h
    exact doomed_foldl_stageReferrer
  | deleteDependents | reserved => exact .refl s

include hlook

theorem guards_stageDelete {visit visit' : Row → Staging → Except Failure Staging}
    (hvisit : ∀ row s, Guards t clear (clear row) s (visit row s) (visit' row s))
    (fields : LoadedFields) (row : Row) (strategy : Strategy) (s : Staging) :
    Guards t clear True s (stageDelete look visit fields row s strategy)
      (stageDelete look visit' fields row s strategy) := by
  cases strategy with
  | deleteDependents field target owned mappedBy =>
    obtain ⟨children, hdep, hmem⟩ := dependents_eq hlook row fields field target owned mappedBy
    simp only [stageDelete, hdep, ok_bind]
    refine .foldlM fun child hc s => ?_
    exact guards_stageDependent hvisit ((hmem child).1 hc).mem_rows field s
  | nullReference | reserved => exact .refl s

theorem guards_stageRelated {visit visit' : Row → Staging → Except Failure Staging}
    (hvisit : ∀ row s, Guards t (Clears schema policy) (Clears schema policy row) s (visit row s)
      (visit' row s)) (fields : LoadedFields) (row : Row) (s : Staging) :
    Guards t (Clears schema policy) (Clears schema policy row) s
      (stageRelated look schema policy visit fields row s)
      (stageRelated look schema lenient visit' fields row s) := by
  simp only [stageRelated, ofExcept_eq]
  cases hplan : CascadePlan.ofClass schema row.kind with
  | error e => exact .error e
  | ok plan =>
    have hlenient : Clears schema lenient row := fun h => by cases h
    refine .check ((clears_iff hplan).2 hlenient) (clears_iff hplan) ?_
    refine Guards.bind (.foldlM fun strategy _ s => ?_) fun s' _ => .foldlM fun strategy _ s => ?_
    · exact guards_stageDelete hlook hvisit fields row strategy s
    · exact guards_stageNull row strategy s

/-- A search under a policy finds what the lenient one does, unless it meets a row that the policy
does not let go. -/
theorem guards_stageWithin (e : Failure) : ∀ (depth : Nat) (fields : LoadedFields) (row : Row)
    (s : Staging), Guards t (Clears schema policy) (Clears schema policy row) s
      (stageWithin look schema policy (fun _ _ => throw e) depth fields row s)
      (stageWithin look schema lenient (fun _ _ => throw e) depth fields row s)
  | 0, _ => fun _ _ => .error e
  | depth + 1, fields => guards_stageRelated hlook (guards_stageWithin e depth .empty) fields

theorem search_iff_lenient {depth : Nat} {loaded : LoadedFields} {owner : Row} :
    search look schema policy depth loaded owner = .ok s ↔
      search look schema lenient depth loaded owner = .ok s ∧ Clears schema policy owner ∧
        ∀ r ∈ t.rows, r.key ∈ s.doomed → r.key ≠ owner.key → Clears schema policy r := by
  have hguards : Guards t (Clears schema policy) (Clears schema policy owner)
      { doomed := [owner.key] } (search look schema policy depth loaded owner)
      (search look schema lenient depth loaded owner) :=
    guards_stageWithin hlook .emptyKind depth loaded owner { doomed := [owner.key] }
  rw [hguards.ok_iff]
  simp only [ClearSince, List.mem_singleton, ne_eq]

end Parts

/-! ## Entity groups -/

/-- A staging passes its checks if it breaks no required reference and the policy lets it leave the
entity group, where it does so in a transaction. -/
theorem checkStaging_eq_ok {policy : CascadePolicy} {scope : Scope} {owner : Key} {s : Staging} :
    checkStaging policy scope owner s = .ok () ↔ s.brokenReference? = none ∧
      (policy.crossGroup = .reject → scope.transactional = true →
        ∀ k ∈ s.deletes.map (·.key) ++ s.nulls.map (·.row.key), k.sameGroup owner) := by
  have hinside : s.outsider? owner = none ↔
      ∀ k ∈ s.deletes.map (·.key) ++ s.nulls.map (·.row.key), k.sameGroup owner := by
    simp only [Staging.outsider?, List.find?_eq_none, Bool.not_eq_true', Bool.not_eq_false]
  unfold checkStaging
  cases s.brokenReference? with
  | some q => simp
  | none =>
    simp only [checkGroup, ← hinside, true_and]
    cases scope.transactional <;> cases s.outsider? owner <;> cases policy.crossGroup <;> simp

/-! ## Whole cascades -/

section Run

variable {schema : Schema} {policy : CascadePolicy} {loaded : LoadedFields} {owner : Row}
  {ctx ctx' : Context} {report : CascadeReport} {s : Staging} {new : List Key} {deleteOwner : Bool}

/-- What is staged leaves the owner's entity group if what is reported does. The nulls that are
dropped in the end are those of rows that are deleted. -/
theorem Explored.sameGroup_iff
    (hx : Explored schema owner loaded ctx ctx' report s new deleteOwner) :
    (∀ k ∈ s.deletes.map (·.key) ++ s.nulls.map (·.row.key), k.sameGroup owner.key) ↔
      ∀ k ∈ report.deleted ++ report.nulled, k.sameGroup owner.key := by
  have hself : owner.key.sameGroup owner.key := by simp [Key.sameGroup]
  have hdeletes : s.deletes.map (·.key) = new := by
    simpa using hx.explores.deletes
  obtain ⟨-, happlied⟩ := hx.sound_applied
  simp only [List.forall_mem_append, hdeletes]
  constructor
  · rintro ⟨hnew, hnulls⟩
    refine ⟨fun k hk => ?_, fun k hk => ?_⟩
    · by_cases he : k = owner.key
      · exact he ▸ hself
      · exact hnew k ((hx.mem_deleted he).1 hk)
    · obtain ⟨n, hn, -, rfl⟩ := happlied.mem_nulled.1 hk
      exact hnulls _ (List.mem_map_of_mem hn)
  · rintro ⟨hdeleted, hnulled⟩
    -- A staged null of a row that is doomed is not reported, but the row's delete is.
    have hdoomed : ∀ k ∈ s.doomed, k.sameGroup owner.key := fun k hk => by
      rcases hx.mem_doomed_iff.1 hk with rfl | hk
      · exact hself
      · exact hdeleted k hk
    refine ⟨fun k hk => hdoomed k (hx.mem_doomed.2 (.inr hk)), fun k hk => ?_⟩
    obtain ⟨n, hn, rfl⟩ := List.mem_map.1 hk
    by_cases hd : n.row.key ∈ s.doomed
    · exact hdoomed _ hd
    · exact hnulled _ (happlied.mem_nulled.2 ⟨n, hn, hd, rfl⟩)

/-- The verdict under a policy is the lenient one, unless the policy forbids the cascade. -/
theorem Explored.verdict_iff
    (hx : Explored schema owner loaded ctx ctx' report s new deleteOwner) {depth : Nat} :
    verdict schema policy ctx.scope depth loaded owner ctx.store.table = .ok s ↔
      verdict schema lenient ctx.scope depth loaded owner ctx.store.table = .ok s ∧
        ¬Forbids schema policy owner ctx report := by
  have hjoin : (Clears schema policy owner ∧
      ∀ r ∈ ctx.store.table.rows, r.key ∈ s.doomed → r.key ≠ owner.key → Clears schema policy r) ↔
      ¬(policy.joinFields = .reject ∧ ∃ row, (row = owner ∨
        row ∈ ctx.store.rows ∧ row.key ≠ owner.key ∧ row.key ∈ report.deleted) ∧
        HoldsJoin schema row) := by
    constructor
    · rintro ⟨howner, hrows⟩ ⟨hreject, row, rfl | ⟨hr, hne, hd⟩, hholds⟩
      · exact howner hreject hholds
      · exact hrows row hr (hx.mem_doomed_iff.2 (.inr hd)) hne hreject hholds
    · intro h
      refine ⟨fun hreject hholds => h ⟨hreject, owner, .inl rfl, hholds⟩,
        fun r hr hd hne hreject hholds => h ⟨hreject, r, .inr ⟨hr, hne, ?_⟩, hholds⟩⟩
      exact (hx.mem_doomed_iff.1 hd).resolve_left hne
  have hgroup : (policy.crossGroup = .reject → ctx.scope.transactional = true →
      ∀ k ∈ s.deletes.map (·.key) ++ s.nulls.map (·.row.key), k.sameGroup owner.key) ↔
      ¬(policy.crossGroup = .reject ∧ ctx.scope.transactional = true ∧
        ∃ k ∈ report.deleted ++ report.nulled, ¬k.sameGroup owner.key) := by
    rw [hx.sameGroup_iff]
    simp only [not_and, not_exists, not_not]
  have hlenient : lenient.crossGroup = .reject → ctx.scope.transactional = true →
      ∀ k ∈ s.deletes.map (·.key) ++ s.nulls.map (·.row.key), k.sameGroup owner.key :=
    fun h => by cases h
  rw [verdict_eq_ok, verdict_eq_ok, checkStaging_eq_ok, checkStaging_eq_ok,
    search_iff_lenient (finds_tableLookup _), hjoin, hgroup, Forbids, not_or]
  constructor
  · rintro ⟨⟨hs, hj⟩, hb, hg⟩
    exact ⟨⟨hs, hb, hlenient⟩, hj, hg⟩
  · rintro ⟨⟨hs, hb, -⟩, hj, hg⟩
    exact ⟨⟨hs, hj⟩, hb, hg⟩

/-- A policy only forbids: how a cascade under it compares to the one under the lenient policy. -/
structure OnlyForbids (schema : Schema) (policy : CascadePolicy) (owner : Row) (ctx : Context)
    (call : CascadePolicy → Action CascadeReport) : Prop where
  /-- Where it succeeds, it reports and leaves what the lenient one does. -/
  of_ok : ∀ report ctx', call policy ctx = .ok report ctx' →
    ∃ ctx₀, call lenient ctx = .ok report ctx₀ ∧ ctx'.store.rows = ctx₀.store.rows
  /-- Where the lenient one fails, it fails. -/
  of_lenient_error : ∀ e ctx₀, call lenient ctx = .error e ctx₀ →
    ∃ e' ctx', call policy ctx = .error e' ctx'
  /-- Where the lenient one succeeds, it fails exactly if that is forbidden. -/
  fails_iff : ∀ report ctx₀, call lenient ctx = .ok report ctx₀ →
    ((∃ e ctx', call policy ctx = .error e ctx') ↔ Forbids schema policy owner ctx report)
  /-- Where it fails, no row is changed. -/
  of_error : ∀ e ctx', call policy ctx = .error e ctx' → ctx'.store.rows = ctx.store.rows

theorem onlyForbids_run (schema : Schema) (policy : CascadePolicy) (loaded : LoadedFields)
    (owner : Row) {ctx : Context} (hf : ctx.store.faults = []) (deleteOwner : Bool) :
    OnlyForbids schema policy owner ctx fun policy =>
      run schema policy loaded owner deleteOwner := by
  refine ⟨fun report ctx' h => ?_, fun e ctx₀ h => ?_, fun report ctx₀ h => ?_, fun e ctx' h => ?_⟩
  · obtain ⟨s, new, hx, hv⟩ := explored_of_run h
    have hv₀ := (hx.verdict_iff.1 hv).1
    obtain ⟨report₀, ctx₀, h₀⟩ := run_of_verdict_ok hf deleteOwner hv₀
    obtain ⟨rfl, hrows⟩ := same_of_verdict h₀ h hv₀ hv
    exact ⟨ctx₀, h₀, hrows⟩
  · obtain ⟨hv₀, -⟩ := verdict_of_run_error hf h
    cases h' : run schema policy loaded owner deleteOwner ctx with
    | error e' ctx' => exact ⟨e', ctx', rfl⟩
    | ok report ctx' =>
      obtain ⟨s, new, hx, hv⟩ := explored_of_run h'
      cases hv₀.symm.trans (hx.verdict_iff.1 hv).1
  · obtain ⟨s, new, hx, hv₀⟩ := explored_of_run h
    constructor
    · rintro ⟨e, ctx', h'⟩
      obtain ⟨hv, -⟩ := verdict_of_run_error hf h'
      by_contra hn
      cases hv.symm.trans (hx.verdict_iff.2 ⟨hv₀, hn⟩)
    · intro hforbids
      cases h' : run schema policy loaded owner deleteOwner ctx with
      | error e' ctx' => exact ⟨e', ctx', rfl⟩
      | ok report' ctx' =>
        obtain ⟨s', new', hx', hv⟩ := explored_of_run h'
        cases hv₀.symm.trans (hx'.verdict_iff.1 hv).1
        exact absurd hforbids (hx.verdict_iff.1 hv).2
  · obtain ⟨-, htable⟩ := verdict_of_run_error hf h
    exact congrArg RowTable.rows htable

end Run

/-- Cascade policies only forbid: without faults, a cascade under a policy reports and leaves what
it does under the policy that forbids nothing, or it fails and changes no row. It fails if that one
does, or if the policy forbids it. -/
theorem only_forbids (schema : Schema) (policy : CascadePolicy) (loaded : LoadedFields)
    (owner : Row) (ctx : Context) (hf : ctx.store.faults = []) :
    OnlyForbids schema policy owner ctx (fun policy => execute schema policy loaded owner) ∧
    OnlyForbids schema policy owner ctx (fun policy => delete schema policy loaded owner) :=
  ⟨onlyForbids_run schema policy loaded owner hf false,
    onlyForbids_run schema policy loaded owner hf true⟩

/-- The nodes and the mark, each in an entity group of its own, in a transaction. -/
def sampleTransaction : Context := { sampleMarked with scope := .start ⟨1⟩ true }

theorem only_forbids_sample :
    (∃ ctx₀, delete sampleMarkedSchema lenient .empty (sampleNode 1 2) sampleTransaction =
      .ok ⟨[(sampleNode 2 1).key, (sampleNode 1 2).key], [(sampleMark 4 2).key]⟩ ctx₀) ∧
    ∃ e ctx', delete sampleMarkedSchema {} .empty (sampleNode 1 2) sampleTransaction =
      .error e ctx' ∧ ctx'.store.rows = sampleTransaction.store.rows := by
  obtain ⟨ctx₀, hrun⟩ : ∃ ctx₀,
      delete sampleMarkedSchema lenient .empty (sampleNode 1 2) sampleTransaction =
        .ok ⟨[(sampleNode 2 1).key, (sampleNode 1 2).key], [(sampleMark 4 2).key]⟩ ctx₀ :=
    exists_eq_ok (by decide +kernel)
  obtain ⟨-, hdelete⟩ := only_forbids sampleMarkedSchema {} .empty (sampleNode 1 2)
    sampleTransaction rfl
  have hforbids : Forbids sampleMarkedSchema {} (sampleNode 1 2) sampleTransaction
      ⟨[(sampleNode 2 1).key, (sampleNode 1 2).key], [(sampleMark 4 2).key]⟩ :=
    .inr ⟨rfl, rfl, (sampleMark 4 2).key, by simp, by decide⟩
  obtain ⟨e, ctx', hfails⟩ := (hdelete.fails_iff _ _ hrun).2 hforbids
  exact ⟨⟨ctx₀, hrun⟩, e, ctx', hfails, hdelete.of_error e ctx' hfails⟩

end Cascade
end EntityGraph
