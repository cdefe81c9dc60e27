import EntityGraph.Proofs.Cascade.Exploration

/-!
# A cascade deletes what the row reaches

Staging terminates: it never gets to the bottom of the search, since each step down dooms one more
row of the store. A cascade that succeeds deletes exactly the rows that are reached from its owner
through dependents.

* `Cascade.SameOn`: two operations that do the same on stores with a given table;
* `Cascade.stageWithin_sameOn`: what is below the bottom of the search does not matter;
* `Cascade.verdict`: what a cascade comes to, as a function of the table;
* `Cascade.explored_of_ok`: what a cascade that succeeds has explored;
* `Cascade.deletes_reachable`: staging terminates, and which rows a cascade deletes.
-/

open Relation (ReflTransGen TransGen)

namespace EntityGraph

namespace Cascade

variable {schema : Schema} {t : RowTable} {owner : Row} {loaded : LoadedFields}

/-! ## The bottom of the search -/

/-- The number of rows that are not doomed. -/
def remaining (t : RowTable) (s : Staging) : Nat := t.rows.countP (·.key ∉ s.doomed)

theorem remaining_mono {s s' : Staging} (h : ∀ {k}, k ∈ s.doomed → k ∈ s'.doomed) :
    remaining t s' ≤ remaining t s := by
  refine List.countP_mono_left fun r _ hr => ?_
  simp only [decide_eq_true_eq] at hr ⊢
  exact fun hd => hr (h hd)

theorem remaining_doom_lt {s : Staging} {child : Row} (hm : child ∈ t.rows)
    (hn : child.key ∉ s.doomed) :
    remaining t { s with doomed := child.key :: s.doomed } < remaining t s := by
  obtain ⟨before, after, hrows⟩ := List.append_of_mem hm
  have hle : ∀ rows : List Row, rows.countP (·.key ∉ child.key :: s.doomed) ≤
      rows.countP (·.key ∉ s.doomed) := fun rows => List.countP_mono_left fun r _ hr => by
    simp only [decide_eq_true_eq] at hr ⊢
    exact fun hd => hr (List.mem_cons_of_mem _ hd)
  have h₁ := hle before
  have h₂ := hle after
  have hin : decide (child.key ∉ child.key :: s.doomed) = false := by simp
  have hout : decide (child.key ∉ s.doomed) = true := by simpa using hn
  simp only [remaining, hrows, List.countP_append, List.countP_cons, hin, hout, if_true]
  simp only [Bool.false_eq_true, if_false]
  omega

theorem remaining_le_size (t : RowTable) (s : Staging) : remaining t s ≤ t.size := by
  have h := List.countP_le_length (p := fun r : Row => decide (r.key ∉ s.doomed)) (l := t.rows)
  simpa [remaining, RowTable.rows, RowTable.size, SortedMap.size] using h

/-- Two operations do the same on stores with the table `t`. -/
def SameOn {α : Type} (t : RowTable) (x x' : Action α) : Prop :=
  ∀ ctx : Context, ctx.store.table = t → x ctx = x' ctx

namespace SameOn

variable {α β : Type}

theorem refl (x : Action α) : SameOn t x x := fun _ _ => rfl

theorem bind {x x' : Action α} {y : RowTable → Except Failure α} {f f' : α → Action β}
    (h : SameOn t x x') (hx : Reads Context.store x' y)
    (hf : ∀ a, y t = .ok a → SameOn t (f a) (f' a)) : SameOn t (x >>= f) (x' >>= f') := by
  intro ctx hc
  cases hrun : x' ctx with
  | error e ctx' => rw [bind_of_error hrun, bind_of_error ((h ctx hc).trans hrun)]
  | ok a ctx' =>
    obtain ⟨hr, _, rfl, ha⟩ := hx.of_ok hrun
    rw [bind_of_ok hrun, bind_of_ok ((h ctx hc).trans hrun)]
    exact hf a (hc ▸ ha) ctx' (hr.table.trans hc)

theorem foldlM {f f' : β → α → Action β} {g : β → α → RowTable → Except Failure β} {I : β → Prop}
    (hr : ∀ b a, Reads Context.store (f' b a) (g b a)) : ∀ {as : List α} {b : β},
      (∀ a ∈ as, ∀ b, I b → SameOn t (f b a) (f' b a)) →
      (∀ a ∈ as, ∀ b b', I b → g b a t = .ok b' → I b') → I b →
      SameOn t (as.foldlM f b) (as.foldlM f' b)
  | [], b, _, _, _ => refl _
  | a :: as, b, hf, hI, hb => by
    simp only [List.foldlM_cons]
    refine (hf a List.mem_cons_self b hb).bind (hr b a) fun b' hb' => ?_
    exact foldlM hr (fun a ha => hf a (List.mem_cons_of_mem _ ha))
      (fun a ha => hI a (List.mem_cons_of_mem _ ha)) (hI a List.mem_cons_self b b' hb hb')

end SameOn

/-- What holds of a staging during the search from a row: the row and the owner are doomed, and at
most `n` rows are not. -/
structure Within (t : RowTable) (owner row : Key) (n : Nat) (s : Staging) : Prop where
  owner_mem : owner ∈ s.doomed
  row_mem : row ∈ s.doomed
  remaining_le : remaining t s ≤ n

theorem Within.extend {owner row : Key} {n : Nat} {s s' : Staging} (h : Within t owner row n s)
    (he : s.Extends s') : Within t owner row n s' :=
  ⟨he.doomed h.owner_mem, he.doomed h.row_mem,
    Nat.le_trans (remaining_mono he.doomed) h.remaining_le⟩

section Visits

-- Two ways to visit a dependent that do the same as long as fewer than `n` rows are left, the
-- second of which is known to explore.
variable {visit visit' : Row → Staging → Action Staging}
  {search : RowTable → Row → Staging → Except Failure Staging} {n : Nat}
  (hsame : ∀ {child s}, Visited t owner loaded child .empty → owner.key ∈ s.doomed →
    child.key ∈ s.doomed → remaining t s < n → SameOn t (visit child s) (visit' child s))
  (hreads : ∀ row s, Reads Context.store (visit' row s) fun t => search t row s)
  (hexp : Explorer schema t owner loaded .empty (search t))

include hsame hreads

theorem stageDependent_sameOn {row : Key} {child : Row} (hm : child ∈ t.rows) (field : String)
    {s : Staging} (hs : Within t owner.key row n s) :
    SameOn t (stageDependent visit field s child) (stageDependent visit' field s child) := by
  unfold stageDependent
  split
  · exact .refl _
  · rename_i hd
    have hvis : Visited t owner loaded child .empty :=
      .stored (RowTable.mem_rows.1 hm) fun he => hd (he ▸ hs.owner_mem)
    have hlt : remaining t { s with doomed := child.key :: s.doomed } < n :=
      Nat.lt_of_lt_of_le (remaining_doom_lt hm hd) hs.remaining_le
    exact (hsame hvis (List.mem_cons_of_mem _ hs.owner_mem) List.mem_cons_self hlt).bind
      (hreads _ _) fun _ _ => .refl _

include hexp

theorem stageDelete_sameOn {row : Row} {fields : LoadedFields}
    (hrow : Visited t owner loaded row fields) {plan : CascadePlan}
    (hplan : CascadePlan.ofClass schema row.kind = .ok plan) {strategy : Strategy}
    (hstrategy : strategy ∈ plan.strategies) {s : Staging} (hs : Within t owner.key row.key n s) :
    SameOn t (stageDelete storeLookup visit fields row s strategy)
      (stageDelete storeLookup visit' fields row s strategy) := by
  cases strategy with
  | deleteDependents field target owned mappedBy =>
    refine (SameOn.refl _).bind (reads_dependents row fields field target owned mappedBy)
      fun children hc => ?_
    obtain ⟨children', hdep, hmem⟩ := dependents_eq (finds_tableLookup t) row fields field target
      owned mappedBy
    cases hdep.symm.trans hc
    refine SameOn.foldlM (I := Within t owner.key row.key n)
      (fun s child => reads_stageDependent hreads field s child) (fun child hchild s hs => ?_)
      (fun child hchild s s' hs h => ?_) hs
    · exact stageDependent_sameOn hsame hreads ((hmem child).1 hchild).mem_rows field hs
    · have hres := (hmem child).1 hchild
      have hd := (depends_iff hrow).2 ⟨child, ⟨plan, hplan, _, hstrategy, hres⟩, rfl⟩
      obtain ⟨new, he, -⟩ := explores_stageDependent hexp hd hres.mem_rows hs.owner_mem h
      exact hs.extend he.toExtends
  | nullReference | reserved => exact .refl _

theorem stageRelated_sameOn (policy : CascadePolicy) {row : Row} {fields : LoadedFields}
    (hrow : Visited t owner loaded row fields) {s : Staging} (hs : Within t owner.key row.key n s) :
    SameOn t (stageRelated storeLookup schema policy visit fields row s)
      (stageRelated storeLookup schema policy visit' fields row s) := by
  unfold stageRelated
  refine (SameOn.refl _).bind (Reads.ofExcept _) fun plan hplan => ?_
  refine (SameOn.refl _).bind (Reads.forM (fun strategy => Reads.ofExcept _) _) fun _ _ => ?_
  refine SameOn.bind ?_ (Reads.foldlM (fun s strategy =>
    reads_stageDelete hreads fields row s strategy) plan.deletes s) fun _ _ => .refl _
  refine SameOn.foldlM (I := Within t owner.key row.key n)
    (fun s strategy => reads_stageDelete hreads fields row s strategy)
    (fun strategy hst s hs => ?_) (fun strategy hst s s' hs h => ?_) hs
  · exact stageDelete_sameOn hsame hreads hexp hrow hplan (List.mem_filter.1 hst).1 hs
  · obtain ⟨new, he, -⟩ := explores_stageDelete (finds_tableLookup t) hexp hrow hplan
      (List.mem_filter.1 hst).1 hs.owner_mem hs.row_mem h
    exact hs.extend he.toExtends

end Visits

/-- What is below the bottom of the search from a row does not matter if there are fewer rows left
than the search is deep. -/
theorem stageWithin_sameOn (policy : CascadePolicy) (bottom : Row → Staging → Action Staging)
    (e : Failure) : ∀ (depth : Nat) {fields : LoadedFields} {row : Row} {s : Staging},
      Visited t owner loaded row fields → owner.key ∈ s.doomed → row.key ∈ s.doomed →
      remaining t s < depth →
      SameOn t (stageWithin storeLookup schema policy bottom depth fields row s)
        (stageWithin storeLookup schema policy (fun _ _ => throw e) depth fields row s)
  | 0, _, _, _, _, _, _, hn => by omega
  | depth + 1, fields, row, s, hrow, ho, hr, hn => by
    simp only [stageWithin]
    exact stageRelated_sameOn (stageWithin_sameOn policy bottom e depth)
      (reads_stageWithin schema policy (fun _ _ => Reads.throw e) depth .empty)
      (explores_stageWithin (finds_tableLookup t) policy e depth .empty) policy hrow
      ⟨ho, hr, by omega⟩

/-- The search for the dependents of the owner never gets to its bottom. -/
theorem stageRow_eq (schema : Schema) (policy : CascadePolicy) (loaded : LoadedFields) (owner : Row)
    (bottom : Row → Staging → Action Staging) (ctx : Context) :
    stageWithin storeLookup schema policy bottom (ctx.store.size + 1) loaded owner
        { doomed := [owner.key] } ctx =
      stageRow storeLookup schema policy ctx.store.size loaded owner ctx := by
  have hlt : remaining ctx.store.table { doomed := [owner.key] } < ctx.store.size + 1 :=
    Nat.lt_succ_of_le (remaining_le_size _ _)
  have hvis : Visited ctx.store.table owner loaded owner loaded := .owner
  have h : ∀ bottom : Row → Staging → Action Staging, _ := fun bottom =>
    @stageWithin_sameOn schema _ owner loaded policy bottom .emptyKind _ _ _ _ hvis
      List.mem_cons_self List.mem_cons_self hlt ctx rfl
  exact (h bottom).trans (h _).symm

/-! ## Staging as a search of the table -/

/-- The search for what a cascade writes. It fails where it would have to go deeper than `depth`
rows. -/
def search (look : Lookup (Except Failure)) (schema : Schema) (policy : CascadePolicy) (depth : Nat)
    (loaded : LoadedFields) (owner : Row) : Except Failure Staging :=
  stageWithin look schema policy (fun _ _ => throw .emptyKind) depth loaded owner
    { doomed := [owner.key] }

/-- What a cascade from a table comes to: the writes that it stages, or why it is rejected. -/
def verdict (schema : Schema) (policy : CascadePolicy) (scope : Scope) (depth : Nat)
    (loaded : LoadedFields) (owner : Row) (t : RowTable) : Except Failure Staging := do
  let s ← search (tableLookup t) schema policy depth loaded owner
  checkStaging policy scope owner.key s
  return s

theorem verdict_eq_ok {policy : CascadePolicy} {scope : Scope} {depth : Nat} {s : Staging} :
    verdict schema policy scope depth loaded owner t = .ok s ↔
      search (tableLookup t) schema policy depth loaded owner = .ok s ∧
        checkStaging policy scope owner.key s = .ok () := by
  unfold verdict
  constructor
  · intro h
    obtain ⟨s', hs, h⟩ := bind_eq_ok.1 h
    obtain ⟨⟨⟩, hc, h⟩ := bind_eq_ok.1 h
    cases h
    exact ⟨hs, hc⟩
  · rintro ⟨hs, hc⟩
    rw [hs, ok_bind, hc]
    rfl

theorem verdict_eq_error {policy : CascadePolicy} {scope : Scope} {depth : Nat} {e : Failure}
    (h : verdict schema policy scope depth loaded owner t = .error e) :
    search (tableLookup t) schema policy depth loaded owner = .error e ∨ ∃ s,
      search (tableLookup t) schema policy depth loaded owner = .ok s ∧
        checkStaging policy scope owner.key s = .error e := by
  unfold verdict at h
  cases hs : search (tableLookup t) schema policy depth loaded owner with
  | error e' =>
    rw [hs] at h
    exact .inl h
  | ok s =>
    rw [hs, ok_bind] at h
    cases hc : checkStaging policy scope owner.key s with
    | error e' =>
      rw [hc] at h
      cases h
      exact .inr ⟨s, rfl, hc⟩
    | ok =>
      rw [hc] at h
      cases h

/-- Staging a cascade is an operation that only reads, and that answers the verdict on the table. -/
theorem reads_stage (schema : Schema) (policy : CascadePolicy) (loaded : LoadedFields) (owner : Row)
    (ctx : Context) : ∃ x : Action Staging, stage schema policy loaded owner ctx = x ctx ∧
      Reads Context.store x
        (verdict schema policy ctx.scope (ctx.store.size + 1) loaded owner) := by
  refine ⟨stageWithin storeLookup schema policy (fun _ _ => throw .emptyKind) (ctx.store.size + 1)
    loaded owner { doomed := [owner.key] } >>= fun s =>
      MonadExcept.ofExcept (checkStaging policy ctx.scope owner.key s) >>= fun _ => pure s, ?_, ?_⟩
  · simp only [stage, bind_of_ok (get_run ctx)]
    simp only [bind, EStateM.bind, stageRow_eq]
  · have hsearch := reads_stageWithin schema policy (fun _ _ => Reads.throw .emptyKind)
      (ctx.store.size + 1) loaded owner { doomed := [owner.key] }
    exact hsearch.bind fun s => (Reads.ofExcept _).bind fun _ => Reads.pure s

/-! ## What a cascade deletes -/

/-- What a search has explored: the rows under `new`, besides the owner. -/
structure Searched (schema : Schema) (t : RowTable) (owner : Row) (loaded : LoadedFields)
    (s : Staging) (new : List Key) : Prop where
  explores : Explores schema t owner loaded owner.key { doomed := [owner.key] } s new
  done : Done schema t owner loaded s owner.key

theorem searched_of_search {look : Lookup (Except Failure)} (hlook : Finds t look)
    {policy : CascadePolicy} {depth : Nat} {s : Staging}
    (h : search look schema policy depth loaded owner = .ok s) :
    ∃ new, Searched schema t owner loaded s new := by
  obtain ⟨new, he, hd⟩ := explores_stageWithin hlook policy .emptyKind depth loaded .owner
    List.mem_cons_self List.mem_cons_self h
  exact ⟨new, he, hd⟩

namespace Searched

variable {s : Staging} {new : List Key}

theorem mem_doomed (h : Searched schema t owner loaded s new) {k : Key} :
    k ∈ s.doomed ↔ k = owner.key ∨ k ∈ new := by
  rw [h.explores.mem_doomed, List.mem_singleton]

/-- A search is done with every row that it dooms. -/
theorem done_of_mem (h : Searched schema t owner loaded s new) {k : Key} (hk : k ∈ s.doomed) :
    Done schema t owner loaded s k := by
  rcases h.mem_doomed.1 hk with rfl | hk
  · exact h.done
  · exact h.explores.done k hk

/-- The doomed rows are the owner and what it reaches. -/
theorem mem_doomed_iff (h : Searched schema t owner loaded s new) {k : Key} :
    k ∈ s.doomed ↔ ReflTransGen (Depends schema t owner loaded) owner.key k := by
  constructor
  · intro hk
    rcases h.mem_doomed.1 hk with rfl | hk
    · exact .refl
    · exact (h.explores.reach k hk).to_reflTransGen
  · intro hk
    induction hk with
    | refl => exact h.mem_doomed.2 (.inl rfl)
    | tail _ hb ih => exact (h.done_of_mem ih).closed _ hb

end Searched

/-- What a staging that succeeds has explored. -/
theorem explores_of_stage {schema : Schema} {policy : CascadePolicy} {loaded : LoadedFields}
    {owner : Row} {ctx ctx' : Context} {s : Staging}
    (h : stage schema policy loaded owner ctx = .ok s ctx') :
    ctx.store.OnlyRead ctx'.store ∧
    verdict schema policy ctx.scope (ctx.store.size + 1) loaded owner ctx.store.table = .ok s ∧
    ∃ new, Searched schema ctx.store.table owner loaded s new := by
  obtain ⟨x, hx, hreads⟩ := reads_stage schema policy loaded owner ctx
  obtain ⟨hr, _, rfl, hv⟩ := hreads.of_ok (hx ▸ h)
  exact ⟨hr, hv, searched_of_search (finds_tableLookup _) (verdict_eq_ok.1 hv).1⟩

/-- A cascade that succeeds has staged its writes and then carried them out. -/
theorem run_eq_ok {schema : Schema} {policy : CascadePolicy} {loaded : LoadedFields} {owner : Row}
    {deleteOwner : Bool} {ctx ctx' : Context} {report : CascadeReport}
    (h : run schema policy loaded owner deleteOwner ctx = .ok report ctx') :
    ∃ s ctx₀ ctx₁ ctx₂, ctx₀.store = ctx.store ∧ ctx₀.scope = ctx.scope ∧
      stage schema policy loaded owner ctx₀ = .ok s ctx₁ ∧
      apply owner.key s deleteOwner ctx₁ = .ok report ctx₂ ∧ ctx'.store = ctx₂.store := by
  unfold run Action.counted at h
  split at h
  · rename_i r ctx₃ hbody
    obtain ⟨s, ctx₁, hstage, hbody⟩ := bind_run_ok.1 hbody
    obtain ⟨report', ctx₂, happly, hbody⟩ := bind_run_ok.1 hbody
    cases hbody
    cases h
    unfold rejecting at hstage
    split at hstage
    · rename_i hs
      cases hstage
      exact ⟨s, { ctx.emit (.started .delete owner.kind) with touched := 0 }, ctx₁, ctx₂, rfl, rfl,
        hs, happly, rfl⟩
    · cases hstage
  · cases h

theorem deleted_of_apply {owner : Key} {s : Staging} {deleteOwner : Bool} {ctx ctx' : Context}
    {report : CascadeReport} (h : apply owner s deleteOwner ctx = .ok report ctx') :
    report.deleted = s.deletes.map (·.key) ++ (if deleteOwner then [owner] else []) := by
  unfold apply at h
  obtain ⟨-, ctx₁, -, h⟩ := bind_run_ok.1 h
  obtain ⟨nulled, ctx₂, -, h⟩ := bind_run_ok.1 h
  cases deleteOwner with
  | false =>
    cases h
    rfl
  | true =>
    simp only [if_true] at h
    obtain ⟨-, ctx₃, -, h⟩ := bind_run_ok.1 h
    cases h
    rfl

/-- A cascade that succeeds has explored the rows that it reports as deleted, besides its owner, and
then carried out the staged writes. -/
structure Explored (schema : Schema) (owner : Row) (loaded : LoadedFields) (ctx ctx' : Context)
    (report : CascadeReport) (s : Staging) (new : List Key) (deleteOwner : Bool) : Prop where
  explores : Explores schema ctx.store.table owner loaded owner.key { doomed := [owner.key] } s new
  done : Done schema ctx.store.table owner loaded s owner.key
  deleted : report.deleted = new ++ (if deleteOwner then [owner.key] else [])
  applied : ∃ ctx₁ ctx₂, ctx₁.store.table = ctx.store.table ∧
    apply owner.key s deleteOwner ctx₁ = .ok report ctx₂ ∧ ctx'.store = ctx₂.store

/-- What a cascade that succeeds has explored is what the verdict on the table says. -/
theorem explored_of_run {schema : Schema} {policy : CascadePolicy} {loaded : LoadedFields}
    {owner : Row} {deleteOwner : Bool} {ctx ctx' : Context} {report : CascadeReport}
    (h : run schema policy loaded owner deleteOwner ctx = .ok report ctx') :
    ∃ s new, Explored schema owner loaded ctx ctx' report s new deleteOwner ∧
      verdict schema policy ctx.scope (ctx.store.size + 1) loaded owner ctx.store.table =
        .ok s := by
  obtain ⟨s, ctx₀, ctx₁, ctx₂, hstore, hscope, hstage, happly, hlast⟩ := run_eq_ok h
  obtain ⟨hr, hv, new, hs⟩ := explores_of_stage hstage
  rw [hstore] at hr hs
  rw [hstore, hscope] at hv
  refine ⟨s, new, ⟨hs.explores, hs.done, ?_, ctx₁, ctx₂, hr.table, happly, hlast⟩, hv⟩
  rw [deleted_of_apply happly, hs.explores.deletes]
  rfl

/-- What a cascade that succeeds has explored, and that nothing in it forbids the cascade. -/
theorem explored_of_ok {schema : Schema} {policy : CascadePolicy} {loaded : LoadedFields}
    {owner : Row} {ctx ctx' : Context} {report : CascadeReport}
    (h : execute schema policy loaded owner ctx = .ok report ctx' ∨
      delete schema policy loaded owner ctx = .ok report ctx') :
    ∃ s new deleteOwner, Explored schema owner loaded ctx ctx' report s new deleteOwner ∧
      checkStaging policy ctx.scope owner.key s = .ok () := by
  have hrun : ∃ deleteOwner, run schema policy loaded owner deleteOwner ctx = .ok report ctx' := by
    rcases h with h | h
    · exact ⟨false, h⟩
    · exact ⟨true, h⟩
  obtain ⟨deleteOwner, hrun⟩ := hrun
  obtain ⟨s, new, hx, hv⟩ := explored_of_run hrun
  exact ⟨s, new, deleteOwner, hx, (verdict_eq_ok.1 hv).2⟩

namespace Explored

variable {ctx ctx' : Context} {report : CascadeReport} {s : Staging} {new : List Key}
  {deleteOwner : Bool}

theorem searched (h : Explored schema owner loaded ctx ctx' report s new deleteOwner) :
    Searched schema ctx.store.table owner loaded s new := ⟨h.explores, h.done⟩

theorem owner_notMem (h : Explored schema owner loaded ctx ctx' report s new deleteOwner) :
    owner.key ∉ new := fun hk => h.explores.fresh _ hk List.mem_cons_self

theorem mem_doomed (h : Explored schema owner loaded ctx ctx' report s new deleteOwner) {k : Key} :
    k ∈ s.doomed ↔ k = owner.key ∨ k ∈ new := h.searched.mem_doomed

theorem mem_deleted (h : Explored schema owner loaded ctx ctx' report s new deleteOwner) {k : Key}
    (hk : k ≠ owner.key) : k ∈ report.deleted ↔ k ∈ new := by
  rw [h.deleted, List.mem_append]
  cases deleteOwner <;> simp [hk]

/-- The doomed rows are the owner and those that are reported as deleted. -/
theorem mem_doomed_iff (h : Explored schema owner loaded ctx ctx' report s new deleteOwner)
    {k : Key} : k ∈ s.doomed ↔ k = owner.key ∨ k ∈ report.deleted := by
  rw [h.mem_doomed]
  by_cases hk : k = owner.key
  · simp [hk]
  · simp [hk, h.mem_deleted hk]

theorem nodup_deleted (h : Explored schema owner loaded ctx ctx' report s new deleteOwner) :
    report.deleted.Nodup := by
  rw [h.deleted]
  cases deleteOwner with
  | false => simpa using h.explores.nodup
  | true =>
    refine List.nodup_append.2 ⟨h.explores.nodup, by simp, fun a ha b hb => ?_⟩
    rintro rfl
    exact h.owner_notMem (List.mem_singleton.1 hb ▸ ha)

/-- What a cascade has doomed besides the owner is what the owner reaches. -/
theorem mem_iff_transGen (h : Explored schema owner loaded ctx ctx' report s new deleteOwner)
    {k : Key} (hk : k ≠ owner.key) :
    k ∈ new ↔ TransGen (Depends schema ctx.store.table owner loaded) owner.key k :=
  ⟨h.explores.reach k, fun hr =>
    (h.mem_doomed.1 (h.searched.mem_doomed_iff.2 hr.to_reflTransGen)).resolve_left hk⟩

end Explored

/-- Staging a cascade terminates: whatever were to happen below the bottom of the search, it does
not get there. A cascade that succeeds deletes, besides its owner, the rows that the owner reaches
through dependents, and deletes none twice. -/
theorem deletes_reachable (schema : Schema) (policy : CascadePolicy) (loaded : LoadedFields)
    (owner : Row) (ctx : Context) :
    (∀ bottom : Row → Staging → Action Staging,
      stageWithin storeLookup schema policy bottom (ctx.store.size + 1) loaded owner
          { doomed := [owner.key] } ctx =
        stageRow storeLookup schema policy ctx.store.size loaded owner ctx) ∧
    (∀ report ctx', execute schema policy loaded owner ctx = .ok report ctx' ∨
        delete schema policy loaded owner ctx = .ok report ctx' →
      report.deleted.Nodup ∧ ∀ k, k ≠ owner.key → (k ∈ report.deleted ↔
        TransGen (Depends schema ctx.store.table owner loaded) owner.key k)) := by
  refine ⟨fun bottom => stageRow_eq schema policy loaded owner bottom ctx, fun report ctx' h => ?_⟩
  obtain ⟨s, new, deleteOwner, hx, -⟩ := explored_of_ok h
  exact ⟨hx.nodup_deleted, fun k hk => (hx.mem_deleted hk).trans (hx.mem_iff_transGen hk)⟩

/-- A node that refers to a dependent node, which may refer back. -/
def sampleNode (n next : UInt64) : Row where
  key := .single ⟨"N", some (.number n)⟩ ⟨by simp, by simp⟩
  properties := SortedMap.empty.insert "next"
    (.key (.single ⟨"N", some (.number next)⟩ ⟨by simp, by simp⟩))

/-- The class of the nodes. -/
def sampleSchema : Schema where
  classes := [{
    name := "N"
    fields := [{
      name := "next"
      relation := some { kind := .manyToOne, target := "N", dependent := true } }] }]
  distinct := by simp

/-- Two nodes in a cycle, and a third one. -/
def sampleCycle : Context where
  scope := .start ⟨1⟩ false
  store :=
    ((((({} : Store).seed (sampleNode 1 2)).2).seed (sampleNode 2 1)).2.seed (sampleNode 3 1)).2
  held := {}

theorem deletes_reachable_sample :
    (∃ ctx', delete sampleSchema {} .empty (sampleNode 1 2) sampleCycle =
      .ok ⟨[(sampleNode 2 1).key, (sampleNode 1 2).key], []⟩ ctx') ∧
    TransGen (Depends sampleSchema sampleCycle.store.table (sampleNode 1 2) .empty)
      (sampleNode 1 2).key (sampleNode 2 1).key := by
  have hrun : delete sampleSchema {} .empty (sampleNode 1 2) sampleCycle =
      .ok ⟨[(sampleNode 2 1).key, (sampleNode 1 2).key], []⟩ _ := rfl
  obtain ⟨-, hmem⟩ := (deletes_reachable sampleSchema {} .empty (sampleNode 1 2) sampleCycle).2 _ _
    (.inr hrun)
  exact ⟨⟨_, hrun⟩, (hmem _ (by decide)).1 (by simp)⟩

end Cascade
end EntityGraph
