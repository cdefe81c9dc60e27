import Mathlib.Logic.Relation
import EntityGraph.Proofs.Cascade.Lookup
import EntityGraph.Proofs.Cascade.Staging

/-!
# What a cascade reaches

Staging a cascade is a search in depth: from the row to delete it follows the dependents of each
row, and passes over those that were reached before.

* `Cascade.Resolves`, `Cascade.Depends`: the dependents of a row, as a relation on rows and on keys;
* `Cascade.Finds`: a look-up that finds what is in a table, in whatever order;
* `Cascade.Explores`: what a part of the search adds to a staging. Parts in sequence are a part
  (`Explores.trans`), and so is a visit of a dependent (`Explores.visit`);
* `Cascade.explores_stageWithin`: a search explores from its row, and is done with it afterwards.
-/

open Relation (ReflTransGen TransGen)

namespace EntityGraph

theorem Key.isAncestorOf_of_parent {k a : Key} (h : k.parent = some a) :
    a.isAncestorOf k = true := by
  unfold parent at h
  split at h
  · cases h
  · cases h
    have hlt : k.path.dropLast.length < k.path.length := by
      have := List.length_pos_iff.2 k.wellFormed.nonempty
      rw [List.length_dropLast]
      omega
    simp only [isAncestorOf, ancestorPath, Bool.and_eq_true, List.isPrefixOf_iff_prefix]
    exact ⟨decide_eq_true hlt, List.dropLast_prefix _⟩

theorem Key.isWithin_of_parent {k a : Key} (h : k.parent = some a) : k.isWithin a = true := by
  rw [isWithin, isAncestorOf_of_parent h, Bool.or_true]

namespace Cascade

/-! ## Dependents -/

/-- A strategy of a row resolves to a stored row: one of those at hand, else one directly under the
row if the field is owned, else one that refers to the row, else one that the row refers to. -/
inductive Resolves (t : RowTable) (row : Row) (loaded : LoadedFields) : Strategy → Row → Prop where
  | loaded {field target owned mappedBy keys k child} : loaded.get? field = some keys → k ∈ keys →
      t.row? k = some child →
        Resolves t row loaded (.deleteDependents field target owned mappedBy) child
  | owned {field target mappedBy child} : loaded.get? field = none → child ∈ t.rows →
      child.kind = target → child.key.parent = some row.key →
      Resolves t row loaded (.deleteDependents field target true mappedBy) child
  | referrer {field target back child} : loaded.get? field = none → child ∈ t.rows →
      (referrers target back row.key).selects child →
      Resolves t row loaded (.deleteDependents field target false (some back)) child
  | referenced {field target v k child} : loaded.get? field = none → row.get? field = some v →
      k ∈ v.referencedKeys → t.row? k = some child →
      Resolves t row loaded (.deleteDependents field target false none) child

theorem Resolves.mem_rows {t : RowTable} {row : Row} {loaded : LoadedFields} {strategy : Strategy}
    {child : Row} (h : Resolves t row loaded strategy child) : child ∈ t.rows := by
  cases h with
  | loaded _ _ hk | referenced _ _ _ hk =>
    rw [RowTable.mem_rows, RowTable.key_of_row? hk]
    exact hk
  | owned _ hm | referrer _ hm => exact hm

theorem Resolves.isDelete {t : RowTable} {row : Row} {loaded : LoadedFields} {strategy : Strategy}
    {child : Row} (h : Resolves t row loaded strategy child) : strategy.isDelete = true := by
  cases h <;> rfl

theorem check_children (kind : String) (owner : Key) :
    ({ kind, ancestor := some owner } : Scan).check = .ok () := rfl

theorem check_referrers (kind field : String) (owner : Key) :
    (referrers kind field owner).check = .ok () := rfl

/-- A look-up finds what is in a table, in whatever order. -/
structure Finds (t : RowTable) (look : Lookup (Except Failure)) : Prop where
  load : ∀ owner field keys, ∃ rows, look.load owner field keys = .ok rows ∧
    ∀ r, r ∈ rows ↔ ∃ k ∈ keys, t.row? k = some r
  scan : ∀ owner field q, q.check = .ok () → q.sorts = [] → q.window = {} → ∃ rows,
    look.scan owner field q = .ok rows ∧ ∀ r, r ∈ rows ↔ r ∈ t.rows ∧ q.selects r

theorem finds_tableLookup (t : RowTable) : Finds t (tableLookup t) where
  load owner field keys := ⟨_, rfl, by simp⟩
  scan owner field q hc hs hw := by
    refine ⟨t.rows.filter q.selects, ?_, fun r => List.mem_filter⟩
    simp only [tableLookup, hc, Scan.answer_of_unsorted hs hw]
    rfl

/-- The dependents that staging finds in a table are those that the strategy resolves to. -/
theorem dependents_eq {t : RowTable} {look : Lookup (Except Failure)} (hlook : Finds t look)
    (row : Row) (loaded : LoadedFields) (field target : String) (owned : Bool)
    (mappedBy : Option String) : ∃ children,
      dependents look row loaded field target owned mappedBy = .ok children ∧
      ∀ child, child ∈ children ↔
        Resolves t row loaded (.deleteDependents field target owned mappedBy) child := by
  unfold dependents
  split
  · rename_i keys hl
    obtain ⟨rows, hload, hmem⟩ := hlook.load row.key field keys
    refine ⟨rows, hload, fun child => ?_⟩
    rw [hmem]
    constructor
    · rintro ⟨k, hk, hr⟩
      exact .loaded hl hk hr
    · intro h
      cases h with
      | loaded hl' hk hr =>
        rw [hl] at hl'
        cases hl'
        exact ⟨_, hk, hr⟩
      | owned hn | referrer hn | referenced hn =>
        rw [hl] at hn
        cases hn
  · rename_i hl
    obtain ⟨rows, hscan, hmem⟩ := hlook.scan row.key field
      { kind := target, ancestor := some row.key } (check_children target row.key) rfl rfl
    rw [hscan]
    refine ⟨_, rfl, fun child => ?_⟩
    simp only [List.mem_filter, hmem, Scan.selects, Option.all_some, List.all_nil, Bool.and_true,
      Bool.and_eq_true, beq_iff_eq]
    constructor
    · rintro ⟨⟨hm, hk, -⟩, hp⟩
      exact .owned hl hm hk hp
    · intro h
      cases h with
      | loaded hl' =>
        rw [hl] at hl'
        cases hl'
      | owned _ hm hk hp => exact ⟨⟨hm, hk, Key.isWithin_of_parent hp⟩, hp⟩
  · rename_i back hl
    obtain ⟨rows, hscan, hmem⟩ := hlook.scan row.key field (referrers target back row.key)
      (check_referrers target back row.key) rfl rfl
    refine ⟨rows, hscan, fun child => ?_⟩
    rw [hmem]
    constructor
    · rintro ⟨hm, hs⟩
      exact .referrer hl hm hs
    · intro h
      cases h with
      | loaded hl' =>
        rw [hl] at hl'
        cases hl'
      | referrer _ hm hs => exact ⟨hm, hs⟩
  · rename_i hl
    obtain ⟨rows, hload, hmem⟩ := hlook.load row.key field
      (((row.get? field).map Value.referencedKeys).getD [])
    refine ⟨rows, hload, fun child => ?_⟩
    rw [hmem]
    constructor
    · rintro ⟨k, hk, hr⟩
      cases hv : row.get? field with
      | none => simp [hv] at hk
      | some v =>
        simp only [hv, Option.map_some, Option.getD_some] at hk
        exact .referenced hl hv hk hr
    · intro h
      cases h with
      | loaded hl' =>
        rw [hl] at hl'
        cases hl'
      | referenced _ hv hk hr =>
        refine ⟨_, ?_, hr⟩
        simpa only [hv, Option.map_some, Option.getD_some] using hk

/-- A stored row is a dependent of a row through some strategy of the row's class. -/
def IsChild (schema : Schema) (t : RowTable) (row : Row) (loaded : LoadedFields) (child : Row) :
    Prop :=
  ∃ plan, CascadePlan.ofClass schema row.kind = .ok plan ∧
    ∃ strategy ∈ plan.strategies, Resolves t row loaded strategy child

/-- The rows that a cascade looks at, with the fields at hand: the owner as it was passed, and other
rows as they are stored. -/
inductive Visited (t : RowTable) (owner : Row) (loaded : LoadedFields) :
    Row → LoadedFields → Prop where
  | owner : Visited t owner loaded owner loaded
  | stored {row} : t.row? row.key = some row → row.key ≠ owner.key →
    Visited t owner loaded row .empty

section Depends

variable (schema : Schema) (t : RowTable) (owner : Row) (loaded : LoadedFields)

/-- The row under `b` is a dependent of the row under `a`. -/
def Depends (a b : Key) : Prop :=
  ∃ row fields child, Visited t owner loaded row fields ∧ row.key = a ∧
    IsChild schema t row fields child ∧ child.key = b

variable {schema t owner loaded}

/-- The dependents under the key of a row are those of the row itself. -/
theorem depends_iff {row : Row} {fields : LoadedFields} (h : Visited t owner loaded row fields)
    {b : Key} : Depends schema t owner loaded row.key b ↔
      ∃ child, IsChild schema t row fields child ∧ child.key = b := by
  constructor
  · rintro ⟨row', fields', child, h', hk, hc, rfl⟩
    refine ⟨child, ?_, rfl⟩
    cases h' with
    | owner =>
      cases h with
      | owner => exact hc
      | stored _ hne => exact absurd hk.symm hne
    | stored hr hne =>
      cases h with
      | owner => exact absurd hk hne
      | stored hr' _ =>
        rw [hk, hr'] at hr
        cases hr
        exact hc
  · rintro ⟨child, hc, rfl⟩
    exact ⟨row, fields, child, h, rfl, hc, rfl⟩

end Depends

/-- An element of two lists appended to each other is an element of one of them. -/
theorem append_eq_append_cons {α : Type} {xs ys before after : List α} {k : α}
    (h : xs ++ ys = before ++ k :: after) :
    (∃ rest, xs = before ++ k :: rest) ∨ ∃ rest, before = xs ++ rest ∧ ys = rest ++ k :: after := by
  obtain ⟨rest, hbefore, hys⟩ | ⟨rest, hxs, hrest⟩ := List.append_eq_append_iff.1 h
  · exact .inr ⟨rest, hbefore, hys⟩
  · obtain ⟨rfl, rfl⟩ | ⟨rest, rfl, -⟩ := List.cons_eq_append_iff.1 hrest
    · exact .inr ⟨[], by simpa using hxs.symm, rfl⟩
    · exact .inl ⟨rest, hxs⟩

section Explores

variable (schema : Schema) (t : RowTable) (owner : Row) (loaded : LoadedFields)

/-- A staging is done with a key: its dependents are doomed and the references to it dealt with. -/
structure Done (s : Staging) (k : Key) : Prop where
  closed : ∀ b, Depends schema t owner loaded k b → b ∈ s.doomed
  settled : ∀ plan, CascadePlan.ofClass schema k.kind = .ok plan →
    ∀ strategy ∈ plan.strategies, s.Settles t k strategy

/-- What a part of the search that starts from `src` adds to a staging: it dooms the rows under
`new`, which it reaches and is done with. -/
structure Explores (src : Key) (s s' : Staging) (new : List Key) : Prop extends s.Extends s' where
  deletes : s'.deletes.map (·.key) = s.deletes.map (·.key) ++ new
  fresh : ∀ k ∈ new, k ∉ s.doomed
  nodup : new.Nodup
  mem_doomed : ∀ {k}, k ∈ s'.doomed ↔ k ∈ s.doomed ∨ k ∈ new
  reach : ∀ k ∈ new, TransGen (Depends schema t owner loaded) src k
  done : ∀ k ∈ new, Done schema t owner loaded s' k
  /-- A row is deleted after its dependents, but for those that the search is not done with: they
  were doomed before, or reach the row. -/
  order : ∀ before k after, new = before ++ k :: after → ∀ b, Depends schema t owner loaded k b →
    b ∈ s.doomed ∨ b ∈ before ∨ ReflTransGen (Depends schema t owner loaded) b k
  sound : s.Sound schema t → s'.Sound schema t

variable {schema t owner loaded}

theorem Done.extend {s s' : Staging} {k : Key} (h : Done schema t owner loaded s k)
    (he : s.Extends s') : Done schema t owner loaded s' k :=
  ⟨fun b hb => he.doomed (h.closed b hb),
    fun plan hp strategy hs => (h.settled plan hp strategy hs).extend he⟩

namespace Explores

variable {src : Key} {s s₁ s₂ : Staging} {new₁ new₂ : List Key}

/-- A part of the search that dooms nothing. -/
theorem of_extends (he : s.Extends s₁) (hdel : s₁.deletes = s.deletes)
    (hdoom : s₁.doomed = s.doomed) (hsound : s.Sound schema t → s₁.Sound schema t) :
    Explores schema t owner loaded src s s₁ [] where
  toExtends := he
  deletes := by rw [hdel, List.append_nil]
  fresh := by simp
  nodup := .nil
  mem_doomed := by simp [hdoom]
  reach := by simp
  done := by simp
  order := by simp
  sound := hsound

theorem refl (src : Key) (s : Staging) : Explores schema t owner loaded src s s [] :=
  .of_extends (.refl s) rfl rfl id

theorem trans (h : Explores schema t owner loaded src s s₁ new₁)
    (h' : Explores schema t owner loaded src s₁ s₂ new₂) :
    Explores schema t owner loaded src s s₂ (new₁ ++ new₂) where
  toExtends := h.toExtends.trans h'.toExtends
  deletes := by rw [h'.deletes, h.deletes, List.append_assoc]
  fresh k hk := by
    rcases List.mem_append.1 hk with hk | hk
    · exact h.fresh k hk
    · exact fun hd => h'.fresh k hk (h.doomed hd)
  nodup := by
    refine List.nodup_append.2 ⟨h.nodup, h'.nodup, fun a ha b hb hab => ?_⟩
    subst hab
    exact h'.fresh a hb (h.mem_doomed.2 (.inr ha))
  mem_doomed := by
    intro k
    rw [h'.mem_doomed, h.mem_doomed, List.mem_append, or_assoc]
  reach k hk := by
    rcases List.mem_append.1 hk with hk | hk
    · exact h.reach k hk
    · exact h'.reach k hk
  done k hk := by
    rcases List.mem_append.1 hk with hk | hk
    · exact (h.done k hk).extend h'.toExtends
    · exact h'.done k hk
  order before k after hk b hb := by
    obtain ⟨rest, hnew⟩ | ⟨rest, rfl, hnew⟩ := append_eq_append_cons hk
    · exact h.order before k rest hnew b hb
    · obtain hd | hrest | hreach := h'.order rest k after hnew b hb
      · exact (h.mem_doomed.1 hd).imp_right fun hb => .inl (List.mem_append_left _ hb)
      · exact .inr (.inl (List.mem_append_right _ hrest))
      · exact .inr (.inr hreach)
  sound hs := h'.sound (h.sound hs)

/-- A visit of a dependent that was not reached before, which is deleted after what is reached from
it. -/
theorem visit {child : Key} {field : String} (hc : Depends schema t owner loaded src child)
    (hn : child ∉ s.doomed)
    (h : Explores schema t owner loaded child { s with doomed := child :: s.doomed } s₁ new₁)
    (hd : Done schema t owner loaded s₁ child) :
    Explores schema t owner loaded src s { s₁ with deletes := s₁.deletes ++ [⟨child, field⟩] }
      (new₁ ++ [child]) := by
  have hfresh : ∀ k ∈ new₁, k ≠ child ∧ k ∉ s.doomed := fun k hk => by
    have := h.fresh k hk
    exact ⟨fun he => this (he ▸ List.mem_cons_self), fun hs => this (List.mem_cons_of_mem _ hs)⟩
  have he : s₁.Extends { s₁ with deletes := s₁.deletes ++ [⟨child, field⟩] } := ⟨id, id, id⟩
  refine ⟨?_, ?_, ?_, ?_, ?_, ?_, ?_, fun before k after hk b hb => ?_, fun hs => ?_⟩
  · exact ⟨fun hk => h.doomed (List.mem_cons_of_mem _ hk), h.nulls, h.required⟩
  · simp only [List.map_append, h.deletes, List.map_cons, List.map_nil, List.append_assoc]
  · intro k hk
    rcases List.mem_append.1 hk with hk | hk
    · exact (hfresh k hk).2
    · exact List.mem_singleton.1 hk ▸ hn
  · refine List.nodup_append.2 ⟨h.nodup, by simp, fun a ha b hb => ?_⟩
    rw [List.mem_singleton.1 hb]
    exact (hfresh a ha).1
  · intro k
    rw [h.mem_doomed, List.mem_cons, List.mem_append, List.mem_singleton]
    constructor
    · rintro ((hk | hk) | hk)
      · exact .inr (.inr hk)
      · exact .inl hk
      · exact .inr (.inl hk)
    · rintro (hk | hk | hk)
      · exact .inl (.inr hk)
      · exact .inr hk
      · exact .inl (.inl hk)
  · intro k hk
    rcases List.mem_append.1 hk with hk | hk
    · exact .head hc (h.reach k hk)
    · rw [List.mem_singleton.1 hk]
      exact .single hc
  · intro k hk
    rcases List.mem_append.1 hk with hk | hk
    · exact (h.done k hk).extend he
    · rw [List.mem_singleton.1 hk]
      exact hd.extend he
  · -- Of what was doomed when the visit began, the child itself reaches all that is visited.
    obtain ⟨rest, hnew⟩ | ⟨rest, rfl, hlast⟩ := append_eq_append_cons hk
    · obtain hd | hb := h.order before k rest hnew b hb
      · refine (List.mem_cons.1 hd).symm.imp_right fun he => .inr ?_
        rw [he]
        exact (h.reach k (by simp [hnew])).to_reflTransGen
      · exact .inr hb
    · obtain ⟨rfl, rfl, -⟩ : rest = [] ∧ k = child ∧ after = [] := by
        simpa [List.singleton_eq_append_iff] using hlast
      obtain hd | hb := h.mem_doomed.1 (hd.closed b hb)
      · refine (List.mem_cons.1 hd).symm.imp_right fun he => .inr ?_
        rw [he]
      · exact .inr (.inl (by simpa using hb))
  · exact (h.sound (hs.of_nulls_eq rfl (List.mem_cons_of_mem _))).of_nulls_eq rfl id

end Explores

/-- Parts of the search one after the other: what each of them achieves holds in the end. -/
theorem explores_foldlM {α : Type} {f : Staging → α → Except Failure Staging}
    {P : α → Staging → Prop} (hP : ∀ a s s', P a s → s.Extends s' → P a s') {src : Key} :
    ∀ {as : List α} {s s' : Staging},
      (∀ a ∈ as, ∀ s s', owner.key ∈ s.doomed → src ∈ s.doomed → f s a = .ok s' →
        ∃ new, Explores schema t owner loaded src s s' new ∧ P a s') →
      owner.key ∈ s.doomed → src ∈ s.doomed → as.foldlM f s = .ok s' →
      ∃ new, Explores schema t owner loaded src s s' new ∧ ∀ a ∈ as, P a s'
  | [], s, s', _, _, _, h => by
    cases h
    exact ⟨[], .refl src s, by simp⟩
  | a :: as, s, s', hf, ho, hsrc, h => by
    rw [List.foldlM_cons] at h
    obtain ⟨s₁, h₁, h⟩ := bind_eq_ok.1 h
    obtain ⟨new₁, he₁, hp₁⟩ := hf a List.mem_cons_self s s₁ ho hsrc h₁
    obtain ⟨new₂, he₂, hp₂⟩ := explores_foldlM hP (fun b hb => hf b (List.mem_cons_of_mem _ hb))
      (he₁.doomed ho) (he₁.doomed hsrc) h
    refine ⟨new₁ ++ new₂, he₁.trans he₂, fun b hb => ?_⟩
    rcases List.mem_cons.1 hb with rfl | hb
    · exact hP b s₁ s' hp₁ he₂.toExtends
    · exact hp₂ b hb

end Explores

/-! ## The parts of the search -/

section Stage

variable {schema : Schema} {t : RowTable} {owner : Row} {loaded : LoadedFields}
  {look : Lookup (Except Failure)}

/-- Visiting a row explores from it and is done with it. -/
def Explorer (schema : Schema) (t : RowTable) (owner : Row) (loaded : LoadedFields)
    (fields : LoadedFields) (visit : Row → Staging → Except Failure Staging) : Prop :=
  ∀ {row s s'}, Visited t owner loaded row fields → owner.key ∈ s.doomed → row.key ∈ s.doomed →
    visit row s = .ok s' → ∃ new, Explores schema t owner loaded row.key s s' new ∧
      Done schema t owner loaded s' row.key

theorem explores_stageDependent {visit : Row → Staging → Except Failure Staging}
    (hv : Explorer schema t owner loaded .empty visit) {src : Key} {field : String} {s s' : Staging}
    {child : Row} (hc : Depends schema t owner loaded src child.key) (hm : child ∈ t.rows)
    (ho : owner.key ∈ s.doomed) (h : stageDependent visit field s child = .ok s') :
    ∃ new, Explores schema t owner loaded src s s' new ∧ child.key ∈ s'.doomed := by
  unfold stageDependent at h
  split at h
  · rename_i hd
    cases h
    exact ⟨[], .refl src s, hd⟩
  · rename_i hd
    obtain ⟨s₁, h₁, h⟩ := bind_eq_ok.1 h
    cases h
    have hvis : Visited t owner loaded child .empty :=
      .stored (RowTable.mem_rows.1 hm) fun he => hd (he ▸ ho)
    obtain ⟨new, he, hdone⟩ := hv hvis (List.mem_cons_of_mem _ ho) List.mem_cons_self h₁
    exact ⟨_, he.visit hc hd hdone, he.doomed List.mem_cons_self⟩

theorem explores_stageDelete (hlook : Finds t look)
    {visit : Row → Staging → Except Failure Staging}
    (hv : Explorer schema t owner loaded .empty visit) {row : Row} {fields : LoadedFields}
    (hrow : Visited t owner loaded row fields) {plan : CascadePlan}
    (hplan : CascadePlan.ofClass schema row.kind = .ok plan) {strategy : Strategy}
    (hs : strategy ∈ plan.strategies) {s s' : Staging} (ho : owner.key ∈ s.doomed)
    (hr : row.key ∈ s.doomed)
    (h : stageDelete look visit fields row s strategy = .ok s') :
    ∃ new, Explores schema t owner loaded row.key s s' new ∧
      ∀ child, Resolves t row fields strategy child → child.key ∈ s'.doomed := by
  cases strategy with
  | deleteDependents field target owned mappedBy =>
    obtain ⟨children, hdep, hmem⟩ := dependents_eq hlook row fields field target owned mappedBy
    simp only [stageDelete, hdep, ok_bind] at h
    have hstep : ∀ child ∈ children, ∀ s s', owner.key ∈ s.doomed → row.key ∈ s.doomed →
        stageDependent visit field s child = .ok s' →
        ∃ new, Explores schema t owner loaded row.key s s' new ∧ child.key ∈ s'.doomed := by
      intro child hchild s s' ho _ h
      have hres := (hmem child).1 hchild
      have hdep := (depends_iff hrow).2 ⟨child, ⟨plan, hplan, _, hs, hres⟩, rfl⟩
      exact explores_stageDependent hv hdep hres.mem_rows ho h
    obtain ⟨new, he, hall⟩ := explores_foldlM (P := fun child s => child.key ∈ s.doomed)
      (fun _ _ _ hd he => he.doomed hd) hstep ho hr h
    exact ⟨new, he, fun child hchild => hall child ((hmem child).2 hchild)⟩
  | nullReference | reserved =>
    cases h
    exact ⟨[], .refl row.key s, fun child hc => by cases hc⟩

/-- Staging one row that refers to a doomed row. -/
theorem stageReferrer_spec {src : Key} {field target mappedBy : String} {nullable : Bool}
    {s : Staging} {related : Row} (hsrc : src ∈ s.doomed) (hm : related ∈ t.rows)
    (hr : RefersThrough schema src mappedBy related) :
    Explores schema t owner loaded src s
      (stageReferrer src field target mappedBy nullable s related) [] ∧
    (stageReferrer src field target mappedBy nullable s related).Handles related.key mappedBy := by
  unfold stageReferrer
  split
  · rename_i hd
    exact ⟨.refl src s, .inl hd⟩
  · split
    · refine ⟨.of_extends ⟨?_, fun hn => hn.addNull related mappedBy, ?_⟩ ?_ ?_ ?_, ?_⟩
      · simp
      · simp
      · simp
      · simp
      · exact fun hs => hs.addNull hm hsrc hr
      · exact .inr (.inl (s.nulls_addNull related mappedBy))
    · refine ⟨.of_extends ⟨id, id, List.mem_append_left _⟩ rfl rfl fun hs => ?_, .inr (.inr ?_)⟩
      · exact hs.of_nulls_eq rfl id
      · exact ⟨_, List.mem_append_right _ List.mem_cons_self, rfl⟩

theorem foldl_stageReferrer_spec {src : Key} {field target mappedBy : String} {nullable : Bool} :
    ∀ {rows : List Row} {s s' : Staging}, src ∈ s.doomed →
      (∀ r ∈ rows, r ∈ t.rows ∧ RefersThrough schema src mappedBy r) →
      rows.foldl (stageReferrer src field target mappedBy nullable) s = s' →
      Explores schema t owner loaded src s s' [] ∧ ∀ r ∈ rows, s'.Handles r.key mappedBy
  | [], s, s', _, _, h => by
    subst h
    exact ⟨.refl src s, by simp⟩
  | r :: rows, s, s', hsrc, hrows, h => by
    rw [List.foldl_cons] at h
    obtain ⟨⟨hm, hr⟩, hrest⟩ := List.forall_mem_cons.1 hrows
    obtain ⟨he₁, hh⟩ : Explores schema t owner loaded src s
        (stageReferrer src field target mappedBy nullable s r) [] ∧ _ :=
      stageReferrer_spec hsrc hm hr
    obtain ⟨he₂, hall⟩ := foldl_stageReferrer_spec (he₁.doomed hsrc) hrest h
    refine ⟨he₁.trans he₂, fun r' hr' => ?_⟩
    rcases List.mem_cons.1 hr' with rfl | hr'
    · exact hh.extend he₂.toExtends
    · exact hall r' hr'

theorem explores_stageNull (hlook : Finds t look) {row : Row} {plan : CascadePlan}
    (hplan : CascadePlan.ofClass schema row.kind = .ok plan) {strategy : Strategy}
    (hst : strategy ∈ plan.strategies) {s s' : Staging} (hr : row.key ∈ s.doomed)
    (h : stageNull look schema row s strategy = .ok s') :
    Explores schema t owner loaded row.key s s' [] ∧ s'.Settles t row.key strategy := by
  cases strategy with
  | nullReference field target mappedBy =>
    obtain ⟨related, hscan, hmem⟩ := hlook.scan row.key field (referrers target mappedBy row.key)
      (check_referrers target mappedBy row.key) rfl rfl
    simp only [stageNull, ofExcept_eq, hscan] at h
    obtain ⟨mapping, -, h⟩ := bind_eq_ok.1 h
    simp only [ok_bind, pure_eq_ok, Except.ok.injEq] at h
    have hrows : ∀ r ∈ related, r ∈ t.rows ∧ RefersThrough schema row.key mappedBy r := by
      intro r hr
      obtain ⟨hm, hs⟩ := (hmem r).1 hr
      exact ⟨hm, plan, hplan, field, target, hst, hs⟩
    obtain ⟨he, hall⟩ := foldl_stageReferrer_spec hr hrows h
    exact ⟨he, fun r hm hs => hall r ((hmem r).2 ⟨hm, hs⟩)⟩
  | deleteDependents | reserved =>
    cases h
    exact ⟨.refl row.key s, trivial⟩

theorem explores_stageRelated (hlook : Finds t look) (policy : CascadePolicy)
    {visit : Row → Staging → Except Failure Staging}
    (hv : Explorer schema t owner loaded .empty visit) {fields : LoadedFields} :
    Explorer schema t owner loaded fields (stageRelated look schema policy visit fields) := by
  intro row s s' hrow ho hr h
  simp only [stageRelated, ofExcept_eq] at h
  obtain ⟨plan, hplan, h⟩ := bind_eq_ok.1 h
  obtain ⟨-, -, h⟩ := bind_eq_ok.1 h
  obtain ⟨s₁, h₁, h₂⟩ := bind_eq_ok.1 h
  obtain ⟨new₁, he₁, hdel⟩ := explores_foldlM
    (P := fun strategy s => ∀ child, Resolves t row fields strategy child → child.key ∈ s.doomed)
    (fun _ _ _ hd he child hc => he.doomed (hd child hc))
    (fun strategy hs s s' ho hr h =>
      explores_stageDelete hlook hv hrow hplan (List.mem_filter.1 hs).1 ho hr h) ho hr h₁
  have ho₁ := he₁.doomed ho
  have hr₁ := he₁.doomed hr
  obtain ⟨new₂, he₂, hnull⟩ := explores_foldlM
    (P := fun strategy s => s.Settles t row.key strategy) (fun _ _ _ hd he => hd.extend he)
    (fun strategy hs s s' _ hr h =>
      ⟨[], explores_stageNull hlook hplan (List.mem_filter.1 hs).1 hr h⟩) ho₁ hr₁ h₂
  refine ⟨new₁ ++ new₂, he₁.trans he₂, ?_, ?_⟩
  · intro b hb
    obtain ⟨child, ⟨plan', hplan', strategy, hs, hres⟩, rfl⟩ := (depends_iff hrow).1 hb
    cases hplan.symm.trans hplan'
    exact he₂.doomed (hdel strategy (List.mem_filter.2 ⟨hs, hres.isDelete⟩) child hres)
  · intro plan' hplan' strategy hs
    cases hplan.symm.trans hplan'
    cases strategy with
    | nullReference field target mappedBy => exact hnull _ (List.mem_filter.2 ⟨hs, rfl⟩)
    | deleteDependents | reserved => trivial

/-- A search from a row explores from it and is done with it, if it fails at the bottom. -/
theorem explores_stageWithin (hlook : Finds t look) (policy : CascadePolicy) (e : Failure) :
    ∀ (depth : Nat) (fields : LoadedFields), Explorer schema t owner loaded fields
      (stageWithin look schema policy (fun _ _ => throw e) depth fields)
  | 0, _ => fun _ _ _ h => by cases h
  | depth + 1, fields =>
    explores_stageRelated hlook policy (explores_stageWithin hlook policy e depth .empty)

end Stage
end Cascade
end EntityGraph
