import EntityGraph.Proofs.Cascade.Verdict

/-!
# The steps of a search

The search for what a cascade writes dooms rows, stages their deletes and deals with the rows that
refer to them. In which order depends on the order of the fields and of the rows, so that what is
to hold of every search is proved for a single step.

* `Cascade.BackReference`: a stored row refers to another one through a relation that is nulled;
* `Cascade.Step`: a step of a search;
* `Cascade.Advances`: a part of a search makes steps. Parts in sequence are a part
  (`Advances.bind`, `Advances.foldlM`);
* `Cascade.advances_stageWithin`: a search makes steps, or fails for the schema or for a join field.
-/

open Relation (ReflTransGen)

namespace EntityGraph

namespace Cascade

/-- A class has a strategy, for a field of its own or of a superclass. -/
def HasStrategy (schema : Schema) (kind : String) (strategy : Strategy) : Prop :=
  ∃ plan, CascadePlan.ofClass schema kind = .ok plan ∧ strategy ∈ plan.strategies

/-- The stored row `r` refers to `k` in a field that a null strategy of the class of `k` maps by,
and that the class of `r` declares as `mapping`. -/
structure BackReference (schema : Schema) (t : RowTable) (k : Key)
    (field target mappedBy : String) (mapping : ClassField) (r : Row) : Prop where
  strategy : HasStrategy schema k.kind (.nullReference field target mappedBy)
  declared : schema.field? target mappedBy = .ok (some mapping)
  stored : r ∈ t.rows
  selected : (referrers target mappedBy k).selects r

theorem mappedField_eq_ok {schema : Schema} {kind field target mappedBy : String}
    {mapping : ClassField} (h : mappedField schema kind field target mappedBy = .ok mapping) :
    schema.field? target mappedBy = .ok (some mapping) := by
  unfold mappedField at h
  obtain ⟨declared, hf, h⟩ := bind_eq_ok.1 h
  cases declared <;> cases h
  exact hf

/-- A step of a search: a stored row is doomed, the delete of a doomed row is staged, or a row that
refers to a doomed one is dealt with. -/
inductive Step (schema : Schema) (t : RowTable) : Staging → Staging → Prop where
  | doom {s child} : child ∈ t.rows →
      Step schema t s { s with doomed := child.key :: s.doomed }
  | delete {s} {d : StagedDelete} : d.key ∈ s.doomed →
      Step schema t s { s with deletes := s.deletes ++ [d] }
  | refer {s k field target mappedBy mapping related} : k ∈ s.doomed →
      BackReference schema t k field target mappedBy mapping related →
      Step schema t s (stageReferrer k field target mappedBy mapping.nullable s related)

section Steps

variable {schema : Schema} {t : RowTable}

@[simp] theorem doomed_stageReferrer (k : Key) (field target mappedBy : String) (nullable : Bool)
    (s : Staging) (related : Row) :
    (stageReferrer k field target mappedBy nullable s related).doomed = s.doomed := by
  unfold stageReferrer
  split
  · rfl
  · split
    · exact s.doomed_addNull related mappedBy
    · rfl

theorem doomed_foldl_stageReferrer {k : Key} {field target mappedBy : String} {nullable : Bool} :
    ∀ {rows : List Row} {s : Staging},
      (rows.foldl (stageReferrer k field target mappedBy nullable) s).doomed = s.doomed
  | [], _ => rfl
  | r :: rows, s => by
    rw [List.foldl_cons, doomed_foldl_stageReferrer, doomed_stageReferrer]

theorem Step.doomed {s s' : Staging} (h : Step schema t s s') {k : Key} (hk : k ∈ s.doomed) :
    k ∈ s'.doomed := by
  cases h with
  | doom _ => exact List.mem_cons_of_mem _ hk
  | delete _ => exact hk
  | refer _ _ => rwa [doomed_stageReferrer]

/-- What is doomed stays doomed. -/
theorem doomed_of_steps {s s' : Staging} (h : ReflTransGen (Step schema t) s s') {k : Key}
    (hk : k ∈ s.doomed) : k ∈ s'.doomed := by
  induction h with
  | refl => exact hk
  | tail _ hstep ih => exact hstep.doomed ih

end Steps

/-! ## Parts of a search -/

/-- A failure of the schema, or for a join field that holds something. -/
def Declines (e : Failure) : Prop :=
  e.report.category = .configuration ∨
    ∃ owner kind field, e = .cascade (.joinField owner kind field)

/-- A part of a search from a staging makes steps, and fails only as `E` says. -/
structure Advances (schema : Schema) (t : RowTable) (E : Failure → Prop) (s : Staging)
    (x : Except Failure Staging) : Prop where
  of_ok : ∀ {s'}, x = .ok s' → ReflTransGen (Step schema t) s s'
  of_error : ∀ {e}, x = .error e → E e

section Parts

variable {schema : Schema} {t : RowTable} {E : Failure → Prop}

namespace Advances

variable {s s₁ : Staging}

theorem refl (s : Staging) : Advances schema t E s (.ok s) where
  of_ok h := by
    cases h
    exact .refl
  of_error h := by cases h

theorem error {e : Failure} (he : E e) : Advances schema t E s (.error e) where
  of_ok h := by cases h
  of_error h := by
    cases h
    exact he

/-- Steps before a part of a search. -/
theorem head {x : Except Failure Staging} (h : ReflTransGen (Step schema t) s s₁)
    (hx : Advances schema t E s₁ x) : Advances schema t E s x :=
  ⟨fun hok => h.trans (hx.of_ok hok), hx.of_error⟩

theorem bind {x : Except Failure Staging} {f : Staging → Except Failure Staging}
    (hx : Advances schema t E s x)
    (hf : ∀ s', ReflTransGen (Step schema t) s s' → Advances schema t E s' (f s')) :
    Advances schema t E s (x >>= f) := by
  cases hs : x with
  | error e => exact .error (hx.of_error hs)
  | ok s' => exact (hf s' (hx.of_ok hs)).head (hx.of_ok hs)

/-- A part of a search after a check. -/
theorem check {α : Type} {x : Except Failure α} {f : α → Except Failure Staging}
    (hx : ∀ e, x = .error e → E e) (hf : ∀ a, x = .ok a → Advances schema t E s (f a)) :
    Advances schema t E s (x >>= f) := by
  cases ha : x with
  | error e => exact .error (hx e ha)
  | ok a => exact hf a ha

/-- Parts of a search for a doomed row, one after the other. -/
theorem foldlM {α : Type} {f : Staging → α → Except Failure Staging} {src : Key} :
    ∀ {as : List α} {s : Staging},
      (∀ a ∈ as, ∀ s, src ∈ s.doomed → Advances schema t E s (f s a)) → src ∈ s.doomed →
      Advances schema t E s (as.foldlM f s)
  | [], s, _, _ => .refl s
  | a :: as, s, hf, hsrc => by
    rw [List.foldlM_cons]
    refine (hf a List.mem_cons_self s hsrc).bind fun s' hs' => ?_
    exact foldlM (fun b hb => hf b (List.mem_cons_of_mem _ hb)) (doomed_of_steps hs' hsrc)

end Advances

variable {look : Lookup (Except Failure)} (hlook : Finds t look)
  (hE : ∀ e, Declines e → E e)

theorem advances_stageDependent {visit : Row → Staging → Except Failure Staging}
    (hvisit : ∀ row s, row.key ∈ s.doomed → Advances schema t E s (visit row s)) {child : Row}
    (hc : child ∈ t.rows) (field : String) (s : Staging) :
    Advances schema t E s (stageDependent visit field s child) := by
  unfold stageDependent
  split
  · exact .refl s
  · refine .head (.single (.doom hc)) ?_
    refine (hvisit child _ List.mem_cons_self).bind fun s' hs' => ?_
    exact .head (.single (.delete (doomed_of_steps hs' List.mem_cons_self))) (.refl _)

/-- Dealing with rows that refer to a doomed row makes a step for each of them. -/
theorem steps_foldl_stageReferrer {k : Key} {field target mappedBy : String}
    {mapping : ClassField} : ∀ {rows : List Row} {s : Staging}, k ∈ s.doomed →
      (∀ r ∈ rows, BackReference schema t k field target mappedBy mapping r) →
      ReflTransGen (Step schema t) s
        (rows.foldl (stageReferrer k field target mappedBy mapping.nullable) s)
  | [], s, _, _ => .refl
  | r :: rows, s, hk, hrows => by
    obtain ⟨hr, hrest⟩ := List.forall_mem_cons.1 hrows
    refine .head (.refer hk hr) ?_
    refine steps_foldl_stageReferrer ?_ hrest
    rwa [doomed_stageReferrer]

include hlook

theorem advances_stageDelete {visit : Row → Staging → Except Failure Staging}
    (hvisit : ∀ row s, row.key ∈ s.doomed → Advances schema t E s (visit row s))
    (fields : LoadedFields) (row : Row) {s : Staging} (hs : row.key ∈ s.doomed)
    (strategy : Strategy) :
    Advances schema t E s (stageDelete look visit fields row s strategy) := by
  cases strategy with
  | deleteDependents field target owned mappedBy =>
    obtain ⟨children, hdep, hmem⟩ := dependents_eq hlook row fields field target owned mappedBy
    simp only [stageDelete, hdep, ok_bind]
    refine .foldlM (fun child hc s _ => ?_) hs
    exact advances_stageDependent hvisit ((hmem child).1 hc).mem_rows field s
  | nullReference | reserved => exact .refl s

include hE

theorem advances_stageNull {row : Row} {strategy : Strategy}
    (hstrategy : HasStrategy schema row.kind strategy) {s : Staging} (hs : row.key ∈ s.doomed) :
    Advances schema t E s (stageNull look schema row s strategy) := by
  cases strategy with
  | nullReference field target mappedBy =>
    obtain ⟨related, hscan, hmem⟩ := hlook.scan row.key field (referrers target mappedBy row.key)
      (check_referrers target mappedBy row.key) rfl rfl
    simp only [stageNull, ofExcept_eq, hscan, ok_bind]
    refine .check (fun e he => hE e (.inl (mappedField_error he))) fun mapping hmapping => ?_
    refine .head (steps_foldl_stageReferrer hs fun r hr => ?_) (.refl _)
    obtain ⟨hm, hsel⟩ := (hmem r).1 hr
    exact ⟨hstrategy, mappedField_eq_ok hmapping, hm, hsel⟩
  | deleteDependents | reserved => exact .refl s

theorem advances_stageRelated (policy : CascadePolicy)
    {visit : Row → Staging → Except Failure Staging}
    (hvisit : ∀ row s, row.key ∈ s.doomed → Advances schema t E s (visit row s))
    (fields : LoadedFields) (row : Row) (s : Staging) (hs : row.key ∈ s.doomed) :
    Advances schema t E s (stageRelated look schema policy visit fields row s) := by
  simp only [stageRelated, ofExcept_eq]
  refine .check (fun e he => hE e (.inl (ofClass_error he))) fun plan hplan => ?_
  have hreserved : ∀ e, plan.reserved.forM
      (fun strategy => checkReserved policy row strategy.field) = .error e → E e := by
    intro e he
    obtain ⟨strategy, -, hc⟩ := exists_of_forM_error he
    exact hE e (.inr ⟨_, _, _, checkReserved_eq_error hc⟩)
  refine .check hreserved fun _ _ => ?_
  refine Advances.bind (.foldlM (fun strategy _ s hs => ?_) hs) fun s' hs' => ?_
  · exact advances_stageDelete hlook hvisit fields row hs strategy
  · refine .foldlM (fun strategy hst s hs => ?_) (doomed_of_steps hs' hs)
    exact advances_stageNull hlook hE ⟨plan, hplan, (List.mem_filter.1 hst).1⟩ hs

/-- A search makes steps, and fails only as its bottom does, for the schema or for a join field. -/
theorem advances_stageWithin (policy : CascadePolicy)
    {bottom : Row → Staging → Except Failure Staging}
    (hbottom : ∀ row s, Advances schema t E s (bottom row s)) :
    ∀ (depth : Nat) (fields : LoadedFields) (row : Row) (s : Staging), row.key ∈ s.doomed →
      Advances schema t E s (stageWithin look schema policy bottom depth fields row s)
  | 0, _ => fun row s _ => hbottom row s
  | depth + 1, fields =>
    advances_stageRelated hlook hE policy (advances_stageWithin policy hbottom depth .empty) fields

end Parts

/-! ## Whole searches -/

/-- A search that succeeds has made steps. -/
theorem steps_of_search {schema : Schema} {t : RowTable} {look : Lookup (Except Failure)}
    (hlook : Finds t look) {policy : CascadePolicy} {depth : Nat} {loaded : LoadedFields}
    {owner : Row} {s : Staging} (h : search look schema policy depth loaded owner = .ok s) :
    ReflTransGen (Step schema t) { doomed := [owner.key] } s :=
  (advances_stageWithin (E := fun _ => True) hlook (fun _ _ => trivial) policy
    (fun _ _ => .error trivial) depth loaded owner _ List.mem_cons_self).of_ok h

/-- Without faults, a search fails only for the schema or for a join field. -/
theorem declines_of_search {schema : Schema} {policy : CascadePolicy} {loaded : LoadedFields}
    {owner : Row} {ctx : Context} (hf : ctx.store.faults = []) {e : Failure}
    (h : search (tableLookup ctx.store.table) schema policy (ctx.store.size + 1) loaded owner =
      .error e) : Declines e := by
  rw [search_eq_stageRow hf] at h
  exact (advances_stageWithin (finds_tableLookup _) (fun _ => id) policy (fun _ s => .refl s) _
    loaded owner _ List.mem_cons_self).of_error h

end Cascade
end EntityGraph
