import Mathlib.Data.List.Nodup
import Mathlib.Data.List.Perm.Subperm
import EntityGraph.Cascade.Plan
import EntityGraph.Proofs.Sequencing

/-!
# The walk up the superclasses

The lineage of a class is the walk from it along the superclasses, if that walk ends. It need not
end: the superclasses may form a cycle, which the walk may enter from outside, or one of them may be
missing.

* `Schema.Walk`: a walk, which takes no heed of the classes that it has passed already;
* `Schema.Walk.comparable`: of two walks from one name the longer goes on from the shorter;
* `Schema.Walk.nodup_of_stuck`: a walk that cannot go on has passed no class twice;
* `Schema.finds_lineage`: the search for the lineage stops on the walk, at its end, at the first
  class that it comes back to or at a name without a class. It is never cut short by its bound, as a
  walk without repetitions passes each class of the schema at most once;
* `Schema.followsSuperclasses`: when there is a lineage and which failure there is otherwise, and
  how the plans of a class and its superclass go together.
-/

namespace EntityGraph
namespace Schema

variable {s : Schema} {name : String} {a e e' : Option String} {p p' q : List EntityClass}

/-! ## Walks -/

/-- A walk up the superclasses from a name, or from nowhere: the classes that it passes, and the
name that comes next, if one does. -/
inductive Walk (s : Schema) : Option String → List EntityClass → Option String → Prop where
  | stay (a : Option String) : Walk s a [] a
  | climb {name : String} {c : EntityClass} {p : List EntityClass} {e : Option String} :
    s.class? name = some c → Walk s c.superclass p e → Walk s (some name) (c :: p) e

/-- There is no class to go to: a name without a class comes next, or none. -/
def Stuck (s : Schema) (e : Option String) : Prop := e.bind s.class? = none

theorem name_of_class? {c : EntityClass} (h : s.class? name = some c) : c.name = name := by
  simpa using List.find?_some h

namespace Walk

theorem class?_of_mem (h : s.Walk a p e) : ∀ c ∈ p, s.class? c.name = some c := by
  induction h with
  | stay => exact fun _ hc => absurd hc List.not_mem_nil
  | climb hc _ ih => exact List.forall_mem_cons.2 ⟨name_of_class? hc ▸ hc, ih⟩

/-- A walk goes on to the class whose name comes next. -/
theorem snoc {c : EntityClass} (h : s.Walk a p (some name)) (hc : s.class? name = some c) :
    s.Walk a (p ++ [c]) c.superclass := by
  generalize he : some name = e at h
  induction h with
  | stay => exact he ▸ .climb hc (.stay _)
  | climb hd _ ih => exact .climb hd (ih he)

theorem split : ∀ {p : List EntityClass} {a : Option String},
    s.Walk a (p ++ q) e → ∃ m, s.Walk a p m ∧ s.Walk m q e
  | [], a, h => ⟨a, .stay a, h⟩
  | _ :: _, _, .climb hc h => by
    obtain ⟨m, hp, hq⟩ := split h
    exact ⟨m, .climb hc hp, hq⟩

/-- Of two walks from one name the longer goes on from the shorter. -/
theorem comparable (h : s.Walk a p e) (h' : s.Walk a p' e') :
    (∃ q, p' = p ++ q ∧ s.Walk e q e') ∨ ∃ q, p = p' ++ q ∧ s.Walk e' q e := by
  induction h generalizing p' with
  | stay => exact .inl ⟨p', rfl, h'⟩
  | climb hc h ih =>
    cases h' with
    | stay => exact .inr ⟨_, rfl, .climb hc h⟩
    | climb hc' h' =>
      obtain rfl := Option.some.inj (hc.symm.trans hc')
      obtain ⟨q, rfl, hq⟩ | ⟨q, rfl, hq⟩ := ih h'
      · exact .inl ⟨q, rfl, hq⟩
      · exact .inr ⟨q, rfl, hq⟩

theorem of_stuck (h : s.Walk e q e') (he : s.Stuck e) : q = [] ∧ e' = e := by
  cases h with
  | stay => exact ⟨rfl, rfl⟩
  | climb hc _ => cases hc.symm.trans he

/-- A walk that cannot go on is as long as any. -/
theorem extends_of_stuck (h : s.Walk a p e) (he : s.Stuck e) (h' : s.Walk a p' e') :
    ∃ q, p = p' ++ q ∧ s.Walk e' q e := by
  obtain ⟨q, rfl, hq⟩ | h := h.comparable h'
  · obtain ⟨rfl, rfl⟩ := hq.of_stuck he
    exact ⟨[], (List.append_nil _).symm ▸ (List.append_nil _).symm, .stay _⟩
  · exact h

/-- There is one walk from a name that cannot go on, if any. -/
theorem eq_of_stuck (h : s.Walk a p e) (he : s.Stuck e) (h' : s.Walk a p' e') (he' : s.Stuck e') :
    p = p' ∧ e = e' := by
  obtain ⟨q, rfl, hq⟩ := h.extends_of_stuck he h'
  obtain ⟨rfl, rfl⟩ := hq.of_stuck he'
  exact ⟨List.append_nil _, rfl⟩

/-- A walk that cannot go on has passed no class twice. -/
theorem nodup_of_stuck (h : s.Walk a p e) (he : s.Stuck e) : (p.map (·.name)).Nodup := by
  induction h with
  | stay => exact .nil
  | @climb name c p e hc h ih =>
    refine List.nodup_cons.2 ⟨fun hmem => ?_, ih he⟩
    obtain ⟨d, hd, hname⟩ := List.mem_map.1 hmem
    obtain ⟨before, after, rfl⟩ := List.append_of_mem hd
    obtain ⟨m, -, hback⟩ := h.split
    -- Back at the class, the walk would go on as it did the first time, and so be shorter than
    -- itself.
    cases hback with
    | @climb name' _ _ _ hd' hafter =>
      obtain rfl : name' = name :=
        (name_of_class? hd').symm.trans (hname.trans (name_of_class? hc))
      have hlength := congrArg List.length
        (eq_of_stuck (.climb hc h) he (.climb hd' hafter) he).1
      simp only [List.length_cons, List.length_append] at hlength
      omega

/-- If a walk cannot go on, no walk from the same name passes a class twice. -/
theorem nodup_of_extends (h : s.Walk a p e) (he : s.Stuck e) (h' : s.Walk a p' e') :
    (p'.map (·.name)).Nodup := by
  obtain ⟨q, rfl, -⟩ := h.extends_of_stuck he h'
  exact (h.nodup_of_stuck he).sublist ((List.sublist_append_left p' q).map _)

/-- A walk that comes back to a class passes it twice if it goes on. -/
theorem exists_not_nodup {d : String} (h : s.Walk a p (some d)) (hd : d ∈ p.map (·.name)) :
    ∃ p' e', s.Walk a p' e' ∧ ¬(p'.map (·.name)).Nodup := by
  obtain ⟨c, hc, rfl⟩ := List.mem_map.1 hd
  refine ⟨_, _, h.snoc (h.class?_of_mem c hc), fun hnodup => ?_⟩
  rw [List.map_append, List.nodup_append] at hnodup
  exact hnodup.2.2 _ hd _ List.mem_cons_self rfl

/-- There is one class to which a walk comes back first. -/
theorem first_return {d d' : String} (h : s.Walk a p (some d)) (hn : (p.map (·.name)).Nodup)
    (hd : d ∈ p.map (·.name)) (h' : s.Walk a p' (some d')) (hn' : (p'.map (·.name)).Nodup)
    (hd' : d' ∈ p'.map (·.name)) : d = d' := by
  have hback : ∀ {p q : List EntityClass} {d d' : String}, d ∈ p.map (·.name) →
      ((p ++ q).map (·.name)).Nodup → s.Walk (some d) q (some d') → d = d' := by
    intro p q d d' hd hn hq
    cases hq with
    | stay => rfl
    | climb hc _ =>
      rw [List.map_append, List.nodup_append] at hn
      exact absurd (name_of_class? hc).symm (hn.2.2 _ hd _ List.mem_cons_self)
  obtain ⟨q, rfl, hq⟩ | ⟨q, rfl, hq⟩ := h.comparable h'
  · exact hback hd hn' hq
  · exact (hback hd' hn hq).symm

/-- A walk without repetitions passes no more classes than there are. -/
theorem length_le_size (h : s.Walk a p e) (hn : (p.map (·.name)).Nodup) : p.length ≤ s.size :=
  (hn.of_map.subperm fun c hc =>
    List.mem_of_find?_eq_some (h.class?_of_mem c hc)).length_le

end Walk

/-! ## The search for the lineage -/

/-- What is to be found on the walk from a name: its end, the first class that it comes back to, or
a name without a class. -/
inductive Finds (s : Schema) (name : String) : Except Failure (List EntityClass) → Prop where
  | lineage {p : List EntityClass} : s.Walk (some name) p none → Finds s name (.ok p)
  | cycle {p : List EntityClass} {d : String} : s.Walk (some name) p (some d) →
    (p.map (·.name)).Nodup → d ∈ p.map (·.name) →
    Finds s name (.error (.inheritanceCycle d name))
  | missing {p : List EntityClass} {d : String} : s.Walk (some name) p (some d) →
    s.class? d = none → Finds s name (.error (.unknownClass d name))

theorem Finds.unique {r r' : Except Failure (List EntityClass)} (h : s.Finds name r)
    (h' : s.Finds name r') : r = r' := by
  have hcycle : ∀ {p p' : List EntityClass} {d : String} {e : Option String},
      s.Walk (some name) p (some d) → d ∈ p.map (·.name) → s.Walk (some name) p' e →
      ¬s.Stuck e := by
    intro p p' d e h hd h' he
    obtain ⟨p₂, e₂, h₂, hn₂⟩ := h.exists_not_nodup hd
    exact hn₂ (h'.nodup_of_extends he h₂)
  cases h with
  | lineage h =>
    cases h' with
    | lineage h' => rw [(h.eq_of_stuck rfl h' rfl).1]
    | cycle h' _ hd' => exact absurd rfl (hcycle h' hd' h)
    | missing h' hd' => cases (h.eq_of_stuck rfl h' hd').2
  | cycle h hn hd =>
    cases h' with
    | lineage h' => exact absurd rfl (hcycle h hd h')
    | cycle h' hn' hd' => rw [h.first_return hn hd h' hn' hd']
    | missing h' hd' => exact absurd hd' (hcycle h hd h')
  | missing h hd =>
    cases h' with
    | lineage h' => cases (h.eq_of_stuck hd h' rfl).2
    | cycle h' _ hd' => exact absurd hd (hcycle h' hd' h)
    | missing h' hd' => rw [Option.some.inj (h.eq_of_stuck hd h' hd').2]

-- The induction is on the bound; the classes visited so far are a walk without repetitions, which
-- leaves room for another class as long as the bound has not run out.
theorem finds_lineageFrom {fuel : Nat} {visited : List EntityClass} {current : String}
    (hfuel : s.size < fuel + visited.length) (h : s.Walk (some name) visited (some current))
    (hn : (visited.map (·.name)).Nodup) :
    s.Finds name (s.lineageFrom name fuel visited current) := by
  induction fuel generalizing visited current with
  | zero =>
    have := h.length_le_size hn
    omega
  | succ fuel ih =>
    rw [lineageFrom]
    by_cases hcurrent : current ∈ visited.map (·.name)
    · rw [if_pos (by simpa using hcurrent)]
      exact .cycle h hn hcurrent
    · rw [if_neg (by simpa using hcurrent)]
      cases hc : s.class? current with
      | none => exact .missing h hc
      | some c =>
        have hsnoc := h.snoc hc
        simp only
        cases hsuper : c.superclass with
        | none => exact .lineage (hsuper ▸ hsnoc)
        | some next =>
          refine ih ?_ (hsuper ▸ hsnoc) ?_
          · simp only [List.length_append, List.length_cons, List.length_nil]
            omega
          · rw [List.map_append, List.map_singleton, name_of_class? hc]
            exact List.concat_eq_append ▸ hn.concat hcurrent

theorem finds_lineage (s : Schema) (name : String) : s.Finds name (s.lineage name) :=
  finds_lineageFrom (by simp) (.stay _) .nil

theorem lineage_eq_iff {r : Except Failure (List EntityClass)} :
    s.lineage name = r ↔ s.Finds name r :=
  ⟨fun h => h ▸ s.finds_lineage name, (s.finds_lineage name).unique⟩

/-! ## Lineages and plans -/

theorem lineage_eq_ok_iff {chain : List EntityClass} :
    s.lineage name = .ok chain ↔ s.Walk (some name) chain none :=
  lineage_eq_iff.trans ⟨fun | .lineage h => h, .lineage⟩

theorem lineage_eq_missing_iff {d : String} :
    s.lineage name = .error (.unknownClass d name) ↔
      ∃ passed, s.Walk (some name) passed (some d) ∧ s.class? d = none :=
  lineage_eq_iff.trans ⟨fun | .missing h hd => ⟨_, h, hd⟩, fun ⟨_, h, hd⟩ => .missing h hd⟩

theorem lineage_eq_cycle_iff {d : String} :
    s.lineage name = .error (.inheritanceCycle d name) ↔
      ∃ passed, s.Walk (some name) passed (some d) ∧ (passed.map (·.name)).Nodup ∧
        d ∈ passed.map (·.name) :=
  lineage_eq_iff.trans
    ⟨fun | .cycle h hn hd => ⟨_, h, hn, hd⟩, fun ⟨_, h, hn, hd⟩ => .cycle h hn hd⟩

/-- There is a cycle exactly if the walk passes a class twice. -/
theorem exists_cycle_iff : (∃ d, s.lineage name = .error (.inheritanceCycle d name)) ↔
    ∃ passed next, s.Walk (some name) passed next ∧ ¬(passed.map (·.name)).Nodup := by
  constructor
  · rintro ⟨d, h⟩
    obtain ⟨passed, hwalk, -, hd⟩ := lineage_eq_cycle_iff.1 h
    exact hwalk.exists_not_nodup hd
  · rintro ⟨passed, next, hwalk, hn⟩
    have hfinds := s.finds_lineage name
    generalize s.lineage name = found at hfinds ⊢
    cases hfinds with
    | lineage h => exact absurd (h.nodup_of_extends rfl hwalk) hn
    | cycle => exact ⟨_, rfl⟩
    | missing h hd => exact absurd (h.nodup_of_extends hd hwalk) hn

/-- The lineage of a class is the class and the lineage of its superclass. -/
theorem lineage_eq_ok_cons {chain : List EntityClass} (h : s.lineage name = .ok chain) :
    ∃ c above, s.class? name = some c ∧ chain = c :: above ∧
      (c.superclass = none → above = []) ∧
      ∀ super, c.superclass = some super → s.lineage super = .ok above := by
  cases lineage_eq_ok_iff.1 h with
  | @climb _ c above _ hc hwalk =>
    refine ⟨c, above, hc, rfl, fun hsuper => ?_, fun super hsuper => ?_⟩
    · exact ((hsuper ▸ hwalk).of_stuck rfl).1
    · exact lineage_eq_ok_iff.2 (hsuper ▸ hwalk)

/-- How the lineage of a class comes out. -/
structure FollowsSuperclasses (s : Schema) (name : String) : Prop where
  /-- The lineage is the walk to a class without a superclass, if there is such a walk. -/
  ok_iff : ∀ chain, s.lineage name = .ok chain ↔ s.Walk (some name) chain none
  nodup : ∀ chain, s.lineage name = .ok chain → (chain.map (·.name)).Nodup
  /-- There is a cycle exactly if the walk passes a class twice. -/
  cycle_iff : (∃ d, s.lineage name = .error (.inheritanceCycle d name)) ↔
    ∃ passed next, s.Walk (some name) passed next ∧ ¬(passed.map (·.name)).Nodup
  /-- A cycle is told by the first class that the walk comes back to. -/
  first : ∀ d, s.lineage name = .error (.inheritanceCycle d name) ↔
    ∃ passed, s.Walk (some name) passed (some d) ∧ (passed.map (·.name)).Nodup ∧
      d ∈ passed.map (·.name)
  missing_iff : ∀ d, s.lineage name = .error (.unknownClass d name) ↔
    ∃ passed, s.Walk (some name) passed (some d) ∧ s.class? d = none
  /-- There is no other failure. -/
  error : ∀ f, s.lineage name = .error f → f.report.category = .configuration ∧
    ((∃ d, f = .inheritanceCycle d name) ∨ ∃ d, f = .unknownClass d name)
  /-- The search ends by itself: a greater bound on the classes that it visits changes nothing. -/
  ends : ∀ fuel, s.size < fuel → s.lineageFrom name fuel [] name = s.lineage name
  /-- The plan of a class that has a lineage: its own fields, and the plan of its superclass. -/
  plan : ∀ chain, s.lineage name = .ok chain → ∃ c plan,
    s.class? name = some c ∧ CascadePlan.ofClass s name = .ok plan ∧
    (c.superclass = none → plan.strategies = c.fields.filterMap Strategy.ofField?) ∧
    ∀ super, c.superclass = some super → ∃ above, CascadePlan.ofClass s super = .ok above ∧
      plan.strategies = c.fields.filterMap Strategy.ofField? ++ above.strategies

theorem followsSuperclasses (s : Schema) (name : String) : s.FollowsSuperclasses name where
  ok_iff _ := lineage_eq_ok_iff
  nodup _ h := (lineage_eq_ok_iff.1 h).nodup_of_stuck rfl
  cycle_iff := exists_cycle_iff
  first _ := lineage_eq_cycle_iff
  missing_iff _ := lineage_eq_missing_iff
  error f h := by
    cases lineage_eq_iff.1 h with
    | cycle => exact ⟨rfl, .inl ⟨_, rfl⟩⟩
    | missing => exact ⟨rfl, .inr ⟨_, rfl⟩⟩
  ends fuel hfuel := (finds_lineageFrom (by simpa using hfuel) (.stay _) .nil).unique
    (s.finds_lineage name)
  plan chain h := by
    obtain ⟨c, above, hc, rfl, hnone, hsome⟩ := lineage_eq_ok_cons h
    refine ⟨c, _, hc, by rw [CascadePlan.ofClass, h]; rfl, fun hsuper => ?_, fun super hsuper => ?_⟩
    · rw [hnone hsuper]
      exact List.append_nil _
    · exact ⟨_, by rw [CascadePlan.ofClass, hsome super hsuper]; rfl, rfl⟩

/-- A class outside of the cycle that its superclasses form. -/
example : lineage ⟨[
    { name := "A", superclass := some "B" },
    { name := "B", superclass := some "A" },
    { name := "C", superclass := some "A" }], by decide⟩ "C" =
      .error (.inheritanceCycle "A" "C") := rfl

end Schema
end EntityGraph
