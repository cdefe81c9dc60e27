import EntityGraph.Proofs.Sequencing
import EntityGraph.Query.Evaluation

/-!
# What is unknown may become known

A truth that is not unknown does not depend on what a row lacks: it stays the same whatever the row
is given under the properties that it lacks or holds null. This needs a filter without null tests,
which ask for just that.

* `Truth.Refines`: the same truth, or any truth in place of an unknown one. The connectives keep it;
* `Row.Extends`: a row that holds all that another one holds;
* `Filter.testsForNull`: filters with a null test;
* `Filter.exists_evaluate_refines`: evaluation on a row that holds more tells the same or more;
* `Filter.evaluate_of_extends`: a filter that holds or fails does so on every row that holds more.
-/

namespace EntityGraph

/-! ## Truths -/

/-- `u` is `t`, unless that is unknown. -/
def Truth.Refines (u t : Truth) : Prop := t = .unknown ∨ u = t

namespace Truth.Refines

variable {t t' u u' : Truth}

theorem refl (t : Truth) : t.Refines t := .inr rfl

theorem of_unknown : t.Refines .unknown := .inl rfl

theorem not (h : t'.Refines t) : t'.not.Refines t.not := by
  obtain rfl | rfl := h
  · exact .of_unknown
  · exact .refl _

theorem and (h : t'.Refines t) (h' : u'.Refines u) : (t'.and u').Refines (t.and u) := by
  obtain rfl | rfl := h <;> obtain rfl | rfl := h'
  · exact .of_unknown
  · cases u' <;> cases t' <;> simp [Truth.and, Refines]
  · cases t' <;> cases u' <;> simp [Truth.and, Refines]
  · exact .refl _

theorem or (h : t'.Refines t) (h' : u'.Refines u) : (t'.or u').Refines (t.or u) := by
  obtain rfl | rfl := h <;> obtain rfl | rfl := h'
  · exact .of_unknown
  · cases u' <;> cases t' <;> simp [Truth.or, Refines]
  · cases t' <;> cases u' <;> simp [Truth.or, Refines]
  · exact .refl _

end Truth.Refines

/-! ## Rows and fields -/

/-- A row holds all that another row holds under the same key: each property of that row that is not
null. It may hold anything else besides. -/
structure Row.Extends (row' row : Row) : Prop where
  key : row'.key = row.key
  property : ∀ name v, row.get? name = some v → v ≠ .null → row'.get? name = some v

/-- What a field is on a row, it is on a row that holds more, unless it is null. -/
theorem Field.resolve_of_extends {row row' : Row} (hr : row'.Extends row) {field : Field}
    {v : Value} (h : field.resolve row = some v) (hv : v ≠ .null) :
    field.resolve row' = some v := by
  cases field with
  | property name => exact hr.property name v h hv
  | key => rwa [resolve, hr.key]
  | length name =>
    obtain ⟨u, hu, hlen⟩ := Option.bind_eq_some_iff.1 h
    have hne : u ≠ .null := by
      rintro rfl
      cases hlen
    exact Option.bind_eq_some_iff.2 ⟨u, hr.property name u hu hne, hlen⟩
  | lowercase name =>
    obtain ⟨u, hu, hlow⟩ := Option.bind_eq_some_iff.1 h
    have hne : u ≠ .null := by
      rintro rfl
      simp [Value.lowercase?] at hlow
    exact Option.bind_eq_some_iff.2 ⟨u, hr.property name u hu hne, hlow⟩

/-- A comparison that is no null test tells the same or more where the field holds more. -/
theorem Value.compareField_refines {field field' : Option Value}
    (hf : ∀ v, field = some v → v ≠ .null → field' = some v) {op : Comparator} {w : Value}
    (hop : w = .null → op ≠ .eq ∧ op ≠ .ne) :
    (compareField field' op w).Refines (compareField field op w) := by
  by_cases hw : w = .null
  · obtain ⟨heq, hne⟩ := hop hw
    subst hw
    cases op with
    | eq => exact absurd rfl heq
    | ne => exact absurd rfl hne
    | lt | le | gt | ge | within | startsWith | contains => exact .of_unknown
  · have hn : w.isNull = false := by
      cases w <;> first | rfl | exact absurd rfl hw
    simp only [compareField, hn, Bool.false_eq_true, if_false]
    cases field with
    | none => exact .of_unknown
    | some v =>
      by_cases hv : v = .null
      · subst hv
        simp only [test]
        exact .of_unknown
      · rw [hf v rfl hv]
        exact .refl _

/-! ## Filters -/

namespace Filter

mutual

/-- Whether a filter asks if a field is missing or null. A comparison with null does so. -/
def testsForNull (b : Bindings) : Filter → Bool
  | and parts => anyTestsForNull b parts
  | or parts => anyTestsForNull b parts
  | not part => testsForNull b part
  | compare _ op operand => (op = .eq ∨ op = .ne) && (operand.resolve b matches .ok .null)
  | isNull _ => true
  | isNotNull _ => true
  | under _ => false
  | inSubquery _ _ => false

/-- Whether one of the filters asks if a field is missing or null. -/
def anyTestsForNull (b : Bindings) : List Filter → Bool
  | [] => false
  | f :: fs => testsForNull b f || anyTestsForNull b fs

end

mutual

/-- A filter without null tests tells the same or more of a row that holds more. -/
theorem exists_evaluate_refines {row row' : Row} (hr : row'.Extends row) {b : Bindings} :
    ∀ {f : Filter} {t : Truth}, f.testsForNull b = false → f.evaluate row b = .ok t →
      ∃ t', f.evaluate row' b = .ok t' ∧ t'.Refines t
  | and parts, t, hn, h => by
    rw [testsForNull] at hn
    rw [evaluate] at h ⊢
    exact exists_evaluateAll_refines hr hn h
  | or parts, t, hn, h => by
    rw [testsForNull] at hn
    rw [evaluate] at h ⊢
    exact exists_evaluateAny_refines hr hn h
  | not part, t, hn, h => by
    rw [testsForNull] at hn
    rw [evaluate] at h ⊢
    obtain ⟨u, hu, h⟩ := bind_eq_ok.1 h
    cases h
    obtain ⟨u', hu', hle⟩ := exists_evaluate_refines hr hn hu
    exact ⟨u'.not, by rw [hu']; rfl, hle.not⟩
  | compare field op operand, t, hn, h => by
    rw [evaluate] at h ⊢
    obtain ⟨w, hw, h⟩ := bind_eq_ok.1 h
    cases h
    refine ⟨_, by rw [hw]; rfl, Value.compareField_refines
      (fun v => Field.resolve_of_extends hr) fun hnull => ?_⟩
    subst hnull
    simpa [testsForNull, hw] using hn
  | isNull field, t, hn, h => by simp [testsForNull] at hn
  | isNotNull field, t, hn, h => by simp [testsForNull] at hn
  | under ancestor, t, hn, h => by
    rw [evaluate] at h ⊢
    rw [hr.key]
    exact ⟨t, h, .refl t⟩
  | inSubquery field name, t, hn, h => by
    rw [evaluate] at h ⊢
    cases hm : b.subqueries.get? name with
    | none => simp [hm] at h
    | some members =>
      rw [hm] at h
      cases h
      exact ⟨_, rfl, Value.compareField_refines (fun v => Field.resolve_of_extends hr) nofun⟩

theorem exists_evaluateAll_refines {row row' : Row} (hr : row'.Extends row) {b : Bindings} :
    ∀ {fs : List Filter} {t : Truth}, anyTestsForNull b fs = false →
      evaluateAll row b fs = .ok t → ∃ t', evaluateAll row' b fs = .ok t' ∧ t'.Refines t
  | [], t, _, h => by
    rw [evaluateAll] at h ⊢
    exact ⟨t, h, .refl t⟩
  | f :: fs, t, hn, h => by
    rw [anyTestsForNull, Bool.or_eq_false_iff] at hn
    rw [evaluateAll] at h ⊢
    obtain ⟨u, hu, h⟩ := bind_eq_ok.1 h
    obtain ⟨us, hus, h⟩ := bind_eq_ok.1 h
    cases h
    obtain ⟨u', hu', hle⟩ := exists_evaluate_refines hr hn.1 hu
    obtain ⟨us', hus', hles⟩ := exists_evaluateAll_refines hr hn.2 hus
    exact ⟨u'.and us', by rw [hu', hus']; rfl, hle.and hles⟩

theorem exists_evaluateAny_refines {row row' : Row} (hr : row'.Extends row) {b : Bindings} :
    ∀ {fs : List Filter} {t : Truth}, anyTestsForNull b fs = false →
      evaluateAny row b fs = .ok t → ∃ t', evaluateAny row' b fs = .ok t' ∧ t'.Refines t
  | [], t, _, h => by
    rw [evaluateAny] at h ⊢
    exact ⟨t, h, .refl t⟩
  | f :: fs, t, hn, h => by
    rw [anyTestsForNull, Bool.or_eq_false_iff] at hn
    rw [evaluateAny] at h ⊢
    obtain ⟨u, hu, h⟩ := bind_eq_ok.1 h
    obtain ⟨us, hus, h⟩ := bind_eq_ok.1 h
    cases h
    obtain ⟨u', hu', hle⟩ := exists_evaluate_refines hr hn.1 hu
    obtain ⟨us', hus', hles⟩ := exists_evaluateAny_refines hr hn.2 hus
    exact ⟨u'.or us', by rw [hu', hus']; rfl, hle.or hles⟩

end

/-- A filter without null tests that holds on a row, or fails on it, does the same on every row that
has the same key and the same properties, those aside that the first one lacks or holds null. -/
theorem evaluate_of_extends {row row' : Row} (hr : row'.Extends row) {b : Bindings} {f : Filter}
    (hn : f.testsForNull b = false) {t : Truth} (h : f.evaluate row b = .ok t) :
    ∃ t', f.evaluate row' b = .ok t' ∧ (t = .holds → t' = .holds) ∧ (t = .fails → t' = .fails) := by
  obtain ⟨t', ht', hunknown | rfl⟩ := exists_evaluate_refines hr hn h
  · subst hunknown
    exact ⟨t', ht', nofun, nofun⟩
  · exact ⟨t', ht', id, id⟩

/-- A player without a score. -/
def sampleNewcomer : Row where
  key := .single ⟨"Player", some (.number 2)⟩ ⟨by simp, by simp⟩
  properties := SortedMap.empty.insert "name" (.text "Ann")

/-- Whether a player has a score below 3, or is not called Bea. -/
def sampleOpenFilter : Filter :=
  or [compare (.property "score") .lt (.literal (.int 3)),
    not (compare (.property "name") .eq (.literal (.text "Bea")))]

theorem evaluate_of_extends_sample :
    (sampleNewcomer.set "score" (.int 5)).Extends sampleNewcomer ∧
      sampleOpenFilter.testsForNull {} = false ∧
      sampleOpenFilter.evaluate sampleNewcomer {} = .ok .holds ∧
      sampleOpenFilter.evaluate (sampleNewcomer.set "score" (.int 5)) {} = .ok .holds := by
  have hr : (sampleNewcomer.set "score" (.int 5)).Extends sampleNewcomer := by
    refine ⟨rfl, fun name v h _ => ?_⟩
    have hname : name ≠ "score" := by
      rintro rfl
      exact absurd (h.symm.trans (rfl : sampleNewcomer.get? "score" = none)) nofun
    rw [Row.get?_set, if_neg hname, h]
  have hn : sampleOpenFilter.testsForNull {} = false := rfl
  have heval : sampleOpenFilter.evaluate sampleNewcomer {} = .ok .holds := rfl
  obtain ⟨t, ht, hholds, -⟩ := evaluate_of_extends hr hn heval
  exact ⟨hr, hn, heval, by rw [ht, hholds rfl]⟩

end Filter
end EntityGraph
