import EntityGraph.Proofs.Query.Pushdown
import EntityGraph.Proofs.Value.Rounding

/-!
# What a filter says of a row

A filter may definitely hold on a row and it may definitely fail on it. Each is a relation of its
own, built up from what the parts of the filter do, and neither knows of a third truth. Evaluation
in memory tells the two, and is unknown where a filter does neither.

* `Value.order?_eq_some`: which values filters order, and how;
* `Comparator.Applies`, `Comparator.Asks`: when a comparison of a scalar has an answer, and what it
  asks;
* `Value.Satisfies`, `Value.Violates`: comparisons of values, lists among them;
* `Value.FieldSatisfies`, `Value.FieldViolates`: comparisons of fields, which may be missing;
* `Filter.Holds`, `Filter.Fails`: filters on rows;
* `Truth.Says`: a truth that tells whether one statement holds or another one does, and how the
  connectives keep that;
* `Filter.evaluate_tells`: the evaluation of a valid filter tells whether it holds or fails.
-/

namespace EntityGraph

/-! ## Values -/

namespace Value

/-- Whether a value is one of its own, neither null nor a list. -/
def isScalar : Value → Bool
  | null => false
  | list _ => false
  | _ => true

def isNaN : Value → Bool
  | float d => d.isNaN
  | _ => false

/-- Filters order two scalars of one family, unless one of them is a NaN. -/
structure Comparable (a b : Value) : Prop where
  family : a.rank = b.rank
  scalar : a.isScalar = true
  left : a.isNaN = false
  right : b.isNaN = false

/-- Filters take two values for equal if they order them and tell them not apart. -/
def SameAs (a b : Value) : Prop := a.Comparable b ∧ a.compare b = .eq

theorem compare?_eq_some {a b : Double} {o : Ordering} :
    a.compare? b = some o ↔ (a.isNaN = false ∧ b.isNaN = false) ∧ a.sortCompare b = o := by
  unfold Double.sortCompare Double.compare?
  cases a.isNaN <;> cases b.isNaN <;> simp

theorem isNaN_intAsDouble (i : Int64) : (intAsDouble i).isNaN = false := Double.isNaN_ofInt _

/-- Filters order the comparable values, and they do so as sorting does. -/
theorem order?_eq_some {a b : Value} {o : Ordering} :
    a.order? b = some o ↔ a.Comparable b ∧ a.compare b = o := by
  have hcomp : a.Comparable b ↔ a.rank = b.rank ∧ a.isScalar = true ∧
      a.isNaN = false ∧ b.isNaN = false :=
    ⟨fun h => ⟨h.family, h.scalar, h.left, h.right⟩, fun ⟨hf, hs, hl, hr⟩ => ⟨hf, hs, hl, hr⟩⟩
  rw [hcomp]
  cases a <;> cases b <;>
    simp [order?, Value.compare, rank, isScalar, isNaN, compare?_eq_some, isNaN_intAsDouble,
      and_assoc]

theorem equals_iff {a b : Value} : a.equals b = true ↔ a.SameAs b := by
  rw [equals, beq_iff_eq, order?_eq_some, SameAs]

end Value

/-! ## Truths of statements -/

/-- A truth tells whether `p` holds, and whether `q` does, which says the opposite. -/
structure Truth.Says (t : Truth) (p q : Prop) : Prop where
  holds_iff : t = .holds ↔ p
  fails_iff : t = .fails ↔ q

namespace Truth.Says

variable {t u : Truth} {p q p' q' : Prop}

theorem congr (h : t.Says p q) (hp : p ↔ p') (hq : q ↔ q') : t.Says p' q' :=
  ⟨h.holds_iff.trans hp, h.fails_iff.trans hq⟩

theorem of_bool {b : Bool} (h : b = true ↔ p) : (ofBool b).Says p ¬p := by
  cases b <;> constructor <;> simp_all [ofBool]

theorem of_unknown (hp : ¬p) (hq : ¬q) : unknown.Says p q := by
  constructor <;> simp [hp, hq]

theorem not (h : t.Says p q) : t.not.Says q p := by
  rw [← h.holds_iff, ← h.fails_iff]
  cases t <;> constructor <;> simp [Truth.not]

theorem and (h : t.Says p q) (h' : u.Says p' q') : (t.and u).Says (p ∧ p') (q ∨ q') := by
  rw [← h.holds_iff, ← h.fails_iff, ← h'.holds_iff, ← h'.fails_iff]
  cases t <;> cases u <;> constructor <;> simp [Truth.and]

theorem or (h : t.Says p q) (h' : u.Says p' q') : (t.or u).Says (p ∨ p') (q ∧ q') := by
  rw [← h.holds_iff, ← h.fails_iff, ← h'.holds_iff, ← h'.fails_iff]
  cases t <;> cases u <;> constructor <;> simp [Truth.or]

/-- There is one truth that tells two statements. -/
theorem unique (h : t.Says p q) (h' : u.Says p q) : t = u := by
  have hholds := h.holds_iff.trans h'.holds_iff.symm
  have hfails := h.fails_iff.trans h'.fails_iff.symm
  cases t <;> cases u <;> simp_all

/-- What a truth tells is never both. -/
theorem not_both (h : t.Says p q) : ¬(p ∧ q) := by
  rintro ⟨hp, hq⟩
  cases (h.holds_iff.2 hp).symm.trans (h.fails_iff.2 hq)

end Truth.Says

/-! ## Comparisons of scalars -/

namespace Comparator

open Value (Comparable SameAs)

/-- A comparison of a scalar has an answer: equality and membership in a list always do, an order
needs comparable values, and a test of text needs texts. -/
def Applies (v w : Value) : Comparator → Prop
  | .eq => True
  | .ne => True
  | .lt => v.Comparable w
  | .le => v.Comparable w
  | .gt => v.Comparable w
  | .ge => v.Comparable w
  | .within => ∃ items, w = .list items
  | .startsWith => ∃ s start, v = .text s ∧ w = .text start
  | .contains => ∃ s needle, v = .text s ∧ w = .text needle

/-- What a comparison of a scalar asks. -/
def Asks (v w : Value) : Comparator → Prop
  | .eq => v.SameAs w
  | .ne => ¬v.SameAs w
  | .lt => v.compare w = .lt
  | .le => v.compare w ≠ .gt
  | .gt => v.compare w = .gt
  | .ge => v.compare w ≠ .lt
  | .within => ∃ items, w = .list items ∧ ∃ u ∈ items, v.SameAs u
  | .startsWith => ∃ s start, v = .text s ∧ w = .text start ∧ start.toList <+: s.toList
  | .contains => ∃ s needle, v = .text s ∧ w = .text needle ∧ needle.toList <:+: s.toList

end Comparator

theorem startsWithText_iff {s start : String} :
    startsWithText s start = true ↔ start.toList <+: s.toList :=
  List.isPrefixOf_iff_prefix

theorem containsText_iff {s needle : String} :
    containsText s needle = true ↔ needle.toList <:+: s.toList := by
  rw [containsText, containsSlice_iff]
  exact ⟨fun ⟨front, back, h⟩ => ⟨front, back, h.symm⟩,
    fun ⟨front, back, h⟩ => ⟨front, back, h.symm⟩⟩

namespace Value

/-- A test of the order of two values tells what it asks, if they are comparable. -/
theorem says_order (v w : Value) {test : Ordering → Bool} {p : Prop}
    (h : test (v.compare w) = true ↔ p) :
    (match v.order? w with
      | some o => Truth.ofBool (test o)
      | none => .unknown).Says (v.Comparable w ∧ p) (v.Comparable w ∧ ¬p) := by
  cases ho : v.order? w with
  | some o =>
    obtain ⟨hc, rfl⟩ := order?_eq_some.1 ho
    exact (Truth.Says.of_bool h).congr (by simp [hc]) (by simp [hc])
  | none =>
    have hc : ¬v.Comparable w := by
      intro hc
      rw [order?_eq_some.2 ⟨hc, rfl⟩] at ho
      cases ho
    exact .of_unknown (fun h => hc h.1) fun h => hc h.1

/-- A test of two texts tells what it asks, if both are texts. -/
theorem says_text (v w : Value) {test : String → String → Bool} {p : String → String → Prop}
    (h : ∀ s u, test s u = true ↔ p s u) :
    (match v, w with
      | text s, text u => Truth.ofBool (test s u)
      | _, _ => .unknown).Says
      ((∃ s u, v = text s ∧ w = text u) ∧ ∃ s u, v = text s ∧ w = text u ∧ p s u)
      ((∃ s u, v = text s ∧ w = text u) ∧ ¬∃ s u, v = text s ∧ w = text u ∧ p s u) := by
  split
  · rename_i s u
    exact (Truth.Says.of_bool (h s u)).congr (by simp) (by simp)
  · rename_i hne
    exact .of_unknown (fun ⟨⟨s, u, hv, hw⟩, _⟩ => hne s u hv hw)
      fun ⟨⟨s, u, hv, hw⟩, _⟩ => hne s u hv hw

/-- A comparison of a scalar tells what it asks, if it has an answer. -/
theorem says_testScalar (v w : Value) (op : Comparator) :
    (v.testScalar op w).Says (op.Applies v w ∧ op.Asks v w) (op.Applies v w ∧ ¬op.Asks v w) := by
  cases op with
  | eq =>
    have h : (Truth.ofBool (v.equals w)).Says _ _ := .of_bool equals_iff
    exact h.congr (by simp [Comparator.Applies, Comparator.Asks])
      (by simp [Comparator.Applies, Comparator.Asks])
  | ne =>
    have hne : (!v.equals w) = true ↔ ¬v.SameAs w := by
      rw [← equals_iff, Bool.not_eq_true', Bool.not_eq_true]
    have h : (Truth.ofBool !v.equals w).Says _ _ := .of_bool hne
    exact h.congr (by simp [Comparator.Applies, Comparator.Asks])
      (by simp [Comparator.Applies, Comparator.Asks])
  | lt => exact says_order v w Ordering.isLT_iff_eq_lt
  | le => exact says_order v w Ordering.isLE_iff_ne_gt
  | gt => exact says_order v w Ordering.isGT_iff_eq_gt
  | ge => exact says_order v w Ordering.isGE_iff_ne_lt
  | within =>
    cases w with
    | list items =>
      have hany : items.any v.equals = true ↔ ∃ u ∈ items, v.SameAs u := by
        simp only [List.any_eq_true, equals_iff]
      have h : (Truth.ofBool (items.any v.equals)).Says _ _ := .of_bool hany
      exact h.congr (by simp [Comparator.Applies, Comparator.Asks])
        (by simp [Comparator.Applies, Comparator.Asks])
    | null | bool _ | int _ | float _ | text _ | blob _ | key _ =>
      exact .of_unknown (fun ⟨⟨_, h⟩, _⟩ => by cases h) fun ⟨⟨_, h⟩, _⟩ => by cases h
  | startsWith => exact says_text v w fun _ _ => startsWithText_iff
  | contains => exact says_text v w fun _ _ => containsText_iff

/-! ## Comparisons of values -/

/-- A comparison with an operand that is not null definitely holds: what it asks of a scalar is so,
a list contains the operand, or it holds of an item of a list. -/
inductive Satisfies (op : Comparator) (w : Value) : Value → Prop
  | scalar {v} : v.isScalar = true → op.Applies v w → op.Asks v w → Satisfies op w v
  | member {items v} : op = .contains → v ∈ items → v.SameAs w → Satisfies op w (.list items)
  | item {items v} : op ≠ .contains → v ∈ items → Satisfies op w v → Satisfies op w (.list items)

/-- A comparison with an operand that is not null definitely fails: what it asks of a scalar has an
answer and is not so, a list does not contain the operand, or it fails on all items of a list that
has some. -/
inductive Violates (op : Comparator) (w : Value) : Value → Prop
  | scalar {v} : v.isScalar = true → op.Applies v w → ¬op.Asks v w → Violates op w v
  | members {items} : op = .contains → (∀ v ∈ items, ¬v.SameAs w) → Violates op w (.list items)
  | items {items} : op ≠ .contains → items ≠ [] → (∀ v ∈ items, Violates op w v) →
    Violates op w (.list items)

theorem satisfies_list {op : Comparator} {w : Value} {items : List Value} :
    Satisfies op w (.list items) ↔ if op = .contains then ∃ v ∈ items, v.SameAs w
      else ∃ v ∈ items, Satisfies op w v := by
  constructor
  · intro h
    cases h with
    | scalar hs => cases hs
    | member hop hv hs => rw [if_pos hop]; exact ⟨_, hv, hs⟩
    | item hop hv hs => rw [if_neg hop]; exact ⟨_, hv, hs⟩
  · intro h
    split at h
    · obtain ⟨v, hv, hs⟩ := h
      exact .member ‹_› hv hs
    · obtain ⟨v, hv, hs⟩ := h
      exact .item ‹_› hv hs

theorem violates_list {op : Comparator} {w : Value} {items : List Value} :
    Violates op w (.list items) ↔ if op = .contains then ∀ v ∈ items, ¬v.SameAs w
      else items ≠ [] ∧ ∀ v ∈ items, Violates op w v := by
  constructor
  · intro h
    cases h with
    | scalar hs => cases hs
    | members hop hs => rw [if_pos hop]; exact hs
    | items hop hne hs => rw [if_neg hop]; exact ⟨hne, hs⟩
  · intro h
    split at h
    · exact .members ‹_› h
    · exact .items ‹_› h.1 h.2

theorem satisfies_scalar {op : Comparator} {w v : Value} (hs : v.isScalar = true) :
    Satisfies op w v ↔ op.Applies v w ∧ op.Asks v w := by
  constructor
  · intro h
    cases h with
    | scalar _ ha hq => exact ⟨ha, hq⟩
    | member | item => cases hs
  · exact fun h => .scalar hs h.1 h.2

theorem violates_scalar {op : Comparator} {w v : Value} (hs : v.isScalar = true) :
    Violates op w v ↔ op.Applies v w ∧ ¬op.Asks v w := by
  constructor
  · intro h
    cases h with
    | scalar _ ha hq => exact ⟨ha, hq⟩
    | members | items => cases hs
  · exact fun h => .scalar hs h.1 h.2

mutual

/-- A comparison with an operand that is not null tells whether it holds or fails. -/
theorem says_test (op : Comparator) (w : Value) :
    ∀ v : Value, (test op w v).Says (Satisfies op w v) (Violates op w v)
  | null => by
    rw [test]
    refine .of_unknown (fun h => ?_) fun h => ?_
    · cases h with | scalar hs => cases hs
    · cases h with | scalar hs => cases hs
  | list items => by
    rw [test, satisfies_list, violates_list]
    split
    · have hany : items.any (·.equals w) = true ↔ ∃ v ∈ items, v.SameAs w := by
        simp only [List.any_eq_true, equals_iff]
      exact (Truth.Says.of_bool hany).congr .rfl (by simp)
    · split
      · rename_i he
        rw [List.isEmpty_iff.1 he]
        exact .of_unknown (by simp) (by simp)
      · rename_i he
        have hne : items ≠ [] := fun h => he (List.isEmpty_iff.2 h)
        exact (says_testAny op w items).congr .rfl (by simp [hne])
  | bool _ | int _ | float _ | text _ | blob _ | key _ => by
    rw [test, satisfies_scalar rfl, violates_scalar rfl]
    · exact says_testScalar ..
    all_goals nofun

/-- Whether a comparison holds of one of the values, or fails on all of them. -/
theorem says_testAny (op : Comparator) (w : Value) : ∀ vs : List Value,
    (testAny op w vs).Says (∃ v ∈ vs, Satisfies op w v) (∀ v ∈ vs, Violates op w v)
  | [] => by
    rw [testAny]
    constructor <;> simp
  | v :: vs => by
    rw [testAny]
    exact ((says_test op w v).or (says_testAny op w vs)).congr (by simp) (by simp)

end

/-- A field that is missing or null. -/
def Lacking (field : Option Value) : Prop := ∀ v ∈ field, v = .null

theorem isNull_iff {v : Value} : v.isNull = true ↔ v = .null := by
  cases v <;> simp [isNull]

theorem all_isNull_iff {field : Option Value} : field.all isNull = true ↔ Lacking field := by
  cases field <;> simp [Lacking, isNull_iff]

/-- A null test tells whether the field is missing or null. -/
theorem says_lacking (field : Option Value) :
    (Truth.ofBool (field.all isNull)).Says (Lacking field) (¬Lacking field) :=
  .of_bool all_isNull_iff

/-- Whether a field is there tells the opposite of whether it is missing or null. -/
theorem says_present (field : Option Value) :
    (Truth.ofBool !field.all isNull).Says (¬Lacking field) (Lacking field) := by
  have h := (says_lacking field).not
  cases hb : field.all isNull <;> rw [hb] at h <;> exact h

/-- A comparison of a field definitely holds. A null operand asks whether the field is missing or
null, or whether it is there. -/
inductive FieldSatisfies (field : Option Value) : Comparator → Value → Prop
  | eqNull : Lacking field → FieldSatisfies field .eq .null
  | neNull : ¬Lacking field → FieldSatisfies field .ne .null
  | value {op w v} : w ≠ .null → field = some v → Satisfies op w v → FieldSatisfies field op w

/-- A comparison of a field definitely fails. -/
inductive FieldViolates (field : Option Value) : Comparator → Value → Prop
  | eqNull : ¬Lacking field → FieldViolates field .eq .null
  | neNull : Lacking field → FieldViolates field .ne .null
  | value {op w v} : w ≠ .null → field = some v → Violates op w v → FieldViolates field op w

theorem fieldSatisfies_null {field : Option Value} {op : Comparator} :
    FieldSatisfies field op .null ↔ op = .eq ∧ Lacking field ∨ op = .ne ∧ ¬Lacking field := by
  constructor
  · intro h
    cases h with
    | eqNull h => exact .inl ⟨rfl, h⟩
    | neNull h => exact .inr ⟨rfl, h⟩
    | value h => exact absurd rfl h
  · rintro (⟨rfl, h⟩ | ⟨rfl, h⟩)
    · exact .eqNull h
    · exact .neNull h

theorem fieldViolates_null {field : Option Value} {op : Comparator} :
    FieldViolates field op .null ↔ op = .eq ∧ ¬Lacking field ∨ op = .ne ∧ Lacking field := by
  constructor
  · intro h
    cases h with
    | eqNull h => exact .inl ⟨rfl, h⟩
    | neNull h => exact .inr ⟨rfl, h⟩
    | value h => exact absurd rfl h
  · rintro (⟨rfl, h⟩ | ⟨rfl, h⟩)
    · exact .eqNull h
    · exact .neNull h

theorem fieldSatisfies_iff {field : Option Value} {op : Comparator} {w : Value} (hw : w ≠ .null) :
    FieldSatisfies field op w ↔ ∃ v, field = some v ∧ Satisfies op w v := by
  refine ⟨fun h => ?_, fun ⟨v, hv, h⟩ => .value hw hv h⟩
  cases h with
  | eqNull | neNull => exact absurd rfl hw
  | value _ hv h => exact ⟨_, hv, h⟩

theorem fieldViolates_iff {field : Option Value} {op : Comparator} {w : Value} (hw : w ≠ .null) :
    FieldViolates field op w ↔ ∃ v, field = some v ∧ Violates op w v := by
  refine ⟨fun h => ?_, fun ⟨v, hv, h⟩ => .value hw hv h⟩
  cases h with
  | eqNull | neNull => exact absurd rfl hw
  | value _ hv h => exact ⟨_, hv, h⟩

/-- A comparison of a field with a null operand tells whether it holds or fails. -/
theorem says_compareField_null (field : Option Value) (op : Comparator) :
    (compareField field op .null).Says (FieldSatisfies field op .null)
      (FieldViolates field op .null) := by
  rw [fieldSatisfies_null, fieldViolates_null]
  cases op with
  | eq => exact (says_lacking field).congr (by simp) (by simp)
  | ne => exact (says_present field).congr (by simp) (by simp)
  | lt | le | gt | ge | within | startsWith | contains => exact .of_unknown (by simp) (by simp)

/-- A comparison of a field tells whether it holds or fails. -/
theorem says_compareField (field : Option Value) (op : Comparator) (w : Value) :
    (compareField field op w).Says (FieldSatisfies field op w) (FieldViolates field op w) := by
  by_cases hw : w = .null
  · subst hw
    exact says_compareField_null field op
  have hn : w.isNull = false := by
    rw [← Bool.not_eq_true, isNull_iff]
    exact hw
  rw [fieldSatisfies_iff hw, fieldViolates_iff hw]
  simp only [compareField, hn, Bool.false_eq_true, if_false]
  cases field with
  | none => exact .of_unknown (by simp) (by simp)
  | some v => exact (says_test op w v).congr (by simp) (by simp)

end Value

/-! ## Filters -/

namespace Filter

theorem under_eq_ok {row : Row} {b : Bindings} {ancestor : Operand} {t : Truth}
    (h : (under ancestor).evaluate row b = .ok t) :
    ∃ k, ancestor.resolve b = .ok (.key k) ∧ .ofBool (row.key.isWithin k) = t := by
  rw [evaluate] at h
  obtain ⟨w, hw, h⟩ := bind_eq_ok.1 h
  cases w with
  | key k =>
    cases h
    exact ⟨k, hw, rfl⟩
  | _ => cases h

theorem inSubquery_eq_ok {row : Row} {b : Bindings} {field : Field} {name : String} {t : Truth}
    (h : (inSubquery field name).evaluate row b = .ok t) :
    ∃ members, b.subqueries.get? name = some members ∧
      Value.compareField (field.resolve row) .within (.list members) = t := by
  rw [evaluate] at h
  cases hm : b.subqueries.get? name with
  | none =>
    rw [hm] at h
    cases h
  | some members =>
    rw [hm] at h
    cases h
    exact ⟨members, rfl, rfl⟩

open Value (Lacking FieldSatisfies FieldViolates)

mutual

/-- A filter definitely holds on a row. -/
inductive Holds (row : Row) (b : Bindings) : Filter → Prop
  | and {parts} : (∀ f ∈ parts, Holds row b f) → Holds row b (and parts)
  | or {parts f} : f ∈ parts → Holds row b f → Holds row b (or parts)
  | not {f} : Fails row b f → Holds row b (not f)
  | compare {field op operand w} : operand.resolve b = .ok w →
    FieldSatisfies (field.resolve row) op w → Holds row b (compare field op operand)
  | isNull {field} : Lacking (field.resolve row) → Holds row b (isNull field)
  | isNotNull {field} : ¬Lacking (field.resolve row) → Holds row b (isNotNull field)
  | under {ancestor k} : ancestor.resolve b = .ok (.key k) → k.path <+: row.key.path →
    Holds row b (under ancestor)
  | inSubquery {field name members} : b.subqueries.get? name = some members →
    FieldSatisfies (field.resolve row) .within (.list members) → Holds row b (inSubquery field name)

/-- A filter definitely fails on a row. -/
inductive Fails (row : Row) (b : Bindings) : Filter → Prop
  | and {parts f} : f ∈ parts → Fails row b f → Fails row b (and parts)
  | or {parts} : (∀ f ∈ parts, Fails row b f) → Fails row b (or parts)
  | not {f} : Holds row b f → Fails row b (not f)
  | compare {field op operand w} : operand.resolve b = .ok w →
    FieldViolates (field.resolve row) op w → Fails row b (compare field op operand)
  | isNull {field} : ¬Lacking (field.resolve row) → Fails row b (isNull field)
  | isNotNull {field} : Lacking (field.resolve row) → Fails row b (isNotNull field)
  | under {ancestor k} : ancestor.resolve b = .ok (.key k) → ¬k.path <+: row.key.path →
    Fails row b (under ancestor)
  | inSubquery {field name members} : b.subqueries.get? name = some members →
    FieldViolates (field.resolve row) .within (.list members) → Fails row b (inSubquery field name)

end

section Iff

variable {row : Row} {b : Bindings} {parts : List Filter} {f : Filter} {field : Field}
  {op : Comparator} {operand : Operand} {w : Value} {k : Key} {name : String} {members : List Value}

theorem holds_and : (and parts).Holds row b ↔ ∀ f ∈ parts, f.Holds row b :=
  ⟨fun | .and h => h, .and⟩

theorem fails_and : (and parts).Fails row b ↔ ∃ f ∈ parts, f.Fails row b :=
  ⟨fun | .and hf h => ⟨_, hf, h⟩, fun ⟨_, hf, h⟩ => .and hf h⟩

theorem holds_or : (or parts).Holds row b ↔ ∃ f ∈ parts, f.Holds row b :=
  ⟨fun | .or hf h => ⟨_, hf, h⟩, fun ⟨_, hf, h⟩ => .or hf h⟩

theorem fails_or : (or parts).Fails row b ↔ ∀ f ∈ parts, f.Fails row b :=
  ⟨fun | .or h => h, .or⟩

theorem holds_not : (not f).Holds row b ↔ f.Fails row b :=
  ⟨fun | .not h => h, .not⟩

theorem fails_not : (not f).Fails row b ↔ f.Holds row b :=
  ⟨fun | .not h => h, .not⟩

theorem holds_compare (hw : operand.resolve b = .ok w) :
    (compare field op operand).Holds row b ↔ FieldSatisfies (field.resolve row) op w := by
  refine ⟨fun | .compare hw' h => ?_, .compare hw⟩
  cases hw.symm.trans hw'
  exact h

theorem fails_compare (hw : operand.resolve b = .ok w) :
    (compare field op operand).Fails row b ↔ FieldViolates (field.resolve row) op w := by
  refine ⟨fun | .compare hw' h => ?_, .compare hw⟩
  cases hw.symm.trans hw'
  exact h

theorem holds_isNull : (isNull field).Holds row b ↔ Lacking (field.resolve row) :=
  ⟨fun | .isNull h => h, .isNull⟩

theorem fails_isNull : (isNull field).Fails row b ↔ ¬Lacking (field.resolve row) :=
  ⟨fun | .isNull h => h, .isNull⟩

theorem holds_isNotNull : (isNotNull field).Holds row b ↔ ¬Lacking (field.resolve row) :=
  ⟨fun | .isNotNull h => h, .isNotNull⟩

theorem fails_isNotNull : (isNotNull field).Fails row b ↔ Lacking (field.resolve row) :=
  ⟨fun | .isNotNull h => h, .isNotNull⟩

theorem holds_under (hk : operand.resolve b = .ok (.key k)) :
    (under operand).Holds row b ↔ k.path <+: row.key.path := by
  refine ⟨fun | .under hk' h => ?_, .under hk⟩
  cases hk.symm.trans hk'
  exact h

theorem fails_under (hk : operand.resolve b = .ok (.key k)) :
    (under operand).Fails row b ↔ ¬k.path <+: row.key.path := by
  refine ⟨fun | .under hk' h => ?_, .under hk⟩
  cases hk.symm.trans hk'
  exact h

theorem holds_inSubquery (hm : b.subqueries.get? name = some members) :
    (inSubquery field name).Holds row b ↔
      FieldSatisfies (field.resolve row) .within (.list members) := by
  refine ⟨fun | .inSubquery hm' h => ?_, .inSubquery hm⟩
  cases hm.symm.trans hm'
  exact h

theorem fails_inSubquery (hm : b.subqueries.get? name = some members) :
    (inSubquery field name).Fails row b ↔
      FieldViolates (field.resolve row) .within (.list members) := by
  refine ⟨fun | .inSubquery hm' h => ?_, .inSubquery hm⟩
  cases hm.symm.trans hm'
  exact h

end Iff

mutual

/-- Evaluation tells whether a filter holds or fails. -/
theorem says_evaluate {row : Row} {b : Bindings} : ∀ {f : Filter} {t : Truth},
    f.evaluate row b = .ok t → t.Says (f.Holds row b) (f.Fails row b)
  | and parts, t, h => by
    rw [evaluate] at h
    exact (says_evaluateAll h).congr holds_and.symm fails_and.symm
  | or parts, t, h => by
    rw [evaluate] at h
    exact (says_evaluateAny h).congr holds_or.symm fails_or.symm
  | not part, t, h => by
    rw [evaluate] at h
    obtain ⟨u, hu, h⟩ := bind_eq_ok.1 h
    cases h
    exact (says_evaluate hu).not.congr holds_not.symm fails_not.symm
  | compare field op operand, t, h => by
    rw [evaluate] at h
    obtain ⟨w, hw, h⟩ := bind_eq_ok.1 h
    cases h
    exact (Value.says_compareField _ op w).congr (holds_compare hw).symm (fails_compare hw).symm
  | isNull field, t, h => by
    rw [evaluate] at h
    cases h
    exact (Value.says_lacking _).congr holds_isNull.symm fails_isNull.symm
  | isNotNull field, t, h => by
    rw [evaluate] at h
    cases h
    exact (Value.says_present _).congr holds_isNotNull.symm fails_isNotNull.symm
  | under ancestor, t, h => by
    obtain ⟨k, hk, rfl⟩ := under_eq_ok h
    exact (Truth.Says.of_bool Key.isWithin_iff).congr (holds_under hk).symm (fails_under hk).symm
  | inSubquery field name, t, h => by
    obtain ⟨members, hm, rfl⟩ := inSubquery_eq_ok h
    exact (Value.says_compareField _ .within (.list members)).congr (holds_inSubquery hm).symm
      (fails_inSubquery hm).symm

/-- Evaluation tells whether all filters hold or one of them fails. -/
theorem says_evaluateAll {row : Row} {b : Bindings} : ∀ {fs : List Filter} {t : Truth},
    evaluateAll row b fs = .ok t → t.Says (∀ f ∈ fs, f.Holds row b) (∃ f ∈ fs, f.Fails row b)
  | [], t, h => by
    rw [evaluateAll] at h
    cases h
    constructor <;> simp
  | f :: fs, t, h => by
    rw [evaluateAll] at h
    obtain ⟨u, hu, h⟩ := bind_eq_ok.1 h
    obtain ⟨us, hus, h⟩ := bind_eq_ok.1 h
    cases h
    exact ((says_evaluate hu).and (says_evaluateAll hus)).congr (by simp) (by simp)

/-- Evaluation tells whether one of the filters holds or all of them fail. -/
theorem says_evaluateAny {row : Row} {b : Bindings} : ∀ {fs : List Filter} {t : Truth},
    evaluateAny row b fs = .ok t → t.Says (∃ f ∈ fs, f.Holds row b) (∀ f ∈ fs, f.Fails row b)
  | [], t, h => by
    rw [evaluateAny] at h
    cases h
    constructor <;> simp
  | f :: fs, t, h => by
    rw [evaluateAny] at h
    obtain ⟨u, hu, h⟩ := bind_eq_ok.1 h
    obtain ⟨us, hus, h⟩ := bind_eq_ok.1 h
    cases h
    exact ((says_evaluate hu).or (says_evaluateAny hus)).congr (by simp) (by simp)

end

/-- A valid filter has a truth on every row, which tells whether the filter definitely holds on it
or definitely fails. It does not do both. -/
theorem evaluate_tells {f : Filter} {b : Bindings} (h : f.validate b = .ok ()) (row : Row) :
    ∃ t, f.evaluate row b = .ok t ∧ (t = .holds ↔ f.Holds row b) ∧ (t = .fails ↔ f.Fails row b) ∧
      ¬(f.Holds row b ∧ f.Fails row b) := by
  obtain ⟨t, ht⟩ := exists_evaluate row h
  have hsays := says_evaluate ht
  exact ⟨t, ht, hsays.holds_iff, hsays.fails_iff, hsays.not_both⟩

/-- A row with two scores, one of them null. -/
def sampleScores : Row where
  key := .single ⟨"Player", some (.number 1)⟩ ⟨by simp, by simp⟩
  properties := SortedMap.empty.insert "scores" (.list [.null, .int 5])

/-- Whether no score is below 3, or there is no score of 7. -/
def sampleFilter : Filter :=
  or [not (compare (.property "scores") .lt (.literal (.int 3))),
    not (compare (.property "scores") .contains (.literal (.int 7)))]

theorem evaluate_tells_sample :
    sampleFilter.validate {} = .ok () ∧ sampleFilter.Holds sampleScores {} ∧
      ¬sampleFilter.Fails sampleScores {} := by
  have hvalid : sampleFilter.validate {} = .ok () := rfl
  have heval : sampleFilter.evaluate sampleScores {} = .ok .holds := rfl
  obtain ⟨t, ht, hholds, -, hboth⟩ := evaluate_tells hvalid sampleScores
  cases heval.symm.trans ht
  have h := hholds.1 rfl
  exact ⟨hvalid, h, fun h' => hboth ⟨h, h'⟩⟩

end Filter
end EntityGraph
