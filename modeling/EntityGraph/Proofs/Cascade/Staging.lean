import EntityGraph.Cascade

/-!
# Stagings

What a staging of a cascade says about the references between the rows of a table:

* `Staging.Nulls`, `Staging.Handles`: a reference is staged to be null, or dealt with otherwise;
* `Staging.Extends`: a staging with more in it, which keeps what was dealt with;
* `Staging.Sound`: the staged nulls are stored rows in which some references are null, all of them
  to doomed rows.
-/

namespace EntityGraph

/-- A reference is staged to be null. -/
def Staging.Nulls (s : Staging) (k : Key) (field : String) : Prop :=
  ∃ n ∈ s.nulls, n.row.key = k ∧ n.row.get? field = some .null

namespace Staging

@[simp] theorem deletes_addNull (s : Staging) (row : Row) (field : String) :
    (s.addNull row field).deletes = s.deletes := by
  unfold addNull
  split <;> rfl

@[simp] theorem doomed_addNull (s : Staging) (row : Row) (field : String) :
    (s.addNull row field).doomed = s.doomed := by
  unfold addNull
  split <;> rfl

@[simp] theorem required_addNull (s : Staging) (row : Row) (field : String) :
    (s.addNull row field).required = s.required := by
  unfold addNull
  split <;> rfl

theorem nulls_addNull (s : Staging) (row : Row) (field : String) :
    (s.addNull row field).Nulls row.key field := by
  unfold addNull
  split
  · rename_i ha
    obtain ⟨n, hn, hk⟩ := List.any_eq_true.1 ha
    have hk : n.row.key = row.key := eq_of_beq hk
    refine ⟨{ n with row := n.row.set field .null }, ?_, hk, ?_⟩
    · exact List.mem_map.2 ⟨n, hn, by rw [if_pos hk]⟩
    · rw [Row.get?_set, if_pos rfl]
  · refine ⟨⟨row.set field .null, field⟩, by simp, rfl, ?_⟩
    rw [Row.get?_set, if_pos rfl]

theorem Nulls.addNull {s : Staging} {k : Key} {field : String} (h : s.Nulls k field) (row : Row)
    (field' : String) : (s.addNull row field').Nulls k field := by
  obtain ⟨n, hn, hk, hf⟩ := h
  unfold Staging.addNull
  split
  · by_cases hr : n.row.key = row.key
    · refine ⟨{ n with row := n.row.set field' .null }, ?_, hk, ?_⟩
      · exact List.mem_map.2 ⟨n, hn, by rw [if_pos hr]⟩
      · rw [Row.get?_set, hf, ite_self]
    · exact ⟨n, List.mem_map.2 ⟨n, hn, by rw [if_neg hr]⟩, hk, hf⟩
  · exact ⟨n, List.mem_append_left _ hn, hk, hf⟩

/-- The staged nulls with one more reference null. -/
theorem mem_nulls_addNull {s : Staging} {row : Row} {field : String} {n : StagedNull}
    (h : n ∈ (s.addNull row field).nulls) : n ∈ s.nulls ∨ ∃ before, before.key = row.key ∧
      n.row = before.set field .null ∧ (before = row ∨ ∃ m ∈ s.nulls, m.row = before) := by
  unfold addNull at h
  split at h
  · obtain ⟨m, hm, rfl⟩ := List.mem_map.1 h
    by_cases hk : m.row.key = row.key
    · rw [if_pos hk]
      exact .inr ⟨m.row, hk, rfl, .inr ⟨m, hm, rfl⟩⟩
    · rw [if_neg hk]
      exact .inl hm
  · rcases List.mem_append.1 h with h | h
    · exact .inl h
    · rw [List.mem_singleton.1 h]
      exact .inr ⟨row, rfl, rfl, .inl rfl⟩

/-- A staging with more in it. -/
structure Extends (s s' : Staging) : Prop where
  doomed : ∀ {k}, k ∈ s.doomed → k ∈ s'.doomed
  nulls : ∀ {k field}, s.Nulls k field → s'.Nulls k field
  required : ∀ {r}, r ∈ s.required → r ∈ s'.required

namespace Extends

theorem refl (s : Staging) : s.Extends s := ⟨id, id, id⟩

theorem trans {s₁ s₂ s₃ : Staging} (h : s₁.Extends s₂) (h' : s₂.Extends s₃) : s₁.Extends s₃ :=
  ⟨fun hk => h'.doomed (h.doomed hk), fun hn => h'.nulls (h.nulls hn),
    fun hr => h'.required (h.required hr)⟩

end Extends

/-- A reference in the row under `k` is dealt with: the row is doomed, or the reference is staged to
be null or noted as required. -/
def Handles (s : Staging) (k : Key) (field : String) : Prop :=
  k ∈ s.doomed ∨ s.Nulls k field ∨ ∃ q ∈ s.required, q.related = k

theorem Handles.extend {s s' : Staging} {k : Key} {field : String} (h : s.Handles k field)
    (he : s.Extends s') : s'.Handles k field := by
  rcases h with hd | hn | ⟨q, hq, hk⟩
  · exact .inl (he.doomed hd)
  · exact .inr (.inl (he.nulls hn))
  · exact .inr (.inr ⟨q, he.required hq, hk⟩)

/-- The references to a key through a null strategy are dealt with. -/
def Settles (s : Staging) (t : RowTable) (k : Key) : Strategy → Prop
  | .nullReference _ target mappedBy => ∀ r ∈ t.rows,
      (Cascade.referrers target mappedBy k).selects r → s.Handles r.key mappedBy
  | _ => True

theorem Settles.extend {s s' : Staging} {t : RowTable} {k : Key} {strategy : Strategy}
    (h : s.Settles t k strategy) (he : s.Extends s') : s'.Settles t k strategy := by
  cases strategy with
  | nullReference field target mappedBy => exact fun r hr hs => (h r hr hs).extend he
  | deleteDependents | reserved => trivial

end Staging

namespace Cascade

/-- A row refers to `k` in a property that a null strategy of the class of `k` maps by. -/
def RefersThrough (schema : Schema) (k : Key) (field : String) (row : Row) : Prop :=
  ∃ plan, CascadePlan.ofClass schema k.kind = .ok plan ∧
    ∃ through target, Strategy.nullReference through target field ∈ plan.strategies ∧
      (referrers target field k).selects row

/-- `after` is `before` with some properties null, and in all of them it referred to a row that is
gone. -/
structure Nulled (schema : Schema) (gone : Key → Prop) (before after : Row) : Prop where
  key : after.key = before.key
  property : ∀ field, after.get? field = before.get? field ∨
    after.get? field = some .null ∧ ∃ k, gone k ∧ RefersThrough schema k field before
  changed : ∃ field, after.get? field = some .null ∧
    ∃ k, gone k ∧ RefersThrough schema k field before

namespace Nulled

variable {schema : Schema} {gone : Key → Prop} {before after : Row}

theorem mono {gone' : Key → Prop} (h : Nulled schema gone before after)
    (hg : ∀ {k}, gone k → gone' k) : Nulled schema gone' before after where
  key := h.key
  property field := (h.property field).imp_right fun ⟨hn, k, hk, hr⟩ => ⟨hn, k, hg hk, hr⟩
  changed := by
    obtain ⟨field, hn, k, hk, hr⟩ := h.changed
    exact ⟨field, hn, k, hg hk, hr⟩

theorem set_self {k : Key} {field : String} (hk : gone k)
    (hr : RefersThrough schema k field before) :
    Nulled schema gone before (before.set field .null) where
  key := rfl
  property field' := by
    by_cases hf : field' = field
    · subst hf
      exact .inr ⟨by rw [Row.get?_set, if_pos rfl], k, hk, hr⟩
    · exact .inl (by rw [Row.get?_set, if_neg hf])
  changed := ⟨field, by rw [Row.get?_set, if_pos rfl], k, hk, hr⟩

theorem set {k : Key} {field : String} (h : Nulled schema gone before after) (hk : gone k)
    (hr : RefersThrough schema k field before) :
    Nulled schema gone before (after.set field .null) where
  key := h.key
  property field' := by
    by_cases hf : field' = field
    · subst hf
      exact .inr ⟨by rw [Row.get?_set, if_pos rfl], k, hk, hr⟩
    · rw [Row.get?_set, if_neg hf]
      exact h.property field'
  changed := ⟨field, by rw [Row.get?_set, if_pos rfl], k, hk, hr⟩

end Nulled
end Cascade

namespace Staging

open Cascade

/-- The staged nulls are different stored rows, with references to doomed rows null. -/
structure Sound (s : Staging) (schema : Schema) (t : RowTable) : Prop where
  nodup : (s.nulls.map (·.row.key)).Nodup
  origin : ∀ n ∈ s.nulls, ∃ before, t.row? n.row.key = some before ∧
    Nulled schema (· ∈ s.doomed) before n.row

namespace Sound

variable {schema : Schema} {t : RowTable} {s s' : Staging}

theorem of_nulls_eq (h : s.Sound schema t) (hn : s'.nulls = s.nulls)
    (hd : ∀ {k}, k ∈ s.doomed → k ∈ s'.doomed) : s'.Sound schema t where
  nodup := by
    rw [hn]
    exact h.nodup
  origin n hm := by
    rw [hn] at hm
    obtain ⟨before, hb, hnull⟩ := h.origin n hm
    exact ⟨before, hb, hnull.mono hd⟩

theorem addNull (h : s.Sound schema t) {row : Row} {field : String} {k : Key} (hrow : row ∈ t.rows)
    (hk : k ∈ s.doomed) (hr : RefersThrough schema k field row) :
    (s.addNull row field).Sound schema t := by
  have hrow := RowTable.mem_rows.1 hrow
  have hkeys : ∀ n : StagedNull, (if n.row.key = row.key then
      { n with row := n.row.set field .null } else n).row.key = n.row.key := by
    intro n
    split <;> rfl
  refine ⟨?_, ?_⟩
  · unfold Staging.addNull
    split
    · rw [List.map_map]
      have : ((·.row.key) ∘ fun n : StagedNull => if n.row.key = row.key then
          { n with row := n.row.set field .null } else n) = (·.row.key) := funext hkeys
      rw [this]
      exact h.nodup
    · rename_i hnone
      simp only [List.any_eq_true, beq_iff_eq, not_exists, not_and] at hnone
      rw [List.map_append]
      refine List.nodup_append.2 ⟨h.nodup, by simp, fun a ha b hb => ?_⟩
      obtain ⟨n, hn, rfl⟩ := List.mem_map.1 ha
      rw [List.mem_singleton.1 hb]
      exact hnone n hn
  · rw [doomed_addNull]
    unfold Staging.addNull
    split
    · intro n' hn'
      obtain ⟨n, hn, rfl⟩ := List.mem_map.1 hn'
      obtain ⟨before, hb, hnull⟩ := h.origin n hn
      rw [hkeys]
      refine ⟨before, hb, ?_⟩
      split
      · rename_i heq
        rw [heq, hrow] at hb
        cases hb
        exact hnull.set hk hr
      · exact hnull
    · intro n hn
      rcases List.mem_append.1 hn with hn | hn
      · exact h.origin n hn
      · rw [List.mem_singleton.1 hn]
        exact ⟨row, hrow, .set_self hk hr⟩

end Sound
end Staging
end EntityGraph
