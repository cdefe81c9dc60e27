import Mathlib.Data.List.Forall2
import Mathlib.Data.List.Nodup
import EntityGraph.Json
import EntityGraph.Proofs.Sequencing

/-!
# Documents up to the order of members

A document means the same in whatever order its objects list their members: readers look members up
by name.

* `Json.Reorders`: documents that differ in nothing else;
* `Json.Reads`: a document that is read as a value in every order of the members;
* `Json.Reads.items`, `Json.Reads.option`, `Json.exists_fields`: how lists, optional parts and
  records are read if their parts are.
-/

namespace EntityGraph
namespace Json

variable {α : Type}

/-! ## Orders of members -/

/-- Documents that differ at most in the order in which objects list their members, at whatever
depth. -/
inductive Reorders : Json → Json → Prop where
  | refl (j : Json) : Reorders j j
  | array {js js' : List Json} : List.Forall₂ Reorders js js' → Reorders (.array js) (.array js')
  | object {ms ms' ms'' : List (String × Json)} : ms.map (·.1) = ms'.map (·.1) →
    List.Forall₂ Reorders (ms.map (·.2)) (ms'.map (·.2)) → ms'.Perm ms'' →
    Reorders (.object ms) (.object ms'')

namespace Reorders

variable {j : Json}

theorem of_perm {ms ms' : List (String × Json)} (h : ms.Perm ms') :
    Reorders (.object ms) (.object ms') :=
  .object rfl (List.forall₂_same.2 fun j _ => .refl j) h

theorem of_null (h : Reorders j null) : j = null := by
  cases h
  rfl

theorem array_cases {js : List Json} (h : Reorders (.array js) j) :
    ∃ js', j = .array js' ∧ List.Forall₂ Reorders js js' := by
  cases h with
  | refl => exact ⟨js, rfl, List.forall₂_same.2 fun j _ => .refl j⟩
  | array h => exact ⟨_, rfl, h⟩

theorem exists_of_mem : ∀ {ms ms' : List (String × Json)}, ms.map (·.1) = ms'.map (·.1) →
    List.Forall₂ Reorders (ms.map (·.2)) (ms'.map (·.2)) →
    ∀ m' ∈ ms', ∃ m ∈ ms, m.1 = m'.1 ∧ m.2.Reorders m'.2
  | [], [], _, _, _, hm => absurd hm List.not_mem_nil
  | m :: ms, m₁ :: ms', hnames, hcontents, m', hm => by
    obtain ⟨hname, hnames⟩ := List.cons.inj hnames
    cases hcontents with
    | cons hcontent hcontents =>
      rcases List.mem_cons.1 hm with rfl | hm
      · exact ⟨m, List.mem_cons_self, hname, hcontent⟩
      · obtain ⟨m₂, hm₂, h⟩ := exists_of_mem hnames hcontents m' hm
        exact ⟨m₂, List.mem_cons_of_mem _ hm₂, h⟩

/-- The other object has the same names, and each of its members is one of these, reordered. -/
theorem object_cases {ms : List (String × Json)} (h : Reorders (.object ms) j) :
    ∃ ms', j = .object ms' ∧ (ms.map (·.1)).Perm (ms'.map (·.1)) ∧
      ∀ m' ∈ ms', ∃ m ∈ ms, m.1 = m'.1 ∧ m.2.Reorders m'.2 := by
  cases h with
  | refl => exact ⟨ms, rfl, .refl _, fun m hm => ⟨m, hm, rfl, .refl _⟩⟩
  | @object _ ms' ms'' hnames hcontents hperm =>
    exact ⟨ms'', rfl, hnames ▸ hperm.map _, fun m hm =>
      exists_of_mem hnames hcontents m (hperm.mem_iff.2 hm)⟩

theorem tagged_cases {tag : String} {content : Json} (h : Reorders (tagged tag content) j) :
    ∃ content', j = tagged tag content' ∧ content.Reorders content' := by
  obtain ⟨ms', rfl, hnames, hmembers⟩ := h.object_cases
  obtain ⟨⟨tag', content'⟩, rfl, rfl⟩ :=
    List.map_eq_singleton_iff.1 (List.singleton_perm.1 hnames).symm
  obtain ⟨m, hm, -, hcontent⟩ := hmembers _ List.mem_cons_self
  rw [List.mem_singleton.1 hm] at hcontent
  exact ⟨content', rfl, hcontent⟩

end Reorders

/-! ## Reading -/

/-- In every order of its members a document is read as `a`. -/
def Reads (f : Json → Except JsonError α) (j : Json) (a : α) : Prop :=
  ∀ j', j.Reorders j' → f j' = .ok a

namespace Reads

variable {f : Json → Except JsonError α} {j : Json} {a : α}

theorem eq_ok (h : Reads f j a) : f j = .ok a := h j (.refl j)

protected theorem discard (h : Reads f j a) : Reads (fun j => discard (f j)) j () :=
  fun j' hj => congrArg discard (h j' hj)

theorem string (s : String) : Reads toString (.string s) s := fun _ h => by cases h; rfl

theorem toIntWithin_integer {lower upper i : Int} (h : lower ≤ i ∧ i ≤ upper) :
    (integer i).toIntWithin lower upper = .ok i := if_pos h

theorem uint64 (n : UInt64) : Reads toUInt64 (.integer n.toNat) n := by
  intro j hj
  cases hj
  have hn : (0 : Int) ≤ n.toNat ∧ (n.toNat : Int) ≤ UInt64.size - 1 := by
    have := n.toNat_lt
    simp only [UInt64.size]
    omega
  rw [toUInt64, toIntWithin_integer hn]
  exact congrArg Except.ok (UInt64.ofNat_toNat)

theorem int64 (i : Int64) : Reads toInt64 (.integer i.toInt) i := by
  intro j hj
  cases hj
  rw [toInt64, toIntWithin_integer ⟨i.minValue_le_toInt, i.toInt_le⟩]
  exact congrArg Except.ok (Int64.ofInt_toInt i)

theorem byte (b : UInt8) : Reads toByte (.integer b.toNat) b := by
  intro j hj
  cases hj
  have hb : (0 : Int) ≤ b.toNat ∧ (b.toNat : Int) ≤ 255 := by
    have := b.toNat_lt
    omega
  rw [toByte, toIntWithin_integer hb]
  exact congrArg Except.ok (UInt8.ofNat_toNat)

/-- A case with data, by its content. -/
theorem of_tagged {tag : String} {content : Json}
    (h : ∀ content', content.Reorders content' → f (tagged tag content') = .ok a) :
    Reads f (tagged tag content) a := by
  intro j hj
  obtain ⟨content', rfl, hcontent⟩ := hj.tagged_cases
  exact h content' hcontent

/-- The items of a list, one by one. -/
theorem mapM : ∀ {as : List α} {g : α → Json}, (∀ a ∈ as, Reads f (g a) a) →
    ∀ {js}, List.Forall₂ Reorders (as.map g) js → js.mapM f = .ok as
  | [], _, _, _, .nil => rfl
  | a :: as, g, h, _, .cons hj hjs => by
    obtain ⟨ha, has⟩ := List.forall_mem_cons.1 h
    rw [List.mapM_cons, ha _ hj, ok_bind, mapM has hjs]
    rfl

theorem items {as : List α} {g : α → Json} (h : ∀ a ∈ as, Reads f (g a) a) :
    Reads (fun j => do (← j.toArray).mapM f) (.array (as.map g)) as := by
  intro j hj
  obtain ⟨js, rfl, hjs⟩ := hj.array_cases
  exact mapM h hjs

theorem toOption_of_ne_null (h : j ≠ null) : toOption f j = some <$> f j := by
  unfold toOption
  split
  · exact absurd rfl h
  · rfl

theorem option {g : α → Json} {a : Option α} (h : ∀ b, Reads f (g b) b) (hg : ∀ b, g b ≠ null) :
    Reads (toOption f) (ofOption g a) a := by
  intro j hj
  cases a with
  | none => cases hj; rfl
  | some b =>
    have hnull : j ≠ null := fun he => hg b (he ▸ hj : Reorders (g b) null).of_null
    rw [toOption_of_ne_null hnull, h b j hj]
    rfl

end Reads

/-! ## Records -/

/-- The fields of a record, of which the members are given in some order. -/
def Fields (ms : List (String × Json)) (fields : String → Option Json) : Prop :=
  ∀ m ∈ ms, ∃ j, fields m.1 = some j ∧ m.2.Reorders j

theorem lookup_of_mem {ms : List (String × Json)} (hnodup : (ms.map (·.1)).Nodup) {name : String}
    {j : Json} (h : (name, j) ∈ ms) : ms.lookup name = some j := by
  obtain ⟨before, after, rfl⟩ := List.append_of_mem h
  rw [List.map_append, List.nodup_append] at hnodup
  refine List.lookup_eq_some_iff.2 ⟨before, after, rfl, fun m hm => ?_⟩
  exact bne_iff_ne.2 (hnodup.2.2 _ (List.mem_map_of_mem hm) _ List.mem_cons_self).symm

/-- An object with different names whose members pass their checks is read as a record. -/
theorem exists_fields (names : List String) {ms : List (String × Json)}
    (hnodup : (ms.map (·.1)).Nodup) {check : String → Json → Except JsonError Unit}
    (hcheck : ∀ m ∈ ms, Reads (check m.1) m.2 ()) {j : Json} (h : Reorders (.object ms) j) :
    ∃ fields, j.toRecord names check = .ok fields ∧ Fields ms fields := by
  obtain ⟨ms', rfl, hnames, hmembers⟩ := h.object_cases
  have hchecked : (ms'.forM fun m => if m.1 ∈ names then check m.1 m.2 else .ok ()) = .ok () := by
    refine forM_eq_ok.2 fun m' hm' => ?_
    obtain ⟨m, hm, hname, hcontent⟩ := hmembers m' hm'
    split
    · exact hname ▸ hcheck m hm m'.2 hcontent
    · rfl
  refine ⟨fun name => ms'.lookup name, by rw [toRecord, hchecked]; rfl, fun m hm => ?_⟩
  obtain ⟨m', hm', hname'⟩ := List.mem_map.1 (hnames.mem_iff.1 (List.mem_map_of_mem hm))
  obtain ⟨m₂, hm₂, hname, hcontent⟩ := hmembers m' hm'
  obtain rfl := List.inj_on_of_nodup_map hnodup hm₂ hm (hname.trans hname')
  exact ⟨m'.2, lookup_of_mem (hnames.nodup_iff.1 hnodup) (hname' ▸ hm'), hcontent⟩

theorem Fields.required {ms : List (String × Json)} {fields : String → Option Json}
    (h : Fields ms fields) {name : String} {j : Json} (hm : (name, j) ∈ ms)
    {f : Json → Except JsonError α} {a : α} (hf : Reads f j a) :
    required fields name f = .ok a := by
  obtain ⟨j', hj, hre⟩ := h _ hm
  rw [Json.required, hj]
  exact hf j' hre

theorem Fields.optional {ms : List (String × Json)} {fields : String → Option Json}
    (h : Fields ms fields) {name : String} {j : Json} (hm : (name, j) ∈ ms)
    {f : Json → Except JsonError α} {a : Option α} (hf : Reads (toOption f) j a) :
    optional fields name f = .ok a := by
  obtain ⟨j', hj, hre⟩ := h _ hm
  rw [Json.optional, hj]
  exact hf j' hre

/-- A record is read from its fields, if these pass their checks. -/
theorem Reads.record {ms : List (String × Json)} (hnodup : (ms.map (·.1)).Nodup)
    {names : List String} {check : String → Json → Except JsonError Unit}
    (hcheck : ∀ m ∈ ms, Reads (check m.1) m.2 ()) {a : α}
    {f : (String → Option Json) → Except JsonError α}
    (h : ∀ fields, Fields ms fields → f fields = .ok a) :
    Reads (fun j => j.toRecord names check >>= f) (.object ms) a := by
  intro j hj
  obtain ⟨fields, hread, hfields⟩ := exists_fields names hnodup hcheck hj
  dsimp only
  rw [hread, ok_bind, h fields hfields]

end Json
end EntityGraph
