import EntityGraph.Json.Value
import EntityGraph.Proofs.Json.Forms
import EntityGraph.Proofs.Key.Paths
import EntityGraph.Proofs.Value.Order

/-!
# Reading the forms of keys and values

The forms of ids, path elements, keys and values are read as what they are the forms of
(`Json.Reads`). A float has the form of a null unless it is finite, so that this is said of values
without floats only; and any list of path elements has a form, so that the rules of paths decide
what is read as a key (`Key.ofJson_eq`).
-/

namespace EntityGraph

open Json (Reads tagged required)

/-! ## Keys -/

theorem KeyId.reads : ∀ id : KeyId, Reads KeyId.ofJson id.toJson id
  | number n => .of_tagged fun content h => by
    change number <$> content.toUInt64 = _
    rw [Reads.uint64 n content h]
    rfl
  | name s => .of_tagged fun content h => by
    change name <$> content.toString = _
    rw [Reads.string s content h]
    rfl

theorem KeyId.toJson_ne_null (id : KeyId) : id.toJson ≠ .null := by
  cases id <;> nofun

theorem PathElement.reads (e : PathElement) : Reads PathElement.ofJson e.toJson e := by
  have hkind := Reads.string e.kind
  have hid : Reads _ _ e.id := .option KeyId.reads KeyId.toJson_ne_null
  refine .record (by simp) ?_ fun fields h => ?_
  · simpa using ⟨hkind.discard, hid.discard⟩
  · rw [h.required (by simp) hkind, h.optional (by simp) hid]
    rfl

/-- The form of a path, whether it is that of a key or not. -/
def Key.pathToJson (path : List PathElement) : Json :=
  .object [("path", .array (path.map PathElement.toJson))]

/-- The path in the form of a key. -/
def Json.toKeyPath (j : Json) : Except JsonError (List PathElement) := do
  let fields ← j.toRecord ["path"] fun _ v => discard v.toPath
  required fields "path" Json.toPath

namespace Key

/-- A key is read from any document in which a path is that is one. -/
theorem ofJson_eq (j : Json) :
    ofJson j = j.toKeyPath >>= fun path => (ofPath path).mapError .key := by
  rw [ofJson, Json.toKeyPath, bind_assoc]
  congr
  funext fields
  congr
  funext path
  cases ofPath path <;> rfl

theorem reads_path (path : List PathElement) : Reads Json.toKeyPath (pathToJson path) path := by
  have hpath : Reads Json.toPath _ path := .items fun (e : PathElement) _ => e.reads
  refine .record (by simp) ?_ fun fields h => h.required (by simp) hpath
  simpa using hpath.discard

theorem ofJson_eq_ok_iff {j : Json} {path : List PathElement} {k : Key}
    (h : j.toKeyPath = .ok path) : ofJson j = .ok k ↔ k.path = path := by
  rw [ofJson_eq, h, ok_bind, mapError_eq_ok, ofPath_eq_ok_iff]

theorem reads (k : Key) : Reads ofJson k.toJson k :=
  fun j hj => (ofJson_eq_ok_iff (reads_path k.path j hj)).2 rfl

end Key

/-! ## Values -/

namespace Value

theorem listToJson_eq : ∀ vs : List Value, listToJson vs = vs.map toJson
  | [] => rfl
  | v :: vs => congrArg (v.toJson :: ·) (listToJson_eq vs)

theorem listOfJson_eq : ∀ js : List Json, listOfJson js = js.mapM ofJson
  | [] => rfl
  | j :: js => by
    rw [listOfJson, listOfJson_eq js, List.mapM_cons]

theorem reads_tagged {tag : String} {content : Json} {v : Value}
    (h : ∀ content', content.Reorders content' → ofTagged tag content' = .ok v) :
    Reads ofJson (tagged tag content) v :=
  .of_tagged fun content' hcontent => by rw [tagged, ofJson, h content' hcontent]

/-- A value without floats is read from its form. -/
theorem reads (v : Value) (h : ¬v.HasFloat) : Reads ofJson v.toJson v := by
  induction v using Value.induct with
  | h v ih =>
    rw [toJson.eq_def]
    cases v with
    | null =>
      intro j hj
      cases hj
      rw [ofJson, if_pos rfl]
    | bool b =>
      refine reads_tagged fun content hcontent => ?_
      cases hcontent
      rfl
    | int i =>
      refine reads_tagged fun content hcontent => ?_
      have hi := Reads.int64 i content hcontent
      cases hcontent
      simp only [ofTagged, hi]
      rfl
    | float d => exact absurd (.float d) h
    | text s =>
      refine reads_tagged fun content hcontent => ?_
      cases hcontent
      rfl
    | blob bytes =>
      refine reads_tagged fun content hcontent => ?_
      obtain ⟨js, rfl, hjs⟩ := hcontent.array_cases
      rw [ofTagged, if_neg (by decide), if_pos rfl, Reads.mapM (fun b _ => .byte b) hjs]
      rfl
    | key k =>
      refine reads_tagged fun content hcontent => ?_
      have hk := k.reads content hcontent
      obtain ⟨ms, rfl, -⟩ := hcontent.object_cases
      simp only [ofTagged, hk]
      rfl
    | list items =>
      have hitems : ∀ w ∈ items, Reads ofJson w.toJson w :=
        fun w hw => ih w hw fun hf => h (.item hw hf)
      refine reads_tagged fun content hcontent => ?_
      rw [listToJson_eq] at hcontent
      obtain ⟨js, rfl, hjs⟩ := hcontent.array_cases
      rw [ofTagged, if_pos rfl, listOfJson_eq, Reads.mapM hitems hjs]
      rfl

end Value
end EntityGraph
