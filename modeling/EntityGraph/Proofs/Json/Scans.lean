import EntityGraph.Json.Scan
import EntityGraph.Proofs.Json.Values

/-!
# Reading the forms of scans

A scan without floats in the values of its conditions is read from its form in any order of the
members (`Scan.reads_toJson`).
-/

namespace EntityGraph

open Json (Reads tagged)

theorem ScanField.reads : ∀ field : ScanField, Reads ofJson field.toJson field
  | property name => .of_tagged fun content h => by
    cases h
    rfl
  | key => fun j hj => by
    cases hj
    rfl

/-- A case without data is read if its name is told from those of the others. -/
theorem Json.reads_toCase {α : Type} {ofName? : String → Option α} {name : String} {a : α}
    (h : ofName? name = some a) : Reads (Json.toCase ofName?) (.string name) a := by
  intro j hj
  cases hj
  rw [Json.toCase, Json.toTagged, ok_bind]
  simp only [h]
  rfl

theorem ScanOp.ofName?_name (op : ScanOp) : ofName? op.name = some op := by
  cases op <;> rfl

theorem Direction.ofName?_name (d : Direction) : ofName? d.name = some d := by
  cases d <;> rfl

theorem ScanCondition.reads (c : ScanCondition) (h : ¬c.value.HasFloat) :
    Reads ofJson c.toJson c := by
  have hfield := c.field.reads
  have hop := Json.reads_toCase c.op.ofName?_name
  have hvalue := c.value.reads h
  refine .record (by simp) ?_ fun fields h => ?_
  · simpa using ⟨hfield.discard, hop.discard, hvalue.discard⟩
  · rw [h.required (by simp) hfield, h.required (by simp) hop, h.required (by simp) hvalue]
    rfl

theorem ScanSort.reads (s : ScanSort) : Reads ofJson s.toJson s := by
  have hfield := s.field.reads
  have hdirection := Json.reads_toCase s.direction.ofName?_name
  refine .record (by simp) ?_ fun fields h => ?_
  · simpa using ⟨hfield.discard, hdirection.discard⟩
  · rw [h.required (by simp) hfield, h.required (by simp) hdirection]
    rfl

theorem Window.reads (w : Window) : Reads ofJson w.toJson w := by
  have hstart := Reads.uint64 w.start
  have hstop : Reads (Json.toOption Json.toUInt64) _ w.stop :=
    .option .uint64 fun _ => nofun
  refine .record (by simp) ?_ fun fields h => ?_
  · simpa using ⟨hstart.discard, hstop.discard⟩
  · rw [h.required (by simp) hstart, h.optional (by simp) hstop]
    rfl

namespace Scan

/-- A scan without floats in its conditions is read as it was from its form, whatever the order of
the members. -/
theorem reads_toJson (s : Scan) (h : ∀ c ∈ s.conditions, ¬c.value.HasFloat) :
    ofJson s.toJson = .ok s ∧ ∀ j, s.toJson.Reorders j → ofJson j = .ok s := by
  have hkind := Reads.string s.kind
  have hancestor : Reads (Json.toOption Key.ofJson) _ s.ancestor :=
    .option Key.reads fun _ => nofun
  have hconditions : Reads Json.toConditions _ s.conditions := .items fun c hc => c.reads (h c hc)
  have hsorts : Reads Json.toSorts _ s.sorts := .items fun t _ => t.reads
  have hwindow := s.window.reads
  have hreads : Reads ofJson s.toJson s := by
    refine .record (by simp) ?_ fun fields h => ?_
    · simpa using ⟨hkind.discard, hancestor.discard, hconditions.discard, hsorts.discard,
        hwindow.discard⟩
    · rw [h.required (by simp) hkind, h.optional (by simp) hancestor,
        h.required (by simp) hconditions, h.required (by simp) hsorts, h.required (by simp) hwindow]
      rfl
  exact ⟨hreads.eq_ok, hreads⟩

/-- A scan with values in values, the highest number as an id and a text that reads as a tag. -/
def sampleScan : Scan where
  kind := "Pet"
  ancestor := some (.single ⟨"Person", some (.number 18446744073709551615)⟩ (by decide))
  conditions := [
    ⟨.property "tags", .within,
      .list [.null, .list [.blob [0, 255], .text "Null", .int (-9223372036854775808)]]⟩,
    ⟨.key, .ge, .key (.single ⟨"Person", some (.name "ann")⟩ (by decide))⟩]
  sorts := [⟨.property "age", .descending⟩, ⟨.key, .ascending⟩]
  window := ⟨2, some 18446744073709551615⟩

/-- Its form, with the members from the last to the first. -/
def sampleForm : Json := .object [
  ("range", .object [("from", .integer 2), ("to", .integer 18446744073709551615)]),
  ("sorts", .array [
    .object [("field", tagged "property" (.string "age")), ("direction", .string "desc")],
    .object [("field", .string "key"), ("direction", .string "asc")]]),
  ("filters", .array [
    .object [("field", tagged "property" (.string "tags")), ("op", .string "in"),
      ("value", tagged "List" (.array [.string "Null",
        tagged "List" (.array [tagged "Blob" (.array [.integer 0, .integer 255]),
          tagged "Text" (.string "Null"), tagged "Int" (.integer (-9223372036854775808))])]))],
    .object [("field", .string "key"), ("op", .string "gte"),
      ("value", tagged "Key" (.object [("path", .array [
        .object [("kind", .string "Person"), ("id", tagged "Name" (.string "ann"))]])]))]]),
  ("ancestor", .object [("path", .array [
    .object [("kind", .string "Person"), ("id", tagged "Id" (.integer 18446744073709551615))]])]),
  ("kind", .string "Pet")]

theorem reads_toJson_sample :
    (∀ c ∈ sampleScan.conditions, ¬c.value.HasFloat) ∧ ofJson sampleScan.toJson = .ok sampleScan ∧
      sampleScan.toJson.Reorders sampleForm ∧ ofJson sampleForm = .ok sampleScan := by
  have hfree : ∀ c ∈ sampleScan.conditions, ¬c.value.HasFloat := by
    simp only [sampleScan]
    grind [cases Value.HasFloat]
  have hform : sampleScan.toJson.Reorders sampleForm := .of_perm (List.reverse_perm _).symm
  exact ⟨hfree, (reads_toJson sampleScan hfree).1, hform, (reads_toJson sampleScan hfree).2 _ hform⟩

end Scan
end EntityGraph
