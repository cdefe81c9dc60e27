import EntityGraph.Proofs.Json.Values
import EntityGraph.Proofs.Key.Paths

/-!
# What is a key

The rules of paths (`Key.WellFormed`) are exact. A path of which they hold is read as a key, and it
is the path of a key that calls make; and calls make keys of no other paths, so that none of them
crashes (`BarePath.rules_decide`).
-/

namespace EntityGraph
namespace BarePath

open Key (onPaths)

/-- No call on the path crashes. -/
structure NeverCrashes (p : BarePath) : Prop where
  last : last p ≠ .error .crash
  root : root p ≠ .error .crash
  sameGroup : ∀ q, Obtained q → sameGroup p q ≠ .error .crash
  encode : encode p ≠ .error .crash
  incomplete : ∀ kind, incomplete kind (some p) ≠ .error .crash
  child : ∀ kind id, child p kind id ≠ .error .crash
  complete : ∀ id, complete p id ≠ .error .crash

theorem mapError_ne_crash {α : Type} (x : Except KeyError α) :
    x.mapError PathFault.refused ≠ .error .crash := by
  cases x <;> nofun

theorem neverCrashes (k : Key) : NeverCrashes k.path where
  last := k.path_last_eq ▸ nofun
  root := k.root_eq ▸ nofun
  sameGroup q hq := k.sameGroup_eq ⟨q, wellFormed_of_obtained hq⟩ ▸ nofun
  encode := k.encode_eq ▸ mapError_ne_crash _
  incomplete kind := k.agreesWithPath.incomplete kind ▸ mapError_ne_crash _
  child kind id := k.agreesWithPath.child kind id ▸ mapError_ne_crash _
  complete id := k.complete_eq id ▸ mapError_ne_crash _

/-- The calls on bare paths are those on keys, with the checks that keys spare them. -/
structure CallsAgree : Prop where
  new : ∀ kind id, new kind id = onPaths (Key.root? kind id)
  incomplete : ∀ kind, incomplete kind none = onPaths (Key.pending? kind none)
  read : ∀ p, read p = onPaths (Key.ofPath p)
  onKeys : ∀ k : Key, k.AgreesWithPath

/-- The rules decide what becomes of a path. -/
structure DecidedByRules (p : BarePath) : Prop where
  /-- A document with the path is read as a key if and only if they hold. -/
  accepted : ∀ j : Json, j.toKeyPath = .ok p → ((∃ k, Key.ofJson j = .ok k) ↔ Key.WellFormed p)
  /-- It is read as the key that has the path. -/
  kept : ∀ (j : Json) (k : Key), j.toKeyPath = .ok p → (Key.ofJson j = .ok k ↔ k.path = p)
  /-- There are documents with the path: its form, in any order of the members. -/
  form : Json.Reads Json.toKeyPath (Key.pathToJson p) p
  /-- Calls make the path of each other and read it if and only if they hold. -/
  obtained : Obtained p ↔ Key.WellFormed p
  /-- Then the path can be made without completing, cutting or reading any. -/
  built : Built p ↔ Key.WellFormed p
  safe : Obtained p → NeverCrashes p
  /-- The form of a key is read as the key. -/
  same : ∀ k : Key, k.path = p → Json.Reads Key.ofJson k.toJson k

theorem accepted_iff {p : BarePath} {j : Json} (h : j.toKeyPath = .ok p) :
    (∃ k, Key.ofJson j = .ok k) ↔ Key.WellFormed p := by
  constructor
  · rintro ⟨k, hk⟩
    exact (Key.ofJson_eq_ok_iff h).1 hk ▸ k.wellFormed
  · exact fun hp => ⟨⟨p, hp⟩, (Key.ofJson_eq_ok_iff h).2 rfl⟩

theorem obtained_iff {p : BarePath} : Obtained p ↔ Key.WellFormed p :=
  ⟨wellFormed_of_obtained, fun h => obtained_of_built (built_of_wellFormed h)⟩

/-- The rules decide what is a key, of which calls on bare paths and on keys make the same. -/
theorem rules_decide : CallsAgree ∧ ∀ p, DecidedByRules p where
  left := ⟨Key.new_eq, Key.incomplete_none_eq, read_eq, Key.agreesWithPath⟩
  right p := {
    accepted := fun _ => accepted_iff
    kept := fun _ _ => Key.ofJson_eq_ok_iff
    form := Key.reads_path p
    obtained := obtained_iff
    built := ⟨fun h => wellFormed_of_obtained (obtained_of_built h), built_of_wellFormed⟩
    safe := fun h => neverCrashes ⟨p, wellFormed_of_obtained h⟩
    same := fun k _ => k.reads }

/-- An ancestor without an id, which the calls do not make either. -/
example : Key.ofJson (Key.pathToJson [⟨"Person", none⟩, ⟨"Pet", some (.number 1)⟩]) =
      .error (.key (.incompleteAncestor "Person(?)")) ∧
    child [⟨"Person", none⟩] "Pet" (.number 1) =
      .error (.refused (.incompleteAncestor "Person(?)")) := by
  constructor <;> rfl

end BarePath
end EntityGraph
