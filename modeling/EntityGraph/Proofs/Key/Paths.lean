import Mathlib.Data.List.Induction
import EntityGraph.Proofs.Key.Encoding
import EntityGraph.Proofs.Sequencing

/-!
# Bare paths

A key holds the rules of its path (`Key.WellFormed`) as part of itself. Here are the calls that make
keys of keys, on bare paths of which nothing is known: each makes its own checks and no others, and
crashes where it takes an element that is not there or comes to a case that it rules out.

* `BarePath.Obtained`: the paths that calls make of each other and read, in any order;
* `BarePath.Built`: those that are made without completing, cutting or reading any;
* `Key.AgreesWithPath`, `Key.agreesWithPath`: on the path of a key each call does what it does on
  the key, so that it does not crash;
* `BarePath.wellFormed_of_obtained`, `BarePath.built_of_wellFormed`: the rules hold of all paths
  that are obtained, and all paths of which they hold can be built.
-/

namespace EntityGraph

/-! ## The paths that are read -/

theorem PathElement.make_of_valid {e : PathElement} (h : e.Valid) :
    make e.kind e.id = .ok ⟨e, h⟩ := by
  rw [make, dif_neg h.1, dif_neg h.2]

namespace Key

@[simp] theorem path_single (e : PathElement) (h : e.Valid) : (single e h).path = [e] := rfl

@[simp] theorem path_extend (k : Key) (hk : k.isComplete) (e : PathElement) (h : e.Valid) :
    (k.extend hk e h).path = k.path ++ [e] := rfl

theorem followPath_eq_ok_iff {k k' : Key} {rest : List PathElement} :
    k.followPath rest = .ok k' ↔ k'.path = k.path ++ rest := by
  induction rest generalizing k with
  | nil =>
    rw [followPath, Except.ok.injEq, List.append_nil]
    exact ⟨fun h => h ▸ rfl, fun h => Key.ext h.symm⟩
  | cons e rest ih =>
    rw [followPath]
    constructor
    · intro h
      split at h
      · obtain ⟨e', he', h⟩ := bind_eq_ok.1 h
        rw [ih.1 h, path_extend, PathElement.eq_of_make he', List.append_assoc]
        rfl
      · cases h
    · intro h
      -- The key with the whole path vouches for the elements that are still to be read.
      have hmem : ∀ x ∈ k.path ++ e :: rest, x.Valid := h ▸ k'.wellFormed.valid
      have hlast : k.last ∈ (k.path ++ e :: rest).dropLast := by
        rw [List.dropLast_append_of_ne_nil (List.cons_ne_nil e rest)]
        exact List.mem_append_left _ k.last_mem
      have hcomplete : k.isComplete := k'.wellFormed.complete _ (h ▸ hlast)
      rw [dif_pos hcomplete, PathElement.make_of_valid (hmem e (by simp)), ok_bind, ih, h,
        path_extend, List.append_assoc]
      rfl

/-- A path is read as the key that has it. -/
theorem ofPath_eq_ok_iff {path : List PathElement} {k : Key} :
    ofPath path = .ok k ↔ k.path = path := by
  cases path with
  | nil => exact ⟨nofun, fun h => absurd h k.wellFormed.nonempty⟩
  | cons e rest =>
    rw [ofPath]
    constructor
    · intro h
      obtain ⟨e', he', h⟩ := bind_eq_ok.1 h
      rw [followPath_eq_ok_iff.1 h, path_single, PathElement.eq_of_make he']
      rfl
    · intro h
      have he : e.Valid := k.wellFormed.valid e (h ▸ List.mem_cons_self)
      rw [PathElement.make_of_valid he, ok_bind]
      exact followPath_eq_ok_iff.2 h

end Key

/-! ## Calls on bare paths -/

/-- Why a call on a bare path comes to nothing. -/
inductive PathFault where
  | refused (e : KeyError)
  /-- The call takes an element that is not there, or comes to a case that it rules out. -/
  | crash

abbrev BarePath := List PathElement

namespace BarePath

def text (p : BarePath) : String := "/".intercalate (p.map PathElement.text)

def last (p : BarePath) : Except PathFault PathElement :=
  match p.getLast? with
  | some e => .ok e
  | none => .error .crash

def first (p : BarePath) : Except PathFault PathElement :=
  match p.head? with
  | some e => .ok e
  | none => .error .crash

/-- The element with the given parts, if neither the kind nor a name is empty. -/
def element (kind : String) (id : Option KeyId) : Except PathFault PathElement :=
  if kind = "" then .error (.refused .emptyKind)
  else if id = some (.name "") then .error (.refused (.emptyName kind))
  else .ok ⟨kind, id⟩

/-- The last element has to have its id. -/
def checkComplete (p : BarePath) (e : KeyError) : Except PathFault Unit := do
  if (← last p).id.isNone then throw (.refused e)

def checkAncestor (p : BarePath) : Except PathFault Unit :=
  checkComplete p (.incompleteAncestor (text p))

/-- The complete path of a root. -/
def new (kind : String) (id : KeyId) : Except PathFault BarePath := do
  return [← element kind (some id)]

/-- The path of a row that has yet to be written, under `parent` if one is given. -/
def incomplete (kind : String) (parent : Option BarePath) : Except PathFault BarePath := do
  match parent with
  | some p =>
    checkAncestor p
    return p ++ [← element kind none]
  | none => return [← element kind none]

def child (p : BarePath) (kind : String) (id : KeyId) : Except PathFault BarePath := do
  checkAncestor p
  return p ++ [← element kind (some id)]

/-- The path with `id` in its last element, which has none. -/
def complete (p : BarePath) (id : KeyId) : Except PathFault BarePath := do
  let e ← last p
  if e.id.isSome then .error (.refused (.alreadyComplete (text p)))
  else if id = .name "" then .error (.refused (.emptyName e.kind))
  else .ok (p.dropLast ++ [{ e with id := some id }])

def parent (p : BarePath) : Option BarePath := if 1 < p.length then some p.dropLast else none

def root (p : BarePath) : Except PathFault BarePath := do
  return [← first p]

/-- A path as it is read: the elements one by one, and all but the last have to have an id. -/
def read : List PathElement → Except PathFault BarePath
  | [] => .error (.refused .emptyPath)
  | [e] => do
    return [← element e.kind e.id]
  | e :: rest => do
    let e ← element e.kind e.id
    if e.id.isNone then throw (.refused (.incompleteAncestor e.text))
    return e :: (← read rest)

def sameGroup (p q : BarePath) : Except PathFault Bool := do
  return (← first p) == (← first q)

def elementBytes (e : PathElement) : Except PathFault (List UInt8) :=
  match e.id with
  | some id => .ok (escapeBytes (utf8 e.kind) ++ id.bytes)
  | none => .error .crash

/-- The bytes of a complete path, in which no element is to be without an id. -/
def encode (p : BarePath) : Except PathFault (List UInt8) := do
  checkComplete p (.incomplete (text p))
  return (← p.mapM elementBytes).flatten

/-- The paths that calls make of each other and read. -/
inductive Obtained : BarePath → Prop where
  | new {kind : String} {id : KeyId} {p : BarePath} : new kind id = .ok p → Obtained p
  | incomplete {kind : String} {parent : Option BarePath} {p : BarePath} :
    (∀ q, parent = some q → Obtained q) → incomplete kind parent = .ok p → Obtained p
  | child {q p : BarePath} {kind : String} {id : KeyId} :
    Obtained q → child q kind id = .ok p → Obtained p
  | complete {q p : BarePath} {id : KeyId} : Obtained q → complete q id = .ok p → Obtained p
  | parent {q p : BarePath} : Obtained q → parent q = some p → Obtained p
  | root {q p : BarePath} : Obtained q → root q = .ok p → Obtained p
  | read {es : List PathElement} {p : BarePath} : read es = .ok p → Obtained p

/-- The paths that are made as those of roots and of children, complete or not. -/
inductive Built : BarePath → Prop where
  | new {kind : String} {id : KeyId} {p : BarePath} : new kind id = .ok p → Built p
  | incomplete {kind : String} {parent : Option BarePath} {p : BarePath} :
    (∀ q, parent = some q → Built q) → incomplete kind parent = .ok p → Built p
  | child {q p : BarePath} {kind : String} {id : KeyId} :
    Built q → child q kind id = .ok p → Built p

end BarePath

/-! ## Keys and their paths -/

/-- What a call that makes a key makes of paths. -/
def Key.onPaths (x : Except KeyError Key) : Except PathFault BarePath :=
  (x.map Key.path).mapError .refused

/-- On the path of a key calls do what they do on the key. -/
structure Key.AgreesWithPath (k : Key) : Prop where
  last : BarePath.last k.path = .ok k.last
  incomplete : ∀ kind, BarePath.incomplete kind (some k.path) = onPaths (pending? kind (some k))
  child : ∀ kind id, BarePath.child k.path kind id = onPaths (k.child? kind id)
  complete : ∀ id, BarePath.complete k.path id = onPaths (k.complete? id)
  parent : BarePath.parent k.path = k.parent.map Key.path
  root : BarePath.root k.path = .ok k.root.path
  sameGroup : ∀ k' : Key, BarePath.sameGroup k.path k'.path = .ok (k.sameGroup k')
  encode : BarePath.encode k.path = k.encode.mapError .refused

namespace Key

theorem element_eq (kind : String) (id : Option KeyId) :
    BarePath.element kind id = ((PathElement.make kind id).map (·.1)).mapError .refused := by
  unfold BarePath.element PathElement.make
  split
  · rfl
  · split <;> rfl

theorem new_eq (kind : String) (id : KeyId) : BarePath.new kind id = onPaths (root? kind id) := by
  rw [BarePath.new, element_eq, root?]
  cases PathElement.make kind (some id) <;> rfl

theorem incomplete_none_eq (kind : String) :
    BarePath.incomplete kind none = onPaths (pending? kind none) := by
  rw [BarePath.incomplete, element_eq, pending?]
  cases PathElement.make kind none <;> rfl

variable (k : Key)

theorem path_last_eq : BarePath.last k.path = .ok k.last := by
  rw [BarePath.last, List.getLast?_eq_some_getLast k.wellFormed.nonempty]
  rfl

theorem path_first_eq : BarePath.first k.path = .ok k.rootElement := by
  rw [BarePath.first, List.head?_eq_some_head k.wellFormed.nonempty]
  rfl

theorem checkComplete_eq (e : KeyError) : BarePath.checkComplete k.path e =
    if k.isComplete then .ok () else .error (.refused e) := by
  rw [BarePath.checkComplete, path_last_eq, ok_bind, isComplete, id]
  cases k.last.id <;> rfl

/-- A path goes on as its key does. -/
theorem extend_eq (kind : String) (id : Option KeyId) :
    (do BarePath.checkAncestor k.path; return k.path ++ [← BarePath.element kind id]) =
      onPaths (k.extend? kind id) := by
  rw [BarePath.checkAncestor, checkComplete_eq, element_eq, extend?]
  by_cases hk : k.isComplete
  · rw [if_pos hk, dif_pos hk]
    cases PathElement.make kind id <;> rfl
  · rw [if_neg hk, dif_neg hk]
    rfl

theorem complete_eq (id : KeyId) : BarePath.complete k.path id = onPaths (k.complete? id) := by
  rw [BarePath.complete, path_last_eq, ok_bind, complete?]
  by_cases hk : k.isComplete
  · rw [if_pos hk, if_pos (show k.last.id.isSome from hk)]
    rfl
  · rw [if_neg hk, if_neg (show ¬k.last.id.isSome from hk)]
    by_cases hid : id = .name ""
    · rw [if_pos hid, dif_pos hid]
      rfl
    · rw [if_neg hid, dif_neg hid]
      rfl

theorem parent_eq : BarePath.parent k.path = k.parent.map Key.path := by
  have hlength : 1 < k.path.length ↔ k.ancestorPath ≠ [] := by
    rw [k.path_eq, List.length_append, ← List.length_pos_iff]
    simp
  rw [BarePath.parent, parent]
  by_cases h : k.ancestorPath = []
  · rw [if_neg (mt hlength.1 (not_not.2 h)), dif_pos h]
    rfl
  · rw [if_pos (hlength.2 h), dif_neg h]
    rfl

theorem root_eq : BarePath.root k.path = .ok k.root.path := by
  rw [BarePath.root, path_first_eq]
  rfl

theorem sameGroup_eq (k' : Key) : BarePath.sameGroup k.path k'.path = .ok (k.sameGroup k') := by
  rw [BarePath.sameGroup, path_first_eq, path_first_eq]
  rfl

theorem mapM_bytes {es : BarePath} (h : ∀ e ∈ es, e.id.isSome) :
    es.mapM BarePath.elementBytes = .ok (es.map PathElement.bytes) := by
  induction es with
  | nil => rfl
  | cons e es ih =>
    obtain ⟨he, hes⟩ := List.forall_mem_cons.1 h
    obtain ⟨id, hid⟩ := Option.isSome_iff_exists.1 he
    rw [List.mapM_cons, ih hes, List.map_cons, BarePath.elementBytes, PathElement.bytes, hid]
    rfl

theorem encode_eq : BarePath.encode k.path = k.encode.mapError .refused := by
  rw [BarePath.encode, checkComplete_eq, encode]
  by_cases hk : k.isComplete
  · rw [if_pos hk, if_pos hk, ok_bind, mapM_bytes (isSome_of_isComplete hk), List.flatMap_def]
    rfl
  · rw [if_neg hk, if_neg hk]
    rfl

theorem agreesWithPath : k.AgreesWithPath where
  last := k.path_last_eq
  incomplete kind := k.extend_eq kind none
  child kind id := k.extend_eq kind (some id)
  complete := k.complete_eq
  parent := k.parent_eq
  root := k.root_eq
  sameGroup := k.sameGroup_eq
  encode := k.encode_eq

end Key

/-! ## Paths that calls make -/

namespace BarePath

open Key (onPaths)

theorem wellFormed_of_onPaths {x : Except KeyError Key} {p : BarePath} (h : onPaths x = .ok p) :
    Key.WellFormed p := by
  cases x with
  | error e => cases h
  | ok k =>
    cases h
    exact k.wellFormed

theorem read_of_make_error {e : PathElement} {rest : List PathElement} {x : KeyError}
    (h : PathElement.make e.kind e.id = .error x) : read (e :: rest) = .error (.refused x) := by
  cases rest with
  | nil =>
    rw [read, Key.element_eq, h]
    rfl
  | cons =>
    rw [read, Key.element_eq, h]
    · rfl
    · nofun

theorem read_of_make_ok {e e' : PathElement} {rest : List PathElement}
    {e₁ : { e : PathElement // e.Valid }} (h : PathElement.make e.kind e.id = .ok e₁) :
    read (e :: e' :: rest) =
      if e₁.1.id.isSome then (e₁.1 :: ·) <$> read (e' :: rest)
      else .error (.refused (.incompleteAncestor e₁.1.text)) := by
  rw [read, Key.element_eq, h]
  · change (do
      if e₁.1.id.isNone then throw _
      return e₁.1 :: (← read (e' :: rest))) = _
    cases e₁.1.id with
    | none => rfl
    | some id => cases read (e' :: rest) <;> rfl
  · nofun

/-- A path is read on behind a key as a path of its own. -/
theorem onPaths_followPath (k : Key) (e : PathElement) (rest : List PathElement) :
    onPaths (k.followPath (e :: rest)) =
      if k.isComplete then (k.path ++ ·) <$> read (e :: rest)
      else .error (.refused (.incompleteAncestor k.last.text)) := by
  -- At each step an element moves from the path that is still to be read to the key.
  induction rest generalizing k e with
  | nil =>
    rw [Key.followPath, read, Key.element_eq]
    by_cases hk : k.isComplete
    · rw [dif_pos hk, if_pos hk]
      cases PathElement.make e.kind e.id <;> rfl
    · rw [dif_neg hk, if_neg hk]
      rfl
  | cons e' rest ih =>
    rw [Key.followPath]
    by_cases hk : k.isComplete
    · rw [dif_pos hk, if_pos hk]
      cases h : PathElement.make e.kind e.id with
      | error => rw [read_of_make_error h]; rfl
      | ok e₁ =>
        rw [read_of_make_ok h, ok_bind, ih, Key.isComplete, Key.id, Key.last_extend,
          Key.path_extend]
        cases e₁.1.id with
        | none => rfl
        | some id => cases read (e' :: rest) <;> simp
    · rw [dif_neg hk, if_neg hk]
      rfl

theorem read_eq (p : BarePath) : read p = onPaths (Key.ofPath p) := by
  match p with
  | [] => rfl
  | [e] =>
    rw [read, Key.element_eq, Key.ofPath]
    cases PathElement.make e.kind e.id <;> rfl
  | e :: e' :: rest =>
    rw [Key.ofPath]
    cases h : PathElement.make e.kind e.id with
    | error => exact read_of_make_error h
    | ok e₁ =>
      rw [read_of_make_ok h, ok_bind, onPaths_followPath]
      rfl

/-- The rules hold of all paths that calls make of each other and read. -/
theorem wellFormed_of_obtained {p : BarePath} (h : Obtained p) : Key.WellFormed p := by
  induction h with
  | new h => exact wellFormed_of_onPaths (Key.new_eq _ _ ▸ h)
  | @incomplete kind parent p _ h ih =>
    cases parent with
    | none => exact wellFormed_of_onPaths (Key.incomplete_none_eq kind ▸ h)
    | some q =>
      have hkey := Key.agreesWithPath ⟨q, ih q rfl⟩
      exact wellFormed_of_onPaths (hkey.incomplete kind ▸ h)
  | child _ h ih => exact wellFormed_of_onPaths ((Key.agreesWithPath ⟨_, ih⟩).child _ _ ▸ h)
  | complete _ h ih => exact wellFormed_of_onPaths ((Key.agreesWithPath ⟨_, ih⟩).complete _ ▸ h)
  | parent _ h ih =>
    rw [(Key.agreesWithPath ⟨_, ih⟩).parent] at h
    obtain ⟨k, -, rfl⟩ := Option.map_eq_some_iff.1 h
    exact k.wellFormed
  | root _ h ih =>
    rw [(Key.agreesWithPath ⟨_, ih⟩).root] at h
    cases h
    exact Key.wellFormed _
  | read h => exact wellFormed_of_onPaths (read_eq _ ▸ h)

theorem obtained_of_built {p : BarePath} (h : Built p) : Obtained p := by
  induction h with
  | new h => exact .new h
  | incomplete _ h ih => exact .incomplete ih h
  | child _ h ih => exact .child ih h

theorem built_singleton {e : PathElement} (he : e.Valid) : Built [e] := by
  have hmade : element e.kind e.id = .ok e := by
    rw [Key.element_eq, PathElement.make_of_valid he]
    rfl
  obtain ⟨kind, id⟩ := e
  cases id with
  | none => exact @Built.incomplete kind none _ nofun (by rw [incomplete, hmade]; rfl)
  | some id => exact .new (by rw [new, hmade]; rfl)

theorem built_append {k : Key} (h : Built k.path) (hk : k.isComplete) {e : PathElement}
    (he : e.Valid) : Built (k.path ++ [e]) := by
  have hmade : onPaths (k.extend? e.kind e.id) = .ok (k.path ++ [e]) := by
    rw [Key.extend?, dif_pos hk, PathElement.make_of_valid he]
    rfl
  obtain ⟨kind, id⟩ := e
  cases id with
  | none =>
    refine @Built.incomplete kind (some k.path) _ (fun q hq => Option.some.inj hq ▸ h) ?_
    exact (k.agreesWithPath.incomplete kind).trans hmade
  | some id => exact .child h ((k.agreesWithPath.child kind id).trans hmade)

/-- All paths of which the rules hold are made element by element. -/
theorem built_of_wellFormed {p : BarePath} (h : Key.WellFormed p) : Built p := by
  induction p using List.reverseRecOn with
  | nil => exact absurd rfl h.nonempty
  | append_singleton q e ih =>
    have he : e.Valid := h.valid e (List.mem_append_right _ List.mem_cons_self)
    by_cases hq : q = []
    · subst hq
      exact built_singleton he
    · have hids : ∀ x ∈ q, x.id.isSome := by
        have := h.complete
        rwa [List.dropLast_concat] at this
      have hwf : Key.WellFormed q :=
        ⟨hq, fun x hx => h.valid x (List.mem_append_left _ hx),
          fun x hx => hids x (List.dropLast_subset _ hx)⟩
      let k : Key := ⟨q, hwf⟩
      exact built_append (ih hwf) (hids _ k.last_mem) he

end BarePath
end EntityGraph
