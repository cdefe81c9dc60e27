import EntityGraph.Text.Order

/-!
# Keys

A key names a row by a path of elements, each a kind with an id: all elements but the last name the
ancestors of the row. Ids are numbers given out by the store or names chosen by the caller. The last
element may lack its id until the row is first written; a key is never changed otherwise.

`Key` carries the rules of a path (`Key.WellFormed`), and `Key.ofPath` reads every path that obeys
them. Keys are ordered by their paths, so that an ancestor sorts just before its descendants.
-/

namespace EntityGraph

/-- The id of a path element. -/
inductive KeyId where
  | number (n : UInt64)
  | name (s : String)
deriving DecidableEq

namespace KeyId

/-- Numbers come before names. -/
protected def compare : KeyId → KeyId → Ordering
  | number a, number b => compare a b
  | number _, name _ => .lt
  | name _, number _ => .gt
  | name a, name b => compareText a b

def text : KeyId → String
  | number n => toString n.toNat
  | name s => "\"" ++ s ++ "\""

end KeyId

/-- One step of a path: a kind, and an id unless it is still to be given out. -/
structure PathElement where
  kind : String
  id : Option KeyId
deriving DecidableEq

namespace PathElement

/-- Kinds and names are not empty. -/
def Valid (e : PathElement) : Prop := e.kind ≠ "" ∧ e.id ≠ some (.name "")

instance (e : PathElement) : Decidable e.Valid := inferInstanceAs (Decidable (_ ∧ _))

/-- The order of ids, in which a missing id comes first. -/
def compareId : Option KeyId → Option KeyId → Ordering
  | none, none => .eq
  | none, some _ => .lt
  | some _, none => .gt
  | some a, some b => a.compare b

/-- Elements are ordered by kind, then by id. -/
protected def compare (a b : PathElement) : Ordering :=
  (compareText a.kind b.kind).then (compareId a.id b.id)

def text (e : PathElement) : String :=
  e.kind ++ "(" ++ (match e.id with | some id => id.text | none => "?") ++ ")"

end PathElement

/-- Why a key cannot be built or used. Keys are given by their text. -/
inductive KeyError where
  | emptyKind
  | emptyName (kind : String)
  | incompleteAncestor (ancestor : String)
  | alreadyComplete (key : String)
  | incomplete (key : String)
  | emptyPath
deriving DecidableEq

namespace KeyError

def message : KeyError → String
  | emptyKind => "key kind must be non-empty"
  | emptyName kind => s!"key name must be non-empty (kind '{kind}')"
  | incompleteAncestor ancestor =>
    s!"ancestor key {ancestor} is incomplete; ancestors must be written first"
  | alreadyComplete key => s!"key {key} is already complete and cannot be reassigned"
  | incomplete key => s!"key {key} is incomplete"
  | emptyPath => "key path must be non-empty"

end KeyError

/-- The element with the given parts, or what is wrong with them. -/
def PathElement.make (kind : String) (id : Option KeyId) :
    Except KeyError { e : PathElement // e.Valid } :=
  if hk : kind = "" then .error .emptyKind
  else if hn : id = some (.name "") then .error (.emptyName kind)
  else .ok ⟨⟨kind, id⟩, hk, hn⟩

theorem PathElement.eq_of_make {kind : String} {id : Option KeyId}
    {e : { e : PathElement // e.Valid }} (h : PathElement.make kind id = .ok e) :
    e.1 = ⟨kind, id⟩ := by
  unfold PathElement.make at h
  split at h
  · cases h
  · split at h
    · cases h
    · cases h
      rfl

namespace Key

/-- The rules of a path: it has an element, its elements are valid, and only the last may lack its
id. -/
structure WellFormed (path : List PathElement) : Prop where
  nonempty : path ≠ []
  valid : ∀ e ∈ path, e.Valid
  complete : ∀ e ∈ path.dropLast, e.id.isSome

end Key

/-- A row's name: a well-formed path. -/
@[ext]
structure Key where
  path : List PathElement
  wellFormed : Key.WellFormed path
deriving DecidableEq

namespace Key

/-- Keys are ordered by their paths, element by element. -/
protected def compare (a b : Key) : Ordering := List.compareLex PathElement.compare a.path b.path

def text (k : Key) : String := "/".intercalate (k.path.map PathElement.text)

/-- The element that names the row itself. -/
def last (k : Key) : PathElement := k.path.getLast k.wellFormed.nonempty

def kind (k : Key) : String := k.last.kind
def id (k : Key) : Option KeyId := k.last.id
def isComplete (k : Key) : Bool := k.id.isSome
def depth (k : Key) : Nat := k.path.length

/-- The elements that name the ancestors. -/
def ancestorPath (k : Key) : List PathElement := k.path.dropLast

theorem path_eq (k : Key) : k.path = k.ancestorPath ++ [k.last] :=
  (List.dropLast_concat_getLast k.wellFormed.nonempty).symm

theorem last_mem (k : Key) : k.last ∈ k.path := List.getLast_mem _

theorem kind_ne_empty (k : Key) : k.kind ≠ "" := (k.wellFormed.valid _ k.last_mem).1

/-- The key of one element. -/
def single (e : PathElement) (h : e.Valid) : Key :=
  ⟨[e], by simp, by simpa using h, by simp⟩

/-- A complete key with one more element. -/
def extend (k : Key) (hk : k.isComplete) (e : PathElement) (h : e.Valid) : Key where
  path := k.path ++ [e]
  wellFormed := by
    refine ⟨by simp, ?_, ?_⟩
    · intro x hx
      rcases List.mem_append.1 hx with hx | hx
      · exact k.wellFormed.valid x hx
      · exact List.mem_singleton.1 hx ▸ h
    · rw [List.dropLast_concat]
      intro x hx
      rw [k.path_eq] at hx
      rcases List.mem_append.1 hx with hx | hx
      · exact k.wellFormed.complete x hx
      · exact List.mem_singleton.1 hx ▸ hk

@[simp] theorem last_single (e : PathElement) (h : e.Valid) : (single e h).last = e := rfl

@[simp] theorem last_extend (k : Key) (hk : k.isComplete) (e : PathElement) (h : e.Valid) :
    (k.extend hk e h).last = e := by
  simp [last, extend]

/-- A complete key with one more element of the given parts. -/
def extend? (k : Key) (kind : String) (id : Option KeyId) : Except KeyError Key :=
  if hk : k.isComplete then do
    let e ← PathElement.make kind id
    return k.extend hk e.1 e.2
  else .error (.incompleteAncestor k.text)

/-- The complete key of a root row. -/
def root? (kind : String) (id : KeyId) : Except KeyError Key := do
  let e ← PathElement.make kind (some id)
  return single e.1 e.2

/-- The key of a row that has yet to be written, under `parent` if one is given. -/
def pending? (kind : String) (parent : Option Key) : Except KeyError Key :=
  match parent with
  | some p => p.extend? kind none
  | none => do
    let e ← PathElement.make kind none
    return single e.1 e.2

/-- The complete key of a row under `k`, which has to be complete itself. -/
def child? (k : Key) (kind : String) (id : KeyId) : Except KeyError Key := k.extend? kind (some id)

/-- The key with `id` in its last element. -/
def withId (k : Key) (id : KeyId) (h : id ≠ .name "") : Key where
  path := k.ancestorPath ++ [⟨k.kind, some id⟩]
  wellFormed := by
    refine ⟨by simp, ?_, ?_⟩
    · intro x hx
      rcases List.mem_append.1 hx with hx | hx
      · exact k.wellFormed.valid x (List.dropLast_subset _ hx)
      · rw [List.mem_singleton.1 hx]
        exact ⟨(k.wellFormed.valid _ k.last_mem).1, by simpa using h⟩
    · rw [List.dropLast_concat]
      exact k.wellFormed.complete

/-- The key with a number given out by the store in its last element. -/
def assign (k : Key) (n : UInt64) : Key := k.withId (.number n) (by simp)

@[simp] theorem isComplete_assign (k : Key) (n : UInt64) : (k.assign n).isComplete = true := by
  simp [assign, withId, isComplete, id, last]

@[simp] theorem kind_assign (k : Key) (n : UInt64) : (k.assign n).kind = k.kind := by
  simp [assign, withId, kind, last]

@[simp] theorem id_assign (k : Key) (n : UInt64) : (k.assign n).id = some (.number n) := by
  simp [assign, withId, id, last]

/-- The key completed by `id`; a complete key keeps its id for good. -/
def complete? (k : Key) (id : KeyId) : Except KeyError Key :=
  if k.isComplete then .error (.alreadyComplete k.text)
  else if h : id = .name "" then .error (.emptyName k.kind)
  else .ok (k.withId id h)

/-- The key of the row directly above, unless the row is a root. -/
def parent (k : Key) : Option Key :=
  if h : k.ancestorPath = [] then none
  else some ⟨k.ancestorPath, h, fun e he => k.wellFormed.valid e (List.dropLast_subset _ he),
    fun e he => k.wellFormed.complete e (List.dropLast_subset _ he)⟩

/-- The first element of the path. -/
def rootElement (k : Key) : PathElement := k.path.head k.wellFormed.nonempty

/-- The key of the first element, which names the entity group. -/
def root (k : Key) : Key :=
  single k.rootElement (k.wellFormed.valid _ (List.head_mem _))

/-- Whether `a` is an ancestor of `b`: its path is a proper beginning of the other. -/
def isAncestorOf (a b : Key) : Bool := a.path.length < b.path.length && a.path.isPrefixOf b.path

/-- Whether `k` is `a` or one of its descendants. -/
def isWithin (k a : Key) : Bool := k == a || a.isAncestorOf k

/-- A key is within those that its path starts with. -/
theorem isWithin_iff {k a : Key} : k.isWithin a = true ↔ a.path <+: k.path := by
  simp only [isWithin, isAncestorOf, Bool.or_eq_true, beq_iff_eq, Bool.and_eq_true,
    decide_eq_true_eq, List.isPrefixOf_iff_prefix]
  constructor
  · rintro (rfl | ⟨-, h⟩)
    · exact List.prefix_rfl
    · exact h
  · intro h
    obtain hlt | hle := Nat.lt_or_ge a.path.length k.path.length
    · exact .inr ⟨hlt, h⟩
    · exact .inl (Key.ext (h.eq_of_length_le hle).symm)

/-- Whether two keys have the same root element. -/
def sameGroup (a b : Key) : Bool := a.rootElement == b.rootElement

/-- The key whose path starts with that of `k` and goes on with `rest`. -/
def followPath (k : Key) : List PathElement → Except KeyError Key
  | [] => .ok k
  | e :: rest =>
    if hk : k.isComplete then do
      let e ← PathElement.make e.kind e.id
      (k.extend hk e.1 e.2).followPath rest
    else .error (.incompleteAncestor k.last.text)

/-- The key of a path, or the first rule that the path breaks, from its beginning. -/
def ofPath : List PathElement → Except KeyError Key
  | [] => .error .emptyPath
  | e :: rest => do
    let e ← PathElement.make e.kind e.id
    (single e.1 e.2).followPath rest

end Key
end EntityGraph
