import EntityGraph.Proofs.ObjectGraph.Visits

/-!
# Changes of a registry

Whoever writes a graph changes the registry of a scope step by step, and so do its callers. The
changes tell what a registry holds: the parent of an object is the last one that was registered for
it, unless it was taken or the registry cleared since.

* `HappenedSince`: something has happened, and nothing that would undo it has happened since;
* `RegistryChange`, `KeyRegistry.replay`: the changes, and a registry after a list of them;
* `KeyRegistry.parent?_replay`, `KeyRegistry.isMarked_replay`: what a registry holds by its changes;
* `Logged`: an operation does to its scope what a log of changes says. Sequences of such operations
  do (`Logged.bind`);
* `PendingObject.changes`, `PendingObject.logged_insert`: the changes that the write of a graph
  makes, in turn, however far it comes.
-/

namespace EntityGraph

/-! ## What happened last -/

section Histories

variable {α σ : Type} {p q : α → Prop}

/-- Something of the one kind has happened, and nothing of the other kind since. -/
def HappenedSince (p q : α → Prop) (events : List α) : Prop :=
  ∃ before a after, events = before ++ a :: after ∧ p a ∧ ∀ b ∈ after, ¬q b

theorem not_happenedSince_nil : ¬HappenedSince p q [] := by
  rintro ⟨before, a, after, h, -⟩
  exact List.append_ne_nil_of_right_ne_nil before (List.cons_ne_nil a after) h.symm

theorem happenedSince_cons {a : α} {events : List α} : HappenedSince p q (a :: events) ↔
    (p a ∧ ∀ b ∈ events, ¬q b) ∨ HappenedSince p q events := by
  constructor
  · rintro ⟨before, b, after, h, hp, hq⟩
    cases before with
    | nil =>
      cases h
      exact .inl ⟨hp, hq⟩
    | cons c before =>
      cases h
      exact .inr ⟨before, b, after, rfl, hp, hq⟩
  · rintro (⟨hp, hq⟩ | ⟨before, b, after, rfl, hp, hq⟩)
    · exact ⟨[], a, events, rfl, hp, hq⟩
    · exact ⟨a :: before, b, after, rfl, hp, hq⟩

/-- What events of one kind make true, and those of another make false, is true after a list of
events if it was made true and not made false since, or was true before and never made false. -/
theorem foldl_iff_happenedSince {f : σ → α → σ} {I P : σ → Prop} (hI : ∀ s a, I s → I (f s a)) :
    ∀ {events : List α}, (∀ s, ∀ a ∈ events, I s → (P (f s a) ↔ p a ∨ ¬q a ∧ P s)) →
      ∀ {s : σ}, I s →
        (P (events.foldl f s) ↔ HappenedSince p q events ∨ (∀ a ∈ events, ¬q a) ∧ P s)
  | [], _, s, _ => by simp [not_happenedSince_nil]
  | a :: events, hstep, s, hs => by
    have hfirst := hstep s a List.mem_cons_self hs
    have hrest := foldl_iff_happenedSince hI
      (fun s b hb => hstep s b (List.mem_cons_of_mem _ hb)) (hI s a hs)
    rw [List.foldl_cons, hrest, hfirst, happenedSince_cons, List.forall_mem_cons]
    grind

end Histories

/-! ## Changes -/

/-- A change of a registry. -/
inductive RegistryChange where
  | registered (object : ObjectHandle) (parent : Key)
  | taken (object : ObjectHandle)
  | cleared
  | marked (parent : Key)
  | unmarked (parent : Key)
  | flushed

namespace RegistryChange

/-- The change replaces or removes the parent of an object. -/
def EndsParent (h : ObjectHandle) : RegistryChange → Prop
  | registered object _ | taken object => object = h
  | cleared => True
  | marked _ | unmarked _ | flushed => False

/-- The change removes the mark of a key. -/
def EndsMark (k : Key) : RegistryChange → Prop
  | unmarked parent => parent = k
  | cleared | flushed => True
  | registered .. | taken _ | marked _ => False

/-- The registry of a scope allows the change: objects are registered that are the scope's own, and
under parents that were written. -/
def Allowed (scope : ScopeId) : RegistryChange → Prop
  | registered object parent => object.scope = scope ∧ parent.isComplete
  | _ => True

end RegistryChange

namespace KeyRegistry

/-- The registry after a change. -/
def change (r : KeyRegistry) : RegistryChange → KeyRegistry
  | .registered object parent => (r.register object parent).toOption.getD r
  | .taken object => r.forget object
  | .cleared => r.clear
  | .marked parent => r.mark parent
  | .unmarked parent => r.unmark parent
  | .flushed => r.clearMarks

/-- The registry after a list of changes. -/
def replay (r : KeyRegistry) (changes : List RegistryChange) : KeyRegistry := changes.foldl change r

theorem replay_append (r : KeyRegistry) (changes changes' : List RegistryChange) :
    r.replay (changes ++ changes') = (r.replay changes).replay changes' :=
  List.foldl_append

theorem scope_forget (r : KeyRegistry) (object : ObjectHandle) :
    (r.forget object).scope = r.scope := by
  unfold forget
  split <;> rfl

theorem scope_change (r : KeyRegistry) (c : RegistryChange) : (r.change c).scope = r.scope := by
  cases c with
  | registered object parent =>
    cases h : r.register object parent with
    | error e => rw [change, h]; rfl
    | ok r' =>
      rw [change, h]
      exact scope_of_register h
  | taken object => exact r.scope_forget object
  | cleared | marked | unmarked | flushed => rfl

theorem scope_replay (r : KeyRegistry) (changes : List RegistryChange) :
    (r.replay changes).scope = r.scope := by
  induction changes generalizing r with
  | nil => rfl
  | cons c changes ih => exact (ih (r.change c)).trans (r.scope_change c)

/-- A registry allows exactly the registrations that it carries out. -/
theorem allowed_registered_iff {r : KeyRegistry} {object : ObjectHandle} {parent : Key} :
    (RegistryChange.registered object parent).Allowed r.scope ↔
      ∃ r', r.register object parent = .ok r' := by
  constructor
  · rintro ⟨hs, hp⟩
    exact ⟨_, register_eq_ok.2 ⟨hs, hp, rfl⟩⟩
  · rintro ⟨r', h⟩
    obtain ⟨hs, hp, -⟩ := register_eq_ok.1 h
    exact ⟨hs, hp⟩

/-- A change records the parent that it registers, and keeps those that it does not end. -/
theorem parent?_change {r : KeyRegistry} {c : RegistryChange} (hc : c.Allowed r.scope)
    (h : ObjectHandle) (k : Key) : (r.change c).parent? h = some k ↔
      c = .registered h k ∨ ¬c.EndsParent h ∧ r.parent? h = some k := by
  cases c with
  | registered object parent =>
    obtain ⟨r', hr⟩ := allowed_registered_iff.1 hc
    rw [change, hr]
    change r'.parent? h = some k ↔ _
    by_cases he : object = h
    · subst he
      rw [parent?_of_register hr]
      simp [RegistryChange.EndsParent]
    · rw [parent?_of_register_of_ne hr (Ne.symm he)]
      simp [RegistryChange.EndsParent, he]
  | taken object =>
    rw [change, parent?_forget]
    by_cases he : h = object
    · simp [RegistryChange.EndsParent, he]
    · simp [RegistryChange.EndsParent, he, Ne.symm he]
  | cleared =>
    have hnone : r.clear.parent? h = none := ite_self none
    simp [change, hnone, RegistryChange.EndsParent]
  | marked parent | unmarked parent | flushed =>
    simp only [reduceCtorEq, RegistryChange.EndsParent, not_false_eq_true, true_and, false_or]
    rfl

theorem isMarked_unmark (r : KeyRegistry) (parent k : Key) :
    (r.unmark parent).isMarked k ↔ k ≠ parent ∧ r.isMarked k := by
  simp only [isMarked, unmark, SortedMap.contains, SortedMap.get?_erase]
  split <;> simp_all

/-- A change marks the key that it says, and keeps the marks that it does not end. -/
theorem isMarked_change (r : KeyRegistry) (c : RegistryChange) (k : Key) :
    (r.change c).isMarked k ↔ c = .marked k ∨ ¬c.EndsMark k ∧ r.isMarked k := by
  cases c with
  | registered object parent =>
    have hkept : (r.change (.registered object parent)).isMarked k = r.isMarked k := by
      cases h : r.register object parent with
      | error e => rw [change, h]; rfl
      | ok r' =>
        rw [change, h]
        exact isMarked_of_register h
    simp [hkept, RegistryChange.EndsMark]
  | taken object => simp [change, RegistryChange.EndsMark]
  | cleared | flushed =>
    simp [change, clear, clearMarks, isMarked, SortedMap.contains, RegistryChange.EndsMark]
  | marked parent =>
    rw [change, isMarked_mark, RegistryChange.marked.injEq, eq_comm]
    simp [RegistryChange.EndsMark]
  | unmarked parent =>
    rw [change, isMarked_unmark, ne_comm]
    simp [RegistryChange.EndsMark]

/-- The parent of an object is the last one that was registered for it, if it was not taken and the
registry not cleared since. -/
theorem parent?_replay {scope : ScopeId} {changes : List RegistryChange}
    (hallowed : ∀ c ∈ changes, c.Allowed scope) (h : ObjectHandle) (k : Key) :
    (({ scope } : KeyRegistry).replay changes).parent? h = some k ↔
      HappenedSince (· = .registered h k) (·.EndsParent h) changes := by
  have hstep (r : KeyRegistry) (c : RegistryChange) (hc : c ∈ changes) (hr : r.scope = scope) :
      (r.change c).parent? h = some k ↔
        c = .registered h k ∨ ¬c.EndsParent h ∧ r.parent? h = some k :=
    parent?_change (hr ▸ hallowed c hc) h k
  have hscope (r : KeyRegistry) (c : RegistryChange) (hr : r.scope = scope) :
      (r.change c).scope = scope := (r.scope_change c).trans hr
  have hreplay := foldl_iff_happenedSince (P := fun r : KeyRegistry => r.parent? h = some k)
    (p := (· = .registered h k)) (q := (·.EndsParent h)) hscope hstep (s := { scope }) rfl
  refine hreplay.trans (or_iff_left ?_)
  rintro ⟨-, hnone⟩
  simp [parent?] at hnone

/-- A key is marked if it was marked and the mark was not removed since. -/
theorem isMarked_replay (scope : ScopeId) (changes : List RegistryChange) (k : Key) :
    (({ scope } : KeyRegistry).replay changes).isMarked k ↔
      HappenedSince (· = .marked k) (·.EndsMark k) changes := by
  have hstep (r : KeyRegistry) (c : RegistryChange) (_ : c ∈ changes) (_ : True) :
      (r.change c).isMarked k ↔ c = .marked k ∨ ¬c.EndsMark k ∧ r.isMarked k :=
    r.isMarked_change c k
  have hreplay := foldl_iff_happenedSince (I := fun _ : KeyRegistry => True)
    (P := fun r => r.isMarked k) (p := (· = RegistryChange.marked k))
    (q := RegistryChange.EndsMark k) (fun _ _ _ => trivial) hstep (s := { scope }) trivial
  refine hreplay.trans (or_iff_left ?_)
  rintro ⟨-, hnone⟩
  simp [isMarked, SortedMap.contains] at hnone

end KeyRegistry

/-! ## Operations that log their changes -/

/-- What an operation changes in the registry, by the context that it starts in. -/
abbrev RegistryLog := Context → List RegistryChange

namespace RegistryLog

variable {α : Type}

/-- The log of an operation that changes nothing. -/
def quiet : RegistryLog := fun _ => []

/-- The log of an operation, and then that of what follows it unless it fails. -/
def andThen (log : RegistryLog) (x : Action α) (next : α → RegistryLog) : RegistryLog := fun ctx =>
  log ctx ++ match x ctx with
    | .ok a ctx' => next a ctx'
    | .error .. => []

end RegistryLog

/-- The scope has changed in its registry at most, and by the changes. -/
structure Context.Logs (changes : List RegistryChange) (ctx ctx' : Context) : Prop where
  scope : ctx'.scope = { ctx.scope with registry := ctx.registry.replay changes }
  allowed : ∀ c ∈ changes, c.Allowed ctx.registry.scope

/-- An operation changes of its scope what the log says, whether it fails or not. -/
def Logged {α : Type} (x : Action α) (log : RegistryLog) : Prop :=
  ∀ ctx : Context, ctx.Logs (log ctx) (finalState (x ctx))

namespace Context.Logs

variable {changes changes' : List RegistryChange} {c₁ c₂ c₃ : Context}

theorem of_scope_eq (h : c₂.scope = c₁.scope) : c₁.Logs [] c₂ := ⟨h, nofun⟩

theorem registry (h : c₁.Logs changes c₂) : c₂.registry = c₁.registry.replay changes := by
  rw [Context.registry, h.scope]

theorem append (h : c₁.Logs changes c₂) (h' : c₂.Logs changes' c₃) :
    c₁.Logs (changes ++ changes') c₃ where
  scope := by
    rw [h'.scope, h.registry, h.scope, KeyRegistry.replay_append]
  allowed c hc := by
    rcases List.mem_append.1 hc with hc | hc
    · exact h.allowed c hc
    · have hallowed := h'.allowed c hc
      rwa [h.registry, KeyRegistry.scope_replay] at hallowed

end Context.Logs

namespace Logged

variable {α β : Type} {log : RegistryLog}

/-- An operation that leaves its scope alone. -/
theorem of_scope_eq {x : Action α} (h : ∀ ctx, (finalState (x ctx)).scope = ctx.scope) :
    Logged x .quiet := fun ctx => .of_scope_eq (h ctx)

theorem pure (a : α) : Logged (Pure.pure a) .quiet := of_scope_eq fun _ => rfl

theorem ofExcept (r : Except Failure α) : Logged (MonadExcept.ofExcept r) .quiet :=
  of_scope_eq fun ctx => by cases r <;> rfl

theorem bind {x : Action α} {f : α → Action β} {next : α → RegistryLog} (hx : Logged x log)
    (hf : ∀ a, Logged (f a) (next a)) : Logged (x >>= f) (log.andThen x next) := fun ctx => by
  have hfirst := hx ctx
  unfold RegistryLog.andThen
  cases h : x ctx with
  | error e c =>
    rw [h] at hfirst
    rw [bind_of_error h, List.append_nil]
    exact hfirst
  | ok a c =>
    rw [h] at hfirst
    rw [bind_of_ok h]
    exact hfirst.append (hf a c)

/-- What is answered does not matter. -/
theorem answer {x : Action α} (hx : Logged x log) (f : α → β) :
    Logged (x >>= fun a => Pure.pure (f a)) log := fun ctx => by
  have hfirst := hx ctx
  cases h : x ctx with
  | error e c =>
    rw [h] at hfirst
    rw [bind_of_error h]
    exact hfirst
  | ok a c =>
    rw [h] at hfirst
    rw [bind_of_ok h]
    exact hfirst

end Logged

/-! ## Writes -/

/-- The log of a registration, which may be refused. -/
def Action.registration (object : ObjectHandle) (parent : Key) : RegistryLog := fun ctx =>
  match ctx.registry.register object parent with
  | .ok _ => [.registered object parent]
  | .error _ => []

/-- A registration is carried out exactly if the registry allows it. -/
theorem Action.mem_registration {object : ObjectHandle} {parent : Key} {ctx : Context} :
    .registered object parent ∈ registration object parent ctx ↔
      (RegistryChange.registered object parent).Allowed ctx.registry.scope := by
  rw [KeyRegistry.allowed_registered_iff, registration]
  cases ctx.registry.register object parent <;> simp

theorem Action.logged_register (object : ObjectHandle) (parent : Key) :
    Logged (register object parent) (registration object parent) := fun ctx => by
  rw [register_run, registration]
  cases h : ctx.scope.registry.register object parent with
  | error e =>
    have h : ctx.registry.register object parent = .error e := h
    rw [h]
    exact .of_scope_eq rfl
  | ok r =>
    have h : ctx.registry.register object parent = .ok r := h
    rw [h]
    refine ⟨?_, by simpa using KeyRegistry.allowed_registered_iff.2 ⟨r, h⟩⟩
    rw [KeyRegistry.replay, List.foldl_cons, List.foldl_nil, KeyRegistry.change, h]
    rfl

namespace PendingObject

/-- The log of a row that is put once more: its key stays marked if that fails. -/
def refreshing (row : Row) : RegistryLog := fun ctx =>
  .marked row.key :: match refresh row ctx with
    | .ok .. => [.unmarked row.key]
    | .error .. => []

theorem logged_place (handle : ObjectHandle) (row : Row) :
    Logged (place handle row) fun _ => [.taken handle] := fun ctx => by
  obtain ⟨store, ⟨e, he⟩ | ⟨k, ho⟩⟩ := place_cases handle row ctx
  · rw [he]
    exact ⟨rfl, by simp [RegistryChange.Allowed]⟩
  · rw [ho]
    exact ⟨rfl, by simp [RegistryChange.Allowed]⟩

theorem logged_refresh (row : Row) : Logged (refresh row) (refreshing row) := fun ctx => by
  unfold refreshing
  obtain ⟨faults, ⟨error, he⟩ | ho⟩ := refresh_cases row ctx
  · rw [he]
    exact ⟨rfl, by simp [RegistryChange.Allowed]⟩
  · rw [ho]
    exact ⟨rfl, by simp [RegistryChange.Allowed]⟩

section Writes

variable (schema : Schema)

mutual

/-- What the write of an object changes in the registry. The parent that was registered for it is
taken first. -/
def changes : PendingObject → RegistryLog
  | mk handle row owned =>
    RegistryLog.andThen (fun _ => [.taken handle]) (place handle row) fun key =>
      if owned.isEmpty then .quiet
      else (groupChanges key owned ⟨key, row.properties⟩).andThen
        (writeGroups schema key owned ⟨key, row.properties⟩) refreshing

/-- What the write of groups changes in it. -/
def groupChanges (key : Key) : List (OwnedGroup PendingObject) → Row → RegistryLog
  | [], _ => .quiet
  | ⟨field, children⟩ :: groups, row =>
    RegistryLog.quiet.andThen
      (MonadExcept.ofExcept (schema.ownedRelation row.kind field children.length)) fun kind =>
        (allChanges key children).andThen (writeAll schema key children) fun keys =>
          groupChanges key groups (row.set field (reference kind keys))

/-- What the write of a list of objects changes in it. Each is registered before it is written. -/
def allChanges (parent : Key) : List PendingObject → RegistryLog
  | [] => .quiet
  | o :: os =>
    (Action.registration o.handle parent).andThen (Action.register o.handle parent) fun _ =>
      (changes o).andThen (o.write schema) fun _ => allChanges parent os

end

mutual

/-- The write of an object changes the registry as its log says. -/
theorem logged_write : ∀ o : PendingObject, Logged (o.write schema) (o.changes schema)
  | mk handle row owned => by
    rw [write, changes]
    refine (logged_place handle row).bind fun key => ?_
    split
    · exact .pure key
    · refine (logged_writeGroups key owned _).bind fun row => ?_
      exact (logged_refresh row).answer fun _ => key

theorem logged_writeGroups (key : Key) : ∀ (groups : List (OwnedGroup PendingObject)) (row : Row),
    Logged (writeGroups schema key groups row) (groupChanges schema key groups row)
  | [], row => by
    rw [writeGroups, groupChanges]
    exact .pure row
  | ⟨field, children⟩ :: groups, row => by
    rw [writeGroups, groupChanges]
    refine (Logged.ofExcept _).bind fun kind => ?_
    exact (logged_writeAll key children).bind fun keys => logged_writeGroups key groups _

theorem logged_writeAll (parent : Key) : ∀ os : List PendingObject,
    Logged (writeAll schema parent os) (allChanges schema parent os)
  | [] => by
    rw [writeAll, allChanges]
    exact .pure []
  | o :: os => by
    rw [writeAll, allChanges]
    refine (Action.logged_register o.handle parent).bind fun _ => ?_
    refine (logged_write o).bind fun key => ?_
    exact (logged_writeAll parent os).answer (key :: ·)

end

/-- What an insert changes in the registry: nothing if the graph does not fit the schema. -/
def insertChanges (o : PendingObject) : RegistryLog := fun ctx =>
  match o.check schema with
  | .ok _ => o.changes schema (o.begun ctx)
  | .error _ => []

/-- An insert changes the registry as its log says, whether it fails or not. -/
theorem logged_insert (o : PendingObject) : Logged (o.insert schema) (o.insertChanges schema) :=
  fun ctx => by
    unfold insertChanges
    cases hc : o.check schema with
    | error e =>
      rw [insert_of_check_error hc]
      exact .of_scope_eq rfl
    | ok =>
      have hw := logged_write schema o (o.begun ctx)
      rw [insert_run hc]
      cases hrun : o.write schema (o.begun ctx) <;> rw [hrun] at hw <;>
        exact ⟨hw.scope, hw.allowed⟩

end Writes

end PendingObject
end EntityGraph
