import EntityGraph.Proofs.ObjectGraph.Changes
import EntityGraph.Proofs.Query.Following

/-!
# The registries of a session

Every scope of a session numbers its objects in flight by itself and keeps their parents in a
registry of its own. Whatever is done in the scopes, in any order, no two objects get one handle as
long as there are 64-bit numbers for all of them, and what a registry holds follows from what was
done in its scope.

* `ScopeStep`, `SessionStep`, `Session.advanceAll`: what is done in a scope and in a session, and
  what becomes of the session;
* `Session.allocated`, `Session.history`: the handles that are allocated meanwhile, and the changes
  of a registry;
* `Scope.Advances`: what a step does to its scope (`ScopeStep.advances`). Its next number grows
  with the handles that it allocates, until numbers run out (`Scope.Advances.toNat_nextSlot`);
* `Session.Tracks`: the registries are what their changes have made of them, and the numbers of all
  handles are used up. Every step keeps this while there are fewer than 2^64 handles
  (`Session.Tracks.advance`);
* `Session.keepsRegistries`: what the registries of a session hold, and what a step leaves alone.
-/

namespace EntityGraph

/-! ## Steps in a scope -/

/-- What is done in a scope: with its objects in flight, with its registry, or with its queries and
cursors and on its events. -/
inductive ScopeStep where
  | newObject
  | register (object : ObjectHandle) (parent : Key)
  | take (object : ObjectHandle)
  | clear
  | mark (parent : Key)
  | unmark (parent : Key)
  | insert (schema : Schema) (o : PendingObject)
  | call (call : ScopeCall)

/-- What a step does to its scope: the registry is changed as told, and the next number is used up
if a handle was allocated, which then has it. -/
structure Scope.Advances (changes : List RegistryChange) (allocated : Option ObjectHandle)
    (scope scope' : Scope) : Prop where
  registry : scope'.registry = scope.registry.replay changes
  allowed : ∀ c ∈ changes, c.Allowed scope.id
  handle : ∀ h ∈ allocated, h = ⟨scope.id, scope.nextSlot⟩
  nextSlot : scope'.nextSlot = if allocated.isSome then scope.nextSlot + 1 else scope.nextSlot

namespace Scope.Advances

variable {changes : List RegistryChange} {allocated : Option ObjectHandle} {scope scope' : Scope}

theorem of_kept (hregistry : scope'.registry = scope.registry)
    (hnext : scope'.nextSlot = scope.nextSlot) : Advances [] none scope scope' :=
  ⟨hregistry, nofun, nofun, hnext⟩

theorem of_eq (h : scope' = scope) : Advances [] none scope scope' := h ▸ of_kept rfl rfl

theorem of_change {c : RegistryChange} (hc : c.Allowed scope.id)
    (hregistry : scope'.registry = scope.registry.change c)
    (hnext : scope'.nextSlot = scope.nextSlot) : Advances [c] none scope scope' :=
  ⟨hregistry, by simpa using hc, nofun, hnext⟩

theorem of_logs {ctx ctx' : Context} (h : ctx.Logs changes ctx') :
    Advances changes none ctx.scope ctx'.scope := by
  refine ⟨h.registry, h.allowed, nofun, ?_⟩
  rw [h.scope]
  rfl

section Bounded

variable (h : Advances changes allocated scope scope')
  (hbound : scope.nextSlot.toNat + allocated.toList.length < UInt64.size)
include h hbound

/-- Below the bound the next number does not wrap around. -/
theorem toNat_nextSlot :
    scope'.nextSlot.toNat = scope.nextSlot.toNat + allocated.toList.length := by
  rw [h.nextSlot]
  cases allocated with
  | none => rfl
  | some object => exact (UInt64.toNat_add ..).trans (Nat.mod_eq_of_lt hbound)

theorem nextSlot_le : scope.nextSlot ≤ scope'.nextSlot := by
  rw [UInt64.le_iff_toNat_le, h.toNat_nextSlot hbound]
  exact Nat.le_add_right ..

theorem slot_lt {object : ObjectHandle} (hobject : object ∈ allocated) :
    object.slot < scope'.nextSlot := by
  rw [UInt64.lt_iff_toNat_lt, h.toNat_nextSlot hbound, h.handle object hobject,
    Option.mem_def.1 hobject]
  exact Nat.lt_succ_self _

end Bounded

end Scope.Advances

namespace Result

theorem scope_next (r : Result) (ctx : Context) : (finalState (r.next ctx)).scope = ctx.scope := by
  cases r with
  | rows path rest => rw [next_rows, finalState]
  | stream id => rw [(next_stream_eq id ctx).2, ctx.scope_next]

theorem scope_readAll (r : Result) (ctx : Context) :
    (finalState (r.readAll ctx)).scope = ctx.scope := by
  cases r with
  | rows path rest => rfl
  | stream id =>
    cases hc : ctx.held.get? id with
    | none =>
      rw [readAll, bind_of_ok (get_run ctx)]
      simp only [hc]
      rfl
    | some c =>
      cases hread : c.readAll ctx.store with
      | mk answer store =>
        rw [readAll_stream hc hread]
        cases answer <;> rfl

theorem scope_drop (r : Result) (ctx : Context) : (finalState (r.drop ctx)).scope = ctx.scope := by
  cases r <;> rfl

end Result

namespace ScopeCall

/-- What the call changes in the registry of its scope. -/
def changes : ScopeCall → List RegistryChange
  | notify .postClose | close => [.cleared]
  | notify .flushed => [.flushed]
  | _ => []

/-- Of the calls only events change the registry, and none allocates a handle. -/
theorem advances (call : ScopeCall) (ctx : Context) :
    Scope.Advances call.changes none ctx.scope (finalState (call.run ctx)).scope := by
  have hdisconnected : Scope.Advances [] none ctx.scope ctx.disconnectAll.scope := by
    rw [ctx.scope_disconnectAll]
    exact .of_kept rfl rfl
  cases call with
  | execute q config b =>
    rw [run, finalState_map]
    have hopens : OpensResult (q.execute config b) := q.opens_executeFor config b q.unique
    have hopens := hopens ctx
    generalize outcome (q.execute config b ctx) = answer at hopens
    cases hopens with
    | nothing scope => exact .of_eq scope
    | cursor kind snapshot batchSize scope =>
      rw [scope]
      exact .of_kept rfl rfl
  | uniqueRow q config b => exact .of_eq (q.leavesCursors_uniqueRow? config b ctx).1
  | next r =>
    rw [run, finalState_map]
    exact .of_eq (r.scope_next ctx)
  | readAll r =>
    rw [run, finalState_map]
    exact .of_eq (r.scope_readAll ctx)
  | drop r =>
    rw [run, finalState_map]
    exact .of_eq (r.scope_drop ctx)
  | disconnect id => exact .of_eq (ctx.scope_disconnect id)
  | notify event =>
    cases event with
    | preCommit => exact hdisconnected
    | preClose => exact hdisconnected
    | postClose => exact .of_change trivial rfl rfl
    | flushed => exact .of_change trivial rfl rfl
  | close =>
    exact .of_change trivial (congrArg KeyRegistry.clear hdisconnected.registry)
      hdisconnected.nextSlot

end ScopeCall

namespace ScopeStep

/-- The step as an operation, which answers with a handle where it allocates one. -/
def run : ScopeStep → Action (Option ObjectHandle)
  | newObject => some <$> Action.newObject
  | register object parent => (fun _ => none) <$> Action.register object parent
  | take object => (fun _ => none) <$> Action.takeParent object
  | clear => (fun _ => none) <$> Action.onRegistry (·.clear)
  | mark parent => (fun _ => none) <$> Action.onRegistry (·.mark parent)
  | unmark parent => (fun _ => none) <$> Action.onRegistry (·.unmark parent)
  | insert schema o => (fun _ => none) <$> o.insert schema
  | call c => (fun _ => none) <$> c.run

/-- What the step changes in the registry of its scope. -/
def changes : ScopeStep → RegistryLog
  | newObject => .quiet
  | register object parent => Action.registration object parent
  | take object => fun _ => [.taken object]
  | clear => fun _ => [.cleared]
  | mark parent => fun _ => [.marked parent]
  | unmark parent => fun _ => [.unmarked parent]
  | insert schema o => o.insertChanges schema
  | call c => fun _ => c.changes

/-- The handle that the step allocates in a context, if it does. -/
def handle? (step : ScopeStep) (ctx : Context) : Option ObjectHandle :=
  (outcome (step.run ctx)).toOption.join

/-- What every step does to its scope. -/
theorem advances (step : ScopeStep) (ctx : Context) : Scope.Advances (step.changes ctx)
    (step.handle? ctx) ctx.scope (finalState (step.run ctx)).scope := by
  -- All steps but one answer with no handle.
  have hnone {α : Type} {x : Action α} {changes : List RegistryChange}
      (hrun : step.run = (fun _ => none) <$> x)
      (hx : Scope.Advances changes none ctx.scope (finalState (x ctx)).scope) :
      Scope.Advances changes (step.handle? ctx) ctx.scope (finalState (step.run ctx)).scope := by
    have hhandle : step.handle? ctx = none := by
      rw [handle?, hrun, outcome_map]
      cases outcome (x ctx) <;> rfl
    rwa [hhandle, hrun, finalState_map]
  cases step with
  | newObject => exact ⟨rfl, nofun, fun h hh => (Option.some.inj hh).symm, rfl⟩
  | register object parent => exact hnone rfl (.of_logs (Action.logged_register object parent ctx))
  | take object => exact hnone rfl (.of_change trivial rfl rfl)
  | clear => exact hnone rfl (.of_change trivial rfl rfl)
  | mark parent => exact hnone rfl (.of_change trivial rfl rfl)
  | unmark parent => exact hnone rfl (.of_change trivial rfl rfl)
  | insert schema o => exact hnone rfl (.of_logs (o.logged_insert schema ctx))
  | call c => exact hnone rfl (c.advances ctx)

end ScopeStep

/-! ## Steps of a session -/

/-- What is done in a session: in one of its scopes, by opening another one, or to the store. -/
inductive SessionStep where
  | inScope (sid : ScopeId) (step : ScopeStep)
  | openScope (transactional : Bool)
  | store (f : Store → Store)

/-- The step is in the scope. -/
def SessionStep.IsIn (sid : ScopeId) : SessionStep → Prop
  | inScope sid' _ => sid' = sid
  | openScope _ | store _ => False

namespace Session

/-- The handle that a step allocates, if it does, and the session after the step. -/
def advance (s : Session) : SessionStep → Option ObjectHandle × Session
  | .inScope sid step =>
    match s.scope? sid with
    | none => (none, s)
    | some scope =>
      let ((answer, _), s) := s.runIn sid scope step.run
      (answer.toOption.join, s)
  | .openScope transactional => (none, (s.openScope transactional).2)
  | .store f => (none, s.withStore f)

/-- The session after a list of steps. -/
def advanceAll (s : Session) (steps : List SessionStep) : Session :=
  steps.foldl (fun s step => (s.advance step).2) s

/-- The handles that are allocated in the course of the steps. -/
def allocated : Session → List SessionStep → List ObjectHandle
  | _, [] => []
  | s, step :: steps => (s.advance step).1.toList ++ allocated (s.advance step).2 steps

/-- What a step changes in the registry of a scope. -/
def changes (sid : ScopeId) (s : Session) : SessionStep → List RegistryChange
  | .inScope sid' step =>
    if sid = sid' then (s.scope? sid').elim [] fun scope => step.changes (s.context scope) else []
  | .openScope _ | .store _ => []

/-- The changes of the registry of a scope in the course of the steps. -/
def history (sid : ScopeId) : Session → List SessionStep → List RegistryChange
  | _, [] => []
  | s, step :: steps => s.changes sid step ++ history sid (s.advance step).2 steps

variable {s : Session} {sid : ScopeId} {scope : Scope}

theorem advance_inScope (hscope : s.scope? sid = some scope) (step : ScopeStep) :
    s.advance (.inScope sid step) = (step.handle? (s.context scope),
      s.resume sid (finalState (step.run (s.context scope)))) := by
  rw [advance, hscope]
  simp only [runIn_eq]
  rfl

/-! ### Numbers of scopes -/

theorem scope?_of_getElem? {i : Nat} (hget : s.scopes[i]? = some scope)
    (hi : sid.number.toNat = i + 1) : s.scope? sid = some scope := by
  refine scope?_eq_some_iff.2 ⟨fun h0 => ?_, by rw [hi]; exact hget⟩
  rw [h0] at hi
  cases hi

theorem scope?_eq_none (h : s.scopes.length < sid.number.toNat) : s.scope? sid = none := by
  unfold scope?
  split
  · rfl
  · exact List.getElem?_eq_none (Nat.le_sub_one_of_lt h)

/-- A scope that is opened gets the number after that of the last one, and the others are as they
were. -/
theorem scope?_openScope_eq (s : Session) (transactional : Bool) (sid : ScopeId) :
    (s.openScope transactional).2.scope? sid =
      if sid.number.toNat = s.scopes.length + 1 then some (.start sid transactional)
      else s.scope? sid := by
  by_cases hnew : sid.number.toNat = s.scopes.length + 1
  · have hid : (s.openScope transactional).1 = sid := by
      rw [openScope, ← hnew, UInt64.ofNat_toNat]
    rw [if_pos hnew]
    exact hid ▸ scope?_of_getElem? List.getElem?_concat_length (hid ▸ hnew)
  · rw [if_neg hnew]
    by_cases h0 : sid.number = 0
    · rw [scope?, scope?, if_pos h0, if_pos h0]
    · have hpos := toNat_number_ne_zero h0
      rw [scope?, scope?, if_neg h0, if_neg h0]
      rcases Nat.lt_or_ge (sid.number.toNat - 1) s.scopes.length with hlt | hge
      · exact List.getElem?_append_left hlt
      · have hout : (s.openScope transactional).2.scopes.length ≤ sid.number.toNat - 1 := by
          change (s.scopes ++ [_]).length ≤ _
          rw [List.length_append, List.length_singleton]
          omega
        rw [List.getElem?_eq_none hge, List.getElem?_eq_none hout]

/-! ### Bookkeeping -/

/-- The registries are what the changes have made of them, and the handles are all different and
have numbers that their scopes will not give out again. -/
structure Tracks (log : ScopeId → List RegistryChange) (handles : List ObjectHandle)
    (s : Session) : Prop where
  registry : ∀ {sid scope}, s.scope? sid = some scope →
    scope.registry = ({ scope := sid } : KeyRegistry).replay (log sid)
  allowed : ∀ sid, ∀ c ∈ log sid, c.Allowed sid
  unopened : ∀ {sid}, s.scope? sid = none → log sid = []
  numbered : ∀ h ∈ handles, ∃ scope, s.scope? h.scope = some scope ∧ h.slot < scope.nextSlot
  /-- A scope has numbered no more objects than there are. -/
  nextSlot_le : ∀ {sid scope}, s.scope? sid = some scope → scope.nextSlot.toNat ≤ handles.length
  distinct : handles.Nodup

namespace Tracks

variable {log : ScopeId → List RegistryChange} {handles : List ObjectHandle}

theorem id_eq (h : s.Tracks log handles) (hscope : s.scope? sid = some scope) : scope.id = sid := by
  rw [Scope.id, h.registry hscope, KeyRegistry.scope_replay]

/-- The next handle of a scope was not allocated before. -/
theorem next_notMem (h : s.Tracks log handles) (hscope : s.scope? sid = some scope) :
    ⟨scope.id, scope.nextSlot⟩ ∉ handles := by
  intro hmem
  obtain ⟨scope', hscope', hlt⟩ := h.numbered _ hmem
  rw [h.id_eq hscope] at hscope'
  cases hscope.symm.trans hscope'
  exact UInt64.lt_irrefl _ hlt

theorem resume (h : s.Tracks log handles) (hscope : s.scope? sid = some scope)
    {changes : List RegistryChange} {allocated : Option ObjectHandle} {ctx : Context}
    (hadvances : Scope.Advances changes allocated scope ctx.scope)
    (hbound : (handles ++ allocated.toList).length < UInt64.size) :
    (s.resume sid ctx).Tracks (fun sid' => log sid' ++ if sid' = sid then changes else [])
      (handles ++ allocated.toList) := by
  have hid := h.id_eq hscope
  have hresume := scope?_resume hscope ctx
  rw [List.length_append] at hbound
  have hslots := Nat.lt_of_le_of_lt (Nat.add_le_add_right (h.nextSlot_le hscope) _) hbound
  -- A handle that is allocated has the next number, and the earlier ones are below it.
  have hfresh : ∀ a ∈ handles, ∀ b ∈ allocated.toList, a ≠ b := by
    rintro a ha b hb rfl
    obtain rfl := hadvances.handle a (Option.mem_toList.1 hb)
    exact h.next_notMem hscope ha
  constructor
  case registry =>
    intro sid' scope' hscope'
    rw [hresume] at hscope'
    split at hscope' <;> rename_i he
    · subst he
      cases hscope'
      rw [if_pos rfl, hadvances.registry, h.registry hscope, KeyRegistry.replay_append]
    · rw [if_neg he, List.append_nil]
      exact h.registry hscope'
  case allowed =>
    intro sid' c hc
    rcases List.mem_append.1 hc with hc | hc
    · exact h.allowed sid' c hc
    · split at hc <;> rename_i he
      · exact he ▸ hid ▸ hadvances.allowed c hc
      · cases hc
  case unopened =>
    intro sid' hnone
    rw [hresume] at hnone
    split at hnone <;> rename_i he
    · cases hnone
    · rw [if_neg he, List.append_nil]
      exact h.unopened hnone
  case numbered =>
    intro a ha
    rcases List.mem_append.1 ha with ha | ha
    · obtain ⟨scope', hscope', hlt⟩ := h.numbered a ha
      rw [hresume]
      split <;> rename_i he
      · cases hscope.symm.trans (he ▸ hscope')
        exact ⟨_, rfl, UInt64.lt_of_lt_of_le hlt (hadvances.nextSlot_le hslots)⟩
      · exact ⟨scope', hscope', hlt⟩
    · have ha := Option.mem_toList.1 ha
      have hsid : a.scope = sid := by rw [hadvances.handle a ha, hid]
      exact ⟨ctx.scope, hsid ▸ scope?_resume_self hscope ctx, hadvances.slot_lt hslots ha⟩
  case nextSlot_le =>
    intro sid' scope' hscope'
    rw [hresume] at hscope'
    rw [List.length_append]
    split at hscope' <;> rename_i he
    · cases hscope'
      rw [hadvances.toNat_nextSlot hslots]
      exact Nat.add_le_add_right (h.nextSlot_le hscope) _
    · exact Nat.le_add_right_of_le (h.nextSlot_le hscope')
  case distinct => exact List.nodup_append.2 ⟨h.distinct, by cases allocated <;> simp, hfresh⟩

theorem openScope (h : s.Tracks log handles) (transactional : Bool) :
    (s.openScope transactional).2.Tracks log handles := by
  have hopen := s.scope?_openScope_eq transactional
  constructor
  case registry =>
    intro sid scope hscope
    rw [hopen] at hscope
    split at hscope <;> rename_i he
    -- Nothing was done in the new scope before it was opened.
    · cases hscope
      rw [h.unopened (scope?_eq_none (he ▸ Nat.lt_succ_self _))]
      rfl
    · exact h.registry hscope
  case allowed => exact h.allowed
  case unopened =>
    intro sid hnone
    rw [hopen] at hnone
    split at hnone
    · cases hnone
    · exact h.unopened hnone
  case numbered =>
    intro a ha
    obtain ⟨scope, hscope, hlt⟩ := h.numbered a ha
    exact ⟨scope, scope?_openScope hscope transactional, hlt⟩
  case nextSlot_le =>
    intro sid scope hscope
    rw [hopen] at hscope
    split at hscope
    · cases hscope
      exact Nat.zero_le _
    · exact h.nextSlot_le hscope
  case distinct => exact h.distinct

/-- Every step keeps track of the registries and handles. -/
theorem advance (h : s.Tracks log handles) (step : SessionStep)
    (hbound : (handles ++ (s.advance step).1.toList).length < UInt64.size) :
    (s.advance step).2.Tracks (fun sid => log sid ++ s.changes sid step)
      (handles ++ (s.advance step).1.toList) := by
  have hsame {s' : Session} (h : s'.Tracks log handles) :
      s'.Tracks (fun sid => log sid ++ []) (handles ++ (none : Option ObjectHandle).toList) := by
    simpa using h
  cases step with
  | inScope sid step =>
    cases hscope : s.scope? sid with
    | none =>
      have hnone : s.advance (.inScope sid step) = (none, s) := by rw [Session.advance, hscope]
      have hquiet (sid' : ScopeId) : s.changes sid' (.inScope sid step) = [] := by
        rw [changes, hscope, Option.elim_none, ite_self]
      rw [hnone]
      simpa only [hquiet] using hsame h
    | some scope =>
      rw [advance_inScope hscope] at hbound ⊢
      simp only [changes, hscope, Option.elim_some]
      exact h.resume hscope (step.advances (s.context scope)) hbound
  | openScope transactional => exact hsame (h.openScope transactional)
  | store f => exact hsame { h with }

theorem advanceAll : ∀ {steps : List SessionStep} {s : Session}
    {log : ScopeId → List RegistryChange} {handles : List ObjectHandle}, s.Tracks log handles →
    (handles ++ s.allocated steps).length < UInt64.size →
    (s.advanceAll steps).Tracks (fun sid => log sid ++ s.history sid steps)
      (handles ++ s.allocated steps)
  | [], s, log, handles, h, _ => by
    simp only [history, allocated, List.append_nil]
    exact h
  | step :: steps, s, log, handles, h, hbound => by
    rw [allocated, ← List.append_assoc] at hbound
    have hstep := h.advance step
      (Nat.lt_of_le_of_lt (List.sublist_append_left _ _).length_le hbound)
    have hrest : ((s.advance step).2.advanceAll steps).Tracks _ _ := advanceAll hstep hbound
    simp only [List.append_assoc] at hrest
    exact hrest

end Tracks

theorem tracks_start (store : Store) : ({ store } : Session).Tracks (fun _ => []) [] := by
  have hnone (sid : ScopeId) : ({ store } : Session).scope? sid = none := ite_self none
  constructor
  case registry =>
    intro sid scope hscope
    cases (hnone sid).symm.trans hscope
  case allowed => exact fun _ _ hc => absurd hc List.not_mem_nil
  case unopened => exact fun _ => rfl
  case numbered => exact fun _ h => absurd h List.not_mem_nil
  case nextSlot_le =>
    intro sid scope hscope
    cases (hnone sid).symm.trans hscope
  case distinct => exact .nil

/-! ## Registries -/

/-- What the registries of a session hold after the changes, and what a step leaves alone. -/
structure KeepsRegistries (log : ScopeId → List RegistryChange) (handles : List ObjectHandle)
    (s : Session) : Prop where
  /-- No two scopes have one number, and each is found by its own. -/
  scopes : (s.scopes.map Scope.id).Nodup
  found : ∀ scope ∈ s.scopes, s.scope? scope.id = some scope
  /-- No handle was allocated twice. -/
  distinct : handles.Nodup
  /-- A new object gets a handle of its scope that was not allocated before. -/
  fresh : ∀ {sid scope}, s.scope? sid = some scope → ∃ h,
    (s.advance (.inScope sid .newObject)).1 = some h ∧ h.scope = sid ∧ h ∉ handles
  /-- Exactly the objects of a scope are registered in it, under complete keys. -/
  registers : ∀ {sid scope}, s.scope? sid = some scope → ∀ h k,
    .registered h k ∈ s.changes sid (.inScope sid (.register h k)) ↔ h.scope = sid ∧ k.isComplete
  /-- A registry holds objects of its scope only, and complete keys as their parents. -/
  own : ∀ {sid scope h k}, s.scope? sid = some scope → scope.registry.parent? h = some k →
    h.scope = sid ∧ k.isComplete
  foreign : ∀ {sid scope h}, s.scope? sid = some scope → h.scope ≠ sid →
    scope.registry.parent? h = none
  /-- The parent of an object is the last one that was registered for it, if it was not taken and
  the registry not cleared since. -/
  parent? : ∀ {sid scope}, s.scope? sid = some scope → ∀ h k,
    scope.registry.parent? h = some k ↔
      HappenedSince (· = .registered h k) (·.EndsParent h) (log sid)
  /-- A key is marked if it was marked and the mark was not removed since. -/
  isMarked : ∀ {sid scope}, s.scope? sid = some scope → ∀ k,
    scope.registry.isMarked k ↔ HappenedSince (· = .marked k) (·.EndsMark k) (log sid)
  /-- When the writes of a scope have reached the store, it forgets its marks and nothing else. -/
  flushed : ∀ {sid scope}, s.scope? sid = some scope →
    (s.advance (.inScope sid (.call (.notify .flushed)))).2 =
      s.setScope sid { scope with registry := { scope.registry with modified := .empty } }
  /-- A step that is not in a scope leaves it as it was. -/
  others : ∀ {sid scope} {step : SessionStep}, s.scope? sid = some scope → ¬step.IsIn sid →
    (s.advance step).2.scope? sid = some scope

theorem scope?_advance_of_not_isIn (hscope : s.scope? sid = some scope) {step : SessionStep}
    (hstep : ¬step.IsIn sid) : (s.advance step).2.scope? sid = some scope := by
  cases step with
  | inScope sid' step =>
    cases hscope' : s.scope? sid' with
    | none =>
      rw [advance, hscope']
      exact hscope
    | some scope' =>
      rw [advance_inScope hscope']
      exact scope?_resume_of_ne hscope hscope' hstep _
  | openScope transactional => exact scope?_openScope hscope transactional
  | store f => exact hscope

namespace Tracks

variable {log : ScopeId → List RegistryChange} {handles : List ObjectHandle}

theorem parent?_eq_some_iff (h : s.Tracks log handles) (hscope : s.scope? sid = some scope)
    (object : ObjectHandle) (k : Key) : scope.registry.parent? object = some k ↔
      HappenedSince (· = .registered object k) (·.EndsParent object) (log sid) := by
  rw [h.registry hscope]
  exact KeyRegistry.parent?_replay (h.allowed sid) object k

theorem own_of_parent? (h : s.Tracks log handles) (hscope : s.scope? sid = some scope)
    {object : ObjectHandle} {k : Key} (hk : scope.registry.parent? object = some k) :
    object.scope = sid ∧ k.isComplete := by
  obtain ⟨before, c, after, hlog, rfl, -⟩ := (h.parent?_eq_some_iff hscope object k).1 hk
  exact h.allowed sid (.registered object k) (hlog ▸ by simp)

/-- The scopes are numbered from 1. -/
theorem id_getElem (h : s.Tracks log handles) (hscopes : s.scopes.length < UInt64.size) {i : Nat}
    (hi : i < s.scopes.length) : s.scopes[i].id.number.toNat = i + 1 := by
  have hnumber : (⟨UInt64.ofNat (i + 1)⟩ : ScopeId).number.toNat = i + 1 :=
    Nat.mod_eq_of_lt (Nat.lt_of_le_of_lt hi hscopes)
  rw [h.id_eq (scope?_of_getElem? (List.getElem?_eq_getElem hi) hnumber), hnumber]

theorem keeps (h : s.Tracks log handles) (hscopes : s.scopes.length < UInt64.size) :
    s.KeepsRegistries log handles where
  scopes := by
    rw [List.Nodup, List.pairwise_map, List.pairwise_iff_getElem]
    intro i j hi hj hij he
    have hsame := h.id_getElem hscopes hi
    rw [he, h.id_getElem hscopes hj] at hsame
    omega
  found scope hmem := by
    obtain ⟨i, hi, rfl⟩ := List.mem_iff_getElem.1 hmem
    exact scope?_of_getElem? (List.getElem?_eq_getElem hi) (h.id_getElem hscopes hi)
  distinct := h.distinct
  fresh {sid scope} hscope := by
    refine ⟨⟨scope.id, scope.nextSlot⟩, ?_, h.id_eq hscope, h.next_notMem hscope⟩
    rw [advance_inScope hscope]
    rfl
  registers {sid scope} hscope object k := by
    rw [changes, if_pos rfl, hscope, Option.elim_some, ← h.id_eq hscope]
    exact Action.mem_registration
  own hscope hk := h.own_of_parent? hscope hk
  foreign hscope hne :=
    Option.eq_none_iff_forall_ne_some.2 fun _ hk => hne (h.own_of_parent? hscope hk).1
  parent? := h.parent?_eq_some_iff
  isMarked hscope k := by
    rw [h.registry hscope]
    exact KeyRegistry.isMarked_replay _ _ k
  flushed hscope := by
    rw [advance_inScope hscope]
    rfl
  others hscope hstep := scope?_advance_of_not_isIn hscope hstep

end Tracks

/-- Whatever is done in a session with fewer than 2^64 scopes and objects, all handles that it
allocates are different, and its registries hold the parents that were registered last in their
scopes, those of the scopes' own objects. -/
theorem keepsRegistries (store : Store) (steps : List SessionStep)
    (hscopes : (({ store } : Session).advanceAll steps).scopes.length < UInt64.size)
    (hhandles : (({ store } : Session).allocated steps).length < UInt64.size) :
    (({ store } : Session).advanceAll steps).KeepsRegistries
      (({ store } : Session).history · steps) (({ store } : Session).allocated steps) :=
  ((tracks_start store).advanceAll hhandles).keeps hscopes

/-- A key that an object may be written under. -/
def sampleOwnerKey : Key := .single ⟨"Owner", some (.number 7)⟩ ⟨by simp, by simp⟩

/-- The first object of the first of two scopes is registered in both, and the second scope is
closed. -/
def sampleSteps : List SessionStep :=
  [.openScope true, .openScope true, .inScope ⟨1⟩ .newObject, .inScope ⟨2⟩ .newObject,
    .inScope ⟨1⟩ (.register ⟨⟨1⟩, 0⟩ sampleOwnerKey),
    .inScope ⟨2⟩ (.register ⟨⟨1⟩, 0⟩ sampleOwnerKey), .inScope ⟨2⟩ (.call .close)]

theorem keepsRegistries_sample :
    (({} : Session).advanceAll sampleSteps).scopes.length < UInt64.size ∧
      (({} : Session).allocated sampleSteps).length < UInt64.size ∧
      (({} : Session).advanceAll sampleSteps).KeepsRegistries
        (({} : Session).history · sampleSteps) (({} : Session).allocated sampleSteps) :=
  ⟨by decide, by decide, keepsRegistries {} sampleSteps (by decide) (by decide)⟩

/-- Two objects with the same number in their scopes. The second scope does not register the object
of the first. -/
example :
    let s : Session := {}
    s.allocated sampleSteps = [⟨⟨1⟩, 0⟩, ⟨⟨2⟩, 0⟩] ∧
      s.history ⟨1⟩ sampleSteps = [.registered ⟨⟨1⟩, 0⟩ sampleOwnerKey] ∧
      s.history ⟨2⟩ sampleSteps = [.cleared] :=
  ⟨rfl, rfl, rfl⟩

end Session
end EntityGraph
