import EntityGraph.Proofs.Cursor.Answers
import EntityGraph.Proofs.Store.Faults

/-!
# Calls on cursors in any order

Callers ask their cursors for rows and disconnect them, the scope disconnects those that it follows,
and the store is written to meanwhile. In whatever order that happens, a cursor answers with what it
owed at the beginning.

* `CursorCall`, `Context.performAll`, `Context.received`: a list of calls, what becomes of the
  context, and what a cursor answers in the course of them;
* `Owes`: what a cursor owes and what the other cursors may do, which every call keeps;
* `Owes.received`: the answers are those that were owed;
* `Owes.related_of_disconnects`: nothing is fetched for a cursor once it has been disconnected;
* `Context.Alike.received`: what sources do not see does not show in the answers.
-/

namespace EntityGraph

variable {Source World : Type}

/-! ## Held cursors -/

namespace HeldCursors

variable {held : HeldCursors Source} {w : World} {op : CursorOp Source World}

theorem get?_set (held : HeldCursors Source) (id id' : CursorId) (c : Cursor Source) :
    (held.set id c).get? id' = if id' = id then some c else held.get? id' :=
  SortedMap.get?_insert ..

/-- The held cursors and the world after an operation on one of them. -/
def on (held : HeldCursors Source) (id : CursorId) (op : CursorOp Source World) (w : World) :
    HeldCursors Source × World :=
  match held.get? id with
  | none => (held, w)
  | some c => (held.set id (op c w).1, (op c w).2)

theorem on_of_held {id : CursorId} {c : Cursor Source} (h : held.get? id = some c) :
    held.on id op w = (held.set id (op c w).1, (op c w).2) := by
  rw [on, h]

theorem get?_on_self {id : CursorId} {c : Cursor Source} (h : held.get? id = some c) :
    (held.on id op w).1.get? id = some (op c w).1 := by
  rw [on_of_held h, get?_set, if_pos rfl]

theorem get?_on_of_ne {id id' : CursorId} (hne : id' ≠ id) :
    (held.on id op w).1.get? id' = held.get? id' := by
  unfold on
  split
  · rfl
  · rw [get?_set, if_neg hne]

/-- The cursors of the numbers fetch from sources of the class only. -/
def Over (Q : Source → Prop) (ids : CursorId → Prop) (held : HeldCursors Source) : Prop :=
  ∀ id c, ids id → held.get? id = some c → c.Over Q

end HeldCursors

theorem HeldCursors.Over.on {Q : Source → Prop} {R : World → World → Prop}
    {held : HeldCursors Source} {op : CursorOp Source World} {ids : CursorId → Prop}
    (h : held.Over Q ids) (hop : op.Unseen Q R) (id : CursorId) (w : World) :
    (held.on id op w).1.Over Q ids ∧ (ids id → R w w → R w (held.on id op w).2) := by
  cases hid : held.get? id with
  | none =>
    rw [HeldCursors.on, hid]
    exact ⟨h, fun _ hw => hw⟩
  | some c =>
    refine ⟨fun id' c' hids hc' => ?_, fun hids => ?_⟩
    · by_cases he : id' = id
      · subst he
        rw [get?_on_self hid] at hc'
        cases hc'
        exact (hop c w (h id' c hids hid)).1
      · rw [get?_on_of_ne he] at hc'
        exact h id' c' hids hc'
    · rw [on_of_held hid]
      exact (hop c w (h id c hids hid)).2

variable [BatchSource Source World]

/-! ## Calls -/

/-- What is asked of the cursors that are held and of their scope, and what else is done to the
store. -/
inductive CursorCall (World : Type) where
  | next (id : CursorId)
  | disconnect (id : CursorId)
  | notify (event : ScopeEvent)
  | store (f : World → World)

namespace CursorCall

def isNext (id : CursorId) : CursorCall World → Bool
  | next id' => id' = id
  | _ => false

def isStore : CursorCall World → Bool
  | store _ => true
  | _ => false

theorem eq_next {id : CursorId} {call : CursorCall World} (h : call.isNext id) :
    call = next id := by
  cases call with
  | next id' => exact congrArg next (of_decide_eq_true h)
  | disconnect _ | notify _ | store _ => cases h

theorem eq_store {call : CursorCall World} (h : call.isStore) : ∃ f, call = store f := by
  cases call with
  | store f => exact ⟨f, rfl⟩
  | next _ | disconnect _ | notify _ => cases h

/-- The call disconnects a cursor, which the scope may follow. -/
def Disconnects (id : CursorId) (scope : Scope) : CursorCall World → Prop
  | disconnect id' => id' = id
  | notify .preCommit | notify .preClose => id ∈ scope.cursors
  | _ => False

/-- What else is done to the store leads to related worlds. -/
def Within (R : World → World → Prop) (calls : List (CursorCall World)) : Prop :=
  ∀ f, store f ∈ calls → ∀ w, R w w → R w (f w)

theorem Within.mono {R : World → World → Prop} {calls calls' : List (CursorCall World)}
    (h : Within R calls) (hs : calls' ⊆ calls) : Within R calls' := fun f hf => h f (hs hf)

theorem Within.tail {R : World → World → Prop} {call : CursorCall World}
    {calls : List (CursorCall World)} (h : Within R (call :: calls)) : Within R calls :=
  h.mono (List.subset_cons_self call calls)

end CursorCall

namespace Context

/-- The context after a call. -/
def perform (ctx : Context Source World) : CursorCall World → Context Source World
  | .next id => (ctx.next id).2
  | .disconnect id => ctx.disconnect id
  | .notify event => ctx.notify event
  | .store f => { ctx with store := f ctx.store }

/-- The context after a list of calls. -/
def performAll (ctx : Context Source World) (calls : List (CursorCall World)) :
    Context Source World := calls.foldl perform ctx

/-- The answers of a cursor in the course of the calls. -/
def received (id : CursorId) : Context Source World → List (CursorCall World) → List Answer
  | _, [] => []
  | ctx, call :: calls =>
    (if call.isNext id then (ctx.next id).1.toList else []) ++ received id (ctx.perform call) calls

/-- What a context holds and the world that it is in. -/
def view (ctx : Context Source World) : HeldCursors Source × World := (ctx.held, ctx.store)

theorem view_next (ctx : Context Source World) (id : CursorId) :
    (ctx.next id).2.view = ctx.held.on id .next ctx.store := by
  unfold next HeldCursors.on
  cases ctx.held.get? id <;> rfl

theorem view_disconnect (ctx : Context Source World) (id : CursorId) :
    (ctx.disconnect id).view = ctx.held.on id .disconnect ctx.store := by
  unfold disconnect HeldCursors.on
  cases ctx.held.get? id with
  | none => rfl
  | some c =>
    simp only
    split <;> rfl

theorem scope_next (ctx : Context Source World) (id : CursorId) :
    (ctx.next id).2.scope = ctx.scope := by
  unfold next
  cases ctx.held.get? id <;> rfl

theorem scope_disconnect (ctx : Context Source World) (id : CursorId) :
    (ctx.disconnect id).scope = ctx.scope := by
  unfold disconnect
  cases ctx.held.get? id with
  | none => rfl
  | some c =>
    simp only
    split <;> rfl

theorem scope_disconnectEach : ∀ (ids : List CursorId) (ctx : Context Source World),
    (ids.foldl disconnect ctx).scope = ctx.scope
  | [], _ => rfl
  | id :: ids, ctx => (scope_disconnectEach ids _).trans (ctx.scope_disconnect id)

/-- A scope that disconnects its cursors lets go of them, and that is all that it changes. -/
theorem scope_disconnectAll (ctx : Context Source World) :
    ctx.disconnectAll.scope = { ctx.scope with cursors := [] } :=
  congrArg (fun scope : Scope => { scope with cursors := [] })
    (scope_disconnectEach ctx.scope.cursors ctx)

section Keeps

variable {I : HeldCursors Source × World → Prop}
  (hdisconnect : ∀ {held w} id, I (held, w) → I (held.on id .disconnect w))
include hdisconnect

theorem disconnectEach_keeps : ∀ (ids : List CursorId) {ctx : Context Source World}, I ctx.view →
    I (ids.foldl disconnect ctx).view
  | [], _, h => h
  | id :: ids, ctx, h => disconnectEach_keeps ids (ctx.view_disconnect id ▸ hdisconnect id h)

theorem notify_keeps {ctx : Context Source World} (event : ScopeEvent) (h : I ctx.view) :
    I (ctx.notify event).view := by
  cases event with
  | preCommit => exact disconnectEach_keeps hdisconnect _ h
  | preClose => exact disconnectEach_keeps hdisconnect _ h
  | postClose => exact h
  | flushed => exact h

variable (hnext : ∀ {held w} id, I (held, w) → I (held.on id .next w))
include hnext

/-- What all operations on cursors and all changes of the store keep, a list of calls keeps. -/
theorem performAll_keeps : ∀ (calls : List (CursorCall World)) {ctx : Context Source World},
    (∀ f, .store f ∈ calls → ∀ {held w}, I (held, w) → I (held, f w)) → I ctx.view →
      I (ctx.performAll calls).view
  | [], _, _, h => h
  | call :: calls, ctx, hstore, h => by
    refine performAll_keeps calls (fun f hf => hstore f (List.mem_cons_of_mem _ hf)) ?_
    cases call with
    | next id => exact ctx.view_next id ▸ hnext id h
    | disconnect id => exact ctx.view_disconnect id ▸ hdisconnect id h
    | notify event => exact notify_keeps hdisconnect event h
    | store f => exact hstore f List.mem_cons_self h

end Keeps

end Context

/-! ## Debts -/

section Owes

variable {Q : Source → Prop} {R : World → World → Prop} {held : HeldCursors Source} {w : World}
  {id : CursorId} {owed : List Answer}

/-- A cursor owes the answers, and the other cursors fetch from sources of the class only. -/
structure Owes (Q : Source → Prop) (R : World → World → Prop) (id : CursorId)
    (owed : List Answer) (v : HeldCursors Source × World) : Prop where
  cursor : ∃ c, v.1.get? id = some c ∧ c.Sound ∧ c.owed v.2 = owed
  others : v.1.Over Q (· ≠ id)
  world : R v.2 v.2

theorem Owes.of_related (hb : BatchSource.Blind Source R) (h : Owes Q R id owed (held, w))
    {w' : World} (hw : R w w') : Owes Q R id owed (held, w') where
  cursor := by
    obtain ⟨c, hid, hc, ho⟩ := h.cursor
    refine ⟨c, hid, hc, ?_⟩
    rw [← ho, Cursor.owed, Cursor.owed, Cursor.blind_supply hb c hw]
  others := h.others
  world := hb.trans (hb.symm hw) hw

/-- An operation on another cursor leaves what is owed. -/
theorem Owes.on_of_ne (hb : BatchSource.Blind Source R) (h : Owes Q R id owed (held, w))
    {op : CursorOp Source World} (hop : op.Unseen Q R) {id' : CursorId} (hne : id' ≠ id) :
    Owes Q R id owed (held.on id' op w) := by
  obtain ⟨hover, hw⟩ := h.others.on hop id' w
  have hworld := hw hne h.world
  have h' := h.of_related hb hworld
  refine ⟨?_, hover, h'.world⟩
  rw [HeldCursors.get?_on_of_ne hne.symm]
  exact h'.cursor

/-- An operation on the cursor itself. -/
theorem Owes.on_self (h : Owes Q R id owed (held, w)) {op : CursorOp Source World}
    {owed' : List Answer}
    (hop : ∀ c, c.Sound → c.owed w = owed →
      (op c w).1.Sound ∧ (op c w).1.owed (op c w).2 = owed' ∧ (R w w → R (op c w).2 (op c w).2)) :
    Owes Q R id owed' (held.on id op w) := by
  obtain ⟨c, hid, hc, ho⟩ := h.cursor
  obtain ⟨hc', ho', hw⟩ := hop c hc ho
  refine ⟨⟨_, HeldCursors.get?_on_self hid, hc', ?_⟩, fun id' c' hne hid' => ?_, ?_⟩
  · rw [HeldCursors.on_of_held hid]
    exact ho'
  · rw [HeldCursors.get?_on_of_ne hne] at hid'
    exact h.others id' c' hne hid'
  · rw [HeldCursors.on_of_held hid]
    exact hw h.world

variable {ctx : Context Source World}

theorem Owes.next (hb : BatchSource.Blind Source R) (h : Owes Q R id owed ctx.view) :
    (ctx.next id).1 = some (owed.headD (.ok none)) ∧
      Owes Q R id owed.tail (ctx.next id).2.view := by
  constructor
  · obtain ⟨c, hid, hc, ho⟩ := h.cursor
    obtain ⟨-, hanswer, -⟩ := Cursor.owed_next hc ctx.store
    have hnext : (ctx.next id).1 =
        some ((c.next ctx.store).1.1.mapError (.cursorStore c.kind)) := by
      unfold Context.next
      rw [show ctx.held.get? id = some c from hid]
    rw [hnext, hanswer]
    exact congrArg (fun owed : List Answer => some (owed.headD (.ok none))) ho
  · rw [Context.view_next]
    refine h.on_self fun c hc ho => ?_
    obtain ⟨hc', -, ho'⟩ := Cursor.owed_next hc ctx.store
    exact ⟨hc', ho'.trans (congrArg _ ho), fun hw => (Cursor.blind_next hb c hw).2⟩

theorem Owes.on_disconnect (hb : BatchSource.Blind Source R) (hu : BatchSource.Unseen Q R)
    (h : Owes Q R id owed (held, w)) (id' : CursorId) :
    Owes Q R id owed (held.on id' .disconnect w) := by
  by_cases he : id' = id
  · subst he
    refine h.on_self fun c hc ho => ?_
    obtain ⟨hc', -, ho'⟩ := Cursor.owed_disconnect hc w
    exact ⟨hc', ho'.trans ho, fun hw => (Cursor.blind_disconnect hb c hw).2⟩
  · exact h.on_of_ne hb (CursorOp.unseen_disconnect hu hb) he

/-- A call that does not take an answer from the cursor leaves what it owes. -/
theorem Owes.perform (hb : BatchSource.Blind Source R) (hu : BatchSource.Unseen Q R)
    (h : Owes Q R id owed ctx.view) {call : CursorCall World} (hcall : ¬call.isNext id)
    (hstore : ∀ f, call = .store f → ∀ w, R w w → R w (f w)) :
    Owes Q R id owed (ctx.perform call).view := by
  cases call with
  | next id' =>
    rw [Context.perform, Context.view_next]
    exact h.on_of_ne hb (CursorOp.unseen_next hu) (by simpa [CursorCall.isNext] using hcall)
  | disconnect id' => exact ctx.view_disconnect id' ▸ h.on_disconnect hb hu id'
  | notify event => exact Context.notify_keeps (fun id' hi => hi.on_disconnect hb hu id') event h
  | store f => exact h.of_related hb (hstore f rfl _ h.world)

/-- Whatever else happens in between, a cursor gives the answers that it owes, and nothing after
them. -/
theorem Owes.received (hb : BatchSource.Blind Source R) (hu : BatchSource.Unseen Q R) :
    ∀ (calls : List (CursorCall World)) {ctx : Context Source World} {owed : List Answer},
      Owes Q R id owed ctx.view → CursorCall.Within R calls →
      ctx.received id calls = answered owed (calls.countP (CursorCall.isNext id))
  | [], _, _, _, _ => rfl
  | call :: calls, ctx, owed, h, hstore => by
    by_cases hn : call.isNext id
    · obtain ⟨hanswer, h'⟩ := h.next hb
      rw [List.countP_cons_of_pos hn, answered_succ, ← Owes.received hb hu calls h' hstore.tail,
        Context.received, if_pos hn, hanswer, CursorCall.eq_next hn]
      rfl
    · rw [List.countP_cons_of_neg hn, Context.received, if_neg hn]
      exact Owes.received hb hu calls
        (h.perform hb hu hn fun f he => hstore f (he ▸ List.mem_cons_self)) hstore.tail

theorem Owes.performAll (hb : BatchSource.Blind Source R) (hu : BatchSource.Unseen Q R) :
    ∀ (calls : List (CursorCall World)) {ctx : Context Source World} {owed : List Answer},
      Owes Q R id owed ctx.view → CursorCall.Within R calls →
      ∃ owed', Owes Q R id owed' (ctx.performAll calls).view
  | [], _, owed, h, _ => ⟨owed, h⟩
  | call :: calls, ctx, owed, h, hstore => by
    by_cases hn : call.isNext id
    · obtain rfl := CursorCall.eq_next hn
      exact Owes.performAll hb hu calls (h.next hb).2 hstore.tail
    · exact Owes.performAll hb hu calls
        (h.perform hb hu hn fun f he => hstore f (he ▸ List.mem_cons_self)) hstore.tail

end Owes

/-! ## Cursors that fetch no more -/

section Related

variable {Q : Source → Prop} {R : World → World → Prop} {ids : CursorId → Prop}
  {ctx : Context Source World}

theorem HeldCursors.Over.performAll (hb : BatchSource.Blind Source R)
    (hu : BatchSource.Unseen Q R) (h : ctx.held.Over Q ids) (calls : List (CursorCall World)) :
    (ctx.performAll calls).held.Over Q ids :=
  Context.performAll_keeps (I := fun v => v.1.Over Q ids)
    (fun id h => (h.on (CursorOp.unseen_disconnect hu hb) id _).1)
    (fun id h => (h.on (CursorOp.unseen_next hu) id _).1)
    calls (fun _ _ => id) h

/-- Where all cursors fetch from sources of the class only, calls lead to related worlds. -/
theorem Context.related_performAll (hb : BatchSource.Blind Source R) (hu : BatchSource.Unseen Q R)
    (h : ctx.held.Over Q fun _ => True) (hw : R ctx.store ctx.store)
    {calls : List (CursorCall World)} (hstore : CursorCall.Within R calls) :
    R ctx.store (ctx.performAll calls).store := by
  have hon : ∀ {op : CursorOp Source World}, op.Unseen Q R →
      ∀ {held : HeldCursors Source} {w : World} (id : CursorId),
        held.Over Q (fun _ => True) ∧ R ctx.store w →
          (held.on id op w).1.Over Q (fun _ => True) ∧ R ctx.store (held.on id op w).2 := by
    intro op hop held w id ⟨ho, hr⟩
    obtain ⟨ho', hr'⟩ := ho.on hop id w
    have hself := hb.trans (hb.symm hr) hr
    exact ⟨ho', hb.trans hr (hr' trivial hself)⟩
  have hkeeps : (ctx.performAll calls).held.Over Q (fun _ => True) ∧
      R ctx.store (ctx.performAll calls).store := by
    refine Context.performAll_keeps (I := fun v => v.1.Over Q (fun _ => True) ∧ R ctx.store v.2)
      (hon (CursorOp.unseen_disconnect hu hb)) (hon (CursorOp.unseen_next hu)) calls ?_ ⟨h, hw⟩
    intro f hf held w ⟨ho, hr⟩
    have hself := hb.trans (hb.symm hr) hr
    exact ⟨ho, hb.trans hr (hstore f hf w hself)⟩
  exact hkeeps.2

end Related

section Sealed

variable {Q : Source → Prop} {R : World → World → Prop} {held : HeldCursors Source} {w : World}
  {id : CursorId} {owed : List Answer} {ctx : Context Source World}

/-- A cursor fetches no more. -/
def HeldCursors.Sealed (id : CursorId) (held : HeldCursors Source) : Prop :=
  held.Over (fun _ => False) (· = id)

theorem BatchSource.unseen_false (R : World → World → Prop) :
    BatchSource.Unseen (fun _ : Source => False) R :=
  ⟨fun h => h.elim, fun h => h.elim, fun h => h.elim⟩

theorem Owes.sealed_on_disconnect (h : Owes Q R id owed (held, w)) :
    (held.on id .disconnect w).1.Sealed id := by
  obtain ⟨c, hid, hc, -⟩ := h.cursor
  intro id' c' he hc' source hs
  subst he
  rw [HeldCursors.get?_on_self hid] at hc'
  cases hc'
  obtain ⟨-, hnone, -⟩ := Cursor.owed_disconnect hc w
  cases hnone.symm.trans hs

variable (hb : BatchSource.Blind Source R)
include hb

theorem HeldCursors.Sealed.performAll (h : ctx.held.Sealed id)
    (calls : List (CursorCall World)) : (ctx.performAll calls).held.Sealed id :=
  HeldCursors.Over.performAll hb (BatchSource.unseen_false R) h calls

variable (hu : BatchSource.Unseen Q R)
include hu

theorem Owes.sealed_disconnectEach : ∀ {ids : List CursorId} {ctx : Context Source World},
    Owes Q R id owed ctx.view → id ∈ ids → (ids.foldl Context.disconnect ctx).held.Sealed id
  | id' :: ids, ctx, h, hid => by
    have h' : Owes Q R id owed (ctx.disconnect id').view :=
      ctx.view_disconnect id' ▸ h.on_disconnect hb hu id'
    rcases List.mem_cons.1 hid with rfl | hid
    · have hop := CursorOp.unseen_disconnect (BatchSource.unseen_false R) hb
      refine Context.disconnectEach_keeps (I := fun v => v.1.Sealed id)
        (fun id' h => (h.on hop id' _).1) ids ?_
      exact ctx.view_disconnect id ▸ h.sealed_on_disconnect
    · exact h'.sealed_disconnectEach hid

/-- A scope follows a cursor until the cursor fetches no more. -/
theorem Owes.followed : ∀ {calls : List (CursorCall World)} {ctx : Context Source World}
    {owed : List Answer}, Owes Q R id owed ctx.view → id ∈ ctx.scope.cursors →
      CursorCall.Within R calls →
      id ∈ (ctx.performAll calls).scope.cursors ∨ (ctx.performAll calls).held.Sealed id
  | [], _, _, _, hid, _ => .inl hid
  | call :: calls, ctx, owed, h, hid, hstore => by
    obtain ⟨owed', h'⟩ := h.performAll hb hu [call] (hstore.mono (by simp))
    -- The scope lets go of a cursor only when it disconnects it.
    have hsealed : (ctx.disconnectAll.performAll calls).held.Sealed id := by
      refine HeldCursors.Sealed.performAll hb ?_ calls
      exact h.sealed_disconnectEach hb hu hid
    cases call with
    | next id' => exact h'.followed ((ctx.scope_next id').symm ▸ hid) hstore.tail
    | disconnect id' => exact h'.followed ((ctx.scope_disconnect id').symm ▸ hid) hstore.tail
    | notify event =>
      cases event with
      | preCommit => exact .inr hsealed
      | preClose => exact .inr hsealed
      | postClose => exact h'.followed hid hstore.tail
      | flushed => exact h'.followed hid hstore.tail
    | store f => exact h'.followed hid hstore.tail

/-- A cursor that was disconnected, by a caller or at the end of its scope, fetches no more. -/
theorem Owes.sealed_of_disconnects (h : Owes Q R id owed ctx.view)
    {before : List (CursorCall World)} {call : CursorCall World}
    (hstore : CursorCall.Within R before)
    (hcall : call.Disconnects id ctx.scope) :
    (ctx.performAll (before ++ [call])).held.Sealed id := by
  obtain ⟨owed', h'⟩ := h.performAll hb hu before hstore
  have hend : id ∈ ctx.scope.cursors → (ctx.performAll before).disconnectAll.held.Sealed id := by
    intro hid
    rcases h.followed hb hu hid hstore with hid' | hs
    · exact h'.sealed_disconnectEach hb hu hid'
    · exact hs.performAll hb [.notify .preClose]
  rw [Context.performAll, List.foldl_append]
  cases call with
  | next id' => cases hcall
  | disconnect id' =>
    obtain rfl : id' = id := hcall
    have hview := (ctx.performAll before).view_disconnect id'
    have hsealed : ((ctx.performAll before).disconnect id').view.1.Sealed id' :=
      hview ▸ h'.sealed_on_disconnect
    exact hsealed
  | notify event =>
    cases event with
    | preCommit => exact hend hcall
    | preClose => exact hend hcall
    | postClose => cases hcall
    | flushed => cases hcall
  | store f => cases hcall

/-- Once a cursor has been disconnected, the calls fetch from the sources of the others only. -/
theorem Owes.related_of_disconnects (h : Owes Q R id owed ctx.view)
    {before after : List (CursorCall World)} {call : CursorCall World}
    (hstore : CursorCall.Within R (before ++ call :: after))
    (hcall : call.Disconnects id ctx.scope) :
    R (ctx.performAll (before ++ [call])).store
      (ctx.performAll (before ++ call :: after)).store := by
  have hsplit : ctx.performAll (before ++ call :: after) =
      (ctx.performAll (before ++ [call])).performAll after := by
    simp [Context.performAll]
  have hsealed := h.sealed_of_disconnects hb hu
    (hstore.mono (List.subset_append_left before _)) hcall
  obtain ⟨owed', h'⟩ := h.performAll hb hu (before ++ [call]) (hstore.mono (by simp))
  rw [hsplit]
  have hafter : CursorCall.Within R after :=
    hstore.mono (List.Subset.trans (List.subset_cons_self ..) (List.subset_append_right ..))
  -- The sealed cursor has no source left, so that all sources are those of the others.
  refine Context.related_performAll hb hu (fun id' c _ hid' source hs => ?_) h'.world hafter
  by_cases he : id' = id
  · exact (hsealed id' c he hid' source hs).elim
  · exact h'.others id' c he hid' source hs

end Sealed

/-! ## Changes of the store in between -/

section Alike

variable {R : World → World → Prop} {ctx ctx' : Context Source World}

/-- Two contexts differ in the world only, and the worlds are related. -/
def Context.Alike (R : World → World → Prop) (ctx ctx' : Context Source World) : Prop :=
  ∃ w, R ctx.store w ∧ ctx' = { ctx with store := w }

variable (hb : BatchSource.Blind Source R)
include hb

theorem Context.Alike.next (h : ctx.Alike R ctx') (id : CursorId) :
    (ctx.next id).1 = (ctx'.next id).1 ∧ (ctx.next id).2.Alike R (ctx'.next id).2 := by
  obtain ⟨w, hw, rfl⟩ := h
  unfold Context.next
  cases ctx.held.get? id with
  | none => exact ⟨rfl, w, hw, rfl⟩
  | some c =>
    obtain ⟨hsame, hworld⟩ := c.blind_next hb hw
    simp only [hsame]
    exact ⟨trivial, _, hworld, rfl⟩

theorem Context.Alike.disconnect (h : ctx.Alike R ctx') (id : CursorId) :
    (ctx.disconnect id).Alike R (ctx'.disconnect id) := by
  obtain ⟨w, hw, rfl⟩ := h
  unfold Context.disconnect
  cases ctx.held.get? id with
  | none => exact ⟨w, hw, rfl⟩
  | some c =>
    obtain ⟨hsame, hworld⟩ := c.blind_disconnect hb hw
    simp only [hsame]
    cases (c.disconnect w).1.1 <;> exact ⟨_, hworld, rfl⟩

theorem Context.Alike.disconnectEach : ∀ (ids : List CursorId) {ctx ctx' : Context Source World},
    ctx.Alike R ctx' →
      (ids.foldl Context.disconnect ctx).Alike R (ids.foldl Context.disconnect ctx')
  | [], _, _, h => h
  | id :: ids, _, _, h => disconnectEach ids (h.disconnect hb id)

theorem Context.Alike.perform (h : ctx.Alike R ctx') {call : CursorCall World}
    (hcall : ¬call.isStore) : (ctx.perform call).Alike R (ctx'.perform call) := by
  have hall : (ctx.disconnectAll).Alike R ctx'.disconnectAll := by
    obtain ⟨w, hw, rfl⟩ := h
    obtain ⟨w', hw', he⟩ := Context.Alike.disconnectEach hb ctx.scope.cursors ⟨w, hw, rfl⟩
    exact ⟨w', hw', by rw [disconnectAll, disconnectAll, he]⟩
  cases call with
  | next id => exact (h.next hb id).2
  | disconnect id => exact h.disconnect hb id
  | notify event =>
    cases event with
    | preCommit => exact hall
    | preClose => exact hall
    | postClose =>
      obtain ⟨w, hw, rfl⟩ := h
      exact ⟨w, hw, rfl⟩
    | flushed =>
      obtain ⟨w, hw, rfl⟩ := h
      exact ⟨w, hw, rfl⟩
  | store f => exact absurd rfl hcall

/-- Changes of the store within related worlds do not show in the answers. -/
theorem Context.Alike.received (id : CursorId) : ∀ {calls : List (CursorCall World)}
    {ctx ctx' : Context Source World}, ctx.Alike R ctx' → CursorCall.Within R calls →
      ctx.received id calls = ctx'.received id (calls.filter (!·.isStore))
  | [], _, _, _, _ => rfl
  | call :: calls, ctx, ctx', h, hstore => by
    by_cases hs : call.isStore
    · obtain ⟨f, rfl⟩ := CursorCall.eq_store hs
      obtain ⟨w, hw, rfl⟩ := h
      have hself := hb.trans hw (hb.symm hw)
      have hstep : (ctx.perform (.store f)).Alike R { ctx with store := w } :=
        ⟨w, hb.trans (hb.symm (hstore f List.mem_cons_self _ hself)) hw, rfl⟩
      rw [List.filter_cons_of_neg (by simpa using hs)]
      exact hstep.received id hstore.tail
    · rw [List.filter_cons_of_pos (by simpa using hs), Context.received, Context.received,
        (h.next hb id).1, Context.Alike.received id (h.perform hb hs) hstore.tail]

end Alike
end EntityGraph
