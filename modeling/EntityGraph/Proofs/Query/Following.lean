import EntityGraph.Proofs.Query.Delivery
import EntityGraph.Session

/-!
# Cursors do not outlive their scope

A scope follows the cursors that queries open in it. It forgets those that are no longer held when
another one is opened, and lets go of the others only when it disconnects them. So a cursor that is
still held when its scope ends is disconnected then, if it was not before, and its caller gets the
rest of its rows without the store.

* `Context.Opens`: what a query that is run does to the cursors (`Query.opens_execute`);
* `SessionCall`, `Session.performAll`, `Session.heard`: what is done in a session, in any of its
  scopes, what becomes of the session, and what the caller of a cursor hears meanwhile;
* `Session.Serves`: a cursor that is still held has given what was heard of it, and its scope
  reaches it. Every call keeps this (`Session.Serves.perform`);
* `Session.CutOff`: a cursor that is read without the store;
* `Session.reached_at_end`: the scope of a cursor reaches it, until it ends and cuts the cursor off.
-/

namespace EntityGraph

/-! ## Opening cursors -/

/-- What an operation did to the cursors, by its answer: nothing, or it opened one, which it answers
with and which the scope now follows. -/
inductive Context.Opens (ctx : Context) : Except Failure Result → Context → Prop where
  | nothing {answer : Except Failure Result} {ctx' : Context} (scope : ctx'.scope = ctx.scope)
      (held : ctx'.held = ctx.held) (hanswer : ∀ id, answer ≠ .ok (.stream id)) :
      ctx.Opens answer ctx'
  | cursor {ctx' : Context} (kind : String) (snapshot : Snapshot) (batchSize : Nat)
      (scope : ctx'.scope = ctx.scope.track ctx.held ctx.held.next)
      (held : ctx'.held = (ctx.held.add (.ofSource kind snapshot batchSize)).2) :
      ctx.Opens (.ok (.stream ctx.held.next)) ctx'

/-- An operation opens no cursor but its result. -/
def OpensResult (x : Action Result) : Prop :=
  ∀ ctx : Context, ctx.Opens (outcome (x ctx)) (finalState (x ctx))

namespace OpensResult

theorem of_leavesCursors {x : Action Result} (h : LeavesCursors x)
    (hanswers : x.Answers (·.cursor? = none)) : OpensResult x := fun ctx => by
  obtain ⟨hscope, hheld⟩ := h ctx
  refine .nothing hscope hheld fun id hid => ?_
  cases hx : x ctx with
  | error e ctx' =>
    rw [hx] at hid
    cases hid
  | ok r ctx' =>
    rw [hx] at hid
    cases hid
    cases hanswers ctx _ ctx' hx

theorem bind {α : Type} {x : Action α} {f : α → Action Result} (hx : LeavesCursors x)
    (hf : ∀ a, OpensResult (f a)) : OpensResult (x >>= f) := fun ctx => by
  obtain ⟨hscope, hheld⟩ := hx ctx
  cases h : x ctx with
  | error e ctx' =>
    rw [h] at hscope hheld
    rw [bind_of_error h]
    exact .nothing hscope hheld nofun
  | ok a ctx' =>
    rw [h] at hscope hheld
    have hscope : ctx'.scope = ctx.scope := hscope
    have hheld : ctx'.held = ctx.held := hheld
    rw [bind_of_ok h]
    have hopens := hf a ctx'
    generalize outcome (f a ctx') = answer at hopens ⊢
    cases hopens with
    | nothing scope held hanswer =>
      exact .nothing (scope.trans hscope) (held.trans hheld) hanswer
    | cursor kind snapshot batchSize scope held =>
      rw [hheld, hscope] at scope
      rw [hheld] at held ⊢
      exact .cursor kind snapshot batchSize scope held

theorem counted {x : Action Result} (h : OpensResult x) (call : CallKind) (kind : String) :
    OpensResult (Action.counted call kind x) := fun ctx => by
  have hx := h { ctx.emit (.started call kind) with touched := 0 }
  unfold Action.counted
  cases hrun : x { ctx.emit (.started call kind) with touched := 0 } <;> rw [hrun] at hx
  · cases hx with
    | nothing scope held hanswer => exact .nothing scope held hanswer
    | cursor kind snapshot batchSize scope held => exact .cursor kind snapshot batchSize scope held
  · cases hx with
    | nothing scope held hanswer => exact .nothing scope held hanswer

end OpensResult

namespace Query

theorem opens_executeScan (q : Query) (config : QueryConfig) (s : Scan) :
    OpensResult (q.executeScan config false s) := by
  unfold executeScan
  refine .bind (.emit _) fun _ => .bind (.onStore _ _) fun snapshot => ?_
  exact fun ctx => .cursor q.kind snapshot config.batchSize.toNat rfl rfl

/-- A query that is run opens no cursor but its result. -/
theorem opens_executeFor (q : Query) (config : QueryConfig) (b : Bindings) (unique : Bool) :
    OpensResult (q.executeFor config b unique) := by
  cases unique with
  | true =>
    exact .of_leavesCursors (q.leavesCursors_executeFor config b)
      (q.answers_executeFor_true config b)
  | false =>
    unfold executeFor
    refine OpensResult.counted (.bind (.ofExcept _) fun p => ?_) .query q.kind
    cases p with
    | scan s => exact q.opens_executeScan config s
    | refused reason =>
      refine .bind (.emit _) fun _ => ?_
      exact .of_leavesCursors (q.leavesCursors_executeInMemory config b false)
        ((q.answers_executeInMemory config b false).mono fun _ h => h.2)

end Query

/-- A cursor that was issued before is not touched by the opening of another, and the scope does not
forget it while it is held. -/
theorem Context.Opens.carries {ctx ctx' : Context} {answer : Except Failure Result}
    (h : ctx.Opens answer ctx') (hcalm : ctx.store.FetchCalm → ctx'.store.FetchCalm)
    {id : CursorId} (hid : id < ctx.held.next) : ctx.Carries id [] ctx' := by
  cases h with
  | nothing scope held hanswer => exact .of_cursors (congrArg Scope.cursors scope) held hcalm
  | cursor kind snapshot batchSize scope held =>
    have hnext : ctx'.held.next = ctx.held.next + 1 := by
      rw [held]
      rfl
    have hget : ctx'.held.get? id = ctx.held.get? id := by
      rw [held]
      exact SortedMap.get?_insert_of_ne _ _ (Nat.ne_of_lt hid)
    refine ⟨hnext ▸ Nat.le_succ _, hcalm, fun c hc => ?_⟩
    have hc := hget.symm.trans hc
    refine ⟨c, hc, .refl c, fun hreaches => ?_⟩
    refine hreaches.imp_right fun hmem => ?_
    rw [scope]
    refine List.mem_append_left _ (List.mem_filter.2 ⟨hmem, ?_⟩)
    exact Option.isSome_iff_exists.2 ⟨c, hc⟩

/-! ## Calls -/

/-- What is done in a scope with its queries, their results and its events. -/
inductive ScopeCall where
  | execute (q : Query) (config : QueryConfig) (b : Bindings)
  | uniqueRow (q : Query) (config : QueryConfig) (b : Bindings)
  | next (r : Result)
  | readAll (r : Result)
  | drop (r : Result)
  | disconnect (id : CursorId)
  | notify (event : ScopeEvent)
  | close

/-- What is done in a session: in one of its scopes, by opening another one, or to the store. -/
inductive SessionCall where
  | inScope (sid : ScopeId) (call : ScopeCall)
  | openScope (transactional : Bool)
  | store (f : Store → Store)

namespace ScopeCall

/-- The call as an operation, which answers with a row where it is for one. -/
def run : ScopeCall → Action (Option Row)
  | execute q config b => (fun _ => none) <$> q.execute config b
  | uniqueRow q config b => q.uniqueRow? config b
  | next r => (·.1) <$> r.next
  | readAll r => (fun _ => none) <$> r.readAll
  | drop r => (fun _ => none) <$> r.drop
  | disconnect id => (fun _ => none) <$> modify (·.disconnect id)
  | notify event => (fun _ => none) <$> modify (·.notify event)
  | close => (fun _ => none) <$> modify Context.close

/-- The call is for the next row of a cursor. -/
def isNext (id : CursorId) : ScopeCall → Bool
  | next r => r.cursor? = some id
  | _ => false

/-- The scope disconnects its cursors on the call. -/
inductive Ends : ScopeCall → Prop where
  | preCommit : Ends (notify .preCommit)
  | preClose : Ends (notify .preClose)
  | close : Ends close

/-- What every call does to a cursor that was issued before. -/
theorem carries (call : ScopeCall) (ctx : Context) {id : CursorId} (hid : id < ctx.held.next) :
    ctx.Carries id (if call.isNext id then [outcome (call.run ctx)] else [])
      (finalState (call.run ctx)) := by
  cases call with
  | execute q config b =>
    rw [run, finalState_map]
    have hcalm := (q.accounts_executeFor config b q.unique ctx).fetchCalm
    exact (q.opens_executeFor config b q.unique ctx).carries hcalm hid
  | uniqueRow q config b =>
    obtain ⟨hscope, hheld⟩ := q.leavesCursors_uniqueRow? config b ctx
    exact .of_cursors (congrArg Scope.cursors hscope) hheld
      (q.accounts_uniqueRow? config b ctx).fetchCalm
  | next r =>
    rw [run, finalState_map, outcome_map]
    simpa [isNext] using r.carries_next ctx
  | readAll r =>
    rw [run, finalState_map]
    exact r.carries_readAll ctx
  | drop r =>
    rw [run, finalState_map]
    exact r.carries_drop ctx
  | disconnect id' => exact ctx.carries_disconnect id'
  | notify event => exact ctx.carries_notify event
  | close => exact ctx.carries_close

/-- A call on which the scope disconnects its cursors is not for a row, lets go of all of them, and
drops none. -/
theorem Ends.spec {call : ScopeCall} (h : call.Ends) (ctx : Context) {id : CursorId}
    (hid : ∃ c, ctx.held.get? id = some c) : call.isNext id = false ∧
      (finalState (call.run ctx)).scope.cursors = [] ∧
      ∃ c, (finalState (call.run ctx)).held.get? id = some c := by
  have hall : ∃ c, ctx.disconnectAll.held.get? id = some c := by
    refine Context.disconnectEach_keeps (I := fun v => ∃ c, v.1.get? id = some c) ?_ _ hid
    rintro held w id' ⟨c, hc⟩
    by_cases he : id' = id
    · subst he
      exact ⟨_, HeldCursors.get?_on_self hc⟩
    · exact ⟨c, (HeldCursors.get?_on_of_ne (Ne.symm he)).trans hc⟩
  cases h with
  | preCommit => exact ⟨rfl, rfl, hall⟩
  | preClose => exact ⟨rfl, rfl, hall⟩
  | close => exact ⟨rfl, rfl, hall⟩

end ScopeCall

/-- The call is for the next row of a cursor. -/
def SessionCall.isNext (id : CursorId) : SessionCall → Bool
  | inScope _ call => call.isNext id
  | openScope _ | store _ => false

namespace Session

/-- What a call answers, if its scope exists, and the session after it. -/
def perform (s : Session) : SessionCall → Option Answer × Session
  | .inScope sid call =>
    match s.scope? sid with
    | none => (none, s)
    | some scope =>
      let ((answer, _), s) := s.runIn sid scope call.run
      (some answer, s)
  | .openScope transactional => (none, (s.openScope transactional).2)
  | .store f => (none, s.withStore f)

/-- The session after a list of calls. -/
def performAll (s : Session) (calls : List SessionCall) : Session :=
  calls.foldl (fun s call => (s.perform call).2) s

/-- The answers of a cursor in the course of the calls. -/
def heard (id : CursorId) : Session → List SessionCall → List Answer
  | _, [] => []
  | s, call :: calls =>
    (if call.isNext id then (s.perform call).1.toList else []) ++ heard id (s.perform call).2 calls

variable {s : Session} {sid sid' : ScopeId} {scope : Scope} {id : CursorId}

theorem runIn_eq {ε α : Type} (s : Session) (sid : ScopeId) (scope : Scope)
    (body : EStateM ε Context α) : s.runIn sid scope body =
      ((outcome (body (s.context scope)), (finalState (body (s.context scope))).events),
        s.resume sid (finalState (body (s.context scope)))) := by
  unfold runIn
  cases body (s.context scope) <;> rfl

theorem perform_inScope (hscope : s.scope? sid = some scope) (call : ScopeCall) :
    s.perform (.inScope sid call) = (some (outcome (call.run (s.context scope))),
      s.resume sid (finalState (call.run (s.context scope)))) := by
  rw [perform, hscope]
  simp only [runIn_eq]

/-! ### Scopes -/

theorem scope?_eq_some_iff : s.scope? sid = some scope ↔
    sid.number ≠ 0 ∧ s.scopes[sid.number.toNat - 1]? = some scope := by
  unfold scope?
  by_cases h0 : sid.number = 0 <;> simp [h0]

theorem toNat_number_ne_zero (h0 : sid.number ≠ 0) : sid.number.toNat ≠ 0 :=
  mt (UInt64.toNat_inj (b := 0)).1 h0

/-- After an operation in a scope that scope is as the operation left it, and the others are as they
were. -/
theorem scope?_resume (hscope : s.scope? sid = some scope) (ctx : Context) (sid' : ScopeId) :
    (s.resume sid ctx).scope? sid' = if sid' = sid then some ctx.scope else s.scope? sid' := by
  obtain ⟨h0, hget⟩ := scope?_eq_some_iff.1 hscope
  obtain ⟨hlt, -⟩ := List.getElem?_eq_some_iff.1 hget
  by_cases he : sid' = sid
  · subst he
    rw [if_pos rfl]
    exact scope?_eq_some_iff.2 ⟨h0, List.getElem?_set_self hlt⟩
  · rw [if_neg he]
    by_cases h0' : sid'.number = 0
    · rw [scope?, scope?, if_pos h0', if_pos h0']
    · have hnumber : sid'.number.toNat ≠ sid.number.toNat :=
        mt (fun h => congrArg ScopeId.mk (UInt64.toNat_inj.1 h)) he
      have hindex : sid.number.toNat - 1 ≠ sid'.number.toNat - 1 := by
        have := toNat_number_ne_zero h0
        have := toNat_number_ne_zero h0'
        omega
      rw [scope?, scope?, if_neg h0', if_neg h0']
      exact List.getElem?_set_ne hindex

theorem scope?_resume_self (hscope : s.scope? sid = some scope) (ctx : Context) :
    (s.resume sid ctx).scope? sid = some ctx.scope :=
  (scope?_resume hscope ctx sid).trans (if_pos rfl)

theorem scope?_resume_of_ne {scope' : Scope} (hscope : s.scope? sid = some scope)
    (hscope' : s.scope? sid' = some scope') (hne : sid' ≠ sid) (ctx : Context) :
    (s.resume sid' ctx).scope? sid = some scope :=
  (scope?_resume hscope' ctx sid).trans ((if_neg (Ne.symm hne)).trans hscope)

theorem scope?_openScope (hscope : s.scope? sid = some scope) (transactional : Bool) :
    (s.openScope transactional).2.scope? sid = some scope := by
  obtain ⟨h0, hget⟩ := scope?_eq_some_iff.1 hscope
  obtain ⟨hlt, -⟩ := List.getElem?_eq_some_iff.1 hget
  exact scope?_eq_some_iff.2 ⟨h0, (List.getElem?_append_left hlt).trans hget⟩

/-! ### Calls -/

/-- A cursor is disconnected, or a scope of the session will disconnect it when it ends. -/
def Reaches (s : Session) (sid : ScopeId) (id : CursorId) (c : Cursor Snapshot) : Prop :=
  ∃ scope, s.scope? sid = some scope ∧ scope.Reaches id c

/-- No fault waits for fetches, and none that does is injected by the calls. -/
def StaysCalm (s : Session) (calls : List SessionCall) : Prop :=
  s.store.FetchCalm ∧ ∀ f, .store f ∈ calls → ∀ t : Store, t.FetchCalm → (f t).FetchCalm

/-- The caller of a cursor has heard the answers since it was `c₀`. If it is still held, the scope
reaches it. -/
structure Serves (quiet : Prop) (sid : ScopeId) (id : CursorId) (c₀ : Cursor Snapshot)
    (heard : List Answer) (s : Session) : Prop where
  issued : id < s.held.next
  fetchCalm : quiet → s.store.FetchCalm
  cursor : ∀ c, s.held.get? id = some c → c₀.Gives quiet heard c ∧ s.Reaches sid id c

section Serves

variable {quiet : Prop} {c₀ : Cursor Snapshot} {heard : List Answer}

theorem Serves.perform (h : s.Serves quiet sid id c₀ heard) (call : SessionCall)
    (hstore : ∀ f, call = .store f → quiet → ∀ t : Store, t.FetchCalm → (f t).FetchCalm) :
    (s.perform call).2.Serves quiet sid id c₀
      (heard ++ if call.isNext id then (s.perform call).1.toList else []) := by
  cases call with
  | inScope sid' call =>
    cases hscope' : s.scope? sid' with
    | none =>
      have hnone : s.perform (.inScope sid' call) = (none, s) := by
        rw [Session.perform, hscope']
      rw [hnone, Option.toList_none, ite_self, List.append_nil]
      exact h
    | some scope' =>
      rw [perform_inScope hscope']
      have hcarries := call.carries (s.context scope') h.issued
      refine ⟨Nat.lt_of_lt_of_le h.issued hcarries.next_le, hcarries.fetchCalm ∘ h.fetchCalm,
        fun c' hc' => ?_⟩
      obtain ⟨c, hc, hgives, hreaches⟩ := hcarries.cursor c' hc'
      obtain ⟨hgives₀, scope, hscope, hreached⟩ := h.cursor c hc
      refine ⟨hgives₀.trans (hgives.mono h.fetchCalm), ?_⟩
      -- The call may have been made in another scope than that of the cursor.
      by_cases he : sid' = sid
      · subst he
        cases hscope'.symm.trans hscope
        exact ⟨_, scope?_resume_self hscope' _, hreaches hreached⟩
      · exact ⟨scope, scope?_resume_of_ne hscope hscope' he _,
          hreached.imp_left hgives.disconnected⟩
  | openScope transactional =>
    rw [SessionCall.isNext, if_neg Bool.false_ne_true, List.append_nil]
    refine ⟨h.issued, h.fetchCalm, fun c hc => (h.cursor c hc).imp_right ?_⟩
    rintro ⟨scope, hscope, hreached⟩
    exact ⟨scope, scope?_openScope hscope transactional, hreached⟩
  | store f =>
    rw [SessionCall.isNext, if_neg Bool.false_ne_true, List.append_nil]
    exact ⟨h.issued, fun hq => hstore f rfl hq _ (h.fetchCalm hq), h.cursor⟩

theorem Serves.performAll : ∀ {calls : List SessionCall} {s : Session} {heard : List Answer},
    s.Serves quiet sid id c₀ heard →
    (∀ f, .store f ∈ calls → quiet → ∀ t : Store, t.FetchCalm → (f t).FetchCalm) →
    (s.performAll calls).Serves quiet sid id c₀ (heard ++ s.heard id calls)
  | [], _, heard, h, _ => by
    rw [Session.heard, List.append_nil]
    exact h
  | call :: calls, s, heard, h, hstore => by
    have hstep := h.perform call fun f he => hstore f (he ▸ List.mem_cons_self)
    rw [Session.heard, ← List.append_assoc]
    exact hstep.performAll fun f hf => hstore f (List.mem_cons_of_mem _ hf)

end Serves

/-! ### Cursors without the store -/

/-- A held cursor is disconnected. Whoever reads it to the end, row by row or at once, gets the rows
that it has buffered, and then the failure that ended them, and the store is as it was. -/
structure CutOff (s : Session) (id : CursorId) (c : Cursor Snapshot) : Prop where
  held : s.held.get? id = some c
  disconnected : c.disconnected = true
  next : ∀ sid scope n, s.scope? sid = some scope →
    s.heard id (List.replicate n (.inScope sid (.next (.stream id)))) =
        answered (answers c.kind c.buffer c.pending) n ∧
      (s.performAll (List.replicate n (.inScope sid (.next (.stream id))))).store = s.store
  readAll : ∀ scope,
    outcome ((Result.stream id).readAll (s.context scope)) =
        c.pending.elim (.ok c.buffer) (fun e => .error (.cursorStore c.kind e)) ∧
      (finalState ((Result.stream id).readAll (s.context scope))).store = s.store

theorem perform_next (hscope : s.scope? sid = some scope) :
    s.perform (.inScope sid (.next (.stream id))) =
      (some ((s.context scope).answer id), s.resume sid ((s.context scope).next id).2) := by
  obtain ⟨houtcome, hstate⟩ := Result.next_stream_eq id (s.context scope)
  rw [perform_inScope hscope, ScopeCall.run, outcome_map, finalState_map, houtcome, hstate]

/-- A cursor without a source answers with what it owes, and the store is not called. -/
theorem heard_of_source_none {c : Cursor Snapshot} (hc : s.held.get? id = some c)
    (hsource : c.source = none) (hscope : s.scope? sid = some scope) (n : Nat) :
    s.heard id (List.replicate n (.inScope sid (.next (.stream id)))) =
        answered (c.owed s.store) n ∧
      (s.performAll (List.replicate n (.inScope sid (.next (.stream id))))).store = s.store := by
  induction n generalizing s c scope with
  | zero => exact ⟨rfl, rfl⟩
  | succ n ih =>
    obtain ⟨-, hanswer, howed⟩ :=
      Cursor.owed_next (Cursor.sound_of_source_none hsource) s.store
    obtain ⟨hstore, hsource'⟩ := Cursor.next_of_source_none hsource s.store
    have hc : (s.context scope).held.get? id = some c := hc
    have hctx := Context.next_of_held hc
    have hsame : (s.resume sid ((s.context scope).next id).2).store = s.store := by
      rw [hctx]
      exact hstore
    have hheld : (s.resume sid ((s.context scope).next id).2).held.get? id =
        some (c.next s.store).1.2 := by
      rw [hctx]
      exact (HeldCursors.get?_set ..).trans (if_pos rfl)
    have hfirst : (s.context scope).answer id = (c.owed s.store).headD (.ok none) := by
      rw [← hanswer, Context.answer, hctx]
      rfl
    obtain ⟨hrest, hall⟩ := ih hheld hsource' (scope?_resume_self hscope _)
    rw [hsame] at hrest hall
    rw [hstore] at howed
    rw [List.replicate_succ, Session.heard, performAll, List.foldl_cons, ← performAll,
      perform_next hscope, answered_succ, hrest, howed, hfirst, hall]
    exact ⟨by simp [SessionCall.isNext, ScopeCall.isNext, Result.cursor?], rfl⟩

/-- A cursor that is disconnected has no use for the store. -/
theorem cutOff_of_disconnected {c : Cursor Snapshot} (hc : s.held.get? id = some c)
    (hsound : c.Sound) (hdone : c.disconnected = true) : s.CutOff id c := by
  have hsource := hsound.source_eq_none hdone
  refine ⟨hc, hdone, fun sid scope n hscope => ?_, fun scope => ?_⟩
  · have howed : c.owed s.store = answers c.kind c.buffer c.pending := by
      rw [Cursor.owed, Cursor.supply, hsource]
    exact howed ▸ heard_of_source_none hc hsource hscope n
  · have hc : (s.context scope).held.get? id = some c := hc
    cases hp : c.pending with
    | none =>
      have hread : c.readAll (s.context scope).store = (.ok c.buffer, s.store) := by
        rw [Cursor.readAll, hp, hsource]
        rfl
      rw [Result.readAll_stream hc hread]
      exact ⟨rfl, rfl⟩
    | some e =>
      have hread : c.readAll (s.context scope).store = (.error e, s.store) := by
        rw [Cursor.readAll, hp]
        rfl
      rw [Result.readAll_stream hc hread]
      exact ⟨rfl, rfl⟩

/-! ## The end of a scope -/

/-- The rows of a query in their order are those that the caller of its cursor has heard and then
those that the cursor has buffered. If some are missing at the end, the caller has heard of a
failure or the cursor is yet to tell of one, which is not so while it is quiet. -/
structure Delivers (quiet : Prop) (all : List Row) (heard : List Answer) (c : Cursor Snapshot) :
    Prop where
  inOrder : rowsAmong heard ++ c.buffer <+: all
  complete : Untroubled heard → c.pending = none → rowsAmong heard ++ c.buffer = all
  untroubled : quiet → Untroubled heard ∧ c.pending = none

/-- A disconnected cursor has all that it has yet to give in its buffer. -/
theorem delivers_of_gives {quiet : Prop} {heard : List Answer} {c₀ c : Cursor Snapshot}
    (h : c₀.Gives quiet heard c) (hsound₀ : c₀.Sound) (hp₀ : c₀.pending = none)
    (hb₀ : 1 ≤ c₀.batchSize) (hdone : c.disconnected = true) :
    Delivers quiet c₀.unread heard c := by
  have hbuffer : c.unread = c.buffer := by
    rw [Cursor.unread, (h.sound hsound₀).source_eq_none hdone]
    exact List.append_nil _
  refine ⟨?_, fun hheard hp => ?_, fun hquiet => h.untroubled hquiet hp₀⟩
  · exact hbuffer ▸ h.inOrder
  · exact hbuffer ▸ (h.complete hb₀ hheard hp).2

section Execution

variable {s₀ : Session} {q : Query} {config : QueryConfig} {b : Bindings} {events : List Event}

/-- A query that answers with a cursor has opened it over its rows, and its scope reaches it. -/
theorem serves_execute (hscope : s.scope? sid = some scope)
    (hrun : s.runIn sid scope (q.execute config b) = ((.ok (.stream id), events), s₀)) :
    ∃ all c₀, q.answerFor config b q.unique s.store.table = .ok all ∧ c₀.unread = all ∧
      c₀.pending = none ∧ 1 ≤ c₀.batchSize ∧ c₀.Sound ∧
      ∀ quiet, (quiet → s.store.FetchCalm) → s₀.Serves quiet sid id c₀ [] := by
  rw [runIn_eq] at hrun
  have hopens : OpensResult (q.execute config b) := q.opens_executeFor config b q.unique
  have hopens := hopens (s.context scope)
  have hcalm := (q.accounts_executeFor config b q.unique (s.context scope)).fetchCalm
  change _ → (finalState (q.execute config b (s.context scope))).store.FetchCalm at hcalm
  cases hx : q.execute config b (s.context scope) with
  | error e ctx =>
    rw [hx] at hrun
    cases hrun
  | ok r ctx =>
    rw [hx] at hrun hopens hcalm
    cases hrun
    obtain ⟨-, all, ⟨c₀, hc₀, hb, hp, hunread⟩, hall⟩ :=
      (q.yields_executeFor config b q.unique).of_ok hx
    cases hopens with
    | nothing hsame hheld hanswer => cases hanswer id rfl
    | cursor kind snapshot batchSize htrack hheld =>
      have hheld : ctx.held = _ := hheld
      have htrack : ctx.scope = _ := htrack
      rw [hheld, HeldCursors.get?_add] at hc₀
      cases hc₀
      refine ⟨all, _, hall, hunread, hp, hb, Cursor.sound_ofSource kind snapshot batchSize,
        fun quiet hquiet => ⟨?_, fun hq => hcalm (hquiet hq), fun c hc => ?_⟩⟩
      · change _ < ctx.held.next
        rw [hheld]
        exact Nat.lt_succ_self _
      · have hc : ctx.held.get? s.held.next = some c := hc
        rw [hheld] at hc
        cases (HeldCursors.get?_add _ _).symm.trans hc
        refine ⟨.refl _, ctx.scope, scope?_resume_self hscope ctx, .inr ?_⟩
        rw [htrack]
        exact List.mem_append_right _ List.mem_cons_self

/-- A query that was run in a scope has answered with a cursor. After any calls in the session, if
the caller still holds the cursor, it is disconnected or the scope reaches it. Once it has been
disconnected, which the next end of the scope does at the latest, it is cut off from the store and
has the rows of the query that were not handed out. -/
theorem reached_at_end (hscope : s.scope? sid = some scope)
    (hrun : s.runIn sid scope (q.execute config b) = ((.ok (.stream id), events), s₀)) :
    ∃ all, q.answerFor config b q.unique s.store.table = .ok all ∧
      ∀ (calls : List SessionCall) (c : Cursor Snapshot),
        (s₀.performAll calls).held.get? id = some c →
        (s₀.performAll calls).Reaches sid id c ∧
        (c.disconnected = true → (s₀.performAll calls).CutOff id c ∧
          Delivers (s.StaysCalm calls) all (s₀.heard id calls) c) ∧
        ∀ call : ScopeCall, call.Ends → ∃ c',
          ((s₀.performAll calls).perform (.inScope sid call)).2.CutOff id c' ∧
          Delivers (s.StaysCalm calls) all (s₀.heard id calls) c' := by
  obtain ⟨all, c₀, hall, rfl, hp₀, hb₀, hsound₀, hserves⟩ := serves_execute hscope hrun
  refine ⟨_, hall, fun calls c hc => ?_⟩
  have hserves := (hserves (s.StaysCalm calls) And.left).performAll fun f hf hq => hq.2 f hf
  rw [List.nil_append] at hserves
  obtain ⟨hgives, hreaches⟩ := hserves.cursor c hc
  refine ⟨hreaches, fun hdone => ⟨cutOff_of_disconnected hc (hgives.sound hsound₀) hdone,
    delivers_of_gives hgives hsound₀ hp₀ hb₀ hdone⟩, fun call hends => ?_⟩
  obtain ⟨scope₁, hscope₁, -⟩ := hreaches
  obtain ⟨hnext, hempty, c', hc'⟩ := hends.spec ((s₀.performAll calls).context scope₁) ⟨c, hc⟩
  have hafter := hserves.perform (.inScope sid call) nofun
  rw [SessionCall.isNext, hnext, if_neg Bool.false_ne_true, List.append_nil] at hafter
  rw [perform_inScope hscope₁] at hafter ⊢
  obtain ⟨hgives', scope₂, hscope₂, hreached⟩ := hafter.cursor c' hc'
  -- The scope has let go of all its cursors, so that it reaches only those that are disconnected.
  have hdone : c'.disconnected = true := by
    cases (scope?_resume_self hscope₁ _).symm.trans hscope₂
    refine hreached.resolve_right fun hmem => ?_
    rw [hempty] at hmem
    cases hmem
  exact ⟨c', cutOff_of_disconnected hc' (hgives'.sound hsound₀) hdone,
    delivers_of_gives hgives' hsound₀ hp₀ hb₀ hdone⟩

end Execution

/-! ### A session -/

/-- A session with a scope and three rows in the store. -/
def paged : Session := { store := storedPages.store, scopes := [.start ⟨1⟩ false] }

/-- A query for all pages. -/
def pageQuery : Query := { kind := "Page" }

/-- The session after the query was run, and the pages are to be fetched two at a time. -/
def pagesOpened : Session :=
  (paged.runIn ⟨1⟩ (.start ⟨1⟩ false) (pageQuery.execute { batchSize := 2 } {})).2

/-- A page is handed out; two other cursors are opened over the pages, and the first of them is
dropped in between. -/
def pageCalls : List SessionCall :=
  [.inScope ⟨1⟩ (.next (.stream 0)), .inScope ⟨1⟩ (.execute pageQuery {} {}),
    .inScope ⟨1⟩ (.drop (.stream 1)), .inScope ⟨1⟩ (.execute pageQuery {} {}),
    .inScope ⟨1⟩ (.notify .flushed)]

theorem reached_at_end_sample : ∃ c,
    ((pagesOpened.performAll pageCalls).perform (.inScope ⟨1⟩ .close)).2.CutOff 0 c ∧
      pagesOpened.heard 0 pageCalls = [.ok (some (page 1))] ∧
      c.buffer = [page 2, page 3] ∧ c.pending = none := by
  have hscope : paged.scope? ⟨1⟩ = some (.start ⟨1⟩ false) := rfl
  have hrun : paged.runIn ⟨1⟩ (.start ⟨1⟩ false) (pageQuery.execute { batchSize := 2 } {}) =
      ((.ok (.stream 0),
        [.started .query "Page", .planned "Page" .native, .finished .query "Page" 0]),
        pagesOpened) := rfl
  have hall : pageQuery.answerFor { batchSize := 2 } {} pageQuery.unique paged.store.table =
      .ok [page 1, page 2, page 3] := rfl
  obtain ⟨all, hanswer, hreached⟩ := reached_at_end hscope hrun
  cases hall.symm.trans hanswer
  have hheard : pagesOpened.heard 0 pageCalls = [.ok (some (page 1))] := rfl
  obtain ⟨-, -, hend⟩ := hreached pageCalls _ rfl
  obtain ⟨c, hcut, hdelivers⟩ := hend .close .close
  have hquiet : paged.StaysCalm pageCalls := ⟨rfl, by simp [pageCalls]⟩
  obtain ⟨huntroubled, hp⟩ := hdelivers.untroubled hquiet
  have hrows := hdelivers.complete huntroubled hp
  rw [hheard] at hrows
  exact ⟨c, hcut, hheard, List.cons.inj hrows |>.2, hp⟩

end Session
end EntityGraph
