import EntityGraph.Proofs.Cursor.Stream
import EntityGraph.Proofs.Query.Uniqueness

/-!
# What is handed out meanwhile

While other things happen in its session, the caller of a cursor hears answers from it. The rows
among them, and then those that the cursor has yet to hand out, are the rows that it had to hand out
before, in their order. Rows are missing at the end only where a fetch has failed, and the caller
hears of that or is yet to hear of it.

* `Cursor.Gives`: this for two states of a cursor, and what one call on it gives
  (`Cursor.gives_next`, `Cursor.gives_disconnect`);
* `Scope.Reaches`: a cursor is disconnected, or the scope will disconnect it when it ends;
* `Context.Carries`: a context turns into one in which a cursor that is still held has given the
  answers, and is reached if it was before. Calls on cursors, the events of the scope and the
  reading and dropping of results do so.
-/

namespace EntityGraph

/-! ## Answers that were heard -/

/-- The rows among the answers. -/
def rowsAmong (heard : List Answer) : List Row := heard.filterMap fun
  | .ok row => row
  | .error _ => none

/-- No failure is among the answers. -/
def Untroubled (heard : List Answer) : Prop := ∀ e, .error e ∉ heard

@[simp] theorem rowsAmong_append (heard heard' : List Answer) :
    rowsAmong (heard ++ heard') = rowsAmong heard ++ rowsAmong heard' := List.filterMap_append

theorem untroubled_append {heard heard' : List Answer} :
    Untroubled (heard ++ heard') ↔ Untroubled heard ∧ Untroubled heard' := by
  simp only [Untroubled, List.mem_append, not_or, forall_and]

theorem untroubled_nil : Untroubled [] := fun _ => List.not_mem_nil

theorem untroubled_row (row : Option Row) : Untroubled [.ok row] := by simp [Untroubled]

theorem not_untroubled_error (e : Failure) : ¬Untroubled [.error e] := by simp [Untroubled]

/-! ## Stores -/

namespace Store

/-- No fault waits for fetches. -/
def FetchCalm (s : Store) : Prop := Fault.waiting .fetch s.faults = []

theorem waiting_eq_nil_iff {call : StoreCall} {faults : List Fault} :
    Fault.waiting call faults = [] ↔ ∀ p ∈ Fault.pending faults, p.1 ≠ call := by
  simp only [Fault.waiting, Fault.pending, List.filter_eq_nil_iff, decide_eq_true_eq,
    Multiset.mem_coe, List.mem_map, forall_exists_index, and_imp, forall_apply_eq_imp_iff₂]

/-- Faults that fire are gone, and no others come. -/
theorem FetchCalm.of_fired {s s' : Store} {cause : Option StoreError} (h : s.FetchCalm)
    (hf : s.Fired s' cause) : s'.FetchCalm := by
  refine waiting_eq_nil_iff.2 fun p hp => waiting_eq_nil_iff.1 h p ?_
  cases cause with
  | none =>
    rw [hf.1]
    exact hp
  | some cause =>
    obtain ⟨call, hpending, -⟩ := hf
    rw [hpending]
    exact Multiset.mem_cons_of_mem hp

end Store

/-- Operations that account for the faults that fire leave fetches calm. -/
theorem Accounts.fetchCalm {α : Type} {T : Telling Failure} {x : Action α} {ctx : Context}
    (h : Accounts Context.store T x ctx) (hcalm : ctx.store.FetchCalm) :
    (finalState (x ctx)).store.FetchCalm := by
  obtain ⟨e, hf⟩ := h.exists_fired
  exact hcalm.of_fired hf

/-! ## Cursors -/

namespace Cursor

variable {quiet quiet' : Prop} {heard heard' : List Answer} {c c' c'' : Cursor Snapshot}

/-- A cursor has turned into another, and its caller has heard the answers meanwhile. No fetch has
failed if it was quiet. -/
structure Gives (quiet : Prop) (heard : List Answer) (c c' : Cursor Snapshot) : Prop where
  sound : c.Sound → c'.Sound
  batchSize : c'.batchSize = c.batchSize
  disconnected : c.disconnected = true → c'.disconnected = true
  inOrder : rowsAmong heard ++ c'.unread <+: c.unread
  complete : 1 ≤ c.batchSize → Untroubled heard → c'.pending = none →
    c.pending = none ∧ rowsAmong heard ++ c'.unread = c.unread
  untroubled : quiet → c.pending = none → Untroubled heard ∧ c'.pending = none

namespace Gives

theorem refl (c : Cursor Snapshot) : c.Gives quiet [] c where
  sound := id
  batchSize := rfl
  disconnected := id
  inOrder := List.prefix_rfl
  complete _ _ hp := ⟨hp, rfl⟩
  untroubled _ hp := ⟨untroubled_nil, hp⟩

theorem mono (h : c.Gives quiet heard c') (hq : quiet' → quiet) : c.Gives quiet' heard c' :=
  { h with untroubled := fun hq' => h.untroubled (hq hq') }

theorem trans (h : c.Gives quiet heard c') (h' : c'.Gives quiet heard' c'') :
    c.Gives quiet (heard ++ heard') c'' where
  sound := h'.sound ∘ h.sound
  batchSize := h'.batchSize.trans h.batchSize
  disconnected := h'.disconnected ∘ h.disconnected
  inOrder := by
    rw [rowsAmong_append, List.append_assoc]
    exact ((List.prefix_append_right_inj _).2 h'.inOrder).trans h.inOrder
  complete hb hheard hp := by
    obtain ⟨hheard₁, hheard₂⟩ := untroubled_append.1 hheard
    obtain ⟨hp', hrest⟩ := h'.complete (h.batchSize ▸ hb) hheard₂ hp
    rw [rowsAmong_append, List.append_assoc, hrest]
    exact h.complete hb hheard₁ hp'
  untroubled hq hp := by
    obtain ⟨hheard₁, hp'⟩ := h.untroubled hq hp
    obtain ⟨hheard₂, hp''⟩ := h'.untroubled hq hp'
    exact ⟨untroubled_append.2 ⟨hheard₁, hheard₂⟩, hp''⟩

end Gives

theorem sound_of_source_none (h : c.source = none) : c.Sound := fun source hs => by
  cases h.symm.trans hs

/-- The call fetches where a cursor has no row at hand and no failure to report. -/
theorem gives_fetch (kind : String) (snapshot : Snapshot) (batchSize : Nat) (disconnected : Bool)
    (s : Store) :
    let c : Cursor Snapshot := ⟨kind, some snapshot, [], batchSize, none, disconnected⟩
    c.Gives s.FetchCalm [(c.next s).1.1.mapError (.cursorStore c.kind)] (c.next s).1.2 := by
  intro c
  cases hf : BatchSource.fetch batchSize snapshot s with
  | error e s' =>
    simp only [c, next, hf]
    exact {
      sound := fun _ => sound_of_source_none rfl
      batchSize := rfl
      disconnected := id
      inOrder := List.nil_prefix
      complete := fun _ hheard _ => absurd hheard (not_untroubled_error _)
      untroubled := fun hq _ => by
        obtain ⟨u, hrun, -⟩ := Store.fetch_of_calm hq batchSize snapshot
        cases hrun.symm.trans hf }
  | ok a s' =>
    obtain ⟨-, _, rfl, ha⟩ := (Store.reads_fetch batchSize snapshot).of_ok hf
    cases ha
    have hsplit := List.take_append_drop batchSize snapshot.rows
    cases hrows : snapshot.rows.take batchSize with
    | nil =>
      rw [hrows] at hf
      simp only [c, next, hf]
      exact {
        sound := fun _ => sound_of_source_none rfl
        batchSize := rfl
        disconnected := id
        inOrder := List.nil_prefix
        complete := fun hb _ _ => ⟨rfl, (BatchSource.take_eq_nil_of_pos hb hrows).symm⟩
        untroubled := fun _ _ => ⟨untroubled_row none, rfl⟩ }
    | cons r rows =>
      rw [hrows] at hf hsplit
      simp only [c, next, hf]
      exact {
        sound := fun h _ _ => h snapshot rfl
        batchSize := rfl
        disconnected := id
        inOrder := ⟨[], (List.append_nil _).trans hsplit⟩
        complete := fun _ _ _ => ⟨rfl, hsplit⟩
        untroubled := fun _ _ => ⟨untroubled_row (some r), rfl⟩ }

/-- A call for the next row gives its answer. -/
theorem gives_next (c : Cursor Snapshot) (s : Store) :
    c.Gives s.FetchCalm [(c.next s).1.1.mapError (.cursorStore c.kind)] (c.next s).1.2 := by
  obtain ⟨kind, source, buffer, batchSize, pending, disconnected⟩ := c
  cases buffer with
  | cons r rows =>
    exact {
      sound := id
      batchSize := rfl
      disconnected := id
      inOrder := List.prefix_rfl
      complete := fun _ _ hp => ⟨hp, rfl⟩
      untroubled := fun _ hp => ⟨untroubled_row (some r), hp⟩ }
  | nil =>
    cases pending with
    | some e =>
      exact {
        sound := fun h source hs => ⟨rfl, (h source hs).2⟩
        batchSize := rfl
        disconnected := id
        inOrder := List.prefix_rfl
        complete := fun _ hheard _ => absurd hheard (not_untroubled_error _)
        untroubled := fun _ hp => by cases hp }
    | none =>
      cases source with
      | none =>
        exact {
          sound := id
          batchSize := rfl
          disconnected := id
          inOrder := List.prefix_rfl
          complete := fun _ _ hp => ⟨hp, rfl⟩
          untroubled := fun _ hp => ⟨untroubled_row none, hp⟩ }
      | some snapshot => exact gives_fetch kind snapshot batchSize disconnected s

/-- Disconnecting a cursor gives no answer. -/
theorem gives_disconnect (c : Cursor Snapshot) (s : Store) :
    c.Gives s.FetchCalm [] (c.disconnect s).1.2 := by
  obtain ⟨kind, source, buffer, batchSize, pending, disconnected⟩ := c
  cases disconnected with
  | true => exact .refl _
  | false =>
    cases source with
    | none =>
      exact { Gives.refl _ with
        sound := fun _ => sound_of_source_none rfl
        disconnected := fun _ => rfl }
    | some snapshot =>
      obtain ⟨hfirst, hcalm⟩ := @Store.drain_snapshot_prefix batchSize snapshot s
      cases hd : BatchSource.drain batchSize snapshot s with
      | mk r s' =>
        obtain ⟨rows, e⟩ := r
        rw [hd] at hfirst hcalm
        simp only [disconnect, hd, Bool.false_eq_true, if_false]
        refine {
          sound := fun _ => sound_of_source_none rfl
          batchSize := rfl
          disconnected := fun _ => rfl
          inOrder := ?_
          complete := fun hb _ hp => ?_
          untroubled := fun hq hp => ?_ }
        · simpa [unread, rowsAmong] using hfirst
        · cases e with
          | some e => cases hp
          | none =>
            obtain rfl := (BatchSource.drain_snapshot hb hd).2.1 rfl
            exact ⟨hp, by simp [unread, rowsAmong]⟩
        · obtain rfl := hcalm hq
          exact ⟨untroubled_nil, hp⟩

theorem Sound.source_eq_none (h : c.Sound) (hdone : c.disconnected = true) : c.source = none := by
  cases hs : c.source with
  | none => rfl
  | some source => cases hdone.symm.trans (h source hs).2

/-- A cursor without a source leaves the store alone. -/
theorem next_of_source_none {c : Cursor Snapshot} (h : c.source = none) (s : Store) :
    (c.next s).2 = s ∧ (c.next s).1.2.source = none := by
  obtain ⟨kind, source, buffer, batchSize, pending, disconnected⟩ := c
  obtain rfl : source = none := h
  cases buffer with
  | cons r rows => exact ⟨rfl, rfl⟩
  | nil => cases pending <;> exact ⟨rfl, rfl⟩

theorem disconnected_disconnect (c : Cursor Snapshot) (s : Store) :
    (c.disconnect s).1.2.disconnected = true := by
  obtain ⟨kind, source, buffer, batchSize, pending, disconnected⟩ := c
  cases disconnected with
  | true => rfl
  | false => cases source <;> rfl

/-- Reading a cursor to the end leaves fetches calm. -/
theorem fetchCalm_readAll (c : Cursor Snapshot) {s : Store} (h : s.FetchCalm) :
    (c.readAll s).2.FetchCalm := by
  unfold readAll
  split
  · exact h
  · exact h
  · rename_i snapshot _ _
    have hdrain : s.FetchesCalm (BatchSource.drain c.batchSize snapshot s).2 :=
      Store.unseen_fetchesCalm.drain Store.blind_fetchesCalm c.batchSize trivial ⟨h, h⟩
    split <;> rename_i hd <;> rw [hd] at hdrain <;> exact hdrain.2

end Cursor

/-! ## Contexts -/

/-- A cursor is disconnected, or the scope follows it and will disconnect it when it ends. -/
def Scope.Reaches (scope : Scope) (id : CursorId) (c : Cursor Snapshot) : Prop :=
  c.disconnected = true ∨ id ∈ scope.cursors

/-- A cursor that is held after an operation on it was held before. -/
theorem HeldCursors.exists_of_get?_on {held : HeldCursors} {id : CursorId} {s : Store}
    {op : CursorOp Snapshot Store} {c' : Cursor Snapshot}
    (h : (held.on id op s).1.get? id = some c') :
    ∃ c, held.get? id = some c ∧ c' = (op c s).1 := by
  cases hc : held.get? id with
  | none =>
    rw [on, hc] at h
    cases hc.symm.trans h
  | some c =>
    rw [get?_on_self hc] at h
    exact ⟨c, rfl, (Option.some.inj h).symm⟩

namespace Context

variable {id id' : CursorId} {heard heard' : List Answer} {ctx ctx' ctx'' : Context}

/-- A context has turned into another, and the caller of a cursor has heard the answers meanwhile.
If the caller still holds the cursor, it is the one that was held before. -/
structure Carries (id : CursorId) (heard : List Answer) (ctx ctx' : Context) : Prop where
  next_le : ctx.held.next ≤ ctx'.held.next
  fetchCalm : ctx.store.FetchCalm → ctx'.store.FetchCalm
  cursor : ∀ c', ctx'.held.get? id = some c' → ∃ c, ctx.held.get? id = some c ∧
    c.Gives ctx.store.FetchCalm heard c' ∧ (ctx.scope.Reaches id c → ctx'.scope.Reaches id c')

namespace Carries

/-- No cursor was opened, used or dropped. -/
theorem of_cursors (hcursors : ctx'.scope.cursors = ctx.scope.cursors)
    (hheld : ctx'.held = ctx.held) (hcalm : ctx.store.FetchCalm → ctx'.store.FetchCalm) :
    ctx.Carries id [] ctx' := by
  refine ⟨hheld ▸ Nat.le_refl _, hcalm, fun c hc => ⟨c, hheld ▸ hc, .refl c, ?_⟩⟩
  unfold Scope.Reaches
  rw [hcursors]
  exact fun h => h

theorem refl (ctx : Context) : ctx.Carries id [] ctx := of_cursors rfl rfl fun h => h

theorem trans (h : ctx.Carries id heard ctx') (h' : ctx'.Carries id heard' ctx'') :
    ctx.Carries id (heard ++ heard') ctx'' where
  next_le := Nat.le_trans h.next_le h'.next_le
  fetchCalm := h'.fetchCalm ∘ h.fetchCalm
  cursor c'' hc'' := by
    obtain ⟨c', hc', hgives', hreaches'⟩ := h'.cursor c'' hc''
    obtain ⟨c, hc, hgives, hreaches⟩ := h.cursor c' hc'
    exact ⟨c, hc, hgives.trans (hgives'.mono h.fetchCalm), hreaches' ∘ hreaches⟩

/-- The cursor has been dropped. -/
theorem of_dropped (hle : ctx.held.next ≤ ctx'.held.next)
    (hcalm : ctx.store.FetchCalm → ctx'.store.FetchCalm) (hid : ctx'.held.get? id = none) :
    ctx.Carries id heard ctx' :=
  ⟨hle, hcalm, fun c' hc' => by cases hid.symm.trans hc'⟩

/-- An operation on a held cursor, which gives the answers if it is the one that is looked at. -/
theorem of_on {op : CursorOp Snapshot Store} (hscope : ctx'.scope = ctx.scope)
    (hview : ctx'.view = ctx.held.on id' op ctx.store)
    (hop : op.Unseen (fun _ => True) Store.FetchesCalm)
    (hself : id' = id → ∀ c, ctx.held.get? id = some c →
      c.Gives ctx.store.FetchCalm heard (op c ctx.store).1)
    (hother : id' ≠ id → heard = []) : ctx.Carries id heard ctx' := by
  obtain ⟨hheld, hstore⟩ := Prod.ext_iff.1 hview
  have hheld : ctx'.held = (ctx.held.on id' op ctx.store).1 := hheld
  have hstore : ctx'.store = (ctx.held.on id' op ctx.store).2 := hstore
  have hover : ctx.held.Over (fun _ => True) fun _ => True := fun _ _ _ _ _ _ => trivial
  refine ⟨?_, fun hcalm => ?_, fun c' hc' => ?_⟩
  · rw [hheld]
    unfold HeldCursors.on
    split <;> exact Nat.le_refl _
  · rw [hstore]
    exact ((hover.on hop id' ctx.store).2 trivial ⟨hcalm, hcalm⟩).2
  · rw [hheld] at hc'
    by_cases he : id' = id
    · subst he
      obtain ⟨c, hc, rfl⟩ := HeldCursors.exists_of_get?_on hc'
      have hgives := hself rfl c hc
      refine ⟨c, hc, hgives, fun hreaches => ?_⟩
      rw [hscope]
      exact hreaches.imp_left hgives.disconnected
    · rw [HeldCursors.get?_on_of_ne (Ne.symm he)] at hc'
      rw [hother he, hscope]
      exact ⟨c', hc', .refl c', fun h => h⟩

end Carries

theorem carries_disconnect (ctx : Context) (id' : CursorId) :
    ctx.Carries id [] (ctx.disconnect id') :=
  .of_on (ctx.scope_disconnect id') (ctx.view_disconnect id')
    (CursorOp.unseen_disconnect Store.unseen_fetchesCalm Store.blind_fetchesCalm)
    (fun _ c _ => c.gives_disconnect ctx.store) fun _ => rfl

theorem carries_disconnectEach : ∀ (ids : List CursorId) (ctx : Context),
    ctx.Carries id [] (ids.foldl disconnect ctx)
  | [], ctx => .refl ctx
  | id' :: ids, ctx => (ctx.carries_disconnect id').trans (carries_disconnectEach ids _)

/-- A cursor is disconnected once its turn has come, and stays so. -/
theorem disconnected_disconnectEach : ∀ {ids : List CursorId} {ctx : Context} {c : Cursor Snapshot},
    id ∈ ids → (ids.foldl disconnect ctx).held.get? id = some c → c.disconnected = true
  | id' :: ids, ctx, c, hid, hc => by
    by_cases hids : id ∈ ids
    · exact disconnected_disconnectEach hids hc
    · obtain rfl : id = id' := (List.mem_cons.1 hid).resolve_right hids
      obtain ⟨c₁, hc₁, hgives, -⟩ := (carries_disconnectEach ids (ctx.disconnect id)).cursor c hc
      have hview : (ctx.disconnect id).held = (ctx.held.on id .disconnect ctx.store).1 :=
        congrArg Prod.fst (ctx.view_disconnect id)
      rw [hview] at hc₁
      obtain ⟨c₀, -, rfl⟩ := HeldCursors.exists_of_get?_on hc₁
      exact hgives.disconnected (c₀.disconnected_disconnect ctx.store)

/-- The scope lets go of the cursors that it has disconnected. -/
theorem carries_disconnectAll (ctx : Context) : ctx.Carries id [] ctx.disconnectAll := by
  have hcarries : ctx.Carries id [] (ctx.scope.cursors.foldl disconnect ctx) :=
    carries_disconnectEach ctx.scope.cursors ctx
  refine ⟨hcarries.next_le, hcarries.fetchCalm, fun c' hc' => ?_⟩
  obtain ⟨c, hc, hgives, -⟩ := hcarries.cursor c' hc'
  refine ⟨c, hc, hgives, fun hreaches => .inl ?_⟩
  rcases hreaches with hdone | hid
  · exact hgives.disconnected hdone
  · exact disconnected_disconnectEach hid hc'

theorem carries_notify (ctx : Context) (event : ScopeEvent) :
    ctx.Carries id [] (ctx.notify event) := by
  cases event with
  | preCommit => exact ctx.carries_disconnectAll
  | preClose => exact ctx.carries_disconnectAll
  | postClose => exact .of_cursors rfl rfl fun h => h
  | flushed => exact .of_cursors rfl rfl fun h => h

theorem carries_close (ctx : Context) : ctx.Carries id [] ctx.close :=
  (ctx.carries_notify .preClose).trans (carries_notify _ .postClose)

theorem next_of_held {c : Cursor Snapshot} (hc : ctx.held.get? id = some c) :
    ctx.next id = (some ((c.next ctx.store).1.1.mapError (.cursorStore c.kind)),
      { ctx with
        store := (c.next ctx.store).2
        held := ctx.held.set id (c.next ctx.store).1.2 }) := by
  rw [next, hc]

/-- The answer of a cursor to a call for its next row, nothing at the end or if it is not held. -/
def answer (ctx : Context) (id : CursorId) : Answer := (ctx.next id).1.getD (.ok none)

theorem carries_next (ctx : Context) (id' : CursorId) :
    ctx.Carries id (if id' = id then [ctx.answer id'] else []) (ctx.next id').2 := by
  refine .of_on (ctx.scope_next id') (ctx.view_next id')
    (CursorOp.unseen_next Store.unseen_fetchesCalm) (fun he c hc => ?_) fun hne => if_neg hne
  subst he
  have hanswer : ctx.answer id' = (c.next ctx.store).1.1.mapError (.cursorStore c.kind) := by
    rw [answer, next_of_held hc, Option.getD_some]
  rw [if_pos rfl, hanswer]
  exact c.gives_next ctx.store

/-- The caller drops a cursor. -/
theorem carries_drop (ctx : Context) (id' : CursorId) {store : Store}
    (hcalm : ctx.store.FetchCalm → store.FetchCalm) :
    ctx.Carries id [] { ctx with store, held := ctx.held.drop id' } := by
  have hget : (ctx.held.drop id').get? id = if id = id' then none else ctx.held.get? id :=
    SortedMap.get?_erase ..
  by_cases he : id = id'
  · exact .of_dropped (Nat.le_refl _) hcalm (hget.trans (if_pos he))
  · refine ⟨Nat.le_refl _, hcalm, fun c hc => ⟨c, ?_, .refl c, fun h => h⟩⟩
    exact (hget.trans (if_neg he)).symm.trans hc

end Context

/-! ## Results -/

namespace Result

variable {id : CursorId}

/-- The call for the next row of a stream is that of its cursor. -/
theorem next_stream_eq (id : CursorId) (ctx : Context) :
    (outcome ((stream id).next ctx)).map (·.1) = ctx.answer id ∧
      finalState ((stream id).next ctx) = (ctx.next id).2 := by
  rw [next, bind_of_ok (modifyGet_run _ ctx), Context.answer]
  cases (ctx.next id).1 with
  | none => exact ⟨rfl, rfl⟩
  | some answer => cases answer <;> exact ⟨rfl, rfl⟩

theorem carries_next (ctx : Context) (r : Result) :
    ctx.Carries id (if r.cursor? = some id then [(outcome (r.next ctx)).map (·.1)] else [])
      (finalState (r.next ctx)) := by
  cases r with
  | rows path rest =>
    rw [next_rows]
    exact .refl ctx
  | stream id' =>
    obtain ⟨hanswer, hstate⟩ := next_stream_eq id' ctx
    rw [hanswer, hstate]
    simpa [cursor?] using ctx.carries_next id'

theorem carries_readAll (ctx : Context) (r : Result) :
    ctx.Carries id [] (finalState (r.readAll ctx)) := by
  cases r with
  | rows path rest => exact .refl ctx
  | stream id' =>
    cases hc : ctx.held.get? id' with
    | none =>
      rw [readAll, bind_of_ok (get_run ctx)]
      simp only [hc]
      exact .refl ctx
    | some c =>
      cases hread : c.readAll ctx.store with
      | mk all store =>
        have hcalm : ctx.store.FetchCalm → store.FetchCalm := fun h => by
          have hread' := c.fetchCalm_readAll h
          rwa [hread] at hread'
        rw [readAll_stream hc hread]
        cases all <;> exact ctx.carries_drop id' hcalm

theorem carries_drop (ctx : Context) (r : Result) :
    ctx.Carries id [] (finalState (r.drop ctx)) := by
  cases r with
  | rows path rest => exact .refl ctx
  | stream id' => exact ctx.carries_drop id' fun h => h

end Result
end EntityGraph
