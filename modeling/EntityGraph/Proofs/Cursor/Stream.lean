import EntityGraph.Proofs.Cursor.Interleaving

/-!
# The stream of a cursor

A cursor gives every row of its source once and in order, then the failure that ended them, and then
nothing. When it is disconnected, how often and by whom does not show in the answers; it is only
that nothing is fetched for the cursor afterwards. The cursors of a store in memory do not see what
is written after their query was run.

* `Script`: a source by the batches that it answers with;
* `Store.blind_fetchesAlike`: of a store in memory, fetching sees nothing but the faults that wait
  for it, which puts and deletes leave alone (`Store.Writes.fetchesAlike`);
* `Context.received_snapshot`: the stream of a cursor of a store in memory;
* `Context.received_stream`: all of this for every order of calls and disconnections.
-/

namespace EntityGraph

/-! ## Scripts -/

/-- A source by what it answers: batches of rows, none of them empty, and then an empty one or a
failure. Its fetches are logged under its name. -/
structure Script where
  name : Nat
  /-- The batches, by how many rows are asked for. -/
  batches : List (Nat → List Row)
  nonempty : ∀ batch ∈ batches, ∀ limit, 0 < limit → batch limit ≠ []
  failure : Option StoreError := none

namespace Script

/-- All rows of the batches, where `limit` rows are asked for every time. -/
def rows (limit : Nat) (script : Script) : List Row := script.batches.flatMap (· limit)

/-- The next batch, and the script that is left. -/
def answer (limit : Nat) : Script → Except StoreError (List Row × Script)
  | ⟨name, batch :: batches, h, failure⟩ =>
    .ok (batch limit, ⟨name, batches, fun b hb => h b (List.mem_cons_of_mem _ hb), failure⟩)
  | ⟨_, [], _, some e⟩ => .error e
  | ⟨name, [], h, none⟩ => .ok ([], ⟨name, [], h, none⟩)

theorem name_of_answer {limit : Nat} : ∀ {script script' : Script} {rows : List Row},
    script.answer limit = .ok (rows, script') → script'.name = script.name
  | ⟨_, _ :: _, _, _⟩, _, _, rfl => rfl
  | ⟨_, [], _, none⟩, _, _, rfl => rfl

def fetch (limit : Nat) (script : Script) : EStateM StoreError (List Nat) (List Row × Script) :=
  fun log =>
    match script.answer limit with
    | .ok a => .ok a (log ++ [script.name])
    | .error e => .error e (log ++ [script.name])

instance : BatchSource Script (List Nat) where
  fetch := fetch
  remaining script := script.batches.length
  remaining_fetch := by
    rintro limit ⟨name, _ | ⟨batch, batches⟩, h, _ | e⟩ log rows script log' hf hne <;> cases hf
    · exact absurd rfl hne
    · exact Nat.lt_succ_self _
    · exact Nat.lt_succ_self _

theorem of_fetch_eq_ok {limit : Nat} {script : Script} {log log' : List Nat}
    {a : List Row × Script} (h : BatchSource.fetch limit script log = .ok a log') :
    script.answer limit = .ok a ∧ log' = log ++ [script.name] := by
  change fetch limit script log = _ at h
  unfold fetch at h
  split at h <;> cases h
  rename_i ha
  exact ⟨ha, rfl⟩

theorem of_fetch_eq_error {limit : Nat} {script : Script} {log log' : List Nat} {e : StoreError}
    (h : BatchSource.fetch limit script log = .error e log') :
    script.answer limit = .error e ∧ log' = log ++ [script.name] := by
  change fetch limit script log = _ at h
  unfold fetch at h
  split at h <;> cases h
  rename_i ha
  exact ⟨ha, rfl⟩

theorem drain_eq {limit : Nat} (hl : 0 < limit) : ∀ (script : Script) (log : List Nat),
    (BatchSource.drain limit script log).1 = (script.rows limit, script.failure)
  | ⟨name, [], h, some e⟩, log => rfl
  | ⟨name, [], h, none⟩, log => rfl
  | ⟨name, batch :: batches, h, failure⟩, log => by
    have hrest := drain_eq hl ⟨name, batches, fun b hb => h b (List.mem_cons_of_mem _ hb), failure⟩
      (log ++ [name])
    rw [BatchSource.drain_of_batch rfl (h batch List.mem_cons_self limit hl), hrest]
    rfl

/-- Scripts do not look at the log. -/
theorem blind_count (name : Nat) : BatchSource.Blind Script
    fun log log' : List Nat => log.count name = log'.count name where
  symm h := h.symm
  trans h h' := h.trans h'
  of_error {limit script log log' u e} hw h := by
    obtain ⟨ha, rfl⟩ := of_fetch_eq_error h
    refine ⟨log' ++ [script.name], ?_, by rw [List.count_append, List.count_append, hw]⟩
    change fetch limit script log' = _
    rw [fetch, ha]
  of_ok {limit script log log' u a} hw h := by
    obtain ⟨ha, rfl⟩ := of_fetch_eq_ok h
    refine ⟨log' ++ [script.name], ?_, by rw [List.count_append, List.count_append, hw]⟩
    change fetch limit script log' = _
    rw [fetch, ha]

/-- Scripts of other names do not log the name. -/
theorem unseen_count (name : Nat) : BatchSource.Unseen (fun script : Script => script.name ≠ name)
    fun log log' : List Nat => log.count name = log'.count name where
  keeps hne h := name_of_answer (of_fetch_eq_ok h).1 ▸ hne
  of_error hne _ h := by
    rw [(of_fetch_eq_error h).2, List.count_append, List.count_singleton,
      if_neg (by simpa using hne), Nat.add_zero]
  of_ok hne _ h := by
    rw [(of_fetch_eq_ok h).2, List.count_append, List.count_singleton,
      if_neg (by simpa using hne), Nat.add_zero]

end Script

/-! ## Stores in memory -/

namespace Store

/-- The same faults wait for fetches in both stores. -/
def FetchesAlike (s s' : Store) : Prop :=
  Fault.waiting .fetch s.faults = Fault.waiting .fetch s'.faults

theorem fetch_of_alike {s s' : Store} (h : FetchesAlike s s') (limit : Nat)
    (snapshot : Snapshot) :
    (∃ e u u', fetch limit snapshot s = .error e u ∧ fetch limit snapshot s' = .error e u' ∧
      FetchesAlike u u') ∨
    ∃ a u u', fetch limit snapshot s = .ok a u ∧ fetch limit snapshot s' = .ok a u' ∧
      FetchesAlike u u' := by
  obtain ⟨hsame, hrest⟩ := Fault.due_congr h
  rw [fetch_eq, fetch_eq]
  cases hd : Fault.due .fetch s.faults with
  | mk o faults =>
    cases hd' : Fault.due .fetch s'.faults with
    | mk o' faults' =>
      rw [hd, hd'] at hsame hrest
      cases hsame
      cases o with
      | none => exact .inr ⟨_, _, _, rfl, rfl, hrest⟩
      | some e => exact .inl ⟨e, _, _, rfl, rfl, hrest⟩

/-- Fetching from a snapshot looks at the faults that wait for fetches, and at nothing else of the
store. -/
theorem blind_fetchesAlike : BatchSource.Blind Snapshot FetchesAlike where
  symm h := h.symm
  trans h h' := h.trans h'
  of_error {limit snapshot s s' u e} hw h := by
    change fetch limit snapshot s = _ at h
    rcases fetch_of_alike hw limit snapshot with ⟨e', u₁, u', h₁, h₂, hu⟩ | ⟨a, u₁, u', h₁, -⟩
    · cases h₁.symm.trans h
      exact ⟨u', h₂, hu⟩
    · cases h₁.symm.trans h
  of_ok {limit snapshot s s' u a} hw h := by
    change fetch limit snapshot s = _ at h
    rcases fetch_of_alike hw limit snapshot with ⟨e', u₁, u', h₁, -⟩ | ⟨a', u₁, u', h₁, h₂, hu⟩
    · cases h₁.symm.trans h
    · cases h₁.symm.trans h
      exact ⟨u', h₂, hu⟩

/-- A call of another kind leaves the faults alone that wait for fetches. -/
theorem fetchesAlike_call {call : StoreCall} (hcall : call ≠ .fetch) {α : Type} {x : StoreM α}
    (hx : ∀ s, (finalState (x s)).faults = s.faults) (s : Store) :
    FetchesAlike s (finalState ((failIfDue call >>= fun _ => x) s)) := by
  have hwait := Fault.waiting_due_of_ne hcall s.faults
  cases hd : Fault.due call s.faults with
  | mk o faults =>
    rw [hd] at hwait
    cases o with
    | some e =>
      have hrun : failIfDue call s = .error e { s with faults } := by
        rw [failIfDue, hd]
      rw [bind_of_error hrun]
      exact hwait.symm
    | none =>
      have hrun : failIfDue call s = .ok () { s with faults } := by
        rw [failIfDue, hd]
      rw [bind_of_ok hrun, FetchesAlike, hx]
      exact hwait.symm

/-- A put or a delete, which may fail, as a change of the store. -/
inductive Writes : (Store → Store) → Prop where
  | put (r : Row) : Writes fun s => finalState (put r s)
  | delete (k : Key) : Writes fun s => finalState (delete k s)

/-- No fault waits for fetches in either store. -/
def FetchesCalm (s s' : Store) : Prop :=
  Fault.waiting .fetch s.faults = [] ∧ Fault.waiting .fetch s'.faults = []

theorem fetch_of_calm {s : Store} (h : Fault.waiting .fetch s.faults = []) (limit : Nat)
    (snapshot : Snapshot) : ∃ u,
      fetch limit snapshot s = .ok (snapshot.rows.take limit, ⟨snapshot.rows.drop limit⟩) u ∧
        Fault.waiting .fetch u.faults = [] := by
  have hdue := Fault.due_waiting .fetch s.faults
  rw [h] at hdue
  rw [fetch_eq]
  cases hd : Fault.due .fetch s.faults with
  | mk o faults =>
    rw [hd] at hdue
    obtain ⟨rfl, hrest⟩ := Prod.ext_iff.1 hdue
    exact ⟨_, rfl, hrest.symm⟩

theorem blind_fetchesCalm : BatchSource.Blind Snapshot FetchesCalm where
  symm h := h.symm
  trans h h' := ⟨h.1, h'.2⟩
  of_error {limit snapshot s s' u e} hw h := by
    obtain ⟨u, hrun, -⟩ := fetch_of_calm hw.1 limit snapshot
    cases hrun.symm.trans h
  of_ok {limit snapshot s s' u a} hw h := by
    obtain ⟨u₁, hrun, hu₁⟩ := fetch_of_calm hw.1 limit snapshot
    obtain ⟨u₂, hrun', hu₂⟩ := fetch_of_calm hw.2 limit snapshot
    cases hrun.symm.trans h
    exact ⟨u₂, hrun', hu₁, hu₂⟩

theorem unseen_fetchesCalm : BatchSource.Unseen (fun _ : Snapshot => True) FetchesCalm where
  keeps _ _ := trivial
  of_error {limit snapshot s u e} _ hw h := by
    obtain ⟨u, hrun, -⟩ := fetch_of_calm hw.1 limit snapshot
    cases hrun.symm.trans h
  of_ok {limit snapshot s u a} _ hw h := by
    obtain ⟨u₁, hrun, hu₁⟩ := fetch_of_calm hw.1 limit snapshot
    cases hrun.symm.trans h
    exact ⟨hw.1, hu₁⟩

/-- Draining a snapshot gives its first rows, and a failure only if a fault waits for fetches. -/
theorem drain_snapshot_prefix {limit : Nat} (snapshot : Snapshot) (s : Store) :
    (BatchSource.drain limit snapshot s).1.1 <+: snapshot.rows ∧
      (Fault.waiting .fetch s.faults = [] → (BatchSource.drain limit snapshot s).1.2 = none) := by
  induction snapshot, s using @BatchSource.induct Snapshot Store _ limit with
  | @failed snapshot s e u hf =>
    rw [BatchSource.drain_of_error hf]
    refine ⟨List.nil_prefix, fun hw => ?_⟩
    obtain ⟨u', hrun, -⟩ := fetch_of_calm hw limit snapshot
    cases hrun.symm.trans hf
  | ended hf =>
    rw [BatchSource.drain_of_empty hf]
    exact ⟨List.nil_prefix, fun _ => rfl⟩
  | @batch snapshot s rows rest u hf hne ih =>
    obtain ⟨-, _, rfl, ha⟩ := (reads_fetch limit snapshot).of_ok hf
    simp only [Except.ok.injEq, Prod.mk.injEq] at ha
    obtain ⟨rfl, rfl⟩ := ha
    rw [BatchSource.drain_of_batch hf hne]
    refine ⟨?_, fun hw => ih.2 ?_⟩
    · have hrows := (List.prefix_append_right_inj (snapshot.rows.take limit)).2 ih.1
      rwa [List.take_append_drop] at hrows
    · obtain ⟨u', hrun, hu⟩ := fetch_of_calm hw limit snapshot
      cases hrun.symm.trans hf
      exact hu

theorem Writes.fetchesAlike {f : Store → Store} (hf : Writes f) (s : Store) :
    FetchesAlike s (f s) := by
  cases hf with
  | put r => exact fetchesAlike_call (by decide) (fun _ => rfl) s
  | delete k => exact fetchesAlike_call (by decide) (fun _ => rfl) s

end Store

/-! ## Streams -/

/-- A new cursor over a script owes the rows of the batches and the failure. -/
theorem Script.owes {ctx : Context Script (List Nat)} {id : CursorId} {kind : String}
    {script : Script} {batchSize : Nat}
    (hheld : ctx.held.get? id = some (.ofSource kind script batchSize))
    (hothers : ctx.held.Over (·.name ≠ script.name) (· ≠ id)) :
    Owes (fun s : Script => s.name ≠ script.name)
      (fun log log' : List Nat => log.count script.name = log'.count script.name) id
      (answers kind (script.rows (max batchSize 1)) script.failure) ctx.view where
  cursor := by
    refine ⟨_, hheld, Cursor.sound_ofSource kind script batchSize, ?_⟩
    have hsupply : (Cursor.ofSource kind script batchSize).supply ctx.store =
        (script.rows (max batchSize 1), script.failure) :=
      drain_eq (Nat.lt_of_lt_of_le Nat.zero_lt_one (Nat.le_max_right ..)) script ctx.store
    rw [Cursor.owed, show ctx.view.2 = ctx.store from rfl, hsupply]
    rfl
  others := hothers
  world := rfl

/-- The stream of a cursor of a store in memory is settled when its query has run, if no fault waits
for fetches or no other cursor fetches. -/
theorem Context.received_snapshot {ctx : Context} {id : CursorId} {kind : String}
    {snapshot : Snapshot} {batchSize : Nat}
    (hheld : ctx.held.get? id = some (.ofSource kind snapshot batchSize))
    (hfetch : Fault.waiting .fetch ctx.store.faults = [] ∨
      ctx.held.Over (fun _ => False) (· ≠ id)) :
    ∃ rows failure, rows <+: snapshot.rows ∧ (failure = none → rows = snapshot.rows) ∧
      (Fault.waiting .fetch ctx.store.faults = [] → failure = none) ∧
      ∀ calls : List (CursorCall Store), (∀ f, .store f ∈ calls → Store.Writes f) →
        ctx.received id calls =
          answered (answers kind rows failure) (calls.countP (CursorCall.isNext id)) := by
  have hl : 1 ≤ max batchSize 1 := Nat.le_max_right ..
  obtain ⟨hfirst, hcalm⟩ := Store.drain_snapshot_prefix snapshot ctx.store
  refine ⟨_, _, hfirst, fun hn => ?_, hcalm, fun calls hstore => ?_⟩
  · cases hd : BatchSource.drain (max batchSize 1) snapshot ctx.store with
    | mk r s' =>
      rw [hd] at hn
      exact (BatchSource.drain_snapshot hl hd).2.1 hn
  · have howed : (Cursor.ofSource kind snapshot batchSize).owed ctx.store = answers kind
        (BatchSource.drain (max batchSize 1) snapshot ctx.store).1.1
        (BatchSource.drain (max batchSize 1) snapshot ctx.store).1.2 := rfl
    rcases hfetch with hnone | hothers
    · have howes : Owes (fun _ : Snapshot => True) Store.FetchesCalm id _ ctx.view :=
        ⟨⟨_, hheld, Cursor.sound_ofSource kind snapshot batchSize, howed⟩,
          fun _ _ _ _ _ _ => trivial, hnone, hnone⟩
      exact howes.received Store.blind_fetchesCalm Store.unseen_fetchesCalm calls
        fun f hf s hs => ⟨hs.1, ((hstore f hf).fetchesAlike s).symm.trans hs.1⟩
    · have howes : Owes (fun _ : Snapshot => False) Store.FetchesAlike id _ ctx.view :=
        ⟨⟨_, hheld, Cursor.sound_ofSource kind snapshot batchSize, howed⟩, hothers, rfl⟩
      exact howes.received Store.blind_fetchesAlike (BatchSource.unseen_false _) calls
        fun f hf s _ => (hstore f hf).fetchesAlike s

/-- Whenever it is disconnected, a cursor gives the rows of the batches in order, then the failure
after them, and then nothing; and it fetches nothing once it has been disconnected. Puts and deletes
do not show in the answers of the cursors of a store in memory. -/
theorem Context.received_stream :
    (∀ (ctx : Context Script (List Nat)) (id : CursorId) (kind : String) (script : Script)
        (batchSize : Nat) (calls : List (CursorCall (List Nat))),
      ctx.held.get? id = some (.ofSource kind script batchSize) →
      ctx.held.Over (·.name ≠ script.name) (· ≠ id) →
      (∀ f, .store f ∈ calls → ∀ log, (f log).count script.name = log.count script.name) →
      ctx.received id calls =
          answered (answers kind (script.rows (max batchSize 1)) script.failure)
            (calls.countP (CursorCall.isNext id)) ∧
        ctx.received id calls = ctx.received id (calls.filter (CursorCall.isNext id)) ∧
        ∀ before call after, calls = before ++ call :: after → call.Disconnects id ctx.scope →
          (ctx.performAll calls).store.count script.name =
            (ctx.performAll (before ++ [call])).store.count script.name) ∧
    ∀ (ctx : Context) (id : CursorId),
      (∀ calls : List (CursorCall Store), (∀ f, .store f ∈ calls → Store.Writes f) →
        ctx.received id calls = ctx.received id (calls.filter (!·.isStore))) ∧
      ∀ (kind : String) (snapshot : Snapshot) (batchSize : Nat),
        ctx.held.get? id = some (.ofSource kind snapshot batchSize) →
        Fault.waiting .fetch ctx.store.faults = [] ∨ ctx.held.Over (fun _ => False) (· ≠ id) →
        ∃ rows failure, rows <+: snapshot.rows ∧ (failure = none → rows = snapshot.rows) ∧
          (Fault.waiting .fetch ctx.store.faults = [] → failure = none) ∧
          ∀ calls : List (CursorCall Store), (∀ f, .store f ∈ calls → Store.Writes f) →
            ctx.received id calls =
              answered (answers kind rows failure) (calls.countP (CursorCall.isNext id)) := by
  refine ⟨fun ctx id kind script batchSize calls hheld hothers hstore => ?_,
    fun ctx id => ⟨fun calls hstore => ?_, fun kind snapshot batchSize hheld hfetch =>
      received_snapshot hheld hfetch⟩⟩
  · have hb := Script.blind_count script.name
    have hu := Script.unseen_count script.name
    have howes := Script.owes hheld hothers
    have hwithin : CursorCall.Within
        (fun log log' : List Nat => log.count script.name = log'.count script.name) calls :=
      fun f hf log _ => (hstore f hf log).symm
    have hreceived := howes.received hb hu calls hwithin
    refine ⟨hreceived, ?_, fun before call after hcalls hcall => ?_⟩
    · rw [hreceived, howes.received hb hu _ (hwithin.mono List.filter_sublist.subset),
        List.countP_filter]
      simp
    · subst hcalls
      exact (howes.related_of_disconnects hb hu hwithin hcall).symm
  · have halike : ctx.Alike Store.FetchesAlike ctx := ⟨ctx.store, rfl, rfl⟩
    exact halike.received Store.blind_fetchesAlike id fun f hf s _ => (hstore f hf).fetchesAlike s

def page (n : UInt64) : Row where
  key := .single ⟨"Page", some (.number n)⟩ ⟨by simp, by simp⟩

/-- Two batches, and then a failure. -/
def pageScript : Script where
  name := 1
  batches := [fun _ => [page 1, page 2], fun _ => [page 3]]
  nonempty := by simp
  failure := some (.timeout "fetch")

/-- A scope that follows a cursor over the script. -/
def scriptedPages : Context Script (List Nat) where
  scope := { Scope.start ⟨1⟩ false with cursors := [0] }
  store := []
  held := (({} : HeldCursors Script).add (.ofSource "Page" pageScript 2)).2

/-- A scope with a cursor over three rows that are stored. -/
def storedPages : Context where
  scope := .start ⟨1⟩ false
  store := (((({} : Store).seed (page 1)).2.seed (page 2)).2.seed (page 3)).2
  held := (({} : HeldCursors).add (.ofSource "Page" ⟨[page 1, page 2, page 3]⟩ 2)).2

theorem Context.received_stream_sample :
    scriptedPages.received 0 [.next 0, .notify .preClose, .next 0, .disconnect 0, .next 0, .next 0,
        .next 0] =
      [.ok (some (page 1)), .ok (some (page 2)), .ok (some (page 3)),
        .error (.cursorStore "Page" (.timeout "fetch")), .ok none] ∧
    storedPages.received 0 [.next 0, .store fun s => finalState (Store.delete (page 2).key s),
        .next 0, .disconnect 0, .store fun s => finalState (Store.put (page 4) s), .next 0,
        .next 0] =
      [.ok (some (page 1)), .ok (some (page 2)), .ok (some (page 3)), .ok none] := by
  have halone : ∀ {Source : Type} (c : Cursor Source) (Q : Source → Prop),
      (({} : HeldCursors Source).add c).2.Over Q (· ≠ 0) := by
    intro Source c Q id c' hne hc'
    cases (SortedMap.get?_insert_of_ne .empty c hne).symm.trans hc'
  constructor
  · exact (received_stream.1 scriptedPages 0 "Page" pageScript 2 _ rfl (halone _ _) (by simp)).1
  · obtain ⟨rows, failure, -, hrows, hcalm, hreceived⟩ :=
      (received_stream.2 storedPages 0).2 "Page" ⟨[page 1, page 2, page 3]⟩ 2 rfl (.inl rfl)
    obtain rfl := hcalm rfl
    obtain rfl := hrows rfl
    refine hreceived _ fun f hf => ?_
    simp only [List.mem_cons, CursorCall.store.injEq, reduceCtorEq, false_or, or_false,
      List.not_mem_nil] at hf
    rcases hf with rfl | rfl
    · exact .delete (page 2).key
    · exact .put (page 4)

end EntityGraph
