import EntityGraph.Proofs.Sequencing
import EntityGraph.Scope

/-!
# What a cursor hands out

A cursor owes its caller the rows in its buffer, the rows of the batches that it has yet to fetch,
and the failure that ends them. A call for the next row takes the first of what is owed. To
disconnect a cursor changes where the rows are kept, and not what is owed.

* `BatchSource.drain_of_batch`: draining a source, one batch after another;
* `BatchSource.Blind`, `BatchSource.Unseen`: what sources see of the world, and what they change
  in it;
* `Cursor.owed_next`, `Cursor.owed_disconnect`: what is owed after a call.
-/

namespace EntityGraph

/-! ## Sources -/

namespace BatchSource

variable {Source World : Type} [BatchSource Source World] {limit : Nat}

theorem drainUpTo_eq_drainUpTo : ∀ {fuel fuel' : Nat} {source : Source} {w : World},
    remaining source < fuel → remaining source < fuel' →
      drainUpTo limit fuel source w = drainUpTo limit fuel' source w
  | fuel + 1, fuel' + 1, source, w, h, h' => by
    unfold drainUpTo
    split
    · rfl
    · rfl
    · rename_i hne hf
      have hlt := remaining_fetch hf hne
      rw [drainUpTo_eq_drainUpTo (Nat.lt_of_lt_of_le hlt (Nat.le_of_lt_succ h))
        (Nat.lt_of_lt_of_le hlt (Nat.le_of_lt_succ h'))]

section Drain

variable {source source' : Source} {w w' : World}

theorem drain_of_error {e : StoreError} (h : fetch limit source w = .error e w') :
    drain limit source w = (([], some e), w') := by
  rw [drain, drainUpTo, h]

theorem drain_of_empty (h : fetch limit source w = .ok ([], source') w') :
    drain limit source w = (([], none), w') := by
  rw [drain, drainUpTo, h]

theorem drain_of_batch {rows : List Row} (h : fetch limit source w = .ok (rows, source') w')
    (hne : rows ≠ []) :
    drain limit source w =
      ((rows ++ (drain limit source' w').1.1, (drain limit source' w').1.2),
        (drain limit source' w').2) := by
  cases rows with
  | nil => exact absurd rfl hne
  | cons r rows =>
    rw [drain, drainUpTo, h]
    simp only
    rw [drainUpTo_eq_drainUpTo (remaining_fetch h hne) (Nat.lt_succ_self _), drain]

end Drain

/-- Induction on the batches that a source has left. -/
theorem induct (limit : Nat) {P : Source → World → Prop}
    (failed : ∀ {source w e w'}, fetch limit source w = .error e w' → P source w)
    (ended : ∀ {source w source' w'}, fetch limit source w = .ok ([], source') w' → P source w)
    (batch : ∀ {source w rows source' w'}, fetch limit source w = .ok (rows, source') w' →
      rows ≠ [] → P source' w' → P source w) (source : Source) (w : World) : P source w := by
  induction hn : remaining source using Nat.strongRecOn generalizing source w with
  | ind n ih =>
    cases hf : fetch limit source w with
    | error e w' => exact failed hf
    | ok a w' =>
      obtain ⟨rows, source'⟩ := a
      by_cases hne : rows = []
      · exact ended (hne ▸ hf)
      · exact batch hf hne (ih _ (hn ▸ remaining_fetch hf hne) _ _ rfl)

variable (Source) in
/-- Sources answer alike in related worlds. A world that is not related to itself is left out of
account. -/
structure Blind (R : World → World → Prop) : Prop where
  symm : ∀ {w w'}, R w w' → R w' w
  trans : ∀ {w₁ w₂ w₃}, R w₁ w₂ → R w₂ w₃ → R w₁ w₃
  of_error : ∀ {limit : Nat} {source : Source} {w w' u e}, R w w' →
    fetch limit source w = .error e u → ∃ u', fetch limit source w' = .error e u' ∧ R u u'
  of_ok : ∀ {limit : Nat} {source : Source} {w w' u a}, R w w' →
    fetch limit source w = .ok a u → ∃ u', fetch limit source w' = .ok a u' ∧ R u u'

/-- Fetching from the sources of a class leads to a source of the class, and to a related world. -/
structure Unseen (Q : Source → Prop) (R : World → World → Prop) : Prop where
  keeps : ∀ {limit : Nat} {source source' : Source} {w u : World} {rows}, Q source →
    fetch limit source w = .ok (rows, source') u → Q source'
  of_error : ∀ {limit : Nat} {source : Source} {w u e}, Q source → R w w →
    fetch limit source w = .error e u → R w u
  of_ok : ∀ {limit : Nat} {source : Source} {w u a}, Q source → R w w →
    fetch limit source w = .ok a u → R w u

variable {Q : Source → Prop} {R : World → World → Prop}

/-- Draining a source gives the same in related worlds. -/
theorem Blind.drain (h : Blind Source R) (limit : Nat) (source : Source) {w w' : World}
    (hw : R w w') : (drain limit source w).1 = (BatchSource.drain limit source w').1 ∧
      R (BatchSource.drain limit source w).2 (BatchSource.drain limit source w').2 := by
  induction source, w using @induct Source World _ limit generalizing w' with
  | failed hf =>
    obtain ⟨u', hf', hu⟩ := h.of_error hw hf
    rw [drain_of_error hf, drain_of_error hf']
    exact ⟨rfl, hu⟩
  | ended hf =>
    obtain ⟨u', hf', hu⟩ := h.of_ok hw hf
    rw [drain_of_empty hf, drain_of_empty hf']
    exact ⟨rfl, hu⟩
  | batch hf hne ih =>
    obtain ⟨u', hf', hu⟩ := h.of_ok hw hf
    obtain ⟨hsame, hlast⟩ := ih hu
    rw [drain_of_batch hf hne, drain_of_batch hf' hne, hsame]
    exact ⟨rfl, hlast⟩

theorem Unseen.drain (h : Unseen Q R) (hb : Blind Source R) (limit : Nat) {source : Source}
    {w : World} (hq : Q source) (hw : R w w) : R w (drain limit source w).2 := by
  induction source, w using @induct Source World _ limit with
  | failed hf =>
    rw [drain_of_error hf]
    exact h.of_error hq hw hf
  | ended hf =>
    rw [drain_of_empty hf]
    exact h.of_ok hq hw hf
  | batch hf hne ih =>
    have hu := h.of_ok hq hw hf
    have hself := hb.trans (hb.symm hu) hu
    rw [drain_of_batch hf hne]
    exact hb.trans hu (ih (h.keeps hq hf) hself)

end BatchSource

/-! ## Cursors -/

/-- An answer to a call for the next row. -/
abbrev Answer := Except Failure (Option Row)

/-- The answers of a cursor over a kind that has the rows and then the failure to hand out. -/
def answers (kind : String) (rows : List Row) (failure : Option StoreError) : List Answer :=
  rows.map (fun r => .ok (some r)) ++ (failure.map fun e => .error (.cursorStore kind e)).toList

/-- The answers to `n` calls for the next row, where these answers are owed and nothing after
them. -/
def answered (owed : List Answer) (n : Nat) : List Answer :=
  (owed ++ List.replicate n (.ok none : Answer)).take n

theorem answered_succ (owed : List Answer) (n : Nat) :
    answered owed (n + 1) = owed.headD (.ok none) :: answered owed.tail n := by
  cases owed with
  | nil => simp [answered, List.replicate_succ]
  | cons a owed =>
    simp only [answered, List.cons_append, List.take_succ_cons, List.headD_cons, List.tail_cons,
      List.take_append, List.take_replicate]
    congr 3
    omega

namespace Cursor

variable {Source World : Type} [BatchSource Source World] {Q : Source → Prop}
  {R : World → World → Prop}

/-- A cursor that may fetch more has no failure to report, and was not disconnected. -/
def Sound (c : Cursor Source) : Prop :=
  ∀ source, c.source = some source → c.pending = none ∧ c.disconnected = false

theorem sound_ofSource (kind : String) (source : Source) (batchSize : Nat) :
    (ofSource kind source batchSize).Sound := fun _ _ => ⟨rfl, rfl⟩

/-- The rows that a cursor has yet to hand out, and the failure after them. -/
def supply (c : Cursor Source) (w : World) : List Row × Option StoreError :=
  match c.source with
  | none => (c.buffer, c.pending)
  | some source =>
    (c.buffer ++ (BatchSource.drain c.batchSize source w).1.1,
      (BatchSource.drain c.batchSize source w).1.2)

/-- The answers that a cursor has yet to give, apart from those at its end. -/
def owed (c : Cursor Source) (w : World) : List Answer :=
  answers c.kind (c.supply w).1 (c.supply w).2

/-- Further rows come from a source of the class, if there are any. -/
def Over (Q : Source → Prop) (c : Cursor Source) : Prop :=
  ∀ source, c.source = some source → Q source

/-- A call for the next row takes the first of the answers that are owed. -/
theorem owed_next {c : Cursor Source} (hc : c.Sound) (w : World) :
    (c.next w).1.2.Sound ∧
      (c.next w).1.1.mapError (.cursorStore c.kind) = (c.owed w).headD (.ok none) ∧
      (c.next w).1.2.owed (c.next w).2 = (c.owed w).tail := by
  obtain ⟨kind, source, buffer, batchSize, pending, disconnected⟩ := c
  -- Only a cursor that has nothing at hand fetches: what it owes is then what draining would give.
  match buffer, pending, source with
  | r :: rows, _, none => exact ⟨hc, rfl, rfl⟩
  | r :: rows, _, some source => exact ⟨hc, rfl, rfl⟩
  | [], some e, some source => cases (hc source rfl).1
  | [], some e, none => exact ⟨nofun, rfl, rfl⟩
  | [], none, none => exact ⟨hc, rfl, rfl⟩
  | [], none, some source =>
    cases hf : BatchSource.fetch batchSize source w with
    | error e w' =>
      simp only [next, owed, supply, hf, BatchSource.drain_of_error hf]
      exact ⟨nofun, rfl, rfl⟩
    | ok a w' =>
      obtain ⟨rows, source'⟩ := a
      cases rows with
      | nil =>
        simp only [next, owed, supply, hf, BatchSource.drain_of_empty hf]
        exact ⟨nofun, rfl, rfl⟩
      | cons r rows =>
        simp only [next, owed, supply, hf, BatchSource.drain_of_batch hf (List.cons_ne_nil r rows)]
        exact ⟨fun _ _ => hc source rfl, rfl, rfl⟩

/-- A cursor that is disconnected owes what it owed before, and fetches no more. -/
theorem owed_disconnect {c : Cursor Source} (hc : c.Sound) (w : World) :
    (c.disconnect w).1.2.Sound ∧ (c.disconnect w).1.2.source = none ∧
      (c.disconnect w).1.2.owed (c.disconnect w).2 = c.owed w := by
  obtain ⟨kind, source, buffer, batchSize, pending, disconnected⟩ := c
  match disconnected, source with
  | true, some source => cases (hc source rfl).2
  | true, none => exact ⟨hc, rfl, rfl⟩
  | false, none => exact ⟨nofun, rfl, rfl⟩
  | false, some source =>
    -- A failure that is kept already would be lost under that of the drain, but there is none.
    obtain rfl : pending = none := (hc source rfl).1
    refine ⟨nofun, rfl, ?_⟩
    have he : ∀ e : Option StoreError, (e <|> none) = e := fun e => by cases e <;> rfl
    exact congrArg (answers kind _) (he _)

/-! ### What cursors see of the world, and what they change in it -/

theorem blind_supply (h : BatchSource.Blind Source R) (c : Cursor Source) {w w' : World}
    (hw : R w w') : c.supply w = c.supply w' := by
  unfold supply
  split
  · rfl
  · rw [(h.drain c.batchSize _ hw).1]

theorem blind_next (h : BatchSource.Blind Source R) (c : Cursor Source) {w w' : World}
    (hw : R w w') : (c.next w).1 = (c.next w').1 ∧ R (c.next w).2 (c.next w').2 := by
  obtain ⟨kind, source, buffer, batchSize, pending, disconnected⟩ := c
  match buffer, pending, source with
  | r :: rows, _, _ => exact ⟨rfl, hw⟩
  | [], some e, _ => exact ⟨rfl, hw⟩
  | [], none, none => exact ⟨rfl, hw⟩
  | [], none, some source =>
    cases hf : BatchSource.fetch batchSize source w with
    | error e u =>
      obtain ⟨u', hf', hu⟩ := h.of_error hw hf
      simp only [next, hf, hf']
      exact ⟨trivial, hu⟩
    | ok a u =>
      obtain ⟨u', hf', hu⟩ := h.of_ok hw hf
      obtain ⟨_ | ⟨r, rows⟩, source'⟩ := a
      · simp only [next, hf, hf']
        exact ⟨trivial, hu⟩
      · simp only [next, hf, hf']
        exact ⟨trivial, hu⟩

theorem blind_disconnect (h : BatchSource.Blind Source R) (c : Cursor Source) {w w' : World}
    (hw : R w w') :
    (c.disconnect w).1 = (c.disconnect w').1 ∧ R (c.disconnect w).2 (c.disconnect w').2 := by
  obtain ⟨kind, source, buffer, batchSize, pending, disconnected⟩ := c
  match disconnected, source with
  | true, _ => exact ⟨rfl, hw⟩
  | false, none => exact ⟨rfl, hw⟩
  | false, some source =>
    obtain ⟨hsame, hlast⟩ := h.drain batchSize source hw
    refine ⟨?_, hlast⟩
    simp [disconnect, hsame]

end Cursor

/-! ### Operations on cursors -/

/-- An operation on a cursor and on the world that it reads. -/
abbrev CursorOp (Source World : Type) : Type := Cursor Source → World → Cursor Source × World

namespace CursorOp

variable {Source World : Type} {Q : Source → Prop} {R : World → World → Prop}

/-- An operation fetches from sources of the class only, which leads to related worlds. -/
def Unseen (Q : Source → Prop) (R : World → World → Prop) (op : CursorOp Source World) : Prop :=
  ∀ c w, c.Over Q → (op c w).1.Over Q ∧ (R w w → R w (op c w).2)

variable [BatchSource Source World]

def next : CursorOp Source World := fun c w => ((c.next w).1.2, (c.next w).2)

def disconnect : CursorOp Source World := fun c w => ((c.disconnect w).1.2, (c.disconnect w).2)

theorem unseen_next (h : BatchSource.Unseen Q R) : Unseen Q R next := by
  rintro ⟨kind, source, buffer, batchSize, pending, disconnected⟩ w hc
  match buffer, pending, source with
  | r :: rows, _, _ => exact ⟨hc, id⟩
  | [], some e, _ => exact ⟨hc, id⟩
  | [], none, none => exact ⟨hc, id⟩
  | [], none, some source =>
    cases hf : BatchSource.fetch batchSize source w with
    | error e u =>
      simp only [next, Cursor.next, hf]
      exact ⟨nofun, fun hw => h.of_error (hc source rfl) hw hf⟩
    | ok a u =>
      obtain ⟨_ | ⟨r, rows⟩, source'⟩ := a
      · simp only [next, Cursor.next, hf]
        exact ⟨nofun, fun hw => h.of_ok (hc source rfl) hw hf⟩
      · simp only [next, Cursor.next, hf]
        refine ⟨?_, fun hw => h.of_ok (hc source rfl) hw hf⟩
        rintro _ ⟨⟩
        exact h.keeps (hc source rfl) hf

theorem unseen_disconnect (h : BatchSource.Unseen Q R) (hb : BatchSource.Blind Source R) :
    Unseen Q R disconnect := by
  rintro ⟨kind, source, buffer, batchSize, pending, disconnected⟩ w hc
  match disconnected, source with
  | true, _ => exact ⟨hc, id⟩
  | false, none => exact ⟨hc, id⟩
  | false, some source => exact ⟨nofun, fun hw => h.drain hb batchSize (hc source rfl) hw⟩

end CursorOp
end EntityGraph
