import EntityGraph.Metrics
import Mathlib.Algebra.Order.BigOperators.Group.List
import Mathlib.Algebra.Order.Ring.Nat

/-!
# What the counters add up to

Twelve counters are kept over all and by kind (`SharedCounter`), and each stops at its greatest
value, so a sum of counters by kind may be more than the counter over all can hold. It is never
anything else: a counter over all is the sum over the kinds, cut off at that value (`SumsUp`). What
carries this from one event to the next is that an event adds one amount on both sides
(`SharedCounter.record_adds`) and that a map changed at one key changes a sum over its values by
the new value against the old one (`SortedMap.sum_update`).
-/

namespace EntityGraph

namespace SortedMap

variable {κ α : Type} {cmp : κ → κ → Ordering}

/-- One value is at most a sum over all. -/
theorem get?_le_sum (m : SortedMap κ α cmp) (f : α → Nat) (k : κ) :
    ((m.get? k).map f).getD 0 ≤ (m.values.map f).sum := by
  cases h : m.get? k with
  | none => exact Nat.zero_le _
  | some a =>
    obtain ⟨e, he, rfl⟩ := Option.map_eq_some_iff.1 h
    exact List.le_sum_of_mem
      (List.mem_map_of_mem (List.mem_map_of_mem (List.mem_of_find?_eq_some he)))

variable [Std.TransCmp cmp]

/-- A value put into a list of entries takes the place of the value at its key in a sum. -/
theorem sum_insertEntry (f : α → Nat) (k : κ) (a : α) : ∀ {es : List (κ × α)},
    es.Pairwise (fun x y => cmp x.1 y.1 = .lt) →
    ((insertEntry cmp k a es).map fun e => f e.2).sum +
        ((es.find? fun e => cmp k e.1 == .eq).map fun e => f e.2).getD 0 =
      (es.map fun e => f e.2).sum + f a
  | [], _ => by simp [insertEntry]
  | e :: es, h => by
    obtain ⟨he, hes⟩ := List.pairwise_cons.1 h
    have ih := sum_insertEntry f k a hes
    cases hk : cmp k e.1 with
    | lt =>
      -- The key is before every entry, so it replaces none.
      have absent : (e :: es).find? (fun e => cmp k e.1 == .eq) = none := by
        refine List.find?_eq_none.2 fun x hx => ?_
        have hlt : cmp k x.1 = .lt := by
          rcases List.mem_cons.1 hx with rfl | hx
          · exact hk
          · exact Std.TransCmp.lt_trans hk (he x hx)
        simp [hlt]
      simp only [insertEntry, hk, absent, List.map_cons, List.sum_cons, Option.map_none,
        Option.getD_none]
      omega
    | eq =>
      simp only [insertEntry, hk, beq_self_eq_true, List.find?_cons_of_pos, List.map_cons,
        List.sum_cons, Option.map_some, Option.getD_some]
      omega
    | gt =>
      rw [List.find?_cons_of_neg (by simp [hk])]
      simp only [insertEntry, hk, List.map_cons, List.sum_cons]
      omega

/-- A map changed at one key changes a sum over its values by the new value against the old one. -/
theorem sum_update (m : SortedMap κ α cmp) (f : α → Nat) (k : κ) (g : Option α → α) :
    ((m.update k g).values.map f).sum + ((m.get? k).map f).getD 0 =
      (m.values.map f).sum + f (g (m.get? k)) := by
  have h := sum_insertEntry f k (g (m.get? k)) m.sorted
  simpa only [values, update, insert, get?, List.map_map, Option.map_map, Function.comp_def]
    using h

end SortedMap

namespace Counter

/-- A counter stops at its greatest value. -/
@[simp] theorem add_value (c : Counter) (n : Nat) :
    (c.add n).value.toNat = min (c.value.toNat + n) (UInt64.size - 1) :=
  Nat.mod_eq_of_lt (by rw [UInt64.size]; omega)

theorem value_le (c : Counter) : c.value.toNat ≤ UInt64.size - 1 :=
  Nat.le_pred_of_lt c.value.toNat_lt

@[simp] theorem add_zero (c : Counter) : c.add 0 = c := by
  have h : (c.add 0).value = c.value := UInt64.toNat_inj.1 (by
    rw [add_value, Nat.add_zero, Nat.min_eq_left c.value_le])
  cases c
  exact congrArg Counter.mk h

end Counter

/-- A counter that is kept over all and by kind. -/
structure SharedCounter where
  /-- What a report calls it on both sides. -/
  name : String
  overall : Totals → Counter
  ofKind : KindCounters → Counter

namespace SharedCounter

/-- The counters that are kept over all and by kind. -/
def all : List SharedCounter :=
  [⟨"query_calls", (·.queries), (·.queries)⟩, ⟨"insert_calls", (·.inserts), (·.inserts)⟩,
    ⟨"delete_calls", (·.deletes), (·.deletes)⟩,
    ⟨"plan_native", (·.plannedNative), (·.plannedNative)⟩,
    ⟨"plan_in_memory", (·.plannedInMemory), (·.plannedInMemory)⟩,
    ⟨"rows_returned", (·.rowsReturned), (·.rowsReturned)⟩,
    ⟨"rows_scanned", (·.rowsScanned), (·.rowsScanned)⟩,
    ⟨"rows_written", (·.rowsWritten), (·.rowsWritten)⟩,
    ⟨"rows_deleted", (·.rowsDeleted), (·.rowsDeleted)⟩,
    ⟨"cascade_deletes", (·.cascadeDeletes), (·.cascadeDeletes)⟩,
    ⟨"cascade_rejections", (·.cascadeRejections), (·.cascadeRejections)⟩,
    ⟨"unique_violations", (·.uniqueViolations), (·.uniqueViolations)⟩]

/-- All that is kept by kind is kept over all. -/
theorem named_ofKind (c : KindCounters) : c.named = all.map fun s => (s.name, s.ofKind c) := rfl

/-- A report has the counter over all under the name that the counter by kind has. -/
theorem named_overall (t : Totals) :
    (t.named.filter fun e => all.any (·.name == e.1)) = all.map fun s => (s.name, s.overall t) :=
  rfl

variable {s : SharedCounter}

/-- An event adds one amount over all and by kind, whatever was counted before. -/
theorem record_adds (hs : s ∈ all) (e : Event) :
    ∃ n, (∀ t : Totals, s.overall (t.record e) = (s.overall t).add n) ∧
      ∀ c : KindCounters, s.ofKind (c.record e) = (s.ofKind c).add n := by
  simp only [all, List.mem_cons, List.not_mem_nil, or_false] at hs
  -- The three calls and the two paths add to different counters; the other events add to one of
  -- the counters or to none.
  rcases e with ⟨_ | _ | _, _⟩ | ⟨_ | _ | _, _, _⟩ | ⟨_, _ | _⟩ | _ | _ | _ | _ | _ | _ <;>
    rcases hs with rfl | rfl | rfl | rfl | rfl | rfl | rfl | rfl | rfl | rfl | rfl | rfl <;>
    first
    | exact ⟨0, fun _ => (Counter.add_zero _).symm, fun _ => (Counter.add_zero _).symm⟩
    | exact ⟨_, fun _ => rfl, fun _ => rfl⟩

theorem fresh (hs : s ∈ all) : s.overall {} = {} ∧ s.ofKind {} = {} := by
  revert s
  simp [all]

/-- An event that counts for no kind adds nothing to what is kept by kind. -/
theorem overall_record_of_kind_none (hs : s ∈ all) {e : Event} (h : e.kind? = none) (t : Totals) :
    s.overall (t.record e) = s.overall t := by
  revert s
  cases e with
  | refused => exact fun _ => rfl
  | disconnected => simp [all, Totals.record]
  | _ => cases h

end SharedCounter

/-- A counter over all is its sum over the kinds, as far as it goes. -/
def Metrics.SumsUp (m : Metrics) (s : SharedCounter) : Prop :=
  (s.overall m.totals).value.toNat =
    min (UInt64.size - 1) (m.kinds.values.map fun c => (s.ofKind c).value.toNat).sum

/-- The reason that an event gives for not asking the store. -/
def Event.refusal? : Event → Option Refusal
  | .refused _ reason => some reason
  | _ => none

theorem Refusal.label_injective : Function.Injective Refusal.label := by
  intro a b h
  cases a <;> cases b <;> first | rfl | exact absurd h (by decide)

namespace Metrics

variable {s : SharedCounter}

/-- The counter of a reason. -/
def refused (m : Metrics) (reason : Refusal) : Counter := (m.refusals.get? reason.label).getD {}

@[simp] theorem record_totals (m : Metrics) (e : Event) :
    (m.record e).totals = m.totals.record e := by
  cases e <;> rfl

/-- An event is counted for its kind. -/
theorem record_kinds (m : Metrics) (e : Event) :
    (m.record e).kinds = match e.kind? with
      | some kind => m.kinds.update kind fun c => (c.getD {}).record e
      | none => m.kinds := by
  cases e <;> rfl

/-- An event keeps a counter over all at the sum over the kinds: at the one kind that changes, and
over all, the same is added. -/
theorem sumsUp_record (hs : s ∈ SharedCounter.all) {m : Metrics} (h : m.SumsUp s) (e : Event) :
    (m.record e).SumsUp s := by
  unfold SumsUp at h ⊢
  rw [record_totals, record_kinds]
  cases hk : e.kind? with
  | none => simpa only [s.overall_record_of_kind_none hs hk] using h
  | some kind =>
    obtain ⟨n, overall, ofKind⟩ := s.record_adds hs e
    have changed := m.kinds.sum_update (fun c => (s.ofKind c).value.toNat) kind
      fun c => (c.getD {}).record e
    have old : ((m.kinds.get? kind).map fun c => (s.ofKind c).value.toNat).getD 0 =
        (s.ofKind ((m.kinds.get? kind).getD {})).value.toNat := by
      cases m.kinds.get? kind with
      | none => exact congrArg (fun c : Counter => c.value.toNat) (s.fresh hs).2.symm
      | some c => rfl
    have within := m.kinds.get?_le_sum (fun c => (s.ofKind c).value.toNat) kind
    simp only [old, ofKind, Counter.add_value] at changed within
    simp only [overall, Counter.add_value, h]
    omega

/-- An event is counted for the reason that it gives. -/
theorem refused_record (m : Metrics) (e : Event) (reason : Refusal) :
    (m.record e).refused reason =
      if e.refusal? = some reason then (m.refused reason).add 1 else m.refused reason := by
  cases e with
  | refused kind given =>
    have h : (m.record (.refused kind given)).refusals =
        m.refusals.update given.label fun c => (c.getD {}).add 1 := rfl
    simp only [refused, h, SortedMap.update, SortedMap.get?_insert, Event.refusal?,
      Option.some.injEq, Refusal.label_injective.eq_iff]
    by_cases hg : given = reason
    · simp [hg]
    · simp [hg, Ne.symm hg]
  | _ => rfl

theorem recordAll_cons (m : Metrics) (e : Event) (es : List Event) :
    m.recordAll (e :: es) = (m.record e).recordAll es := rfl

theorem sumsUp_recordAll (hs : s ∈ SharedCounter.all) (es : List Event) {m : Metrics}
    (h : m.SumsUp s) : (m.recordAll es).SumsUp s := by
  induction es generalizing m with
  | nil => exact h
  | cons e es ih => exact ih (sumsUp_record hs h e)

theorem refused_recordAll (reason : Refusal) (es : List Event) (m : Metrics) :
    ((m.recordAll es).refused reason).value.toNat =
      min (UInt64.size - 1)
        ((m.refused reason).value.toNat + es.countP fun e => e.refusal? = some reason) := by
  induction es generalizing m with
  | nil => exact (Nat.min_eq_right (m.refused reason).value_le).symm
  | cons e es ih =>
    rw [recordAll_cons, ih, refused_record, List.countP_cons]
    by_cases he : e.refusal? = some reason
    · simp only [he, if_true, Counter.add_value, decide_true]
      omega
    · simp [he]

/-- What holds of metrics after events were counted. -/
structure Tallies (m : Metrics) (es : List Event) : Prop where
  totals : ∀ s ∈ SharedCounter.all, m.SumsUp s
  refusals : ∀ reason, (m.refused reason).value.toNat =
    min (UInt64.size - 1) (es.countP fun e => e.refusal? = some reason)

/-- Whatever happened since a window of time began, the counters over all are the sums over the
kinds, and the refusals are counted by their reasons, as far as counters go. -/
theorem tallies_recordAll (since : UInt64) (es : List Event) :
    Tallies (({ since } : Metrics).recordAll es) es where
  totals s hs := sumsUp_recordAll hs es (by
    simp [SumsUp, (SharedCounter.fresh hs).1, SortedMap.values, SortedMap.empty])
  refusals reason := by
    have fresh : (({ since } : Metrics).refused reason).value.toNat = 0 := rfl
    rw [refused_recordAll, fresh, Nat.zero_add]

/-- Two kinds count as many rows as a counter holds; over all, the counter stops there. -/
example :
    let m := ({} : Metrics).recordAll
      [.finished .query "Person" (UInt64.size - 1), .finished .query "Pet" (UInt64.size - 1)]
    m.kinds.values.map (·.rowsReturned.value) = [0 - 1, 0 - 1] ∧
      m.totals.rowsReturned.value = 0 - 1 := by
  decide +kernel

end Metrics
end EntityGraph
