import EntityGraph.Proofs.Store.Faults

/-!
# The order in which faults fire

The faults of all kinds of call wait in one list, and a call counts down the first of its kind. So
the calls of each kind have a schedule of their own, which other calls and their faults do not
change: the oldest fault lets as many calls pass as it is to skip, fails the next, and makes way for
the one injected after it.

* `StoreStep`, `Store.after`: what is done to a store, step by step;
* `Fault.schedule`: what is due on the next calls of a kind. A call takes the first item of the
  schedule of its kind (`Fault.schedule_due`) and leaves those of the others
  (`StoreStep.concerns`);
* `StoreStep.Passes`: a call does what it does on a store without faults;
* `Store.failures`: which calls of a kind fail for a fault in the course of some steps;
* `Store.servesFaults`: they are those that the schedule of their kind says, and a call that fails
  changes nothing but the faults.
-/

namespace EntityGraph

/-! ## Steps -/

/-- What is done to a store: a fault is injected, a row is seeded, or a call is made. -/
inductive StoreStep where
  | inject (fault : Fault)
  | seed (row : Row)
  | get (key : Key)
  | put (row : Row)
  | delete (key : Key)
  | scan (query : Scan)
  | fetch (limit : Nat) (snapshot : Snapshot)

/-- What a step answers. -/
inductive StoreAnswer where
  | done
  | key (key : Key)
  | row (row : Option Row)
  | snapshot (snapshot : Snapshot)
  | batch (rows : List Row) (rest : Snapshot)

/-- What concerns the faults of one kind of call: another one is injected, or a call is made. -/
inductive FaultEvent where
  | injected (fault : Fault)
  | called

namespace StoreStep

/-- Carries out the step. -/
def run : StoreStep → StoreM StoreAnswer
  | inject f => modifyGet fun s => (.done, s.inject f)
  | seed r => modifyGet fun s => (.key (s.seed r).1, (s.seed r).2)
  | get k => .row <$> Store.get k
  | put r => .key <$> Store.put r
  | delete k => (fun _ => .done) <$> Store.delete k
  | scan q => .snapshot <$> Store.scan q
  | fetch limit snapshot => (fun (rows, rest) => .batch rows rest) <$> Store.fetch limit snapshot

/-- The kind of call that the step is, if it is one. -/
def call? : StoreStep → Option StoreCall
  | inject _ | seed _ => none
  | get _ => some .get
  | put _ => some .put
  | delete _ => some .delete
  | scan _ => some .scan
  | fetch .. => some .fetch

/-- The fault that the step injects on calls of a kind. -/
def injects? (c : StoreCall) : StoreStep → Option Fault
  | inject f => if f.call = c then some f else none
  | _ => none

/-- What the step is to the faults of a kind. -/
def event? (c : StoreCall) (step : StoreStep) : Option FaultEvent :=
  match step.injects? c with
  | some f => some (.injected f)
  | none => if step.call? = some c then some .called else none

/-- The error of the fault that is due on the step. -/
def due? (step : StoreStep) (s : Store) : Option StoreError :=
  step.call?.bind fun c => (Fault.due c s.faults).1

end StoreStep

namespace Store

/-- The store after a list of steps. -/
def after (s : Store) (steps : List StoreStep) : Store :=
  steps.foldl (fun s step => finalState (step.run s)) s

/-- The calls of a kind in the course of the steps, in turn, each with the error of the fault that
was due on it, if one was. -/
def failures (c : StoreCall) : Store → List StoreStep → List (Option StoreError)
  | _, [] => []
  | s, step :: steps =>
    let rest := failures c (finalState (step.run s)) steps
    if step.call? = some c then step.due? s :: rest else rest

/-- The stores differ in their faults at most. -/
structure Unchanged (s s' : Store) : Prop where
  table : s'.table = s.table
  lastNumber : s'.lastNumber = s.lastNumber
  stats : s'.stats = s.stats
  log : s'.log = s.log

end Store

/-- The number of calls of a kind among the steps. -/
def callsAmong (c : StoreCall) (steps : List StoreStep) : Nat := steps.countP (·.call? = some c)

/-- The faults that the steps inject on calls of a kind. -/
def faultsAmong (c : StoreCall) (steps : List StoreStep) : List Fault :=
  steps.flatMap fun step => (step.injects? c).toList

theorem callsAmong_cons (c : StoreCall) (step : StoreStep) (steps : List StoreStep) :
    callsAmong c (step :: steps) = callsAmong c steps + if step.call? = some c then 1 else 0 := by
  simp [callsAmong, List.countP_cons]

theorem faultsAmong_cons (c : StoreCall) (step : StoreStep) (steps : List StoreStep) :
    faultsAmong c (step :: steps) = (step.injects? c).toList ++ faultsAmong c steps := rfl

/-! ## Schedules -/

namespace Fault

/-- What becomes of the calls that a fault waits for: it lets some pass and fails the next. -/
def course (f : Fault) : List (Option StoreError) := List.replicate f.skip none ++ [some f.error]

/-- What is due on the next calls of a kind, in turn. All further ones pass. -/
def schedule (c : StoreCall) (faults : List Fault) : List (Option StoreError) :=
  (waiting c faults).flatMap course

/-- What becomes of the calls of a kind when this is due on them: each takes the first item, and a
fault that is injected comes last. -/
def served : List (Option StoreError) → List FaultEvent → List (Option StoreError)
  | _, [] => []
  | items, .injected f :: events => served (items ++ f.course) events
  | items, .called :: events => items.headD none :: served items.tail events

theorem call_of_waiting {c : StoreCall} {faults fs : List Fault} {f : Fault}
    (h : waiting c faults = f :: fs) : f.call = c := by
  have hmem : f ∈ waiting c faults := h ▸ List.mem_cons_self
  exact of_decide_eq_true (List.mem_filter.1 hmem).2

theorem waiting_append (c : StoreCall) (faults faults' : List Fault) :
    waiting c (faults ++ faults') = waiting c faults ++ waiting c faults' :=
  List.filter_append ..

/-- With no fault waiting for its kind, a call passes. -/
theorem due_of_waiting_nil {c : StoreCall} {faults : List Fault} (h : waiting c faults = []) :
    (due c faults).1 = none ∧ waiting c (due c faults).2 = [] := by
  have hdue := due_waiting c faults
  rw [h] at hdue
  exact (Prod.ext_iff.1 hdue).imp Eq.symm Eq.symm

/-- The oldest fault of its kind decides what becomes of a call. -/
theorem due_of_waiting_cons {c : StoreCall} {faults fs : List Fault} {f : Fault}
    (h : waiting c faults = f :: fs) :
    (due c faults).1 = (if f.skip = 0 then some f.error else none) ∧
      waiting c (due c faults).2 =
        if f.skip = 0 then fs else { f with skip := f.skip - 1 } :: fs := by
  have hdue := due_waiting c faults
  rw [h, due, if_pos (call_of_waiting h)] at hdue
  split at hdue <;> rename_i hs <;> simpa [hs, eq_comm] using Prod.ext_iff.1 hdue

theorem schedule_congr {c : StoreCall} {faults faults' : List Fault}
    (h : waiting c faults = waiting c faults') : schedule c faults = schedule c faults' :=
  congrArg (List.flatMap course) h

/-- A call takes the first item of the schedule of its kind. -/
theorem schedule_due (c : StoreCall) (faults : List Fault) :
    (due c faults).1 = (schedule c faults).headD none ∧
      schedule c (due c faults).2 = (schedule c faults).tail := by
  unfold schedule
  cases hw : waiting c faults with
  | nil =>
    obtain ⟨hdue, hrest⟩ := due_of_waiting_nil hw
    rw [hdue, hrest]
    exact ⟨rfl, rfl⟩
  | cons f fs =>
    obtain ⟨hdue, hrest⟩ := due_of_waiting_cons hw
    rw [hdue, hrest]
    cases hs : f.skip with
    | zero => simp [course, hs]
    | succ n => simp [course, hs, List.replicate_succ]

end Fault

/-! ## Calls -/

variable {α β : Type}

/-- What a call does once no fault keeps it from doing so: it neither looks at faults nor touches
them, and changes nothing if it fails. -/
structure Faultless (x : StoreM α) : Prop where
  answer : ∀ s faults, outcome (x { s with faults }) = outcome (x s)
  effect : ∀ s faults, finalState (x { s with faults }) = { finalState (x s) with faults }
  of_error : ∀ {s e s'}, x s = .error e s' → s' = s

namespace Faultless

theorem modifyGet {f : Store → α × Store}
    (h : ∀ s faults, f { s with faults } = ((f s).1, { (f s).2 with faults })) :
    Faultless (MonadState.modifyGet f : StoreM α) where
  answer s faults := by
    rw [modifyGet_run, modifyGet_run, h]
    rfl
  effect s faults := by
    rw [modifyGet_run, modifyGet_run, h]
    rfl
  of_error h := by cases h

end Faultless

/-- A call of a kind fails for the fault that is due on it, and otherwise does what it does on a
store without faults. If it fails there, it changes nothing. -/
structure IsCall (c : StoreCall) (x : StoreM α) : Prop where
  of_due : ∀ {s : Store} {e}, (Fault.due c s.faults).1 = some e →
    x s = .error e { s with faults := (Fault.due c s.faults).2 }
  answer : ∀ {s : Store}, (Fault.due c s.faults).1 = none → outcome (x s) = outcome (x s.calm)
  effect : ∀ {s : Store}, (Fault.due c s.faults).1 = none →
    finalState (x s) = { finalState (x s.calm) with faults := (Fault.due c s.faults).2 }
  of_error : ∀ {s : Store} {e s'}, x s.calm = .error e s' → s' = s.calm

theorem Store.failIfDue_of_due {c : StoreCall} {s : Store} {e : StoreError}
    (h : (Fault.due c s.faults).1 = some e) :
    failIfDue c s = .error e { s with faults := (Fault.due c s.faults).2 } := by
  unfold failIfDue
  split <;> simp_all

theorem Store.failIfDue_of_not_due {c : StoreCall} {s : Store}
    (h : (Fault.due c s.faults).1 = none) :
    failIfDue c s = .ok () { s with faults := (Fault.due c s.faults).2 } := by
  unfold failIfDue
  split <;> simp_all

theorem Store.calm_of_faults_nil {s : Store} (h : s.faults = []) : s.calm = s := by
  rw [calm, ← h]

namespace IsCall

variable {c : StoreCall}

theorem of_faultless {x : StoreM α} (hx : Faultless x) :
    IsCall c (do Store.failIfDue c; x) where
  of_due h := bind_of_error (Store.failIfDue_of_due h)
  answer {s} h := by
    rw [bind_of_ok (Store.failIfDue_of_not_due h), bind_of_ok (Store.failIfDue_of_not_due rfl)]
    exact (hx.answer s _).trans (hx.answer s []).symm
  effect {s} h := by
    rw [bind_of_ok (Store.failIfDue_of_not_due h), bind_of_ok (Store.failIfDue_of_not_due rfl)]
    have hcalm : finalState (x s.calm) = { finalState (x s) with faults := [] } := hx.effect s []
    refine (hx.effect s _).trans ?_
    change _ = { finalState (x s.calm) with faults := (Fault.due c s.faults).2 }
    rw [hcalm]
  of_error h := by
    rw [bind_of_ok (Store.failIfDue_of_not_due rfl)] at h
    exact hx.of_error h

theorem map {x : StoreM α} (hx : IsCall c x) (f : α → β) : IsCall c (f <$> x) where
  of_due h := by
    change EStateM.map f x _ = _
    rw [EStateM.map, hx.of_due h]
  answer h := by rw [outcome_map, outcome_map, hx.answer h]
  effect h := by rw [finalState_map, finalState_map, hx.effect h]
  of_error {s e s'} h := by
    change EStateM.map f x s.calm = _ at h
    unfold EStateM.map at h
    split at h
    · cases h
    · rename_i hx'
      cases h
      exact hx.of_error hx'

/-- A call that fails changes nothing but the faults. -/
theorem unchanged {x : StoreM α} (hx : IsCall c x) {s s' : Store} {e : StoreError}
    (h : x s = .error e s') : s.Unchanged s' := by
  cases hdue : (Fault.due c s.faults).1 with
  | some e' =>
    cases h.symm.trans (hx.of_due hdue)
    exact ⟨rfl, rfl, rfl, rfl⟩
  | none =>
    have hanswer := hx.answer hdue
    have heffect := hx.effect hdue
    rw [h] at hanswer heffect
    cases hcalm : x s.calm with
    | ok a t =>
      rw [hcalm] at hanswer
      cases hanswer
    | error e' t =>
      obtain rfl := hx.of_error hcalm
      rw [hcalm] at heffect
      obtain rfl : s' = _ := heffect
      exact ⟨rfl, rfl, rfl, rfl⟩

end IsCall

namespace Store

theorem isCall_get (k : Key) : IsCall .get (get k) := .of_faultless (.modifyGet fun _ _ => rfl)

theorem isCall_put (r : Row) : IsCall .put (put r) := .of_faultless (.modifyGet fun _ _ => rfl)

theorem isCall_delete (k : Key) : IsCall .delete (delete k) :=
  .of_faultless (.modifyGet fun _ _ => rfl)

theorem isCall_scan (q : Scan) : IsCall .scan (scan q) := by
  refine .of_faultless ?_
  cases q.check with
  | error e => exact ⟨fun _ _ => rfl, fun _ _ => rfl, fun h => by cases h; rfl⟩
  | ok => exact .modifyGet fun _ _ => rfl

theorem isCall_fetch (limit : Nat) (snapshot : Snapshot) :
    IsCall .fetch (fetch limit snapshot) :=
  .of_faultless ⟨fun _ _ => rfl, fun _ _ => rfl, fun h => by cases h⟩

end Store

/-! ## Steps, one by one -/

namespace StoreStep

theorem isCall_run {step : StoreStep} {c : StoreCall} (h : step.call? = some c) :
    IsCall c step.run := by
  cases step with
  | inject | seed => cases h
  | get k =>
    cases h
    exact (Store.isCall_get k).map _
  | put r =>
    cases h
    exact (Store.isCall_put r).map _
  | delete k =>
    cases h
    exact (Store.isCall_delete k).map _
  | scan q =>
    cases h
    exact (Store.isCall_scan q).map _
  | fetch limit snapshot =>
    cases h
    exact (Store.isCall_fetch limit snapshot).map _

/-- A step that fails is a call. -/
theorem call?_of_error {step : StoreStep} {s s' : Store} {e : StoreError}
    (h : step.run s = .error e s') : ∃ c, step.call? = some c := by
  cases step with
  | inject | seed => cases h
  | _ => exact ⟨_, rfl⟩

theorem faults_run {step : StoreStep} {c : StoreCall} (h : step.call? = some c) (s : Store) :
    (finalState (step.run s)).faults = (Fault.due c s.faults).2 := by
  have hcall := isCall_run h
  cases hdue : (Fault.due c s.faults).1 with
  | some e => rw [hcall.of_due hdue, finalState]
  | none => rw [hcall.effect hdue]

/-- A call does what it does on a store without faults. -/
structure Passes (step : StoreStep) (s : Store) : Prop where
  answer : outcome (step.run s) = outcome (step.run s.calm)
  effect : (finalState (step.run s)).calm = finalState (step.run s.calm)

theorem passes_of_not_due {step : StoreStep} {s : Store} (hsome : step.call?.isSome)
    (h : step.due? s = none) : step.Passes s := by
  obtain ⟨c, hc⟩ := Option.isSome_iff_exists.1 hsome
  have hcall := isCall_run hc
  have hdue : (Fault.due c s.faults).1 = none := by
    rw [due?, hc] at h
    exact h
  have hcalm : (finalState (step.run s.calm)).faults = [] := faults_run hc s.calm
  refine ⟨hcall.answer hdue, ?_⟩
  rw [hcall.effect hdue]
  exact Store.calm_of_faults_nil hcalm

/-- What a step is to the faults of a kind: nothing, one more of them, or a call that the oldest of
them decides on. -/
inductive Concerns (c : StoreCall) (step : StoreStep) (s : Store) : Option FaultEvent → Prop where
  | none (call : step.call? ≠ some c) (injects : step.injects? c = Option.none)
      (waiting : Fault.waiting c (finalState (step.run s)).faults = Fault.waiting c s.faults) :
      Concerns c step s .none
  | injected {f : Fault} (call : step.call? ≠ some c) (injects : step.injects? c = some f)
      (waiting : Fault.waiting c (finalState (step.run s)).faults =
        Fault.waiting c s.faults ++ [f]) : Concerns c step s (some (.injected f))
  | called (call : step.call? = some c) (injects : step.injects? c = Option.none)
      (due : step.due? s = (Fault.due c s.faults).1)
      (waiting : Fault.waiting c (finalState (step.run s)).faults =
        Fault.waiting c (Fault.due c s.faults).2) : Concerns c step s (some .called)

theorem concerns (c : StoreCall) (step : StoreStep) (s : Store) :
    step.Concerns c s (step.event? c) := by
  cases hcall : step.call? with
  | some c' =>
    have hinjects : step.injects? c = none := by
      cases step with
      | inject | seed => cases hcall
      | _ => rfl
    have hfaults := faults_run hcall s
    unfold event?
    rw [hinjects, hcall]
    by_cases hc : c' = c
    · subst hc
      rw [if_pos rfl]
      exact .called hcall hinjects (by rw [due?, hcall]; rfl) (by rw [hfaults])
    · have hne : some c' ≠ some c := fun h => hc (Option.some.inj h)
      rw [if_neg hne]
      exact .none (hcall ▸ hne) hinjects (by rw [hfaults, Fault.waiting_due_of_ne hc])
  | none =>
    have hne : none ≠ some c := (Option.some_ne_none c).symm
    unfold event?
    cases step with
    | inject f =>
      have hafter : Fault.waiting c (finalState ((inject f).run s)).faults =
          Fault.waiting c s.faults ++ Fault.waiting c [f] := Fault.waiting_append ..
      by_cases hc : f.call = c
      · have hinjects : (inject f).injects? c = some f := if_pos hc
        rw [hinjects]
        exact .injected hne hinjects (by rw [hafter]; simp [Fault.waiting, hc])
      · have hinjects : (inject f).injects? c = none := if_neg hc
        rw [hinjects]
        exact .none hne hinjects (by rw [hafter]; simp [Fault.waiting, hc])
    | seed r => exact .none hne rfl rfl
    | _ => cases hcall

end StoreStep

/-! ## Runs -/

namespace Store

variable {c : StoreCall} {s : Store} {step : StoreStep}

theorem after_cons (s : Store) (step : StoreStep) (steps : List StoreStep) :
    s.after (step :: steps) = (finalState (step.run s)).after steps := rfl

/-- The calls of a kind fail as the schedule of that kind says, whatever else is done. -/
theorem failures_eq_served (c : StoreCall) (s : Store) (steps : List StoreStep) :
    s.failures c steps =
      Fault.served (Fault.schedule c s.faults) (steps.filterMap (·.event? c)) := by
  induction steps generalizing s with
  | nil => rfl
  | cons step steps ih =>
    have hstep := step.concerns c s
    rw [failures, ih, List.filterMap_cons]
    generalize step.event? c = event at hstep
    cases hstep with
    | none call _ waiting =>
      rw [if_neg call, Fault.schedule_congr waiting]
    | injected call _ waiting =>
      rw [if_neg call, Fault.schedule, waiting, List.flatMap_append, List.flatMap_singleton]
      rfl
    | called call _ due waiting =>
      obtain ⟨hfirst, hrest⟩ := Fault.schedule_due c s.faults
      rw [if_pos call, due, hfirst, Fault.schedule_congr waiting, hrest]
      rfl

/-- While a fault is the oldest of its kind, it lets the calls pass that it is to skip. -/
theorem waiting_after_skipped {f : Fault} {fs : List Fault} {steps : List StoreStep}
    (h : Fault.waiting c s.faults = f :: fs) (hle : callsAmong c steps ≤ f.skip) :
    s.failures c steps = List.replicate (callsAmong c steps) none ∧
      Fault.waiting c (s.after steps).faults =
        { f with skip := f.skip - callsAmong c steps } :: (fs ++ faultsAmong c steps) := by
  induction steps generalizing s f fs with
  | nil => exact ⟨rfl, h.trans (by rw [faultsAmong, List.flatMap_nil, List.append_nil]; rfl)⟩
  | cons step steps ih =>
    have hstep := step.concerns c s
    generalize step.event? c = event at hstep
    rw [callsAmong_cons] at hle
    rw [after_cons, failures, callsAmong_cons, faultsAmong_cons]
    cases hstep with
    | none call injects waiting =>
      rw [if_neg call] at hle ⊢
      rw [if_neg call, injects]
      exact ih (waiting.trans h) hle
    | @injected g call injects waiting =>
      rw [if_neg call] at hle ⊢
      rw [if_neg call, injects, Option.toList_some, ← List.append_assoc]
      rw [h] at waiting
      exact ih waiting hle
    | called call injects due waiting =>
      rw [if_pos call] at hle ⊢
      have hskip : f.skip ≠ 0 := by omega
      obtain ⟨hdue, hrest⟩ := Fault.due_of_waiting_cons h
      rw [if_neg hskip] at hdue hrest
      obtain ⟨hfailures, hwaiting⟩ := ih (waiting.trans hrest) (by show _ ≤ f.skip - 1; omega)
      rw [if_pos call, injects, hfailures, hwaiting, due, hdue]
      refine ⟨rfl, ?_⟩
      rw [Nat.sub_sub, Nat.add_comm 1]
      rfl

/-- Then it fails the next call, and makes way for those that came after it. -/
theorem waiting_after_fired {f : Fault} {fs : List Fault} {steps : List StoreStep}
    (h : Fault.waiting c s.faults = f :: fs) (heq : callsAmong c steps = f.skip)
    (hcall : step.call? = some c) :
    step.due? (s.after steps) = some f.error ∧
      Fault.waiting c (s.after (steps ++ [step])).faults = fs ++ faultsAmong c steps := by
  obtain ⟨-, hwaiting⟩ := waiting_after_skipped h (Nat.le_of_eq heq)
  have hzero : f.skip - callsAmong c steps = 0 := by omega
  obtain ⟨hdue, hrest⟩ := Fault.due_of_waiting_cons hwaiting
  rw [if_pos hzero] at hdue hrest
  have hafter : s.after (steps ++ [step]) = finalState (step.run (s.after steps)) := by
    rw [after, List.foldl_append]
    rfl
  refine ⟨by rw [StoreStep.due?, hcall]; exact hdue, ?_⟩
  rw [hafter, StoreStep.faults_run hcall, hrest]

/-- What a store makes of the faults that are injected into it, whatever was done to it before. -/
structure ServesFaults (s : Store) : Prop where
  /-- A call that fails changes nothing but the faults. -/
  unchanged : ∀ {step : StoreStep} {e s'}, step.run s = .error e s' → s.Unchanged s'
  /-- A call fails for the fault that is due on it, and otherwise does what it does without any. -/
  of_due : ∀ {step : StoreStep} {e}, step.due? s = some e → outcome (step.run s) = .error e
  of_not_due : ∀ {step : StoreStep}, step.call?.isSome → step.due? s = none → step.Passes s
  /-- Which calls of a kind fail for a fault follows from the faults of that kind and from when
  such calls are made. -/
  failures : ∀ c steps, s.failures c steps =
    Fault.served (Fault.schedule c s.faults) (steps.filterMap (·.event? c))
  /-- While a fault is the oldest of its kind, it lets the calls pass that it is to skip. -/
  skips : ∀ {c f fs steps}, Fault.waiting c s.faults = f :: fs → callsAmong c steps ≤ f.skip →
    s.failures c steps = List.replicate (callsAmong c steps) none ∧
      Fault.waiting c (s.after steps).faults =
        { f with skip := f.skip - callsAmong c steps } :: (fs ++ faultsAmong c steps)
  /-- It fails the next one and is used up by that. -/
  fires : ∀ {c f fs steps} {step : StoreStep}, Fault.waiting c s.faults = f :: fs →
    callsAmong c steps = f.skip → step.call? = some c →
      step.due? (s.after steps) = some f.error ∧
        Fault.waiting c (s.after (steps ++ [step])).faults = fs ++ faultsAmong c steps
  /-- Where no fault waits, a call passes. -/
  idle : ∀ {c} {step : StoreStep}, Fault.waiting c s.faults = [] → step.call? = some c →
    step.due? s = none ∧ Fault.waiting c (finalState (step.run s)).faults = []

/-- A store fails the calls of each kind by the faults that were injected on calls of that kind, in
the order of their injection, and a call that fails leaves rows, numbers, statistics and log as they
were. -/
theorem servesFaults (s : Store) : s.ServesFaults where
  unchanged {step e s'} h := by
    obtain ⟨c, hc⟩ := StoreStep.call?_of_error h
    exact (StoreStep.isCall_run hc).unchanged h
  of_due {step e} h := by
    obtain ⟨c, hc, hdue⟩ := Option.bind_eq_some_iff.1 h
    rw [(StoreStep.isCall_run hc).of_due hdue, outcome]
  of_not_due {step} hsome h := StoreStep.passes_of_not_due hsome h
  failures c steps := failures_eq_served c s steps
  skips := waiting_after_skipped
  fires := waiting_after_fired
  idle {c step} h hcall := by
    obtain ⟨hdue, hrest⟩ := Fault.due_of_waiting_nil h
    refine ⟨by rw [StoreStep.due?, hcall]; exact hdue, ?_⟩
    rw [StoreStep.faults_run hcall, hrest]

/-- The second delete fails, whatever is got meanwhile, and the third does what was asked. -/
example :
    let s := ({} : Store).inject ⟨.delete, 1, .timeout "delete"⟩
    let key : Key := .single ⟨"Person", some (.number 1)⟩ ⟨by decide, by decide⟩
    let steps : List StoreStep := [.seed { key }, .get key, .delete key, .get key, .delete key]
    s.failures .delete (steps ++ [.delete key]) = [none, some (.timeout "delete"), none] := by
  rfl

end Store
end EntityGraph
