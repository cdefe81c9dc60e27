/-!
# Sequences of steps that may fail

What follows from a sequence of steps that succeeds or fails, for computations in `Except` and, with
a state, in `EStateM`:

* `bind_eq_ok`, `forM_eq_ok`, `step_of_foldlM_ok`: a sequence in `Except` succeeds if all its steps
  do;
* `bind_run_ok`, `bind_run_error`: how a sequence in `EStateM` succeeds and fails;
* `outcome`: what a computation answers, its final state aside.
-/

namespace EntityGraph

variable {ε σ α β : Type}

@[simp] theorem ok_bind (a : α) (f : α → Except ε β) : (Except.ok a >>= f) = f a := rfl

@[simp] theorem error_bind (e : ε) (f : α → Except ε β) : (Except.error e >>= f) = .error e := rfl

@[simp] theorem bind_ok_self (x : Except ε α) : (x >>= fun a => .ok a) = x := by
  cases x <;> rfl

@[simp] theorem pure_eq_ok (a : α) : (pure a : Except ε α) = .ok a := rfl

@[simp] theorem throw_eq_error (e : ε) : (throw e : Except ε α) = .error e := rfl

@[simp] theorem ofExcept_eq (x : Except ε α) : (MonadExcept.ofExcept x : Except ε α) = x := by
  cases x <;> rfl

theorem bind_eq_ok {x : Except ε α} {f : α → Except ε β} {b : β} :
    (x >>= f) = .ok b ↔ ∃ a, x = .ok a ∧ f a = .ok b := by
  cases x <;> simp

/-- A check before a step has to pass. -/
theorem check_bind_eq_ok {x : Except ε Unit} {f : Unit → Except ε β} {b : β} :
    (x >>= f) = .ok b ↔ x = .ok () ∧ f () = .ok b :=
  bind_eq_ok.trans ⟨fun ⟨_, h, h'⟩ => ⟨h, h'⟩, fun ⟨h, h'⟩ => ⟨(), h, h'⟩⟩

/-- Checks in sequence pass if each of them does. -/
theorem forM_eq_ok {f : α → Except ε Unit} :
    ∀ {as : List α}, as.forM f = .ok () ↔ ∀ a ∈ as, f a = .ok ()
  | [] => by simp [List.forM]
  | a :: as => by
    rw [List.forall_mem_cons, ← forM_eq_ok, List.forM]
    exact check_bind_eq_ok

/-- Checks in sequence fail as one of them does. -/
theorem exists_of_forM_error {f : α → Except ε Unit} {e : ε} :
    ∀ {as : List α}, as.forM f = .error e → ∃ a ∈ as, f a = .error e
  | [], h => by cases h
  | a :: as, h => by
    rw [List.forM] at h
    cases hf : f a with
    | error e' =>
      rw [hf] at h
      cases h
      exact ⟨a, List.mem_cons_self, hf⟩
    | ok =>
      rw [hf] at h
      obtain ⟨b, hb, he⟩ := exists_of_forM_error h
      exact ⟨b, List.mem_cons_of_mem _ hb, he⟩

/-- Every step of a fold that succeeds does so. -/
theorem step_of_foldlM_ok {f : β → α → Except ε β} {a : α} : ∀ {as : List α} {b b' : β},
    as.foldlM f b = .ok b' → a ∈ as → ∃ c c', f c a = .ok c'
  | a' :: as, b, b', h, ha => by
    rw [List.foldlM_cons] at h
    obtain ⟨c, hc, h⟩ := bind_eq_ok.1 h
    rcases List.mem_cons.1 ha with rfl | ha
    · exact ⟨b, c, hc⟩
    · exact step_of_foldlM_ok h ha

/-- A fold whose steps change nothing. -/
theorem foldlM_eq_self {f : β → α → Except ε β} {b : β} :
    ∀ {as : List α}, (∀ a ∈ as, f b a = .ok b) → as.foldlM f b = .ok b
  | [], _ => rfl
  | a :: as, h => by
    rw [List.foldlM_cons, h a List.mem_cons_self, ok_bind]
    exact foldlM_eq_self fun a' ha => h a' (List.mem_cons_of_mem _ ha)

theorem mapError_bind {ε' : Type} (w : ε → ε') (x : Except ε α) (f : α → Except ε β) :
    (x >>= f).mapError w = x.mapError w >>= fun a => (f a).mapError w := by
  cases x <;> rfl

theorem mapError_eq_ok {ε' : Type} {w : ε → ε'} {x : Except ε α} {a : α} :
    x.mapError w = .ok a ↔ x = .ok a := by
  cases x with
  | error => exact ⟨nofun, nofun⟩
  | ok b =>
    change Except.ok b = .ok a ↔ Except.ok b = .ok a
    simp only [Except.ok.injEq]

theorem toOption_eq_some {x : Except ε α} {a : α} : x.toOption = some a ↔ x = .ok a := by
  cases x <;> simp [Except.toOption]

/-! ## With a state -/

theorem get_run (s : σ) : (get : EStateM ε σ σ) s = .ok s s := rfl

theorem modifyGet_run (f : σ → α × σ) (s : σ) :
    (modifyGet f : EStateM ε σ α) s = .ok (f s).1 (f s).2 := rfl

theorem bind_of_ok {x : EStateM ε σ α} {f : α → EStateM ε σ β} {s s' : σ} {a : α}
    (h : x s = .ok a s') : (x >>= f) s = f a s' := by
  simp only [bind, EStateM.bind, h]

theorem bind_of_error {x : EStateM ε σ α} {f : α → EStateM ε σ β} {s s' : σ} {e : ε}
    (h : x s = .error e s') : (x >>= f) s = .error e s' := by
  simp only [bind, EStateM.bind, h]

theorem bind_run_ok {x : EStateM ε σ α} {f : α → EStateM ε σ β} {s s'' : σ} {b : β} :
    (x >>= f) s = .ok b s'' ↔ ∃ a s', x s = .ok a s' ∧ f a s' = .ok b s'' := by
  simp only [bind, EStateM.bind]
  cases x s <;> simp [and_assoc]

theorem bind_run_error {x : EStateM ε σ α} {f : α → EStateM ε σ β} {s s'' : σ} {e : ε} :
    (x >>= f) s = .error e s'' ↔
      x s = .error e s'' ∨ ∃ a s', x s = .ok a s' ∧ f a s' = .error e s'' := by
  simp only [bind, EStateM.bind]
  cases x s <;> simp [and_assoc]

theorem ofExcept_run (x : Except ε α) (s : σ) :
    (MonadExcept.ofExcept x : EStateM ε σ α) s =
      match x with
      | .ok a => .ok a s
      | .error e => .error e s := by
  cases x <;> rfl

/-- What a computation answers, its final state aside. -/
def outcome : EStateM.Result ε σ α → Except ε α
  | .ok a _ => .ok a
  | .error e _ => .error e

theorem outcome_map (f : α → β) (x : EStateM ε σ α) (s : σ) :
    outcome ((f <$> x) s) = (outcome (x s)).map f := by
  change outcome (EStateM.map f x s) = _
  unfold EStateM.map
  cases x s <;> rfl

theorem exists_eq_ok {x : EStateM.Result ε σ α} {a : α} (h : (outcome x).toOption = some a) :
    ∃ s, x = .ok a s := by
  cases x with
  | ok b s => exact ⟨s, by rw [Option.some.inj h]⟩
  | error e s => cases h

end EntityGraph
