import LatteCode.Lib.Outcome
/- Runs of a deterministic transition system, and the rules that lift facts about one step. -/

namespace Runs

variable {σ α : Type} (step : σ → α → σ)

/-- The state after a list of inputs. -/
def run (initial : σ) (inputs : List α) : σ := inputs.foldl step initial

/-- The state after the first `k` inputs. -/
def stateAt (initial : σ) (inputs : List α) (k : Nat) : σ := run step initial (inputs.take k)

variable {step} {initial : σ} {inputs : List α}

@[simp] theorem run_nil : run step initial [] = initial := rfl

@[simp] theorem run_append (first second : List α) :
    run step initial (first ++ second) = run step (run step initial first) second :=
  List.foldl_append

@[simp] theorem stateAt_zero : stateAt step initial inputs 0 = initial := by
  rw [stateAt, List.take_zero, run_nil]

theorem stateAt_succ {k : Nat} (bound : k < inputs.length) :
    stateAt step initial inputs (k + 1) = step (stateAt step initial inputs k) inputs[k] := by
  rw [stateAt, List.take_add_one, List.getElem?_eq_getElem bound, run_append]
  rfl

theorem stateAt_length : stateAt step initial inputs inputs.length = run step initial inputs := by
  rw [stateAt, List.take_length]

/-- The invariant rule: what holds initially and survives every step holds throughout. -/
theorem invariant {Inv : σ → Prop} (start : Inv initial)
    (preserved : ∀ s a, Inv s → Inv (step s a)) (inputs : List α) : Inv (run step initial inputs) := by
  induction inputs generalizing initial with
  | nil => exact start
  | cons a inputs ih => exact ih (preserved initial a start)

/-- The invariant rule for runs whose every step meets a condition on its state and input. -/
theorem invariant_of_steps {Inv : σ → Prop} {Good : σ → α → Prop} (start : Inv initial)
    (preserved : ∀ s a, Inv s → Good s a → Inv (step s a))
    (good : ∀ k (bound : k < inputs.length), Good (stateAt step initial inputs k) inputs[k]) :
    ∀ k, k ≤ inputs.length → Inv (stateAt step initial inputs k) := by
  intro k
  induction k with
  | zero =>
      intro _
      rw [stateAt_zero]
      exact start
  | succ k ih =>
      intro bound
      rw [stateAt_succ bound]
      exact preserved _ _ (ih (Nat.le_of_succ_le bound)) (good k bound)

theorem invariant_at {Inv : σ → Prop} (start : Inv initial)
    (preserved : ∀ s a, Inv s → Inv (step s a)) (k : Nat) : Inv (stateAt step initial inputs k) :=
  invariant start preserved _

/-- An invariant that a step keeps exactly if the step meets a condition holds throughout exactly if every step does. -/
theorem invariant_iff {Inv : σ → Prop} {Good : σ → α → Prop} (start : Inv initial)
    (kept : ∀ s a, Inv (step s a) ↔ Inv s ∧ Good s a) :
    (∀ k, k ≤ inputs.length → Inv (stateAt step initial inputs k)) ↔
      ∀ k (bound : k < inputs.length), Good (stateAt step initial inputs k) inputs[k] := by
  constructor
  · intro throughout k bound
    have next := throughout (k + 1) bound
    rw [stateAt_succ bound] at next
    exact ((kept _ _).mp next).2
  · exact invariant_of_steps start fun s a held good => (kept s a).mpr ⟨held, good⟩

/-- A reflexive and transitive relation kept by every step relates earlier states to later ones. -/
theorem monotone {R : σ → σ → Prop} (refl : ∀ s, R s s) (trans : ∀ {a b c}, R a b → R b c → R a c)
    (kept : ∀ k (_ : k < inputs.length),
      R (stateAt step initial inputs k) (stateAt step initial inputs (k + 1)))
    {i j : Nat} (order : i ≤ j) (bound : j ≤ inputs.length) :
    R (stateAt step initial inputs i) (stateAt step initial inputs j) := by
  induction order with
  | refl => exact refl _
  | step _ ih => exact trans (ih (Nat.le_of_succ_le bound)) (kept _ bound)

/-- What is false at the start and true later became true at some step. -/
theorem crossing {P : σ → Prop} {n : Nat} (start : ¬ P initial)
    (now : P (stateAt step initial inputs n)) :
    ∃ k, k < n ∧ ¬ P (stateAt step initial inputs k) ∧ P (stateAt step initial inputs (k + 1)) := by
  induction n with
  | zero =>
      rw [stateAt_zero] at now
      exact absurd now start
  | succ n ih =>
      by_cases before : P (stateAt step initial inputs n)
      · obtain ⟨k, less, facts⟩ := ih before
        exact ⟨k, Nat.lt_succ_of_lt less, facts⟩
      · exact ⟨n, Nat.lt_succ_self n, before, now⟩

section Fallible

variable {ε : Type} {step : σ → α → Except ε σ} {initial middle final : σ} {first second inputs : List α}

/-- The state after a list of inputs of a step that can refuse, when it refuses none. -/
def tryRun (step : σ → α → Except ε σ) (initial : σ) (inputs : List α) : Except ε σ := inputs.foldlM step initial

@[simp] theorem tryRun_nil : tryRun step initial [] = .ok initial := rfl

theorem tryRun_cons {a : α} :
    tryRun step initial (a :: inputs) = step initial a >>= fun middle => tryRun step middle inputs := rfl

theorem tryRun_append :
    tryRun step initial (first ++ second) = tryRun step initial first >>= fun middle => tryRun step middle second :=
  List.foldlM_append

theorem tryRun_append_ok : tryRun step initial (first ++ second) = .ok final ↔
    ∃ middle, tryRun step initial first = .ok middle ∧ tryRun step middle second = .ok final := by
  rw [tryRun_append]
  exact Outcome.bind_ok

theorem tryRun_cons_ok {a : α} : tryRun step initial (a :: inputs) = .ok final ↔
    ∃ middle, step initial a = .ok middle ∧ tryRun step middle inputs = .ok final := by
  rw [tryRun_cons]
  exact Outcome.bind_ok

/-- The invariant rule for runs without a refusal. -/
theorem tryRun_invariant {Inv : σ → Prop} (start : Inv initial)
    (preserved : ∀ {s s' : σ} {a : α}, Inv s → step s a = .ok s' → Inv s')
    (ran : tryRun step initial inputs = .ok final) : Inv final := by
  induction inputs generalizing initial with
  | nil =>
      cases ran
      exact start
  | cons a inputs ih =>
      obtain ⟨middle, taken, rest⟩ := tryRun_cons_ok.mp ran
      exact ih (preserved start taken) rest

/-- What every step advances by one counts the inputs. -/
theorem tryRun_counts (count : σ → Nat) (advances : ∀ {s s' : σ} {a : α}, step s a = .ok s' → count s' = count s + 1)
    (ran : tryRun step initial inputs = .ok final) : count final = count initial + inputs.length := by
  induction inputs generalizing initial with
  | nil =>
      cases ran
      rfl
  | cons a inputs ih =>
      obtain ⟨middle, taken, rest⟩ := tryRun_cons_ok.mp ran
      rw [ih rest, advances taken, List.length_cons]
      omega

/-- Nothing comes after a state that takes no step. -/
theorem tryRun_stopped (stopped : ∀ a s', step initial a ≠ .ok s') (ran : tryRun step initial inputs = .ok final) :
    inputs = [] ∧ final = initial := by
  cases inputs with
  | nil =>
      cases ran
      exact ⟨rfl, rfl⟩
  | cons a inputs =>
      obtain ⟨middle, taken, _⟩ := tryRun_cons_ok.mp ran
      exact absurd taken (stopped a middle)

end Fallible

end Runs
