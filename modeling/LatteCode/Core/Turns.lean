import LatteCode.Core.State
import LatteCode.Lib.Run
/- Runs of the turn state machine. -/

namespace LatteCode
open Outcome Runs

/-- A call of `transition`: the revision it expects, and the transition. -/
abbrev TurnCall := Nat × Transition

def TurnState.call (self : TurnState) (call : TurnCall) : Except TransitionError TurnState :=
  self.transition call.1 call.2

/-- The state after calls that all succeed. -/
def TurnState.calls (self : TurnState) (calls : List TurnCall) : Except TransitionError TurnState :=
  tryRun TurnState.call self calls

/-- A state that no transition leaves. -/
inductive TurnState.Closed (state : TurnState) : Prop where
  | completed (status : state.status = .completed)
  | terminal (status : state.status = .failed) {failure : TurnFailure} (held : state.failure = some failure)
      (final : failure.retryability = .terminal)

namespace TurnState

variable {self next : TurnState} {expectedRevision : Nat} {transition : Transition}

theorem Closed.refuses (closed : self.Closed) : self.transition expectedRevision transition ≠ .ok next := by
  intro step
  obtain ⟨_, alive, _, advanced⟩ := transition_ok.mp step
  cases closed with
  | completed status => exact alive status
  | terminal status held final =>
      cases transition <;> simp only [TurnState.advance, status, held] at advanced
      case resume =>
        rw [if_neg] at advanced
        · cases advanced
        · simp [final]
      all_goals simp at advanced

/-- A completion either passes its policy and leaves the handoff, or fails the turn for good. -/
theorem complete_closed {handoff : Handoff} {policy : CompletionPolicy}
    (step : self.transition expectedRevision (.complete handoff policy) = .ok next) :
    next.Closed ∧ (next.status = .completed → policy.passes handoff = true ∧ next.handoff = some handoff) := by
  have advanced := (transition_ok.mp step).2.2.2
  simp only [TurnState.advance] at advanced
  split at advanced
  case isFalse => cases advanced
  split at advanced
  case isTrue passes =>
    cases advanced
    exact ⟨.completed rfl, fun _ => ⟨passes, rfl⟩⟩
  case isFalse =>
    cases advanced
    exact ⟨.terminal rfl rfl rfl, fun impossible => by cases impossible⟩

theorem passes_required {handoff : Handoff} (passes : CompletionPolicy.verificationRequired.passes handoff = true) :
    handoff.evidence ≠ [] ∧ ∀ evidence ∈ handoff.evidence, evidence.status = .passed := by
  simp only [CompletionPolicy.passes, Bool.and_eq_true, Bool.not_eq_true', List.isEmpty_eq_false_iff, List.all_eq_true,
    decide_eq_true_eq] at passes
  exact passes

section Run

variable {turnId : TurnId} {calls : List TurnCall} {state : TurnState}

theorem calls_coherent (ran : (queued turnId).calls calls = .ok state) : state.Coherent :=
  tryRun_invariant (queued_coherent turnId) (fun coherent step => transition_coherent coherent step) ran

theorem calls_revision (ran : (queued turnId).calls calls = .ok state) : state.revision = calls.length := by
  have counted := tryRun_counts TurnState.revision (fun step => (transition_identity step).1) ran
  rw [counted]
  exact Nat.zero_add _

theorem calls_verified {handoff : Handoff} (ran : (queued turnId).calls calls = .ok state)
    (asked : (expectedRevision, .complete handoff .verificationRequired) ∈ calls) (completed : state.status = .completed) :
    state.handoff = some handoff ∧ handoff.evidence ≠ [] ∧ ∀ evidence ∈ handoff.evidence, evidence.status = .passed := by
  obtain ⟨earlier, later, rfl⟩ := List.append_of_mem asked
  obtain ⟨before, _, rest⟩ := tryRun_append_ok.mp ran
  obtain ⟨after, step, rest⟩ := tryRun_cons_ok.mp rest
  obtain ⟨closed, verified⟩ := complete_closed step
  -- Nothing follows a completion, passed or not.
  obtain ⟨_, rfl⟩ := tryRun_stopped (fun _ _ => closed.refuses) rest
  obtain ⟨passes, held⟩ := verified completed
  exact ⟨held, passes_required passes⟩

end Run

theorem calls_invariant (turnId : TurnId) (calls : List TurnCall) (state : TurnState)
    (ran : (queued turnId).calls calls = .ok state) :
    (state.pendingPermission.isSome = true ↔ state.status = .waitingPermission) ∧
    (state.pendingInput.isSome = true ↔ state.status = .waitingInput) ∧
    (state.failure.isSome = true ↔ state.status = .failed) ∧
    (state.handoff.isSome = true ↔ state.status = .completed) ∧
    state.revision = calls.length ∧
    (∀ expectedRevision handoff, (expectedRevision, Transition.complete handoff .verificationRequired) ∈ calls →
      state.status = .completed →
        state.handoff = some handoff ∧ handoff.evidence ≠ [] ∧
          ∀ evidence ∈ handoff.evidence, evidence.status = .passed) ∧
    (state.status = .completed ∨
        (state.status = .failed ∧ ∃ failure, state.failure = some failure ∧ failure.retryability = .terminal) →
      ∀ expectedRevision transition next, state.transition expectedRevision transition ≠ .ok next) := by
  have coherent := calls_coherent ran
  refine ⟨coherent.permission, coherent.input, coherent.failure, coherent.handoff, calls_revision ran,
    fun _ _ asked completed => calls_verified ran asked completed, ?_⟩
  rintro (completed | ⟨failed, failure, held, final⟩)
  · exact fun _ _ _ => (Closed.completed completed).refuses
  · exact fun _ _ _ => (Closed.terminal failed held final).refuses

def verifiedCalls : List TurnCall :=
  [(0, .start), (1, .complete ⟨"done", [], [⟨"tests", .passed, "all passed"⟩]⟩ .verificationRequired)]

theorem calls_invariant_verified : ∃ state, (queued ⟨⟨1#128⟩⟩).calls verifiedCalls = .ok state ∧
    state.handoff.isSome = true ∧ state.revision = 2 := by
  have ran : ∃ state, (queued ⟨⟨1#128⟩⟩).calls verifiedCalls = .ok state ∧ state.status = .completed :=
    ⟨_, rfl, rfl⟩
  obtain ⟨state, ran, completed⟩ := ran
  obtain ⟨_, _, _, handoff, revision, _⟩ := calls_invariant _ _ state ran
  exact ⟨state, ran, handoff.mpr completed, revision⟩

end TurnState

end LatteCode
