import LatteCode.Core.Protocol
import LatteCode.Lib.Outcome
/- The turn state machine of `TurnState::transition`. -/

namespace LatteCode
open Outcome

/-- `u64::checked_add`. -/
def checkedAdd (a b : Nat) : Option Nat := if a + b < 2 ^ 64 then some (a + b) else none

/-- Complete durable state for one turn. -/
structure TurnState where
  turnId : TurnId
  revision : Nat
  status : TurnStatus
  pendingPermission : Option PendingPermission
  pendingInput : Option PendingInput
  failure : Option TurnFailure
  handoff : Option Handoff
deriving DecidableEq, Repr

def TurnState.queued (turnId : TurnId) : TurnState where
  turnId := turnId
  revision := 0
  status := .queued
  pendingPermission := none
  pendingInput := none
  failure := none
  handoff := none

/-- Verification precondition for completing a turn. -/
inductive CompletionPolicy where
  | verificationNotRequired
  | verificationRequired
deriving DecidableEq, Repr

inductive Transition where
  | start
  | requestPermission (request : PendingPermission)
  | resolvePermission (requestId : String) (allowed : Bool)
  | refreshPermission (request : PendingPermission)
  | requestInput (request : PendingInput)
  | provideInput (requestId : String)
  | cancel
  | interrupt
  | fail (failure : TurnFailure)
  | resume
  | complete (handoff : Handoff) (policy : CompletionPolicy)
deriving DecidableEq, Repr

inductive TransitionError where
  | staleRevision (expected actual : Nat)
  | invalid (from_ : TurnStatus)
  | mismatchedRequest
  | missingPending
  | completedImmutable
  | revisionOverflow
deriving DecidableEq, Repr

def TransitionError.toString : TransitionError → String
  | .staleRevision expected actual => s!"stale revision: expected {expected}, actual {actual}"
  | .invalid from_ => "transition is invalid from " ++ from_.debug
  | .mismatchedRequest => "request id does not match the pending request"
  | .missingPending => "state is missing its pending request"
  | .completedImmutable => "completed runs are immutable"
  | .revisionOverflow => "revision overflow"

def CompletionPolicy.passes (policy : CompletionPolicy) (handoff : Handoff) : Bool :=
  match policy with
  | .verificationNotRequired => true
  | .verificationRequired =>
      !handoff.evidence.isEmpty && handoff.evidence.all fun evidence => evidence.status = .passed

/-- The `match` of `transition`, on the clone whose revision is already advanced. -/
def TurnState.advance (self next : TurnState) : Transition → Except TransitionError TurnState
  | .start =>
      if self.status = .queued then .ok { next with status := .running }
      else .error (.invalid self.status)
  | .requestPermission request =>
      if self.status = .running then
        .ok { next with status := .waitingPermission, pendingPermission := some request }
      else .error (.invalid self.status)
  | .resolvePermission requestId allowed =>
      if self.status = .waitingPermission then do
        let pending ← require self.pendingPermission .missingPending
        ensure (pending.requestId = requestId) .mismatchedRequest
        if allowed then .ok { next with pendingPermission := none, status := .running }
        else .ok { next with
          pendingPermission := none
          status := .failed
          failure := some ⟨.permissionDenied, "permission was denied", .terminal⟩ }
      else .error (.invalid self.status)
  | .refreshPermission request =>
      if self.status = .waitingPermission then
        .ok { next with status := .waitingPermission, pendingPermission := some request }
      else .error (.invalid self.status)
  | .requestInput request =>
      if self.status = .running then
        .ok { next with status := .waitingInput, pendingInput := some request }
      else .error (.invalid self.status)
  | .provideInput requestId =>
      if self.status = .waitingInput then do
        let pending ← require self.pendingInput .missingPending
        ensure (pending.requestId = requestId) .mismatchedRequest
        .ok { next with pendingInput := none, status := .running }
      else .error (.invalid self.status)
  | .cancel =>
      if self.status ∈ [.queued, .running, .waitingPermission, .waitingInput] then
        .ok { next with status := .cancelling, pendingInput := none, pendingPermission := none }
      else .error (.invalid self.status)
  | .interrupt =>
      if self.status ∈ [.running, .cancelling] then .ok { next with status := .interrupted }
      else .error (.invalid self.status)
  | .fail failure =>
      if self.status ∈ [.queued, .running, .cancelling] then
        .ok { next with status := .failed, failure := some failure }
      else .error (.invalid self.status)
  | .resume =>
      if self.status = .interrupted ∨
          (self.status = .failed ∧ self.failure.any fun failure => failure.retryability = .retryable) then
        .ok { next with status := .queued, failure := none }
      else .error (.invalid self.status)
  | .complete handoff policy =>
      if self.status = .running then
        if policy.passes handoff then .ok { next with status := .completed, handoff := some handoff }
        else .ok { next with
          status := .failed
          failure := some ⟨.verificationFailed, "required verification did not pass", .terminal⟩ }
      else .error (.invalid self.status)

/-- Applies a checked transition and returns the next immutable value. -/
def TurnState.transition (self : TurnState) (expectedRevision : Nat) (transition : Transition) :
    Except TransitionError TurnState := do
  ensure (self.revision = expectedRevision) (.staleRevision expectedRevision self.revision)
  ensure (self.status ≠ .completed) .completedImmutable
  let revision ← require (checkedAdd self.revision 1) .revisionOverflow
  self.advance { self with revision := revision } transition

theorem checkedAdd_eq_some {a b c : Nat} : checkedAdd a b = some c ↔ c = a + b ∧ c < 2 ^ 64 := by
  unfold checkedAdd
  split <;> simp <;> omega

/-- A step advances the revision by one and keeps the turn's identity, whatever it does. -/
theorem TurnState.advance_identity {self next result : TurnState} {transition : Transition}
    (step : self.advance next transition = .ok result) :
    result.revision = next.revision ∧ result.turnId = next.turnId := by
  cases transition <;> simp only [TurnState.advance] at step
  case resolvePermission requestId allowed =>
    split at step
    · obtain ⟨pending, _, _, _, chosen⟩ := by simpa only [bind_ok] using step
      split at chosen <;> (cases chosen; exact ⟨rfl, rfl⟩)
    · cases step
  case provideInput requestId =>
    split at step
    · obtain ⟨pending, _, _, _, chosen⟩ := by simpa only [bind_ok] using step
      cases chosen
      exact ⟨rfl, rfl⟩
    · cases step
  case complete handoff policy =>
    split at step
    · split at step <;> (cases step; exact ⟨rfl, rfl⟩)
    · cases step
  all_goals
    split at step <;> cases step
    exact ⟨rfl, rfl⟩

theorem TurnState.transition_ok {self next : TurnState} {expectedRevision : Nat}
    {transition : Transition} : self.transition expectedRevision transition = .ok next ↔
      self.revision = expectedRevision ∧ self.status ≠ .completed ∧ self.revision + 1 < 2 ^ 64 ∧
        self.advance { self with revision := self.revision + 1 } transition = .ok next := by
  simp only [TurnState.transition, bind_ok, ensure_ok, require_ok, checkedAdd_eq_some]
  constructor
  · rintro ⟨_, current, _, alive, _, ⟨rfl, bounded⟩, step⟩
    exact ⟨current, alive, bounded, step⟩
  · rintro ⟨current, alive, bounded, step⟩
    exact ⟨(), current, (), alive, _, ⟨rfl, bounded⟩, step⟩

theorem TurnState.transition_identity {self next : TurnState} {expectedRevision : Nat}
    {transition : Transition} (step : self.transition expectedRevision transition = .ok next) :
    next.revision = self.revision + 1 ∧ next.turnId = self.turnId :=
  TurnState.advance_identity (TurnState.transition_ok.mp step).2.2.2

/-! What each transition used by a linked turn requires and does. -/

section Inversion

variable {self next : TurnState} {expectedRevision : Nat}

theorem TurnState.transition_start (step : self.transition expectedRevision .start = .ok next) :
    self.status = .queued ∧ next = { self with revision := self.revision + 1, status := .running } := by
  have advanced := (TurnState.transition_ok.mp step).2.2.2
  simp only [TurnState.advance] at advanced
  split at advanced
  case isTrue queued => exact ⟨queued, (Except.ok.inj advanced).symm⟩
  case isFalse => cases advanced

theorem TurnState.transition_requestPermission {request : PendingPermission}
    (step : self.transition expectedRevision (.requestPermission request) = .ok next) :
    self.status = .running ∧ next = { self with
      revision := self.revision + 1
      status := .waitingPermission
      pendingPermission := some request } := by
  have advanced := (TurnState.transition_ok.mp step).2.2.2
  simp only [TurnState.advance] at advanced
  split at advanced
  case isTrue running => exact ⟨running, (Except.ok.inj advanced).symm⟩
  case isFalse => cases advanced

theorem TurnState.transition_resolvePermission {requestId : String} {allowed : Bool}
    (step : self.transition expectedRevision (.resolvePermission requestId allowed) = .ok next) :
    self.status = .waitingPermission ∧
      (∃ pending, self.pendingPermission = some pending ∧ pending.requestId = requestId) ∧
      next = if allowed then
          { self with revision := self.revision + 1, pendingPermission := none, status := .running }
        else { self with
          revision := self.revision + 1
          pendingPermission := none
          status := .failed
          failure := some ⟨.permissionDenied, "permission was denied", .terminal⟩ } := by
  have advanced := (TurnState.transition_ok.mp step).2.2.2
  simp only [TurnState.advance] at advanced
  split at advanced
  case isTrue waiting =>
    simp only [bind_ok, require_ok, ensure_ok] at advanced
    obtain ⟨pending, held, _, named, chosen⟩ := advanced
    refine ⟨waiting, ⟨pending, held, named⟩, ?_⟩
    cases allowed <;> exact (Except.ok.inj chosen).symm
  case isFalse => cases advanced

theorem TurnState.transition_requestInput {request : PendingInput}
    (step : self.transition expectedRevision (.requestInput request) = .ok next) :
    self.status = .running ∧ next = { self with
      revision := self.revision + 1
      status := .waitingInput
      pendingInput := some request } := by
  have advanced := (TurnState.transition_ok.mp step).2.2.2
  simp only [TurnState.advance] at advanced
  split at advanced
  case isTrue running => exact ⟨running, (Except.ok.inj advanced).symm⟩
  case isFalse => cases advanced

theorem TurnState.transition_provideInput {requestId : String}
    (step : self.transition expectedRevision (.provideInput requestId) = .ok next) :
    self.status = .waitingInput ∧
      next = { self with revision := self.revision + 1, pendingInput := none, status := .running } := by
  have advanced := (TurnState.transition_ok.mp step).2.2.2
  simp only [TurnState.advance] at advanced
  split at advanced
  case isTrue waiting =>
    simp only [bind_ok, require_ok, ensure_ok] at advanced
    obtain ⟨_, _, _, _, chosen⟩ := advanced
    exact ⟨waiting, (Except.ok.inj chosen).symm⟩
  case isFalse => cases advanced

theorem TurnState.transition_cancel (step : self.transition expectedRevision .cancel = .ok next) :
    self.status.terminal = false ∧ next = { self with
      revision := self.revision + 1
      status := .cancelling
      pendingInput := none
      pendingPermission := none } := by
  have advanced := (TurnState.transition_ok.mp step).2.2.2
  simp only [TurnState.advance] at advanced
  split at advanced
  case isTrue active =>
    refine ⟨?_, (Except.ok.inj advanced).symm⟩
    simp only [List.mem_cons, List.not_mem_nil, or_false] at active
    rcases active with status | status | status | status <;> simp [status, TurnStatus.terminal]
  case isFalse => cases advanced

theorem TurnState.transition_interrupt (step : self.transition expectedRevision .interrupt = .ok next) :
    self.status.terminal = false ∧
      next = { self with revision := self.revision + 1, status := .interrupted } := by
  have advanced := (TurnState.transition_ok.mp step).2.2.2
  simp only [TurnState.advance] at advanced
  split at advanced
  case isTrue active =>
    refine ⟨?_, (Except.ok.inj advanced).symm⟩
    simp only [List.mem_cons, List.not_mem_nil, or_false] at active
    rcases active with status | status <;> simp [status, TurnStatus.terminal]
  case isFalse => cases advanced

theorem TurnState.transition_fail {failure : TurnFailure}
    (step : self.transition expectedRevision (.fail failure) = .ok next) :
    self.status.terminal = false ∧ next = { self with
      revision := self.revision + 1
      status := .failed
      failure := some failure } := by
  have advanced := (TurnState.transition_ok.mp step).2.2.2
  simp only [TurnState.advance] at advanced
  split at advanced
  case isTrue active =>
    refine ⟨?_, (Except.ok.inj advanced).symm⟩
    simp only [List.mem_cons, List.not_mem_nil, or_false] at active
    rcases active with status | status | status <;> simp [status, TurnStatus.terminal]
  case isFalse => cases advanced

/-- A completion whose policy passes is a completed turn with its handoff. -/
theorem TurnState.transition_complete {handoff : Handoff} {policy : CompletionPolicy}
    (passes : policy.passes handoff = true)
    (step : self.transition expectedRevision (.complete handoff policy) = .ok next) :
    self.status = .running ∧ next = { self with
      revision := self.revision + 1
      status := .completed
      handoff := some handoff } := by
  have advanced := (TurnState.transition_ok.mp step).2.2.2
  simp only [TurnState.advance] at advanced
  split at advanced
  case isTrue running =>
    exact ⟨running, (Except.ok.inj advanced).symm⟩
  case isFalse => cases advanced

end Inversion

/-- Every optional field of a state belongs to exactly one status. -/
structure TurnState.Coherent (state : TurnState) : Prop where
  permission : state.pendingPermission.isSome = true ↔ state.status = .waitingPermission
  input : state.pendingInput.isSome = true ↔ state.status = .waitingInput
  failure : state.failure.isSome = true ↔ state.status = .failed
  handoff : state.handoff.isSome = true ↔ state.status = .completed

theorem TurnState.queued_coherent (turnId : TurnId) : (TurnState.queued turnId).Coherent := by
  constructor <;> simp [TurnState.queued]

theorem TurnState.advance_coherent {self result : TurnState} {revision : Nat} {transition : Transition}
    (coherent : self.Coherent) (alive : self.status ≠ .completed)
    (step : self.advance { self with revision := revision } transition = .ok result) : result.Coherent := by
  obtain ⟨permission, input, failure, handoff⟩ := coherent
  cases transition <;> simp only [TurnState.advance] at step
  case resolvePermission requestId allowed =>
    split at step
    · obtain ⟨pending, _, _, _, chosen⟩ := by simpa only [bind_ok] using step
      split at chosen <;> cases chosen <;> constructor <;> simp_all
    · cases step
  case provideInput requestId =>
    split at step
    · obtain ⟨pending, _, _, _, chosen⟩ := by simpa only [bind_ok] using step
      cases chosen
      constructor <;> simp_all
    · cases step
  case complete handoff policy =>
    split at step
    · split at step <;> cases step <;> constructor <;> simp_all
    · cases step
  case resume =>
    split at step
    case isTrue resumable =>
      cases step
      constructor <;> rcases resumable with interrupted | ⟨failed, _⟩ <;> simp_all
    case isFalse => cases step
  all_goals
    split at step <;> cases step
    constructor <;> grind

theorem TurnState.transition_coherent {self next : TurnState} {expectedRevision : Nat}
    {transition : Transition} (coherent : self.Coherent)
    (step : self.transition expectedRevision transition = .ok next) : next.Coherent := by
  obtain ⟨_, alive, _, advanced⟩ := TurnState.transition_ok.mp step
  exact TurnState.advance_coherent coherent alive advanced

end LatteCode
