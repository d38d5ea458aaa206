import LatteCode.Tui.Moves
/- What each input leaves alone of what the terminal shows: the projection, the open acknowledgement, the seen request. -/

namespace LatteCode.Tui
open Runs

/-- The projection with its selection and connection, the effect it has to reconcile, the acknowledgement that is open,
and the request that was seen. -/
structure Focus where
  selection : Selection
  connection : ConnectionState
  hint : Option (SessionId × String)
  confirmation : Option (SessionId × String)
  rendered : Option (SessionId × String)

namespace SessionUiModel

variable (E : TuiEnvironment) (model : SessionUiModel)

def focusOf : Focus :=
  ⟨model.selection, model.connection, model.reconciliationHint, model.reconciliationConfirmation,
    model.renderedPermissionRequest⟩

theorem confirmationHolds_congr {model model' : SessionUiModel} (same : model'.selection = model.selection)
    (hint : model'.reconciliationHint = model.reconciliationHint) (c : SessionId × String) :
    model'.confirmationHolds c = model.confirmationHolds c := by
  rw [confirmationHolds, confirmationHolds, selectedSession_congr same, hint]

/-- What an acknowledgement names: the selected session, which has to reconcile this effect. -/
theorem confirmationHolds_iff {c : SessionId × String} : model.confirmationHolds c = true ↔
    ∃ session, model.selectedSession = some session ∧ session.sessionId = c.1 ∧
      session.lifecycle = .reconciliationRequired ∧
      reconciliationEffectId model.reconciliationHint session = some c.2 := by
  rw [confirmationHolds, Option.any_eq_true]
  constructor
  · rintro ⟨session, selected, holds⟩
    rw [Bool.and_eq_true, Bool.and_eq_true, decide_eq_true_eq, decide_eq_true_eq, decide_eq_true_eq] at holds
    exact ⟨session, selected, holds.1.1, holds.1.2, holds.2⟩
  · rintro ⟨session, selected, own, required, effect⟩
    refine ⟨session, selected, ?_⟩
    rw [own, required, effect]
    simp

/-! ## Projections -/

theorem acceptSubmission_focus : model.acceptSubmission.focusOf = model.focusOf := by
  unfold acceptSubmission
  simp only
  split
  · split <;> rfl
  · rfl

theorem reconcilePendingSubmission_focus : (model.reconcilePendingSubmission E).focusOf = model.focusOf := by
  unfold reconcilePendingSubmission
  split
  · split
    · exact model.acceptSubmission_focus
    · rfl
  · rfl

theorem restorePendingSubmission_focus : model.restorePendingSubmission.focusOf = model.focusOf := by
  unfold restorePendingSubmission
  split <;> rfl

theorem reconcilePendingInputSubmission_focus :
    (model.reconcilePendingInputSubmission E).focusOf = model.focusOf := by
  unfold reconcilePendingInputSubmission
  split
  · split <;> rfl
  · rfl

theorem reconcilePendingModelSwitch_focus : model.reconcilePendingModelSwitch.focusOf = model.focusOf := by
  unfold reconcilePendingModelSwitch
  split
  · split <;> rfl
  · rfl

theorem finalizeFailedComposer_focus : model.finalizeFailedComposer.focusOf = model.focusOf := by
  unfold finalizeFailedComposer
  split
  · exact model.restorePendingSubmission_focus
  · rfl

theorem finalizeFailedInput_focus : model.finalizeFailedInput.focusOf = model.focusOf := by
  unfold finalizeFailedInput
  split
  · split <;> rfl
  · rfl

theorem restoreStrandedFollowUp_focus : model.restoreStrandedFollowUp.focusOf = model.focusOf := by
  unfold restoreStrandedFollowUp
  split
  · exact model.restorePendingSubmission_focus
  · rfl

theorem synchronizeInputTarget_focus : model.synchronizeInputTarget.focusOf = model.focusOf := by
  unfold synchronizeInputTarget
  split
  · rfl
  · simp only
    split <;> rfl

theorem settleProjection_focus : (model.settleProjection E).focusOf = model.focusOf := by
  rw [settleProjection, synchronizeInputTarget_focus, restoreStrandedFollowUp_focus,
    finalizeFailedSubmissionsAfterSnapshot, finalizeFailedInput_focus, finalizeFailedComposer_focus,
    reconcilePendingModelSwitch_focus, reconcilePendingInputSubmission_focus, reconcilePendingSubmission_focus]

theorem dispatchQueued_focus : model.dispatchQueued.1.focusOf = model.focusOf := by
  unfold dispatchQueued
  split <;> rfl

theorem adoptAssignedSession_confirmation :
    model.adoptAssignedSession.reconciliationConfirmation = model.reconciliationConfirmation := by
  unfold adoptAssignedSession
  split
  · split <;> rfl
  · rfl

theorem showSnapshot_confirmation (sessions : List SessionSnapshot) :
    (model.showSnapshot sessions).reconciliationConfirmation = model.reconciliationConfirmation := by
  have adopted := ({ model with sessions := sessions }).adoptAssignedSession_confirmation
  unfold showSnapshot closeOverlaysWhenBlocked
  simp only
  split
  · exact adopted
  · exact adopted

theorem showOpened_confirmation (snapshot : SessionSnapshot) :
    (model.showOpened snapshot).reconciliationConfirmation = model.reconciliationConfirmation := rfl

theorem showOpened_selected (snapshot : SessionSnapshot) : (model.showOpened snapshot).selectedSession = some snapshot := by
  change [snapshot].find? (fun session => session.sessionId = snapshot.sessionId) = some snapshot
  simp

theorem showOpened_hint (snapshot : SessionSnapshot) : (model.showOpened snapshot).reconciliationHint =
    (reconciliationEffectFromSnapshot snapshot).map fun effectId => (snapshot.sessionId, effectId) := by
  have selected := model.showOpened_selected snapshot
  unfold showOpened hintFromSnapshot at selected ⊢
  change SessionUiModel.selectedSession _ = some snapshot at selected
  exact congrArg (fun session => Option.bind session _) selected

/-- After a snapshot, an acknowledgement is open only for what the projection still shows. -/
theorem dropStaleConfirmation_holds {c : SessionId × String}
    (still : model.dropStaleConfirmation.reconciliationConfirmation = some c) :
    model.reconciliationConfirmation = some c ∧ model.dropStaleConfirmation.confirmationHolds c = true := by
  unfold dropStaleConfirmation at still ⊢
  split at still
  · cases still
  case isFalse fresh =>
    rw [if_neg fresh]
    rw [still] at fresh
    refine ⟨still, Bool.of_not_eq_false fun stale => fresh ?_⟩
    rw [Option.any_some, stale]
    rfl

/-! ## Other inputs -/

theorem reducePaste_focus (value : String) : (model.reducePaste value).focusOf = model.focusOf := by
  unfold reducePaste
  simp only
  split
  · rfl
  split
  · rfl
  · split <;> rfl

theorem recordProgress_focus (progress : SessionTransientProgress) :
    (model.recordProgress progress).focusOf = model.focusOf := by
  unfold recordProgress
  split <;> rfl

theorem reduceCatalogReady_focus (sessions : List SessionSummary) (query : Option String) :
    (model.reduceCatalogReady sessions query).1.focusOf = model.focusOf := by
  unfold reduceCatalogReady
  simp only
  split
  · rfl
  · split <;> rfl

theorem reduceSubmissionAssigned_confirmation (submissionId : Nat) (sessionId : SessionId) :
    (model.reduceSubmissionAssigned E submissionId sessionId).reconciliationConfirmation =
      model.reconciliationConfirmation := by
  unfold reduceSubmissionAssigned
  split
  · rfl
  · simp only
    refine (congrArg Focus.confirmation (reconcilePendingSubmission_focus E _)).trans ?_
    split
    · split <;> rfl
    · rfl

/-! ## Decisions -/

theorem dispatchQueued_decides {action : SessionUiAction} (emitted : action ∈ model.dispatchQueued.2) :
    action.decides = false := by
  unfold dispatchQueued at emitted
  split at emitted
  · rw [List.mem_singleton.mp emitted]
    rfl
  · cases emitted

theorem reduceEvent_decides {event : SessionEventEnvelope} {action : SessionUiAction}
    (emitted : action ∈ (model.reduceEvent E event).2) : action.decides = false := by
  unfold reduceEvent at emitted
  split at emitted
  · rw [List.mem_singleton.mp emitted]
    rfl
  split at emitted
  · rw [List.mem_singleton.mp emitted]
    rfl
  split at emitted
  · rw [List.mem_singleton.mp emitted]
    rfl
  · cases emitted

theorem reduceCatalogReady_decides {sessions : List SessionSummary} {query : Option String} {action : SessionUiAction}
    (emitted : action ∈ (model.reduceCatalogReady sessions query).2) : action.decides = false := by
  unfold reduceCatalogReady at emitted
  simp only at emitted
  split at emitted
  · cases emitted
  split at emitted
  · rw [List.mem_singleton.mp emitted]
    rfl
  · cases emitted
  · cases emitted

end SessionUiModel

theorem OpenMove.decides {model : SessionUiModel} {reduced : Reduced} (move : OpenMove model reduced)
    {action : SessionUiAction} (emitted : action ∈ reduced.2) : action.decides = false := by
  cases move with
  | left leaves => exact (leaves.quiet action emitted).2
  | refused => cases emitted
  | submitted standing idle nonblank desk carries decides =>
      rw [List.mem_singleton.mp emitted]
      exact decides

namespace SessionUiModel

variable {E : TuiEnvironment} {model : SessionUiModel}

theorem reduceInterrupt_decides {now : Nat} {action : SessionUiAction} (emitted : action ∈ (model.reduceInterrupt now).2) :
    action.decides = false := by
  unfold reduceInterrupt at emitted
  split at emitted
  · cases emitted
  split at emitted
  · rw [List.mem_singleton.mp emitted]
    rfl
  · simp only at emitted
    split at emitted
    · rw [List.mem_singleton.mp emitted]
      rfl
    · cases emitted

theorem reduceReconciliationKey_silent (key : KeyEvent) (session : SessionSnapshot) :
    (model.reduceReconciliationKey key session).2 = [] := by
  unfold reduceReconciliationKey
  split
  · split <;> rfl
  · rfl

theorem reduceConfirmationKey_emits {key : KeyEvent} {c : SessionId × String} {action : SessionUiAction}
    (emitted : action ∈ (model.reduceConfirmationKey key c).2) :
    action = .reconcileUnknown c.1 c.2 ∧ key.code = .char 'a' ∧ key.modifiers = .CONTROL := by
  unfold reduceConfirmationKey at emitted
  split at emitted
  · cases emitted
  split at emitted
  case isTrue confirms => exact ⟨List.mem_singleton.mp emitted, confirms.2⟩
  · split at emitted
    · cases emitted
    · cases emitted

theorem reducePermissionKey_emits {key : KeyEvent} {request : SessionId × String} {action : SessionUiAction}
    (emitted : action ∈ (model.reducePermissionKey key request).2) :
    model.authorityEnabled = true ∧ model.renderedPermissionRequest = some request ∧
      ((action = .resolvePermission request.1 request.2 false ∧ key.plain (.char 'd') = true) ∨
        (action = .resolvePermission request.1 request.2 true ∧ key.code = .char 'a' ∧ key.modifiers = .CONTROL)) := by
  unfold reducePermissionKey at emitted
  split at emitted
  case isTrue denies => exact ⟨denies.1, denies.2.1, .inl ⟨List.mem_singleton.mp emitted, denies.2.2⟩⟩
  split at emitted
  case isTrue allows => exact ⟨allows.1, allows.2.1, .inr ⟨List.mem_singleton.mp emitted, allows.2.2⟩⟩
  · cases emitted

theorem reduceInputKey_decides {key : KeyEvent} {session : SessionSnapshot} {turnId : TurnId} {requestId : String}
    {action : SessionUiAction} (emitted : action ∈ (model.reduceInputKey E key session turnId requestId).2) :
    action.decides = false := by
  unfold reduceInputKey at emitted
  split at emitted
  · cases emitted
  split at emitted
  · rw [List.mem_singleton.mp emitted]
    rfl
  split at emitted
  · cases emitted
  split at emitted
  · cases emitted
  split at emitted
  · split at emitted
    · cases emitted
    · cases emitted
  · cases emitted

/-- What answers a request or an acknowledgement, and under which key. -/
inductive Decision (model : SessionUiModel) (key : KeyEvent) : SessionUiAction → Prop
  | acknowledges {c : SessionId × String} (opened : model.reconciliationConfirmation = some c)
      (chord : key.code = .char 'a' ∧ key.modifiers = .CONTROL) : Decision model key (.reconcileUnknown c.1 c.2)
  | resolves {session : SessionSnapshot} {request : SessionId × String} {allow : Bool}
      (connected : model.authorityEnabled = true) (selected : model.selectedSession = some session)
      (pending : permissionRequest session = some request) (rendered : model.renderedPermissionRequest = some request)
      (chord : if allow then key.code = .char 'a' ∧ key.modifiers = .CONTROL else key.plain (.char 'd') = true) :
      Decision model key (.resolvePermission request.1 request.2 allow)

theorem reduceKeyAt_decides {key : KeyEvent} {now : Nat} {action : SessionUiAction}
    (emitted : action ∈ (model.reduceKeyAt E key now).2) (decides : action.decides = true) : Decision model key action := by
  have undecided : action.decides = false → Decision model key action := fun none =>
    absurd (none.symm.trans decides) Bool.false_ne_true
  have source := model.reduceKeyAt_case E key now
  revert emitted source
  generalize model.reduceKeyAt E key now = reduced
  intro emitted source
  cases source with
  | released => cases emitted
  | quits | refreshes =>
      refine undecided ?_
      rw [List.mem_singleton.mp emitted]
      rfl
  | interrupts => exact undecided (reduceInterrupt_decides emitted)
  | confirms c opened =>
      obtain ⟨rfl, chord⟩ := reduceConfirmationKey_emits emitted
      exact .acknowledges opened chord
  | reconciles session =>
      rw [reduceReconciliationKey_silent] at emitted
      cases emitted
  | permits session request closed selected pending =>
      obtain ⟨connected, rendered, ⟨rfl, chord⟩ | ⟨rfl, chord⟩⟩ := reducePermissionKey_emits emitted
      · exact .resolves connected selected pending rendered chord
      · exact .resolves connected selected pending rendered chord
  | answers => exact undecided (reduceInputKey_decides emitted)
  | opens => exact undecided ((model.disarm.reduceOpenKey_move E key).decides emitted)

end SessionUiModel

/-- Only a key decides anything. -/
theorem decides_key {E : TuiEnvironment} {model : SessionUiModel} {input : SessionUiInput} {action : SessionUiAction}
    (emitted : action ∈ (reduce E model input).2) (decides : action.decides = true) :
    ∃ key now, input = .key key now := by
  have undecided : action.decides = false → ∃ key now, input = .key key now := fun none =>
    absurd (none.symm.trans decides) Bool.false_ne_true
  -- an answer is either nothing or a refresh
  have refreshes : ∀ {p : Prop} [Decidable p] {first second : SessionUiModel},
      action ∈ (if p then (first, [.refreshSnapshots]) else (second, []) : Reduced).2 → action.decides = false := by
    intro p _ first second member
    split at member
    · rw [List.mem_singleton.mp member]
      rfl
    · cases member
  have silent : ∀ {p : Prop} [Decidable p] {first second : SessionUiModel},
      action ∈ (if p then (first, []) else (second, []) : Reduced).2 → action.decides = false := by
    intro p _ first second member
    split at member
    · cases member
    · cases member
  cases input with
  | key key now => exact ⟨key, now, rfl⟩
  | mouse | paste | resize | frameRendered | sessionCatalog | progress | connected | disconnected | commandError
  | commandCompleted | submissionAssigned | sessionOpened | tick | contextUsage => cases emitted
  | snapshot sessions => exact undecided (SessionUiModel.dispatchQueued_decides _ emitted)
  | sessionCatalogReady sessions query => exact undecided (model.reduceCatalogReady_decides emitted)
  | event event => exact undecided (model.reduceEvent_decides E emitted)
  | lagged =>
      refine undecided ?_
      rw [List.mem_singleton.mp emitted]
      rfl
  | submissionError | inputSubmissionError | modelSwitchCompleted => exact undecided (refreshes emitted)
  | submissionCompleted | inputSubmissionCompleted | modelSwitchError => exact undecided (silent emitted)

end LatteCode.Tui
