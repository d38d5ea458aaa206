import LatteCode.Tui.Reduce
/- What the keys do that no request of the selected session owns. -/

namespace LatteCode.Tui

/-- Fields that such a key leaves alone. -/
structure Standing where
  connection : ConnectionState
  input : String
  queuedFollowUp : Option String
  deferredComposerDraft : Option String
  pendingInputSubmission : Option PendingInputSubmission
  renderedPermissionRequest : Option (SessionId × String)
  inputTarget : Option (SessionId × String)
  submissionRefresh : SubmissionRefreshState
  reconciliationConfirmation : Option (SessionId × String)
  reconciliationHint : Option (SessionId × String)

/-- What a submission takes from and leaves behind. -/
structure Desk where
  composer : String
  pendingSubmission : Option PendingSubmission
  nextSubmissionId : Nat

/-- The projection, and which session of it is selected. -/
structure Selection where
  sessions : List SessionSnapshot
  activeConversation : Option ActiveConversation
  selected : Nat

namespace SessionUiModel

variable (model : SessionUiModel)

def standing : Standing :=
  ⟨model.connection, model.input, model.queuedFollowUp, model.deferredComposerDraft, model.pendingInputSubmission,
    model.renderedPermissionRequest, model.inputTarget, model.submissionRefresh, model.reconciliationConfirmation,
    model.reconciliationHint⟩

def desk : Desk := ⟨model.composer, model.pendingSubmission, model.nextSubmissionId⟩

def selection : Selection := ⟨model.sessions, model.activeConversation, model.selected⟩

theorem selectedSession_congr {model model' : SessionUiModel} (same : model'.selection = model.selection) :
    model'.selectedSession = model.selectedSession := by
  rw [selectedSession, selectedSession, show model'.activeConversation = model.activeConversation from
    congrArg Selection.activeConversation same, show model'.sessions = model.sessions from
    congrArg Selection.sessions same, show model'.selected = model.selected from congrArg Selection.selected same]

end SessionUiModel

namespace SessionUiAction

/-- The submission that an action carries to the runtime. -/
def submission : SessionUiAction → Option (Nat × String)
  | start submissionId prompt => some (submissionId, prompt)
  | startWithModel submissionId prompt _ _ => some (submissionId, prompt)
  | followUp submissionId _ _ prompt => some (submissionId, prompt)
  | queueFollowUp submissionId _ prompt => some (submissionId, prompt)
  | _ => none

/-- An answer to what blocks a session. -/
def decides : SessionUiAction → Bool
  | resolvePermission .. | reconcileUnknown .. => true
  | _ => false

/-- Neither a submission nor a decision. -/
def Quiet (action : SessionUiAction) : Prop := action.submission = none ∧ action.decides = false

end SessionUiAction

/-- Submissions and what stands stay as they are, and nothing is submitted or decided. -/
structure Leaves (model : SessionUiModel) (reduced : Reduced) : Prop where
  standing : reduced.1.standing = model.standing
  pending : reduced.1.pendingSubmission = model.pendingSubmission
  next : reduced.1.nextSubmissionId = model.nextSubmissionId
  quiet : ∀ action ∈ reduced.2, action.Quiet

/-- Every way such a key can go. -/
inductive OpenMove (model : SessionUiModel) : Reduced → Prop
  | left {reduced : Reduced} (leaves : Leaves model reduced) : OpenMove model reduced
  | refused {model' : SessionUiModel} (standing : model'.standing = model.standing)
      (idle : model.pendingSubmission = none) (queued : model.queuedFollowUp ≠ none)
      (desk : model'.desk = ⟨model.composer, none, saturatingAdd model.nextSubmissionId 1⟩) : OpenMove model (model', [])
  | submitted {model' : SessionUiModel} {action : SessionUiAction} (standing : model'.standing = model.standing)
      (idle : model.pendingSubmission = none) (nonblank : trim model.composer ≠ "")
      (desk : model'.desk = model.takePrompt.desk)
      (carries : action.submission = some (model.nextSubmissionId, model.composer)) (decides : action.decides = false) :
      OpenMove model (model', [action])

theorem OpenMove.standing {model : SessionUiModel} {reduced : Reduced} (move : OpenMove model reduced) :
    reduced.1.standing = model.standing := by
  cases move with
  | left leaves => exact leaves.standing
  | refused standing | submitted standing => exact standing

namespace Leaves

variable {model middle model' : SessionUiModel}

/-- A change of other fields that asks for nothing. -/
theorem silent (standing : model'.standing = model.standing) (pending : model'.pendingSubmission = model.pendingSubmission)
    (next : model'.nextSubmissionId = model.nextSubmissionId) : Leaves model (model', []) :=
  ⟨standing, pending, next, List.forall_mem_nil _⟩

theorem asks {action : SessionUiAction} (standing : model'.standing = model.standing)
    (pending : model'.pendingSubmission = model.pendingSubmission) (next : model'.nextSubmissionId = model.nextSubmissionId)
    (quiet : action.Quiet) : Leaves model (model', [action]) :=
  ⟨standing, pending, next, List.forall_mem_singleton.mpr quiet⟩

/-- The same, seen from a model that differs in other fields. -/
theorem from_ {reduced : Reduced} (leaves : Leaves middle reduced) (standing : middle.standing = model.standing)
    (pending : middle.pendingSubmission = model.pendingSubmission)
    (next : middle.nextSubmissionId = model.nextSubmissionId) : Leaves model reduced :=
  ⟨leaves.standing.trans standing, leaves.pending.trans pending, leaves.next.trans next, leaves.quiet⟩

end Leaves

namespace SessionUiModel

variable (E : TuiEnvironment) (model : SessionUiModel)

theorem openModelPicker_leaves : Leaves model (model.openModelPicker, []) := by
  unfold openModelPicker
  split
  · exact .silent rfl rfl rfl
  · exact .silent rfl rfl rfl

theorem selectedSessionAction_leaves {action : SessionId → SessionUiAction} (quiet : ∀ sessionId, (action sessionId).Quiet) :
    Leaves model (model.selectedSessionAction action) := by
  unfold selectedSessionAction
  split
  case h_1 session _ => exact .asks rfl rfl rfl (quiet session.sessionId)
  case h_2 => exact .silent rfl rfl rfl

theorem dispatchSessionSearch_leaves (argument : String) : Leaves model (model.dispatchSessionSearch E argument) := by
  unfold dispatchSessionSearch
  split
  · exact .asks rfl rfl rfl ⟨rfl, rfl⟩
  split
  · exact .asks rfl rfl rfl ⟨rfl, rfl⟩
  split
  · exact .silent rfl rfl rfl
  · exact .asks rfl rfl rfl ⟨rfl, rfl⟩

theorem runBuiltin_leaves (argument : String) (command : BuiltinCommand) :
    Leaves model (model.runBuiltin E argument command) := by
  cases command with
  | new | help | navigation => exact .silent rfl rfl rfl
  | sessions => exact model.dispatchSessionSearch_leaves E argument
  | rename =>
      have quiet : ∀ sessionId, (SessionUiAction.renameSession sessionId argument).Quiet := fun _ => ⟨rfl, rfl⟩
      exact model.selectedSessionAction_leaves quiet
  | fork =>
      have quiet : ∀ sessionId, (SessionUiAction.forkSession sessionId
          (if argument = "" then none else some argument)).Quiet := fun _ => ⟨rfl, rfl⟩
      exact model.selectedSessionAction_leaves quiet
  | model => exact model.openModelPicker_leaves
  | refresh | quit => exact .asks rfl rfl rfl ⟨rfl, rfl⟩

theorem dispatchBuiltin_leaves (command : BuiltinCommand) (argument : String) :
    Leaves model (model.dispatchBuiltin E command argument) := by
  unfold dispatchBuiltin
  split
  · exact .silent rfl rfl rfl
  · exact model.runBuiltin_leaves E argument command

theorem runSuggestion_leaves (command : CommandDescriptor) : Leaves model (model.runSuggestion E command) := by
  have cleared : ∀ closed : SessionUiModel, closed.standing = model.standing →
      closed.pendingSubmission = model.pendingSubmission → closed.nextSubmissionId = model.nextSubmissionId →
        Leaves model (closed.dispatchBuiltin E command.id "") := fun closed standing pending next =>
    (closed.dispatchBuiltin_leaves E command.id "").from_ standing pending next
  unfold runSuggestion
  split
  · exact cleared _ rfl rfl rfl
  · exact cleared _ rfl rfl rfl

theorem reduceSlashPopupKey_leaves {key : KeyEvent} {reduced : Reduced}
    (taken : model.reduceSlashPopupKey E key = some reduced) : Leaves model reduced := by
  simp only [reduceSlashPopupKey] at taken
  cases found : model.slashPopupSuggestions[min model.slashIndex (model.slashPopupSuggestions.length - 1)]? with
  | none =>
    rw [found] at taken
    cases taken
  | some command =>
    simp only [found] at taken
    split at taken
    · cases taken
      exact .silent rfl rfl rfl
    split at taken
    · cases taken
      exact .silent rfl rfl rfl
    split at taken
    · cases taken
      exact .silent rfl rfl rfl
    split at taken
    · cases taken
      exact model.runSuggestion_leaves E command
    · cases taken

theorem reducePaletteKey_leaves (key : KeyEvent) : Leaves model (model.reducePaletteKey E key) := by
  unfold reducePaletteKey
  split
  · exact .silent rfl rfl rfl
  split
  · exact .silent rfl rfl rfl
  split
  · exact .silent rfl rfl rfl
  split
  · split
    · exact (dispatchBuiltin_leaves E _ _ "").from_ rfl rfl rfl
    · exact .silent rfl rfl rfl
  · exact .silent rfl rfl rfl

theorem reduceSessionPickerKey_leaves (key : KeyEvent) : Leaves model (model.reduceSessionPickerKey key) := by
  unfold reduceSessionPickerKey
  split
  · exact .silent rfl rfl rfl
  split
  · exact .silent rfl rfl rfl
  split
  · exact .silent rfl rfl rfl
  split
  · split
    · exact .asks rfl rfl rfl ⟨rfl, rfl⟩
    · exact .silent rfl rfl rfl
  · exact .silent rfl rfl rfl

theorem pickModel_leaves (option : SessionModelOption) : Leaves model (model.pickModel option) := by
  unfold pickModel
  simp only
  split
  · unfold switchModel
    split
    · exact .silent rfl rfl rfl
    split
    · exact .silent rfl rfl rfl
    · exact .asks rfl rfl rfl ⟨rfl, rfl⟩
  · exact .silent rfl rfl rfl

theorem reduceModelPickerKey_leaves (key : KeyEvent) (picker : ModelPickerState) :
    Leaves model (model.reduceModelPickerKey E key picker) := by
  unfold reduceModelPickerKey
  simp only
  split
  · exact .silent rfl rfl rfl
  split
  · exact .silent rfl rfl rfl
  split
  · exact .silent rfl rfl rfl
  split
  · exact .silent rfl rfl rfl
  split
  · split
    · exact .silent rfl rfl rfl
    · exact .silent rfl rfl rfl
  · split
    · split
      · exact model.pickModel_leaves _
      · exact .silent rfl rfl rfl
    · exact .silent rfl rfl rfl

theorem submitSlashCandidate_leaves {reduced : Reduced} (taken : model.submitSlashCandidate E = some reduced) :
    Leaves model reduced := by
  unfold submitSlashCandidate at taken
  split at taken
  · cases taken
  · cases taken
    exact .silent rfl rfl rfl
  · split at taken
    · cases taken
      exact .silent rfl rfl rfl
    · cases taken
      exact (dispatchBuiltin_leaves E _ _ _).from_ rfl rfl rfl

theorem startAction_submission (submissionId : Nat) (prompt : String) :
    (model.startAction submissionId prompt).submission = some (submissionId, prompt) ∧
      (model.startAction submissionId prompt).decides = false := by
  unfold startAction
  split
  · split
    · exact ⟨rfl, rfl⟩
    · exact ⟨rfl, rfl⟩
  · exact ⟨rfl, rfl⟩

/-- A prompt is submitted, or put back behind one that is queued already. -/
theorem submitPrompt_move (idle : model.pendingSubmission = none) (nonblank : trim model.composer ≠ "")
    (runnable : ∀ session, model.selectedSession = some session → session.lifecycle = .ready ∨ queues session = true) :
    OpenMove model model.submitPrompt := by
  unfold submitPrompt
  simp only
  split
  · have sent := model.startAction_submission model.nextSubmissionId model.composer
    exact .submitted rfl idle nonblank rfl sent.1 sent.2
  case h_2 session selected =>
    split
    · exact .submitted rfl idle nonblank rfl rfl rfl
    case isFalse unready =>
      split
      · exact .submitted rfl idle nonblank rfl rfl rfl
      case isFalse behind =>
        have running : queues session = true := (runnable session selected).resolve_left unready
        rw [running, Bool.true_and] at behind
        exact .refused rfl idle (fun none => behind (by rw [none]; rfl)) rfl

theorem submitComposer_move : OpenMove model (model.submitComposer E) := by
  unfold submitComposer
  split
  · exact .left (.silent rfl rfl rfl)
  case isFalse proceeds =>
    have idle : model.pendingSubmission = none :=
      Option.not_isSome_iff_eq_none.mp fun held => proceeds (.inl held)
    have nonblank : trim model.composer ≠ "" := fun blank => proceeds (.inr blank)
    split
    · exact .left (.silent rfl rfl rfl)
    split
    case h_1 reduced slash => exact .left (model.submitSlashCandidate_leaves E slash)
    split
    · exact .left (.silent rfl rfl rfl)
    split
    · exact .left (.silent rfl rfl rfl)
    case isFalse runnable =>
      refine model.submitPrompt_move idle nonblank fun session selected => ?_
      rw [selected] at runnable
      by_cases ready : session.lifecycle = .ready
      · exact .inl ready
      · refine .inr (Bool.of_not_eq_false fun idle => runnable ?_)
        simp [ready, idle]

theorem reduceComposerKey_move (key : KeyEvent) : OpenMove model (model.reduceComposerKey E key) := by
  unfold reduceComposerKey
  split
  · exact .left (.silent rfl rfl rfl)
  split
  · exact .left (.silent rfl rfl rfl)
  split
  · exact .left (.silent rfl rfl rfl)
  split
  · exact model.submitComposer_move E
  split
  · split
    · exact .left (.silent rfl rfl rfl)
    · exact .left (.silent rfl rfl rfl)
  · exact .left (.silent rfl rfl rfl)

theorem reduceNavigationKey_leaves (key : KeyEvent) : Leaves model (model.reduceNavigationKey key) := by
  unfold reduceNavigationKey
  split
  · exact .silent rfl rfl rfl
  split
  · exact .asks rfl rfl rfl ⟨rfl, rfl⟩
  split
  · exact .silent rfl rfl rfl
  split
  · exact .silent rfl rfl rfl
  split
  · exact .silent rfl rfl rfl
  split
  · exact .silent rfl rfl rfl
  · exact .silent rfl rfl rfl

theorem reduceOpenKey_move (key : KeyEvent) : OpenMove model (model.reduceOpenKey E key) := by
  unfold reduceOpenKey
  split
  · exact .left (model.reduceModelPickerKey_leaves E key _)
  split
  · exact .left (model.reduceSessionPickerKey_leaves key)
  split
  · exact .left (model.reducePaletteKey_leaves E key)
  split
  case h_1 reduced popup => exact .left (model.reduceSlashPopupKey_leaves E popup)
  split
  · exact .left (.silent rfl rfl rfl)
  split
  · exact model.reduceComposerKey_move E key
  · exact .left (model.reduceNavigationKey_leaves key)

/-- Any key but an interrupt forgets the interrupts before it. -/
def disarm : SessionUiModel := { model with ctrlCExitArmedUntil := none, ctrlCLastObservedAt := none }

/-- Who takes a key. -/
inductive KeyCase (key : KeyEvent) (now : Nat) : Reduced → Prop
  | released : KeyCase key now (model, [])
  | quits (code : key.code = .f 10) : KeyCase key now (model, [.quit])
  | interrupts (code : key.code = .char 'c') (control : key.control = true) : KeyCase key now (model.reduceInterrupt now)
  | refreshes (code : key.code = .char 'r') (control : key.control = true) (stale : model.connection ≠ .connected) :
      KeyCase key now (model.disarm, [.refreshSnapshots])
  | confirms (c : SessionId × String) (opened : model.reconciliationConfirmation = some c) :
      KeyCase key now (model.disarm.reduceConfirmationKey key c)
  | reconciles (session : SessionSnapshot) (closed : model.reconciliationConfirmation = none)
      (selected : model.selectedSession = some session) (required : session.lifecycle = .reconciliationRequired) :
      KeyCase key now (model.disarm.reduceReconciliationKey key session)
  | permits (session : SessionSnapshot) (request : SessionId × String) (closed : model.reconciliationConfirmation = none)
      (selected : model.selectedSession = some session) (pending : permissionRequest session = some request) :
      KeyCase key now (model.disarm.reducePermissionKey key request)
  | answers (session : SessionSnapshot) (turnId : TurnId) (requestId : String)
      (closed : model.reconciliationConfirmation = none) (selected : model.selectedSession = some session)
      (pending : inputRequest session = some (session.sessionId, requestId))
      (lifecycle : session.lifecycle ≠ .reconciliationRequired) :
      KeyCase key now (model.disarm.reduceInputKey E key session turnId requestId)
  | opens (closed : model.reconciliationConfirmation = none)
      (free : ∀ session, model.selectedSession = some session → session.lifecycle ≠ .reconciliationRequired ∧
        session.pending = none) : KeyCase key now (model.disarm.reduceOpenKey E key)

theorem disarm_selected : model.disarm.selectedSession = model.selectedSession := rfl

theorem reduceSessionKey_case (key : KeyEvent) (now : Nat) (closed : model.reconciliationConfirmation = none) :
    KeyCase E model key now (model.disarm.reduceSessionKey E key) := by
  unfold reduceSessionKey
  rw [disarm_selected]
  split
  case h_1 none =>
    refine .opens closed fun session selected => ?_
    rw [none] at selected
    cases selected
  case h_2 session selected =>
    split
    case isTrue required => exact .reconciles session closed selected required
    case isFalse lifecycle =>
      split
      case h_1 turnId requestId description revision pending =>
        exact .permits session _ closed selected (by rw [permissionRequest, pending])
      case h_2 turnId requestId prompt revision pending =>
        exact .answers session turnId requestId closed selected (by rw [inputRequest, pending]) lifecycle
      case h_3 pending =>
        refine .opens closed fun other same => ?_
        rw [selected] at same
        cases same
        exact ⟨lifecycle, pending⟩

theorem reduceKeyAt_case (key : KeyEvent) (now : Nat) : KeyCase E model key now (model.reduceKeyAt E key now) := by
  unfold reduceKeyAt
  split
  · exact .released
  split
  case isTrue code => exact .quits code
  split
  case isTrue interrupt => exact .interrupts interrupt.1 interrupt.2
  simp only
  split
  case isTrue refresh => exact .refreshes refresh.1 refresh.2.1 refresh.2.2
  split
  case h_1 c opened => exact .confirms c opened
  case h_2 closed => exact model.reduceSessionKey_case E key now closed

end SessionUiModel

end LatteCode.Tui
