import LatteCode.Tui.Reconciliation
/- What takes the terminal to another conversation or another model, and whether the switch guard stands before it. -/

namespace LatteCode.Tui

/-- An action that opens another session, or switches the model of the open one. -/
def SessionUiAction.replaces : SessionUiAction → Bool
  | .openSession _ | .switchModel .. => true
  | _ => false

/-- The conversation and its model stay: nothing asks for another, and no new draft takes their place. -/
structure Calm (model : SessionUiModel) (reduced : Reduced) : Prop where
  asks : ∀ action ∈ reduced.2, action.replaces = false
  drafts : reduced.1.activeConversation = some .newSessionDraft → model.activeConversation = some .newSessionDraft

/-- A key that no confirmation and no request of the selected session takes. -/
structure Free (model : SessionUiModel) (key : KeyEvent) : Prop where
  pressed : key.kind ≠ .release
  closed : model.reconciliationConfirmation = none
  free : ∀ session, model.selectedSession = some session → session.lifecycle ≠ .reconciliationRequired ∧
    session.pending = none

/-- The input runs a slash command: the suggestion under the cursor, or the command in the composer. -/
inductive SlashCommand (E : TuiEnvironment) (model : SessionUiModel) : SessionUiInput → BuiltinCommand → Prop
  | suggested {key : KeyEvent} {now : Nat} {descriptor : CommandDescriptor} (free : Free model key)
      (enter : key.code = .enter) (modifiers : key.modifiers = .empty ∨ key.modifiers = .CONTROL)
      (authority : model.authorityEnabled = true)
      (suggestion : model.slashPopupSuggestions[min model.slashIndex (model.slashPopupSuggestions.length - 1)]? =
        some descriptor) : SlashCommand E model (.key key now) descriptor.id
  | submitted {key : KeyEvent} {now : Nat} {descriptor : CommandDescriptor} {argument : String} (free : Free model key)
      (submits : isSubmit key = true) (authority : model.authorityEnabled = true) (focused : model.focus = .composer)
      (overlays : model.modelPicker = none ∧ model.sessionPicker = false ∧ model.commandPalette = false)
      (popup : model.disarm.reduceSlashPopupKey E key = none) (idle : model.pendingSubmission = none)
      (settled : model.pendingModelSwitch = none) (nonblank : trim model.composer ≠ "")
      (resolved : resolveSlash model.composer = .command descriptor argument) :
      SlashCommand E model (.key key now) descriptor.id

/-- The guard of the switches, for one input. -/
structure Guarded (E : TuiEnvironment) (model : SessionUiModel) (input : SessionUiInput) : Prop where
  switching : ¬ Calm model (reduce E model input) → model.sessionSwitchAvailable = true
  refusing : ∀ command, SlashCommand E model input command → SessionUiModel.switches command = true →
    model.sessionSwitchAvailable = false →
      (reduce E model input).1 = { model with status := (reduce E model input).1.status }

/-- Inputs that replace the conversation or its model without asking the guard. -/
inductive Unasked (model : SessionUiModel) : SessionUiInput → Prop
  | picksSession {key : KeyEvent} {now : Nat} {session : SessionSummary} (free : Free model key)
      (overlays : model.modelPicker = none ∧ model.sessionPicker = true) (enter : key.code = .enter)
      (listed : model.sessionCatalog[model.sessionIndex]? = some session) : Unasked model (.key key now)
  | picksModel {key : KeyEvent} {now : Nat} {picker : ModelPickerState} {option : SessionModelOption}
      {session : SessionSnapshot} (free : Free model key) (picking : model.modelPicker = some picker)
      (enter : key.plain .enter = true) (listed : model.filteredModelOptions[picker.index]? = some option)
      (selected : model.selectedSession = some session)
      (ready : session.lifecycle = .ready ∧ session.activeTurnId = none ∧ session.pending = none)
      (other : ¬ (session.binding.providerName = option.providerName ∧ session.binding.model = option.model)) :
      Unasked model (.key key now)
  | answers {sessions : List SessionSummary} {query : String} {session : SessionSummary} (asked : query ≠ "")
      (found : (sessions.filter fun session => session.sessionId.toString = query || session.title = query) =
        [session]) :
      Unasked model (.sessionCatalogReady sessions (some query))

/-- What stands in for the guard where it is not asked. -/
structure Spared (E : TuiEnvironment) (model : SessionUiModel) (input : SessionUiInput) : Prop where
  switching : Unasked model input → model.sessionSwitchAvailable = true
  refusing : ∀ command, SlashCommand E model input command → SessionUiModel.switches command = true →
    model.sessionSwitchAvailable = false →
      SessionUiModel.keepsComposer command = true ∧ model.ctrlCExitArmedUntil = none ∧ model.ctrlCLastObservedAt = none

namespace SessionUiModel

variable (E : TuiEnvironment) (model : SessionUiModel)

/-! ## Keys -/

/-- A step that asks for nothing and keeps the conversation. -/
theorem calm_silent {model model' : SessionUiModel} (same : model'.activeConversation = model.activeConversation) :
    Calm model (model', []) :=
  ⟨List.forall_mem_nil _, fun drafted => same ▸ drafted⟩

theorem calm_asks {model model' : SessionUiModel} {action : SessionUiAction}
    (same : model'.activeConversation = model.activeConversation) (other : action.replaces = false) :
    Calm model (model', [action]) :=
  ⟨List.forall_mem_singleton.mpr other, fun drafted => same ▸ drafted⟩

/-- The guard looks at what is pending and at the selected session only. -/
theorem sessionSwitchAvailable_congr {model model' : SessionUiModel} (same : model'.selection = model.selection)
    (pending : model'.pendingSubmission = model.pendingSubmission)
    (switch : model'.pendingModelSwitch = model.pendingModelSwitch) :
    model'.sessionSwitchAvailable = model.sessionSwitchAvailable := by
  rw [sessionSwitchAvailable, sessionSwitchAvailable, selectedSession_congr same, pending, switch]

/-- Either the guard lets the step pass, or it keeps the conversation. -/
def Asked (model : SessionUiModel) (reduced : Reduced) : Prop :=
  model.sessionSwitchAvailable = true ∨ Calm model reduced

theorem openModelPicker_calm : Calm model (model.openModelPicker, []) := by
  unfold openModelPicker
  split
  · exact calm_silent rfl
  · exact calm_silent rfl

theorem selectedSessionAction_calm {action : SessionId → SessionUiAction}
    (other : ∀ sessionId, (action sessionId).replaces = false) : Calm model (model.selectedSessionAction action) := by
  unfold selectedSessionAction
  split
  case h_1 session _ => exact calm_asks rfl (other session.sessionId)
  case h_2 => exact calm_silent rfl

theorem dispatchSessionSearch_calm (argument : String) : Calm model (model.dispatchSessionSearch E argument) := by
  unfold dispatchSessionSearch
  split
  · exact calm_asks rfl rfl
  split
  · exact calm_asks rfl rfl
  split
  · exact calm_silent rfl
  · exact calm_asks rfl rfl

theorem dispatchBuiltin_asked (command : BuiltinCommand) (argument : String) :
    Asked model (model.dispatchBuiltin E command argument) := by
  unfold dispatchBuiltin
  split
  case isTrue => exact .inr (calm_silent rfl)
  case isFalse passed =>
    cases command with
    | new =>
        refine .inl (Bool.not_eq_false _ ▸ fun unavailable => passed ?_)
        rw [unavailable]
        rfl
    | sessions => exact .inr (model.dispatchSessionSearch_calm E argument)
    | rename =>
        have other : ∀ sessionId, (SessionUiAction.renameSession sessionId argument).replaces = false := fun _ => rfl
        exact .inr (model.selectedSessionAction_calm other)
    | fork =>
        have other : ∀ sessionId, (SessionUiAction.forkSession sessionId
            (if argument = "" then none else some argument)).replaces = false := fun _ => rfl
        exact .inr (model.selectedSessionAction_calm other)
    | model => exact .inr model.openModelPicker_calm
    | help | navigation => exact .inr (calm_silent rfl)
    | refresh | quit => exact .inr (calm_asks rfl rfl)

/-- The same, from a model that differs in neither what is pending nor the selection. -/
theorem Asked.from_ {model middle : SessionUiModel} {reduced : Reduced} (asked : Asked middle reduced)
    (same : middle.selection = model.selection) (pending : middle.pendingSubmission = model.pendingSubmission)
    (switch : middle.pendingModelSwitch = model.pendingModelSwitch) : Asked model reduced := by
  rcases asked with available | calm
  · exact .inl (sessionSwitchAvailable_congr same pending switch ▸ available)
  · refine .inr ⟨calm.asks, fun drafted => ?_⟩
    have same' : middle.activeConversation = model.activeConversation := congrArg Selection.activeConversation same
    rw [← same']
    exact calm.drafts drafted

theorem runSuggestion_asked (command : CommandDescriptor) : Asked model (model.runSuggestion E command) := by
  unfold runSuggestion
  split
  · exact (dispatchBuiltin_asked E _ command.id "").from_ rfl rfl rfl
  · exact dispatchBuiltin_asked E _ command.id ""

theorem reduceSlashPopupKey_asked {key : KeyEvent} {reduced : Reduced}
    (taken : model.reduceSlashPopupKey E key = some reduced) : Asked model reduced := by
  simp only [reduceSlashPopupKey] at taken
  cases found : model.slashPopupSuggestions[min model.slashIndex (model.slashPopupSuggestions.length - 1)]? with
  | none =>
      rw [found] at taken
      cases taken
  | some command =>
      simp only [found] at taken
      split at taken
      · cases taken
        exact .inr (calm_silent rfl)
      split at taken
      · cases taken
        exact .inr (calm_silent rfl)
      split at taken
      · cases taken
        exact .inr (calm_silent rfl)
      split at taken
      · cases taken
        exact model.runSuggestion_asked E command
      · cases taken

theorem reducePaletteKey_asked (key : KeyEvent) : Asked model (model.reducePaletteKey E key) := by
  unfold reducePaletteKey
  split
  · exact .inr (calm_silent rfl)
  split
  · exact .inr (calm_silent rfl)
  split
  · exact .inr (calm_silent rfl)
  split
  · split
    case h_1 command _ => exact (dispatchBuiltin_asked E _ command.id "").from_ rfl rfl rfl
    case h_2 => exact .inr (calm_silent rfl)
  · exact .inr (calm_silent rfl)

/-! ## Pickers -/

theorem reduceSessionPickerKey_calm (key : KeyEvent) (unpicked : ∀ session,
    model.sessionCatalog[model.sessionIndex]? = some session → key.code ≠ .enter) :
    Calm model (model.reduceSessionPickerKey key) := by
  unfold reduceSessionPickerKey
  split
  · exact calm_silent rfl
  split
  · exact calm_silent rfl
  split
  · exact calm_silent rfl
  split
  case isTrue enter =>
    split
    case h_1 session listed => exact absurd enter (unpicked session listed)
    case h_2 => exact calm_silent rfl
  · exact calm_silent rfl

theorem pickModel_calm (option : SessionModelOption) (unpicked : ∀ session, model.selectedSession = some session →
    session.lifecycle = .ready ∧ session.activeTurnId = none ∧ session.pending = none →
      session.binding.providerName = option.providerName ∧ session.binding.model = option.model) :
    Calm model (model.pickModel option) := by
  have closed : ({ model with modelPicker := none } : SessionUiModel).selectedSession = model.selectedSession := rfl
  unfold pickModel
  simp only [closed]
  split
  case h_1 session selected =>
    unfold switchModel
    split
    · exact calm_silent rfl
    case isFalse ready =>
      rw [not_or, not_or, Classical.not_not, Classical.not_not, Classical.not_not] at ready
      rw [if_pos (unpicked session selected ready)]
      exact calm_silent rfl
  case h_2 => exact calm_silent rfl

theorem reduceModelPickerKey_calm (key : KeyEvent) (picker : ModelPickerState) (unpicked : ∀ option session,
    key.plain .enter = true → model.filteredModelOptions[picker.index]? = some option →
      model.selectedSession = some session →
        session.lifecycle = .ready ∧ session.activeTurnId = none ∧ session.pending = none →
          session.binding.providerName = option.providerName ∧ session.binding.model = option.model) :
    Calm model (model.reduceModelPickerKey E key picker) := by
  unfold reduceModelPickerKey
  simp only
  split
  · exact calm_silent rfl
  split
  · exact calm_silent rfl
  split
  · exact calm_silent rfl
  split
  · exact calm_silent rfl
  split
  · split
    · exact calm_silent rfl
    · exact calm_silent rfl
  · split
    case isTrue enter =>
      split
      case h_1 option listed =>
        exact model.pickModel_calm option fun session selected => unpicked option session enter listed selected
      case h_2 => exact calm_silent rfl
    · exact calm_silent rfl

/-! ## The composer -/

theorem submitSlashCandidate_asked {reduced : Reduced} (taken : model.submitSlashCandidate E = some reduced) :
    Asked model reduced := by
  unfold submitSlashCandidate at taken
  split at taken
  · cases taken
  · cases taken
    exact .inr (calm_silent rfl)
  case h_3 descriptor argument _ =>
    split at taken
    · cases taken
      exact .inr (calm_silent rfl)
    · cases taken
      exact (dispatchBuiltin_asked E _ descriptor.id argument).from_ rfl rfl rfl

theorem startAction_replaces (submissionId : Nat) (prompt : String) :
    (model.startAction submissionId prompt).replaces = false := by
  unfold startAction
  split
  · split
    · rfl
    · rfl
  · rfl

theorem submitPrompt_calm : Calm model model.submitPrompt := by
  unfold submitPrompt
  simp only
  split
  · exact calm_asks rfl (model.startAction_replaces _ _)
  split
  · exact calm_asks rfl rfl
  split
  · exact calm_asks rfl rfl
  · exact calm_silent rfl

theorem submitComposer_asked : Asked model (model.submitComposer E) := by
  unfold submitComposer
  split
  · exact .inr (calm_silent rfl)
  split
  · exact .inr (calm_silent rfl)
  split
  case h_1 reduced slash => exact model.submitSlashCandidate_asked E slash
  split
  · exact .inr (calm_silent rfl)
  split
  · exact .inr (calm_silent rfl)
  · exact .inr model.submitPrompt_calm

theorem reduceComposerKey_asked (key : KeyEvent) : Asked model (model.reduceComposerKey E key) := by
  unfold reduceComposerKey
  split
  · exact .inr (calm_silent rfl)
  split
  · exact .inr (calm_silent rfl)
  split
  · exact .inr (calm_silent rfl)
  split
  · exact model.submitComposer_asked E
  split
  · split
    · exact .inr (calm_silent rfl)
    · exact .inr (calm_silent rfl)
  · exact .inr (calm_silent rfl)

theorem reduceNavigationKey_calm (key : KeyEvent) : Calm model (model.reduceNavigationKey key) := by
  unfold reduceNavigationKey
  split
  · exact calm_silent rfl
  split
  · exact calm_asks rfl rfl
  split
  · exact calm_silent rfl
  split
  · exact calm_silent rfl
  split
  · exact calm_silent rfl
  split
  · exact calm_silent rfl
  · exact calm_silent rfl

/-! ## Who takes the key -/

theorem reduceOpenKey_asked {key : KeyEvent} (free : Free model key) (now : Nat)
    (unpicked : ¬ Unasked model (.key key now)) : Asked model (model.disarm.reduceOpenKey E key) := by
  unfold reduceOpenKey
  split
  case h_1 picker picking =>
    refine Asked.from_ (.inr (model.disarm.reduceModelPickerKey_calm E key picker ?_)) rfl rfl rfl
    intro option session enter listed selected ready
    exact Decidable.byContradiction fun other => unpicked (.picksModel free picking enter listed selected ready other)
  case h_2 unpicking =>
    split
    case isTrue listing =>
      have calm := model.disarm.reduceSessionPickerKey_calm key fun session listed enter =>
        unpicked (.picksSession free ⟨unpicking, listing⟩ enter listed)
      exact Asked.from_ (.inr calm) rfl rfl rfl
    split
    · exact (model.disarm.reducePaletteKey_asked E key).from_ rfl rfl rfl
    split
    case h_1 reduced popup => exact (model.disarm.reduceSlashPopupKey_asked E popup).from_ rfl rfl rfl
    split
    · exact .inr (calm_silent rfl)
    split
    · exact (model.disarm.reduceComposerKey_asked E key).from_ rfl rfl rfl
    · exact Asked.from_ (.inr (model.disarm.reduceNavigationKey_calm key)) rfl rfl rfl

theorem reduceInterrupt_calm (now : Nat) : Calm model (model.reduceInterrupt now) := by
  unfold reduceInterrupt
  split
  · exact calm_silent rfl
  split
  · exact calm_asks rfl rfl
  · simp only
    split
    · exact calm_asks rfl rfl
    · exact calm_silent rfl

theorem reduceConfirmationKey_calm (key : KeyEvent) (confirmation : SessionId × String) :
    Calm model (model.reduceConfirmationKey key confirmation) := by
  unfold reduceConfirmationKey
  split
  · exact calm_silent rfl
  split
  · exact calm_asks rfl rfl
  split
  · exact calm_silent rfl
  · exact calm_silent rfl

theorem reduceReconciliationKey_calm (key : KeyEvent) (session : SessionSnapshot) :
    Calm model (model.reduceReconciliationKey key session) := by
  unfold reduceReconciliationKey
  split
  · split
    · exact calm_silent rfl
    · exact calm_silent rfl
  · exact calm_silent rfl

theorem reducePermissionKey_calm (key : KeyEvent) (request : SessionId × String) :
    Calm model (model.reducePermissionKey key request) := by
  unfold reducePermissionKey
  split
  · exact calm_asks rfl rfl
  split
  · exact calm_asks rfl rfl
  · exact calm_silent rfl

theorem reduceInputKey_calm (key : KeyEvent) (session : SessionSnapshot) (turnId : TurnId) (requestId : String) :
    Calm model (model.reduceInputKey E key session turnId requestId) := by
  unfold reduceInputKey
  split
  · exact calm_silent rfl
  split
  · exact calm_asks rfl rfl
  split
  · exact calm_silent rfl
  split
  · exact calm_silent rfl
  split
  · split
    · exact calm_silent rfl
    · exact calm_silent rfl
  · exact calm_silent rfl

theorem reduceKeyAt_asked (key : KeyEvent) (now : Nat) (unpicked : ¬ Unasked model (.key key now)) :
    Asked model (model.reduceKeyAt E key now) := by
  by_cases released : key.kind = .release
  · rw [reduceKeyAt, if_pos released]
    exact .inr (calm_silent rfl)
  · have taken := model.reduceKeyAt_case E key now
    generalize model.reduceKeyAt E key now = reduced at taken ⊢
    cases taken with
    | released => exact .inr (calm_silent rfl)
    | quits => exact .inr (calm_asks rfl rfl)
    | interrupts => exact .inr (model.reduceInterrupt_calm now)
    | refreshes => exact .inr (calm_asks rfl rfl)
    | confirms confirmation =>
        exact Asked.from_ (.inr (model.disarm.reduceConfirmationKey_calm key confirmation)) rfl rfl rfl
    | reconciles session =>
        exact Asked.from_ (.inr (model.disarm.reduceReconciliationKey_calm key session)) rfl rfl rfl
    | permits session request =>
        exact Asked.from_ (.inr (model.disarm.reducePermissionKey_calm key request)) rfl rfl rfl
    | answers session turnId requestId =>
        exact Asked.from_ (.inr (model.disarm.reduceInputKey_calm E key session turnId requestId)) rfl rfl rfl
    | opens closed free => exact model.reduceOpenKey_asked E ⟨released, closed, free⟩ now unpicked

/-! ## Other inputs -/

theorem active_of_focus {model model' : SessionUiModel} (same : model'.focusOf = model.focusOf) :
    model'.activeConversation = model.activeConversation :=
  congrArg (fun focus => focus.selection.activeConversation) same

/-- A draft that is given the session it was submitted to is the same conversation. -/
theorem adoptAssignedSession_drafts (drafted : model.adoptAssignedSession.activeConversation = some .newSessionDraft) :
    model.activeConversation = some .newSessionDraft := by
  unfold adoptAssignedSession at drafted
  split at drafted
  case h_1 _ _ active _ => exact active
  case h_2 => exact drafted

theorem closeOverlaysWhenBlocked_active :
    model.closeOverlaysWhenBlocked.activeConversation = model.activeConversation := by
  unfold closeOverlaysWhenBlocked
  split <;> rfl

theorem showSnapshot_drafts {sessions : List SessionSnapshot}
    (drafted : (model.showSnapshot sessions).activeConversation = some .newSessionDraft) :
    model.activeConversation = some .newSessionDraft := by
  have shown : (model.showSnapshot sessions).activeConversation =
      ({ model with sessions := sessions } : SessionUiModel).adoptAssignedSession.activeConversation := by
    unfold showSnapshot hintFromSnapshot
    exact closeOverlaysWhenBlocked_active _
  exact ({ model with sessions := sessions } : SessionUiModel).adoptAssignedSession_drafts (shown.symm.trans drafted)

theorem dropStaleConfirmation_active : model.dropStaleConfirmation.activeConversation = model.activeConversation := by
  unfold dropStaleConfirmation
  split <;> rfl

theorem dispatchQueued_replaces : ∀ action ∈ model.dispatchQueued.2, action.replaces = false := by
  unfold dispatchQueued
  split
  · exact List.forall_mem_singleton.mpr rfl
  · exact List.forall_mem_nil _

theorem reduceSnapshot_calm (sessions : List SessionSnapshot) : Calm model (model.reduceSnapshot E sessions) := by
  refine ⟨dispatchQueued_replaces _, fun drafted => ?_⟩
  rw [reduceSnapshot, active_of_focus (dispatchQueued_focus _), dropStaleConfirmation_active,
    active_of_focus (settleProjection_focus E _)] at drafted
  exact model.showSnapshot_drafts drafted

theorem reduceSessionOpened_calm (snapshot : SessionSnapshot) : Calm model (model.reduceSessionOpened E snapshot) := by
  refine ⟨List.forall_mem_nil _, fun drafted => ?_⟩
  rw [reduceSessionOpened, active_of_focus (settleProjection_focus E _)] at drafted
  cases drafted

theorem reduceEvent_calm (event : SessionEventEnvelope) : Calm model (model.reduceEvent E event) := by
  unfold reduceEvent
  split
  · exact calm_asks rfl rfl
  split
  · exact calm_asks rfl rfl
  split
  · exact calm_asks rfl rfl
  · refine calm_silent ?_
    rw [active_of_focus (synchronizeInputTarget_focus _), active_of_focus (reconcilePendingInputSubmission_focus E _),
      active_of_focus (reconcilePendingSubmission_focus E _)]
    rfl

theorem reduceSubmissionAssigned_drafts {submissionId : Nat} {sessionId : SessionId}
    (drafted : (model.reduceSubmissionAssigned E submissionId sessionId).activeConversation = some .newSessionDraft) :
    model.activeConversation = some .newSessionDraft := by
  unfold reduceSubmissionAssigned at drafted
  split at drafted
  · exact drafted
  · simp only [active_of_focus (reconcilePendingSubmission_focus E _)] at drafted
    split at drafted
    · split at drafted
      case isTrue active => exact active
      case isFalse => exact drafted
    · exact drafted

theorem reduceCatalogReady_calm (sessions : List SessionSummary) (query : Option String)
    (unanswered : ¬ Unasked model (.sessionCatalogReady sessions query)) :
    Calm model (model.reduceCatalogReady sessions query) := by
  unfold reduceCatalogReady
  simp only
  split
  · exact calm_silent rfl
  case h_2 text asked =>
    rw [Option.filter_eq_some_iff, decide_eq_true_eq] at asked
    obtain ⟨rfl, typed⟩ := asked
    split
    case h_1 session found => exact absurd (.answers typed found) unanswered
    case h_2 => exact calm_silent rfl
    case h_3 => exact calm_silent rfl

theorem reduce_asked {input : SessionUiInput} (unasked : ¬ Unasked model input) :
    Asked model (reduce E model input) := by
  cases input with
  | key key now => exact model.reduceKeyAt_asked E key now unasked
  | sessionCatalogReady sessions query => exact .inr (model.reduceCatalogReady_calm sessions query unasked)
  | snapshot sessions => exact .inr (model.reduceSnapshot_calm E sessions)
  | sessionOpened snapshot => exact .inr (model.reduceSessionOpened_calm E snapshot)
  | event event => exact .inr (model.reduceEvent_calm E event)
  | paste value => exact .inr (calm_silent (active_of_focus (model.reducePaste_focus value)))
  | progress progress => exact .inr (calm_silent (active_of_focus (model.recordProgress_focus progress)))
  | submissionAssigned submissionId sessionId =>
      exact .inr ⟨List.forall_mem_nil _, fun drafted => model.reduceSubmissionAssigned_drafts E drafted⟩
  | mouse kind => cases kind <;> exact .inr (calm_silent rfl)
  | lagged => exact .inr (calm_asks rfl rfl)
  | submissionError | inputSubmissionError | modelSwitchCompleted =>
      refine .inr ?_
      rw [reduce]
      split
      · exact calm_asks rfl rfl
      · exact calm_silent rfl
  | submissionCompleted | inputSubmissionCompleted | modelSwitchError =>
      refine .inr ?_
      rw [reduce]
      split
      · exact calm_silent rfl
      · exact calm_silent rfl
  | resize | frameRendered | sessionCatalog | connected | disconnected | commandError | commandCompleted | tick
  | contextUsage => exact .inr (calm_silent rfl)

/-! ## Refused commands -/

theorem reduceSessionKey_free {key : KeyEvent} (free : Free model key) :
    model.disarm.reduceSessionKey E key = model.disarm.reduceOpenKey E key := by
  unfold reduceSessionKey
  rw [disarm_selected]
  cases selected : model.selectedSession with
  | none => rfl
  | some session =>
      obtain ⟨settled, unasked⟩ := free.free session selected
      simp only [if_neg settled, unasked]

/-- `Enter` and `F5` go to what is open. -/
theorem reduceKeyAt_free {key : KeyEvent} (free : Free model key) (now : Nat)
    (submits : key.code = .enter ∨ key.code = .f 5) :
    model.reduceKeyAt E key now = model.disarm.reduceOpenKey E key := by
  have other : ∀ code ∈ [KeyCode.f 10, .char 'c', .char 'r'], key.code ≠ code := by
    rcases submits with code | code
    · rw [code]
      decide
    · rw [code]
      decide
  have quits : key.code ≠ .f 10 := other _ (by decide)
  have interrupts : key.code ≠ .char 'c' := other _ (by decide)
  have refreshes : key.code ≠ .char 'r' := other _ (by decide)
  unfold reduceKeyAt
  rw [if_neg free.pressed, if_neg quits, if_neg fun interrupt => interrupts interrupt.1]
  simp only
  rw [if_neg fun refresh => refreshes refresh.1]
  split
  case h_1 confirmation opened =>
    rw [free.closed] at opened
    cases opened
  case h_2 => exact model.reduceSessionKey_free E free

theorem dispatchBuiltin_refused {command : BuiltinCommand} (argument : String) (switching : switches command = true)
    (unavailable : model.sessionSwitchAvailable = false) :
    model.dispatchBuiltin E command argument = ({ model with status := SWITCHING_DISABLED }, []) := by
  rw [dispatchBuiltin, switching, unavailable]
  rfl

/-- Suggestions stand under no overlay, and for a composer that names a command. -/
theorem slashPopupSuggestions_some {index : Nat} {descriptor : CommandDescriptor}
    (suggestion : model.slashPopupSuggestions[index]? = some descriptor) :
    (model.modelPicker = none ∧ model.sessionPicker = false ∧ model.commandPalette = false) ∧ model.composer ≠ "" := by
  unfold slashPopupSuggestions at suggestion
  split at suggestion
  · cases suggestion
  case isFalse eligible =>
    simp only [Bool.or_eq_true, not_or, Bool.not_eq_true, Option.isSome_eq_false_iff, Option.isNone_iff_eq_none]
      at eligible
    refine ⟨⟨eligible.1.2, eligible.1.1.2, eligible.1.1.1.2⟩, fun empty => ?_⟩
    rw [empty] at suggestion
    cases suggestion

theorem runSuggestion_spared {command : CommandDescriptor} (switching : switches command.id = true)
    (unavailable : model.sessionSwitchAvailable = false) (keeps : keepsComposer command.id = true) :
    model.runSuggestion E command = ({ model with status := SWITCHING_DISABLED }, []) := by
  unfold runSuggestion
  rw [keeps, unavailable]
  exact model.dispatchBuiltin_refused E "" switching unavailable

theorem runSuggestion_cleared {command : CommandDescriptor} (switching : switches command.id = true)
    (unavailable : model.sessionSwitchAvailable = false) (clears : keepsComposer command.id = false) :
    (model.runSuggestion E command).1.composer = "" := by
  have refused := dispatchBuiltin_refused E { model with composer := "", slashIndex := 0, slashPopupState := .eligible }
    "" switching unavailable
  unfold runSuggestion
  rw [clears]
  exact congrArg (fun reduced : Reduced => reduced.1.composer) refused

theorem reduceOpenKey_popup {key : KeyEvent} {reduced : Reduced}
    (overlays : model.modelPicker = none ∧ model.sessionPicker = false ∧ model.commandPalette = false)
    (popup : model.reduceSlashPopupKey E key = some reduced) : model.reduceOpenKey E key = reduced := by
  unfold reduceOpenKey
  rw [overlays.1, overlays.2.1, overlays.2.2, popup]
  rfl

theorem reduceOpenKey_submit {key : KeyEvent} (submits : isSubmit key = true) (focused : model.focus = .composer)
    (authority : model.authorityEnabled = true) (idle : model.pendingSubmission = none)
    (overlays : model.modelPicker = none ∧ model.sessionPicker = false ∧ model.commandPalette = false)
    (popup : model.reduceSlashPopupKey E key = none) : model.reduceOpenKey E key = model.submitComposer E := by
  have code := submits
  rw [isSubmit, Bool.or_eq_true, Bool.and_eq_true, decide_eq_true_eq, decide_eq_true_eq] at code
  have plain : key.code = .f 5 ∨ key.code = .enter := code.imp_right And.left
  have other : key.code ≠ .char 'p' ∧ key.code ≠ .esc ∧ key.code ≠ .backspace := by
    rcases plain with code | code
    · rw [code]
      decide
    · rw [code]
      decide
  have line : isNewline key = false := by
    rcases code with five | ⟨enter, modifiers⟩
    · rw [isNewline, five]
      rfl
    · rw [Bool.or_eq_true, decide_eq_true_eq, decide_eq_true_eq] at modifiers
      rcases modifiers with modifiers | modifiers
      · rw [isNewline, enter, modifiers]
        rfl
      · rw [isNewline, enter, modifiers]
        rfl
  unfold reduceOpenKey
  rw [overlays.1, overlays.2.1, overlays.2.2, popup]
  simp only [Bool.false_eq_true, if_false]
  rw [if_neg fun palette => other.1 palette.1, focused]
  simp only
  unfold reduceComposerKey
  rw [if_neg other.2.1, if_neg other.2.2, line, if_neg Bool.false_ne_true,
    if_pos ⟨submits, authority, by rw [idle]; rfl⟩]

/-- A command in the composer runs, or is refused before it leaves the composer. -/
theorem submitSlashCandidate_command {descriptor : CommandDescriptor} {argument : String}
    (resolved : resolveSlash model.composer = .command descriptor argument) :
    model.submitSlashCandidate E = some
      (if keepsComposer descriptor.id && !model.sessionSwitchAvailable then
        ({ model with status := SWITCHING_DISABLED }, [])
      else ({ model with composer := "" } : SessionUiModel).dispatchBuiltin E descriptor.id argument) := by
  unfold submitSlashCandidate
  rw [resolved]
  simp only
  split
  · rfl
  · rfl

theorem submitComposer_command {descriptor : CommandDescriptor} {argument : String}
    (idle : model.pendingSubmission = none) (settled : model.pendingModelSwitch = none)
    (nonblank : trim model.composer ≠ "") (resolved : resolveSlash model.composer = .command descriptor argument) :
    model.submitComposer E =
      if keepsComposer descriptor.id && !model.sessionSwitchAvailable then
        ({ model with status := SWITCHING_DISABLED }, [])
      else ({ model with composer := "" } : SessionUiModel).dispatchBuiltin E descriptor.id argument := by
  have free : ¬ (model.pendingSubmission.isSome = true ∨ trim model.composer = "") := by
    rw [idle]
    exact fun refused => refused.elim nofun nonblank
  have unswitched : ¬ model.pendingModelSwitch.isSome = true := by
    rw [settled]
    nofun
  unfold submitComposer
  rw [if_neg free, if_neg unswitched, model.submitSlashCandidate_command E resolved]

end SessionUiModel

namespace SlashCommand

variable {E : TuiEnvironment} {model : SessionUiModel} {input : SessionUiInput} {command : BuiltinCommand}

/-- The command under the cursor is looked up again in the model that the key disarmed. -/
theorem reduce_suggested {key : KeyEvent} {now : Nat} {descriptor : CommandDescriptor} (free : Free model key)
    (enter : key.code = .enter) (modifiers : key.modifiers = .empty ∨ key.modifiers = .CONTROL)
    (authority : model.authorityEnabled = true)
    (suggestion : model.slashPopupSuggestions[min model.slashIndex (model.slashPopupSuggestions.length - 1)]? =
      some descriptor) : reduce E model (.key key now) = model.disarm.runSuggestion E descriptor := by
  have popup : model.disarm.reduceSlashPopupKey E key = some (model.disarm.runSuggestion E descriptor) := by
    have disarmed : model.disarm.slashPopupSuggestions[min model.disarm.slashIndex
      (model.disarm.slashPopupSuggestions.length - 1)]? = some descriptor := suggestion
    have plain : key.plain .up = false ∧ key.plain .down = false ∧ key.code ≠ .esc := by
      rw [KeyEvent.plain, KeyEvent.plain, enter]
      exact ⟨rfl, rfl, nofun⟩
    simp only [SessionUiModel.reduceSlashPopupKey, disarmed]
    rw [if_neg plain.2.2, plain.1, plain.2.1, if_neg Bool.false_ne_true, if_neg Bool.false_ne_true,
      if_pos ⟨enter, authority, modifiers⟩]
  exact (model.reduceKeyAt_free E free now (.inl enter)).trans
    (model.disarm.reduceOpenKey_popup E (model.slashPopupSuggestions_some suggestion).1 popup)

theorem reduce_submitted {key : KeyEvent} {now : Nat} {descriptor : CommandDescriptor} {argument : String}
    (free : Free model key) (submits : isSubmit key = true) (authority : model.authorityEnabled = true)
    (focused : model.focus = .composer)
    (overlays : model.modelPicker = none ∧ model.sessionPicker = false ∧ model.commandPalette = false)
    (popup : model.disarm.reduceSlashPopupKey E key = none) (idle : model.pendingSubmission = none)
    (settled : model.pendingModelSwitch = none) (nonblank : trim model.composer ≠ "")
    (resolved : resolveSlash model.composer = .command descriptor argument) :
    reduce E model (.key key now) =
      if SessionUiModel.keepsComposer descriptor.id && !model.disarm.sessionSwitchAvailable then
        ({ model.disarm with status := SessionUiModel.SWITCHING_DISABLED }, [])
      else ({ model.disarm with composer := "" } : SessionUiModel).dispatchBuiltin E descriptor.id argument := by
  have code := submits
  rw [isSubmit, Bool.or_eq_true, Bool.and_eq_true, decide_eq_true_eq, decide_eq_true_eq] at code
  calc reduce E model (.key key now)
    _ = model.disarm.reduceOpenKey E key := model.reduceKeyAt_free E free now (code.symm.imp_left And.left)
    _ = model.disarm.submitComposer E :=
      model.disarm.reduceOpenKey_submit E submits focused authority idle overlays popup
    _ = _ := model.disarm.submitComposer_command E idle settled nonblank resolved

theorem spared (ran : SlashCommand E model input command) (switching : SessionUiModel.switches command = true)
    (unavailable : model.sessionSwitchAvailable = false) (keeps : SessionUiModel.keepsComposer command = true) :
    (reduce E model input).1 = { model.disarm with status := SessionUiModel.SWITCHING_DISABLED } := by
  cases ran with
  | suggested free enter modifiers authority suggestion =>
      rw [reduce_suggested free enter modifiers authority suggestion,
        model.disarm.runSuggestion_spared E switching unavailable keeps]
  | submitted free submits authority focused overlays popup idle settled nonblank resolved =>
      rw [reduce_submitted free submits authority focused overlays popup idle settled nonblank resolved, keeps,
        show model.disarm.sessionSwitchAvailable = false from unavailable]
      rfl

/-- `/rename` and `/fork` leave the composer before they are refused. -/
theorem cleared (ran : SlashCommand E model input command) (switching : SessionUiModel.switches command = true)
    (unavailable : model.sessionSwitchAvailable = false) (clears : SessionUiModel.keepsComposer command = false) :
    (reduce E model input).1.composer = "" ∧ model.composer ≠ "" := by
  cases ran with
  | suggested free enter modifiers authority suggestion =>
      rw [reduce_suggested free enter modifiers authority suggestion]
      exact ⟨model.disarm.runSuggestion_cleared E switching unavailable clears,
        (model.slashPopupSuggestions_some suggestion).2⟩
  | @submitted _ _ _ argument free submits authority focused overlays popup idle settled nonblank resolved =>
      have refused := SessionUiModel.dispatchBuiltin_refused E { model.disarm with composer := "" } argument switching
        unavailable
      rw [reduce_submitted free submits authority focused overlays popup idle settled nonblank resolved, clears]
      refine ⟨congrArg (fun reduced : Reduced => reduced.1.composer) refused, fun empty => ?_⟩
      rw [empty] at resolved
      cases resolved

end SlashCommand

/-! ## The guard -/

namespace SessionUiModel

variable {E : TuiEnvironment} {model : SessionUiModel} {input : SessionUiInput}

theorem disarm_of_calm (unarmed : model.ctrlCExitArmedUntil = none) (unobserved : model.ctrlCLastObservedAt = none) :
    model.disarm = model := by
  obtain ⟨⟩ := model
  cases unarmed
  cases unobserved
  rfl

theorem not_calm {reduced : Reduced} {action : SessionUiAction} (emitted : action ∈ reduced.2)
    (replaces : action.replaces = true) : ¬ Calm model reduced := by
  intro calm
  rw [calm.asks action emitted] at replaces
  cases replaces

theorem reduceSessionPickerKey_opens {key : KeyEvent} {session : SessionSummary} (enter : key.code = .enter)
    (listed : model.sessionCatalog[model.sessionIndex]? = some session) :
    model.reduceSessionPickerKey key = (model, [.openSession session.sessionId]) := by
  have moves : key.code ≠ .esc ∧ KeyEvent.upward key = false ∧ KeyEvent.downward key = false := by
    rw [KeyEvent.upward, KeyEvent.downward, KeyEvent.plain, KeyEvent.plain, KeyEvent.plain, KeyEvent.plain, enter]
    exact ⟨nofun, rfl, rfl⟩
  unfold reduceSessionPickerKey
  rw [if_neg moves.1, moves.2.1, moves.2.2, if_neg Bool.false_ne_true, if_neg Bool.false_ne_true, if_pos enter, listed]

theorem reduceModelPickerKey_picks {key : KeyEvent} {picker : ModelPickerState} {option : SessionModelOption}
    (enter : key.plain .enter = true) (listed : model.filteredModelOptions[picker.index]? = some option) :
    model.reduceModelPickerKey E key picker = model.pickModel option := by
  have code : key.code = .enter := by
    rw [KeyEvent.plain, Bool.and_eq_true, decide_eq_true_eq] at enter
    exact enter.1
  have moves : key.code ≠ .esc ∧ key.plain .up = false ∧ key.plain .down = false ∧ key.plain .backspace = false := by
    rw [KeyEvent.plain, KeyEvent.plain, KeyEvent.plain, code]
    exact ⟨nofun, rfl, rfl, rfl⟩
  have typed : key.typed = none := by rw [KeyEvent.typed, code]
  unfold reduceModelPickerKey
  simp only
  rw [if_neg moves.1, moves.2.1, moves.2.2.1, moves.2.2.2, typed, if_neg Bool.false_ne_true, if_neg Bool.false_ne_true,
    if_neg Bool.false_ne_true, enter]
  simp only [if_true, listed]

/-- A picked model of the selected session is asked for, also while a submission is on its way. -/
theorem pickModel_switches {option : SessionModelOption} {session : SessionSnapshot}
    (selected : model.selectedSession = some session)
    (ready : session.lifecycle = .ready ∧ session.activeTurnId = none ∧ session.pending = none)
    (other : ¬ (session.binding.providerName = option.providerName ∧ session.binding.model = option.model)) :
    (model.pickModel option).2 =
      [.switchModel model.nextModelSwitchId session.sessionId session.revision option.providerName option.model] := by
  have closed : ({ model with modelPicker := none } : SessionUiModel).selectedSession = some session := selected
  have free : ¬ (session.lifecycle ≠ .ready ∨ session.activeTurnId ≠ none ∨ session.pending ≠ none) := by
    rw [not_or, not_or, Classical.not_not, Classical.not_not, Classical.not_not]
    exact ready
  unfold pickModel
  simp only [closed]
  rw [switchModel, if_neg free, if_neg other]

theorem replaces_of_unasked (unasked : Unasked model input) : ¬ Calm model (reduce E model input) := by
  cases unasked with
  | @picksSession key now session free overlays enter listed =>
      have taken : reduce E model (.key key now) = (model.disarm, [.openSession session.sessionId]) := by
        refine (model.reduceKeyAt_free E free now (.inl enter)).trans ?_
        unfold reduceOpenKey
        rw [show model.disarm.modelPicker = none from overlays.1,
          show model.disarm.sessionPicker = true from overlays.2]
        exact @reduceSessionPickerKey_opens model.disarm _ _ enter listed
      rw [taken]
      exact not_calm (List.mem_singleton.mpr rfl) rfl
  | @picksModel key now picker option session free picking enter listed selected ready other =>
      have code : key.code = .enter := by
        rw [KeyEvent.plain, Bool.and_eq_true, decide_eq_true_eq] at enter
        exact enter.1
      have taken : reduce E model (.key key now) = model.disarm.pickModel option := by
        refine (model.reduceKeyAt_free E free now (.inl code)).trans ?_
        unfold reduceOpenKey
        rw [show model.disarm.modelPicker = some picker from picking]
        exact @reduceModelPickerKey_picks E model.disarm _ _ _ enter listed
      have asked := @pickModel_switches model.disarm _ _ selected ready other
      rw [taken]
      exact not_calm (asked ▸ List.mem_singleton.mpr rfl) rfl
  | @answers sessions query session asked found =>
      have taken : reduce E model (.sessionCatalogReady sessions (some query)) =
          ({ model with sessionCatalog := sessions, sessionIndex := 0 }, [.openSession session.sessionId]) := by
        have kept : (some query).filter (fun query : String => query ≠ "") = some query :=
          Option.filter_eq_some_iff.mpr ⟨rfl, decide_eq_true asked⟩
        rw [reduce, reduceCatalogReady]
        simp only [kept, found]
      rw [taken]
      exact not_calm (List.mem_singleton.mpr rfl) rfl

/-- The guard holds where it is asked, and elsewhere exactly where the condition stands in for it. -/
theorem guarded_iff : Guarded E model input ↔ Spared E model input := by
  constructor
  · intro guarded
    refine ⟨fun unasked => guarded.switching (replaces_of_unasked unasked), ?_⟩
    intro command ran switching unavailable
    have same := guarded.refusing command ran switching unavailable
    cases keeps : keepsComposer command with
    | true =>
        rw [ran.spared switching unavailable keeps] at same
        exact ⟨rfl, (congrArg ctrlCExitArmedUntil same).symm, (congrArg ctrlCLastObservedAt same).symm⟩
    | false =>
        obtain ⟨empty, typed⟩ := ran.cleared switching unavailable keeps
        exact absurd ((congrArg composer same).symm.trans empty) typed
  · intro spared
    constructor
    · intro replaced
      by_cases unasked : Unasked model input
      · exact spared.switching unasked
      · exact (model.reduce_asked E unasked).resolve_right replaced
    · intro command ran switching unavailable
      obtain ⟨keeps, unarmed, unobserved⟩ := spared.refusing command ran switching unavailable
      rw [ran.spared switching unavailable keeps, disarm_of_calm unarmed unobserved]

end SessionUiModel

/-! ## Runs -/

/-- Along a run the guard stands before every switch exactly when every input meets the condition. -/
theorem switches_guarded_iff (E : TuiEnvironment) (initial : SessionUiModel) (inputs : List SessionUiInput) :
    (∀ k (bound : k < inputs.length), Guarded E (modelAt E initial inputs k) inputs[k]) ↔
      ∀ k (bound : k < inputs.length), Spared E (modelAt E initial inputs k) inputs[k] :=
  forall_congr' fun _ => forall_congr' fun _ => SessionUiModel.guarded_iff

/-- A search is asked for, a prompt is submitted, and then the search is answered. -/
def lateAnswer : List SessionUiInput :=
  "/sessions t".toList.map (fun c => .key ⟨.char c, .empty, .press⟩ 0) ++
    [.key ⟨.enter, .empty, .press⟩ 0, .key ⟨.char 'a', .empty, .press⟩ 0, .key ⟨.enter, .empty, .press⟩ 0,
      .sessionCatalogReady [⟨⟨⟨1⟩⟩, "t"⟩] (some "t")]

/-- The answer opens the session that was found, and the prompt on its way is left behind. -/
theorem lateAnswer_unguarded : ¬ ∀ (E : TuiEnvironment) (initial : SessionUiModel) (inputs : List SessionUiInput),
    Starting initial → ∀ k (bound : k < inputs.length), Guarded E (modelAt E initial inputs k) inputs[k] := by
  intro claim
  have unavailable : (modelAt plainTui .default lateAnswer 14).sessionSwitchAvailable = false := by decide +kernel
  have guarded := claim plainTui .default lateAnswer (.inl rfl) 14 (by decide)
  have found : (([⟨⟨⟨1⟩⟩, "t"⟩] : List SessionSummary).filter fun session =>
    session.sessionId.toString = "t" || session.title = "t") = [⟨⟨⟨1⟩⟩, "t"⟩] := by decide +kernel
  have answered : Unasked (modelAt plainTui .default lateAnswer 14) lateAnswer[14] := .answers (by decide) found
  have available := guarded.switching (SessionUiModel.replaces_of_unasked answered)
  rw [unavailable] at available
  cases available

end LatteCode.Tui
