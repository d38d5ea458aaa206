import LatteCode.Tui.Projection
/- What a key or a paste does. -/

namespace LatteCode.Tui

def EDITOR_CAP : Nat := 16 * 1024

/-- Pasted text without escape sequences and controls, up to the cap; `used` counts the bytes held. -/
def editorText (cap : Nat) : ScanMode → Nat → List Char → List Char
  | _, _, [] => []
  | mode, used, c :: rest =>
      if mode = .csi then editorText cap (if '@' ≤ c ∧ c ≤ '~' then .text else .csi) used rest
      else if mode = .escape ∧ c = '[' then editorText cap .csi used rest
      else if c = '\x1b' then editorText cap .escape used rest
      else if isControl c ∧ c ≠ '\n' ∧ c ≠ '\t' then editorText cap .text used rest
      else if used + c.utf8Size > cap then []
      else c :: editorText cap .text (used + c.utf8Size) rest

def appendEditorText (target value : String) (cap : Nat) : String :=
  target ++ String.ofList (editorText cap .text target.utf8ByteSize value.toList)

def popGrapheme (E : TuiEnvironment) (value : String) : String :=
  if E.graphemes value = [] then value else String.join (E.graphemes value).dropLast

def isSubmit (key : KeyEvent) : Bool :=
  key.code = .f 5 || (key.code = .enter && (key.modifiers = .empty || key.modifiers = .CONTROL))

def isNewline (key : KeyEvent) : Bool := key.code = .enter && key.modifiers = .SHIFT

/-- The character that a key types. -/
def KeyEvent.typed (key : KeyEvent) : Option Char :=
  match key.code with
  | .char c => if key.control then none else some c
  | _ => none

def KeyEvent.plain (key : KeyEvent) (code : KeyCode) : Bool := key.code = code && key.modifiers = .empty

namespace SessionUiModel

variable (E : TuiEnvironment) (model : SessionUiModel)

/-! ## Commands -/

/-- A switch waits for submissions, model switches, work and requests. -/
def sessionSwitchAvailable : Bool :=
  model.pendingSubmission.isNone && model.pendingModelSwitch.isNone && model.selectedSession.all fun session =>
    session.activeTurnId.isNone && session.pending.isNone && session.lifecycle ≠ .reconciliationRequired

def selectedProviderModel : Option (String × String) :=
  match model.selectedSession with
  | some session => some (session.binding.providerName, session.binding.model)
  | none => model.draftModel

def modelCatalog : List SessionModelOption :=
  match model.startup with
  | some startup => startup.modelCatalog
  | none => []

def openModelPicker : SessionUiModel :=
  if model.modelCatalog = [] then { model with status := PROVIDER_SETUP_GUIDANCE }
  else
    let index := (model.selectedProviderModel.bind fun selected =>
      model.modelCatalog.findIdx? fun option => option.providerName = selected.1 && option.model = selected.2).getD 0
    { model with modelPicker := some ⟨"", index⟩, help := false, commandPalette := false, sessionPicker := false }

def lowerAscii (text : String) : List Char := text.toList.map Char.toLower

def matchesQuery (query : List Char) (option : SessionModelOption) : Bool :=
  query.isEmpty || containsText query (lowerAscii option.providerName) || containsText query (lowerAscii option.model) ||
    option.name.any (fun name => containsText query (lowerAscii name)) ||
    containsText query (lowerAscii (option.providerName ++ "/" ++ option.model))

def filteredModelOptions : List SessionModelOption :=
  let query := lowerAscii (trim (model.modelPicker.elim "" ModelPickerState.query))
  model.modelCatalog.filter (matchesQuery query)

def SWITCHING_DISABLED : String := "Session switching is disabled while work or a request is active"

/-- The projection of the former session goes, and the draft starts with the default model. -/
def newDraft : SessionUiModel :=
  { model with
    sessions := []
    selected := 0
    activeConversation := some .newSessionDraft
    sessionPicker := false
    modelPicker := none
    draftModel := model.startup.bind SessionStartupPresentation.draftModel
    help := false
    progress := []
    scroll := 0
    status := "New conversation draft" }

def selectedSessionAction (action : SessionId → SessionUiAction) : Reduced :=
  match model.selectedSession with
  | some session => (model, [action session.sessionId])
  | none => ({ model with status := "This command requires an open saved session" }, [])

def dispatchSessionSearch (argument : String) : Reduced :=
  if argument = "" then (model, [.showSessions none])
  else if (E.parseSessionId argument).isSome then (model, [.showSessions (some argument)])
  else if (argument.toList.splitOnP isWhitespace).any fun part => "--".toList.isPrefixOf part then
    ({ model with status := "The /sessions command accepts only a current-workspace query" }, [])
  else (model, [.searchSessions argument])

/-- Commands that leave the session, or change what it is. -/
def switches : BuiltinCommand → Bool
  | .new | .sessions | .model | .rename | .fork => true
  | .help | .navigation | .refresh | .quit => false

def runBuiltin (argument : String) : BuiltinCommand → Reduced
  | .new => (model.newDraft, [])
  | .sessions => model.dispatchSessionSearch E argument
  | .rename => model.selectedSessionAction fun sessionId => .renameSession sessionId argument
  | .fork => model.selectedSessionAction fun sessionId =>
      .forkSession sessionId (if argument = "" then none else some argument)
  | .model => (model.openModelPicker, [])
  | .help => ({ model with help := true }, [])
  | .navigation => ({ model with focus := .navigation, help := false }, [])
  | .refresh => (model, [.refreshSnapshots])
  | .quit => (model, [.quit])

def dispatchBuiltin (command : BuiltinCommand) (argument : String) : Reduced :=
  if switches command && !model.sessionSwitchAvailable then ({ model with status := SWITCHING_DISABLED }, [])
  else model.runBuiltin E argument command

/-- The commands whose text stays in the composer while switching is disabled. -/
def keepsComposer (command : BuiltinCommand) : Bool := [.new, .sessions, .model].contains command

/-! ## Overlays -/

def slashPopupSuggestions : List CommandDescriptor :=
  if model.focus ≠ .composer || model.pendingSubmission.isSome || model.slashPopupState = .dismissed || model.help ||
      model.commandPalette || model.sessionPicker || model.modelPicker.isSome || model.selectedSession.any (fun session =>
        [.waitingPermission, .waitingInput, .reconciliationRequired].contains session.lifecycle ||
          session.pending.isSome) then []
  else slashSuggestions model.composer

/-- The suggestion under the cursor runs with the composer that named it. -/
def runSuggestion (command : CommandDescriptor) : Reduced :=
  let cleared :=
    if !keepsComposer command.id || model.sessionSwitchAvailable then
      { model with composer := "", slashIndex := 0, slashPopupState := .eligible }
    else model
  cleared.dispatchBuiltin E command.id ""

/-- `none` leaves the key to the composer. -/
def reduceSlashPopupKey (key : KeyEvent) : Option Reduced :=
  let suggestions := model.slashPopupSuggestions
  match suggestions[min model.slashIndex (suggestions.length - 1)]? with
  | none => none
  | some command =>
      if key.code = .esc then some ({ model with slashPopupState := .dismissed }, [])
      else if key.plain .up then some ({ model with slashIndex := model.slashIndex - 1 }, [])
      else if key.plain .down then
        some ({ model with slashIndex := min (model.slashIndex + 1) (suggestions.length - 1) }, [])
      else if key.code = .enter ∧ model.authorityEnabled ∧ (key.modifiers = .empty ∨ key.modifiers = .CONTROL) then
        some (model.runSuggestion E command)
      else none

/-- The arrow keys, and the letters that stand for them. -/
def KeyEvent.upward (key : KeyEvent) : Bool := key.plain .up || key.plain (.char 'k')
def KeyEvent.downward (key : KeyEvent) : Bool := key.plain .down || key.plain (.char 'j')

def reducePaletteKey (key : KeyEvent) : Reduced :=
  if key.code = .esc ∨ (key.code = .char 'p' ∧ key.modifiers = .CONTROL) then
    ({ model with commandPalette := false }, [])
  else if KeyEvent.upward key then ({ model with commandIndex := model.commandIndex - 1 }, [])
  else if KeyEvent.downward key then
    ({ model with commandIndex := min (model.commandIndex + 1) (BUILTINS.length - 1) }, [])
  else if key.code = .enter then
    match BUILTINS[min model.commandIndex (BUILTINS.length - 1)]? with
    | some command => ({ model with commandPalette := false }).dispatchBuiltin E command.id ""
    | none => (model, [])
  else (model, [])

def reduceSessionPickerKey (key : KeyEvent) : Reduced :=
  if key.code = .esc then ({ model with sessionPicker := false }, [])
  else if KeyEvent.upward key then ({ model with sessionIndex := model.sessionIndex - 1 }, [])
  else if KeyEvent.downward key then
    ({ model with sessionIndex := min (model.sessionIndex + 1) (model.sessionCatalog.length - 1) }, [])
  else if key.code = .enter then
    match model.sessionCatalog[model.sessionIndex]? with
    | some session => (model, [.openSession session.sessionId])
    | none => (model, [])
  else (model, [])

def switchModel (session : SessionSnapshot) (option : SessionModelOption) : Reduced :=
  if session.lifecycle ≠ .ready ∨ session.activeTurnId ≠ none ∨ session.pending ≠ none then
    ({ model with status := "Model switching is disabled while work or a request is active" }, [])
  else if session.binding.providerName = option.providerName ∧ session.binding.model = option.model then
    ({ model with status := "Model already selected: " ++ option.providerName ++ "/" ++ option.model }, [])
  else
    ({ model with
        nextModelSwitchId := saturatingAdd model.nextModelSwitchId 1
        pendingModelSwitch :=
          some ⟨model.nextModelSwitchId, session.sessionId, option.providerName, option.model⟩
        status := "Switching model to " ++ option.providerName ++ "/" ++ option.model },
      [.switchModel model.nextModelSwitchId session.sessionId session.revision option.providerName option.model])

/-- The picked model: for the selected session, or for the draft. -/
def pickModel (option : SessionModelOption) : Reduced :=
  let closed := { model with modelPicker := none }
  match closed.selectedSession with
  | some session => closed.switchModel session option
  | none => ({ closed with
      draftModel := some (option.providerName, option.model)
      status := "New sessions will use " ++ option.providerName ++ "/" ++ option.model }, [])

def reduceModelPickerKey (key : KeyEvent) (picker : ModelPickerState) : Reduced :=
  let options := model.filteredModelOptions
  let moved (picker : ModelPickerState) : Reduced := ({ model with modelPicker := some picker }, [])
  if key.code = .esc then ({ model with modelPicker := none }, [])
  else if key.plain .up then moved { picker with index := picker.index - 1 }
  else if key.plain .down then moved { picker with index := min (picker.index + 1) (options.length - 1) }
  else if key.plain .backspace then moved ⟨popGrapheme E picker.query, 0⟩
  else
    match key.typed with
    | some c =>
        if picker.query.utf8ByteSize < 256 ∧ isControl c = false then moved ⟨picker.query.push c, 0⟩
        else (model, [])
    | none =>
        if key.plain .enter then
          match options[picker.index]? with
          | some option => model.pickModel option
          | none => (model, [])
        else (model, [])

/-! ## The composer -/

def submitSlashCandidate : Option Reduced :=
  match resolveSlash model.composer with
  | .prompt => none
  | .validationError error => some ({ model with status := error }, [])
  | .command descriptor argument =>
      if keepsComposer descriptor.id && !model.sessionSwitchAvailable then
        some ({ model with status := SWITCHING_DISABLED }, [])
      else some (({ model with composer := "" }).dispatchBuiltin E descriptor.id argument)

/-- A running child that waits for nothing takes a follow-up behind it. -/
def queues (session : SessionSnapshot) : Bool :=
  session.lifecycle = .running && session.activeTurnId.isSome && session.pending.isNone

def lastSequence (session : SessionSnapshot) : Nat :=
  session.transcript.entries.foldl (fun last entry => max last entry.sequence) 0

/-- The prompt moves from the composer into the pending submission. -/
def takePrompt : SessionUiModel :=
  { model with
    composer := ""
    nextSubmissionId := saturatingAdd model.nextSubmissionId 1
    pendingSubmission := some {
      submissionId := model.nextSubmissionId
      prompt := model.composer
      sessionId := model.selectedSession.map SessionSnapshot.sessionId
      afterSequence := model.selectedSession.elim 0 lastSequence }
    submissionError := none }

/-- A draft starts a session: with the default model, or with the one picked for it. -/
def startAction (submissionId : Nat) (prompt : String) : SessionUiAction :=
  match model.selectedProviderModel with
  | some (providerName, selected) =>
      if model.startup.any fun startup => startup.defaultProvider ≠ providerName || startup.defaultModel ≠ selected then
        .startWithModel submissionId prompt providerName selected
      else .start submissionId prompt
  | none => .start submissionId prompt

def submitPrompt : Reduced :=
  let prompt := model.composer
  let submissionId := model.nextSubmissionId
  match model.selectedSession with
  | none => (model.takePrompt, [model.startAction submissionId prompt])
  | some session =>
      if session.lifecycle = .ready then
        (model.takePrompt, [.followUp submissionId session.sessionId session.revision prompt])
      else if queues session && model.queuedFollowUp.isNone then
        ({ model.takePrompt with status := "Follow-up queued behind the active turn" },
          [.queueFollowUp submissionId session.sessionId prompt])
      else
        ({ model.takePrompt with
            status := "A follow-up is already queued"
            pendingSubmission := none
            composer := prompt }, [])

def submitComposer : Reduced :=
  if model.pendingSubmission.isSome ∨ trim model.composer = "" then (model, [])
  else if model.pendingModelSwitch.isSome then
    ({ model with status := "Wait for the model switch to finish before submitting" }, [])
  else
    match model.submitSlashCandidate E with
    | some reduced => reduced
    | none =>
        if model.selectedSession.isNone ∧ model.startup.isSome ∧ model.selectedProviderModel.isNone then
          ({ model with status := PROVIDER_SETUP_GUIDANCE }, [])
        else if model.selectedSession.any fun session => session.lifecycle ≠ .ready && !queues session then
          ({ model with
              status := "This session has no runnable child; use /new or /sessions before submitting" }, [])
        else model.submitPrompt

def editComposer (text : String) : SessionUiModel :=
  { model with composer := text, slashIndex := 0, slashPopupState := .eligible }

def reduceComposerKey (key : KeyEvent) : Reduced :=
  if key.code = .esc then ({ model with focus := .navigation, help := false }, [])
  else if key.code = .backspace then (model.editComposer (popGrapheme E model.composer), [])
  else if isNewline key then (model.editComposer (model.composer.push '\n'), [])
  else if isSubmit key ∧ model.authorityEnabled ∧ model.pendingSubmission.isNone then model.submitComposer E
  else
    match key.typed with
    | some c =>
        if model.composer.utf8ByteSize < EDITOR_CAP then (model.editComposer (model.composer.push c), [])
        else (model, [])
    | none => (model, [])

def reduceNavigationKey (key : KeyEvent) : Reduced :=
  if key.code = .esc ∨ key.code = .char 'i' then ({ model with focus := .composer, help := false }, [])
  else if key.plain (.char 'q') then (model, [.quit])
  else if key.plain (.char '?') then ({ model with help := !model.help }, [])
  else if key.code = .pageUp then ({ model with scroll := min (model.scroll + 8) (2 ^ 16 - 1) }, [])
  else if key.code = .pageDown then ({ model with scroll := model.scroll - 8 }, [])
  else if key.code = .home then ({ model with scroll := 2 ^ 16 - 1 }, [])
  else (model, [])

/-! ## Blocking states -/

/-- `Ctrl+C` interrupts; a second one within the window quits, and one delivered twice counts once. -/
def reduceInterrupt (now : Nat) : Reduced :=
  if model.ctrlCLastObservedAt.any fun observedAt => now - observedAt ≤ CTRL_C_DUPLICATE_WINDOW then (model, [])
  else if model.ctrlCExitArmedUntil.any fun deadline => now ≤ deadline then
    ({ model with ctrlCExitArmedUntil := none, ctrlCLastObservedAt := none }, [.quit])
  else
    let armed := { model with
      ctrlCLastObservedAt := some now
      ctrlCExitArmedUntil := some (now + CTRL_C_EXIT_WINDOW) }
    match model.selectedSession.filter fun session => model.authorityEnabled &&
        [.running, .waitingPermission, .waitingInput].contains session.lifecycle with
    | some session => (armed, [.cancel session.sessionId])
    | none => (armed, [])

/-- The confirmation owns every key, and `Enter` is inert. -/
def reduceConfirmationKey (key : KeyEvent) (confirmation : SessionId × String) : Reduced :=
  if key.code = .enter then (model, [])
  else if model.authorityEnabled ∧ key.code = .char 'a' ∧ key.modifiers = .CONTROL then
    ({ model with reconciliationConfirmation := none }, [.reconcileUnknown confirmation.1 confirmation.2])
  else if key.code = .esc ∨ key.plain (.char 'd') then
    ({ model with reconciliationConfirmation := none, status := "Reconciliation acknowledgement cancelled" }, [])
  else (model, [])

def reduceReconciliationKey (key : KeyEvent) (session : SessionSnapshot) : Reduced :=
  match reconciliationEffectId model.reconciliationHint session with
  | some effectId =>
      if model.authorityEnabled ∧ key.code = .char 'r' ∧ key.control then
        ({ model with
            reconciliationConfirmation := some (session.sessionId, effectId)
            status := "Reconciliation acknowledgement open: Ctrl+A confirms; Enter does nothing" }, [])
      else (model, [])
  | none => (model, [])

/-- Only a request that reached a rendered frame can be answered. -/
def reducePermissionKey (key : KeyEvent) (request : SessionId × String) : Reduced :=
  if model.authorityEnabled ∧ model.renderedPermissionRequest = some request ∧ key.plain (.char 'd') then
    (model, [.resolvePermission request.1 request.2 false])
  else if model.authorityEnabled ∧ model.renderedPermissionRequest = some request ∧ key.code = .char 'a' ∧
      key.modifiers = .CONTROL then
    (model, [.resolvePermission request.1 request.2 true])
  else (model, [])

def reduceInputKey (key : KeyEvent) (session : SessionSnapshot) (turnId : TurnId) (requestId : String) : Reduced :=
  if model.pendingInputSubmission.isSome then (model, [])
  else if model.authorityEnabled ∧ isSubmit key ∧ trim model.input ≠ "" then
    ({ model with
        input := ""
        nextSubmissionId := saturatingAdd model.nextSubmissionId 1
        pendingInputSubmission := some {
          submissionId := model.nextSubmissionId
          sessionId := session.sessionId
          turnId := turnId
          requestId := requestId
          value := model.input
          afterSequence := session.sequence }
        submissionRefresh := { model.submissionRefresh with input := false } },
      [.provideInput model.nextSubmissionId session.sessionId requestId model.input])
  else if key.code = .backspace then ({ model with input := popGrapheme E model.input }, [])
  else if isNewline key ∧ model.input.utf8ByteSize < EDITOR_CAP then
    ({ model with input := model.input.push '\n' }, [])
  else
    match key.typed with
    | some c =>
        if model.input.utf8ByteSize < EDITOR_CAP then ({ model with input := model.input.push c }, [])
        else (model, [])
    | none => (model, [])

/-- Keys that no request of the selected session owns. -/
def reduceOpenKey (key : KeyEvent) : Reduced :=
  match model.modelPicker with
  | some picker => model.reduceModelPickerKey E key picker
  | none =>
      if model.sessionPicker then model.reduceSessionPickerKey key
      else if model.commandPalette then model.reducePaletteKey E key
      else
        match model.reduceSlashPopupKey E key with
        | some reduced => reduced
        | none =>
            if key.code = .char 'p' ∧ key.modifiers = .CONTROL then
              ({ model with commandPalette := true, commandIndex := 0, help := false }, [])
            else
              match model.focus with
              | .composer => model.reduceComposerKey E key
              | .navigation => model.reduceNavigationKey key

/-- Keys by what the selected session waits for. -/
def reduceSessionKey (key : KeyEvent) : Reduced :=
  match model.selectedSession with
  | none => model.reduceOpenKey E key
  | some session =>
      if session.lifecycle = .reconciliationRequired then model.reduceReconciliationKey key session
      else
        match session.pending with
        | some (.permission _ requestId _ _) => model.reducePermissionKey key (session.sessionId, requestId)
        | some (.input turnId requestId _ _) => model.reduceInputKey E key session turnId requestId
        | none => model.reduceOpenKey E key

def reduceKeyAt (key : KeyEvent) (now : Nat) : Reduced :=
  if key.kind = .release then (model, [])
  else if key.code = .f 10 then (model, [.quit])
  else if key.code = .char 'c' ∧ key.control then model.reduceInterrupt now
  else
    let disarmed := { model with ctrlCExitArmedUntil := none, ctrlCLastObservedAt := none }
    if key.code = .char 'r' ∧ key.control ∧ model.connection ≠ .connected then (disarmed, [.refreshSnapshots])
    else
      match model.reconciliationConfirmation with
      | some confirmation => disarmed.reduceConfirmationKey key confirmation
      | none => disarmed.reduceSessionKey E key

def reducePaste (value : String) : SessionUiModel :=
  let disarmed := { model with ctrlCExitArmedUntil := none, ctrlCLastObservedAt := none }
  if model.pendingInputSubmission.isSome || model.reconciliationConfirmation.isSome ||
      model.selectedSession.any blocked then disarmed
  else if (model.selectedSession.bind inputRequest).isSome then
    { disarmed with input := appendEditorText model.input value EDITOR_CAP }
  else if model.focus = .composer then disarmed.editComposer (appendEditorText model.composer value EDITOR_CAP)
  else disarmed

def reduceMouse : MouseEventKind → SessionUiModel
  | .scrollUp => { model with scroll := min (model.scroll + 3) (2 ^ 16 - 1) }
  | .scrollDown => { model with scroll := model.scroll - 3 }
  | .other => model

end SessionUiModel

end LatteCode.Tui
