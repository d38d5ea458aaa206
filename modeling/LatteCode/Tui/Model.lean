import LatteCode.Tui.Command
/- The state of the terminal: local text, focus, one projection of the sessions, and what waits for an answer. -/

namespace LatteCode.Tui

inductive ConnectionState where
  | connected
  | disconnected
  | snapshotRequired
deriving DecidableEq, Repr

/-! ## Keys -/

inductive KeyCode where
  | esc
  | enter
  | backspace
  | up
  | down
  | left
  | right
  | home
  | pageUp
  | pageDown
  | f (n : Nat)
  | char (c : Char)
  | other
deriving DecidableEq, Repr

inductive KeyEventKind where
  | press
  | repeated
  | release
deriving DecidableEq, Repr

/-- The bits of `crossterm`'s `KeyModifiers`. -/
abbrev KeyModifiers := BitVec 8

def KeyModifiers.empty : KeyModifiers := 0
def KeyModifiers.SHIFT : KeyModifiers := 1
def KeyModifiers.CONTROL : KeyModifiers := 2

structure KeyEvent where
  code : KeyCode
  modifiers : KeyModifiers
  kind : KeyEventKind
deriving DecidableEq, Repr

/-- `modifiers.contains(CONTROL)`. -/
def KeyEvent.control (key : KeyEvent) : Bool := key.modifiers &&& KeyModifiers.CONTROL = KeyModifiers.CONTROL

inductive MouseEventKind where
  | scrollUp
  | scrollDown
  | other
deriving DecidableEq, Repr

/-! ## What the terminal holds -/

structure SessionSummary where
  sessionId : SessionId
  title : String
deriving DecidableEq, Repr

inductive SessionTransientProgress where
  | providerAttempt (turnId : TurnId) (number : Nat)
  | assistantDelta (turnId : TurnId) (text : String)
  | toolProgress (turnId : TurnId) (name detail : String)
deriving DecidableEq, Repr

structure PendingSubmission where
  submissionId : Nat
  prompt : String
  sessionId : Option SessionId
  afterSequence : Nat
deriving DecidableEq, Repr

structure PendingInputSubmission where
  submissionId : Nat
  sessionId : SessionId
  turnId : TurnId
  requestId : String
  value : String
  afterSequence : Nat
deriving DecidableEq, Repr

structure PendingModelSwitch where
  switchId : Nat
  sessionId : SessionId
  providerName : String
  model : String
deriving DecidableEq, Repr

structure SessionModelOption where
  providerName : String
  model : String
  name : Option String
deriving DecidableEq, Repr

structure SessionStartupPresentation where
  defaultProvider : String
  defaultModel : String
  modelCatalog : List SessionModelOption
deriving DecidableEq, Repr

structure ModelPickerState where
  query : String
  index : Nat
deriving DecidableEq, Repr

inductive SessionFocus where
  | composer
  | navigation
deriving DecidableEq, Repr

/-- A new draft has no durable session identity. -/
inductive ActiveConversation where
  | newSessionDraft
  | session (sessionId : SessionId)
deriving DecidableEq, Repr

inductive SlashPopupState where
  | eligible
  | dismissed
deriving DecidableEq, Repr

/-- Submissions that failed and wait for a projection that may still hold them. -/
structure SubmissionRefreshState where
  composer : Bool
  input : Bool
deriving DecidableEq, Repr

def PROVIDER_SETUP_GUIDANCE : String :=
  "Provider setup required: configure default_model and providers in ~/.latte/latte-code.jsonc, then restart Latte Code"

def CTRL_C_EXIT_WINDOW : Nat := 2000
def CTRL_C_DUPLICATE_WINDOW : Nat := 120

/-- Instants are milliseconds. -/
structure SessionUiModel where
  startup : Option SessionStartupPresentation
  sessions : List SessionSnapshot
  sessionCatalog : List SessionSummary
  activeConversation : Option ActiveConversation
  selected : Nat
  composer : String
  input : String
  scroll : Nat
  connection : ConnectionState
  progress : List SessionTransientProgress
  status : String
  help : Bool
  commandPalette : Bool
  commandIndex : Nat
  slashIndex : Nat
  slashPopupState : SlashPopupState
  sessionPicker : Bool
  sessionIndex : Nat
  modelPicker : Option ModelPickerState
  draftModel : Option (String × String)
  focus : SessionFocus
  size : Nat × Nat
  queuedFollowUp : Option String
  pendingSubmission : Option PendingSubmission
  deferredComposerDraft : Option String
  pendingInputSubmission : Option PendingInputSubmission
  pendingModelSwitch : Option PendingModelSwitch
  renderedPermissionRequest : Option (SessionId × String)
  inputTarget : Option (SessionId × String)
  submissionRefresh : SubmissionRefreshState
  submissionError : Option String
  nextSubmissionId : Nat
  nextModelSwitchId : Nat
  reconciliationConfirmation : Option (SessionId × String)
  reconciliationHint : Option (SessionId × String)
  ctrlCExitArmedUntil : Option Nat
  ctrlCLastObservedAt : Option Nat
deriving DecidableEq

def SessionUiModel.default : SessionUiModel where
  startup := none
  sessions := []
  sessionCatalog := []
  activeConversation := none
  selected := 0
  composer := ""
  input := ""
  scroll := 0
  connection := .connected
  progress := []
  status := "Ready"
  help := false
  commandPalette := false
  commandIndex := 0
  slashIndex := 0
  slashPopupState := .eligible
  sessionPicker := false
  sessionIndex := 0
  modelPicker := none
  draftModel := none
  focus := .composer
  size := (80, 24)
  queuedFollowUp := none
  pendingSubmission := none
  deferredComposerDraft := none
  pendingInputSubmission := none
  pendingModelSwitch := none
  renderedPermissionRequest := none
  inputTarget := none
  submissionRefresh := ⟨false, false⟩
  submissionError := none
  nextSubmissionId := 1
  nextModelSwitchId := 1
  reconciliationConfirmation := none
  reconciliationHint := none
  ctrlCExitArmedUntil := none
  ctrlCLastObservedAt := none

def SessionStartupPresentation.draftModel (startup : SessionStartupPresentation) : Option (String × String) :=
  if startup.defaultProvider ≠ "" ∧ startup.defaultModel ≠ "" then
    some (startup.defaultProvider, startup.defaultModel)
  else none

namespace SessionUiModel

def withStartup (startup : SessionStartupPresentation) : SessionUiModel :=
  { SessionUiModel.default with
    startup := some startup
    draftModel := startup.draftModel
    status := if startup.draftModel.isSome then "Ready" else PROVIDER_SETUP_GUIDANCE
    activeConversation := some .newSessionDraft }

variable (model : SessionUiModel)

def selectedSession : Option SessionSnapshot :=
  match model.activeConversation with
  | some .newSessionDraft => none
  | some (.session sessionId) => model.sessions.find? fun session => session.sessionId = sessionId
  | none => model.sessions[model.selected]?

def authorityEnabled : Bool := model.connection = .connected

end SessionUiModel

/-- The request of a session that asks for a permission. -/
def permissionRequest (session : SessionSnapshot) : Option (SessionId × String) :=
  match session.pending with
  | some (.permission _ requestId _ _) => some (session.sessionId, requestId)
  | _ => none

/-- The request of a session that asks for an input. -/
def inputRequest (session : SessionSnapshot) : Option (SessionId × String) :=
  match session.pending with
  | some (.input _ requestId _ _) => some (session.sessionId, requestId)
  | _ => none

/-- The selected session waits for a decision: a reconciliation or a permission. -/
def blocked (session : SessionSnapshot) : Bool :=
  session.lifecycle = .reconciliationRequired || (permissionRequest session).isSome

/-! ## Inputs and actions -/

inductive SessionUiInput where
  /-- A key at the instant `Instant::now` reads. -/
  | key (key : KeyEvent) (now : Nat)
  | mouse (kind : MouseEventKind)
  | paste (value : String)
  | resize (width height : Nat)
  | frameRendered
  | snapshot (sessions : List SessionSnapshot)
  | sessionCatalog (sessions : List SessionSummary)
  | sessionCatalogReady (sessions : List SessionSummary) (query : Option String)
  | sessionOpened (snapshot : SessionSnapshot)
  | event (event : SessionEventEnvelope)
  | progress (progress : SessionTransientProgress)
  | lagged
  | connected
  | disconnected
  | commandError (error : String)
  | commandCompleted (message : String)
  | submissionAssigned (submissionId : Nat) (sessionId : SessionId)
  | submissionError (submissionId : Nat)
  | submissionCompleted (submissionId : Nat)
  | inputSubmissionError (submissionId : Nat)
  | inputSubmissionCompleted (submissionId : Nat)
  | modelSwitchError (switchId : Nat) (error : String)
  | modelSwitchCompleted (switchId : Nat)
  | tick
  | contextUsage (sessionId : SessionId)
deriving DecidableEq

inductive SessionUiAction where
  | start (submissionId : Nat) (prompt : String)
  | startWithModel (submissionId : Nat) (prompt providerName model : String)
  | followUp (submissionId : Nat) (sessionId : SessionId) (expectedSessionRevision : Nat) (prompt : String)
  | queueFollowUp (submissionId : Nat) (sessionId : SessionId) (prompt : String)
  | cancel (sessionId : SessionId)
  | resolvePermission (sessionId : SessionId) (requestId : String) (allow : Bool)
  | provideInput (submissionId : Nat) (sessionId : SessionId) (requestId value : String)
  | reconcileUnknown (sessionId : SessionId) (effectId : String)
  | showSessions (query : Option String)
  | searchSessions (query : String)
  | renameSession (sessionId : SessionId) (title : String)
  | forkSession (sessionId : SessionId) (title : Option String)
  | openSession (sessionId : SessionId)
  | switchModel (switchId : Nat) (sessionId : SessionId) (expectedSessionRevision : Nat) (providerName model : String)
  | refreshSnapshots
  | quit
deriving DecidableEq, Repr

/-- A reduction: the next state and what it asks the runtime for. -/
abbrev Reduced := SessionUiModel × List SessionUiAction

/-- Code the terminal links against: the redactor, the graphemes of a text with their widths, UUID parsing. -/
structure TuiEnvironment extends Redactor where
  graphemes : String → List String
  /-- `UnicodeWidthStr::width`. -/
  width : String → Nat
  parseSessionId : String → Option SessionId

end LatteCode.Tui
