import LatteCode.Tui.Keys
import LatteCode.Lib.Run
/- The reducer of the terminal, and runs of it. -/

namespace LatteCode.Tui
open Runs

/-! ## Transient progress -/

def PROGRESS_CAP : Nat := 16 * 1024

def appendBounded (target value : String) (cap : Nat) : String :=
  value.toList.foldl (fun (state : String × Bool) c =>
    if state.2 || decide (state.1.utf8ByteSize + c.utf8Size > cap) then (state.1, true)
    else (state.1.push c, false)) (target, false) |>.1

/-- The last element that satisfies `p`, replaced by its image. -/
def updateLast {α : Type} (p : α → Bool) (f : α → α) (xs : List α) : List α :=
  (updateFirst p f xs.reverse).reverse

def attempts (turnId : TurnId) : SessionTransientProgress → Bool
  | .providerAttempt other _ => other = turnId
  | _ => false

def reportsTool (turnId : TurnId) (name : String) : SessionTransientProgress → Bool
  | .toolProgress other otherName _ => other = turnId && otherName = name
  | _ => false

def pushProgress (items : List SessionTransientProgress) (item : SessionTransientProgress) :
    List SessionTransientProgress :=
  if items.length < 64 then items ++ [item] else items

/-- A delta extends the last item of its turn; an attempt or a tool replaces what it reported before. -/
def mergeProgress (items : List SessionTransientProgress) : SessionTransientProgress → List SessionTransientProgress
  | .assistantDelta turnId text =>
      match items.getLast? with
      | some (.assistantDelta current shown) =>
          if current = turnId then items.dropLast ++ [.assistantDelta turnId (appendBounded shown text PROGRESS_CAP)]
          else pushProgress items (.assistantDelta turnId text)
      | _ => pushProgress items (.assistantDelta turnId text)
  | .providerAttempt turnId number =>
      if items.any (attempts turnId) then
        updateLast (attempts turnId) (fun _ => .providerAttempt turnId number) items
      else pushProgress items (.providerAttempt turnId number)
  | .toolProgress turnId name detail =>
      if items.any (reportsTool turnId name) then
        updateLast (reportsTool turnId name) (fun _ => .toolProgress turnId name detail) items
      else pushProgress items (.toolProgress turnId name detail)

namespace SessionUiModel

variable (E : TuiEnvironment) (model : SessionUiModel)

def recordProgress (progress : SessionTransientProgress) : SessionUiModel :=
  if model.connection = .connected then { model with progress := mergeProgress model.progress progress } else model

/-! ## Frames and answers -/

/-- The permission that the selected session asks for counts as seen. -/
def markSelectedPermissionRendered : SessionUiModel :=
  { model with renderedPermissionRequest := model.selectedSession.bind permissionRequest }

def reduceSessionCatalog (sessions : List SessionSummary) : SessionUiModel :=
  { model with sessionCatalog := sessions, sessionIndex := min model.sessionIndex (sessions.length - 1) }

/-- One exact match opens; otherwise the picker shows what was found. -/
def reduceCatalogReady (sessions : List SessionSummary) (query : Option String) : Reduced :=
  let listed := { model with sessionCatalog := sessions, sessionIndex := 0 }
  match query.filter fun query => query ≠ "" with
  | none => ({ listed with
      sessionPicker := true
      status := if sessions = [] then "No saved sessions" else "Select a session to resume" }, [])
  | some query =>
      match sessions.filter fun session => session.sessionId.toString = query || session.title = query with
      | [session] => (listed, [.openSession session.sessionId])
      | [] => ({ listed with
          sessionPicker := true
          status := if sessions = [] then "No exact session match for " ++ query
            else toString sessions.length ++ " sessions match " ++ query ++ "; choose one" }, [])
      | _ => ({ listed with
          sessionPicker := true
          status := "Multiple sessions match " ++ query ++ "; choose one" }, [])

/-- The runtime has minted the session that a submission will start. -/
def reduceSubmissionAssigned (submissionId : Nat) (sessionId : SessionId) : SessionUiModel :=
  match model.pendingSubmission.filter fun pending => pending.submissionId = submissionId with
  | none => model
  | some pending =>
      let assigned := { model with pendingSubmission := some { pending with sessionId := some sessionId } }
      let shown := match assigned.sessions.findIdx? fun session => session.sessionId = sessionId with
        | some index =>
            if model.activeConversation = some ActiveConversation.newSessionDraft then
              { assigned with activeConversation := some (.session sessionId), selected := index }
            else assigned
        | none => assigned
      shown.reconcilePendingSubmission E

def composerPends (submissionId : Nat) : Bool :=
  model.pendingSubmission.any fun pending => pending.submissionId = submissionId

def inputPends (submissionId : Nat) : Bool :=
  model.pendingInputSubmission.any fun pending => pending.submissionId = submissionId

def switchPends (switchId : Nat) : Bool :=
  model.pendingModelSwitch.any fun pending => pending.switchId = switchId

end SessionUiModel

/-- `reduce`: the next state, and what the terminal asks the runtime for. -/
def reduce (E : TuiEnvironment) (model : SessionUiModel) : SessionUiInput → Reduced
  | .key key now => model.reduceKeyAt E key now
  | .mouse kind => (model.reduceMouse kind, [])
  | .paste value => (model.reducePaste value, [])
  | .resize width height => ({ model with size := (width, height) }, [])
  | .frameRendered => (model.markSelectedPermissionRendered, [])
  | .snapshot sessions => model.reduceSnapshot E sessions
  | .sessionCatalog sessions => (model.reduceSessionCatalog sessions, [])
  | .sessionCatalogReady sessions query => model.reduceCatalogReady sessions query
  | .sessionOpened snapshot => model.reduceSessionOpened E snapshot
  | .event event => model.reduceEvent E event
  | .progress progress => (model.recordProgress progress, [])
  | .lagged => ({ model with
      connection := .snapshotRequired
      progress := []
      status := "Event gap: reloading transcript snapshot" }, [.refreshSnapshots])
  | .connected => ({ model with connection := .connected, progress := [], status := "Connected" }, [])
  | .disconnected => ({ model with
      connection := .disconnected
      status := "Disconnected: actions disabled" }, [])
  | .commandError error => ({ model with status := "Command rejected: " ++ error }, [])
  | .commandCompleted message => ({ model with status := message }, [])
  | .submissionAssigned submissionId sessionId => (model.reduceSubmissionAssigned E submissionId sessionId, [])
  | .submissionError submissionId =>
      if model.composerPends submissionId then
        ({ model with
            submissionRefresh := { model.submissionRefresh with composer := true }
            status := "Submission result uncertain; checking durable transcript" }, [.refreshSnapshots])
      else (model, [])
  | .submissionCompleted submissionId =>
      if model.composerPends submissionId then
        ({ model with status := "Submission accepted; synchronizing transcript" }, [])
      else (model, [])
  | .inputSubmissionError submissionId =>
      if model.inputPends submissionId then
        ({ model with
            submissionRefresh := { model.submissionRefresh with input := true }
            status := "Input result uncertain; checking durable transcript" }, [.refreshSnapshots])
      else (model, [])
  | .inputSubmissionCompleted submissionId =>
      if model.inputPends submissionId then
        ({ model with status := "Input accepted; synchronizing transcript" }, [])
      else (model, [])
  | .modelSwitchError switchId error =>
      if model.switchPends switchId then
        ({ model with pendingModelSwitch := none, status := "Model switch rejected: " ++ error }, [])
      else (model, [])
  | .modelSwitchCompleted switchId =>
      if model.switchPends switchId then
        ({ model with status := "Model switch accepted; synchronizing session" }, [.refreshSnapshots])
      else (model, [])
  | .tick => (model, [])
  | .contextUsage _ => (model, [])

/-! ## Runs -/

/-- A terminal that has just started. -/
def Starting (model : SessionUiModel) : Prop :=
  model = .default ∨ ∃ startup, model = .withStartup startup

def reduceModel (E : TuiEnvironment) (model : SessionUiModel) (input : SessionUiInput) : SessionUiModel :=
  (reduce E model input).1

section Runs

variable (E : TuiEnvironment) (initial : SessionUiModel) (inputs : List SessionUiInput)

/-- The terminal after the first `k` inputs. -/
abbrev modelAt (k : Nat) : SessionUiModel := stateAt (reduceModel E) initial inputs k

/-- What the terminal emits at input `k`. -/
def emittedAt (k : Nat) : List SessionUiAction :=
  match inputs[k]? with
  | some input => (reduce E (modelAt E initial inputs k) input).2
  | none => []

end Runs

end LatteCode.Tui
