import LatteCode.Core.Encode
import LatteCode.Tui.Model
/- What a projection of the sessions does to the terminal: acceptance of what was submitted, or its return. -/

namespace LatteCode.Tui

/-- `u64::saturating_add`. -/
def saturatingAdd (a b : Nat) : Nat := min (a + b) (2 ^ 64 - 1)

/-- The first element that satisfies `p`, replaced by its image. -/
def updateFirst {α : Type} (p : α → Bool) (f : α → α) : List α → List α
  | [] => []
  | x :: xs => if p x then f x :: xs else x :: updateFirst p f xs

/-! ## Reconciliation -/

/-- The effect that a failure card reports as unknown. -/
def unknownEffect (entry : TranscriptEntry) : Option String :=
  if entry.kind = .failure then
    entry.payload.bind fun payload =>
      if (payload.get? "status").bind Json.asStr = some "unknown" then
        ((payload.get? "effect_id").bind Json.asStr).filter fun effectId =>
          !(effectId = "" || decide (effectId.utf8ByteSize > 512) || effectId.toList.any isControl)
      else none
  else none

def reconciliationEffectFromSnapshot (session : SessionSnapshot) : Option String :=
  if session.lifecycle = .reconciliationRequired then session.transcript.entries.reverse.findSome? unknownEffect
  else none

/-- The hint of an event for this session goes before its durable card. -/
def reconciliationEffectId (hint : Option (SessionId × String)) (session : SessionSnapshot) : Option String :=
  ((hint.filter fun hint => hint.1 = session.sessionId).map Prod.snd).or (reconciliationEffectFromSnapshot session)

/-! ## Submissions -/

def isSubmissionUserCard (entry : TranscriptEntry) : Bool :=
  entry.sourceKey = "session:create:user" ||
    ("follow-up:".toList.isPrefixOf entry.sourceKey.toList && ":user".toList.isSuffixOf entry.sourceKey.toList)

section Durable

variable (E : TuiEnvironment) (sessions : List SessionSnapshot)

/-- Some projected session holds the user card of the submission. -/
def PendingSubmission.durable (pending : PendingSubmission) : Bool :=
  sessions.any fun session => pending.sessionId = some session.sessionId &&
    session.transcript.entries.any fun entry => entry.kind = .user && decide (entry.sequence > pending.afterSequence) &&
      isSubmissionUserCard entry && entry.text = E.redactSessionText pending.prompt

def PendingInputSubmission.durable (pending : PendingInputSubmission) : Bool :=
  sessions.any fun session => session.sessionId = pending.sessionId &&
    session.transcript.entries.any fun entry => entry.kind = .user && decide (entry.sequence > pending.afterSequence) &&
      entry.sourceKey = pending.turnId.toString ++ ":input:" ++ pending.requestId ++ ":card" &&
      entry.text = E.redactSessionText pending.value

def PendingModelSwitch.durable (pending : PendingModelSwitch) : Bool :=
  sessions.any fun session => session.sessionId = pending.sessionId &&
    session.binding.providerName = pending.providerName && session.binding.model = pending.model

end Durable

namespace SessionUiModel

variable (E : TuiEnvironment) (model : SessionUiModel)

/-- The submission is durable: a draft that it displaced returns to an empty composer. -/
def acceptSubmission : SessionUiModel :=
  let accepted := { model with
    pendingSubmission := none
    queuedFollowUp := none
    submissionError := none
    submissionRefresh := { model.submissionRefresh with composer := false } }
  if model.composer = "" then
    match model.deferredComposerDraft with
    | some draft => { accepted with composer := draft, deferredComposerDraft := none }
    | none => accepted
  else accepted

def reconcilePendingSubmission : SessionUiModel :=
  match model.pendingSubmission with
  | some pending => if pending.durable E model.sessions then model.acceptSubmission else model
  | none => model

def RESTORED : String := "Unable to persist submission. Prompt restored for retry."

/-- The prompt goes back to the composer, and what was typed meanwhile is put aside. -/
def restorePendingSubmission : SessionUiModel :=
  match model.pendingSubmission with
  | some pending => { model with
      pendingSubmission := none
      queuedFollowUp := none
      deferredComposerDraft := if model.composer = "" then model.deferredComposerDraft else some model.composer
      composer := pending.prompt
      status := RESTORED
      submissionError := some RESTORED
      submissionRefresh := { model.submissionRefresh with composer := false } }
  | none => model

def reconcilePendingInputSubmission : SessionUiModel :=
  match model.pendingInputSubmission with
  | some pending =>
      if pending.durable E model.sessions then
        { model with
          pendingInputSubmission := none
          submissionRefresh := { model.submissionRefresh with input := false }
          input := "" }
      else model
  | none => model

def reconcilePendingModelSwitch : SessionUiModel :=
  match model.pendingModelSwitch with
  | some pending =>
      if pending.durable model.sessions then
        { model with
          pendingModelSwitch := none
          status := "Model switched to " ++ pending.providerName ++ "/" ++ pending.model }
      else model
  | none => model

/-- A failed composer submission that is still pending is restored. -/
def finalizeFailedComposer : SessionUiModel :=
  if model.submissionRefresh.composer && model.pendingSubmission.isSome then model.restorePendingSubmission else model

/-- A failed input that is still pending is restored. -/
def finalizeFailedInput : SessionUiModel :=
  if model.submissionRefresh.input then
    match model.pendingInputSubmission with
    | some pending => { model with
        pendingInputSubmission := none
        input := pending.value
        inputTarget := some (pending.sessionId, pending.requestId)
        submissionRefresh := { model.submissionRefresh with input := false }
        status := "Unable to persist input. Input restored for retry." }
    | none => model
  else model

def finalizeFailedSubmissionsAfterSnapshot : SessionUiModel :=
  model.finalizeFailedComposer.finalizeFailedInput

/-- A follow-up queued locally behind a child that ended without becoming ready. -/
def stranded : Bool :=
  model.queuedFollowUp.isSome && model.pendingSubmission.isSome && model.selectedSession.any fun session =>
    session.activeTurnId.isNone && session.pending.isNone && session.lifecycle ≠ .ready

def restoreStrandedFollowUp : SessionUiModel :=
  if model.stranded then
    { model.restorePendingSubmission with
      status := "Queued follow-up was not submitted because the active child ended; prompt restored" }
  else model

/-- The input editor belongs to one request. -/
def synchronizeInputTarget : SessionUiModel :=
  if model.pendingInputSubmission.isSome then model
  else
    let target := model.selectedSession.bind inputRequest
    if model.inputTarget ≠ target then { model with input := "", inputTarget := target } else model

/-- The confirmation names the selected session and the effect it has to reconcile. -/
def confirmationHolds (confirmation : SessionId × String) : Bool :=
  model.selectedSession.any fun session => session.sessionId = confirmation.1 &&
    session.lifecycle = .reconciliationRequired &&
    reconciliationEffectId model.reconciliationHint session = some confirmation.2

def dropStaleConfirmation : SessionUiModel :=
  if model.reconciliationConfirmation.any fun confirmation => !model.confirmationHolds confirmation then
    { model with reconciliationConfirmation := none }
  else model

/-! ## Snapshots -/

/-- A draft whose session has arrived becomes that session. -/
def adoptAssignedSession : SessionUiModel :=
  match model.activeConversation, model.pendingSubmission.bind PendingSubmission.sessionId with
  | some .newSessionDraft, some sessionId =>
      if model.sessions.any fun session => session.sessionId = sessionId then
        { model with activeConversation := some (.session sessionId) }
      else model
  | _, _ => model

def activeSessionId : Option SessionId :=
  match model.activeConversation with
  | some (.session sessionId) => some sessionId
  | _ => none

/-- Where the session selected before stands in the new projection. -/
def reselect (selectedId : Option SessionId) : SessionUiModel :=
  let found := (selectedId.or model.activeSessionId).bind fun sessionId =>
    model.sessions.findIdx? fun session => session.sessionId = sessionId
  { model with selected := min (found.getD 0) (model.sessions.length - 1) }

def closeOverlaysWhenBlocked : SessionUiModel :=
  if model.selectedSession.any blocked then { model with commandPalette := false, help := false } else model

def hintFromSnapshot : SessionUiModel :=
  { model with reconciliationHint := model.selectedSession.bind fun session =>
      (reconciliationEffectFromSnapshot session).map fun effectId => (session.sessionId, effectId) }

/-- What every authoritative projection settles. -/
def settleProjection : SessionUiModel :=
  ((((((model.reconcilePendingSubmission E).reconcilePendingInputSubmission E).reconcilePendingModelSwitch)
    ).finalizeFailedSubmissionsAfterSnapshot).restoreStrandedFollowUp).synchronizeInputTarget

/-- A queued follow-up goes out once its session is ready. -/
def dispatchQueued : Reduced :=
  match model.queuedFollowUp, model.selectedSession.filter fun session => session.lifecycle = .ready,
      model.pendingSubmission with
  | some prompt, some session, some pending =>
      ({ model with queuedFollowUp := none },
        [.followUp pending.submissionId session.sessionId session.revision prompt])
  | _, _, _ => (model, [])

def showSnapshot (sessions : List SessionSnapshot) : SessionUiModel :=
  let selectedId := model.selectedSession.map SessionSnapshot.sessionId
  let shown := (({ model with sessions := sessions }).adoptAssignedSession).reselect selectedId
  ({ shown with connection := .connected, progress := [], status := "Transcript synchronized"
    }).closeOverlaysWhenBlocked.hintFromSnapshot

def reduceSnapshot (sessions : List SessionSnapshot) : Reduced :=
  (((model.showSnapshot sessions).settleProjection E).dropStaleConfirmation).dispatchQueued

def showOpened (snapshot : SessionSnapshot) : SessionUiModel :=
  ({ model with
    sessions := [snapshot]
    selected := 0
    activeConversation := some (.session snapshot.sessionId)
    sessionPicker := false
    commandPalette := false
    help := false
    progress := []
    scroll := 0
    status := "Resumed session " ++ snapshot.sessionId.toString }).hintFromSnapshot

def reduceSessionOpened (snapshot : SessionSnapshot) : Reduced := ((model.showOpened snapshot).settleProjection E, [])

end SessionUiModel

/-! ## Events -/

/-- What an event shows of its session. -/
def showEvent (event : SessionEventEnvelope) (session : SessionSnapshot) : SessionSnapshot :=
  let stamped := { session with revision := event.revision, sequence := event.sequence }
  match event.event with
  | .lifecycleChanged lifecycle _ => { stamped with lifecycle := lifecycle }
  | .transcriptAppended entry => { stamped with
      transcript := { session.transcript with entries := session.transcript.entries ++ [entry] } }
  | .turnLinked turn => { stamped with
      latestTurnId := some turn.turnId
      activeTurnId := some turn.turnId
      turns := session.turns ++ [turn]
      lifecycle := .running }
  | .bindingChanged _ _ => stamped
  | .reconciliationRequired _ _ => { stamped with lifecycle := .reconciliationRequired }

def eventHint (hint : Option (SessionId × String)) (event : SessionEventEnvelope) : Option (SessionId × String) :=
  match event.event with
  | .reconciliationRequired _ effectId => some (event.sessionId, effectId)
  | _ => hint

def rebinds (event : SessionEventEnvelope) : Bool :=
  match event.event with
  | .bindingChanged _ _ => true
  | _ => false

namespace SessionUiModel

variable (E : TuiEnvironment) (model : SessionUiModel)

def showSessionEvent (event : SessionEventEnvelope) : SessionUiModel :=
  { model with
    sessions := updateFirst (fun session => session.sessionId = event.sessionId) (showEvent event) model.sessions
    reconciliationHint := eventHint model.reconciliationHint event }

/-- Only the next revision of a projected session is applied; a gap asks for the snapshot. -/
def reduceEvent (event : SessionEventEnvelope) : Reduced :=
  match model.sessions.find? fun session => session.sessionId = event.sessionId with
  | none => (model, [.refreshSnapshots])
  | some session =>
      if event.revision ≠ saturatingAdd session.revision 1 then
        ({ model with connection := .snapshotRequired, progress := [] }, [.refreshSnapshots])
      else if rebinds event then
        ({ model.showSessionEvent event with connection := .snapshotRequired }, [.refreshSnapshots])
      else
        ((((model.showSessionEvent event).reconcilePendingSubmission E).reconcilePendingInputSubmission E
          ).synchronizeInputTarget, [])

end SessionUiModel

end LatteCode.Tui
