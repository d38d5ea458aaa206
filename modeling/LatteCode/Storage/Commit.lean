import LatteCode.Storage.Recovery
/- `commit_session_turn_update`: the single fenced mutation of a linked turn. -/

namespace LatteCode.Storage
open Keyed Outcome

/-- What one update asks the shared tail of the transaction to write. -/
structure Draft where
  next : TurnState
  turnChanged : Bool
  nextLifecycle : SessionLifecycle
  card : Option Card
  terminal : Bool
  reconciliationEffect : Option String
  checkpoint : Option String

section Gates

variable (session : SessionRow) (active : Option ActiveTurnRow) (request : SessionCommitRequest)

/-- Unknown-effect reconciliation happens only after the terminal path removed the active child. -/
def recoveredReconciliation : Bool :=
  active.isNone && session.lifecycle = .reconciliationRequired &&
    session.latestTurnId = some request.turnId &&
    match request.update with
    | .reconcileUnknownEffect .. => true
    | _ => false

/-- Queued prompts that can no longer execute leave a card on the latest terminal turn. -/
def terminalQueueAudit : Bool :=
  active.isNone && (session.lifecycle ∈ [.failed, .interrupted, .reconciliationRequired]) &&
    session.latestTurnId = some request.turnId &&
    match request.update with
    | .appendTranscript .. => true
    | _ => false

/-- Manual compaction appends its card while the session is idle. -/
def idleCompactionAppend : Bool :=
  active.isNone && session.lifecycle = .ready && session.latestTurnId = some request.turnId &&
    match request.update with
    | .appendTranscript _ kind .. => kind = .compactSummary || kind = .toolResultElision
    | _ => false

def activeTurnMatches (lease : Lease) : Bool :=
  match active with
  | some active => active.turnId = request.turnId && decide (active.leaseToken ≤ lease.fencingToken)
  | none => recoveredReconciliation session active request || terminalQueueAudit session active request ||
      idleCompactionAppend session active request

end Gates

/-- The fences of a fresh commit: lease, session revision, active turn, turn token, turn revision. -/
def checkFences {D : Type} (db : Database D) (request : SessionCommitRequest) (lease : Lease) (now : Nat) :
    Except StorageError (SessionRow × TurnRow) := do
  requireAuthority db (sessionLeaseScope request.sessionId) now lease
  let session ← require (db.sessions.get? request.sessionId) (.sessionNotFound request.sessionId)
  ensure (session.revision = request.expectedSessionRevision)
    (.staleSessionRevision request.expectedSessionRevision session.revision)
  ensure (activeTurnMatches session (db.sessionActiveTurns.get? request.sessionId) request lease)
    .sessionActiveTurnMismatch
  let turn ← queryRow (db.turns.get? request.turnId)
  ensure (turn.leaseToken ≤ lease.fencingToken) .leaseLost
  ensure (turn.state.revision = request.expectedTurnRevision)
    (.staleRevision request.expectedTurnRevision turn.state.revision)
  .ok (session, turn)

section Ledger

variable {D : Type}

/-- `UPDATE effects SET status=to,… WHERE effect_id=.. AND turn_id=.. AND status=from`. -/
def moveEffect (db : Database D) (effectId : String) (turnId : TurnId) (source target : EffectStatus)
    (evidence : Json) (now : Nat) : Database D :=
  { db with
    effects := db.effects.modify effectId fun row =>
      if row.turnId = turnId ∧ row.status = source then
        { row with status := target, postEvidence := some evidence, observedAtMs := some now }
      else row }

def effectIn (db : Database D) (effectId : String) (turnId : TurnId) (status : EffectStatus) : Bool :=
  db.effects.holds effectId fun row => row.turnId = turnId && row.status = status

def effectMatches (db : Database D) (effectId : String) (turnId : TurnId) (status : EffectStatus)
    (digest : String) : Bool :=
  db.effects.holds effectId fun row =>
    row.turnId = turnId && row.status = status && row.approvalDigest = digest

def consumePermissionOf (db : Database D) (effectId : String) (turnId : TurnId) (now : Nat) : Database D :=
  { db with
    pendingPermissions := db.pendingPermissions.modify effectId fun row =>
      if row.turnId = turnId then consumePermission row now else row }

/-- The unconsumed permission of a prepared effect of this turn, with the effect. -/
def preparedPermission (db : Database D) (effectId : String) (turnId : TurnId) :
    Option (PermissionRow × EffectRow) :=
  (db.pendingPermissions.get? effectId).bind fun permission =>
    (db.effects.get? effectId).bind fun effect =>
      if permission.turnId = turnId ∧ effect.turnId = turnId ∧ permission.consumedAtMs = none ∧
          effect.status = .prepared then
        some (permission, effect)
      else none

end Ledger

def policyMarker : SessionEffectPolicy → String
  | .allow => "\x7b\"session_policy\":\"allow\"\x7d"
  | .ask => "\x7b\"session_policy\":\"ask\"\x7d"

def cardKey (sourceKey : String) : String := sourceKey ++ ":card"

section Updates

variable (E : Environment) (db : E.Db) (turnId : TurnId) (lease : Lease) (now : Nat)
  (current : TurnState) (lifecycle : SessionLifecycle)

/-- The draft before the `match`: nothing changes. -/
def idleDraft : Draft where
  next := current
  turnChanged := false
  nextLifecycle := lifecycle
  card := none
  terminal := false
  reconciliationEffect := none
  checkpoint := none

def applyStart : Except StorageError (Draft × E.Db) := do
  let next ← transitionOr (current.transition current.revision .start)
  .ok ({ idleDraft current lifecycle with next := next, turnChanged := true, nextLifecycle := .running }, db)

def applyAppendTranscript (sourceKey : String) (kind : TranscriptKind) (text : String)
    (payload : Option Json) : Except StorageError (Draft × E.Db) :=
  .ok ({ idleDraft current lifecycle with
    card := some ⟨kind, E.redactSessionText text, payload.map E.redactSessionValue, sourceKey⟩ }, db)

/-- The prepared row, its exact descriptor, and for `Ask` the permission bound two revisions ahead. -/
def insertPrepared (effectId operationDigest descriptorJson canonicalDescriptorJson : String)
    (policy : SessionEffectPolicy) : Except StorageError E.Db := do
  toI64s [now]
  unique (db.effects.get? effectId = none) "effects.effect_id"
  unique (db.sessionEffectCanonical.get? effectId = none) "session_effect_canonical.effect_id"
  .ok { db with
    effects := db.effects.add effectId
      { turnId := turnId
        status := .prepared
        startedAtMs := now
        descriptorJson := descriptorJson
        approvalDigest := operationDigest
        preEvidenceJson := policyMarker policy
        postEvidence := none
        preparedAtMs := now
        observedAtMs := none }
    sessionEffectCanonical := db.sessionEffectCanonical.add effectId ⟨turnId, canonicalDescriptorJson⟩ }

def insertPermission (effectId operationDigest : String) : Except StorageError E.Db := do
  let postApprovalRevision ← addOr current.revision 2 "revision overflow"
  toI64s [postApprovalRevision, lease.fencingToken]
  unique (db.pendingPermissions.get? effectId = none) "pending_permissions.effect_id"
  unique (¬ db.pendingPermissions.anyRow fun _ row => row.approvalDigest = operationDigest)
    "pending_permissions.approval_digest"
  .ok { db with
    pendingPermissions := db.pendingPermissions.add effectId
      ⟨turnId, postApprovalRevision, lease.owner, lease.fencingToken, operationDigest, none⟩ }

def applyPrepareEffect (sourceKey effectId operationDigest descriptorJson canonicalDescriptorJson : String)
    (policy : SessionEffectPolicy) (description checkpointJson : String) :
    Except StorageError (Draft × E.Db) := do
  validateSessionEffectId effectId
  validateSessionDigest operationDigest
  let descriptor ← invalidJson (E.fromStr descriptorJson)
  invalidJson (E.descriptorFromStr canonicalDescriptorJson)
  let _ ← invalidJson (E.fromStr checkpointJson)
  ensure (current.status = .running) (.invalidData "only a running linked child can prepare an effect")
  let db ← insertPrepared E db turnId now effectId operationDigest descriptorJson canonicalDescriptorJson policy
  let draft := { idleDraft current lifecycle with
    card := some ⟨.toolCall, E.redactSessionText description,
      some (E.redactSessionValue (.ofMembers [("descriptor", descriptor),
        ("operation_digest", .string operationDigest)])), cardKey sourceKey⟩
    checkpoint := some checkpointJson }
  match policy with
  | .allow => .ok (draft, db)
  | .ask => do
      let next ← transitionOr (current.transition current.revision (.requestPermission
        ⟨E.redactSessionText effectId, E.redactSessionText operationDigest, E.redactSessionText description⟩))
      let db ← insertPermission E db turnId lease current effectId operationDigest
      .ok ({ draft with next := next, turnChanged := true, nextLifecycle := .waitingPermission }, db)

/-- Durable authority to start: a bound unconsumed permission, which is used up, or an allow policy. -/
def authorizeStart (effectId : String) (effect : EffectRow) : Except StorageError E.Db :=
  match (db.pendingPermissions.get? effectId).filter fun row => row.turnId = turnId with
  | some permission => do
      ensure (permission.turnRevision = current.revision ∧ permission.leaseOwner = lease.owner ∧
          permission.leaseToken = lease.fencingToken ∧ permission.consumedAtMs = none)
        (.invalidData "prepared permission is stale, mismatched, or consumed")
      .ok (consumePermissionOf db effectId turnId now)
  | none => do
      ensure (effect.preEvidenceJson = policyMarker .allow)
        (.invalidData "prepared effect has no durable allow authorization")
      .ok db

def startedCardPayload (effectId status : String) : Json :=
  .ofMembers [("effect_id", .string (E.redactSessionText effectId)), ("status", .string status)]

def applyStartEffect (sourceKey effectId operationDigest checkpointJson : String) :
    Except StorageError (Draft × E.Db) := do
  validateSessionEffectId effectId
  validateSessionDigest operationDigest
  let _ ← invalidJson (E.fromStr checkpointJson)
  ensure (current.status = .running ∧ current.pendingPermission = none ∧ current.pendingInput = none)
    (.invalidData "effect start requires a running child without a pending request")
  let effect ← require ((db.effects.get? effectId).filter fun row =>
      row.turnId = turnId && row.status = .prepared)
    (.invalidData "effect is not a prepared linked effect")
  ensure (effect.approvalDigest = operationDigest) (.invalidData "effect digest mismatch")
  toI64s [now]
  let db ← authorizeStart E db turnId lease now current effectId effect
  ensure (effectMatches db effectId turnId .prepared operationDigest) .effectFenced
  let db := { db with
    effects := db.effects.modify effectId fun row => { row with status := .started, startedAtMs := now } }
  ensure (db.turns.holds turnId fun row => row.revision = current.revision &&
    decide (row.leaseToken ≤ lease.fencingToken)) .leaseLost
  let db := { db with
    turns := db.turns.modify turnId fun row =>
      { row with effectEpoch := row.effectEpoch + 1, leaseToken := lease.fencingToken, updatedAtMs := now } }
  .ok ({ idleDraft current lifecycle with
    card := some ⟨.system, "tool started", some (startedCardPayload E effectId "started"), cardKey sourceKey⟩
    checkpoint := some checkpointJson }, db)

def applyObserveEffect (sourceKey effectId operationDigest : String) (success : Bool) (result : String)
    (payload : Option Json) (checkpointJson : String) : Except StorageError (Draft × E.Db) := do
  validateSessionEffectId effectId
  validateSessionDigest operationDigest
  let _ ← invalidJson (E.fromStr checkpointJson)
  ensure (current.status = .running) (.invalidData "effect observation requires a running linked child")
  toI64s [now]
  ensure (effectMatches db effectId turnId .started operationDigest) .effectFenced
  let db := moveEffect db effectId turnId .started (if success then .observedSuccess else .observedFailed)
    (E.redactSessionValue (.ofMembers [("result", .string result), ("payload", .ofOption payload)])) now
  .ok ({ idleDraft current lifecycle with
    card := some ⟨.toolResult, E.redactSessionText result, payload.map E.redactSessionValue, cardKey sourceKey⟩
    checkpoint := some checkpointJson }, db)

/-- The two transitions of a cancellation, collapsed into the state they end in. -/
def cancelled : Except StorageError TurnState := do
  let cancelling ← transitionOr (current.transition current.revision .cancel)
  transitionOr (cancelling.transition cancelling.revision .interrupt)

def applyUnknownEffect (sourceKey effectId operationDigest checkpointJson : String) :
    Except StorageError (Draft × E.Db) := do
  validateSessionEffectId effectId
  validateSessionDigest operationDigest
  let _ ← invalidJson (E.fromStr checkpointJson)
  toI64s [now]
  ensure (effectMatches db effectId turnId .started operationDigest) .effectFenced
  let db := moveEffect db effectId turnId .started .unknown
    (.ofMembers [("outcome", .string "uncertain")]) now
  let next ← cancelled current
  .ok ({
    next := next
    turnChanged := true
    nextLifecycle := .reconciliationRequired
    card := some ⟨.failure, "effect outcome unknown; reconciliation required",
      some (startedCardPayload E effectId "unknown"), cardKey sourceKey⟩
    terminal := true
    reconciliationEffect := some (E.redactSessionText effectId)
    checkpoint := some checkpointJson }, db)

def reconciledFailure (effectId : String) : TurnFailure where
  code := .runtimeFailed
  message := "unknown effect " ++ E.redactSessionText effectId ++ " acknowledged failed; turn aborted"
  retryability := .terminal

/-- Recovery recorded `Interrupted`; the acknowledgement terminalizes that exact child
without a transition that the state machine does not have. -/
def reconciled (recovered : Bool) (effectId : String) : Except StorageError TurnState :=
  if recovered then do
    ensure (current.status = .interrupted)
      (.invalidData "recovered reconciliation requires an interrupted child")
    let revision ← addOr current.revision 1 "revision overflow"
    .ok { current with
      status := .failed
      revision := revision
      failure := some (reconciledFailure E effectId)
      pendingInput := none
      pendingPermission := none }
  else transitionOr (current.transition current.revision (.fail (reconciledFailure E effectId)))

def applyReconcileUnknownEffect (recovered : Bool) (sourceKey effectId checkpointJson : String) :
    Except StorageError (Draft × E.Db) := do
  validateSessionEffectId effectId
  let _ ← invalidJson (E.fromStr checkpointJson)
  toI64s [now]
  ensure (effectIn db effectId turnId .unknown)
    (.invalidData "unknown effect does not belong to linked child")
  let db := moveEffect db effectId turnId .unknown .observedFailed
    (.ofMembers [("reconciliation", .string "acknowledged_failed")]) now
  let next ← reconciled E current recovered effectId
  .ok ({
    next := next
    turnChanged := true
    nextLifecycle := .failed
    card := some ⟨.failure, "unknown effect acknowledged failed; turn aborted",
      some (startedCardPayload E effectId "reconciled"), cardKey sourceKey⟩
    terminal := true
    reconciliationEffect := none
    checkpoint := some checkpointJson }, db)

def applyRequestPermission (sourceKey : String) (request : PendingPermission) :
    Except StorageError (Draft × E.Db) := do
  let next ← transitionOr (current.transition current.revision
    (.requestPermission (redactPermission E request)))
  .ok ({ idleDraft current lifecycle with
    next := next
    turnChanged := true
    nextLifecycle := .waitingPermission
    card := some ⟨.permission, (next.pendingPermission.map fun value =>
      E.redactSessionText value.description).getD "permission requested", none, cardKey sourceKey⟩ }, db)

/-- Moves the permission of a prepared effect to the resolving lease, under a fresh digest. -/
def rebindPermission (requestId : String) (permission : PermissionRow) (effect : EffectRow)
    (nextRevision : Nat) (rebound : Option String) : Except StorageError E.Db := do
  ensure (permission.turnRevision = nextRevision ∧ permission.approvalDigest = effect.approvalDigest)
    (.invalidData "prepared permission binding is corrupt or stale")
  match rebound with
  | none => do
      ensure (permission.leaseOwner = lease.owner ∧ permission.leaseToken = lease.fencingToken) .leaseLost
      .ok db
  | some digest => do
      validateSessionDigest digest
      toI64s [lease.fencingToken, nextRevision]
      unique (¬ db.pendingPermissions.anyRow fun other row =>
        other ≠ requestId && row.approvalDigest = digest) "pending_permissions.approval_digest"
      .ok { db with
        effects := db.effects.modify requestId fun row => { row with approvalDigest := digest }
        pendingPermissions := db.pendingPermissions.modify requestId fun row =>
          { row with leaseOwner := lease.owner, leaseToken := lease.fencingToken, approvalDigest := digest } }

def resolveAllowed (requestId : String) (nextRevision : Nat) (rebound : Option String) :
    Except StorageError E.Db :=
  match preparedPermission db requestId turnId with
  | some (permission, effect) => rebindPermission E db lease requestId permission effect nextRevision rebound
  | none => do
      ensure (rebound = none) (.invalidData "prepared permission capability is missing")
      .ok db

/-- Denial consumes the capability and records that the prepared effect never executed. -/
def resolveDenied (requestId : String) : E.Db :=
  moveEffect (consumePermissionOf db requestId turnId now) requestId turnId .prepared .observedFailed
    (.ofMembers [("permission", .string "denied_before_start")]) now

def applyResolvePermission (sourceKey requestId : String) (allow : Bool) (rebound : Option String) :
    Except StorageError (Draft × E.Db) := do
  let next ← transitionOr (current.transition current.revision
    (.resolvePermission (E.redactSessionText requestId) allow))
  if allow then do
    let db ← resolveAllowed E db turnId lease requestId next.revision rebound
    .ok ({ idleDraft current lifecycle with
      next := next
      turnChanged := true
      nextLifecycle := .running
      card := some ⟨.system, "permission allowed", none, cardKey sourceKey⟩ }, db)
  else do
    toI64s [now]
    .ok ({ idleDraft current lifecycle with
      next := next
      turnChanged := true
      nextLifecycle := .ready
      card := some ⟨.failure, "permission denied",
        some (.ofMembers [("provider_tool_round_aborted", .string "permission_denied")]), cardKey sourceKey⟩
      terminal := true }, resolveDenied E db turnId now requestId)

def applyRequestInput (sourceKey : String) (request : PendingInput) :
    Except StorageError (Draft × E.Db) := do
  let next ← transitionOr (current.transition current.revision (.requestInput (redactInput E request)))
  .ok ({ idleDraft current lifecycle with
    next := next
    turnChanged := true
    nextLifecycle := .waitingInput
    card := some ⟨.input, (next.pendingInput.map fun value =>
      E.redactSessionText value.prompt).getD "input requested", none, cardKey sourceKey⟩ }, db)

def applyProvideInput (sourceKey requestId value : String) : Except StorageError (Draft × E.Db) := do
  let next ← transitionOr (current.transition current.revision (.provideInput (E.redactSessionText requestId)))
  .ok ({ idleDraft current lifecycle with
    next := next
    turnChanged := true
    nextLifecycle := .running
    card := some ⟨.user, E.redactSessionText value, none, cardKey sourceKey⟩ }, db)

/-- The terminal draft of a completed turn. -/
def completedDraft (next : TurnState) (sourceKey : String) : Draft :=
  { idleDraft current lifecycle with
    next := next
    turnChanged := true
    nextLifecycle := .ready
    card := some ⟨.completion, (next.handoff.map fun value =>
        E.redactSessionText value.summary).getD "completed",
      next.handoff.map fun handoff => .ofMembers [("handoff", (redactHandoff E handoff).toJson)],
      cardKey sourceKey⟩
    terminal := true }

def applyComplete (sourceKey : String) (handoff : Handoff) : Except StorageError (Draft × E.Db) := do
  let next ← transitionOr (current.transition current.revision
    (.complete (redactHandoff E handoff) .verificationNotRequired))
  .ok (completedDraft E current lifecycle next sourceKey, db)

/-- `SELECT metadata_json FROM evidence WHERE turn_id=.. ORDER BY rowid DESC LIMIT 1`. -/
def latestEvidence : Option EvidenceRow :=
  ((db.evidence.select fun _ row => row.turnId = turnId).getLast?).map Prod.snd

/-- The newest record, when it is a passing verification of this revision and effect epoch. -/
def currentVerification (verificationEffectId verifiedManifestDigest : String) :
    Except StorageError VerificationRecord := do
  let turn ← queryRow (db.turns.get? turnId)
  let record ← match latestEvidence E db turnId with
    | none => .ok none
    | some row => do
        let record ← invalidJson (E.verificationRecordFromStr row.metadataJson)
        .ok (some record)
  require (record.filter fun record => record.revision = current.revision &&
      record.effectEpoch = turn.effectEpoch && record.effectId = verificationEffectId && record.passed &&
      record.workspaceManifestDigest = verifiedManifestDigest)
    (.invalidData "missing current passing verification evidence for linked child")

def verifiedHandoff (record : VerificationRecord) (summary verificationEffectId verifiedManifestDigest : String)
    (filesChanged : List String) : Handoff where
  summary := E.redactSessionText summary
  filesChanged := filesChanged.map E.redactSessionText
  evidence := [{
    name := "verification: " ++ E.redactSessionText verificationEffectId
    status := .passed
    summary := E.redactSessionText record.summary ++ "; verified_manifest_sha256=" ++
      E.redactSessionText verifiedManifestDigest ++ "; verified_at_ms=" ++ toString now ++
      "; change_source=manifest_v1" }]

def applyCompleteVerified (sourceKey summary verificationEffectId verifiedManifestDigest : String)
    (filesChanged : List String) : Except StorageError (Draft × E.Db) := do
  let record ← currentVerification E db turnId current verificationEffectId verifiedManifestDigest
  let next ← transitionOr (current.transition current.revision (.complete
    (verifiedHandoff E now record summary verificationEffectId verifiedManifestDigest filesChanged)
    .verificationRequired))
  .ok (completedDraft E current lifecycle next sourceKey, db)

def applyFail (sourceKey : String) (failure : TurnFailure) : Except StorageError (Draft × E.Db) := do
  let next ← transitionOr (current.transition current.revision (.fail (redactFailure E failure)))
  .ok ({ idleDraft current lifecycle with
    next := next
    turnChanged := true
    nextLifecycle := if failure.retryability = .retryable then .ready else .failed
    card := some ⟨.failure, (next.failure.map fun value =>
      E.redactSessionText value.message).getD "failed", none, cardKey sourceKey⟩
    terminal := true }, db)

/-- A waiting request has started nothing, so its cancellation is a terminal `Cancelled`. -/
def applyInterruptWaiting (sourceKey : String) : Except StorageError (Draft × E.Db) := do
  let revision ← addOr current.revision 1 "revision overflow"
  toI64s [now]
  let db := match current.pendingPermission with
    | none => db
    | some permission =>
        moveEffect (consumePermissionOf db permission.requestId turnId now) permission.requestId turnId
          .prepared .observedFailed (.ofMembers [("cancelled", .string "before_start")]) now
  .ok ({ idleDraft current lifecycle with
    next := { current with
      revision := revision
      status := .failed
      pendingInput := none
      pendingPermission := none
      failure := some ⟨.cancelled, "run cancelled while waiting", .terminal⟩ }
    turnChanged := true
    nextLifecycle := .failed
    card := some ⟨.failure, "turn interrupted", none, cardKey sourceKey⟩
    terminal := true }, db)

/-- The effect an interruption holds uncertain: the caller's, else the newest started one. -/
def interruptedEffect (reconciliationEffectId : Option String) : Option String :=
  match reconciliationEffectId with
  | some effectId => some (E.redactSessionText effectId)
  | none => (effectIds db turnId .started).getLast?

def applyInterruptRunning (sourceKey : String) (reconciliationEffectId : Option String) :
    Except StorageError (Draft × E.Db) := do
  toI64s [now]
  let uncertain := interruptedEffect E db turnId reconciliationEffectId
  let db := match uncertain with
    | none => db
    | some effectId => moveEffect db effectId turnId .started .unknown
        (.ofMembers [("outcome", .string "cancelled_after_start")]) now
  let next ← cancelled current
  .ok ({ idleDraft current lifecycle with
    next := next
    turnChanged := true
    nextLifecycle := if uncertain.isSome then .reconciliationRequired else .interrupted
    card := some ⟨.failure, if uncertain.isSome then "effect outcome unknown; reconciliation required"
      else "turn interrupted", none, cardKey sourceKey⟩
    terminal := true
    reconciliationEffect := uncertain }, db)

def applyInterrupt (sourceKey : String) (reconciliationEffectId : Option String) :
    Except StorageError (Draft × E.Db) :=
  if current.status = .waitingPermission ∨ current.status = .waitingInput then
    applyInterruptWaiting E db turnId now current lifecycle sourceKey
  else applyInterruptRunning E db turnId now current lifecycle sourceKey reconciliationEffectId

def applyUpdate (recovered : Bool) : CommitSessionTurnUpdate → Except StorageError (Draft × E.Db)
  | .start _ => applyStart E db current lifecycle
  | .appendTranscript sourceKey kind text payload =>
      applyAppendTranscript E db current lifecycle sourceKey kind text payload
  | .prepareEffect sourceKey effectId digest descriptor canonical policy description checkpoint =>
      applyPrepareEffect E db turnId lease now current lifecycle sourceKey effectId digest descriptor
        canonical policy description checkpoint
  | .startEffect sourceKey effectId digest checkpoint =>
      applyStartEffect E db turnId lease now current lifecycle sourceKey effectId digest checkpoint
  | .observeEffect sourceKey effectId digest success result payload checkpoint =>
      applyObserveEffect E db turnId now current lifecycle sourceKey effectId digest success result
        payload checkpoint
  | .unknownEffect sourceKey effectId digest checkpoint =>
      applyUnknownEffect E db turnId now current sourceKey effectId digest checkpoint
  | .reconcileUnknownEffect sourceKey effectId checkpoint =>
      applyReconcileUnknownEffect E db turnId now current recovered sourceKey effectId checkpoint
  | .requestPermission sourceKey request => applyRequestPermission E db current lifecycle sourceKey request
  | .resolvePermission sourceKey requestId allow rebound =>
      applyResolvePermission E db turnId lease now current lifecycle sourceKey requestId allow rebound
  | .requestInput sourceKey request => applyRequestInput E db current lifecycle sourceKey request
  | .provideInput sourceKey requestId value =>
      applyProvideInput E db current lifecycle sourceKey requestId value
  | .complete sourceKey handoff => applyComplete E db current lifecycle sourceKey handoff
  | .completeVerified sourceKey summary effectId digest files =>
      applyCompleteVerified E db turnId now current lifecycle sourceKey summary effectId digest files
  | .fail sourceKey failure => applyFail E db current lifecycle sourceKey failure
  | .interrupt sourceKey effectId => applyInterrupt E db turnId now current lifecycle sourceKey effectId

end Updates

section Tail

variable (E : Environment) (request : SessionCommitRequest) (lease : Lease) (now : Nat)

def writeTurn (db : E.Db) (turn : TurnRow) (draft : Draft) : Except StorageError E.Db :=
  if draft.turnChanged then
    appendLinkedTurnTransition db turn.state draft.next turn.lastSeq lease.fencingToken now
  else do
    ensure (db.turns.holds request.turnId fun row => decide (row.leaseToken ≤ lease.fencingToken)) .leaseLost
    .ok { db with
      turns := db.turns.modify request.turnId fun row =>
        { row with leaseToken := lease.fencingToken, updatedAtMs := now } }

def writeCheckpoint (db : E.Db) (checkpoint : Option String) : E.Db :=
  match checkpoint with
  | none => db
  | some payload => { db with
      runtimeCheckpoints := db.runtimeCheckpoints.put request.turnId ⟨payload, now⟩ }

def countsAsToolRound (card : Card) : Bool :=
  card.kind = .assistant && (card.payload.bind (Json.get? "tool_calls")).any Json.isNonemptyArray

def commitEntry (sequence : Nat) (card : Card) : TranscriptEntry where
  entryId := E.newEntryId request.sessionId sequence
  sequence := sequence
  turnId := some request.turnId
  kind := card.kind
  text := card.text
  payload := card.payload
  sourceKey := card.sourceKey
  createdAtMs := now

def writeCard (db : E.Db) (sequence : Nat) (card : Option Card) :
    Except StorageError (Option TranscriptEntry × E.Db) :=
  match card with
  | none => .ok (none, db)
  | some card => do
      let entry := commitEntry E request now sequence card
      let db ← insertTranscript db request.sessionId entry
      .ok (some entry, { db with
        sessionTurns := if countsAsToolRound card then
            db.sessionTurns.modify request.turnId fun row =>
              { row with toolRoundCount := row.toolRoundCount + 1 }
          else db.sessionTurns })

/-- A terminal commit removes the active row and expires the lease in place. -/
def settleActive (db : E.Db) (terminal : Bool) : Except StorageError E.Db :=
  if terminal then do
    ensure (db.authoritative (sessionLeaseScope request.sessionId) lease.owner lease.fencingToken now) .leaseLost
    .ok { db with
      sessionTurns := db.sessionTurns.modify request.turnId fun row => { row with completedAtMs := some now }
      sessionActiveTurns := db.sessionActiveTurns.deleteWhere fun key row =>
        key = request.sessionId && row.turnId = request.turnId
      runtimeLease := db.runtimeLease.modify (sessionLeaseScope request.sessionId) fun row =>
        { row with expiresAtMs := 0 } }
  else
    .ok { db with
      sessionActiveTurns := db.sessionActiveTurns.modify request.sessionId fun row =>
        if row.turnId = request.turnId then { row with leaseToken := lease.fencingToken } else row }

/-- The event of a commit: its card if it has one, else what the update did. -/
def commitEvent (draft : Draft) (transcript : Option TranscriptEntry) : SessionEvent :=
  match transcript with
  | some entry => .transcriptAppended entry
  | none =>
      match draft.reconciliationEffect with
      | some effectId => .reconciliationRequired request.turnId effectId
      | none => .lifecycleChanged draft.nextLifecycle (some request.turnId)

def updateSession (db : E.Db) (draft : Draft) (revision sequence : Nat) : E.Db :=
  { db with
    sessions := db.sessions.modify request.sessionId fun row =>
      { row with
        revision := revision
        lastSeq := sequence
        lifecycle := draft.nextLifecycle
        latestTurnId := some request.turnId
        updatedAtMs := now } }

/-- Both deduplication rows of an accepted commit. -/
def recordCommit (db : E.Db) (response : SessionCommitResponse) : Except StorageError E.Db := do
  let digest := sessionCommandDigest E request
  unique (db.sessionCommandDedup.get? request.commandId = none) "session_command_dedup.command_id"
  unique (db.sessionCommitSources.get? (request.sessionId, request.update.sourceKey) = none)
    "session_commit_sources.session_id, session_commit_sources.source_key"
  .ok { db with
    sessionCommandDedup := db.sessionCommandDedup.add request.commandId ⟨digest, .response response, now⟩
    sessionCommitSources := db.sessionCommitSources.add (request.sessionId, request.update.sourceKey)
      ⟨digest, response⟩ }

/-- The shared tail: turn, checkpoint, card, active row, session, event, deduplication. -/
def writeCommit (db : E.Db) (session : SessionRow) (turn : TurnRow) (draft : Draft) :
    Except StorageError (SessionCommitResponse × E.Db) := do
  let revision ← addOr session.revision 1 "session revision overflow"
  let sequence ← addOr session.lastSeq 1 "session sequence overflow"
  let db ← writeTurn E request lease now db turn draft
  let db := writeCheckpoint E request now db draft.checkpoint
  let (transcript, db) ← writeCard E request now db sequence draft.card
  let db ← settleActive E request lease now db draft.terminal
  let db := updateSession E request now db draft revision sequence
  let (stored, db) ← insertSessionEvent db request.sessionId revision sequence
    (commitEvent request draft transcript) now
  let snapshot ← currentSessionSnapshot E db request.sessionId SESSION_PROJECTION_TRANSCRIPT_LIMIT
  let db ← recordCommit E request now db ⟨snapshot, stored⟩
  .ok (⟨snapshot, stored⟩, db)

/-- A commit that neither deduplication table answers. -/
def commitFresh (db : E.Db) : Except StorageError (SessionCommitResponse × E.Db) := do
  let (session, turn) ← checkFences db request lease now
  let recovered := recoveredReconciliation session (db.sessionActiveTurns.get? request.sessionId) request
  let (draft, db) ← applyUpdate E db request.turnId lease now turn.state session.lifecycle recovered
    request.update
  writeCommit E request lease now db session turn draft

/-- A source key that is already committed answers under a new command id. -/
def replaySource (db : E.Db) (row : CommitSourceRow E.Digest) :
    Except StorageError (SessionCommitResponse × E.Db) := do
  ensure (row.digest = sessionCommandDigest E request) .sessionCommandReplayMismatch
  toI64s [now]
  unique (db.sessionCommandDedup.get? request.commandId = none) "session_command_dedup.command_id"
  .ok (row.response, { db with
    sessionCommandDedup := db.sessionCommandDedup.add request.commandId
      ⟨sessionCommandDigest E request, .response row.response, now⟩ })

def replayCommand (db : E.Db) (row : CommandRow E.Digest) :
    Except StorageError (SessionCommitResponse × E.Db) := do
  ensure (row.digest = sessionCommandDigest E request) .sessionCommandReplayMismatch
  let response ← decodeResponse E.missingField row.result
  .ok (response, db)

def commitSessionTurnUpdate (db : E.Db) : Except StorageError (SessionCommitResponse × E.Db) := do
  requireLeaseScope lease (sessionLeaseScope request.sessionId)
  validateSessionSource request.update.sourceKey
  match db.sessionCommandDedup.get? request.commandId with
  | some row => replayCommand E request db row
  | none =>
      match db.sessionCommitSources.get? (request.sessionId, request.update.sourceKey) with
      | some row => replaySource E request now db row
      | none => commitFresh E request lease now db

end Tail

end LatteCode.Storage
