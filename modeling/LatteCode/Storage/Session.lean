import LatteCode.Storage.Commit
/- Session operations outside a turn: model switch, fork, rename and outbox acknowledgement,
with the writers of evidence and of direct v1 turns. -/

namespace LatteCode.Storage
open Keyed Outcome

section Binding

variable (E : Environment) (sessionId : SessionId) (binding : SessionProviderBinding) (now : Nat)

def switchCard (revision sequence : Nat) : TranscriptEntry where
  entryId := E.newEntryId sessionId sequence
  sequence := sequence
  turnId := none
  kind := .system
  text := "Model switched to " ++ binding.providerName ++ "/" ++ binding.model
  payload := some (.ofMembers [("provider_name", .string binding.providerName), ("model", .string binding.model)])
  sourceKey := "session:model:" ++ toString revision
  createdAtMs := now

def switchSessionBindingV2 (db : E.Db) (expectedSessionRevision : Nat) (lease : Lease) :
    Except StorageError (SessionCommitResponse × E.Db) := do
  invalidJson binding.validate
  requireLeaseScope lease (sessionLeaseScope sessionId)
  requireAuthority db (sessionLeaseScope sessionId) now lease
  let session ← require (db.sessions.get? sessionId) (.sessionNotFound sessionId)
  ensure (session.revision = expectedSessionRevision)
    (.staleSessionRevision expectedSessionRevision session.revision)
  ensure (session.lifecycle = .ready ∧ db.sessionActiveTurns.get? sessionId = none)
    (.invalidData "model switching requires a ready session with no active child")
  ensure (session.binding ≠ binding) (.invalidData "selected provider and model are already active")
  let revision ← addOr session.revision 1 "session revision overflow"
  let sequence ← addOr session.lastSeq 1 "session sequence overflow"
  let db ← insertTranscript db sessionId (switchCard E sessionId binding now revision sequence)
  let (stored, db) ← insertSessionEvent db sessionId revision sequence
    (.bindingChanged binding.providerName binding.model) now
  let db := { db with
    sessions := db.sessions.modify sessionId fun row =>
      { row with revision := revision, lastSeq := sequence, binding := binding, updatedAtMs := now } }
  let snapshot ← currentSessionSnapshot E db sessionId SESSION_PROJECTION_TRANSCRIPT_LIMIT
  .ok (⟨snapshot, stored⟩, db)

end Binding

section Fork

variable (E : Environment) (sourceSessionId forkSessionId : SessionId)

/-- A copied card: redacted again, detached from its turn, under a key of the fork. -/
def forkEntry (source : TranscriptEntry) : TranscriptEntry where
  entryId := E.newEntryId forkSessionId source.sequence
  sequence := source.sequence
  turnId := none
  kind := source.kind
  text := E.redactSessionText source.text
  payload := source.payload.map E.redactSessionValue
  sourceKey := "fork:" ++ sourceSessionId.toString ++ ":" ++ toString source.sequence
  createdAtMs := source.createdAtMs

def copyForkEntry (copied : Nat × E.Db) (source : TranscriptEntry) : Except StorageError (Nat × E.Db) := do
  ensure (copied.1 < source.sequence) (.invalidData "fork history is not a strictly increasing sequence")
  let db ← insertTranscript copied.2 forkSessionId (forkEntry E sourceSessionId forkSessionId source)
  .ok (source.sequence, db)

def forkedSession (source : SessionRow) (history : List TranscriptEntry) (title : Option String) (now : Nat) :
    SessionRow where
  revision := 0
  lastSeq := (history.getLast?.map TranscriptEntry.sequence).getD 0
  lifecycle := .ready
  binding := source.binding
  latestTurnId := none
  createdAtMs := now
  updatedAtMs := now
  title := sessionTitle E (title.getD (source.title ++ " (fork)"))
  workspaceRoot := source.workspaceRoot
  focus := source.focus
  parentSessionId := some sourceSessionId

def createSessionFork (db : E.Db) (history : List TranscriptEntry) (title : Option String) (now : Nat) :
    Except StorageError (Unit × E.Db) := do
  let source ← require (db.sessions.get? sourceSessionId) (.sessionNotFound sourceSessionId)
  let session := forkedSession E sourceSessionId source history title now
  toI64s [session.lastSeq, now]
  unique (db.sessions.get? forkSessionId = none) "sessions.session_id"
  let db := { db with sessions := db.sessions.add forkSessionId session }
  let (_, db) ← history.foldlM (copyForkEntry E sourceSessionId forkSessionId) (0, db)
  .ok ((), db)

end Fork

variable (E : Environment) (db : E.Db)

def renameSession (sessionId : SessionId) (title : String) : Except StorageError (Unit × E.Db) := do
  ensure (¬ (trim title).isEmpty) (.invalidData "session title must not be empty")
  ensure (db.sessions.get? sessionId ≠ none) (.sessionNotFound sessionId)
  .ok ((), { db with
    sessions := db.sessions.modify sessionId fun row => { row with title := sessionTitle E (trim title) } })

/-- Drops the outbox rows that the conversation log has taken over. -/
def acknowledgeConversationOutbox (sessionId : SessionId) (throughSequence : Nat) :
    Except StorageError (Unit × E.Db) := do
  toI64s [throughSequence]
  .ok ((), { db with
    conversationOutbox := db.conversationOutbox.deleteWhere fun key _ =>
      key.1 = sessionId && decide (key.2 ≤ throughSequence) })

structure VerificationEvidence where
  id : String
  metadataJson : String
  blobRef : Option String

/-- The lease scope of a turn: its session's when it is linked, else the legacy runtime. -/
def evidenceScope (turnId : TurnId) : LeaseScope :=
  match db.sessionTurns.get? turnId with
  | some row => sessionLeaseScope row.sessionId
  | none => .runtime

/-- The turn is at this revision and epoch under the lease, and active if it is linked. -/
def evidenceAdmitted (turnId : TurnId) (expectedRevision effectEpoch token : Nat) : Bool :=
  (db.turns.holds turnId fun row =>
    row.revision = expectedRevision && row.effectEpoch = effectEpoch && row.leaseToken = token) &&
  match db.sessionTurns.get? turnId with
  | none => true
  | some link => db.sessionActiveTurns.holds link.sessionId fun row =>
      row.turnId = turnId && row.leaseToken = token

def recordVerificationEvidence (turnId : TurnId) (expectedRevision : Nat) (lease : Lease)
    (evidence : VerificationEvidence) (now : Nat) : Except StorageError (Unit × E.Db) := do
  let _ ← invalidJson (E.fromStr evidence.metadataJson)
  let record ← invalidJson (E.verificationRecordFromStr evidence.metadataJson)
  requireLeaseScope lease (evidenceScope E db turnId)
  toI64s [lease.fencingToken, now, expectedRevision, record.effectEpoch]
  ensure (db.authoritative (evidenceScope E db turnId) lease.owner lease.fencingToken now ∧
    evidenceAdmitted E db turnId expectedRevision record.effectEpoch lease.fencingToken) .leaseLost
  unique (db.evidence.get? evidence.id = none) "evidence.id"
  .ok ((), { db with
    evidence := db.evidence.add evidence.id ⟨turnId, evidence.metadataJson, evidence.blobRef⟩ })

/-- A direct v1 turn, which no session links. -/
def createRunWithBaseline (state : TurnState) (now : Nat) (baseline : Option (List (String × String))) :
    Except StorageError (Unit × E.Db) := do
  toI64s [state.revision, now]
  unique (db.turns.get? state.turnId = none) "turns.turn_id"
  unique (db.turnReadModel.get? state.turnId = none) "turn_read_model.turn_id"
  ensure (baseline = none ∨ db.turnBaselines.get? state.turnId = none)
    (.sql "UNIQUE constraint failed: turn_baselines.turn_id")
  .ok ((), { db with
    turns := db.turns.add state.turnId
      { state := state
        status := state.status
        revision := state.revision
        lastSeq := 0
        leaseToken := 0
        effectEpoch := 0
        createdAtMs := now
        updatedAtMs := now }
    turnReadModel := db.turnReadModel.add state.turnId ⟨state.revision, 0, state⟩
    turnBaselines := match baseline with
      | none => db.turnBaselines
      | some baseline => db.turnBaselines.add state.turnId baseline })

end LatteCode.Storage
