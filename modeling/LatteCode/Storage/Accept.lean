import LatteCode.Storage.Rows
/- Acceptance of prompts: session creation, follow-ups, and their durable replay lookup. -/

namespace LatteCode.Storage
open Keyed Outcome

/-- The arguments of a session create; the baseline manifest is a `BTreeMap`. -/
structure CreateSession where
  commandId : Option SessionCommandId
  sessionId : SessionId
  turnId : TurnId
  binding : SessionProviderBinding
  workspaceRoot : String
  prompt : String
  baseline : List (String × String)
  focus : Option String

structure FollowUp where
  commandId : Option SessionCommandId
  sessionId : SessionId
  turnId : TurnId
  expectedSessionRevision : Nat
  prompt : String
  baseline : List (String × String)

section Common

variable {D : Type} [DecidableEq D]

/-- The fence of a started acceptance: the lease's scope, then its live row. -/
def requireAuthority (db : Database D) (scope : LeaseScope) (now : Nat) (lease : Lease) :
    Except StorageError Unit := do
  toI64s [lease.fencingToken, now]
  ensure (db.authoritative scope lease.owner lease.fencingToken now) .leaseLost

def requireInitialLease (db : Database D) (scope : LeaseScope) (now : Nat) :
    Option Lease → Except StorageError Unit
  | none => .ok ()
  | some lease => do
      requireLeaseScope lease scope
      requireAuthority db scope now lease

/-- `serde_json::from_str::<SessionSnapshot>(&result_json)`. -/
def decodeSnapshot (missingField : String → String) : DedupResult → Except StorageError SessionSnapshot
  | .snapshot snapshot => .ok snapshot
  | .response _ => .error (.invalidData (missingField "session_id"))

def decodeResponse (missingField : String → String) : DedupResult → Except StorageError SessionCommitResponse
  | .response response => .ok response
  | .snapshot _ => .error (.invalidData (missingField "snapshot"))

/-- The accepted snapshot of a command, `none` on a miss. Both digest namespaces are accepted. -/
def lookupReplay (missingField : String → String) (db : Database D) (commandId : SessionCommandId)
    (digest legacyDigest : D) : Except StorageError (Option SessionSnapshot) :=
  match db.sessionCommandDedup.get? commandId with
  | none => .ok none
  | some row => do
      ensure (row.digest = digest ∨ row.digest = legacyDigest) .sessionCommandReplayMismatch
      let snapshot ← decodeSnapshot missingField row.result
      .ok (some snapshot)

/-- The state of a new child: started under a lease, queued without one. -/
def initialTurn (turnId : TurnId) (initialLease : Option Lease) : Except StorageError TurnState :=
  match initialLease with
  | some _ => transitionOr ((TurnState.queued turnId).transition 0 .start)
  | none => .ok (.queued turnId)

/-- `initial_lease.map_or(0, |lease| lease.fencing_token)`. -/
def initialToken (initialLease : Option Lease) : Nat :=
  (initialLease.map Lease.fencingToken).getD 0

def recordedCommands (commands : Table SessionCommandId (CommandRow D)) (row : CommandRow D) :
    Option SessionCommandId → Table SessionCommandId (CommandRow D)
  | none => commands
  | some commandId => commands.add commandId row

def recordCommand (db : Database D) (commandId : Option SessionCommandId) (row : CommandRow D) :
    Except StorageError (Database D) := do
  match commandId with
  | none => .ok ()
  | some commandId =>
      toI64s [row.createdAtMs]
      unique (db.sessionCommandDedup.get? commandId = none) "session_command_dedup.command_id"
  .ok { db with sessionCommandDedup := recordedCommands db.sessionCommandDedup row commandId }

/-- The v1 event and the lifecycle event of a child accepted under a lease. -/
def insertStarted (db : Database D) (sessionId : SessionId) (state : TurnState)
    (initialLease : Option Lease) (revision sequence now : Nat) :
    Except StorageError (Option StoredSessionEvent × Database D) :=
  match initialLease with
  | none => .ok (none, db)
  | some _ => do
      let db ← insertTurnEvent db state 1 now
      let (stored, db) ← insertSessionEvent db sessionId revision sequence
        (.lifecycleChanged .running (some state.turnId)) now
      .ok (some stored, db)

end Common

variable (E : Environment)

/-- Pre-acquire durable dedup lookup for a session-create command. -/
def lookupCreateReplay (db : E.Db) (commandId : SessionCommandId) (sessionId : SessionId)
    (workspaceRoot prompt : String) (binding : SessionProviderBinding) (focus : Option String) :
    Except StorageError (Option SessionSnapshot) := do
  validateWorkspaceRoot workspaceRoot
  lookupReplay E.missingField db commandId
    (createCommandDigest E sessionId workspaceRoot prompt binding focus)
    (legacyCreateCommandDigest E sessionId workspaceRoot prompt binding focus)

/-- Pre-acquire durable dedup lookup for a follow-up command. -/
def lookupFollowUpReplay (db : E.Db) (commandId : SessionCommandId) (sessionId : SessionId)
    (expectedSessionRevision : Nat) (prompt : String) : Except StorageError (Option SessionSnapshot) :=
  lookupReplay E.missingField db commandId
    (followUpCommandDigest E sessionId expectedSessionRevision prompt)
    (legacyFollowUpCommandDigest E sessionId expectedSessionRevision prompt)

def CreateSession.digest (args : CreateSession) : E.Digest :=
  createCommandDigest E args.sessionId args.workspaceRoot args.prompt args.binding args.focus

def CreateSession.legacyDigest (args : CreateSession) : E.Digest :=
  legacyCreateCommandDigest E args.sessionId args.workspaceRoot args.prompt args.binding args.focus

def FollowUp.digest (args : FollowUp) : E.Digest :=
  followUpCommandDigest E args.sessionId args.expectedSessionRevision args.prompt

def FollowUp.legacyDigest (args : FollowUp) : E.Digest :=
  legacyFollowUpCommandDigest E args.sessionId args.expectedSessionRevision args.prompt

/-- The recheck inside the write transaction. Without a command id an existing session replays. -/
def createReplay (db : E.Db) (args : CreateSession) : Except StorageError (Option SessionSnapshot) :=
  match args.commandId with
  | some commandId => do
      match ← lookupReplay E.missingField db commandId (args.digest E) (args.legacyDigest E) with
      | some snapshot => .ok (some snapshot)
      | none => do
          ensure (db.sessions.get? args.sessionId = none) (.sessionAlreadyExists args.sessionId)
          .ok none
  | none =>
      if db.sessions.get? args.sessionId = none then .ok none
      else do
        let snapshot ← currentSessionSnapshot E db args.sessionId SESSION_PROJECTION_TRANSCRIPT_LIMIT
        .ok (some snapshot)

def createdSession (args : CreateSession) (initialLease : Option Lease) (now : Nat) : SessionRow where
  revision := if initialLease.isSome then 1 else 0
  lastSeq := if initialLease.isSome then 2 else 1
  lifecycle := .running
  binding := args.binding
  latestTurnId := some args.turnId
  createdAtMs := now
  updatedAtMs := now
  title := sessionTitle E (E.redactSessionText args.prompt)
  workspaceRoot := args.workspaceRoot
  focus := args.focus
  parentSessionId := none

/-- The first user card; zero is reserved as the initial transcript cursor. -/
def createCard (args : CreateSession) (now : Nat) : TranscriptEntry where
  entryId := E.newEntryId args.sessionId 1
  sequence := 1
  turnId := some args.turnId
  kind := .user
  text := E.redactSessionText args.prompt
  payload := none
  sourceKey := "session:create:user"
  createdAtMs := now

def insertSession (db : E.Db) (args : CreateSession) (initialLease : Option Lease) (now : Nat) :
    Except StorageError ((CreateOutcome × Option StoredSessionEvent) × E.Db) := do
  let state ← initialTurn args.turnId initialLease
  let session := createdSession E args initialLease now
  toI64s [session.revision, session.lastSeq, now]
  unique (db.sessions.get? args.sessionId = none) "sessions.session_id"
  let db := { db with sessions := db.sessions.add args.sessionId session }
  let db ← insertLinkedTurn db args.sessionId state none 0 (if initialLease.isSome then 1 else 0)
    (initialToken initialLease) args.baseline now
  let db ← insertTranscript db args.sessionId (createCard E args now)
  let (event, db) ← insertStarted db args.sessionId state initialLease session.revision session.lastSeq now
  let snapshot ← currentSessionSnapshot E db args.sessionId SESSION_PROJECTION_TRANSCRIPT_LIMIT
  let db ← recordCommand db args.commandId ⟨args.digest E, .snapshot snapshot, now⟩
  .ok ((.created snapshot, event), db)

def createSessionV2Inner (db : E.Db) (args : CreateSession) (initialLease : Option Lease) (now : Nat) :
    Except StorageError ((CreateOutcome × Option StoredSessionEvent) × E.Db) := do
  invalidJson args.binding.validate
  validateWorkspaceRoot args.workspaceRoot
  ensure (¬ (trim (E.redactSessionText args.prompt)).isEmpty)
    (.invalidData "session prompt must not be empty")
  requireInitialLease db (sessionLeaseScope args.sessionId) now initialLease
  match ← createReplay E db args with
  | some snapshot => .ok ((.replayed snapshot, none), db)
  | none => insertSession E db args initialLease now

/-- A parent that lets the conversation continue. -/
def followUpParent (parent : TurnState) : Bool :=
  parent.status = .completed || (parent.status = .failed && parent.failure.any fun failure =>
    failure.retryability = .retryable || failure.code = .permissionDenied)

/-- `COALESCE(MAX(ordinal),-1)+1`. -/
def nextOrdinal {D : Type} (db : Database D) (sessionId : SessionId) : Nat :=
  ((db.sessionTurns.select fun _ row => row.sessionId = sessionId).map fun row => row.2.ordinal + 1).foldl max 0

def followUpCard (args : FollowUp) (sequence now : Nat) : TranscriptEntry where
  entryId := E.newEntryId args.sessionId sequence
  sequence := sequence
  turnId := some args.turnId
  kind := .user
  text := E.redactSessionText args.prompt
  payload := none
  sourceKey := "follow-up:" ++ args.turnId.toString ++ ":user"
  createdAtMs := now

def linkedSummary (turnId : TurnId) (parentTurnId : Option TurnId) (ordinal : Nat) : SessionTurnSummary where
  turnId := turnId
  parentTurnId := parentTurnId
  ordinal := ordinal
  status := .queued
  turnRevision := 0
  completedAtMs := none
  failureCode := none

/-- The state of the turn a follow-up continues; a fork has none yet. -/
def latestState (db : E.Db) : Option TurnId → Except StorageError (Option TurnState)
  | none => .ok none
  | some latest => do
      let row ← queryRow (db.turns.get? latest)
      .ok (some row.state)

/-- Whether the session can take a follow-up now, with the state of its parent turn. -/
def followUpParentState (db : E.Db) (session : SessionRow) (args : FollowUp) :
    Except StorageError (Option TurnState) := do
  ensure (session.revision = args.expectedSessionRevision)
    (.staleSessionRevision args.expectedSessionRevision session.revision)
  ensure (session.lifecycle = .ready ∧ db.sessionActiveTurns.get? args.sessionId = none)
    (.invalidData "follow-up requires a ready session with no active child")
  ensure (¬ (session.latestTurnId = none ∧ session.parentSessionId = none))
    (.invalidData "follow-up session has no completed child")
  let parent ← latestState E db session.latestTurnId
  ensure (parent.all followUpParent)
    (.invalidData "follow-up parent must be completed, retryably failed, or permission-denied")
  .ok parent

/-- A counter after the start of an accepted child; without a lease nothing starts. -/
def startedCounter (initialLease : Option Lease) (value : Nat) (message : String) : Except StorageError Nat :=
  match initialLease with
  | some _ => addOr value 1 message
  | none => .ok value

def insertFollowUp (db : E.Db) (args : FollowUp) (session : SessionRow) (parent : Option TurnState)
    (initialLease : Option Lease) (now : Nat) :
    Except StorageError ((CreateOutcome × Option StoredSessionEvent) × E.Db) := do
  let ordinal := nextOrdinal db args.sessionId
  let state ← initialTurn args.turnId initialLease
  let db ← insertLinkedTurn db args.sessionId state session.latestTurnId ordinal
    (if initialLease.isSome then 1 else 0) (initialToken initialLease) args.baseline now
  let nextRevision ← addOr session.revision 1 "session revision overflow"
  let seq ← addOr session.lastSeq 1 "session sequence overflow"
  let db ← insertTranscript db args.sessionId (followUpCard E args seq now)
  let (_, db) ← insertSessionEvent db args.sessionId nextRevision seq
    (.turnLinked (linkedSummary args.turnId (parent.map TurnState.turnId) ordinal)) now
  let startedRevision ← startedCounter initialLease nextRevision "session revision overflow"
  let startedSequence ← startedCounter initialLease seq "session sequence overflow"
  let (event, db) ← insertStarted db args.sessionId state initialLease startedRevision startedSequence now
  toI64s [startedRevision, startedSequence]
  let db := { db with
    sessions := db.sessions.modify args.sessionId fun row =>
      { row with
        revision := startedRevision
        lastSeq := startedSequence
        lifecycle := .running
        latestTurnId := some args.turnId
        updatedAtMs := now } }
  let snapshot ← currentSessionSnapshot E db args.sessionId SESSION_PROJECTION_TRANSCRIPT_LIMIT
  let db ← recordCommand db args.commandId ⟨args.digest E, .snapshot snapshot, now⟩
  .ok ((.created snapshot, event), db)

def followUpReplay (db : E.Db) (args : FollowUp) : Except StorageError (Option SessionSnapshot) :=
  match args.commandId with
  | some commandId => lookupReplay E.missingField db commandId (args.digest E) (args.legacyDigest E)
  | none => .ok none

def createSessionFollowUpV2Inner (db : E.Db) (args : FollowUp) (initialLease : Option Lease) (now : Nat) :
    Except StorageError ((CreateOutcome × Option StoredSessionEvent) × E.Db) := do
  ensure (¬ (trim (E.redactSessionText args.prompt)).isEmpty)
    (.invalidData "session follow-up must not be empty")
  requireInitialLease db (sessionLeaseScope args.sessionId) now initialLease
  match ← followUpReplay E db args with
  | some snapshot => .ok ((.replayed snapshot, none), db)
  | none => do
      let session ← require (db.sessions.get? args.sessionId) (.sessionNotFound args.sessionId)
      let parent ← followUpParentState E db session args
      insertFollowUp E db args session parent initialLease now

end LatteCode.Storage
