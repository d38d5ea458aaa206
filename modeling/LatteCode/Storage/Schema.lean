import LatteCode.Lib.Table
import LatteCode.Core.Session
/- The schema-15 tables of the `SQLite` authority, one record a row.
JSON columns hold the value they deserialize to. -/

namespace LatteCode
open Keyed Outcome

inductive StorageError where
  | sql (message : String)
  | invalidData (message : String)
  | turnNotFound (turnId : TurnId)
  | staleRevision (expected actual : Nat)
  | engineUnavailable
  | leaseLost
  | effectFenced
  | sessionNotFound (sessionId : SessionId)
  | staleSessionRevision (expected actual : Nat)
  | linkedTurnRequiresSessionCommit
  | sessionCommandReplayMismatch
  | sessionAlreadyExists (sessionId : SessionId)
  | sessionActiveTurnMismatch
deriving DecidableEq, Repr

inductive EffectStatus where
  | declared
  | prepared
  | started
  | observedSuccess
  | observedFailed
  | unknown
deriving DecidableEq, Repr

/-- Lease scopes are `"runtime"` and `"session:{id}"`. -/
inductive LeaseScope where
  | runtime
  | session (sessionId : SessionId)
deriving DecidableEq, Repr

structure Lease where
  scope : LeaseScope
  owner : String
  fencingToken : Nat
  expiresAtMs : Nat
deriving DecidableEq, Repr

structure VerificationRecord where
  revision : Nat
  effectEpoch : Nat
  effectId : String
  passed : Bool
  workspaceManifestDigest : String
  summary : String
deriving DecidableEq, Repr

structure StoredSessionEvent where
  sequence : Nat
  envelope : SessionEventEnvelope
deriving DecidableEq

structure SessionCommitResponse where
  snapshot : SessionSnapshot
  sessionEvent : StoredSessionEvent
deriving DecidableEq

structure TurnRow where
  state : TurnState
  status : TurnStatus
  revision : Nat
  lastSeq : Nat
  leaseToken : Nat
  effectEpoch : Nat
  createdAtMs : Nat
  updatedAtMs : Nat

structure ReadModelRow where
  revision : Nat
  lastSeq : Nat
  state : TurnState

structure EventRow where
  revision : Nat
  envelope : EventEnvelope
  createdAtMs : Nat

structure SessionRow where
  revision : Nat
  lastSeq : Nat
  lifecycle : SessionLifecycle
  binding : SessionProviderBinding
  latestTurnId : Option TurnId
  createdAtMs : Nat
  updatedAtMs : Nat
  title : String
  workspaceRoot : String
  focus : Option String
  parentSessionId : Option SessionId

structure SessionTurnRow where
  sessionId : SessionId
  parentTurnId : Option TurnId
  ordinal : Nat
  completedAtMs : Option Nat
  toolRoundCount : Nat

structure ActiveTurnRow where
  turnId : TurnId
  leaseToken : Nat

structure OutboxRow where
  turnId : Option TurnId
  kind : TranscriptKind
  sourceKey : String
  entry : TranscriptEntry
  createdAtMs : Nat

structure SessionEventRow where
  revision : Nat
  envelope : SessionEventEnvelope
  createdAtMs : Nat

/-- `result_json`: a snapshot after a create or follow-up, a response after a commit. -/
inductive DedupResult where
  | snapshot (value : SessionSnapshot)
  | response (value : SessionCommitResponse)

structure CommandRow (Digest : Type) where
  digest : Digest
  result : DedupResult
  createdAtMs : Nat

structure CommitSourceRow (Digest : Type) where
  digest : Digest
  response : SessionCommitResponse

structure EffectRow where
  turnId : TurnId
  status : EffectStatus
  startedAtMs : Nat
  descriptorJson : String
  approvalDigest : String
  preEvidenceJson : String
  postEvidence : Option Json
  preparedAtMs : Nat
  observedAtMs : Option Nat

structure PermissionRow where
  turnId : TurnId
  turnRevision : Nat
  leaseOwner : String
  leaseToken : Nat
  approvalDigest : String
  consumedAtMs : Option Nat

structure CanonicalRow where
  turnId : TurnId
  descriptorJson : String

structure EvidenceRow where
  turnId : TurnId
  metadataJson : String
  blobRef : Option String

structure CheckpointRow where
  payloadJson : String
  updatedAtMs : Nat

structure LeaseRow where
  owner : String
  fencingToken : Nat
  expiresAtMs : Nat

structure Database (Digest : Type) where
  turns : Table TurnId TurnRow
  turnReadModel : Table TurnId ReadModelRow
  turnBaselines : Table TurnId (List (String × String))
  events : Table (TurnId × Nat) EventRow
  sessions : Table SessionId SessionRow
  sessionTurns : Table TurnId SessionTurnRow
  sessionActiveTurns : Table SessionId ActiveTurnRow
  conversationOutbox : Table (SessionId × Nat) OutboxRow
  sessionEvents : Table (SessionId × Nat) SessionEventRow
  sessionCommandDedup : Table SessionCommandId (CommandRow Digest)
  sessionCommitSources : Table (SessionId × String) (CommitSourceRow Digest)
  effects : Table String EffectRow
  pendingPermissions : Table String PermissionRow
  sessionEffectCanonical : Table String CanonicalRow
  evidence : Table String EvidenceRow
  runtimeCheckpoints : Table TurnId CheckpointRow
  runtimeLease : Table LeaseScope LeaseRow
  /-- The single `last_token` of `runtime_lease_epoch`. -/
  lastToken : Nat

/-- A bootstrapped database without rows. -/
def Database.empty (Digest : Type) : Database Digest where
  turns := .empty
  turnReadModel := .empty
  turnBaselines := .empty
  events := .empty
  sessions := .empty
  sessionTurns := .empty
  sessionActiveTurns := .empty
  conversationOutbox := .empty
  sessionEvents := .empty
  sessionCommandDedup := .empty
  sessionCommitSources := .empty
  effects := .empty
  pendingPermissions := .empty
  sessionEffectCanonical := .empty
  evidence := .empty
  runtimeCheckpoints := .empty
  runtimeLease := .empty
  lastToken := 0

/-- The code the engine links against: hashing, JSON parsing, regular expressions, UUIDs. -/
structure Environment extends Redactor where
  Digest : Type
  [digestEq : DecidableEq Digest]
  /-- The hex SHA-256 of `serde_json::to_vec`. -/
  sha256 : Json → Digest
  /-- `serde_json::from_str::<Value>`. -/
  fromStr : String → Except String Json
  /-- `serde_json::from_str::<SessionEffectDescriptor>`, of which only success matters. -/
  descriptorFromStr : String → Except String Unit
  /-- `serde_json::from_str::<VerificationRecord>`. -/
  verificationRecordFromStr : String → Except String VerificationRecord
  /-- The text of a `serde_json` error for a document without the named field. -/
  missingField : String → String
  /-- The `Uuid::now_v7` minted for the entry at this place of a transcript. -/
  newEntryId : SessionId → Nat → TranscriptEntryId

attribute [instance] Environment.digestEq

abbrev Environment.Db (E : Environment) : Type := Database E.Digest

/-- `to_i64` of each integer bound to a statement. -/
def toI64s (values : List Nat) : Except StorageError Unit :=
  ensure (∀ value ∈ values, value < 2 ^ 63) (.invalidData "integer exceeds sqlite range")

/-- `checked_add` with the caller's overflow text. -/
def addOr (a b : Nat) (message : String) : Except StorageError Nat :=
  require (checkedAdd a b) (.invalidData message)

def invalidJson {α : Type} (parsed : Except String α) : Except StorageError α :=
  parsed.mapError .invalidData

def transitionOr (step : Except TransitionError TurnState) : Except StorageError TurnState :=
  step.mapError fun error => .invalidData error.toString

/-- A `PRIMARY KEY` or `UNIQUE` constraint. -/
def unique (free : Prop) [Decidable free] (column : String) : Except StorageError Unit :=
  ensure free (.sql ("UNIQUE constraint failed: " ++ column))

/-- `query_row` without `optional()`. -/
def queryRow {α : Type} (row : Option α) : Except StorageError α :=
  require row (.sql "Query returned no rows")

@[simp] theorem toI64s_ok {values : List Nat} {u : Unit} :
    toI64s values = .ok u ↔ ∀ value ∈ values, value < 2 ^ 63 := ensure_ok

@[simp] theorem addOr_ok {a b result : Nat} {message : String} :
    addOr a b message = .ok result ↔ result = a + b ∧ result < 2 ^ 64 := by
  rw [addOr, require_ok, checkedAdd_eq_some]

@[simp] theorem invalidJson_ok {α : Type} {parsed : Except String α} {value : α} :
    invalidJson parsed = .ok value ↔ parsed = .ok value := mapError_ok

@[simp] theorem transitionOr_ok {step : Except TransitionError TurnState} {next : TurnState} :
    transitionOr step = .ok next ↔ step = .ok next := mapError_ok

@[simp] theorem unique_ok {free : Prop} [Decidable free] {column : String} {u : Unit} :
    unique free column = .ok u ↔ free := ensure_ok

@[simp] theorem queryRow_ok {α : Type} {row : Option α} {value : α} :
    queryRow row = .ok value ↔ row = some value := require_ok

def sessionLeaseScope (sessionId : SessionId) : LeaseScope := .session sessionId

def requireLeaseScope (lease : Lease) (expected : LeaseScope) : Except StorageError Unit :=
  ensure (lease.scope = expected) .leaseLost

namespace Database

variable {Digest : Type}

/-- `EXISTS(SELECT 1 FROM runtime_lease WHERE scope=.. AND owner=.. AND fencing_token=.. AND expires_at_ms>..)`. -/
def authoritative (db : Database Digest) (scope : LeaseScope) (owner : String) (token now : Nat) : Bool :=
  db.runtimeLease.holds scope fun row =>
    row.owner = owner && row.fencingToken = token && decide (row.expiresAtMs > now)

end Database

theorem requireLeaseScope_ok {lease : Lease} {expected : LeaseScope} {u : Unit} :
    requireLeaseScope lease expected = .ok u ↔ lease.scope = expected := ensure_ok

end LatteCode
