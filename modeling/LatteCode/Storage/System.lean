import LatteCode.Lib.Run
import LatteCode.Storage.Session
/- The storage as a transition system: one operation a step, an error changes nothing. -/

namespace LatteCode.Storage
open Runs

/-- One call of the storage by some coordinator, with the clock it passes. -/
inductive Operation where
  | createSession (args : CreateSession) (lease : Option Lease) (now : Nat)
  | createFollowUp (args : FollowUp) (lease : Option Lease) (now : Nat)
  | switchBinding (sessionId : SessionId) (expectedSessionRevision : Nat)
      (binding : SessionProviderBinding) (lease : Lease) (now : Nat)
  | createFork (sourceSessionId forkSessionId : SessionId) (history : List TranscriptEntry)
      (title : Option String) (now : Nat)
  | commit (request : SessionCommitRequest) (lease : Lease) (now : Nat)
  | recoverLeaseLoss (sessionId : SessionId) (turnId : TurnId) (lease : Lease)
      (expectedTurnRevision now : Nat)
  | recoverAt (now : Nat)
  | acquireLease (scope : LeaseScope) (owner : String) (turnId : Option TurnId) (now ttl : Nat)
  | renewLease (lease : Lease) (now ttl : Nat)
  | releaseLease (lease : Lease) (wallNow : Nat)
  | renameSession (sessionId : SessionId) (title : String)
  | acknowledgeOutbox (sessionId : SessionId) (throughSequence : Nat)
  | recordEvidence (turnId : TurnId) (expectedRevision : Nat) (lease : Lease)
      (evidence : VerificationEvidence) (now : Nat)
  | createRun (state : TurnState) (now : Nat) (baseline : Option (List (String × String)))

/-- What a successful call returns. -/
inductive Reply where
  | accepted (outcome : CreateOutcome) (event : Option StoredSessionEvent)
  | committed (response : SessionCommitResponse)
  | leaseLoss (recovery : SessionLeaseLossRecovery)
  | recovered (responses : List SessionCommitResponse)
  | leased (lease : Lease)
  | released (recovery : Option SessionCommitResponse)
  | done

variable (E : Environment)

def exec (db : E.Db) : Operation → Except StorageError (Reply × E.Db)
  | .createSession args lease now =>
      (createSessionV2Inner E db args lease now).map fun r => (.accepted r.1.1 r.1.2, r.2)
  | .createFollowUp args lease now =>
      (createSessionFollowUpV2Inner E db args lease now).map fun r => (.accepted r.1.1 r.1.2, r.2)
  | .switchBinding sessionId expected binding lease now =>
      (switchSessionBindingV2 E sessionId binding now db expected lease).map fun r => (.committed r.1, r.2)
  | .createFork source fork history title now =>
      (createSessionFork E source fork db history title now).map fun r => (.done, r.2)
  | .commit request lease now =>
      (commitSessionTurnUpdate E request lease now db).map fun r => (.committed r.1, r.2)
  | .recoverLeaseLoss sessionId turnId lease expected now =>
      (recoverSessionAfterLeaseLoss E db sessionId turnId lease expected now).map fun r =>
        (.leaseLoss r.1, r.2)
  | .recoverAt now => (recoverAt E db now).map fun r => (.recovered r.1, r.2)
  | .acquireLease scope owner turnId now ttl =>
      (acquireScopedLease db scope owner turnId now ttl).map fun r => (.leased r.1, r.2)
  | .renewLease lease now ttl => (renewLease db lease now ttl).map fun r => (.leased r.1, r.2)
  | .releaseLease lease wallNow => (releaseLease E db lease wallNow).map fun r => (.released r.1, r.2)
  | .renameSession sessionId title => (renameSession E db sessionId title).map fun r => (.done, r.2)
  | .acknowledgeOutbox sessionId through =>
      (acknowledgeConversationOutbox E db sessionId through).map fun r => (.done, r.2)
  | .recordEvidence turnId expected lease evidence now =>
      (recordVerificationEvidence E db turnId expected lease evidence now).map fun r => (.done, r.2)
  | .createRun state now baseline =>
      (createRunWithBaseline E db state now baseline).map fun r => (.done, r.2)

/-- The database after a call. -/
def step (db : E.Db) (op : Operation) : E.Db :=
  match exec E db op with
  | .ok (_, db') => db'
  | .error _ => db

/-- The database after the first `k` calls of a run from the bootstrapped database. -/
abbrev dbAt (ops : List Operation) (k : Nat) : E.Db := stateAt (step E) (Database.empty E.Digest) ops k

/-- The database after a run from the bootstrapped database. -/
abbrev runOf (ops : List Operation) : E.Db := run (step E) (Database.empty E.Digest) ops

variable {E}

/-- A step keeps a property when every successful call does. -/
theorem step_preserves {P : E.Db → Prop} {db : E.Db} {op : Operation} (held : P db)
    (kept : ∀ reply db', exec E db op = .ok (reply, db') → P db') : P (step E db op) := by
  unfold step
  split
  case h_1 result => exact kept _ _ result
  case h_2 => exact held

/-! ## Inputs of the runs on fixed data -/

/-- The exact descriptor of a sample effect. -/
def sampleDescriptor : String :=
  "\x7b\"effect_id\":\"e1\",\"tool_call_id\":\"c1\",\"name\":\"verify\",\"input\":null,\"attempt\":1\x7d"

/-- An environment for texts without secrets: a digest is the document itself, and besides the sample
descriptor only `null` parses. -/
def plain : Environment where
  namedAssignment := id
  bearer := id
  openaiKey := id
  Digest := Json
  sha256 := id
  fromStr text := if text = "null" then .ok .null else .error "expected value at line 1 column 1"
  descriptorFromStr text :=
    if text = sampleDescriptor then .ok () else .error "expected value at line 1 column 1"
  verificationRecordFromStr _ := .error "expected value at line 1 column 1"
  missingField field := "missing field " ++ field
  newEntryId _ sequence := ⟨⟨BitVec.ofNat 128 sequence⟩⟩

def sampleSession : SessionId := ⟨⟨1#128⟩⟩

def sampleTurn : TurnId := ⟨⟨2#128⟩⟩

def sampleBinding : SessionProviderBinding :=
  ⟨1, "provider", "type", "protocol", "model", "config", "tools", [], "credential", "scope", 0⟩

def sampleDigest : String := String.ofList (List.replicate 64 'a')

/-- The lease that the first acquisition of an empty database returns. -/
def sampleLease : Lease := ⟨sessionLeaseScope sampleSession, "engine", 1, 100⟩

def sampleCreate : CreateSession :=
  ⟨none, sampleSession, sampleTurn, sampleBinding, "/workspace", "prompt", [], none⟩

/-- The commit of an update under command `command` at these revisions. -/
def sampleRequest (command sessionRevision turnRevision : Nat) (update : CommitSessionTurnUpdate) :
    SessionCommitRequest :=
  ⟨sampleSession, sampleTurn, sessionRevision, turnRevision, ⟨⟨BitVec.ofNat 128 command⟩⟩, none, none, update⟩

/-- A session started under the sample lease, then one commit for each update, in order. -/
def sampleRun (updates : List (Nat × Nat × CommitSessionTurnUpdate)) : List Operation :=
  .acquireLease (sessionLeaseScope sampleSession) "engine" none 0 100 ::
    .createSession sampleCreate (some sampleLease) 1 ::
    updates.zipIdx.map fun update =>
      .commit (sampleRequest update.2 update.1.1 update.1.2.1 update.1.2.2) sampleLease 2

/-- The preparation of effect `effectId` of the sample turn. -/
def samplePrepare (effectId : String) (policy : SessionEffectPolicy) : CommitSessionTurnUpdate :=
  .prepareEffect ("prepare:" ++ effectId) effectId sampleDigest "null" sampleDescriptor policy "verify" "null"

/-- The start of effect `effectId` of the sample turn. -/
def sampleStart (effectId : String) : CommitSessionTurnUpdate :=
  .startEffect ("start:" ++ effectId) effectId sampleDigest "null"

end LatteCode.Storage
