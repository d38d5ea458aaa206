import LatteCode.Storage.Schema
/- The session projection returned by every session operation. -/

namespace LatteCode.Storage
open Keyed Outcome

def SESSION_PROJECTION_TRANSCRIPT_LIMIT : Nat := 500

def sessionTurnStatus : TurnStatus → SessionTurnStatus
  | .queued => .queued
  | .running => .running
  | .waitingPermission => .waitingPermission
  | .waitingInput => .waitingInput
  | .cancelling => .cancelling
  | .interrupted => .interrupted
  | .failed => .failed
  | .completed => .completed

variable (E : Environment) (db : E.Db)

/-- The outbox of one session past a cursor, `ORDER BY seq ASC`. -/
def outboxEntries (sessionId : SessionId) (after : Option Nat) : List TranscriptEntry :=
  ((db.conversationOutbox.select fun key _ => key.1 = sessionId && after.all (· < key.2)).insertionSort
    fun a b => a.1.2 ≤ b.1.2).map fun row => row.2.entry

/-- `session_turns JOIN turns`, `ORDER BY ordinal ASC`. -/
def sessionTurnSummaries (sessionId : SessionId) : List SessionTurnSummary :=
  ((db.sessionTurns.select fun _ row => row.sessionId = sessionId).insertionSort
    fun a b => a.2.ordinal ≤ b.2.ordinal).filterMap fun linked =>
      (db.turns.get? linked.1).map fun turn =>
        { turnId := linked.1
          parentTurnId := linked.2.parentTurnId
          ordinal := linked.2.ordinal
          status := sessionTurnStatus turn.state.status
          turnRevision := turn.state.revision
          completedAtMs := linked.2.completedAtMs
          failureCode := turn.state.failure.map TurnFailure.code }

/-- The request the active turn waits for, redacted again for display. -/
def pendingRequest (active : TurnId) (turns : List SessionTurnSummary) : Option SessionPendingRequest :=
  (turns.find? fun turn => turn.turnId = active).bind fun summary =>
    (db.turns.get? active).bind fun turn =>
      match turn.state.pendingPermission with
      | some permission => some (.permission active (E.redactSessionText permission.requestId)
          (E.redactSessionText permission.description) summary.turnRevision)
      | none => turn.state.pendingInput.map fun input =>
          .input active (E.redactSessionText input.requestId) (E.redactSessionText input.prompt)
            summary.turnRevision

def sessionSnapshot (sessionId : SessionId) (after : Option Nat) (limit : Nat) :
    Except StorageError SessionSnapshot := do
  let session ← require (db.sessions.get? sessionId) (.sessionNotFound sessionId)
  let active := (db.sessionActiveTurns.get? sessionId).map ActiveTurnRow.turnId
  let turns := sessionTurnSummaries E db sessionId
  let bounded := max 1 (min limit 500)
  toI64s [after.getD 0]
  let found := (outboxEntries E db sessionId (some (after.getD 0))).take (bounded + 1)
  let entries := found.take bounded
  .ok {
    sessionId := sessionId
    revision := session.revision
    sequence := session.lastSeq
    lifecycle := session.lifecycle
    binding := session.binding
    latestTurnId := session.latestTurnId
    activeTurnId := active
    pending := active.bind fun turnId => pendingRequest E db turnId turns
    turns := turns
    transcript := ⟨entries, entries.getLast?.map TranscriptEntry.sequence, decide (found.length > bounded)⟩
    focus := session.focus }

/-- The newest bounded transcript page; `hasMore` means that older cards were omitted. -/
def sessionTranscriptTail (sessionId : SessionId) (limit : Nat) : TranscriptPage :=
  let bounded := max 1 (min limit SESSION_PROJECTION_TRANSCRIPT_LIMIT)
  let newestFirst := (outboxEntries E db sessionId none).reverse.take (bounded + 1)
  let entries := (newestFirst.take bounded).reverse
  ⟨entries, entries.getLast?.map TranscriptEntry.sequence, decide (newestFirst.length > bounded)⟩

def currentSessionSnapshot (sessionId : SessionId) (transcriptLimit : Nat) :
    Except StorageError SessionSnapshot := do
  let snapshot ← sessionSnapshot E db sessionId none 1
  .ok { snapshot with transcript := sessionTranscriptTail E db sessionId transcriptLimit }

variable {E db}

theorem sessionSnapshot_session {sessionId : SessionId} {after : Option Nat} {limit : Nat}
    {snapshot : SessionSnapshot} (taken : sessionSnapshot E db sessionId after limit = .ok snapshot) :
    ∃ session, db.sessions.get? sessionId = some session ∧ snapshot.sessionId = sessionId ∧
      snapshot.revision = session.revision ∧ snapshot.sequence = session.lastSeq ∧
      snapshot.lifecycle = session.lifecycle := by
  simp only [sessionSnapshot, bind_ok, require_ok, toI64s_ok] at taken
  obtain ⟨session, found, _, _, built⟩ := taken
  cases built
  exact ⟨session, found, rfl, rfl, rfl, rfl⟩

end LatteCode.Storage
