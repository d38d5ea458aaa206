import LatteCode.Storage.Request
import LatteCode.Storage.Snapshot
/- The row writers shared by the session operations, with what each of them changes. -/

namespace LatteCode.Storage
open Keyed Outcome

variable {D : Type}

/-- The `events` row of a state: a handoff once the turn carries one, else its status. -/
def turnEvent (state : TurnState) : RuntimeEvent :=
  match state.handoff with
  | some handoff => .handoffProduced handoff
  | none => .stateChanged state.status

def turnEventEnvelope (state : TurnState) : EventEnvelope where
  protocolVersion := PROTOCOL_VERSION
  turnId := state.turnId
  revision := state.revision
  event := turnEvent state

def insertTurnEvent (db : Database D) (state : TurnState) (seq now : Nat) :
    Except StorageError (Database D) := do
  toI64s [seq, state.revision, now]
  unique (db.events.get? (state.turnId, seq) = none) "events.turn_id, events.seq"
  .ok { db with events := db.events.add (state.turnId, seq) ⟨state.revision, turnEventEnvelope state, now⟩ }

/-- One state of a linked turn: its event, the `turns` row and the read model. -/
def writeTurnState (db : Database D) (state : TurnState) (lastSeq token now : Nat) :
    Except StorageError (Database D) := do
  let db ← insertTurnEvent db state lastSeq now
  toI64s [token]
  .ok { db with
    turns := db.turns.modify state.turnId fun row =>
      if row.revision < state.revision then
        { row with
          state := state
          status := state.status
          revision := state.revision
          lastSeq := lastSeq
          leaseToken := token
          updatedAtMs := now }
      else row
    turnReadModel := db.turnReadModel.modify state.turnId fun _ => ⟨state.revision, lastSeq, state⟩ }

/-- Cancellation is represented as two transitions, so that a reader of the events
never sees a revision jump without its cancelling event. -/
def linkedTurnStates (current next : TurnState) : Except StorageError (List TurnState) :=
  if next.revision = current.revision + 2 ∧ next.status = .interrupted then do
    let cancelling ← transitionOr (current.transition current.revision .cancel)
    .ok [cancelling, next]
  else .ok [next]

def appendLinkedTurnTransition (db : Database D) (current next : TurnState)
    (turnLastSeq token now : Nat) : Except StorageError (Database D) := do
  ensure (current.revision < next.revision) (.invalidData "linked turn transition did not advance")
  let states ← linkedTurnStates current next
  let (db, _) ← states.foldlM (fun (written : Database D × Nat) state => do
      let lastSeq ← addOr written.2 1 "run event sequence overflow"
      let db ← writeTurnState written.1 state lastSeq token now
      .ok (db, lastSeq)) (db, turnLastSeq)
  .ok db

/-- The rows of a new linked child: turn, read model, baseline, link and active row. -/
def insertLinkedTurn (db : Database D) (sessionId : SessionId) (state : TurnState)
    (parentTurnId : Option TurnId) (ordinal turnSequence leaseToken : Nat)
    (baseline : List (String × String)) (now : Nat) : Except StorageError (Database D) := do
  toI64s [state.revision, turnSequence, leaseToken, now]
  unique (db.turns.get? state.turnId = none) "turns.turn_id"
  unique (db.turnReadModel.get? state.turnId = none) "turn_read_model.turn_id"
  unique (db.turnBaselines.get? state.turnId = none) "turn_baselines.turn_id"
  toI64s [ordinal]
  unique (db.sessionTurns.get? state.turnId = none) "session_turns.turn_id"
  unique (¬ db.sessionTurns.anyRow fun _ row => row.sessionId = sessionId && row.ordinal = ordinal)
    "session_turns.session_id, session_turns.ordinal"
  unique (db.sessionActiveTurns.get? sessionId = none) "session_active_turns.session_id"
  unique (¬ db.sessionActiveTurns.anyRow fun _ row => row.turnId = state.turnId)
    "session_active_turns.turn_id"
  .ok { db with
    turns := db.turns.add state.turnId
      { state := state
        status := state.status
        revision := state.revision
        lastSeq := turnSequence
        leaseToken := leaseToken
        effectEpoch := 0
        createdAtMs := now
        updatedAtMs := now }
    turnReadModel := db.turnReadModel.add state.turnId ⟨state.revision, turnSequence, state⟩
    turnBaselines := db.turnBaselines.add state.turnId baseline
    sessionTurns := db.sessionTurns.add state.turnId ⟨sessionId, parentTurnId, ordinal, none, 0⟩
    sessionActiveTurns := db.sessionActiveTurns.add sessionId ⟨state.turnId, leaseToken⟩ }

def insertTranscript (db : Database D) (sessionId : SessionId) (entry : TranscriptEntry) :
    Except StorageError (Database D) := do
  toI64s [entry.sequence, entry.createdAtMs]
  unique (db.conversationOutbox.get? (sessionId, entry.sequence) = none)
    "conversation_outbox.session_id, conversation_outbox.seq"
  unique (¬ db.conversationOutbox.anyRow fun key row =>
      key.1 = sessionId && row.sourceKey = entry.sourceKey)
    "conversation_outbox.session_id, conversation_outbox.source_key"
  .ok { db with
    conversationOutbox := db.conversationOutbox.add (sessionId, entry.sequence)
      ⟨entry.turnId, entry.kind, entry.sourceKey, entry, entry.createdAtMs⟩ }

def sessionEventEnvelope (sessionId : SessionId) (revision sequence : Nat) (event : SessionEvent) :
    SessionEventEnvelope where
  protocolVersion := SESSION_PROTOCOL_VERSION
  sessionId := sessionId
  revision := revision
  sequence := sequence
  event := event

def insertSessionEvent (db : Database D) (sessionId : SessionId) (revision sequence : Nat)
    (event : SessionEvent) (now : Nat) : Except StorageError (StoredSessionEvent × Database D) := do
  toI64s [sequence, revision, now]
  unique (db.sessionEvents.get? (sessionId, sequence) = none)
    "session_events.session_id, session_events.seq"
  let envelope := sessionEventEnvelope sessionId revision sequence event
  .ok (⟨sequence, envelope⟩, { db with
    sessionEvents := db.sessionEvents.add (sessionId, sequence) ⟨revision, envelope, now⟩ })

theorem insertTurnEvent_ok {db db' : Database D} {state : TurnState} {seq now : Nat}
    (inserted : insertTurnEvent db state seq now = .ok db') :
    db.events.get? (state.turnId, seq) = none ∧
      db' = { db with
        events := db.events.add (state.turnId, seq) ⟨state.revision, turnEventEnvelope state, now⟩ } := by
  simp only [insertTurnEvent, bind_ok, toI64s_ok, unique_ok, Except.ok.injEq] at inserted
  obtain ⟨_, _, _, fresh, rfl⟩ := inserted
  exact ⟨fresh, rfl⟩

theorem insertTranscript_ok {db db' : Database D} {sessionId : SessionId} {entry : TranscriptEntry}
    (inserted : insertTranscript db sessionId entry = .ok db') :
    db.conversationOutbox.get? (sessionId, entry.sequence) = none ∧
      db' = { db with
        conversationOutbox := db.conversationOutbox.add (sessionId, entry.sequence)
          ⟨entry.turnId, entry.kind, entry.sourceKey, entry, entry.createdAtMs⟩ } := by
  simp only [insertTranscript, bind_ok, toI64s_ok, unique_ok, Except.ok.injEq] at inserted
  obtain ⟨_, _, _, fresh, _, _, rfl⟩ := inserted
  exact ⟨fresh, rfl⟩

theorem insertTranscript_range {db db' : Database D} {sessionId : SessionId} {entry : TranscriptEntry}
    (inserted : insertTranscript db sessionId entry = .ok db') : entry.sequence < 2 ^ 63 := by
  simp only [insertTranscript, bind_ok, toI64s_ok] at inserted
  obtain ⟨_, range, _⟩ := inserted
  exact range _ List.mem_cons_self

theorem insertSessionEvent_ok {db db' : Database D} {sessionId : SessionId} {revision sequence now : Nat}
    {event : SessionEvent} {stored : StoredSessionEvent}
    (inserted : insertSessionEvent db sessionId revision sequence event now = .ok (stored, db')) :
    db.sessionEvents.get? (sessionId, sequence) = none ∧
      stored = ⟨sequence, sessionEventEnvelope sessionId revision sequence event⟩ ∧
      db' = { db with
        sessionEvents := db.sessionEvents.add (sessionId, sequence)
          ⟨revision, sessionEventEnvelope sessionId revision sequence event, now⟩ } := by
  simp only [insertSessionEvent, bind_ok, toI64s_ok, unique_ok, Except.ok.injEq, Prod.mk.injEq] at inserted
  obtain ⟨_, _, _, fresh, rfl, rfl⟩ := inserted
  exact ⟨fresh, rfl, rfl⟩

theorem insertLinkedTurn_ok {db db' : Database D} {sessionId : SessionId} {state : TurnState}
    {parentTurnId : Option TurnId} {ordinal turnSequence leaseToken now : Nat}
    {baseline : List (String × String)}
    (inserted : insertLinkedTurn db sessionId state parentTurnId ordinal turnSequence leaseToken baseline
      now = .ok db') :
    db.turns.get? state.turnId = none ∧ db.turnReadModel.get? state.turnId = none ∧
      db.sessionTurns.get? state.turnId = none ∧ db.sessionActiveTurns.get? sessionId = none ∧
      db' = { db with
        turns := db.turns.add state.turnId
          ⟨state, state.status, state.revision, turnSequence, leaseToken, 0, now, now⟩
        turnReadModel := db.turnReadModel.add state.turnId ⟨state.revision, turnSequence, state⟩
        turnBaselines := db.turnBaselines.add state.turnId baseline
        sessionTurns := db.sessionTurns.add state.turnId ⟨sessionId, parentTurnId, ordinal, none, 0⟩
        sessionActiveTurns := db.sessionActiveTurns.add sessionId ⟨state.turnId, leaseToken⟩ } := by
  simp only [insertLinkedTurn, bind_ok, toI64s_ok, unique_ok, Except.ok.injEq] at inserted
  obtain ⟨_, _, _, freshTurn, _, freshModel, _, _, _, _, _, freshLink, _, _, _, idle, _, _, rfl⟩ := inserted
  exact ⟨freshTurn, freshModel, freshLink, idle, rfl⟩

end LatteCode.Storage
