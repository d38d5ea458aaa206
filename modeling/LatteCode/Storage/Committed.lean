import LatteCode.Storage.Interrupted
/- A fresh commit, with everything it does. -/

namespace LatteCode.Storage
open Keyed Outcome Numbered

variable {D : Type}

/-- The fences that a fresh commit has passed. -/
structure Admitted (db : Database D) (request : SessionCommitRequest) (lease : Lease) (now : Nat)
    (session : SessionRow) (turn : TurnRow) : Prop where
  authority : db.authoritative (sessionLeaseScope request.sessionId) lease.owner lease.fencingToken now = true
  foundSession : db.sessions.get? request.sessionId = some session
  sessionRevision : session.revision = request.expectedSessionRevision
  gate : activeTurnMatches session (db.sessionActiveTurns.get? request.sessionId) request lease = true
  foundTurn : db.turns.get? request.turnId = some turn
  token : turn.leaseToken ≤ lease.fencingToken
  turnRevision : turn.state.revision = request.expectedTurnRevision

theorem requireAuthority_ok {db : Database D} {scope : LeaseScope} {now : Nat} {lease : Lease} {u : Unit}
    (required : requireAuthority db scope now lease = .ok u) :
    db.authoritative scope lease.owner lease.fencingToken now = true := by
  simp only [requireAuthority, bind_ok, toI64s_ok, ensure_ok] at required
  obtain ⟨_, _, live⟩ := required
  exact live

theorem checkFences_ok {db : Database D} {request : SessionCommitRequest} {lease : Lease} {now : Nat}
    {session : SessionRow} {turn : TurnRow} (admitted : checkFences db request lease now = .ok (session, turn)) :
    Admitted db request lease now session turn := by
  simp only [checkFences, bind_ok, require_ok, ensure_ok, queryRow_ok, Except.ok.injEq, Prod.mk.injEq] at admitted
  obtain ⟨_, authority, _, found, _, revision, _, gate, _, turn, _, token, _, turnRevision, rfl, rfl⟩ := admitted
  exact ⟨requireAuthority_ok authority, found, revision, gate, turn, token, turnRevision⟩

/-- The active rows after a commit. -/
def settledActives (actives : Table SessionId ActiveTurnRow) (sessionId : SessionId) (turnId : TurnId)
    (token : Nat) (terminal : Bool) : Table SessionId ActiveTurnRow :=
  if terminal then actives.deleteWhere fun key row => key = sessionId && row.turnId = turnId
  else actives.modify sessionId fun row => if row.turnId = turnId then { row with leaseToken := token } else row

/-- The leases after a commit: a terminal one expires its own in place. -/
def settledLeases (leases : Table LeaseScope LeaseRow) (sessionId : SessionId) (terminal : Bool) :
    Table LeaseScope LeaseRow :=
  if terminal then leases.modify (sessionLeaseScope sessionId) fun row => { row with expiresAtMs := 0 }
  else leases

/-- A fresh commit, with the update's ledger `mid` and everything the shared tail wrote. -/
structure Committed (E : Environment) (request : SessionCommitRequest) (lease : Lease) (now : Nat)
    (db db' : E.Db) (session session' : SessionRow) (turn row : TurnRow) (draft : Draft) (mid : E.Db)
    (states : List TurnState) (cards : List TranscriptEntry) (response : SessionCommitResponse) : Prop where
  fenced : checkFences db request lease now = .ok (session, turn)
  admitted : Admitted db request lease now session turn
  applied : applyUpdate E db request.turnId lease now turn.state session.lifecycle
    (recoveredReconciliation session (db.sessionActiveTurns.get? request.sessionId) request) request.update =
      .ok (draft, mid)
  shaped : Shaped db mid request.turnId lease now turn.state session.lifecycle
    (recoveredReconciliation session (db.sessionActiveTurns.get? request.sessionId) request) draft
  freshCommand : db.sessionCommandDedup.get? request.commandId = none
  freshSource : db.sessionCommitSources.get? (request.sessionId, request.update.sourceKey) = none
  written : TurnWritten db db' turn row states now
  state : row.state = draft.next
  unmoved : states = [] ↔ draft.turnChanged = false
  rowToken : row.leaseToken = lease.fencingToken
  moved : session' = movedSession session (session.revision + 1) (session.lastSeq + 1) draft.nextLifecycle
    request.turnId now
  sessions : ∀ key, db'.sessions.get? key =
    if key = request.sessionId then some session' else db.sessions.get? key
  logged : ∃ rows, SessionLogged db.sessionEvents db'.sessionEvents request.sessionId session session' rows cards
  drafted : cards = (draft.card.map (commitEntry E request now (session.lastSeq + 1))).toList
  outbox : db'.conversationOutbox.rows =
    db.conversationOutbox.rows ++ cards.map (outboxRow request.sessionId)
  ranged : ∀ card ∈ cards, card.sequence < 2 ^ 63
  links : SameLinks db.sessionTurns db'.sessionTurns
  rounds : ∀ key, (db'.sessionTurns.get? key).map SessionTurnRow.toolRoundCount =
    (db.sessionTurns.get? key).map fun link =>
      link.toolRoundCount + if key = request.turnId ∧ draft.card.any countsAsToolRound = true then 1 else 0
  responded : response.snapshot.sessionId = request.sessionId ∧ response.snapshot.sequence = session'.lastSeq
  frame : db' = { db with
    turns := db'.turns
    turnReadModel := db'.turnReadModel
    events := db'.events
    effects := mid.effects
    pendingPermissions := mid.pendingPermissions
    sessionEffectCanonical := mid.sessionEffectCanonical
    runtimeCheckpoints := db'.runtimeCheckpoints
    sessionTurns := db'.sessionTurns
    sessionActiveTurns := settledActives db.sessionActiveTurns request.sessionId request.turnId
      lease.fencingToken draft.terminal
    runtimeLease := settledLeases db.runtimeLease request.sessionId draft.terminal
    conversationOutbox := db'.conversationOutbox
    sessionEvents := db'.sessionEvents
    sessions := db'.sessions
    sessionCommandDedup := db.sessionCommandDedup.add request.commandId
      ⟨sessionCommandDigest E request, .response response, now⟩
    sessionCommitSources := db.sessionCommitSources.add (request.sessionId, request.update.sourceKey)
      ⟨sessionCommandDigest E request, response⟩ }

section Tail

variable {E : Environment} {request : SessionCommitRequest} {lease : Lease} {now : Nat} {db mid db' : E.Db}
  {session : SessionRow} {turn : TurnRow} {draft : Draft} {response : SessionCommitResponse}
  {lifecycle : SessionLifecycle} {recovered : Bool}

theorem TurnWritten.of_tables {before middle after : Database D} {turn row : TurnRow}
    {states : List TurnState} {now : Nat} (turns : middle.turns = before.turns)
    (readModel : middle.turnReadModel = before.turnReadModel) (events : middle.events = before.events)
    (written : TurnWritten middle after turn row states now) : TurnWritten before after turn row states now := by
  refine ⟨written.path, ?_, written.status, written.revision, written.lastSeq, ?_, ?_⟩
  · rw [← turns]
    exact written.turns
  · rw [← readModel]
    exact written.readModel
  · rw [← events]
    exact written.events

theorem TurnWritten.to_tables {before middle after : Database D} {turn row : TurnRow}
    {states : List TurnState} {now : Nat} (turns : after.turns = middle.turns)
    (readModel : after.turnReadModel = middle.turnReadModel) (events : after.events = middle.events)
    (written : TurnWritten before middle turn row states now) :
    TurnWritten before after turn row states now := by
  refine ⟨written.path, ?_, written.status, written.revision, written.lastSeq, ?_, ?_⟩
  · rw [turns]
    exact written.turns
  · rw [readModel]
    exact written.readModel
  · rw [events]
    exact written.events

theorem LedgerOnly.readModel {turnId : TurnId} {before middle : Database D}
    (ledger : LedgerOnly before middle turnId lease now draft) :
    middle.turnReadModel = before.turnReadModel := by rw [ledger.frame]

theorem LedgerOnly.events {turnId : TurnId} {before middle : Database D}
    (ledger : LedgerOnly before middle turnId lease now draft) : middle.events = before.events := by
  rw [ledger.frame]

/-- A commit that leaves its turn unchanged only hands it to the lease. -/
theorem retoken_written (foundTurn : db.turns.get? request.turnId = some turn) (mirrored : Mirrored db)
    (ledger : LedgerOnly db mid request.turnId lease now draft) :
    ∃ row, row.state = turn.state ∧ row.leaseToken = lease.fencingToken ∧
      TurnWritten db { mid with
        turns := mid.turns.modify request.turnId fun row =>
          { row with leaseToken := lease.fencingToken, updatedAtMs := now } } turn row [] now := by
  have named := mirrored.turnId _ _ foundTurn
  have rest : ∀ row : TurnRow, row.state = turn.state → row.status = turn.status →
      row.revision = turn.revision → row.lastSeq = turn.lastSeq →
      (∀ key, (mid.turns.modify request.turnId fun row =>
          { row with leaseToken := lease.fencingToken, updatedAtMs := now }).get? key =
        if key = request.turnId then some row else db.turns.get? key) →
      TurnWritten db { mid with
        turns := mid.turns.modify request.turnId fun row =>
          { row with leaseToken := lease.fencingToken, updatedAtMs := now } } turn row [] now := by
    intro row state status revision lastSeq turns
    refine ⟨state ▸ .stay, ?_, ?_, ?_, lastSeq, ?_, ?_⟩
    · rw [named]
      exact turns
    · rw [status, state, mirrored.status _ _ foundTurn]
    · rw [revision, state, mirrored.revision _ _ foundTurn]
    · intro key
      rw [if_neg fun both => both.2 rfl]
      exact congrArg (fun table => table.get? key) ledger.readModel
    · rw [show ({ mid with
        turns := mid.turns.modify request.turnId fun row =>
          { row with leaseToken := lease.fencingToken, updatedAtMs := now } } : E.Db).events = db.events from
          ledger.events]
      exact .nil
  rcases ledger.turns with same | ⟨_, bumped⟩
  · refine ⟨{ turn with leaseToken := lease.fencingToken, updatedAtMs := now }, rfl, rfl,
      rest _ rfl rfl rfl rfl ?_⟩
    intro key
    rw [same, Table.get?_modify]
    split
    case isTrue here => rw [here, foundTurn, Option.map_some]
    case isFalse => rfl
  · refine ⟨{ bumpEpoch lease now turn with leaseToken := lease.fencingToken, updatedAtMs := now }, rfl, rfl,
      rest _ rfl rfl rfl rfl ?_⟩
    intro key
    rw [bumped, Table.get?_modify, Table.get?_modify]
    split
    case isTrue here => rw [here, foundTurn, Option.map_some, Option.map_some]
    case isFalse => rfl

/-- The turn of a commit after the update: moved along its path, or only re-tokened. -/
theorem writeTurn_written (mirrored : Mirrored db) (foundTurn : db.turns.get? request.turnId = some turn)
    (shaped : Shaped db mid request.turnId lease now turn.state lifecycle recovered draft)
    (written : writeTurn E request lease now mid turn draft = .ok db') :
    ∃ row states, TurnFrame mid db' ∧ TurnWritten db db' turn row states now ∧ row.state = draft.next ∧
      (states = [] ↔ draft.turnChanged = false) ∧ row.leaseToken = lease.fencingToken := by
  have named := mirrored.turnId _ _ foundTurn
  have ledger := shaped.ledger
  unfold writeTurn at written
  split at written
  case isTrue changed =>
    have tables : mid.turns = db.turns := by
      rcases ledger.turns with same | ⟨unchanged, _⟩
      · exact same
      · exact absurd (changed.symm.trans unchanged) (by decide)
    have advances : Advances turn.state draft.next := by
      cases shaped.shape with
      | stay unchanged _ _ _ => exact absurd (changed.symm.trans unchanged) (by decide)
      | move _ _ _ step _ => exact step
      | finish _ _ _ step _ => exact step
    have found : mid.turns.get? turn.state.turnId = some turn := by
      rw [tables, named]
      exact foundTurn
    obtain ⟨row, states, moved, frame, facts, state, token, _⟩ :=
      appendLinkedTurnTransition_written found (mirrored.revision _ _ foundTurn) advances written
    refine ⟨row, states, frame, facts.of_tables tables ledger.readModel ledger.events, state, ?_, token⟩
    constructor
    · intro none
      exact absurd none moved
    · intro unchanged
      exact absurd (changed.symm.trans unchanged) (by decide)
  case isFalse unchanged =>
    simp only [bind_ok, ensure_ok, Except.ok.injEq] at written
    obtain ⟨_, _, rfl⟩ := written
    obtain ⟨row, state, token, facts⟩ := retoken_written foundTurn mirrored ledger
    refine ⟨row, [], rfl, facts, ?_, ?_, token⟩
    · cases shaped.shape with
      | stay _ same _ _ => rw [state, same]
      | move changed => exact absurd changed unchanged
      | finish changed => exact absurd changed unchanged
    · simpa using unchanged

/-- The card of a commit is one outbox row at the new sequence. -/
theorem writeCard_ok {sequence : Nat} {card : Option Card} {transcript : Option TranscriptEntry}
    (written : writeCard E request now db sequence card = .ok (transcript, db')) :
    transcript = card.map (commitEntry E request now sequence) ∧
      db' = { db with conversationOutbox := db'.conversationOutbox, sessionTurns := db'.sessionTurns } ∧
      db'.conversationOutbox.rows =
        db.conversationOutbox.rows ++ transcript.toList.map (outboxRow request.sessionId) ∧
      (∀ card ∈ transcript.toList, card.sequence < 2 ^ 63) ∧
      SameLinks db.sessionTurns db'.sessionTurns ∧
      ∀ key, (db'.sessionTurns.get? key).map SessionTurnRow.toolRoundCount =
        (db.sessionTurns.get? key).map fun link =>
          link.toolRoundCount + if key = request.turnId ∧ card.any countsAsToolRound = true then 1 else 0 := by
  cases card with
  | none =>
      simp only [writeCard, Except.ok.injEq, Prod.mk.injEq] at written
      obtain ⟨rfl, rfl⟩ := written
      refine ⟨rfl, rfl, (List.append_nil _).symm, List.forall_mem_nil _, .refl, ?_⟩
      intro key
      simp only [Option.any_none, Bool.false_eq_true, and_false, if_false, Nat.add_zero]
  | some card =>
      simp only [writeCard, bind_ok, Except.ok.injEq, Prod.mk.injEq] at written
      obtain ⟨_, inserted, rfl, rfl⟩ := written
      have ranged := insertTranscript_range inserted
      obtain ⟨fresh, rfl⟩ := insertTranscript_ok inserted
      refine ⟨rfl, rfl, Table.rows_add_fresh _ _ fresh, List.forall_mem_singleton.mpr ranged, ?_, ?_⟩
      · change SameLinks db.sessionTurns (if _ then _ else _)
        split
        · exact .modify fun _ => rfl
        · exact .refl
      · intro key
        change Option.map _ (Table.get? (if _ then _ else _) key) = _
        rw [Option.any_some]
        split
        case isTrue counts =>
          rw [Table.get?_modify]
          by_cases here : key = request.turnId
          · rw [if_pos here, if_pos ⟨here, counts⟩, Option.map_map]
            rfl
          · rw [if_neg here, if_neg fun both => here both.1]
            rfl
        case isFalse quiet =>
          rw [if_neg fun both => quiet both.2]
          rfl

theorem settleActive_ok {terminal : Bool} (settled : settleActive E request lease now db terminal = .ok db') :
    SameLinks db.sessionTurns db'.sessionTurns ∧
      (∀ key, (db'.sessionTurns.get? key).map SessionTurnRow.toolRoundCount =
        (db.sessionTurns.get? key).map SessionTurnRow.toolRoundCount) ∧ db' = { db with
      sessionTurns := db'.sessionTurns
      sessionActiveTurns := settledActives db.sessionActiveTurns request.sessionId request.turnId
        lease.fencingToken terminal
      runtimeLease := settledLeases db.runtimeLease request.sessionId terminal } := by
  cases terminal with
  | true =>
      simp only [settleActive, if_true, bind_ok, ensure_ok, Except.ok.injEq] at settled
      obtain ⟨_, _, rfl⟩ := settled
      refine ⟨.modify fun _ => rfl, ?_, rfl⟩
      intro key
      rw [Table.get?_modify]
      split
      · rw [Option.map_map]
        rfl
      · rfl
  | false =>
      simp only [settleActive, Bool.false_eq_true, if_false, Except.ok.injEq] at settled
      subst settled
      exact ⟨.refl, fun _ => rfl, rfl⟩

theorem recordCommit_ok (recorded : recordCommit E request now db response = .ok db') :
    db.sessionCommandDedup.get? request.commandId = none ∧
      db.sessionCommitSources.get? (request.sessionId, request.update.sourceKey) = none ∧
      db' = { db with
        sessionCommandDedup := db.sessionCommandDedup.add request.commandId
          ⟨sessionCommandDigest E request, .response response, now⟩
        sessionCommitSources := db.sessionCommitSources.add (request.sessionId, request.update.sourceKey)
          ⟨sessionCommandDigest E request, response⟩ } := by
  simp only [recordCommit, bind_ok, unique_ok, Except.ok.injEq] at recorded
  obtain ⟨_, command, _, source, rfl⟩ := recorded
  exact ⟨command, source, rfl⟩

/-- The event of a commit announces its card. -/
theorem commitEvent_announces {transcript : Option TranscriptEntry} {entry : TranscriptEntry}
    (card : transcript = some entry) : announces (commitEvent request draft transcript) = true := by
  subst card
  rfl

theorem writeCheckpoint_frame (checkpoint : Option String) :
    writeCheckpoint E request now db checkpoint =
      { db with runtimeCheckpoints := (writeCheckpoint E request now db checkpoint).runtimeCheckpoints } := by
  unfold writeCheckpoint
  split <;> rfl

/-- The response of a commit names the session and the sequence it has reached. -/
theorem commit_responded {sessionId : SessionId} {session' : SessionRow} {limit : Nat}
    {snapshot : SessionSnapshot} (found : db.sessions.get? sessionId = some session')
    (taken : currentSessionSnapshot E db sessionId limit = .ok snapshot) :
    snapshot.sessionId = sessionId ∧ snapshot.sequence = session'.lastSeq := by
  simp only [currentSessionSnapshot, bind_ok, Except.ok.injEq] at taken
  obtain ⟨projected, projection, rfl⟩ := taken
  obtain ⟨row, held, named, _, sequence, _⟩ := sessionSnapshot_session projection
  rw [found, Option.some.injEq] at held
  subst held
  exact ⟨named, sequence⟩

/-- Everything a fresh commit does. -/
theorem commitFresh_ok (mirrored : Mirrored db)
    (committed : commitFresh E request lease now db = .ok (response, db')) :
    ∃ session session' turn row draft mid states cards,
      Committed E request lease now db db' session session' turn row draft mid states cards response := by
  simp only [commitFresh, bind_ok] at committed
  obtain ⟨⟨session, turn⟩, fenced, ⟨draft, mid⟩, applied, written⟩ := committed
  have admitted := checkFences_ok fenced
  have shaped := applyUpdate_shaped applied
  simp only [writeCommit, bind_ok, addOr_ok, Except.ok.injEq, Prod.mk.injEq] at written
  obtain ⟨_, ⟨rfl, _⟩, _, ⟨rfl, _⟩, turned, wroteTurn, ⟨transcript, carded⟩, wroteCard, settled, wroteActive,
    ⟨stored, logged⟩, wroteEvent, snapshot, projected, recorded, wroteRecord, rfl, rfl⟩ := written
  obtain ⟨row, states, turnFrame, turnFacts, state, unmoved, token⟩ :=
    writeTurn_written mirrored admitted.foundTurn shaped wroteTurn
  obtain ⟨drafted, cardFrame, outbox, ranged, cardLinks, cardRounds⟩ := writeCard_ok wroteCard
  obtain ⟨settledLinks, settledRounds, settledFrame⟩ := settleActive_ok wroteActive
  obtain ⟨freshEvent, rfl, rfl⟩ := insertSessionEvent_ok wroteEvent
  obtain ⟨freshCommand, freshSource, rfl⟩ := recordCommit_ok wroteRecord
  have base : settled = { db with
      turns := turned.turns
      turnReadModel := turned.turnReadModel
      events := turned.events
      effects := mid.effects
      pendingPermissions := mid.pendingPermissions
      sessionEffectCanonical := mid.sessionEffectCanonical
      runtimeCheckpoints := settled.runtimeCheckpoints
      sessionTurns := settled.sessionTurns
      sessionActiveTurns := settledActives db.sessionActiveTurns request.sessionId request.turnId
        lease.fencingToken draft.terminal
      runtimeLease := settledLeases db.runtimeLease request.sessionId draft.terminal
      conversationOutbox := carded.conversationOutbox } := by
    rw [settledFrame, cardFrame, writeCheckpoint_frame, turnFrame, shaped.ledger.frame]
  have sessions : settled.sessions = db.sessions := by rw [base]
  have before : (writeCheckpoint E request now turned draft.checkpoint).sessionTurns = db.sessionTurns := by
    rw [writeCheckpoint_frame, turnFrame, shaped.ledger.frame]
  rw [before] at cardLinks cardRounds
  have links : SameLinks db.sessionTurns settled.sessionTurns := cardLinks.trans settledLinks
  have cards : carded.conversationOutbox.rows =
      db.conversationOutbox.rows ++ transcript.toList.map (outboxRow request.sessionId) := by
    have before : (writeCheckpoint E request now turned draft.checkpoint).conversationOutbox =
        db.conversationOutbox := by
      rw [writeCheckpoint_frame, turnFrame, shaped.ledger.frame]
    rw [before] at outbox
    exact outbox
  have moved : ∀ key, (updateSession E request now settled draft (session.revision + 1)
      (session.lastSeq + 1)).sessions.get? key = if key = request.sessionId then
        some (movedSession session (session.revision + 1) (session.lastSeq + 1) draft.nextLifecycle
          request.turnId now) else db.sessions.get? key := by
    intro key
    rw [updateSession, sessions]
    exact sessions_modify admitted.foundSession key
  have events : settled.sessionEvents = db.sessionEvents := by rw [base]
  have announced : transcript.toList = [] ∨ ∃ card, transcript.toList = [card] ∧
      card.sequence = session.lastSeq + 1 ∧ announces (commitEvent request draft transcript) = true := by
    cases same : transcript with
    | none => exact .inl rfl
    | some entry =>
        obtain ⟨card, _, rfl⟩ := Option.map_eq_some_iff.mp (drafted.symm.trans same)
        exact .inr ⟨_, rfl, rfl, rfl⟩
  change settled.sessionEvents.get? _ = none at freshEvent
  rw [events] at freshEvent
  have logged : SessionLogged db.sessionEvents
      (settled.sessionEvents.add (request.sessionId, session.lastSeq + 1)
        (sessionEventRow request.sessionId (session.revision + 1) (session.lastSeq + 1)
          (commitEvent request draft transcript) now)) request.sessionId session
      (movedSession session (session.revision + 1) (session.lastSeq + 1) draft.nextLifecycle request.turnId now)
      [sessionEventRow request.sessionId (session.revision + 1) (session.lastSeq + 1)
        (commitEvent request draft transcript) now] transcript.toList := by
    rw [events]
    exact .one freshEvent rfl rfl announced
  refine ⟨session, _, turn, row, draft, mid, states, transcript.toList, fenced, admitted, applied, shaped, ?_,
    ?_, turnFacts.to_tables ?_ ?_ ?_, state, unmoved, token, rfl, moved, ⟨_, logged⟩, congrArg Option.toList drafted, ?_,
    ranged, links, fun key => (settledRounds key).trans (cardRounds key), ?_, ?_⟩
  · change settled.sessionCommandDedup.get? _ = none at freshCommand
    rw [base] at freshCommand
    exact freshCommand
  · change settled.sessionCommitSources.get? _ = none at freshSource
    rw [base] at freshSource
    exact freshSource
  · change settled.turns = turned.turns
    rw [base]
  · change settled.turnReadModel = turned.turnReadModel
    rw [base]
  · change settled.events = turned.events
    rw [base]
  · change settled.conversationOutbox.rows = _
    rw [base]
    exact cards
  · exact commit_responded (by rw [moved, if_pos rfl]) projected
  · rw [updateSession, base]

end Tail

end LatteCode.Storage
