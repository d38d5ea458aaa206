import LatteCode.Storage.Committed
/- The acceptance of a prompt as a new linked child, with everything it does. -/

namespace LatteCode.Storage
open Keyed Outcome Numbered

variable {D : Type}

/-- The `turns` row of a new child. -/
def childRow (state : TurnState) (lease : Option Lease) (now : Nat) : TurnRow :=
  ⟨state, state.status, state.revision, if lease.isSome then 1 else 0, initialToken lease, 0, now, now⟩

/-- The states that an acceptance logs for its child: the started one, under a lease. -/
def startedStates (lease : Option Lease) (state : TurnState) : List TurnState :=
  if lease.isSome then [state] else []

/-- A new linked child, active in its session. -/
structure ChildWritten (db db' : Database D) (sessionId : SessionId) (state : TurnState)
    (parent : Option TurnId) (ordinal : Nat) (lease : Option Lease) (now : Nat) : Prop where
  started : initialTurn state.turnId lease = .ok state
  freshTurn : db.turns.get? state.turnId = none
  freshModel : db.turnReadModel.get? state.turnId = none
  freshLink : db.sessionTurns.get? state.turnId = none
  idle : db.sessionActiveTurns.get? sessionId = none
  turns : ∀ key, db'.turns.get? key =
    if key = state.turnId then some (childRow state lease now) else db.turns.get? key
  readModel : ∀ key, db'.turnReadModel.get? key = if key = state.turnId then
    some ⟨state.revision, (childRow state lease now).lastSeq, state⟩ else db.turnReadModel.get? key
  links : ∀ key, db'.sessionTurns.get? key =
    if key = state.turnId then some ⟨sessionId, parent, ordinal, none, 0⟩ else db.sessionTurns.get? key
  actives : ∀ key, db'.sessionActiveTurns.get? key =
    if key = sessionId then some ⟨state.turnId, initialToken lease⟩ else db.sessionActiveTurns.get? key
  events : Appended db.events db'.events state.turnId 0 ((startedStates lease state).map (turnEventRow now))

/-- The state of a new child is started under a lease and queued without one. -/
theorem initialTurn_ok {turnId : TurnId} {lease : Option Lease} {state : TurnState}
    (initial : initialTurn turnId lease = .ok state) :
    state.turnId = turnId ∧ state.revision = (if lease.isSome then 1 else 0) ∧
      state.status = (if lease.isSome then .running else .queued) ∧ state.Coherent := by
  cases lease with
  | none =>
      cases initial
      exact ⟨rfl, rfl, rfl, TurnState.queued_coherent turnId⟩
  | some lease =>
      simp only [initialTurn, transitionOr_ok] at initial
      have coherent := TurnState.transition_coherent (TurnState.queued_coherent turnId) initial
      obtain ⟨_, same⟩ := TurnState.transition_start initial
      exact ⟨by rw [same]; rfl, by rw [same]; rfl, by rw [same]; rfl, coherent⟩

theorem insertStarted_ok {db db' : Database D} {sessionId : SessionId} {state : TurnState}
    {lease : Option Lease} {revision sequence now : Nat} {event : Option StoredSessionEvent}
    (inserted : insertStarted db sessionId state lease revision sequence now = .ok (event, db')) :
    (lease = none ∧ db' = db) ∨ lease.isSome = true ∧ db.events.get? (state.turnId, 1) = none ∧
      db.sessionEvents.get? (sessionId, sequence) = none ∧ db' = { db with
        events := db.events.add (state.turnId, 1) (turnEventRow now state)
        sessionEvents := db.sessionEvents.add (sessionId, sequence) (sessionEventRow sessionId revision sequence
          (.lifecycleChanged .running (some state.turnId)) now) } := by
  cases lease with
  | none =>
      simp only [insertStarted, Except.ok.injEq, Prod.mk.injEq] at inserted
      exact .inl ⟨rfl, inserted.2.symm⟩
  | some lease =>
      simp only [insertStarted, bind_ok, Except.ok.injEq, Prod.mk.injEq] at inserted
      obtain ⟨_, turned, ⟨_, _⟩, logged, _, rfl⟩ := inserted
      obtain ⟨freshTurn, rfl⟩ := insertTurnEvent_ok turned
      obtain ⟨freshEvent, _, rfl⟩ := insertSessionEvent_ok logged
      exact .inr ⟨rfl, freshTurn, freshEvent, rfl⟩

/-- The child that an acceptance inserts and, under a lease, starts. -/
theorem ChildWritten.of_inserted {db linked db' : Database D} {sessionId : SessionId} {turnId : TurnId}
    {state : TurnState} {parent : Option TurnId} {ordinal now : Nat} {lease : Option Lease}
    {baseline : List (String × String)} (initial : initialTurn turnId lease = .ok state)
    (inserted : insertLinkedTurn db sessionId state parent ordinal (if lease.isSome then 1 else 0)
      (initialToken lease) baseline now = .ok linked)
    (turns : db'.turns = linked.turns) (readModel : db'.turnReadModel = linked.turnReadModel)
    (links : db'.sessionTurns = linked.sessionTurns)
    (actives : db'.sessionActiveTurns = linked.sessionActiveTurns)
    (events : (lease = none ∧ db'.events = db.events) ∨ lease.isSome = true ∧
      db.events.get? (state.turnId, 1) = none ∧
      db'.events = db.events.add (state.turnId, 1) (turnEventRow now state)) :
    ChildWritten db db' sessionId state parent ordinal lease now := by
  obtain ⟨named, revision, status, coherent⟩ := initialTurn_ok initial
  obtain ⟨freshTurn, freshModel, freshLink, idle, rfl⟩ := insertLinkedTurn_ok inserted
  refine ⟨named ▸ initial, freshTurn, freshModel, freshLink, idle, ?_, ?_, ?_, ?_, ?_⟩
  · rw [turns]
    exact Table.get?_add_fresh _ _ freshTurn
  · rw [readModel]
    exact Table.get?_add_fresh _ _ freshModel
  · rw [links]
    exact Table.get?_add_fresh _ _ freshLink
  · rw [actives]
    exact Table.get?_add_fresh _ _ idle
  · rcases events with ⟨rfl, same⟩ | ⟨leased, fresh, added⟩
    · rw [same]
      exact .nil
    · rw [added, startedStates, if_pos leased]
      exact .single fresh

/-- A started acceptance holds the live lease of its session. -/
def HeldBy (db : Database D) (scope : LeaseScope) (now : Nat) (lease : Option Lease) : Prop :=
  ∀ held ∈ lease, held.scope = scope ∧ db.authoritative scope held.owner held.fencingToken now = true

theorem requireInitialLease_ok {db : Database D} {scope : LeaseScope} {now : Nat} {lease : Option Lease}
    {u : Unit} (required : requireInitialLease db scope now lease = .ok u) : HeldBy db scope now lease := by
  intro held same
  cases same
  simp only [requireInitialLease, bind_ok, requireLeaseScope_ok] at required
  obtain ⟨_, scope_eq, authority⟩ := required
  exact ⟨scope_eq, requireAuthority_ok authority⟩

/-- The command of an accepted prompt, recorded once with its snapshot. -/
structure CommandRecorded (db db' : Database D) (commandId : Option SessionCommandId) (row : CommandRow D) :
    Prop where
  fresh : ∀ command ∈ commandId, db.sessionCommandDedup.get? command = none
  commands : db'.sessionCommandDedup = recordedCommands db.sessionCommandDedup row commandId

theorem recordCommand_ok {db db' : Database D} {commandId : Option SessionCommandId} {row : CommandRow D}
    (recorded : recordCommand db commandId row = .ok db') :
    CommandRecorded db db' commandId row ∧
      db' = { db with sessionCommandDedup := recordedCommands db.sessionCommandDedup row commandId } := by
  cases commandId with
  | none =>
      simp only [recordCommand, bind_ok, Except.ok.injEq] at recorded
      obtain ⟨_, _, rfl⟩ := recorded
      refine ⟨⟨?_, rfl⟩, rfl⟩
      intro command impossible
      cases impossible
  | some commandId =>
      simp only [recordCommand, bind_ok, toI64s_ok, unique_ok, Except.ok.injEq] at recorded
      obtain ⟨_, _, _, fresh, rfl⟩ := recorded
      refine ⟨⟨?_, rfl⟩, rfl⟩
      intro command same
      cases same
      exact fresh

/-- The accepted snapshot shows the session as the acceptance left it. -/
def Accepted (sessionId : SessionId) (session : SessionRow) (snapshot : SessionSnapshot) : Prop :=
  snapshot.sessionId = sessionId ∧ snapshot.sequence = session.lastSeq

/-- A session accepted with its first child. -/
structure Created (E : Environment) (args : CreateSession) (lease : Option Lease) (now : Nat) (db db' : E.Db)
    (state : TurnState) (rows : List SessionEventRow) (snapshot : SessionSnapshot) : Prop where
  held : HeldBy db (sessionLeaseScope args.sessionId) now lease
  named : state.turnId = args.turnId
  freshSession : db.sessions.get? args.sessionId = none
  child : ChildWritten db db' args.sessionId state none 0 lease now
  sessions : ∀ key, db'.sessions.get? key =
    if key = args.sessionId then some (createdSession E args lease now) else db.sessions.get? key
  logged : SessionLogged db.sessionEvents db'.sessionEvents args.sessionId
    { createdSession E args lease now with revision := 0, lastSeq := 1 } (createdSession E args lease now)
    rows []
  outbox : db'.conversationOutbox.rows =
    db.conversationOutbox.rows ++ [outboxRow args.sessionId (createCard E args now)]
  accepted : Accepted args.sessionId (createdSession E args lease now) snapshot
  recorded : CommandRecorded db db' args.commandId ⟨args.digest E, .snapshot snapshot, now⟩
  frame : db' = { db with
    sessions := db'.sessions
    turns := db'.turns
    turnReadModel := db'.turnReadModel
    turnBaselines := db'.turnBaselines
    events := db'.events
    sessionTurns := db'.sessionTurns
    sessionActiveTurns := db'.sessionActiveTurns
    conversationOutbox := db'.conversationOutbox
    sessionEvents := db'.sessionEvents
    sessionCommandDedup := db'.sessionCommandDedup }

/-- Only the tables of a new child differ. -/
theorem insertLinkedTurn_frame {db db' : Database D} {sessionId : SessionId} {state : TurnState}
    {parentTurnId : Option TurnId} {ordinal turnSequence leaseToken now : Nat}
    {baseline : List (String × String)}
    (inserted : insertLinkedTurn db sessionId state parentTurnId ordinal turnSequence leaseToken baseline
      now = .ok db') : db' = { db with
        turns := db'.turns
        turnReadModel := db'.turnReadModel
        turnBaselines := db'.turnBaselines
        sessionTurns := db'.sessionTurns
        sessionActiveTurns := db'.sessionActiveTurns } := by
  obtain ⟨_, _, _, _, rfl⟩ := insertLinkedTurn_ok inserted
  rfl

/-- What a start writes: nothing without a lease, else the turn's event and the session's. -/
theorem insertStarted_frame {db db' : Database D} {sessionId : SessionId} {state : TurnState}
    {lease : Option Lease} {revision sequence now : Nat} {event : Option StoredSessionEvent}
    (inserted : insertStarted db sessionId state lease revision sequence now = .ok (event, db')) :
    db' = { db with events := db'.events, sessionEvents := db'.sessionEvents } ∧
      ((lease = none ∧ db'.events = db.events ∧ db'.sessionEvents = db.sessionEvents) ∨
        lease.isSome = true ∧ db.events.get? (state.turnId, 1) = none ∧
        db.sessionEvents.get? (sessionId, sequence) = none ∧
        db'.events = db.events.add (state.turnId, 1) (turnEventRow now state) ∧
        db'.sessionEvents = db.sessionEvents.add (sessionId, sequence) (sessionEventRow sessionId revision
          sequence (.lifecycleChanged .running (some state.turnId)) now)) := by
  rcases insertStarted_ok inserted with ⟨absent, rfl⟩ | ⟨leased, freshTurn, freshEvent, rfl⟩
  · exact ⟨rfl, .inl ⟨absent, rfl, rfl⟩⟩
  · exact ⟨rfl, .inr ⟨leased, freshTurn, freshEvent, rfl, rfl⟩⟩

/-- The log of a created session: its start under a lease, nothing without one. -/
theorem created_logged {E : Environment} {args : CreateSession} {lease : Option Lease} {now : Nat}
    (state : TurnState) {before after : Table (SessionId × Nat) SessionEventRow}
    (started : (lease = none ∧ after = before) ∨ lease.isSome = true ∧
      before.get? (args.sessionId, (createdSession E args lease now).lastSeq) = none ∧
      after = before.add (args.sessionId, (createdSession E args lease now).lastSeq)
        (sessionEventRow args.sessionId (createdSession E args lease now).revision
          (createdSession E args lease now).lastSeq (.lifecycleChanged .running (some state.turnId)) now)) :
    ∃ rows, SessionLogged before after args.sessionId
      { createdSession E args lease now with revision := 0, lastSeq := 1 } (createdSession E args lease now)
      rows [] := by
  rcases started with ⟨rfl, rfl⟩ | ⟨leased, fresh, rfl⟩
  · exact ⟨[], .nil (by simp [logKey, createdSession])⟩
  · let started := createdSession E args lease now
    let empty : SessionRow := { started with revision := 0, lastSeq := 1 }
    have revision : started.revision = empty.revision + 1 := if_pos leased
    have lastSeq : started.lastSeq = empty.lastSeq + 1 := if_pos leased
    change ∃ rows, SessionLogged before (before.add (args.sessionId, started.lastSeq) (sessionEventRow
      args.sessionId started.revision started.lastSeq (.lifecycleChanged .running (some state.turnId)) now))
      args.sessionId empty started rows []
    change before.get? (args.sessionId, started.lastSeq) = none at fresh
    rw [lastSeq] at fresh ⊢
    rw [revision]
    exact ⟨_, .one fresh revision lastSeq (.inl rfl)⟩

theorem insertSession_ok {E : Environment} {args : CreateSession} {lease : Option Lease} {now : Nat}
    {db db' : E.Db} {outcome : CreateOutcome} {event : Option StoredSessionEvent}
    (held : HeldBy db (sessionLeaseScope args.sessionId) now lease)
    (inserted : insertSession E db args lease now = .ok ((outcome, event), db')) :
    ∃ state rows snapshot, outcome = .created snapshot ∧
      Created E args lease now db db' state rows snapshot := by
  simp only [insertSession, bind_ok, toI64s_ok, unique_ok, Except.ok.injEq, Prod.mk.injEq] at inserted
  obtain ⟨state, initial, _, _, _, freshSession, linked, insertedLink, carded, insertedCard, ⟨started, logged⟩,
    insertedStart, snapshot, taken, recorded, recording, ⟨rfl, _⟩, rfl⟩ := inserted
  have linkFrame := insertLinkedTurn_frame insertedLink
  obtain ⟨freshCard, cardFrame⟩ := insertTranscript_ok insertedCard
  obtain ⟨startFrame, startedRows⟩ := insertStarted_frame insertedStart
  obtain ⟨recordedRow, recordFrame⟩ := recordCommand_ok recording
  have base : logged = { db with
      sessions := db.sessions.add args.sessionId (createdSession E args lease now)
      turns := linked.turns
      turnReadModel := linked.turnReadModel
      turnBaselines := linked.turnBaselines
      sessionTurns := linked.sessionTurns
      sessionActiveTurns := linked.sessionActiveTurns
      conversationOutbox := logged.conversationOutbox
      events := logged.events
      sessionEvents := logged.sessionEvents } := by
    rw [startFrame, cardFrame, linkFrame]
  have cardEvents : carded.events = db.events := by rw [cardFrame, linkFrame]
  have cardLog : carded.sessionEvents = db.sessionEvents := by rw [cardFrame, linkFrame]
  have linkOutbox : linked.conversationOutbox = db.conversationOutbox := by rw [linkFrame]
  have outbox : logged.conversationOutbox = carded.conversationOutbox := by rw [startFrame]
  rw [cardEvents, cardLog] at startedRows
  have child : ChildWritten
      { db with sessions := db.sessions.add args.sessionId (createdSession E args lease now) }
      logged args.sessionId state none 0 lease now := by
    refine .of_inserted initial insertedLink (by rw [base]) (by rw [base]) (by rw [base]) (by rw [base]) ?_
    rcases startedRows with ⟨absent, events, _⟩ | ⟨leased, fresh, _, events, _⟩
    · exact .inl ⟨absent, events⟩
    · exact .inr ⟨leased, fresh, events⟩
  have sessionRows : ∃ rows, SessionLogged db.sessionEvents logged.sessionEvents args.sessionId
      { createdSession E args lease now with revision := 0, lastSeq := 1 } (createdSession E args lease now)
      rows [] := by
    refine created_logged state ?_
    rcases startedRows with ⟨absent, _, log⟩ | ⟨leased, _, fresh, _, log⟩
    · exact .inl ⟨absent, log⟩
    · exact .inr ⟨leased, fresh, log⟩
  obtain ⟨rows, sessionRows⟩ := sessionRows
  have sessions : logged.sessions = db.sessions.add args.sessionId (createdSession E args lease now) := by
    rw [base]
  have found : ∀ key, logged.sessions.get? key =
      if key = args.sessionId then some (createdSession E args lease now) else db.sessions.get? key := by
    intro key
    rw [sessions]
    exact Table.get?_add_fresh _ _ freshSession key
  have commands : logged.sessionCommandDedup = db.sessionCommandDedup := by rw [base]
  have outboxRows : logged.conversationOutbox.rows =
      db.conversationOutbox.rows ++ [outboxRow args.sessionId (createCard E args now)] := by
    rw [linkOutbox] at freshCard
    rw [outbox, cardFrame, linkOutbox]
    exact Table.rows_add_fresh _ _ freshCard
  subst recordFrame
  refine ⟨state, rows, snapshot, rfl, held, (initialTurn_ok initial).1, freshSession, ?_, found, sessionRows,
    outboxRows, commit_responded (by rw [found, if_pos rfl]) taken, ⟨?_, ?_⟩, ?_⟩
  · exact ⟨child.started, child.freshTurn, child.freshModel, child.freshLink, child.idle, child.turns,
      child.readModel, child.links, child.actives, child.events⟩
  · rw [← commands]
    exact recordedRow.fresh
  · rw [← commands]
  · rw [base]

/-- The steps of the session that an acceptance of a follow-up takes. -/
def followUpSteps (lease : Option Lease) : Nat := if lease.isSome then 2 else 1

/-- A follow-up accepted as the next child of a ready session. -/
structure FollowedUp (E : Environment) (args : FollowUp) (lease : Option Lease) (now : Nat) (db db' : E.Db)
    (session session' : SessionRow) (state : TurnState) (rows : List SessionEventRow)
    (snapshot : SessionSnapshot) : Prop where
  held : HeldBy db (sessionLeaseScope args.sessionId) now lease
  named : state.turnId = args.turnId
  foundSession : db.sessions.get? args.sessionId = some session
  sessionRevision : session.revision = args.expectedSessionRevision
  ready : session.lifecycle = .ready
  parent : ∀ latest ∈ session.latestTurnId, ∃ row, db.turns.get? latest = some row ∧
    followUpParent row.state = true
  child : ChildWritten db db' args.sessionId state session.latestTurnId (nextOrdinal db args.sessionId) lease now
  moved : session' = movedSession session (session.revision + followUpSteps lease)
    (session.lastSeq + followUpSteps lease) .running args.turnId now
  sessions : ∀ key, db'.sessions.get? key =
    if key = args.sessionId then some session' else db.sessions.get? key
  logged : SessionLogged db.sessionEvents db'.sessionEvents args.sessionId session session' rows
    [followUpCard E args (session.lastSeq + 1) now]
  outbox : db'.conversationOutbox.rows = db.conversationOutbox.rows ++
    [outboxRow args.sessionId (followUpCard E args (session.lastSeq + 1) now)]
  ranged : session.lastSeq + 1 < 2 ^ 63
  accepted : Accepted args.sessionId session' snapshot
  recorded : CommandRecorded db db' args.commandId ⟨args.digest E, .snapshot snapshot, now⟩
  frame : db' = { db with
    sessions := db'.sessions
    turns := db'.turns
    turnReadModel := db'.turnReadModel
    turnBaselines := db'.turnBaselines
    events := db'.events
    sessionTurns := db'.sessionTurns
    sessionActiveTurns := db'.sessionActiveTurns
    conversationOutbox := db'.conversationOutbox
    sessionEvents := db'.sessionEvents
    sessionCommandDedup := db'.sessionCommandDedup }

theorem followUpParentState_ok {E : Environment} {db : E.Db} {session : SessionRow} {args : FollowUp}
    {parent : Option TurnState} (checked : followUpParentState E db session args = .ok parent) :
    session.revision = args.expectedSessionRevision ∧ session.lifecycle = .ready ∧
      ∀ latest ∈ session.latestTurnId, ∃ row, db.turns.get? latest = some row ∧
        followUpParent row.state = true := by
  simp only [followUpParentState, bind_ok, ensure_ok, Except.ok.injEq] at checked
  obtain ⟨_, revision, _, ⟨ready, _⟩, _, _, read, found, _, allowed, rfl⟩ := checked
  refine ⟨revision, ready, ?_⟩
  intro latest named
  rw [Option.mem_def] at named
  rw [named] at found
  simp only [latestState, bind_ok, queryRow_ok, Except.ok.injEq] at found
  obtain ⟨row, held, rfl⟩ := found
  exact ⟨row, held, allowed⟩

/-- The rows of an accepted follow-up: its link and, under a lease, its start. -/
theorem followUp_logged {E : Environment} {args : FollowUp} {lease : Option Lease} {now : Nat}
    (state : TurnState) {session : SessionRow} {summary : SessionTurnSummary}
    {before middle after : Table (SessionId × Nat) SessionEventRow} {revision sequence : Nat}
    (freshLinked : before.get? (args.sessionId, session.lastSeq + 1) = none)
    (linked : middle = before.add (args.sessionId, session.lastSeq + 1)
      (sessionEventRow args.sessionId (session.revision + 1) (session.lastSeq + 1) (.turnLinked summary) now))
    (revised : revision = session.revision + followUpSteps lease)
    (sequenced : sequence = session.lastSeq + followUpSteps lease)
    (started : (lease = none ∧ after = middle) ∨ lease.isSome = true ∧
      middle.get? (args.sessionId, sequence) = none ∧ after = middle.add (args.sessionId, sequence)
        (sessionEventRow args.sessionId revision sequence (.lifecycleChanged .running (some state.turnId)) now)) :
    ∃ rows, SessionLogged before after args.sessionId session
      (movedSession session revision sequence .running args.turnId now) rows
      [followUpCard E args (session.lastSeq + 1) now] := by
  have first : SessionLogged before middle args.sessionId session
      (movedSession session (session.revision + 1) (session.lastSeq + 1) .running args.turnId now)
      [sessionEventRow args.sessionId (session.revision + 1) (session.lastSeq + 1) (.turnLinked summary) now]
      [followUpCard E args (session.lastSeq + 1) now] := by
    rw [linked]
    exact .one freshLinked rfl rfl (.inr ⟨_, rfl, rfl, rfl⟩)
  rcases started with ⟨rfl, rfl⟩ | ⟨leased, fresh, rfl⟩
  · subst revised sequenced
    exact ⟨_, first⟩
  · have two : followUpSteps lease = 2 := if_pos leased
    rw [two] at revised sequenced
    subst revised sequenced
    let one := movedSession session (session.revision + 1) (session.lastSeq + 1) .running args.turnId now
    let two := movedSession session (session.revision + 2) (session.lastSeq + 2) .running args.turnId now
    let start := sessionEventRow args.sessionId (one.revision + 1) (one.lastSeq + 1)
      (.lifecycleChanged .running (some state.turnId)) now
    have second : SessionLogged middle (middle.add (args.sessionId, one.lastSeq + 1) start) args.sessionId one
        two [start] [] := .one fresh rfl rfl (.inl rfl)
    exact ⟨_, first.append second⟩

theorem startedCounter_ok {lease : Option Lease} {value result : Nat} {message : String}
    (counted : startedCounter lease (value + 1) message = .ok result) : result = value + followUpSteps lease := by
  cases lease with
  | none =>
      cases counted
      rfl
  | some lease =>
      simp only [startedCounter, addOr_ok] at counted
      exact counted.1

theorem insertFollowUp_ok {E : Environment} {args : FollowUp} {lease : Option Lease} {now : Nat}
    {db db' : E.Db} {session : SessionRow} {parent : Option TurnState} {outcome : CreateOutcome}
    {event : Option StoredSessionEvent} (held : HeldBy db (sessionLeaseScope args.sessionId) now lease)
    (foundSession : db.sessions.get? args.sessionId = some session)
    (checked : followUpParentState E db session args = .ok parent)
    (inserted : insertFollowUp E db args session parent lease now = .ok ((outcome, event), db')) :
    ∃ session' state rows snapshot, outcome = .created snapshot ∧
      FollowedUp E args lease now db db' session session' state rows snapshot := by
  obtain ⟨sessionRevision, ready, parents⟩ := followUpParentState_ok checked
  simp only [insertFollowUp, bind_ok, toI64s_ok, addOr_ok, Except.ok.injEq, Prod.mk.injEq] at inserted
  obtain ⟨state, initial, linked, insertedLink, _, ⟨rfl, _⟩, _, ⟨rfl, _⟩, carded, insertedCard,
    ⟨stored, announced⟩, insertedEvent, revision, revised, sequence, sequenced, ⟨started, logged⟩,
    insertedStart, _, _, snapshot, taken, recorded, recording, ⟨rfl, _⟩, rfl⟩ := inserted
  have revised := startedCounter_ok revised
  have sequenced := startedCounter_ok sequenced
  have linkFrame := insertLinkedTurn_frame insertedLink
  obtain ⟨freshCard, cardFrame⟩ := insertTranscript_ok insertedCard
  obtain ⟨freshLinked, _, announceFrame⟩ := insertSessionEvent_ok insertedEvent
  obtain ⟨startFrame, startedRows⟩ := insertStarted_frame insertedStart
  obtain ⟨recordedRow, recordFrame⟩ := recordCommand_ok recording
  have base : logged = { db with
      turns := linked.turns
      turnReadModel := linked.turnReadModel
      turnBaselines := linked.turnBaselines
      sessionTurns := linked.sessionTurns
      sessionActiveTurns := linked.sessionActiveTurns
      conversationOutbox := logged.conversationOutbox
      events := logged.events
      sessionEvents := logged.sessionEvents } := by
    rw [startFrame, announceFrame, cardFrame, linkFrame]
  have startEvents : announced.events = db.events := by rw [announceFrame, cardFrame, linkFrame]
  have cardLog : carded.sessionEvents = db.sessionEvents := by rw [cardFrame, linkFrame]
  have announceLog : announced.sessionEvents = db.sessionEvents.add (args.sessionId, session.lastSeq + 1)
      (sessionEventRow args.sessionId (session.revision + 1) (session.lastSeq + 1)
        (.turnLinked (linkedSummary args.turnId (parent.map TurnState.turnId) (nextOrdinal db args.sessionId)))
        now) := by
    rw [announceFrame, cardLog]
    rfl
  have linkOutbox : linked.conversationOutbox = db.conversationOutbox := by rw [linkFrame]
  have outbox : logged.conversationOutbox = carded.conversationOutbox := by rw [startFrame, announceFrame]
  rw [cardLog] at freshLinked
  rw [startEvents] at startedRows
  have child : ChildWritten db logged args.sessionId state session.latestTurnId
      (nextOrdinal db args.sessionId) lease now := by
    refine .of_inserted initial insertedLink (by rw [base]) (by rw [base]) (by rw [base]) (by rw [base]) ?_
    rcases startedRows with ⟨absent, events, _⟩ | ⟨leased, fresh, _, events, _⟩
    · exact .inl ⟨absent, events⟩
    · exact .inr ⟨leased, fresh, events⟩
  have sessionRows : ∃ rows, SessionLogged db.sessionEvents logged.sessionEvents args.sessionId session
      (movedSession session revision sequence .running args.turnId now) rows
      [followUpCard E args (session.lastSeq + 1) now] := by
    refine followUp_logged state freshLinked announceLog revised sequenced ?_
    rcases startedRows with ⟨absent, _, log⟩ | ⟨leased, _, fresh, _, log⟩
    · exact .inl ⟨absent, log⟩
    · exact .inr ⟨leased, fresh, log⟩
  obtain ⟨rows, sessionRows⟩ := sessionRows
  have sessions : logged.sessions = db.sessions := by rw [base]
  have found := sessions_modify (f := fun row => { row with
    revision := revision
    lastSeq := sequence
    lifecycle := .running
    latestTurnId := some args.turnId
    updatedAtMs := now }) foundSession
  have commands : logged.sessionCommandDedup = db.sessionCommandDedup := by rw [base]
  have outboxRows : logged.conversationOutbox.rows = db.conversationOutbox.rows ++
      [outboxRow args.sessionId (followUpCard E args (session.lastSeq + 1) now)] := by
    rw [linkOutbox] at freshCard
    rw [outbox, cardFrame, linkOutbox]
    exact Table.rows_add_fresh _ _ freshCard
  subst recordFrame
  refine ⟨_, state, rows, snapshot, rfl, held, (initialTurn_ok initial).1, foundSession, sessionRevision, ready,
    parents, ?_, ?_, ?_, sessionRows, outboxRows, insertTranscript_range insertedCard, commit_responded ?_ taken,
    ⟨?_, ?_⟩, ?_⟩
  · exact ⟨child.started, child.freshTurn, child.freshModel, child.freshLink, child.idle, child.turns,
      child.readModel, child.links, child.actives, child.events⟩
  · rw [revised, sequenced]
  · intro key
    rw [sessions]
    exact found key
  · rw [sessions, found, if_pos rfl]
    rfl
  · rw [← commands]
    exact recordedRow.fresh
  · rw [← commands]
  · rw [base]

end LatteCode.Storage
