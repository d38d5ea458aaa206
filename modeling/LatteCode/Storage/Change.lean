import LatteCode.Storage.Accepted
/- The changes that the operations make to the database. -/

namespace LatteCode.Storage
open Keyed Outcome Numbered Relation

variable {D : Type}

/-- The session row after a model switch. -/
def switchedSession (session : SessionRow) (binding : SessionProviderBinding) (now : Nat) : SessionRow :=
  { session with
    revision := session.revision + 1
    lastSeq := session.lastSeq + 1
    binding := binding
    updatedAtMs := now }

/-- A model switch of a ready session. -/
structure Switched (E : Environment) (sessionId : SessionId) (binding : SessionProviderBinding) (now : Nat)
    (db db' : E.Db) (session : SessionRow) (rows : List SessionEventRow) : Prop where
  foundSession : db.sessions.get? sessionId = some session
  ready : session.lifecycle = .ready
  idle : db.sessionActiveTurns.get? sessionId = none
  sessions : ∀ key, db'.sessions.get? key =
    if key = sessionId then some (switchedSession session binding now) else db.sessions.get? key
  logged : SessionLogged db.sessionEvents db'.sessionEvents sessionId session
    (switchedSession session binding now) rows
    [switchCard E sessionId binding now (session.revision + 1) (session.lastSeq + 1)]
  outbox : db'.conversationOutbox.rows = db.conversationOutbox.rows ++
    [outboxRow sessionId (switchCard E sessionId binding now (session.revision + 1) (session.lastSeq + 1))]
  ranged : session.lastSeq + 1 < 2 ^ 63
  frame : db' = { db with
    sessions := db'.sessions
    conversationOutbox := db'.conversationOutbox
    sessionEvents := db'.sessionEvents }

theorem switchSessionBindingV2_ok {E : Environment} {sessionId : SessionId} {binding : SessionProviderBinding}
    {now expected : Nat} {lease : Lease} {db db' : E.Db} {response : SessionCommitResponse}
    (switched : switchSessionBindingV2 E sessionId binding now db expected lease = .ok (response, db')) :
    lease.scope = sessionLeaseScope sessionId ∧
      db.authoritative (sessionLeaseScope sessionId) lease.owner lease.fencingToken now = true ∧
      ∃ session rows, Switched E sessionId binding now db db' session rows := by
  simp only [switchSessionBindingV2, bind_ok, requireLeaseScope_ok, require_ok, ensure_ok, addOr_ok,
    Except.ok.injEq, Prod.mk.injEq] at switched
  obtain ⟨_, _, _, scope, _, authority, session, found, _, _, _, ⟨ready, idle⟩, _, _, _, ⟨rfl, _⟩, _, ⟨rfl, _⟩,
    carded, insertedCard, ⟨stored, logged⟩, insertedEvent, _, _, _, rfl⟩ := switched
  obtain ⟨freshCard, cardFrame⟩ := insertTranscript_ok insertedCard
  obtain ⟨freshEvent, _, eventFrame⟩ := insertSessionEvent_ok insertedEvent
  have cardLog : carded.sessionEvents = db.sessionEvents := by rw [cardFrame]
  rw [cardLog] at freshEvent
  have base : logged = { db with
      conversationOutbox := logged.conversationOutbox
      sessionEvents := logged.sessionEvents } := by
    rw [eventFrame, cardFrame]
  have sessions : logged.sessions = db.sessions := by rw [base]
  have rows : ∃ rows, SessionLogged db.sessionEvents logged.sessionEvents sessionId session
      (switchedSession session binding now) rows
      [switchCard E sessionId binding now (session.revision + 1) (session.lastSeq + 1)] := by
    rw [eventFrame, cardLog]
    exact ⟨_, .one freshEvent rfl rfl (.inr ⟨_, rfl, rfl, rfl⟩)⟩
  obtain ⟨rows, sessionRows⟩ := rows
  refine ⟨scope, requireAuthority_ok authority, session, rows, found, ready, idle, ?_, sessionRows, ?_,
    insertTranscript_range insertedCard, ?_⟩
  · intro key
    rw [sessions]
    exact sessions_modify found key
  · rw [base, eventFrame, cardFrame]
    exact Table.rows_add_fresh _ _ freshCard
  · rw [base]

/-- A fork: a ready session with the copied history, and no child. -/
structure Forked (E : Environment) (sourceSessionId forkSessionId : SessionId) (history : List TranscriptEntry)
    (title : Option String) (now : Nat) (db db' : E.Db) (source : SessionRow) : Prop where
  foundSource : db.sessions.get? sourceSessionId = some source
  freshSession : db.sessions.get? forkSessionId = none
  positive : ∀ entry ∈ history, 0 < entry.sequence
  climbing : history.Pairwise fun first second => first.sequence < second.sequence
  sessions : ∀ key, db'.sessions.get? key = if key = forkSessionId then
    some (forkedSession E sourceSessionId source history title now) else db.sessions.get? key
  outbox : db'.conversationOutbox.rows = db.conversationOutbox.rows ++
    history.map fun entry => outboxRow forkSessionId (forkEntry E sourceSessionId forkSessionId entry)
  ranged : ∀ entry ∈ history, entry.sequence < 2 ^ 63
  frame : db' = { db with sessions := db'.sessions, conversationOutbox := db'.conversationOutbox }

theorem copyForkEntries_ok {E : Environment} {sourceSessionId forkSessionId : SessionId}
    {history : List TranscriptEntry} {previous last : Nat} {db db' : E.Db}
    (folded : history.foldlM (copyForkEntry E sourceSessionId forkSessionId) (previous, db) = .ok (last, db')) :
    (∀ entry ∈ history, previous < entry.sequence) ∧
      history.Pairwise (fun first second => first.sequence < second.sequence) ∧
      db'.conversationOutbox.rows = db.conversationOutbox.rows ++
        history.map (fun entry => outboxRow forkSessionId (forkEntry E sourceSessionId forkSessionId entry)) ∧
      (∀ entry ∈ history, entry.sequence < 2 ^ 63) ∧
      db' = { db with conversationOutbox := db'.conversationOutbox } := by
  induction history generalizing previous db with
  | nil =>
      simp only [List.foldlM_nil, pure_ok, Prod.mk.injEq] at folded
      obtain ⟨rfl, rfl⟩ := folded
      exact ⟨List.forall_mem_nil _, .nil, (List.append_nil _).symm, List.forall_mem_nil _, rfl⟩
  | cons source history ih =>
      simp only [List.foldlM_cons, bind_ok] at folded
      obtain ⟨⟨place, copied⟩, one, rest⟩ := folded
      simp only [copyForkEntry, bind_ok, ensure_ok, Except.ok.injEq, Prod.mk.injEq] at one
      obtain ⟨_, order, _, inserted, rfl, rfl⟩ := one
      obtain ⟨fresh, frameOne⟩ := insertTranscript_ok inserted
      obtain ⟨later, climbing, outbox, ranged, frame⟩ := ih rest
      have range := insertTranscript_range inserted
      refine ⟨?_, List.pairwise_cons.mpr ⟨later, climbing⟩, ?_, List.forall_mem_cons.mpr ⟨range, ranged⟩, ?_⟩
      · intro entry member
        rcases List.mem_cons.mp member with rfl | member
        · exact order
        · exact Nat.lt_trans order (later entry member)
      · rw [outbox, frameOne, Table.rows_add_fresh _ _ fresh, List.append_assoc]
        rfl
      · rw [frame, frameOne]

theorem createSessionFork_ok {E : Environment} {sourceSessionId forkSessionId : SessionId}
    {history : List TranscriptEntry} {title : Option String} {now : Nat} {db db' : E.Db} {u : Unit}
    (forked : createSessionFork E sourceSessionId forkSessionId db history title now = .ok (u, db')) :
    ∃ source, Forked E sourceSessionId forkSessionId history title now db db' source := by
  simp only [createSessionFork, bind_ok, require_ok, toI64s_ok, unique_ok, Except.ok.injEq,
    Prod.mk.injEq] at forked
  obtain ⟨source, found, _, _, _, fresh, ⟨last, copied⟩, folded, _, rfl⟩ := forked
  obtain ⟨positive, climbing, outbox, ranged, frame⟩ := copyForkEntries_ok folded
  refine ⟨source, found, fresh, positive, climbing, ?_, outbox, ranged, ?_⟩
  · intro key
    rw [frame]
    exact Table.get?_add_fresh _ _ fresh key
  · rw [frame]

/-- The lease tables after an acquisition; a `runtime` one also adopts direct v1 turns. -/
structure Acquired (scope : LeaseScope) (owner : String) (now : Nat) (db db' : Database D) (lease : Lease) :
    Prop where
  inScope : lease.scope = scope
  owned : lease.owner = owner
  tokened : (∃ row, db.runtimeLease.get? scope = some row ∧ row.expiresAtMs > now ∧ row.owner = owner ∧
      lease.fencingToken = row.fencingToken ∧ db'.lastToken = db.lastToken) ∨
    ((∀ row, db.runtimeLease.get? scope = some row → ¬ row.expiresAtMs > now) ∧
      lease.fencingToken = db.lastToken + 1 ∧ db'.lastToken = db.lastToken + 1)
  leases : db'.runtimeLease = db.runtimeLease.put scope ⟨owner, lease.fencingToken, lease.expiresAtMs⟩
  turns : ∃ adopted : TurnId → TurnRow → Bool,
    (∀ key row, adopted key row = true → db.sessionTurns.get? key = none) ∧
    ∀ key, db'.turns.get? key = (db.turns.get? key).map fun row =>
      if adopted key row then { row with leaseToken := lease.fencingToken } else row
  frame : db' = { db with
    lastToken := db'.lastToken
    runtimeLease := db'.runtimeLease
    turns := db'.turns }

theorem leaseToken_ok {db db' : Database D} {scope : LeaseScope} {owner : String} {now token : Nat}
    (chosen : leaseToken db scope owner now = .ok (token, db')) :
    db' = { db with lastToken := db'.lastToken } ∧
      ((∃ row, db.runtimeLease.get? scope = some row ∧ row.expiresAtMs > now ∧ row.owner = owner ∧
          token = row.fencingToken ∧ db'.lastToken = db.lastToken) ∨
        ((∀ row, db.runtimeLease.get? scope = some row → ¬ row.expiresAtMs > now) ∧
          token = db.lastToken + 1 ∧ db'.lastToken = db.lastToken + 1)) := by
  have mint : leaseToken.mint db = .ok (token, db') →
      db' = { db with lastToken := db'.lastToken } ∧ token = db.lastToken + 1 ∧
        db'.lastToken = db.lastToken + 1 := by
    intro minted
    simp only [leaseToken.mint, bind_ok, addOr_ok, toI64s_ok, Except.ok.injEq, Prod.mk.injEq] at minted
    obtain ⟨_, ⟨rfl, _⟩, _, _, rfl, rfl⟩ := minted
    exact ⟨rfl, rfl, rfl⟩
  unfold leaseToken at chosen
  split at chosen
  case h_1 row found =>
    split at chosen
    case isTrue extension =>
      simp only [Except.ok.injEq, Prod.mk.injEq] at chosen
      obtain ⟨rfl, rfl⟩ := chosen
      exact ⟨rfl, .inl ⟨row, found, extension.1, extension.2, rfl, rfl⟩⟩
    case isFalse =>
      split at chosen
      case isTrue => cases chosen
      case isFalse expired =>
        obtain ⟨frame, minted⟩ := mint chosen
        refine ⟨frame, .inr ⟨?_, minted⟩⟩
        intro other held
        rw [found, Option.some.injEq] at held
        exact held ▸ expired
  case h_2 absent =>
    obtain ⟨frame, minted⟩ := mint chosen
    refine ⟨frame, .inr ⟨?_, minted⟩⟩
    intro row held
    rw [absent] at held
    cases held

/-- Adoption re-tokens direct v1 turns only. -/
theorem adoptLegacyTurns_ok {db db' : Database D} {turnId : Option TurnId} {token : Nat}
    (adopts : adoptLegacyTurns db turnId token = .ok db') :
    db' = { db with turns := db'.turns } ∧ ∃ adopted : TurnId → TurnRow → Bool,
      (∀ key row, adopted key row = true → db.sessionTurns.get? key = none) ∧
      ∀ key, db'.turns.get? key = (db.turns.get? key).map fun row =>
        if adopted key row then { row with leaseToken := token } else row := by
  cases turnId with
  | some turnId =>
      simp only [adoptLegacyTurns, bind_ok, ensure_ok, Except.ok.injEq] at adopts
      obtain ⟨_, _, _, unlinked, rfl⟩ := adopts
      refine ⟨rfl, fun key _ => decide (key = turnId), ?_, ?_⟩
      · intro key row named
        rw [of_decide_eq_true named]
        exact Option.not_isSome_iff_eq_none.mp (Bool.eq_false_iff.mp unlinked)
      · intro key
        rw [Table.get?_modify]
        by_cases here : key = turnId <;> simp [here]
  | none =>
      simp only [adoptLegacyTurns, Except.ok.injEq] at adopts
      subst adopts
      refine ⟨rfl, fun key row => row.status = .queued && !linked db key, ?_, ?_⟩
      · intro key row named
        simp only [Bool.and_eq_true, Bool.not_eq_true', linked] at named
        exact Option.not_isSome_iff_eq_none.mp (Bool.eq_false_iff.mp named.2)
      · intro key
        exact Table.get?_mapRows _ _ _

theorem acquireScopedLease_ok {db db' : Database D} {scope : LeaseScope} {owner : String}
    {turnId : Option TurnId} {now ttl : Nat} {lease : Lease}
    (acquired : acquireScopedLease db scope owner turnId now ttl = .ok (lease, db')) :
    Acquired scope owner now db db' lease := by
  simp only [acquireScopedLease, bind_ok, addOr_ok, toI64s_ok, unique_ok, Except.ok.injEq,
    Prod.mk.injEq] at acquired
  obtain ⟨⟨token, minted⟩, chosen, expires, _, _, _, _, _, adopted, adopts, rfl, rfl⟩ := acquired
  obtain ⟨frame, tokened⟩ := leaseToken_ok chosen
  unfold adoptTurns at adopts
  split at adopts
  case isTrue runtime =>
    obtain ⟨turnFrame, choice, legacy, turns⟩ := adoptLegacyTurns_ok adopts
    refine ⟨rfl, rfl, ?_, ?_, ⟨choice, ?_, ?_⟩, ?_⟩
    · rw [turnFrame]
      exact tokened
    · rw [turnFrame, frame]
    · intro key row named
      have unlinked := legacy key row named
      rw [frame] at unlinked
      exact unlinked
    · intro key
      rw [turns, frame]
    · rw [turnFrame, frame]
  case isFalse =>
    simp only [Except.ok.injEq] at adopts
    subst adopts
    refine ⟨rfl, rfl, tokened, ?_, ⟨fun _ _ => false, ?_, ?_⟩, ?_⟩
    · rw [frame]
    · intro key row impossible
      cases impossible
    · intro key
      rw [frame]
      simp
    · rw [frame]

/-- A direct v1 turn that recovery interrupts. -/
structure Retired (turnId : TurnId) (state : TurnState) (sequence now : Nat) (db db' : Database D) : Prop where
  present : (db.turns.get? turnId).isSome = true
  unlinked : db.sessionTurns.get? turnId = none
  named : state.turnId = turnId
  interrupted : state.status = .interrupted
  fresh : db.events.get? (turnId, sequence) = none
  result : db' = { db with
    events := db.events.add (turnId, sequence) ⟨state.revision,
      ⟨PROTOCOL_VERSION, state.turnId, state.revision, .stateChanged .interrupted⟩, now⟩
    turns := db.turns.modify turnId fun row =>
      { row with state := state, status := .interrupted, revision := state.revision, lastSeq := sequence }
    turnReadModel := db.turnReadModel.modify turnId fun _ => ⟨state.revision, sequence, state⟩
    effects := db.effects.mapRows fun _ row =>
      if row.turnId = turnId && row.status = .started then { row with status := .unknown } else row }

theorem interruptLegacyTurn_ok {db db' : Database D} {now : Nat} {stale : TurnId × TurnRow}
    (present : (db.turns.get? stale.1).isSome = true)
    (unlinked : db.sessionTurns.get? stale.1 = none) (named : stale.2.state.turnId = stale.1)
    (interrupted : interruptLegacyTurn db now stale = .ok db') :
    ∃ state sequence, Retired stale.1 state sequence now db db' := by
  simp only [interruptLegacyTurn, bind_ok, addOr_ok, toI64s_ok, unique_ok, Except.ok.injEq] at interrupted
  obtain ⟨_, ⟨rfl, _⟩, _, ⟨rfl, _⟩, _, _, _, fresh, rfl⟩ := interrupted
  exact ⟨{ stale.2.state with status := .interrupted, revision := stale.2.state.revision + 1 }, _,
    present, unlinked, named, rfl, fresh, rfl⟩

/-- A clean release: the waiting child keeps its rows under the token zero. -/
structure Quiesced (sessionId : SessionId) (turnId : TurnId) (token : Nat) (turn : TurnRow)
    (db db' : Database D) : Prop where
  active : db.sessionActiveTurns.get? sessionId = some ⟨turnId, token⟩
  foundTurn : db.turns.get? turnId = some turn
  turnToken : turn.leaseToken = token
  waiting : turn.status = .waitingPermission ∨ turn.status = .waitingInput
  result : db' = { db with
    turns := db.turns.modify turnId fun row => { row with leaseToken := 0 }
    sessionActiveTurns := db.sessionActiveTurns.modify sessionId fun row => { row with leaseToken := 0 } }

theorem quiescible_eq_some {db : Database D} {sessionId : SessionId} {turnId : TurnId} {token : Nat}
    (quiet : quiescible db sessionId token = some turnId) :
    db.sessionActiveTurns.get? sessionId = some ⟨turnId, token⟩ ∧ ∃ turn,
      db.turns.get? turnId = some turn ∧ turn.leaseToken = token ∧
        (turn.status = .waitingPermission ∨ turn.status = .waitingInput) := by
  simp only [quiescible, Option.bind_eq_some_iff] at quiet
  obtain ⟨active, held, chosen⟩ := quiet
  split at chosen
  case isTrue facts =>
    cases chosen
    obtain ⟨rfl, waits⟩ := facts
    obtain ⟨turn, found, waiting⟩ := (Table.holds_iff _ _ _).mp waits
    simp only [Bool.and_eq_true, Bool.or_eq_true, decide_eq_true_eq] at waiting
    exact ⟨held, turn, found, waiting.1, waiting.2⟩
  case isFalse => cases chosen

/-- A change of the database by anything but a fresh commit. -/
inductive Uncommitted (E : Environment) (db db' : E.Db) : Prop
  | created {args : CreateSession} {lease : Option Lease} {now : Nat} {state : TurnState}
      {rows : List SessionEventRow} {snapshot : SessionSnapshot}
      (done : Created E args lease now db db' state rows snapshot)
  | followedUp {args : FollowUp} {lease : Option Lease} {now : Nat} {session session' : SessionRow}
      {state : TurnState} {rows : List SessionEventRow} {snapshot : SessionSnapshot}
      (done : FollowedUp E args lease now db db' session session' state rows snapshot)
  | switched {sessionId : SessionId} {binding : SessionProviderBinding} {now : Nat} {session : SessionRow}
      {rows : List SessionEventRow} (done : Switched E sessionId binding now db db' session rows)
  | forked {source fork : SessionId} {history : List TranscriptEntry} {title : Option String} {now : Nat}
      {row : SessionRow} (done : Forked E source fork history title now db db' row)
  | interrupted {sessionId : SessionId} {turnId : TurnId} {token now : Nat} {session session' : SessionRow}
      {turn row : TurnRow} {rows : List SessionEventRow} {cards : List TranscriptEntry}
      (done : Interrupted sessionId turnId token now db db' session session' turn row rows cards)
  | retired {turnId : TurnId} {state : TurnState} {sequence now : Nat}
      (done : Retired turnId state sequence now db db')
  | acquired {scope : LeaseScope} {owner : String} {now : Nat} {lease : Lease}
      (done : Acquired scope owner now db db' lease)
  | renewed (scope : LeaseScope) (expires : Nat) (done : db' = { db with
      runtimeLease := db.runtimeLease.modify scope fun row => { row with expiresAtMs := expires } })
  | quiesced {sessionId : SessionId} {turnId : TurnId} {token : Nat} {turn : TurnRow}
      (done : Quiesced sessionId turnId token turn db db')
  | released (freed : LeaseScope → LeaseRow → Bool)
      (done : db' = { db with runtimeLease := db.runtimeLease.deleteWhere freed })
  | renamed (sessionId : SessionId) (title : String) (done : db' = { db with
      sessions := db.sessions.modify sessionId fun row => { row with title := title } })
  | acknowledged (drained : SessionId × Nat → OutboxRow → Bool)
      (done : db' = { db with conversationOutbox := db.conversationOutbox.deleteWhere drained })
  | evidenced (evidence : Table String EvidenceRow) (done : db' = { db with evidence := evidence })
  | runCreated (state : TurnState) (now : Nat) (baselines : Table TurnId (List (String × String)))
      (fresh : db.turns.get? state.turnId = none) (freshModel : db.turnReadModel.get? state.turnId = none)
      (done : db' = { db with
        turns := db.turns.add state.turnId ⟨state, state.status, state.revision, 0, 0, 0, now, now⟩
        turnReadModel := db.turnReadModel.add state.turnId ⟨state.revision, 0, state⟩
        turnBaselines := baselines })
  | aliased (request : SessionCommitRequest) (now : Nat) (source : CommitSourceRow E.Digest)
      (found : db.sessionCommitSources.get? (request.sessionId, request.update.sourceKey) = some source)
      (same : source.digest = sessionCommandDigest E request)
      (fresh : db.sessionCommandDedup.get? request.commandId = none)
      (done : db' = { db with
        sessionCommandDedup := db.sessionCommandDedup.add request.commandId
          ⟨sessionCommandDigest E request, .response source.response, now⟩ })

/-- The columns of every `turns` row still repeat its state when one row is rewritten consistently. -/
theorem Mirrored.written {db db' : Database D} {turn row : TurnRow} {states : List TurnState} {now : Nat}
    (mirrored : Mirrored db) (written : TurnWritten db db' turn row states now) : Mirrored db' := by
  have each : ∀ key found, db'.turns.get? key = some found →
      found.state.turnId = key ∧ found.status = found.state.status ∧ found.revision = found.state.revision := by
    intro key found held
    rw [written.turns] at held
    split at held
    case isTrue here =>
      cases held
      exact ⟨written.path.turnId.trans here.symm, written.status, written.revision⟩
    case isFalse =>
      exact ⟨mirrored.turnId _ _ held, mirrored.status _ _ held, mirrored.revision _ _ held⟩
  exact ⟨fun key row held => (each key row held).1, fun key row held => (each key row held).2.1,
    fun key row held => (each key row held).2.2⟩

/-- Rows that keep their state and its columns keep mirroring it. -/
theorem Mirrored.of_rows {db db' : Database D} (mirrored : Mirrored db)
    (rows : ∀ key row', db'.turns.get? key = some row' → (∃ row, db.turns.get? key = some row ∧
        row'.state = row.state ∧ row'.status = row.status ∧ row'.revision = row.revision) ∨
      (row'.state.turnId = key ∧ row'.status = row'.state.status ∧ row'.revision = row'.state.revision)) :
    Mirrored db' := by
  refine ⟨?_, ?_, ?_⟩
  · intro key row' held
    rcases rows key row' held with ⟨row, found, state, _, _⟩ | facts
    · rw [state]
      exact mirrored.turnId _ _ found
    · exact facts.1
  · intro key row' held
    rcases rows key row' held with ⟨row, found, state, status, _⟩ | facts
    · rw [state, status]
      exact mirrored.status _ _ found
    · exact facts.2.1
  · intro key row' held
    rcases rows key row' held with ⟨row, found, state, _, revision⟩ | facts
    · rw [state, revision]
      exact mirrored.revision _ _ found
    · exact facts.2.2

theorem Mirrored.child {db db' : Database D} {sessionId : SessionId} {state : TurnState}
    {parent : Option TurnId} {ordinal now : Nat} {lease : Option Lease} (mirrored : Mirrored db)
    (child : ChildWritten db db' sessionId state parent ordinal lease now) : Mirrored db' := by
  refine mirrored.of_rows ?_
  intro key row' held
  rw [child.turns] at held
  split at held
  case isTrue here =>
    cases held
    exact .inr ⟨here.symm, rfl, rfl⟩
  case isFalse => exact .inl ⟨row', held, rfl, rfl, rfl⟩

theorem Uncommitted.mirrored {E : Environment} {db db' : E.Db} (change : Uncommitted E db db')
    (mirrored : Mirrored db) : Mirrored db' := by
  cases change with
  | created done => exact mirrored.child done.child
  | followedUp done => exact mirrored.child done.child
  | switched done =>
      rw [done.frame]
      exact ⟨mirrored.turnId, mirrored.status, mirrored.revision⟩
  | forked done =>
      rw [done.frame]
      exact ⟨mirrored.turnId, mirrored.status, mirrored.revision⟩
  | interrupted done => exact mirrored.written done.written
  | retired done =>
      refine mirrored.of_rows ?_
      intro key row' held
      rw [done.result] at held
      simp only [Table.get?_modify] at held
      split at held
      case isTrue here =>
        obtain ⟨row, _, rfl⟩ := Option.map_eq_some_iff.mp held
        exact .inr ⟨done.named.trans here.symm, done.interrupted.symm, rfl⟩
      case isFalse => exact .inl ⟨row', held, rfl, rfl, rfl⟩
  | acquired done =>
      obtain ⟨adopted, _, turns⟩ := done.turns
      refine mirrored.of_rows ?_
      intro key row' held
      rw [turns] at held
      obtain ⟨row, found, rfl⟩ := Option.map_eq_some_iff.mp held
      refine .inl ⟨row, found, ?_⟩
      split <;> exact ⟨rfl, rfl, rfl⟩
  | quiesced done =>
      refine mirrored.of_rows ?_
      intro key row' held
      rw [done.result] at held
      simp only [Table.get?_modify] at held
      split at held
      case isTrue =>
        obtain ⟨row, found, rfl⟩ := Option.map_eq_some_iff.mp held
        exact .inl ⟨row, found, rfl, rfl, rfl⟩
      case isFalse => exact .inl ⟨row', held, rfl, rfl, rfl⟩
  | runCreated state now baselines fresh _ done =>
      subst done
      refine mirrored.of_rows ?_
      intro key row' held
      simp only [Table.get?_add_fresh _ _ fresh] at held
      split at held
      case isTrue here =>
        cases held
        exact .inr ⟨here.symm, rfl, rfl⟩
      case isFalse => exact .inl ⟨row', held, rfl, rfl, rfl⟩
  | renewed _ _ done | released _ done | renamed _ _ done | acknowledged _ done | evidenced _ done
  | aliased _ _ _ _ _ _ done =>
      subst done
      exact ⟨mirrored.turnId, mirrored.status, mirrored.revision⟩

end LatteCode.Storage
