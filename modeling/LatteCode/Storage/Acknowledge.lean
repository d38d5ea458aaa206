import LatteCode.Storage.Reconcile
import LatteCode.Storage.SessionLog
/- An unknown effect can always be acknowledged: the call passes every fence and every constraint. -/

namespace LatteCode.Storage
open Keyed Outcome Numbered Relation Runs

variable {E : Environment} {db middle db' : E.Db} {effectId : String}

/-! ## What an acknowledgement meets -/

/-- Every effect carries an id that the validation accepts. -/
def EffectNames (db : E.Db) : Prop :=
  ∀ effectId row, db.effects.get? effectId = some row → validateSessionEffectId effectId = .ok ()

theorem EffectNames.change (held : EffectNames db) (change : Change E db db') : EffectNames db' := by
  intro effectId row' found
  cases change with
  | committed done =>
      cases done.effect effectId with
      | moved same =>
          rw [found, Option.map_some] at same
          obtain ⟨row, before, _⟩ := Option.map_eq_some_iff.mp same.symm
          exact held effectId row before
      | prepared prepares =>
          have applied := done.applied
          rw [prepares] at applied
          simp only [applyUpdate, applyPrepareEffect, bind_ok] at applied
          obtain ⟨_, valid, _⟩ := applied
          exact valid
  | other done =>
      cases before : db.effects.get? effectId with
      | none =>
          rw [done.effect_absent effectId before] at found
          cases found
      | some row => exact held effectId row before

theorem Reachable.effectNames (reached : Reachable E db) : EffectNames db := by
  refine reached.invariant ?_ fun _ _ _ held change => held.change change
  intro effectId row impossible
  cases impossible

/-- Every outbox row stands at or below the sequence of its session. -/
def OutboxBelow (db : E.Db) : Prop :=
  ∀ key row, (key, row) ∈ db.conversationOutbox.rows →
    ∃ session, db.sessions.get? key.1 = some session ∧ key.2 ≤ session.lastSeq

theorem OutboxBelow.same (held : OutboxBelow db)
    (outbox : ∀ row ∈ db'.conversationOutbox.rows, row ∈ db.conversationOutbox.rows)
    (sessions : ∀ key, (db'.sessions.get? key).map SessionRow.lastSeq =
      (db.sessions.get? key).map SessionRow.lastSeq) : OutboxBelow db' := by
  intro key row member
  obtain ⟨session, found, below⟩ := held key row (outbox _ member)
  obtain ⟨session', found', same⟩ := map_eq_some_of (sessions key.1) found
  exact ⟨session', found', same.symm ▸ below⟩

/-- One session gains cards, all within its new sequence. -/
theorem OutboxBelow.grown {owner : SessionId} {session' : SessionRow} {cards : List TranscriptEntry}
    (held : OutboxBelow db)
    (sessions : ∀ key, db'.sessions.get? key = if key = owner then some session' else db.sessions.get? key)
    (climbs : ∀ session, db.sessions.get? owner = some session → session.lastSeq ≤ session'.lastSeq)
    (outbox : db'.conversationOutbox.rows = db.conversationOutbox.rows ++ cards.map (outboxRow owner))
    (below : ∀ card ∈ cards, card.sequence ≤ session'.lastSeq) : OutboxBelow db' := by
  intro key row member
  rw [outbox, List.mem_append] at member
  rcases member with old | new
  · obtain ⟨session, found, within⟩ := held key row old
    by_cases mine : key.1 = owner
    · rw [sessions, if_pos mine]
      exact ⟨session', rfl, Nat.le_trans within (climbs session (mine ▸ found))⟩
    · rw [sessions, if_neg mine]
      exact ⟨session, found, within⟩
  · obtain ⟨card, present, same⟩ := List.mem_map.mp new
    simp only [outboxRow, Prod.mk.injEq] at same
    rw [← same.1, sessions, if_pos rfl]
    exact ⟨session', rfl, below card present⟩

/-- A stretch of the log stays within the sequence it ends at. -/
theorem LogMoved.below {log log' : Nat → Option SessionEventRow} {session session' : SessionRow}
    {rows : List SessionEventRow} {cards : List TranscriptEntry}
    (done : LogMoved log log' session session' rows cards) (card : TranscriptEntry) (member : card ∈ cards) :
    card.sequence ≤ session'.lastSeq := by
  obtain ⟨i, bound, place, _⟩ := done.announced card member
  rw [place, done.lastSeq]
  omega

theorem OutboxBelow.moved {owner : SessionId} {session session' : SessionRow} {rows : List SessionEventRow}
    {cards : List TranscriptEntry} (held : OutboxBelow db) (found : db.sessions.get? owner = some session)
    (sessions : ∀ key, db'.sessions.get? key = if key = owner then some session' else db.sessions.get? key)
    (logged : SessionLogged db.sessionEvents db'.sessionEvents owner session session' rows cards)
    (outbox : db'.conversationOutbox.rows = db.conversationOutbox.rows ++ cards.map (outboxRow owner)) :
    OutboxBelow db' := by
  refine held.grown sessions ?_ outbox logged.moved.below
  intro other present
  rw [found, Option.some.injEq] at present
  rw [← present, logged.moved.lastSeq]
  exact Nat.le_add_right _ _

theorem climbing_last {history : List TranscriptEntry} {entry : TranscriptEntry}
    (climbing : history.Pairwise fun first second => first.sequence < second.sequence) (member : entry ∈ history) :
    entry.sequence ≤ (history.getLast?.map TranscriptEntry.sequence).getD 0 := by
  have some_ := List.ne_nil_of_mem member
  rw [List.getLast?_eq_some_getLast some_, Option.map_some, Option.getD_some]
  rw [← List.dropLast_append_getLast some_] at climbing member
  rcases List.mem_append.mp member with earlier | last
  · exact Nat.le_of_lt ((List.pairwise_append.mp climbing).2.2 _ earlier _ (List.mem_singleton.mpr rfl))
  · rw [List.mem_singleton.mp last]

theorem OutboxBelow.change (held : OutboxBelow db) (change : Change E db db') : OutboxBelow db' := by
  cases change with
  | committed done =>
      obtain ⟨_, logged⟩ := done.logged
      exact held.moved done.admitted.foundSession done.sessions logged done.outbox
  | other done =>
      cases done with
      | created done =>
          have outbox := done.outbox
          rw [← List.map_singleton (f := outboxRow _)] at outbox
          refine held.grown done.sessions ?_ outbox ?_
          · intro session found
            rw [done.freshSession] at found
            cases found
          · intro card member
            rw [List.mem_singleton.mp member]
            simp only [createCard, createdSession]
            split <;> omega
      | followedUp done => exact held.moved done.foundSession done.sessions done.logged done.outbox
      | switched done => exact held.moved done.foundSession done.sessions done.logged done.outbox
      | interrupted done => exact held.moved done.foundSession done.sessions done.logged done.outbox
      | forked done =>
          have outbox := done.outbox
          rw [← Function.comp_def (outboxRow _), ← List.map_map] at outbox
          refine held.grown done.sessions ?_ outbox ?_
          · intro session found
            rw [done.freshSession] at found
            cases found
          · intro card member
            obtain ⟨entry, present, rfl⟩ := List.mem_map.mp member
            change entry.sequence ≤ _
            exact climbing_last done.climbing present
      | retired done | quiesced done =>
          rw [done.result]
          exact held
      | acquired done =>
          rw [done.frame]
          exact held
      | renamed sessionId title done =>
          subst done
          refine held.same (fun _ member => member) ?_
          intro key
          simp only [Table.get?_modify]
          split
          · rw [Option.map_map]
            rfl
          · rfl
      | acknowledged drained done =>
          subst done
          exact held.same (fun _ member => List.mem_of_mem_filter member) fun _ => rfl
      | renewed _ _ done | released _ done | evidenced _ done | aliased _ _ _ _ _ _ done
      | runCreated _ _ _ _ _ done =>
          subst done
          exact held

theorem Reachable.outboxBelow (reached : Reachable E db) : OutboxBelow db := by
  refine reached.invariant ?_ fun _ _ _ held change => held.change change
  intro key row impossible
  cases impossible

/-! ## A commit that meets no constraint -/

section Accepting

variable {request : SessionCommitRequest} {lease : Lease} {now : Nat} {mid : E.Db} {session : SessionRow}
  {turn : TurnRow} {draft : Draft} {card : Card}

/-- Live authority keeps its token and its clock in the range of the database. -/
theorem requireAuthority_range {D : Type} {db : Database D} {scope : LeaseScope} {u : Unit}
    (live : requireAuthority db scope now lease = .ok u) : lease.fencingToken < 2 ^ 63 ∧ now < 2 ^ 63 := by
  simp only [requireAuthority, bind_ok, toI64s_ok] at live
  obtain ⟨_, bounds, _⟩ := live
  exact ⟨bounds _ (by simp), bounds _ (by simp)⟩

/-- The next state of a turn is written when its event is new and its numbers are in range. -/
theorem appendLinkedTurnTransition_accepts {D : Type} {db : Database D} {current next : TurnState}
    {lastSeq token : Nat} (forward : next.revision = current.revision + 1)
    (fresh : db.events.get? (next.turnId, lastSeq + 1) = none) (seq : lastSeq + 1 < 2 ^ 63)
    (revision : next.revision < 2 ^ 63) (tokened : token < 2 ^ 63) (clock : now < 2 ^ 63) :
    ∃ db', appendLinkedTurnTransition db current next lastSeq token now = .ok db' ∧ TurnFrame db db' := by
  have single : linkedTurnStates current next = .ok [next] := by
    rw [linkedTurnStates, if_neg]
    rintro ⟨two, _⟩
    omega
  have written : insertTurnEvent db next (lastSeq + 1) now = .ok { db with
      events := db.events.add (next.turnId, lastSeq + 1) ⟨next.revision, turnEventEnvelope next, now⟩ } := by
    simp only [insertTurnEvent, bind_ok, toI64s_ok, unique_ok]
    refine ⟨(), ?_, (), fresh, trivial⟩
    simp only [List.forall_mem_cons]
    exact ⟨seq, revision, clock, List.forall_mem_nil _⟩
  have wrote : ∃ db', writeTurnState db next (lastSeq + 1) token now = .ok db' ∧ TurnFrame db db' := by
    simp only [writeTurnState, bind_ok, written, toI64s_ok, Except.ok.injEq]
    exact ⟨_, ⟨_, rfl, (), fun _ asked => List.mem_singleton.mp asked ▸ tokened, rfl⟩, rfl⟩
  obtain ⟨db', wrote, frame⟩ := wrote
  refine ⟨db', ?_, frame⟩
  simp only [appendLinkedTurnTransition, bind_ok, ensure_ok, single, Except.ok.injEq]
  refine ⟨(), by omega, [next], rfl, ⟨db', lastSeq + 1⟩, ?_, rfl⟩
  simp only [List.foldlM_cons, List.foldlM_nil, bind_ok, addOr_ok, pure_ok, Except.ok.injEq]
  exact ⟨(db', lastSeq + 1), ⟨lastSeq + 1, ⟨rfl, by omega⟩, db', wrote, rfl⟩, rfl⟩

theorem insertTranscript_accepts {D : Type} {db : Database D} {sessionId : SessionId} {entry : TranscriptEntry}
    (range : entry.sequence < 2 ^ 63 ∧ entry.createdAtMs < 2 ^ 63)
    (fresh : db.conversationOutbox.get? (sessionId, entry.sequence) = none)
    (freshKey : db.conversationOutbox.anyRow (fun key row =>
      key.1 = sessionId && row.sourceKey = entry.sourceKey) = false) :
    insertTranscript db sessionId entry = .ok { db with
      conversationOutbox := db.conversationOutbox.add (sessionId, entry.sequence)
        ⟨entry.turnId, entry.kind, entry.sourceKey, entry, entry.createdAtMs⟩ } := by
  simp only [insertTranscript, bind_ok, toI64s_ok, unique_ok]
  exact ⟨(), by simpa using range, (), fresh, (), by simp [freshKey], trivial⟩

theorem insertSessionEvent_accepts {D : Type} {db : Database D} {sessionId : SessionId} {revision sequence : Nat}
    (event : SessionEvent) (range : sequence < 2 ^ 63 ∧ revision < 2 ^ 63 ∧ now < 2 ^ 63)
    (fresh : db.sessionEvents.get? (sessionId, sequence) = none) :
    ∃ stored db', insertSessionEvent db sessionId revision sequence event now = .ok (stored, db') ∧
      db' = { db with sessionEvents := db'.sessionEvents } := by
  simp only [insertSessionEvent, bind_ok, toI64s_ok, unique_ok, Except.ok.injEq, Prod.mk.injEq]
  exact ⟨_, _, ⟨(), by simpa using range, (), fresh, rfl, rfl⟩, rfl⟩

theorem currentSessionSnapshot_accepts {db : E.Db} {sessionId : SessionId} (limit : Nat)
    (found : db.sessions.get? sessionId = some session) :
    ∃ snapshot, currentSessionSnapshot E db sessionId limit = .ok snapshot := by
  simp only [currentSessionSnapshot, sessionSnapshot, bind_ok, require_ok, toI64s_ok]
  exact ⟨_, _, ⟨session, found, (), by simp, rfl⟩, rfl⟩

/-- The tail of a terminal commit that moves its turn by one revision, when nothing it inserts is there yet. -/
theorem writeCommit_accepts (changed : draft.turnChanged = true) (closed : draft.terminal = true)
    (carded : draft.card = some card) (forward : draft.next.revision = turn.state.revision + 1)
    (live : requireAuthority mid (sessionLeaseScope request.sessionId) now lease = .ok ())
    (found : mid.sessions.get? request.sessionId = some session)
    (freshTurn : mid.events.get? (draft.next.turnId, turn.lastSeq + 1) = none)
    (freshEntry : mid.conversationOutbox.get? (request.sessionId, session.lastSeq + 1) = none)
    (freshCard : mid.conversationOutbox.anyRow (fun key row =>
      key.1 = request.sessionId && row.sourceKey = card.sourceKey) = false)
    (freshEvent : mid.sessionEvents.get? (request.sessionId, session.lastSeq + 1) = none)
    (freshCommand : mid.sessionCommandDedup.get? request.commandId = none)
    (freshSource : mid.sessionCommitSources.get? (request.sessionId, request.update.sourceKey) = none)
    (range : session.revision + 1 < 2 ^ 63 ∧ session.lastSeq + 1 < 2 ^ 63 ∧ turn.lastSeq + 1 < 2 ^ 63 ∧
      draft.next.revision < 2 ^ 63) :
    ∃ response db', writeCommit E request lease now mid session turn draft = .ok (response, db') := by
  obtain ⟨sessionRevision, sequence, turnSeq, turnRevision⟩ := range
  obtain ⟨tokened, clock⟩ := requireAuthority_range live
  have held := requireAuthority_ok live
  obtain ⟨moved, wrote, frame⟩ := appendLinkedTurnTransition_accepts forward freshTurn
    turnSeq turnRevision tokened clock
  have turnWrites : writeTurn E request lease now mid turn draft = .ok moved := by
    rw [writeTurn, if_pos changed]
    exact wrote
  -- the checkpoint and the turn leave every table that the rest of the tail looks at
  obtain ⟨checked, isChecked⟩ : ∃ checked, writeCheckpoint E request now moved draft.checkpoint = checked := ⟨_, rfl⟩
  have same : checked = { mid with
      events := checked.events
      turns := checked.turns
      turnReadModel := checked.turnReadModel
      runtimeCheckpoints := checked.runtimeCheckpoints } := by
    rw [← isChecked, writeCheckpoint_frame, frame]
  have entered := @insertTranscript_accepts _ checked request.sessionId
    (commitEntry E request now (session.lastSeq + 1) card) ⟨sequence, clock⟩
    (by rw [same]; exact freshEntry) (by rw [same]; exact freshCard)
  have cards : ∃ carded, writeCard E request now checked (session.lastSeq + 1) draft.card =
      .ok (some (commitEntry E request now (session.lastSeq + 1) card), carded) ∧
      carded = { checked with
        conversationOutbox := carded.conversationOutbox
        sessionTurns := carded.sessionTurns } := by
    simp only [carded, writeCard, bind_ok, entered, Except.ok.injEq]
    exact ⟨_, ⟨_, rfl, rfl⟩, rfl⟩
  obtain ⟨written, cardWrites, cardFrame⟩ := cards
  have settles : ∃ settled, settleActive E request lease now written draft.terminal = .ok settled ∧
      settled = { written with
        sessionTurns := settled.sessionTurns
        sessionActiveTurns := settled.sessionActiveTurns
        runtimeLease := settled.runtimeLease } := by
    simp only [settleActive, closed, if_true, bind_ok, ensure_ok, Except.ok.injEq]
    refine ⟨_, ⟨(), ?_, rfl⟩, rfl⟩
    rw [cardFrame, same]
    exact held
  obtain ⟨settled, settleWrites, settledFrame⟩ := settles
  have sessions : (updateSession E request now settled draft (session.revision + 1)
      (session.lastSeq + 1)).sessions.get? request.sessionId = some (movedSession session
        (session.revision + 1) (session.lastSeq + 1) draft.nextLifecycle request.turnId now) := by
    have before : settled.sessions = mid.sessions := by rw [settledFrame, cardFrame, same]
    rw [updateSession, before]
    exact (sessions_modify found _).trans (if_pos rfl)
  have events : (updateSession E request now settled draft (session.revision + 1)
      (session.lastSeq + 1)).sessionEvents.get? (request.sessionId, session.lastSeq + 1) = none := by
    rw [updateSession, settledFrame, cardFrame, same]
    exact freshEvent
  obtain ⟨stored, logged, logs, logFrame⟩ := insertSessionEvent_accepts
    (commitEvent request draft (some (commitEntry E request now (session.lastSeq + 1) card)))
    ⟨sequence, sessionRevision, clock⟩ events
  obtain ⟨snapshot, taken⟩ := currentSessionSnapshot_accepts (E := E)
    SESSION_PROJECTION_TRANSCRIPT_LIMIT (show logged.sessions.get? _ = some _ by rw [logFrame]; exact sessions)
  have records : ∃ db', recordCommit E request now logged ⟨snapshot, stored⟩ = .ok db' := by
    simp only [recordCommit, bind_ok, unique_ok, Except.ok.injEq]
    refine ⟨_, (), ?_, (), ?_, rfl⟩
    · rw [logFrame, updateSession, settledFrame, cardFrame, same]
      exact freshCommand
    · rw [logFrame, updateSession, settledFrame, cardFrame, same]
      exact freshSource
  obtain ⟨db', records⟩ := records
  refine ⟨⟨snapshot, stored⟩, db', ?_⟩
  simp only [writeCommit, bind_ok, addOr_ok, turnWrites, Except.ok.injEq]
  exact ⟨_, ⟨rfl, by omega⟩, _, ⟨rfl, by omega⟩, moved, rfl, _, isChecked ▸ cardWrites, settled, settleWrites, _,
    logs, snapshot, taken, db', records, rfl⟩

end Accepting

/-! ## The acknowledgement itself -/

/-- An acknowledgement that a live lease holder addresses to the session as it stands, within range. -/
structure Acknowledges (E : Environment) (db : E.Db) (request : SessionCommitRequest) (lease : Lease) (now : Nat)
    (session : SessionRow) (turn : TurnRow) (sourceKey effectId checkpoint : String) : Prop where
  update : request.update = .reconcileUnknownEffect sourceKey effectId checkpoint
  scope : lease.scope = sessionLeaseScope request.sessionId
  authority : requireAuthority db (sessionLeaseScope request.sessionId) now lease = .ok ()
  foundSession : db.sessions.get? request.sessionId = some session
  sessionRevision : session.revision = request.expectedSessionRevision
  latest : session.latestTurnId = some request.turnId
  foundTurn : db.turns.get? request.turnId = some turn
  turnRevision : turn.state.revision = request.expectedTurnRevision
  source : validateSessionSource sourceKey = .ok ()
  document : ∃ value, E.fromStr checkpoint = .ok value
  freshCommand : db.sessionCommandDedup.get? request.commandId = none
  freshSource : db.sessionCommitSources.get? (request.sessionId, sourceKey) = none
  freshCard : db.conversationOutbox.anyRow (fun key row =>
    key.1 = request.sessionId && row.sourceKey = cardKey sourceKey) = false
  range : session.revision + 1 < 2 ^ 63 ∧ session.lastSeq + 1 < 2 ^ 63 ∧ turn.state.revision + 1 < 2 ^ 63

section Acknowledged

variable {request : SessionCommitRequest} {lease : Lease} {now : Nat} {session : SessionRow} {turn : TurnRow}
  {sourceKey checkpoint : String}

/-- The session that waits for reconciliation admits the acknowledgement. -/
theorem Acknowledges.fences (ack : Acknowledges E db request lease now session turn sourceKey effectId checkpoint)
    (graph : Graph db) (fenced : Fenced db) (requires : session.lifecycle = .reconciliationRequired) :
    db.sessionActiveTurns.get? request.sessionId = none ∧
      checkFences db request lease now = .ok (session, turn) := by
  have owner := graph.session _ _ ack.foundSession
  have idle : db.sessionActiveTurns.get? request.sessionId = none := by
    rw [← Option.not_isSome_iff_eq_none]
    intro active
    obtain ⟨row, present⟩ := Option.isSome_iff_exists.mp active
    obtain ⟨_, _, _, live⟩ := owner.active row present
    rw [requires] at live
    exact activeLifecycle_requires live
  have token : turn.leaseToken ≤ lease.fencingToken := by
    obtain ⟨link, linked, own⟩ := owner.latest _ ack.latest
    have holder := authoritative_holder (requireAuthority_ok ack.authority)
    exact fenced.linked _ turn link _ ack.foundTurn linked (own ▸ holder)
  refine ⟨idle, ?_⟩
  simp only [checkFences, bind_ok, require_ok, ensure_ok, queryRow_ok, Except.ok.injEq, Prod.mk.injEq]
  refine ⟨(), ack.authority, session, ack.foundSession, (), ack.sessionRevision, (), ?_, turn, ack.foundTurn, (),
    token, (), ack.turnRevision, rfl, rfl⟩
  simp [activeTurnMatches, recoveredReconciliation, idle, requires, ack.latest, ack.update]

/-- The acknowledgement of an unknown effect passes the checks of its own update. -/
theorem Acknowledges.applies (ack : Acknowledges E db request lease now session turn sourceKey effectId checkpoint)
    (names : EffectNames db) (interrupted : turn.state.status = .interrupted)
    (unknown : effectId ∈ effectIds db request.turnId .unknown) (lifecycle : SessionLifecycle) :
    ∃ draft mid card, applyUpdate E db request.turnId lease now turn.state lifecycle true request.update =
        .ok (draft, mid) ∧ draft.turnChanged = true ∧ draft.terminal = true ∧ draft.card = some card ∧
      card.sourceKey = cardKey sourceKey ∧ draft.next.turnId = turn.state.turnId ∧
      draft.next.revision = turn.state.revision + 1 ∧ mid = { db with effects := mid.effects } := by
  obtain ⟨row, found, mine, status⟩ := mem_effectIds.mp unknown
  obtain ⟨value, parsed⟩ := ack.document
  have clock := (requireAuthority_range ack.authority).2
  have revision : turn.state.revision + 1 < 2 ^ 64 := by
    have := ack.range.2.2
    omega
  rw [ack.update]
  simp only [applyUpdate, applyReconcileUnknownEffect, bind_ok, invalidJson_ok, toI64s_ok, ensure_ok, reconciled,
    if_true, addOr_ok, Except.ok.injEq, Prod.mk.injEq]
  exact ⟨_, _, _, ⟨(), names effectId row found, value, parsed, (), by simpa using clock, (),
    effectIn_iff.mpr ⟨row, found, mine, status⟩, _, ⟨(), interrupted, _, ⟨rfl, revision⟩, rfl⟩, rfl, rfl⟩, rfl, rfl,
    rfl, rfl, rfl, rfl, rfl⟩

/-- An addressed acknowledgement of an unknown effect is committed, and its session has failed. -/
theorem Acknowledges.accepted (ack : Acknowledges E db request lease now session turn sourceKey effectId checkpoint)
    (reached : Reachable E db) (requires : session.lifecycle = .reconciliationRequired)
    (unknown : effectId ∈ effectIds db request.turnId .unknown) {base : Nat}
    (turnLog : TurnLog db request.turnId turn)
    (log : SessionLog (stream db.sessionEvents request.sessionId) base session) :
    ∃ response db', exec E db (.commit request lease now) = .ok (.committed response, db') ∧
      (∃ session', db'.sessions.get? request.sessionId = some session' ∧ session'.lifecycle = .failed) ∧
      effectId ∈ effectIds db' request.turnId .observedFailed := by
  obtain ⟨idle, fences⟩ := ack.fences reached.graph reached.fenced requires
  have recovered : recoveredReconciliation session (db.sessionActiveTurns.get? request.sessionId) request = true := by
    simp [recoveredReconciliation, idle, requires, ack.latest, ack.update]
  have interrupted : turn.state.status = .interrupted := by
    obtain ⟨held, found, settled⟩ := (reached.graph.session _ _ ack.foundSession).idle idle _ ack.latest
    rw [ack.foundTurn, Option.some.injEq] at found
    rw [requires] at settled
    rw [found]
    exact settled
  obtain ⟨draft, mid, card, applied, changed, closed, carded, key, turnId, revision, frame⟩ :=
    ack.applies reached.effectNames interrupted unknown session.lifecycle
  obtain ⟨rangeRevision, rangeSequence, rangeTurn⟩ := ack.range
  have freshTurn : db.events.get? (request.turnId, turn.lastSeq + 1) = none := by
    rw [← Option.not_isSome_iff_eq_none]
    intro present
    have within := (turnLog.events _).mp present
    omega
  have freshEvent : db.sessionEvents.get? (request.sessionId, session.lastSeq + 1) = none := by
    rw [← Option.not_isSome_iff_eq_none]
    intro present
    have within := (log.full _).mp present
    omega
  have freshEntry : db.conversationOutbox.get? (request.sessionId, session.lastSeq + 1) = none := by
    rw [← Option.not_isSome_iff_eq_none]
    intro present
    obtain ⟨row, found⟩ := Option.isSome_iff_exists.mp present
    obtain ⟨owner, here, below⟩ := reached.outboxBelow _ row (Table.mem_of_get? _ found)
    rw [ack.foundSession, Option.some.injEq] at here
    rw [← here] at below
    exact absurd below (Nat.not_succ_le_self _)
  have named : draft.next.turnId = request.turnId := turnId.trans (reached.mirrored.turnId _ _ ack.foundTurn)
  have sourceFresh : db.sessionCommitSources.get? (request.sessionId, request.update.sourceKey) = none := by
    rw [ack.update]
    exact ack.freshSource
  obtain ⟨response, db', writes⟩ := writeCommit_accepts (E := E) changed closed carded revision
    (show requireAuthority mid _ now lease = .ok () by rw [frame]; exact ack.authority) (by rw [frame]; exact ack.foundSession)
    (by rw [frame, named]; exact freshTurn) (by rw [frame]; exact freshEntry)
    (by rw [frame, key]; exact ack.freshCard) (by rw [frame]; exact freshEvent)
    (by rw [frame]; exact ack.freshCommand) (by rw [frame]; exact sourceFresh)
    ⟨rangeRevision, rangeSequence, by rw [turnLog.lastSeq]; exact rangeTurn, by rw [revision]; exact rangeTurn⟩
  have committed : commitSessionTurnUpdate E request lease now db = .ok (response, db') := by
    simp only [commitSessionTurnUpdate, bind_ok, requireLeaseScope_ok]
    refine ⟨(), ack.scope, (), ?_, ?_⟩
    · rw [ack.update]
      exact ack.source
    · rw [ack.freshCommand, sourceFresh]
      simp only [commitFresh, fences, bind_ok, Except.ok.injEq]
      exact ⟨(session, turn), rfl, (draft, mid), by rw [recovered]; exact applied, writes⟩
  refine ⟨response, db', ?_, ?_⟩
  · rw [exec, committed]
    rfl
  · rcases (commitSessionTurnUpdate_ok reached.mirrored committed).2 with
      ⟨_, found, _⟩ | ⟨_, _, found, _⟩ | ⟨_, session', _, _, draft', _, _, _, done⟩
    · rw [ack.freshCommand] at found
      cases found
    · rw [sourceFresh] at found
      cases found
    · have update := done.applied
      rw [ack.update] at update
      obtain ⟨_, _, next, _⟩ := applyReconcileUnknownEffect_ok update
      obtain ⟨row, found, mine, status⟩ := mem_effectIds.mp unknown
      obtain ⟨row', after, owner, moved⟩ := done.effect_after found
      refine ⟨⟨session', ?_, ?_⟩, mem_effectIds.mpr ⟨row', after, owner.trans mine, ?_⟩⟩
      · rw [done.sessions, if_pos rfl]
      · rw [done.moved]
        exact next
      · rw [moved, committedStatus, if_pos mine, ack.update, status]
        simp [updateMove, movedStatus, EffectMove.apply]

end Acknowledged

/-! ## Runs that account for their unknown effects -/

/-- The gate, and that what waits behind it can be acknowledged. -/
structure ReconciliationHolds (E : Environment) (db : E.Db) : Prop where
  gate : ReconciliationGate db
  owned : ∀ effectId row link, db.effects.get? effectId = some row → row.status = .unknown →
    db.sessionTurns.get? row.turnId = some link → ∃ session, db.sessions.get? link.sessionId = some session ∧
      session.latestTurnId = some row.turnId ∧ session.lifecycle = .reconciliationRequired
  acknowledged : ∀ request lease now session turn sourceKey effectId checkpoint,
    Acknowledges E db request lease now session turn sourceKey effectId checkpoint →
      effectId ∈ effectIds db request.turnId .unknown →
        ∃ response db', exec E db (.commit request lease now) = .ok (.committed response, db') ∧
          (∃ session', db'.sessions.get? request.sessionId = some session' ∧ session'.lifecycle = .failed) ∧
          effectId ∈ effectIds db' request.turnId .observedFailed

/-- In a run whose calls account for the unknown effects, a session requires reconciliation exactly when
its latest turn holds an unknown effect, and every such effect can be acknowledged. -/
theorem run_reconciliation (ops : List Operation)
    (accounts : ∀ k (_ : k < ops.length), reconcilesStep E (dbAt E ops k) ops[k] = true) (k : Nat)
    (bound : k ≤ ops.length) : ReconciliationHolds E (dbAt E ops k) := by
  have kept : ∀ db op, Reachable E db ∧ Reconcilable db → reconcilesStep E db op = true →
      Reachable E (step E db op) ∧ Reconcilable (step E db op) :=
    fun db op held good => ⟨held.1.step op, held.2.step held.1 op good⟩
  have start : Reconcilable (Database.empty E.Digest) := by
    constructor <;> (intro key row; intros; contradiction)
  obtain ⟨reached, held⟩ := invariant_of_steps ⟨.refl, start⟩ kept accounts k bound
  have gate := held.gate reached.graph
  refine ⟨gate, held.unknown, ?_⟩
  intro request lease now session turn sourceKey effectId checkpoint ack unknown
  have requires := (gate _ _ ack.foundSession).mpr ⟨_, ack.latest, List.ne_nil_of_mem unknown⟩
  obtain ⟨link, linked, _⟩ := (reached.graph.session _ _ ack.foundSession).latest _ ack.latest
  obtain ⟨turnLog, _⟩ := run_turn_log ops k bound turn (Option.isSome_iff_exists.mpr ⟨link, linked⟩) ack.foundTurn
  obtain ⟨_, _, since⟩ := (run_log_since ops k bound).2 session ack.foundSession
  exact ack.accepted reached requires unknown turnLog since.log

/-- A turn whose effect turns unknown, and its acknowledgement under a fresh lease. -/
def reconciledRun : List Operation := sampleRun [
  (1, 1, samplePrepare "e1" .allow),
  (2, 1, sampleStart "e1"),
  (3, 1, .unknownEffect "unknown" "e1" sampleDigest "null")] ++ [
  .acquireLease (sessionLeaseScope sampleSession) "engine" none 3 100,
  .commit (sampleRequest 3 4 3 (.reconcileUnknownEffect "acknowledge" "e1" "null"))
    ⟨sessionLeaseScope sampleSession, "engine", 2, 103⟩ 4]

theorem run_reconciliation_acknowledged :
    ReconciliationHolds plain (dbAt plain reconciledRun reconciledRun.length) := by
  have accounts : ∀ k : Fin reconciledRun.length,
      reconcilesStep plain (dbAt plain reconciledRun k) reconciledRun[k] = true := by decide +kernel
  exact run_reconciliation reconciledRun (fun k bound => accounts ⟨k, bound⟩) _ (Nat.le_refl _)

/-- An interruption that names an effect nobody prepared. -/
def misnamedRun : List Operation := sampleRun [(1, 1, .interrupt "cancel" (some "e1"))]

/-- The session waits for the reconciliation of an effect that does not exist. -/
theorem misnamed_requires : ¬ ∀ (E : Environment) (ops : List Operation), ReconciliationGate (runOf E ops) := by
  intro claim
  have session : ((runOf plain misnamedRun).sessions.get? sampleSession).map SessionRow.lifecycle =
      some .reconciliationRequired := by decide +kernel
  have effects : (runOf plain misnamedRun).effects.rows.isEmpty = true := by decide +kernel
  obtain ⟨row, found, requires⟩ := Option.map_eq_some_iff.mp session
  obtain ⟨turnId, _, unknown⟩ := (claim plain misnamedRun sampleSession row found).mp requires
  apply unknown
  rw [effectIds, Table.select, List.isEmpty_iff.mp effects]
  rfl

end LatteCode.Storage
