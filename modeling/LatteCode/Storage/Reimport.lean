import LatteCode.Storage.Legacy
import LatteCode.Storage.SessionLog
/- Imports of a source that has changed since its last import, between any calls of the storage. -/

namespace LatteCode.Storage
open Keyed Table Outcome Numbered Runs Relation

/-! ## Commits that are refused for a sequence -/

def takenCard : StorageError :=
  .sql "UNIQUE constraint failed: conversation_outbox.session_id, conversation_outbox.seq"

def takenEvent : StorageError := .sql "UNIQUE constraint failed: session_events.session_id, session_events.seq"

/-- An error that is not about the sequence of a session. -/
def Unrelated (error : StorageError) : Prop := error ≠ takenCard ∧ error ≠ takenEvent

section Unrelated

variable {E : Environment} {db : E.Db} {turnId : TurnId} {lease : Lease} {now : Nat} {current : TurnState}
  {lifecycle : SessionLifecycle}

@[simp] theorem unrelated_invalidData (message : String) : Unrelated (.invalidData message) := by
  simp [Unrelated, takenCard, takenEvent]

@[simp] theorem errs_toI64s {values : List Nat} : Errs Unrelated (toI64s values) := by simp [toI64s]

@[simp] theorem errs_addOr {a b : Nat} {message : String} : Errs Unrelated (addOr a b message) := by simp [addOr]

@[simp] theorem errs_invalidJson {α : Type} {parsed : Except String α} : Errs Unrelated (invalidJson parsed) := by
  rw [invalidJson, errs_mapError]
  exact fun _ _ => unrelated_invalidData _

@[simp] theorem errs_transitionOr {step : Except TransitionError TurnState} : Errs Unrelated (transitionOr step) := by
  rw [transitionOr, errs_mapError]
  exact fun _ _ => unrelated_invalidData _

@[simp] theorem errs_queryRow {α : Type} {row : Option α} : Errs Unrelated (queryRow row) := by
  simp [queryRow, Unrelated, takenCard, takenEvent]

@[simp] theorem errs_validateSessionEffectId {value : String} : Errs Unrelated (validateSessionEffectId value) := by
  simp [validateSessionEffectId]

@[simp] theorem errs_validateSessionDigest {value : String} : Errs Unrelated (validateSessionDigest value) := by
  simp [validateSessionDigest]

theorem errs_checkFences {request : SessionCommitRequest} : Errs Unrelated (checkFences db request lease now) := by
  simp [checkFences, requireAuthority, Unrelated, takenCard, takenEvent]

@[simp] theorem errs_cancelled : Errs Unrelated (cancelled current) := by simp [cancelled]

@[simp] theorem errs_insertPrepared {effectId digest descriptor canonical : String} {policy : SessionEffectPolicy} :
    Errs Unrelated (insertPrepared E db turnId now effectId digest descriptor canonical policy) := by
  simp [insertPrepared, unique, Unrelated, takenCard, takenEvent]

@[simp] theorem errs_insertPermission {effectId digest : String} :
    Errs Unrelated (insertPermission E db turnId lease current effectId digest) := by
  simp [insertPermission, unique, Unrelated, takenCard, takenEvent]

@[simp] theorem errs_authorizeStart {effectId : String} {effect : EffectRow} :
    Errs Unrelated (authorizeStart E db turnId lease now current effectId effect) := by
  unfold authorizeStart
  split <;> simp

@[simp] theorem errs_reconciled {recovered : Bool} {effectId : String} :
    Errs Unrelated (reconciled E current recovered effectId) := by
  unfold reconciled
  split <;> simp

@[simp] theorem errs_resolveAllowed {requestId : String} {revision : Nat} {rebound : Option String} :
    Errs Unrelated (resolveAllowed E db turnId lease requestId revision rebound) := by
  unfold resolveAllowed
  split
  · cases rebound <;> simp [rebindPermission, unique, Unrelated, takenCard, takenEvent]
  · simp

@[simp] theorem errs_currentVerification {effectId digest : String} :
    Errs Unrelated (currentVerification E db turnId current effectId digest) := by
  unfold currentVerification
  cases latestEvidence E db turnId <;> simp

/-- What an update finds wrong is never a sequence: it inserts no card and no event. -/
theorem errs_applyUpdate {recovered : Bool} (update : CommitSessionTurnUpdate) :
    Errs Unrelated (applyUpdate E db turnId lease now current lifecycle recovered update) := by
  have fenced : Unrelated .effectFenced := by simp [Unrelated, takenCard, takenEvent]
  have lost : Unrelated .leaseLost := by simp [Unrelated, takenCard, takenEvent]
  cases update with
  | start => simp [applyUpdate, applyStart]
  | appendTranscript => simp [applyUpdate, applyAppendTranscript]
  | prepareEffect sourceKey effectId digest descriptor canonical policy =>
      cases policy <;> simp [applyUpdate, applyPrepareEffect]
  | startEffect => simp [applyUpdate, applyStartEffect, fenced, lost]
  | observeEffect => simp [applyUpdate, applyObserveEffect, fenced]
  | unknownEffect => simp [applyUpdate, applyUnknownEffect, fenced]
  | reconcileUnknownEffect => simp [applyUpdate, applyReconcileUnknownEffect]
  | requestPermission => simp [applyUpdate, applyRequestPermission]
  | resolvePermission sourceKey requestId allow => cases allow <;> simp [applyUpdate, applyResolvePermission]
  | requestInput => simp [applyUpdate, applyRequestInput]
  | provideInput => simp [applyUpdate, applyProvideInput]
  | complete => simp [applyUpdate, applyComplete]
  | completeVerified => simp [applyUpdate, applyCompleteVerified]
  | fail => simp [applyUpdate, applyFail]
  | interrupt =>
      rw [applyUpdate, applyInterrupt]
      split <;> simp [applyInterruptWaiting, applyInterruptRunning]

end Unrelated

section Commits

variable {E : Environment} {db db' : E.Db} {request : SessionCommitRequest} {lease : Lease} {now : Nat} {turn : TurnRow}
  {draft : Draft}

theorem writeTurn_frame (written : writeTurn E request lease now db turn draft = .ok db') : TurnFrame db db' := by
  unfold writeTurn at written
  split at written
  case isTrue =>
    simp only [appendLinkedTurnTransition, bind_ok, Except.ok.injEq] at written
    obtain ⟨_, _, states, _, ⟨last, _⟩, folded, rfl⟩ := written
    have start : TurnFrame db db := rfl
    refine foldlM_keeps (P := fun written => TurnFrame db written.1) ?_ start folded
    intro state _ before after held step
    simp only [writeTurnState, bind_ok, Except.ok.injEq] at step
    obtain ⟨_, _, _, ⟨_, inserted, _, _, rfl⟩, rfl⟩ := step
    obtain ⟨_, rfl⟩ := insertTurnEvent_ok inserted
    exact held.trans rfl
  case isFalse =>
    simp only [bind_ok, ensure_ok, Except.ok.injEq] at written
    obtain ⟨_, _, rfl⟩ := written
    rfl

theorem errs_writeTurn : Errs Unrelated (writeTurn E request lease now db turn draft) := by
  unfold writeTurn
  split
  case isTrue =>
    rw [appendLinkedTurnTransition, errs_bind]
    refine ⟨by simp, fun _ _ => ?_⟩
    rw [errs_bind]
    refine ⟨?_, fun states _ => ?_⟩
    · unfold linkedTurnStates
      split <;> simp
    · rw [errs_bind]
      refine ⟨.foldlM fun before state => ?_, fun _ _ => errs_ok⟩
      simp [writeTurnState, insertTurnEvent, unique, Unrelated, takenCard, takenEvent]
  case isFalse => simp [Unrelated, takenCard, takenEvent]

/-- A card and an event at a free sequence are refused for no sequence. -/
theorem errs_insertTranscript {sessionId : SessionId} {entry : TranscriptEntry}
    (free : db.conversationOutbox.get? (sessionId, entry.sequence) = none) :
    Errs Unrelated (insertTranscript db sessionId entry) := by
  simp [insertTranscript, unique, free, Unrelated, takenCard, takenEvent]

theorem errs_insertSessionEvent {sessionId : SessionId} {revision sequence : Nat} {event : SessionEvent}
    (free : db.sessionEvents.get? (sessionId, sequence) = none) :
    Errs Unrelated (insertSessionEvent db sessionId revision sequence event now) := by
  simp [insertSessionEvent, unique, free]

theorem errs_writeCommit {session : SessionRow}
    (freeCard : db.conversationOutbox.get? (request.sessionId, session.lastSeq + 1) = none)
    (freeEvent : db.sessionEvents.get? (request.sessionId, session.lastSeq + 1) = none) :
    Errs Unrelated (writeCommit E request lease now db session turn draft) := by
  simp only [writeCommit, errs_bind, errs_addOr, addOr_ok, true_and]
  rintro _ ⟨rfl, _⟩ _ ⟨rfl, _⟩
  refine ⟨errs_writeTurn, fun turned wroteTurn => ?_⟩
  have turnFrame := writeTurn_frame wroteTurn
  have before : (writeCheckpoint E request now turned draft.checkpoint).conversationOutbox = db.conversationOutbox ∧
      (writeCheckpoint E request now turned draft.checkpoint).sessionEvents = db.sessionEvents := by
    rw [writeCheckpoint_frame, turnFrame]
    exact ⟨rfl, rfl⟩
  constructor
  · unfold writeCard
    split
    case h_1 => exact errs_ok
    case h_2 card _ =>
      rw [errs_bind]
      exact ⟨errs_insertTranscript (by rw [before.1]; exact freeCard), fun _ _ => errs_ok⟩
  rintro ⟨transcript, carded⟩ wroteCard
  constructor
  · unfold settleActive
    split <;> simp [Unrelated, takenCard, takenEvent]
  intro settled wroteActive
  obtain ⟨_, cardFrame, _⟩ := writeCard_ok wroteCard
  obtain ⟨_, _, settledFrame⟩ := settleActive_ok wroteActive
  have events : settled.sessionEvents = db.sessionEvents := by
    rw [settledFrame, cardFrame]
    exact before.2
  refine ⟨errs_insertSessionEvent (by change settled.sessionEvents.get? _ = none; rw [events]; exact freeEvent), ?_⟩
  simp [currentSessionSnapshot, sessionSnapshot, recordCommit, unique, Unrelated, takenCard, takenEvent]

/-- A commit whose session has its next sequence free is refused for no sequence. -/
theorem errs_commitSessionTurnUpdate
    (freeCard : ∀ session, db.sessions.get? request.sessionId = some session →
      db.conversationOutbox.get? (request.sessionId, session.lastSeq + 1) = none)
    (freeEvent : ∀ session, db.sessions.get? request.sessionId = some session →
      db.sessionEvents.get? (request.sessionId, session.lastSeq + 1) = none) :
    Errs Unrelated (commitSessionTurnUpdate E request lease now db) := by
  have mismatch : Unrelated .sessionCommandReplayMismatch := by simp [Unrelated, takenCard, takenEvent]
  rw [commitSessionTurnUpdate, errs_bind, requireLeaseScope, validateSessionSource]
  refine ⟨by simp [Unrelated, takenCard, takenEvent], fun _ _ => ?_⟩
  rw [errs_bind]
  refine ⟨by simp, fun _ _ => ?_⟩
  split
  case h_1 row _ => cases result : row.result <;> simp [replayCommand, decodeResponse, mismatch, result]
  case h_2 =>
    split
    case h_1 => simp [replaySource, unique, Unrelated, takenCard, takenEvent]
    case h_2 =>
      rw [commitFresh, errs_bind]
      refine ⟨errs_checkFences, ?_⟩
      rintro ⟨session, turn⟩ fenced
      rw [errs_bind]
      refine ⟨errs_applyUpdate _, ?_⟩
      rintro ⟨draft, mid⟩ applied
      have found := (checkFences_ok fenced).foundSession
      have ledger := (applyUpdate_shaped applied).ledger.frame
      refine errs_writeCommit ?_ ?_
      · rw [ledger]
        exact freeCard session found
      · rw [ledger]
        exact freeEvent session found

end Commits

/-! ## Sequences within the last one -/

/-- No card and no event of a session is beyond its `last_seq`. -/
structure Bounded (E : Environment) (db : E.Db) : Prop where
  cards : ∀ row ∈ db.conversationOutbox.rows, row.1.2 ≤ lastSeqOf db row.1.1
  events : ∀ row ∈ db.sessionEvents.rows, row.1.2 ≤ lastSeqOf db row.1.1

section Bounded

variable {E : Environment} {db db' : E.Db} {owner : SessionId} {session session' : SessionRow}
  {rows : List SessionEventRow} {cards told : List TranscriptEntry}

theorem lastSeqOf_found (found : db.sessions.get? owner = some session) : lastSeqOf db owner = session.lastSeq := by
  rw [lastSeqOf, found]
  rfl

theorem lastSeqOf_same (same : ∀ key, (db'.sessions.get? key).map logKey = (db.sessions.get? key).map logKey)
    (key : SessionId) : lastSeqOf db' key = lastSeqOf db key := by
  have counted := congrArg (Option.map Prod.snd) (same key)
  rw [Option.map_map, Option.map_map] at counted
  rw [lastSeqOf, lastSeqOf]
  cases here : db.sessions.get? key <;> cases there : db'.sessions.get? key <;> rw [here, there] at counted <;>
    simp_all [logKey]

theorem Bounded.quiet (bounded : Bounded E db)
    (sessions : ∀ key, (db'.sessions.get? key).map logKey = (db.sessions.get? key).map logKey)
    (cards : ∀ row ∈ db'.conversationOutbox.rows, row ∈ db.conversationOutbox.rows)
    (events : db'.sessionEvents = db.sessionEvents) : Bounded E db' := by
  constructor
  · intro row held
    rw [lastSeqOf_same sessions]
    exact bounded.cards row (cards row held)
  · intro row held
    rw [lastSeqOf_same sessions]
    exact bounded.events row (events ▸ held)

/-- A session logs events from `base` on, where its rows end, and shows cards that are within its new last sequence. -/
theorem Bounded.logged (bounded : Bounded E db) (base : SessionRow) (based : lastSeqOf db owner ≤ base.lastSeq)
    (sessions : ∀ key, db'.sessions.get? key = if key = owner then some session' else db.sessions.get? key)
    (logged : SessionLogged db.sessionEvents db'.sessionEvents owner base session' rows told)
    (outbox : db'.conversationOutbox.rows = db.conversationOutbox.rows ++ cards.map (outboxRow owner))
    (within : ∀ card ∈ cards, card.sequence ≤ session'.lastSeq) : Bounded E db' := by
  have own : lastSeqOf db' owner = session'.lastSeq := lastSeqOf_found (by rw [sessions, if_pos rfl])
  have grown : ∀ key, lastSeqOf db key ≤ lastSeqOf db' key := by
    intro key
    by_cases here : key = owner
    · subst here
      rw [own, logged.moved.lastSeq]
      omega
    · rw [lastSeqOf, lastSeqOf, sessions, if_neg here]
  constructor
  · intro row held
    rw [outbox, List.mem_append] at held
    rcases held with old | new
    · exact (bounded.cards row old).trans (grown _)
    · obtain ⟨card, listed, rfl⟩ := List.mem_map.mp new
      exact own ▸ within card listed
  · rintro ⟨⟨key, n⟩, event⟩ held
    have stored : stream db'.sessionEvents key n = some event := get?_of_mem _ held
    by_cases here : key = owner
    · subst here
      rcases logged.moved.events.only n event stored with old | ⟨i, inside, place, _⟩
      · exact (bounded.events _ (mem_of_get? _ old)).trans (grown _)
      · have last := logged.moved.lastSeq
        change n ≤ lastSeqOf db' key
        omega
    · rw [logged.other key here] at stored
      exact (bounded.events _ (mem_of_get? _ stored)).trans (grown _)

/-- An existing session that logs events, some of which announce its new cards. -/
theorem Bounded.moved (bounded : Bounded E db) (found : db.sessions.get? owner = some session)
    (sessions : ∀ key, db'.sessions.get? key = if key = owner then some session' else db.sessions.get? key)
    (logged : SessionLogged db.sessionEvents db'.sessionEvents owner session session' rows cards)
    (outbox : db'.conversationOutbox.rows = db.conversationOutbox.rows ++ cards.map (outboxRow owner)) :
    Bounded E db' := by
  refine bounded.logged session (Nat.le_of_eq (lastSeqOf_found found)) sessions logged outbox fun card listed => ?_
  obtain ⟨i, inside, place, _⟩ := logged.moved.announced card listed
  have last := logged.moved.lastSeq
  omega

theorem lastSeqOf_fresh (fresh : db.sessions.get? owner = none) : lastSeqOf db owner = 0 := by
  rw [lastSeqOf, fresh]
  rfl

theorem Bounded.created {args : CreateSession} {lease : Option Lease} {now : Nat} {state : TurnState}
    {snapshot : SessionSnapshot} (bounded : Bounded E db) (done : Created E args lease now db db' state rows snapshot) :
    Bounded E db' := by
  have outbox := done.outbox
  rw [← List.map_singleton (f := outboxRow _)] at outbox
  refine bounded.logged _ ((lastSeqOf_fresh done.freshSession).trans_le (Nat.zero_le _)) done.sessions done.logged outbox ?_
  refine List.forall_mem_singleton.mpr ?_
  change 1 ≤ if lease.isSome then 2 else 1
  split <;> omega

/-- A fork ends with the last of its copied entries, which are in order. -/
theorem Bounded.forked {source fork : SessionId} {history : List TranscriptEntry} {title : Option String} {now : Nat}
    {row : SessionRow} (bounded : Bounded E db) (done : Forked E source fork history title now db db' row) :
    Bounded E db' := by
  have outbox := done.outbox
  rw [← Function.comp_def (outboxRow _), ← List.map_map] at outbox
  refine bounded.logged _ ((lastSeqOf_fresh done.freshSession).trans_le (Nat.zero_le _)) done.sessions done.logged outbox ?_
  refine List.forall_mem_map.mpr fun entry listed => ?_
  change entry.sequence ≤ (history.getLast?.map TranscriptEntry.sequence).getD 0
  obtain ⟨earlier, last, rfl⟩ := (List.eq_nil_or_concat history).resolve_left (List.ne_nil_of_mem listed)
  rw [List.concat_eq_append] at listed ⊢
  rw [List.getLast?_concat]
  rcases List.mem_append.mp listed with before | same
  · have climbing := done.climbing
    rw [List.concat_eq_append, List.pairwise_append] at climbing
    exact Nat.le_of_lt (climbing.2.2 entry before last List.mem_cons_self)
  · rw [List.mem_singleton.mp same]
    exact Nat.le_refl _

theorem Bounded.change (bounded : Bounded E db) (change : Change E db db') : Bounded E db' := by
  cases change with
  | committed done =>
      obtain ⟨rows, logged⟩ := done.logged
      exact bounded.moved done.admitted.foundSession done.sessions logged done.outbox
  | other done =>
      cases done with
      | created done => exact bounded.created done
      | followedUp done => exact bounded.moved done.foundSession done.sessions done.logged done.outbox
      | switched done => exact bounded.moved done.foundSession done.sessions done.logged done.outbox
      | forked done => exact bounded.forked done
      | interrupted done => exact bounded.moved done.foundSession done.sessions done.logged done.outbox
      | retired done =>
          rw [done.result]
          exact bounded.quiet (fun _ => rfl) (fun _ => id) rfl
      | quiesced done =>
          rw [done.result]
          exact bounded.quiet (fun _ => rfl) (fun _ => id) rfl
      | acquired done =>
          rw [done.frame]
          exact bounded.quiet (fun _ => rfl) (fun _ => id) rfl
      | renamed sessionId title done =>
          subst done
          refine bounded.quiet ?_ (fun _ => id) rfl
          intro key
          rw [Table.get?_modify]
          split
          · rw [Option.map_map]
            rfl
          · rfl
      | acknowledged drained done =>
          subst done
          exact bounded.quiet (fun _ => rfl) (fun row held => (List.mem_filter.mp held).1) rfl
      | released _ done | renewed _ _ done | evidenced _ done | aliased _ _ _ _ _ _ done | runCreated _ _ _ _ _ done =>
          subst done
          exact bounded.quiet (fun _ => rfl) (fun _ => id) rfl

/-- Every call of the storage keeps the bound. -/
theorem step_bounded (mirrored : Mirrored db) (bounded : Bounded E db) (op : Operation) :
    Mirrored (step E db op) ∧ Bounded E (step E db op) := by
  refine step_preserves (P := fun db => Mirrored db ∧ Bounded E db) ⟨mirrored, bounded⟩ fun reply db' result => ?_
  have path : ReflTransGen (Change E) db db' := by
    rcases exec_ok mirrored result with ⟨_, _, _, _, _, _, _, _, _, _, _, _, _, _, done⟩ | change | path
    · exact .single (.committed done)
    · exact .single (.other change)
    · exact ReflTransGen.mono (fun _ _ change => .other (Housekeeping.uncommitted change)) _ _ path
  clear result
  induction path with
  | refl => exact ⟨mirrored, bounded⟩
  | tail _ change ih => exact ⟨change.mirrored ih.1, ih.2.change change⟩

end Bounded

/-! ## Versions of a source -/

/-- What the program that wrote the file promises of it. -/
structure LegacyDatabase.Consistent {D : Type} (legacy : LegacyDatabase D) : Prop where
  named : ∀ turnId run, legacy.runs.get? turnId = some run → run.state.turnId = turnId
  status : ∀ turnId run, legacy.runs.get? turnId = some run → run.status = run.state.status
  revision : ∀ turnId run, legacy.runs.get? turnId = some run → run.revision = run.state.revision
  cards : ∀ key row, (legacy.conversationOutbox.getD legacy.threadTranscript).get? key = some row →
    ∃ thread, legacy.threads.get? key.1 = some thread ∧ key.2 ≤ thread.lastSeq
  events : ∀ key row, legacy.threadEvents.get? key = some row →
    ∃ thread, legacy.threads.get? key.1 = some thread ∧ key.2 ≤ thread.lastSeq

/-- No card and no event that a copy adds to a session that is there already is beyond the session's `last_seq`. -/
structure Within {D : Type} (db : Database D) (legacy : LegacyDatabase D) : Prop where
  cards : ∀ key row session, (legacy.conversationOutbox.getD legacy.threadTranscript).get? key = some row →
    db.conversationOutbox.get? key = none → clashingOutbox db.conversationOutbox key row = false →
    db.sessions.get? key.1 = some session → key.2 ≤ session.lastSeq
  events : ∀ key row session, legacy.threadEvents.get? key = some row → db.sessionEvents.get? key = none →
    db.sessions.get? key.1 = some session → key.2 ≤ session.lastSeq

section Copies

variable {E : Environment} {db : E.Db} {legacy : LegacyDatabase E.Digest} {sessionId : SessionId}

theorem copyLegacy_kept {session : SessionRow} (found : db.sessions.get? sessionId = some session) :
    lastSeqOf (E := E) (copyLegacy legacy db) sessionId = session.lastSeq :=
  lastSeqOf_found (insertOrIgnore_kept found)

theorem copyLegacy_thread {thread : LegacyThreadRow} (free : db.sessions.get? sessionId = none)
    (found : legacy.threads.get? sessionId = some thread) :
    lastSeqOf (E := E) (copyLegacy legacy db) sessionId = thread.lastSeq := by
  have distinct : ((legacy.threads.rows.map fun row => (row.1, importedSession legacy row.2)).map Prod.fst).Nodup := by
    rw [List.map_map]
    exact legacy.threads.keys_nodup
  have listed : (sessionId, importedSession legacy thread) ∈
      legacy.threads.rows.map fun row => (row.1, importedSession legacy row.2) :=
    List.mem_map.mpr ⟨(sessionId, thread), mem_of_get? _ found, rfl⟩
  have stored : (copyLegacy legacy db).sessions.get? sessionId = some (importedSession legacy thread) :=
    insertOrIgnore_stored distinct free listed fun _ _ => rfl
  exact lastSeqOf_found stored

theorem copyLegacy_grown : lastSeqOf db sessionId ≤ lastSeqOf (E := E) (copyLegacy legacy db) sessionId := by
  cases found : db.sessions.get? sessionId with
  | none => exact (lastSeqOf_fresh found).trans_le (Nat.zero_le _)
  | some session => rw [copyLegacy_kept found, lastSeqOf_found found]

/-- What a consistent version brings is within the session that is there afterwards. -/
theorem copied_within {n : Nat} (thread : ∃ thread, legacy.threads.get? sessionId = some thread ∧ n ≤ thread.lastSeq)
    (within : ∀ session, db.sessions.get? sessionId = some session → n ≤ session.lastSeq) :
    n ≤ lastSeqOf (E := E) (copyLegacy legacy db) sessionId := by
  cases found : db.sessions.get? sessionId with
  | none =>
      obtain ⟨row, here, bound⟩ := thread
      rw [copyLegacy_thread found here]
      exact bound
  | some session =>
      rw [copyLegacy_kept found]
      exact within session found

theorem clashingOutbox_grown {old new : Table (SessionId × Nat) OutboxRow} {key : SessionId × Nat} {row : OutboxRow}
    (grown : ∀ other held, old.get? other = some held → new.get? other = some held)
    (clear : clashingOutbox new key row = false) : clashingOutbox old key row = false := by
  rw [Bool.eq_false_iff] at clear ⊢
  intro clashes
  obtain ⟨other, held, stored, same⟩ := (anyRow_iff _ _).mp clashes
  exact clear ((anyRow_iff _ _).mpr ⟨other, held, grown other held stored, same⟩)

theorem Bounded.copied (bounded : Bounded E db) (consistent : legacy.Consistent) (within : Within db legacy) :
    Bounded E (copyLegacy legacy db) := by
  constructor
  · rintro ⟨key, row⟩ held
    rcases insertOrIgnore_new (get?_of_mem _ held) with old | ⟨free, listed, t, grown, clear⟩
    · exact (bounded.cards _ (mem_of_get? _ old)).trans copyLegacy_grown
    · have found := get?_of_mem _ listed
      exact copied_within (consistent.cards key row found) fun session here =>
        within.cards key row session found free (clashingOutbox_grown grown clear) here
  · rintro ⟨key, row⟩ held
    rcases insertOrIgnore_new (get?_of_mem _ held) with old | ⟨free, listed, _⟩
    · exact (bounded.events _ (mem_of_get? _ old)).trans copyLegacy_grown
    · have found := get?_of_mem _ listed
      exact copied_within (consistent.events key row found) fun session here =>
        within.events key row session found free here

theorem Mirrored.copied (mirrored : Mirrored db) (consistent : legacy.Consistent) : Mirrored (copyLegacy legacy db) := by
  refine mirrored.of_rows fun key row held => ?_
  rcases copyLegacy_turn held with old | ⟨_, run, found, rfl⟩
  · exact .inl ⟨row, old, rfl, rfl, rfl⟩
  · exact .inr ⟨consistent.named key run found, consistent.status key run found, consistent.revision key run found⟩

end Copies

/-! ## Runs with imports -/

/-- A file as some writer left it. -/
structure LegacyVersion (D : Type) where
  legacy : LegacyDatabase D
  consistent : legacy.Consistent

inductive CatalogEvent (D : Type) where
  | imported (version : LegacyVersion D) (own : Bool) (sourcePath fingerprint workspaceRoot : String) (now : Nat)
  | called (op : Operation)

section Runs

variable (E : Environment)

def catalogStep (catalog : Catalog E.Digest) : CatalogEvent E.Digest → Catalog E.Digest
  | .imported version own sourcePath fingerprint workspaceRoot now =>
      (importLegacyDatabase E catalog version.legacy own sourcePath fingerprint workspaceRoot now).2
  | .called op => { catalog with database := step E catalog.database op }

abbrev catalogAt (events : List (CatalogEvent E.Digest)) (k : Nat) : Catalog E.Digest :=
  stateAt (catalogStep E) ⟨.empty E.Digest, .empty⟩ events k

/-- An import that copies anything copies nothing beyond the sessions that are there. -/
def ImportsWithin {D : Type} (catalog : Catalog D) : CatalogEvent D → Prop
  | .imported version own sourcePath fingerprint workspaceRoot _ =>
      admitImport catalog version.legacy sourcePath fingerprint workspaceRoot own = .ok true →
        Within catalog.database version.legacy
  | .called _ => True

/-- The last sequence of every session bounds its rows, and no commit is refused for a sequence. -/
structure Settled (db : E.Db) : Prop where
  cards : ∀ sessionId session n row, db.sessions.get? sessionId = some session →
    db.conversationOutbox.get? (sessionId, n) = some row → n ≤ session.lastSeq
  events : ∀ sessionId session n row, db.sessions.get? sessionId = some session →
    db.sessionEvents.get? (sessionId, n) = some row → n ≤ session.lastSeq
  commits : ∀ request lease now, Errs Unrelated (commitSessionTurnUpdate E request lease now db)

variable {E}

theorem Bounded.settled {db : E.Db} (bounded : Bounded E db) : Settled E db := by
  have cards : ∀ sessionId session n row, db.sessions.get? sessionId = some session →
      db.conversationOutbox.get? (sessionId, n) = some row → n ≤ session.lastSeq := by
    intro sessionId session n row found held
    rw [← lastSeqOf_found found]
    exact bounded.cards _ (mem_of_get? _ held)
  have events : ∀ sessionId session n row, db.sessions.get? sessionId = some session →
      db.sessionEvents.get? (sessionId, n) = some row → n ≤ session.lastSeq := by
    intro sessionId session n row found held
    rw [← lastSeqOf_found found]
    exact bounded.events _ (mem_of_get? _ held)
  refine ⟨cards, events, fun request lease now => errs_commitSessionTurnUpdate ?_ ?_⟩
  · intro session found
    refine Option.eq_none_iff_forall_not_mem.mpr fun row held => ?_
    exact absurd (cards _ session _ row found held) (Nat.not_succ_le_self _)
  · intro session found
    refine Option.eq_none_iff_forall_not_mem.mpr fun row held => ?_
    exact absurd (events _ session _ row found held) (Nat.not_succ_le_self _)

theorem catalogStep_bounded {catalog : Catalog E.Digest} {event : CatalogEvent E.Digest}
    (held : Mirrored catalog.database ∧ Bounded E catalog.database) (within : ImportsWithin catalog event) :
    Mirrored (catalogStep E catalog event).database ∧ Bounded E (catalogStep E catalog event).database := by
  cases event with
  | called op => exact step_bounded held.1 held.2 op
  | imported version own sourcePath fingerprint workspaceRoot now =>
      rw [catalogStep, importLegacyDatabase]
      split
      case h_1 => exact held
      case h_2 => exact held
      case h_3 admitted =>
        have copied := held.1.copied version.consistent
        have bounded := held.2.copied version.consistent (within admitted)
        split
        case h_1 => exact held
        case h_2 =>
          dsimp only
          split
          case h_1 => exact ⟨copied, bounded⟩
          case h_2 responses database recovered =>
            have same : step E (copiedCatalog catalog version.legacy sourcePath fingerprint).database (.recoverAt now) =
                database := by
              rw [step, exec, recovered]
              rfl
            exact same ▸ step_bounded copied bounded (.recoverAt now)

end Runs

/-- In a run whose imports bring nothing beyond the sessions that are there, the rows of every session are within its
last sequence, and no commit is refused for a sequence that is taken. -/
theorem reimports_settled (E : Environment) (events : List (CatalogEvent E.Digest))
    (within : ∀ k (bound : k < events.length), ImportsWithin (catalogAt E events k) events[k]) :
    ∀ k, k ≤ events.length → Settled E (catalogAt E events k).database := by
  intro k bound
  have empty : Mirrored (Database.empty E.Digest) ∧ Bounded E (Database.empty E.Digest) :=
    ⟨(Reachable.mirrored (E := E) .refl), ⟨List.forall_mem_nil _, List.forall_mem_nil _⟩⟩
  have kept : ∀ catalog event, Mirrored catalog.database ∧ Bounded E catalog.database → ImportsWithin catalog event →
      Mirrored (catalogStep E catalog event).database ∧ Bounded E (catalogStep E catalog event).database :=
    fun _ _ => catalogStep_bounded
  have throughout := @invariant_of_steps _ _ _ _ _ (fun catalog => Mirrored catalog.database ∧ Bounded E catalog.database) _
    empty kept within k bound
  exact throughout.2.settled

/-! ## A file that its program goes on writing -/

/-- A later version keeps the cards and events of an earlier one, and its sessions go on. -/
structure LegacyDatabase.Extends {D : Type} (newer older : LegacyDatabase D) : Prop where
  threads : ∀ row ∈ older.threads.rows, ∃ thread, newer.threads.get? row.1 = some thread ∧
    row.2.revision ≤ thread.revision ∧ row.2.lastSeq ≤ thread.lastSeq
  cards : (older.conversationOutbox.getD older.threadTranscript).rows <+:
    (newer.conversationOutbox.getD newer.threadTranscript).rows
  events : older.threadEvents.rows <+: newer.threadEvents.rows

def CatalogEvent.import? {D : Type} : CatalogEvent D → Option (String × LegacyVersion D)
  | .imported version _ sourcePath _ _ _ => some (sourcePath, version)
  | .called _ => none

/-- All imports are of one path, and each version extends those before it. -/
def Successive {D : Type} (events : List (CatalogEvent D)) : Prop :=
  (events.filterMap CatalogEvent.import?).Pairwise fun earlier later =>
    later.1 = earlier.1 ∧ later.2.legacy.Extends earlier.2.legacy

/-- A completed session, which its program then compacts. -/
def earlierRun : List Operation := sampleRun [(1, 1, .complete "done" ⟨"done", [], []⟩)]

def compaction (command : Nat) (source : String) : SessionCommitRequest :=
  sampleRequest command 2 2 (.appendTranscript source .compactSummary "summary" none)

def laterRun : List Operation := earlierRun ++ [
  .acquireLease (sessionLeaseScope sampleSession) "engine" none 10 100,
  .commit (compaction 5 "later") ⟨sessionLeaseScope sampleSession, "engine", 2, 110⟩ 11]

def earlierFile : LegacyDatabase plain.Digest := legacyLayout (runOf plain earlierRun)

def laterFile : LegacyDatabase plain.Digest := legacyLayout (runOf plain laterRun)

/-- The rows of a file that `Consistent` is about, one by one. -/
theorem consistent_of_rows {D : Type} {legacy : LegacyDatabase D}
    (runs : ∀ row ∈ legacy.runs.rows, row.2.state.turnId = row.1 ∧ row.2.status = row.2.state.status ∧
      row.2.revision = row.2.state.revision)
    (cards : ∀ row ∈ (legacy.conversationOutbox.getD legacy.threadTranscript).rows,
      (legacy.threads.get? row.1.1).any (fun thread => decide (row.1.2 ≤ thread.lastSeq)) = true)
    (events : ∀ row ∈ legacy.threadEvents.rows,
      (legacy.threads.get? row.1.1).any (fun thread => decide (row.1.2 ≤ thread.lastSeq)) = true) :
    legacy.Consistent := by
  have owned : ∀ {owner : SessionId} {n : Nat},
      (legacy.threads.get? owner).any (fun thread => decide (n ≤ thread.lastSeq)) = true →
        ∃ thread, legacy.threads.get? owner = some thread ∧ n ≤ thread.lastSeq := by
    intro owner n some
    obtain ⟨thread, found, bound⟩ := (Option.any_eq_true _ _).mp some
    exact ⟨thread, found, of_decide_eq_true bound⟩
  exact ⟨fun turnId run found => (runs _ (mem_of_get? _ found)).1,
    fun turnId run found => (runs _ (mem_of_get? _ found)).2.1,
    fun turnId run found => (runs _ (mem_of_get? _ found)).2.2,
    fun key row found => owned (cards _ (mem_of_get? _ found)),
    fun key row found => owned (events _ (mem_of_get? _ found))⟩

theorem within_of_rows {D : Type} {db : Database D} {legacy : LegacyDatabase D}
    (cards : ∀ row ∈ (legacy.conversationOutbox.getD legacy.threadTranscript).rows,
      (db.sessions.get? row.1.1).all (fun session => decide (row.1.2 ≤ session.lastSeq)) = true)
    (events : ∀ row ∈ legacy.threadEvents.rows,
      (db.sessions.get? row.1.1).all (fun session => decide (row.1.2 ≤ session.lastSeq)) = true) : Within db legacy := by
  constructor
  · intro key row session found _ _ here
    have bound := cards _ (mem_of_get? _ found)
    rw [here] at bound
    exact of_decide_eq_true bound
  · intro key row session found _ here
    have bound := events _ (mem_of_get? _ found)
    rw [here] at bound
    exact of_decide_eq_true bound

def earlierVersion : LegacyVersion plain.Digest where
  legacy := earlierFile
  consistent := consistent_of_rows (by decide +kernel) (by decide +kernel) (by decide +kernel)

def laterVersion : LegacyVersion plain.Digest where
  legacy := laterFile
  consistent := consistent_of_rows (by decide +kernel) (by decide +kernel) (by decide +kernel)

theorem laterFile_extends : laterFile.Extends earlierFile := by
  constructor
  · have sessions : ∀ row ∈ earlierFile.threads.rows, (laterFile.threads.get? row.1).any (fun thread =>
        decide (row.2.revision ≤ thread.revision) && decide (row.2.lastSeq ≤ thread.lastSeq)) = true := by
      decide +kernel
    intro row listed
    obtain ⟨thread, found, further⟩ := (Option.any_eq_true _ _).mp (sessions row listed)
    rw [Bool.and_eq_true, decide_eq_true_eq, decide_eq_true_eq] at further
    exact ⟨thread, found, further⟩
  · exact ⟨_, rfl⟩
  · exact ⟨_, rfl⟩

def importOf (version : LegacyVersion plain.Digest) (fingerprint : String) (now : Nat) : CatalogEvent plain.Digest :=
  .imported version false "/old/catalog.db" fingerprint "/workspace" now

/-- The same rows under a new fingerprint, then a compaction of the imported session. -/
theorem reimports_settled_same : Settled plain (catalogAt plain [importOf earlierVersion "f" 50,
    importOf earlierVersion "g" 60, .called (.acquireLease (sessionLeaseScope sampleSession) "engine" none 70 100),
    .called (.commit (compaction 6 "next") sampleLease 71)] 4).database := by
  refine reimports_settled plain _ ?_ 4 (Nat.le_refl _)
  intro k bound
  match k, bound with
  | 0, _ => exact fun _ => within_of_rows (by decide +kernel) (by decide +kernel)
  | 1, _ => exact fun _ => within_of_rows (by decide +kernel) (by decide +kernel)
  | 2, _ => trivial
  | 3, _ => trivial

/-- The compaction of the file is imported beyond the last sequence of the session, whose next commit is refused. -/
theorem reimport_taken : ¬ ∀ (E : Environment) (events : List (CatalogEvent E.Digest)), Successive events →
    ∀ k, k ≤ events.length → Settled E (catalogAt E events k).database := by
  intro claim
  have successive : Successive [importOf earlierVersion "f" 50, importOf laterVersion "g" 60,
      .called (.acquireLease (sessionLeaseScope sampleSession) "engine" none 70 100)] :=
    List.pairwise_pair.mpr ⟨rfl, laterFile_extends⟩
  have settled := claim plain _ successive 3 (Nat.le_refl _)
  have refused : (commitSessionTurnUpdate plain (compaction 6 "next") ⟨sessionLeaseScope sampleSession, "engine", 1, 170⟩ 71
      (catalogAt plain [importOf earlierVersion "f" 50, importOf laterVersion "g" 60,
        .called (.acquireLease (sessionLeaseScope sampleSession) "engine" none 70 100)] 3).database).map (fun _ => ()) =
      .error takenCard := by
    decide +kernel
  exact (settled.commits _ _ _ takenCard (map_error.mp refused)).1 rfl

end LatteCode.Storage
