import LatteCode.Storage.Reach
/- The event log of a session, and the transcript entries that it announces. -/

namespace LatteCode.Storage
open Keyed Outcome Numbered Relation Runs

variable {E : Environment} {db middle db' : E.Db} {sessionId : SessionId}

/-- The transcript entries of a session that a call inserts, in the order of their rows. -/
def appendedEntries (db db' : E.Db) (sessionId : SessionId) : List TranscriptEntry :=
  ((Table.inserted db.conversationOutbox db'.conversationOutbox).filter fun row => row.1.1 = sessionId).map
    fun row => row.2.entry

/-- The outbox grows, and `cards` are what it gains for one session. -/
def OutboxGrown (db db' : E.Db) (sessionId : SessionId) (cards : List TranscriptEntry) : Prop :=
  ∃ new, db'.conversationOutbox.rows = db.conversationOutbox.rows ++ new ∧
    new.filter (fun row => row.1.1 = sessionId) = cards.map (outboxRow sessionId)

namespace OutboxGrown

theorem same (outbox : db'.conversationOutbox = db.conversationOutbox) : OutboxGrown db db' sessionId [] :=
  ⟨[], by rw [outbox, List.append_nil], rfl⟩

theorem own {cards : List TranscriptEntry} (outbox : db'.conversationOutbox.rows =
    db.conversationOutbox.rows ++ cards.map (outboxRow sessionId)) : OutboxGrown db db' sessionId cards := by
  refine ⟨_, outbox, ?_⟩
  rw [List.filter_eq_self]
  intro row member
  obtain ⟨card, _, rfl⟩ := List.mem_map.mp member
  exact decide_eq_true rfl

theorem other {owner : SessionId} {cards : List TranscriptEntry} (differs : sessionId ≠ owner)
    (outbox : db'.conversationOutbox.rows = db.conversationOutbox.rows ++ cards.map (outboxRow owner)) :
    OutboxGrown db db' sessionId [] := by
  refine ⟨_, outbox, ?_⟩
  rw [List.map_nil, List.filter_eq_nil_iff]
  intro row member
  obtain ⟨card, _, rfl⟩ := List.mem_map.mp member
  exact fun here => differs (of_decide_eq_true here).symm

theorem trans {cards more : List TranscriptEntry} (first : OutboxGrown db middle sessionId cards)
    (second : OutboxGrown middle db' sessionId more) : OutboxGrown db db' sessionId (cards ++ more) := by
  obtain ⟨new, rows, mine⟩ := first
  obtain ⟨later, moreRows, moreMine⟩ := second
  refine ⟨new ++ later, ?_, ?_⟩
  · rw [moreRows, rows, List.append_assoc]
  · rw [List.filter_append, List.map_append, mine, moreMine]

theorem entries {cards : List TranscriptEntry} (grown : OutboxGrown db db' sessionId cards) :
    appendedEntries db db' sessionId = cards := by
  obtain ⟨new, rows, mine⟩ := grown
  rw [appendedEntries, Table.inserted_append rows, mine, List.map_map]
  exact List.map_id _

end OutboxGrown

/-! ## What a change does to the logs -/

/-- The row of a session whose log starts after `base`. -/
def unlogged (session : SessionRow) (base : Nat) : SessionRow := { session with revision := 0, lastSeq := base }

/-- A change touches the log of one session at most. -/
inductive LogChange (db db' : E.Db) : Prop
  | quiet (sessions : ∀ key, (db'.sessions.get? key).map logKey = (db.sessions.get? key).map logKey)
      (events : db'.sessionEvents = db.sessionEvents)
      (outbox : db'.conversationOutbox = db.conversationOutbox)
  | moved {owner : SessionId} {session session' : SessionRow} {rows : List SessionEventRow}
      {cards : List TranscriptEntry} (found : db.sessions.get? owner = some session)
      (sessions : ∀ key, db'.sessions.get? key = if key = owner then some session' else db.sessions.get? key)
      (logged : SessionLogged db.sessionEvents db'.sessionEvents owner session session' rows cards)
      (outbox : db'.conversationOutbox.rows = db.conversationOutbox.rows ++ cards.map (outboxRow owner))
      (ranged : ∀ card ∈ cards, card.sequence < 2 ^ 63)
  | born {owner : SessionId} {session' : SessionRow} {base : Nat} {rows : List SessionEventRow}
      {cards : List TranscriptEntry} (fresh : db.sessions.get? owner = none)
      (sessions : ∀ key, db'.sessions.get? key = if key = owner then some session' else db.sessions.get? key)
      (logged : SessionLogged db.sessionEvents db'.sessionEvents owner (unlogged session' base) session' rows [])
      (outbox : db'.conversationOutbox.rows = db.conversationOutbox.rows ++ cards.map (outboxRow owner))
      (ranged : ∀ card ∈ cards, card.sequence < 2 ^ 63)

theorem Forked.logged {source fork : SessionId} {history : List TranscriptEntry} {title : Option String}
    {now : Nat} {row : SessionRow} (done : Forked E source fork history title now db db' row) :
    SessionLogged db.sessionEvents db'.sessionEvents fork
      (unlogged (forkedSession E source row history title now)
        ((history.getLast?.map TranscriptEntry.sequence).getD 0))
      (forkedSession E source row history title now) [] [] := by
  have events : db'.sessionEvents = db.sessionEvents := by rw [done.frame]
  rw [events]
  exact SessionLogged.nil (by simp only [logKey, unlogged, forkedSession])

theorem Housekeeping.log_change (change : Housekeeping E db db') : LogChange db db' := by
  cases change with
  | interrupted done => exact .moved done.foundSession done.sessions done.logged done.outbox done.ranged
  | retired done =>
      rw [done.result]
      exact .quiet (fun _ => rfl) rfl rfl
  | quiesced done =>
      rw [done.result]
      exact .quiet (fun _ => rfl) rfl rfl
  | released freed done =>
      subst done
      exact .quiet (fun _ => rfl) rfl rfl

theorem Committed.log_change {request : SessionCommitRequest} {lease : Lease} {now : Nat}
    {session session' : SessionRow} {turn row : TurnRow} {draft : Draft} {mid : E.Db} {states : List TurnState}
    {cards : List TranscriptEntry} {response : SessionCommitResponse}
    (done : Committed E request lease now db db' session session' turn row draft mid states cards response) :
    LogChange db db' := by
  obtain ⟨rows, logged⟩ := done.logged
  exact .moved done.admitted.foundSession done.sessions logged done.outbox done.ranged

theorem Created.log_change {args : CreateSession} {lease : Option Lease} {now : Nat} {state : TurnState}
    {rows : List SessionEventRow} {snapshot : SessionSnapshot}
    (done : Created E args lease now db db' state rows snapshot) : LogChange db db' := by
  have outbox := done.outbox
  have first : (createCard E args now).sequence < 2 ^ 63 := by
    change 1 < 2 ^ 63
    decide
  rw [← List.map_singleton (f := outboxRow _)] at outbox
  exact .born done.freshSession done.sessions done.logged outbox (List.forall_mem_singleton.mpr first)

theorem FollowedUp.log_change {args : FollowUp} {lease : Option Lease} {now : Nat} {session session' : SessionRow}
    {state : TurnState} {rows : List SessionEventRow} {snapshot : SessionSnapshot}
    (done : FollowedUp E args lease now db db' session session' state rows snapshot) : LogChange db db' :=
  .moved done.foundSession done.sessions done.logged done.outbox (List.forall_mem_singleton.mpr done.ranged)

theorem Switched.log_change {binding : SessionProviderBinding} {now : Nat} {session : SessionRow}
    {rows : List SessionEventRow} (done : Switched E sessionId binding now db db' session rows) : LogChange db db' :=
  .moved done.foundSession done.sessions done.logged done.outbox (List.forall_mem_singleton.mpr done.ranged)

theorem Forked.log_change {source fork : SessionId} {history : List TranscriptEntry} {title : Option String}
    {now : Nat} {row : SessionRow} (done : Forked E source fork history title now db db' row) : LogChange db db' := by
  have outbox := done.outbox
  rw [← Function.comp_def (outboxRow _), ← List.map_map] at outbox
  exact .born done.freshSession done.sessions done.logged outbox (List.forall_mem_map.mpr done.ranged)

/-- Every change but an acknowledgement only adds to the outbox. -/
theorem Change.log_change (change : Change E db db') :
    LogChange db db' ∨ ∃ drained, db' = { db with
      conversationOutbox := db.conversationOutbox.deleteWhere drained } := by
  cases change with
  | committed done => exact .inl done.log_change
  | other done =>
      cases done with
      | created done => exact .inl done.log_change
      | followedUp done => exact .inl done.log_change
      | switched done => exact .inl done.log_change
      | forked done => exact .inl done.log_change
      | interrupted done => exact .inl (Housekeeping.interrupted done).log_change
      | retired done => exact .inl (Housekeeping.retired done).log_change
      | quiesced done => exact .inl (Housekeeping.quiesced done).log_change
      | released freed done => exact .inl (Housekeeping.released freed done).log_change
      | acquired done =>
          rw [done.frame]
          exact .inl (.quiet (fun _ => rfl) rfl rfl)
      | renamed sessionId title done =>
          subst done
          refine .inl (.quiet ?_ rfl rfl)
          intro key
          rw [Table.get?_modify]
          split
          · rw [Option.map_map]
            rfl
          · rfl
      | acknowledged drained done => exact .inr ⟨drained, done⟩
      | renewed _ _ done | evidenced _ done | aliased _ _ _ _ _ _ done | runCreated _ _ _ _ _ done =>
          subst done
          exact .inl (.quiet (fun _ => rfl) rfl rfl)

/-- An existing session: its log moves along `rows`, and the outbox gains what they announce. -/
structure SessionMoved (db db' : E.Db) (sessionId : SessionId) (session session' : SessionRow)
    (rows : List SessionEventRow) (cards : List TranscriptEntry) : Prop where
  after : db'.sessions.get? sessionId = some session'
  logged : LogMoved (stream db.sessionEvents sessionId) (stream db'.sessionEvents sessionId) session session'
    rows cards
  outbox : OutboxGrown db db' sessionId cards

theorem SessionMoved.trans {one two three : SessionRow} {rows more : List SessionEventRow}
    {cards others : List TranscriptEntry} (first : SessionMoved db middle sessionId one two rows cards)
    (second : SessionMoved middle db' sessionId two three more others) :
    SessionMoved db db' sessionId one three (rows ++ more) (cards ++ others) :=
  ⟨second.after, first.logged.append second.logged, first.outbox.trans second.outbox⟩

theorem SessionMoved.kept {session session' : SessionRow} (after : db'.sessions.get? sessionId = some session')
    (same : logKey session' = logKey session)
    (events : stream db'.sessionEvents sessionId = stream db.sessionEvents sessionId)
    (outbox : OutboxGrown db db' sessionId []) : SessionMoved db db' sessionId session session' [] [] := by
  refine ⟨after, ?_, outbox⟩
  rw [events]
  exact .nil same

theorem LogChange.existing (change : LogChange db db') {session : SessionRow}
    (found : db.sessions.get? sessionId = some session) :
    ∃ session' rows cards, SessionMoved db db' sessionId session session' rows cards := by
  cases change with
  | quiet sessions events outbox =>
      have mapped := sessions sessionId
      rw [found, Option.map_some] at mapped
      obtain ⟨session', after, same⟩ := Option.map_eq_some_iff.mp mapped
      exact ⟨session', [], [], .kept after same (by rw [events]) (.same outbox)⟩
  | @moved owner _ session' rows cards held sessions logged outbox =>
      have after := sessions sessionId
      by_cases here : sessionId = owner
      · subst here
        rw [if_pos rfl] at after
        rw [found, Option.some.injEq] at held
        subst held
        exact ⟨session', rows, cards, after, logged.moved, .own outbox⟩
      · rw [if_neg here, found] at after
        exact ⟨session, [], [], .kept after rfl (logged.other _ here) (.other here outbox)⟩
  | @born owner _ _ _ _ fresh sessions logged outbox =>
      have after := sessions sessionId
      have here : sessionId ≠ owner := by
        rintro rfl
        rw [fresh] at found
        cases found
      rw [if_neg here, found] at after
      exact ⟨session, [], [], .kept after rfl (logged.other _ here) (.other here outbox)⟩

/-- A session that does not exist: nothing is logged or inserted for it. -/
structure SessionAbsent (db db' : E.Db) (sessionId : SessionId) : Prop where
  before : db.sessions.get? sessionId = none
  events : stream db'.sessionEvents sessionId = stream db.sessionEvents sessionId
  outbox : OutboxGrown db db' sessionId []

theorem LogChange.absent (change : LogChange db db') (after : db'.sessions.get? sessionId = none) :
    SessionAbsent db db' sessionId := by
  cases change with
  | quiet sessions events outbox =>
      have mapped := sessions sessionId
      rw [after, Option.map_none] at mapped
      exact ⟨Option.map_eq_none_iff.mp mapped.symm, by rw [events], .same outbox⟩
  | @moved owner _ _ _ _ _ sessions logged outbox | @born owner _ _ _ _ _ sessions logged outbox =>
      rw [sessions] at after
      split at after
      case isTrue => cases after
      case isFalse here => exact ⟨after, logged.other _ here, .other here outbox⟩

theorem Housekeeping.path_existing (path : ReflTransGen (Housekeeping E) db db') {session : SessionRow}
    (found : db.sessions.get? sessionId = some session) :
    ∃ session' rows cards, SessionMoved db db' sessionId session session' rows cards := by
  induction path with
  | refl => exact ⟨session, [], [], .kept found rfl rfl (.same rfl)⟩
  | tail _ change ih =>
      obtain ⟨_, _, _, first⟩ := ih
      obtain ⟨_, _, _, second⟩ := change.log_change.existing first.after
      exact ⟨_, _, _, first.trans second⟩

theorem Housekeeping.path_absent (path : ReflTransGen (Housekeeping E) db db')
    (after : db'.sessions.get? sessionId = none) : SessionAbsent db db' sessionId := by
  induction path with
  | refl => exact ⟨after, rfl, .same rfl⟩
  | tail _ change ih =>
      have second := change.log_change.absent after
      have first := ih second.before
      exact ⟨first.before, second.events.trans first.events, first.outbox.trans second.outbox⟩

/-! ## Births -/

/-- The number after which the log of a session starts, if the call creates the session. -/
def birthBase : Operation → SessionId → Option Nat
  | .createSession args _ _, sessionId => if args.sessionId = sessionId then some 1 else none
  | .createFork _ fork history _ _, sessionId =>
      if fork = sessionId then some ((history.getLast?.map TranscriptEntry.sequence).getD 0) else none
  | _, _ => none

/-- A session created by a call: its log starts after `base`, and its first entries stand below. -/
structure SessionBorn (op : Operation) (db db' : E.Db) (sessionId : SessionId) (session : SessionRow)
    (base : Nat) (rows : List SessionEventRow) (cards : List TranscriptEntry) : Prop where
  creates : birthBase op sessionId = some base
  before : db.sessions.get? sessionId = none
  logged : LogMoved (stream db.sessionEvents sessionId) (stream db'.sessionEvents sessionId)
    (unlogged session base) session rows []
  outbox : OutboxGrown db db' sessionId cards
  places : ∀ card ∈ cards, 0 < card.sequence ∧ card.sequence ≤ base
  climbing : cards.Pairwise fun first second => first.sequence < second.sequence

theorem Created.born {args : CreateSession} {lease : Option Lease} {now : Nat} {state : TurnState}
    {rows : List SessionEventRow} {snapshot : SessionSnapshot}
    (done : Created E args lease now db db' state rows snapshot) :
    SessionBorn (.createSession args lease now) db db' args.sessionId (createdSession E args lease now) 1 rows
      [createCard E args now] := by
  refine ⟨if_pos rfl, done.freshSession, done.logged.moved, .own done.outbox, ?_, List.pairwise_singleton _ _⟩
  intro card member
  rw [List.mem_singleton] at member
  subst member
  exact ⟨Nat.one_pos, Nat.le_refl 1⟩

theorem Forked.born {source fork : SessionId} {history : List TranscriptEntry} {title : Option String}
    {now : Nat} {row : SessionRow} (done : Forked E source fork history title now db db' row) :
    SessionBorn (.createFork source fork history title now) db db' fork
      (forkedSession E source row history title now) ((history.getLast?.map TranscriptEntry.sequence).getD 0) []
      (history.map (forkEntry E source fork)) := by
  refine ⟨if_pos rfl, done.freshSession, done.logged.moved, .own ?_, ?_, ?_⟩
  · rw [List.map_map]
    exact done.outbox
  · intro card member
    obtain ⟨entry, held, rfl⟩ := List.mem_map.mp member
    exact ⟨done.positive entry held, climbing_le_last done.climbing entry held⟩
  · exact List.pairwise_map.mpr done.climbing

/-- A rewritten session row leaves absent what was absent. -/
theorem absent_of_moved {owner : SessionId} {session session' : SessionRow}
    (found : db.sessions.get? owner = some session)
    (sessions : ∀ key, db'.sessions.get? key = if key = owner then some session' else db.sessions.get? key)
    (before : db.sessions.get? sessionId = none) : db'.sessions.get? sessionId = none := by
  rw [sessions, if_neg]
  · exact before
  · rintro rfl
    rw [before] at found
    cases found

theorem Housekeeping.path_keeps_absent (path : ReflTransGen (Housekeeping E) db db')
    (before : db.sessions.get? sessionId = none) : db'.sessions.get? sessionId = none := by
  induction path with
  | refl => exact before
  | tail _ change ih =>
      cases change with
      | interrupted done => exact absent_of_moved done.foundSession done.sessions ih
      | retired done =>
          rw [done.result]
          exact ih
      | quiesced done =>
          rw [done.result]
          exact ih
      | released freed done =>
          subst done
          exact ih

/-- Only a create or a fork of this session makes it exist. -/
theorem exec_born {op : Operation} {reply : Reply} (mirrored : Mirrored db)
    (result : exec E db op = .ok (reply, db')) (before : db.sessions.get? sessionId = none)
    {session : SessionRow} (after : db'.sessions.get? sessionId = some session) :
    ∃ base rows cards, SessionBorn op db db' sessionId session base rows cards := by
  have never : db'.sessions.get? sessionId ≠ none := by
    rw [after]
    exact Option.some_ne_none session
  have kept : db'.sessions = db.sessions → False := fun same => never (same ▸ before)
  cases op with
  | createSession args lease now =>
      simp only [exec, map_ok, Prod.mk.injEq] at result
      obtain ⟨⟨⟨outcome, event⟩, _⟩, created, _, rfl⟩ := result
      rcases (createSessionV2Inner_ok created).2 with ⟨_, _, _, rfl⟩ | ⟨_, _, _, _, _, done⟩
      · exact (kept rfl).elim
      · rw [done.sessions] at after
        split at after
        case isTrue here =>
          cases after
          subst here
          exact ⟨_, _, _, done.born⟩
        case isFalse =>
          rw [before] at after
          cases after
  | createFork source fork history title now =>
      simp only [exec, map_ok, Prod.mk.injEq] at result
      obtain ⟨⟨_, _⟩, forked, _, rfl⟩ := result
      obtain ⟨_, done⟩ := createSessionFork_ok forked
      rw [done.sessions] at after
      split at after
      case isTrue here =>
        cases after
        subst here
        exact ⟨_, _, _, done.born⟩
      case isFalse =>
        rw [before] at after
        cases after
  | createFollowUp args lease now =>
      simp only [exec, map_ok, Prod.mk.injEq] at result
      obtain ⟨⟨⟨outcome, event⟩, _⟩, created, _, rfl⟩ := result
      rcases (createSessionFollowUpV2Inner_ok created).2 with ⟨_, _, _, rfl⟩ | ⟨_, _, _, _, _, _, _, done⟩
      · exact (kept rfl).elim
      · exact absurd (absent_of_moved done.foundSession done.sessions before) never
  | switchBinding sessionId expected binding lease now =>
      simp only [exec, map_ok, Prod.mk.injEq] at result
      obtain ⟨⟨_, _⟩, switched, _, rfl⟩ := result
      obtain ⟨_, _, _, _, done⟩ := switchSessionBindingV2_ok switched
      exact absurd (absent_of_moved done.foundSession done.sessions before) never
  | commit request lease now =>
      simp only [exec, map_ok, Prod.mk.injEq] at result
      obtain ⟨⟨response, _⟩, committed, rfl, rfl⟩ := result
      rcases (commitSessionTurnUpdate_ok mirrored committed).2 with
        ⟨_, _, _, _, rfl⟩ | ⟨_, _, _, _, _, rfl⟩ | ⟨_, _, _, _, _, _, _, _, done⟩
      · exact (kept rfl).elim
      · exact (kept rfl).elim
      · exact absurd (absent_of_moved done.admitted.foundSession done.sessions before) never
  | recoverLeaseLoss _ turnId lease expected now =>
      simp only [exec, map_ok, Prod.mk.injEq] at result
      obtain ⟨⟨_, _⟩, recovered, _, rfl⟩ := result
      have path := Recovery.path_housekeeping (recoverSessionAfterLeaseLoss_path mirrored recovered)
      exact absurd (Housekeeping.path_keeps_absent path before) never
  | recoverAt now =>
      simp only [exec, map_ok, Prod.mk.injEq] at result
      obtain ⟨⟨_, _⟩, recovered, _, rfl⟩ := result
      have path := Recovery.path_housekeeping (recoverAt_path mirrored recovered)
      exact absurd (Housekeeping.path_keeps_absent path before) never
  | releaseLease lease wallNow =>
      simp only [exec, map_ok, Prod.mk.injEq] at result
      obtain ⟨⟨_, _⟩, released, _, rfl⟩ := result
      exact absurd (Housekeeping.path_keeps_absent (releaseLease_path mirrored released) before) never
  | acquireLease scope owner turnId now ttl =>
      simp only [exec, map_ok, Prod.mk.injEq] at result
      obtain ⟨⟨_, _⟩, acquired, _, rfl⟩ := result
      exact (kept (by rw [(acquireScopedLease_ok acquired).frame])).elim
  | renewLease lease now ttl =>
      simp only [exec, map_ok, Prod.mk.injEq] at result
      obtain ⟨⟨_, _⟩, renewed, _, rfl⟩ := result
      exact (kept (by rw [(renewLease_ok renewed).2.2])).elim
  | renameSession owner title =>
      simp only [exec, renameSession, map_ok, bind_ok, ensure_ok, Except.ok.injEq, Prod.mk.injEq] at result
      obtain ⟨⟨_, _⟩, ⟨_, _, _, _, _, rfl⟩, _, rfl⟩ := result
      refine absurd ?_ never
      simp only [Table.get?_modify, before, Option.map_none, ite_self]
  | acknowledgeOutbox _ through =>
      simp only [exec, acknowledgeConversationOutbox, map_ok, bind_ok, toI64s_ok, Except.ok.injEq,
        Prod.mk.injEq] at result
      obtain ⟨⟨_, _⟩, ⟨_, _, _, rfl⟩, _, rfl⟩ := result
      exact (kept rfl).elim
  | recordEvidence turnId expected lease evidence now =>
      simp only [exec, recordVerificationEvidence, map_ok, bind_ok, toI64s_ok, unique_ok, Except.ok.injEq,
        Prod.mk.injEq] at result
      obtain ⟨⟨_, _⟩, ⟨_, _, _, _, _, _, _, _, _, _, _, _, _, rfl⟩, _, rfl⟩ := result
      exact (kept rfl).elim
  | createRun state now baseline =>
      simp only [exec, createRunWithBaseline, map_ok, bind_ok, toI64s_ok, unique_ok, Except.ok.injEq,
        Prod.mk.injEq] at result
      obtain ⟨⟨_, _⟩, ⟨_, _, _, fresh, _, freshModel, _, _, _, rfl⟩, _, rfl⟩ := result
      exact (kept rfl).elim

/-- What a call does to one session. -/
inductive SessionStep (op : Operation) (db db' : E.Db) (sessionId : SessionId) : Prop
  | absent (before : db.sessions.get? sessionId = none) (after : db'.sessions.get? sessionId = none)
      (events : stream db'.sessionEvents sessionId = stream db.sessionEvents sessionId)
      (entries : appendedEntries db db' sessionId = [])
  | moved {session session' : SessionRow} {rows : List SessionEventRow} {cards : List TranscriptEntry}
      (before : db.sessions.get? sessionId = some session) (after : db'.sessions.get? sessionId = some session')
      (logged : LogMoved (stream db.sessionEvents sessionId) (stream db'.sessionEvents sessionId)
        session session' rows cards)
      (entries : appendedEntries db db' sessionId = cards)
  | born {session : SessionRow} {base : Nat} {rows : List SessionEventRow} {cards : List TranscriptEntry}
      (after : db'.sessions.get? sessionId = some session)
      (done : SessionBorn op db db' sessionId session base rows cards)
      (entries : appendedEntries db db' sessionId = cards)

/-- Acknowledging entries inserts none. -/
theorem drained_entries {drained : SessionId × Nat → OutboxRow → Bool}
    (done : db' = { db with conversationOutbox := db.conversationOutbox.deleteWhere drained }) :
    appendedEntries db db' sessionId = [] := by
  rw [done, appendedEntries, Table.inserted_deleteWhere]
  rfl

theorem step_session (reached : Reachable E db) (op : Operation) (sessionId : SessionId) :
    SessionStep op db (step E db op) sessionId := by
  cases before : db.sessions.get? sessionId with
  | some session =>
      have moved : ∀ {session' : SessionRow} {rows : List SessionEventRow} {cards : List TranscriptEntry},
          SessionMoved db (step E db op) sessionId session session' rows cards →
            SessionStep op db (step E db op) sessionId := fun done =>
        .moved before done.after done.logged done.outbox.entries
      rcases step_change reached op with change | path
      · rcases change.log_change with change | ⟨drained, same⟩
        · obtain ⟨_, _, _, done⟩ := change.existing before
          exact moved done
        · exact .moved before (by rw [same]; exact before) (by rw [same]; exact .nil rfl) (drained_entries same)
      · obtain ⟨_, _, _, done⟩ := Housekeeping.path_existing path before
        exact moved done
  | none =>
      cases after : (step E db op).sessions.get? sessionId with
      | some session =>
          cases result : exec E db op with
          | error e =>
              rw [step, result, before] at after
              cases after
          | ok value =>
              obtain ⟨reply, db'⟩ := value
              have stepped : step E db op = db' := by rw [step, result]
              rw [stepped] at after ⊢
              obtain ⟨_, _, _, done⟩ := exec_born reached.mirrored result before after
              exact .born after done done.outbox.entries
      | none =>
          rcases step_change reached op with change | path
          · rcases change.log_change with change | ⟨drained, same⟩
            · have none := change.absent after
              exact .absent before after none.events none.outbox.entries
            · exact .absent before after (by rw [same]) (drained_entries same)
          · have none := Housekeeping.path_absent path after
            exact .absent before after none.events none.outbox.entries

/-! ## The log of every session -/

/-- The log of a session that started after `base`. -/
structure SessionLog (log : Nat → Option SessionEventRow) (base : Nat) (session : SessionRow) : Prop where
  order : base ≤ session.lastSeq
  full : Contiguous log base session.lastSeq
  ordered : Ordered log SessionEventRow.revision session.revision
  last : ∀ row, log session.lastSeq = some row → row.revision = session.revision

theorem SessionLog.empty {log : Nat → Option SessionEventRow} {base : Nat} {session : SessionRow}
    (none : ∀ n, log n = none) : SessionLog log base (unlogged session base) := by
  refine ⟨Nat.le_refl base, .empty none, .empty none, ?_⟩
  intro row found
  rw [none] at found
  cases found

theorem SessionLog.moved {log log' : Nat → Option SessionEventRow} {base : Nat} {session session' : SessionRow}
    {rows : List SessionEventRow} {cards : List TranscriptEntry} (held : SessionLog log base session)
    (done : LogMoved log log' session session' rows cards) : SessionLog log' base session' := by
  have full := held.full.append held.order done.events
  rw [← done.lastSeq] at full
  refine ⟨?_, full, held.ordered.append held.full done.events done.raise done.revisions done.ordered, ?_⟩
  · rw [done.lastSeq]
    exact Nat.le_trans held.order (Nat.le_add_right _ _)
  · intro row found
    rw [done.lastSeq] at found
    rcases done.events.only _ _ found with old | ⟨i, bound, place, rfl⟩
    · -- nothing stood past the end of the log, so nothing was added to it
      have inside := ((held.full _).mp (Option.isSome_iff_exists.mpr ⟨row, old⟩)).2
      have none : rows = [] := List.eq_nil_of_length_eq_zero (by omega)
      rw [none] at old
      rw [done.settled none]
      exact held.last row old
    · have ending : rows.getLast? = some rows[i] := by
        rw [List.getLast?_eq_getElem?, show rows.length - 1 = i by omega, List.getElem?_eq_getElem bound]
      exact done.last _ ending

/-- The entries that call `j` of a run inserts for a session. -/
def appendedAt (E : Environment) (ops : List Operation) (sessionId : SessionId) (j : Nat) :
    List TranscriptEntry := appendedEntries (dbAt E ops j) (dbAt E ops (j + 1)) sessionId

/-- The event at the sequence of an entry announces it. -/
def Announced (log : Nat → Option SessionEventRow) (entry : TranscriptEntry) : Prop :=
  ∃ event, log entry.sequence = some event ∧ announces event.envelope.event = true

/-- The log of a session after `k` calls, which call `birth` started after `base`. -/
structure LogSince (E : Environment) (ops : List Operation) (sessionId : SessionId) (k birth base : Nat)
    (session : SessionRow) : Prop where
  earlier : birth < k
  creates : ∃ op, ops[birth]? = some op ∧ birthBase op sessionId = some base
  before : (dbAt E ops birth).sessions.get? sessionId = none
  log : SessionLog (stream (dbAt E ops k).sessionEvents sessionId) base session
  announced : ∀ j, birth < j → j < k → ∀ entry ∈ appendedAt E ops sessionId j,
    Announced (stream (dbAt E ops k).sessionEvents sessionId) entry

theorem session_step_at (ops : List Operation) (sessionId : SessionId) {k : Nat} (bound : k < ops.length) :
    SessionStep ops[k] (dbAt E ops k) (dbAt E ops (k + 1)) sessionId := by
  have stepped : step E (dbAt E ops k) ops[k] = dbAt E ops (k + 1) := (stateAt_succ bound).symm
  exact stepped ▸ step_session (reachable_dbAt ops k) ops[k] sessionId

theorem Announced.kept {log log' : Nat → Option SessionEventRow} {entry : TranscriptEntry}
    (kept : ∀ n row, log n = some row → log' n = some row) (held : Announced log entry) : Announced log' entry := by
  obtain ⟨event, told, announcing⟩ := held
  exact ⟨event, kept _ _ told, announcing⟩

/-- The entries of a stretch of the log are announced by its events. -/
theorem LogMoved.tells {log log' : Nat → Option SessionEventRow} {session session' : SessionRow}
    {rows : List SessionEventRow} {cards : List TranscriptEntry}
    (done : LogMoved log log' session session' rows cards) : ∀ card ∈ cards, Announced log' card := by
  intro card member
  obtain ⟨i, bound, place, tells⟩ := done.announced card member
  refine ⟨rows[i], ?_, tells⟩
  rw [place]
  exact done.events.added i bound

theorem LogSince.moved {ops : List Operation} {k birth base : Nat} {session session' : SessionRow}
    {rows : List SessionEventRow} {cards : List TranscriptEntry}
    (since : LogSince E ops sessionId k birth base session)
    (done : LogMoved (stream (dbAt E ops k).sessionEvents sessionId)
      (stream (dbAt E ops (k + 1)).sessionEvents sessionId) session session' rows cards)
    (entries : appendedAt E ops sessionId k = cards) :
    LogSince E ops sessionId (k + 1) birth base session' := by
  refine ⟨Nat.lt_succ_of_lt since.earlier, since.creates, since.before, since.log.moved done, ?_⟩
  intro j later order entry member
  rcases Nat.lt_or_eq_of_le (Nat.le_of_lt_succ order) with early | rfl
  · exact (since.announced j later early entry member).kept done.events.kept
  · rw [entries] at member
    exact done.tells entry member

/-- At every point of a run, a session has its log, and what does not exist has none. -/
theorem run_log_since (ops : List Operation) : ∀ k, k ≤ ops.length →
    ((dbAt E ops k).sessions.get? sessionId = none →
      ∀ n, stream (dbAt E ops k).sessionEvents sessionId n = none) ∧
    ∀ session, (dbAt E ops k).sessions.get? sessionId = some session →
      ∃ birth base, LogSince E ops sessionId k birth base session := by
  intro k
  induction k with
  | zero =>
      intro _
      rw [dbAt, stateAt_zero]
      refine ⟨fun _ _ => rfl, ?_⟩
      intro session impossible
      cases impossible
  | succ k ih =>
      intro bound
      obtain ⟨orphans, logs⟩ := ih (Nat.le_of_succ_le bound)
      cases session_step_at (E := E) ops sessionId bound with
      | absent before after events entries =>
          refine ⟨fun _ n => ?_, ?_⟩
          · rw [events]
            exact orphans before n
          · intro session found
            rw [after] at found
            cases found
      | moved before after logged entries =>
          refine ⟨fun none => ?_, ?_⟩
          · rw [after] at none
            cases none
          · intro session found
            rw [after, Option.some.injEq] at found
            subst found
            obtain ⟨birth, base, since⟩ := logs _ before
            exact ⟨birth, base, since.moved logged entries⟩
      | born after done entries =>
          refine ⟨fun none => ?_, ?_⟩
          · rw [after] at none
            cases none
          · intro session found
            rw [after, Option.some.injEq] at found
            subst found
            refine ⟨k, _, Nat.lt_succ_self k, ⟨_, List.getElem?_eq_getElem bound, done.creates⟩, done.before,
              (SessionLog.empty (orphans done.before)).moved done.logged, ?_⟩
            intro j later order
            exact absurd later (Nat.not_lt.mpr (Nat.le_of_lt_succ order))

/-- The last sequence in a database, or zero without the session. -/
def lastSeqOf (db : E.Db) (sessionId : SessionId) : Nat := (db.sessions.get? sessionId).elim 0 SessionRow.lastSeq

/-- The entries of a call stand above the last sequence before it, and within the last one after it. -/
theorem SessionStep.sequences {op : Operation} (taken : SessionStep op db db' sessionId) :
    lastSeqOf db sessionId ≤ lastSeqOf db' sessionId ∧
      (∀ entry ∈ appendedEntries db db' sessionId,
        lastSeqOf db sessionId < entry.sequence ∧ entry.sequence ≤ lastSeqOf db' sessionId) ∧
      (appendedEntries db db' sessionId).Pairwise fun first second => first.sequence < second.sequence := by
  cases taken with
  | absent before after _ entries =>
      rw [lastSeqOf, lastSeqOf, before, after, entries]
      exact ⟨Nat.le_refl _, List.forall_mem_nil _, .nil⟩
  | moved before after logged entries =>
      rw [lastSeqOf, lastSeqOf, before, after, Option.elim_some, Option.elim_some, logged.lastSeq, entries]
      refine ⟨Nat.le_add_right _ _, ?_, logged.climbing⟩
      intro entry member
      obtain ⟨i, inside, place, _⟩ := logged.announced entry member
      omega
  | born after done entries =>
      rw [lastSeqOf, lastSeqOf, done.before, after, Option.elim_none, Option.elim_some, done.logged.lastSeq, entries]
      refine ⟨Nat.zero_le _, ?_, done.climbing⟩
      intro entry member
      obtain ⟨positive, below⟩ := done.places entry member
      exact ⟨positive, Nat.le_trans below (Nat.le_add_right _ _)⟩

/-- The last sequence of a session, or zero while it does not exist. -/
def lastSeqAt (E : Environment) (ops : List Operation) (sessionId : SessionId) (k : Nat) : Nat :=
  ((dbAt E ops k).sessions.get? sessionId).elim 0 SessionRow.lastSeq

/-- The sequences of the entries that a run inserts climb, and stay within the session. -/
theorem run_entries_climb (ops : List Operation) (sessionId : SessionId) :
    (∀ entry ∈ (List.range ops.length).flatMap (appendedAt E ops sessionId),
      entry.sequence ≤ lastSeqAt E ops sessionId ops.length) ∧
    ((List.range ops.length).flatMap (appendedAt E ops sessionId)).Pairwise fun first second =>
      first.sequence < second.sequence :=
  climbing_flatMap (fun _ bound => (session_step_at ops sessionId bound).sequences.1)
    (fun _ bound => (session_step_at ops sessionId bound).sequences.2.1)
    fun _ bound => (session_step_at ops sessionId bound).sequences.2.2

/-- The log of a session as a run leaves it, from the call `birth` that created the session on. -/
structure SessionLogShown (E : Environment) (ops : List Operation) (sessionId : SessionId) (session : SessionRow)
    (birth base : Nat) : Prop where
  creates : ∃ op, ops[birth]? = some op ∧ birthBase op sessionId = some base
  before : (dbAt E ops birth).sessions.get? sessionId = none
  sequences : ∀ seq, ((runOf E ops).sessionEvents.get? (sessionId, seq)).isSome = true ↔
    base < seq ∧ seq ≤ session.lastSeq
  revisions : ∀ seq seq' event event', seq ≤ seq' →
    (runOf E ops).sessionEvents.get? (sessionId, seq) = some event →
      (runOf E ops).sessionEvents.get? (sessionId, seq') = some event' → event.revision ≤ event'.revision
  last : ∀ event, (runOf E ops).sessionEvents.get? (sessionId, session.lastSeq) = some event →
    event.revision = session.revision
  announced : ∀ j, birth < j → j < ops.length → ∀ entry ∈ appendedAt E ops sessionId j,
    ((runOf E ops).sessionEvents.select fun key event =>
      key = (sessionId, entry.sequence) && announces event.envelope.event).length = 1
  climbing : ((List.range ops.length).flatMap (appendedAt E ops sessionId)).Pairwise fun first second =>
    first.sequence < second.sequence
  below : ∀ entry ∈ (List.range ops.length).flatMap (appendedAt E ops sessionId),
    entry.sequence ≤ session.lastSeq

/-- In every run, the log of every session has no gap, and announces each entry once. -/
theorem run_session_log (ops : List Operation) (sessionId : SessionId) (session : SessionRow)
    (found : (runOf E ops).sessions.get? sessionId = some session) :
    ∃ birth base, SessionLogShown E ops sessionId session birth base := by
  have whole : dbAt E ops ops.length = runOf E ops := stateAt_length
  obtain ⟨birth, base, since⟩ := (run_log_since (E := E) ops ops.length (Nat.le_refl _)).2 session
    (by rw [whole]; exact found)
  obtain ⟨below, climbing⟩ := run_entries_climb (E := E) ops sessionId
  obtain ⟨_, creates, before, log, announced⟩ := since
  rw [lastSeqAt, whole, found, Option.elim_some] at below
  rw [whole] at log announced
  refine ⟨birth, base, creates, before, log.full, ?_, log.last, ?_, climbing, below⟩
  · intro seq seq' event event' order told told'
    exact log.ordered.ordered seq seq' event event' order told told'
  · intro j later order entry member
    obtain ⟨event, told, announcing⟩ := announced j later order entry member
    have only := Table.select_key _ (p := fun event => announces event.envelope.event) told announcing
    rw [only]
    rfl

/-- A session whose turn says one thing. -/
def spokenRun : List Operation := sampleRun [(1, 1, .appendTranscript "note" .assistant "text" none)]

theorem run_session_log_spoken : ∃ session birth base,
    (runOf plain spokenRun).sessions.get? sampleSession = some session ∧
      SessionLogShown plain spokenRun sampleSession session birth base := by
  have present : ((runOf plain spokenRun).sessions.get? sampleSession).isSome = true := by decide +kernel
  obtain ⟨session, found⟩ := Option.isSome_iff_exists.mp present
  obtain ⟨birth, base, shown⟩ := run_session_log spokenRun sampleSession session found
  exact ⟨session, birth, base, found, shown⟩

end LatteCode.Storage
