import LatteCode.Lib.Log
import LatteCode.Storage.Shape
/- What the row writers leave behind: the states of a turn, its rows and the log of its session. -/

namespace LatteCode.Storage
open Keyed Outcome Numbered

/-- The states that one transaction writes for a turn, oldest first. -/
inductive StatePath (current : TurnState) : TurnState → List TurnState → Prop
  | stay : StatePath current current []
  | one {next : TurnState} (revision : next.revision = current.revision + 1)
      (turnId : next.turnId = current.turnId) (coherent : current.Coherent → next.Coherent) :
      StatePath current next [next]
  | cancelled {cancelling next : TurnState}
      (first : current.transition current.revision .cancel = .ok cancelling)
      (second : cancelling.transition cancelling.revision .interrupt = .ok next) :
      StatePath current next [cancelling, next]

namespace StatePath

variable {current next : TurnState} {states : List TurnState}

theorem turnId (path : StatePath current next states) : next.turnId = current.turnId := by
  cases path with
  | stay => rfl
  | one _ same _ => exact same
  | cancelled first second =>
      exact (TurnState.transition_identity second).2.trans (TurnState.transition_identity first).2

theorem of_nil (path : StatePath current next []) : next = current := by
  generalize listed : ([] : List TurnState) = written at path
  cases path with
  | stay => rfl
  | one => cases listed
  | cancelled => cases listed

theorem revision (path : StatePath current next states) :
    next.revision = current.revision + states.length := by
  cases path with
  | stay => rfl
  | one revision _ _ => exact revision
  | cancelled first second =>
      rw [(TurnState.transition_identity second).1, (TurnState.transition_identity first).1]
      rfl

theorem coherent (path : StatePath current next states) (held : current.Coherent) : next.Coherent := by
  cases path with
  | stay => exact held
  | one _ _ keeps => exact keeps held
  | cancelled first second =>
      exact TurnState.transition_coherent (TurnState.transition_coherent held first) second

/-- The states carry the turn's id and consecutive revisions. -/
theorem states_getElem (path : StatePath current next states) (i : Nat) (bound : i < states.length) :
    states[i].turnId = current.turnId ∧ states[i].revision = current.revision + 1 + i := by
  cases path with
  | stay => exact absurd bound (Nat.not_lt_zero _)
  | one revision same _ =>
      have first : i = 0 := by simpa using bound
      subst first
      exact ⟨same, revision⟩
  | cancelled first second =>
      have one := TurnState.transition_identity first
      have two := TurnState.transition_identity second
      rcases i with _ | _ | i
      · exact ⟨one.2, one.1⟩
      · exact ⟨two.2.trans one.2, by rw [List.getElem_cons_succ, List.getElem_cons_zero, two.1, one.1]⟩
      · simp only [List.length_cons, List.length_nil] at bound
        omega

/-- Each state is the last one, or the cancelling state of an interruption. -/
theorem last_or_cancelling (path : StatePath current next states) (i : Nat) (bound : i < states.length) :
    states[i] = next ∨ (current.status.terminal = false ∧ next.status = .interrupted ∧
      states[i].revision = current.revision + 1 ∧ next.revision = states[i].revision + 1 ∧
      states[i].status = .cancelling ∧
      (current.Coherent → states[i].Coherent)) := by
  cases path with
  | stay => exact absurd bound (Nat.not_lt_zero _)
  | one =>
      have first : i = 0 := by simpa using bound
      subst first
      exact .inl rfl
  | cancelled first second =>
      rcases i with _ | _ | i
      · obtain ⟨alive, stopped⟩ := TurnState.transition_cancel first
        refine .inr ⟨alive, ?_, (TurnState.transition_identity first).1,
          (TurnState.transition_identity second).1, ?_, ?_⟩
        · rw [(TurnState.transition_interrupt second).2]
        · rw [List.getElem_cons_zero, stopped]
        · exact fun held => TurnState.transition_coherent held first
      · exact .inl rfl
      · simp only [List.length_cons, List.length_nil] at bound
        omega

/-- The last state written is the one the turn is left in. -/
theorem getLast? (path : StatePath current next states) (moved : states ≠ []) :
    states.getLast? = some next := by
  cases path with
  | stay => exact absurd rfl moved
  | one => rfl
  | cancelled => rfl

end StatePath

/-- Every advance of a turn is written as one of the two paths. -/
theorem Advances.linkedTurnStates {current next : TurnState} {states : List TurnState}
    (step : Advances current next) (chosen : linkedTurnStates current next = .ok states) :
    StatePath current next states ∧ states ≠ [] := by
  unfold Storage.linkedTurnStates at chosen
  cases step with
  | one revision turnId coherent =>
      rw [if_neg (by omega)] at chosen
      cases chosen
      exact ⟨.one revision turnId coherent, List.cons_ne_nil _ _⟩
  | cancel cancelling first second =>
      have one := (TurnState.transition_identity first).1
      have two := (TurnState.transition_identity second).1
      have interrupted : next.status = .interrupted :=
        congrArg TurnState.status (TurnState.transition_interrupt second).2
      rw [if_pos ⟨by omega, interrupted⟩] at chosen
      simp only [first, bind_ok, transitionOr_ok, Except.ok.injEq] at chosen
      obtain ⟨_, rfl, rfl⟩ := chosen
      exact ⟨.cancelled first second, List.cons_ne_nil _ _⟩

/-- The `events` row of a state. -/
def turnEventRow (now : Nat) (state : TurnState) : EventRow :=
  ⟨state.revision, turnEventEnvelope state, now⟩

variable {D : Type}

/-- A turn moved along `states`: its row, its read model and one event for each state. -/
structure TurnWritten (db db' : Database D) (turn row : TurnRow) (states : List TurnState) (now : Nat) :
    Prop where
  path : StatePath turn.state row.state states
  turns : ∀ key, db'.turns.get? key = if key = turn.state.turnId then some row else db.turns.get? key
  status : row.status = row.state.status
  revision : row.revision = row.state.revision
  lastSeq : row.lastSeq = turn.lastSeq + states.length
  readModel : ∀ key, db'.turnReadModel.get? key =
    if key = turn.state.turnId ∧ states ≠ [] then
      (db.turnReadModel.get? key).map fun _ => ⟨row.state.revision, row.lastSeq, row.state⟩
    else db.turnReadModel.get? key
  events : Appended db.events db'.events turn.state.turnId turn.lastSeq (states.map (turnEventRow now))

/-- The row of a turn after one state. -/
def movedTurn (turn : TurnRow) (state : TurnState) (token now : Nat) : TurnRow :=
  { turn with
    state := state
    status := state.status
    revision := state.revision
    lastSeq := turn.lastSeq + 1
    leaseToken := token
    updatedAtMs := now }

/-- Only the three turn tables differ. -/
def TurnFrame (db db' : Database D) : Prop :=
  db' = { db with events := db'.events, turns := db'.turns, turnReadModel := db'.turnReadModel }

theorem TurnFrame.trans {db middle db' : Database D} (first : TurnFrame db middle)
    (second : TurnFrame middle db') : TurnFrame db db' := by
  unfold TurnFrame at first second ⊢
  rw [first] at second
  exact second

theorem writeTurnState_written {db db' : Database D} (turn : TurnRow) {state : TurnState} {token now : Nat}
    (found : db.turns.get? turn.state.turnId = some turn) (mirrored : turn.revision = turn.state.revision)
    (path : StatePath turn.state state [state])
    (written : writeTurnState db state (turn.lastSeq + 1) token now = .ok db') :
    TurnFrame db db' ∧ TurnWritten db db' turn (movedTurn turn state token now) [state] now := by
  have same := path.turnId
  simp only [writeTurnState, bind_ok, toI64s_ok, Except.ok.injEq] at written
  obtain ⟨logged, inserted, _, _, rfl⟩ := written
  obtain ⟨fresh, rfl⟩ := insertTurnEvent_ok inserted
  rw [same] at fresh
  refine ⟨rfl, path, ?_, rfl, rfl, rfl, ?_, ?_⟩
  · intro key
    rw [Table.get?_modify, same]
    split
    case isTrue here =>
      subst here
      have forward : turn.revision < state.revision := by
        rw [mirrored, path.revision]
        exact Nat.lt_succ_self _
      rw [found, Option.map_some, if_pos forward]
      rfl
    case isFalse => rfl
  · intro key
    rw [Table.get?_modify, same]
    by_cases here : key = turn.state.turnId
    · rw [if_pos here, if_pos ⟨here, List.cons_ne_nil _ _⟩]
      rfl
    · rw [if_neg here, if_neg fun both => here both.1]
  · change Appended db.events (db.events.add (state.turnId, turn.lastSeq + 1) (turnEventRow now state)) _ _ _
    rw [same]
    exact .single fresh

/-- The two states of a cancellation, written one after the other. -/
theorem TurnWritten.cancelled {db middle db' : Database D} {turn one two : TurnRow} {now : Nat}
    (first : turn.state.transition turn.state.revision .cancel = .ok one.state)
    (second : one.state.transition one.state.revision .interrupt = .ok two.state)
    (before : TurnWritten db middle turn one [one.state] now)
    (after : TurnWritten middle db' one two [two.state] now) :
    TurnWritten db db' turn two [one.state, two.state] now := by
  have same := before.path.turnId
  refine ⟨.cancelled first second, ?_, after.status, after.revision, ?_, ?_, ?_⟩
  · intro key
    rw [after.turns, before.turns, same]
    split <;> rfl
  · rw [after.lastSeq, before.lastSeq]
    rfl
  · intro key
    rw [after.readModel, before.readModel, same]
    by_cases here : key = turn.state.turnId
    · rw [if_pos ⟨here, List.cons_ne_nil _ _⟩, if_pos ⟨here, List.cons_ne_nil _ _⟩,
        if_pos ⟨here, List.cons_ne_nil _ _⟩, Option.map_map]
      rfl
    · rw [if_neg fun both => here both.1, if_neg fun both => here both.1, if_neg fun both => here both.1]
  · have later := after.events
    rw [same, before.lastSeq] at later
    exact before.events.append later

/-- A transition of a linked turn writes its path, one state after the other. -/
theorem appendLinkedTurnTransition_written {db db' : Database D} {turn : TurnRow} {next : TurnState}
    {token now : Nat} (found : db.turns.get? turn.state.turnId = some turn)
    (mirrored : turn.revision = turn.state.revision) (advances : Advances turn.state next)
    (appended : appendLinkedTurnTransition db turn.state next turn.lastSeq token now = .ok db') :
    ∃ row states, states ≠ [] ∧ TurnFrame db db' ∧ TurnWritten db db' turn row states now ∧
      row.state = next ∧ row.leaseToken = token ∧ row.effectEpoch = turn.effectEpoch := by
  simp only [appendLinkedTurnTransition, bind_ok, ensure_ok, Except.ok.injEq] at appended
  obtain ⟨_, _, states, chosen, ⟨written, lastSeq⟩, folded, rfl⟩ := appended
  obtain ⟨path, moved⟩ := advances.linkedTurnStates chosen
  cases path with
  | stay => exact absurd rfl moved
  | one revision turnId coherent =>
      simp only [List.foldlM_cons, List.foldlM_nil, bind_ok, addOr_ok, pure_ok, Except.ok.injEq] at folded
      obtain ⟨_, ⟨_, ⟨rfl, _⟩, one, first, rfl⟩, rfl, rfl⟩ := folded
      obtain ⟨frame, facts⟩ := writeTurnState_written turn found mirrored (.one revision turnId coherent) first
      exact ⟨_, _, List.cons_ne_nil _ _, frame, facts, rfl, rfl, rfl⟩
  | cancelled first second =>
      simp only [List.foldlM_cons, List.foldlM_nil, bind_ok, addOr_ok, pure_ok, Except.ok.injEq] at folded
      obtain ⟨_, ⟨_, ⟨rfl, _⟩, _, writtenOne, rfl⟩, _, ⟨_, ⟨rfl, _⟩, _, writtenTwo, rfl⟩, rfl, rfl⟩ := folded
      obtain ⟨revisionOne, turnIdOne⟩ := TurnState.transition_identity first
      obtain ⟨revisionTwo, turnIdTwo⟩ := TurnState.transition_identity second
      obtain ⟨frameOne, factsOne⟩ := writeTurnState_written turn found mirrored
        (.one revisionOne turnIdOne fun coherent => TurnState.transition_coherent coherent first) writtenOne
      have foundOne := factsOne.turns turn.state.turnId
      rw [if_pos rfl, ← turnIdOne] at foundOne
      obtain ⟨frameTwo, factsTwo⟩ := writeTurnState_written (movedTurn turn _ token now) foundOne rfl
        (.one revisionTwo turnIdTwo fun coherent => TurnState.transition_coherent coherent second) writtenTwo
      exact ⟨_, _, List.cons_ne_nil _ _, frameOne.trans frameTwo, .cancelled first second factsOne factsTwo,
        rfl, rfl, rfl⟩

/-! ## The log of a session -/

/-- Events that announce a transcript entry standing at their own sequence. -/
def announces : SessionEvent → Bool
  | .transcriptAppended _ => true
  | .turnLinked _ => true
  | .bindingChanged .. => true
  | .lifecycleChanged .. => false
  | .reconciliationRequired .. => false

def sessionEventRow (sessionId : SessionId) (revision sequence : Nat) (event : SessionEvent) (now : Nat) :
    SessionEventRow :=
  ⟨revision, sessionEventEnvelope sessionId revision sequence event, now⟩

/-- The outbox row of an entry. -/
def outboxRow (sessionId : SessionId) (entry : TranscriptEntry) : (SessionId × Nat) × OutboxRow :=
  ((sessionId, entry.sequence), ⟨entry.turnId, entry.kind, entry.sourceKey, entry, entry.createdAtMs⟩)

/-- The log of a session moved from one row to another along the events `rows`, which announce `cards`. -/
structure LogMoved (before after : Nat → Option SessionEventRow) (session session' : SessionRow)
    (rows : List SessionEventRow) (cards : List TranscriptEntry) : Prop where
  events : Extends before after session.lastSeq rows
  lastSeq : session'.lastSeq = session.lastSeq + rows.length
  raise : session.revision ≤ session'.revision
  revisions : ∀ row ∈ rows, session.revision ≤ row.revision ∧ row.revision ≤ session'.revision
  ordered : rows.Pairwise fun first second => first.revision ≤ second.revision
  last : ∀ row ∈ rows.getLast?, row.revision = session'.revision
  settled : rows = [] → session'.revision = session.revision
  announced : ∀ card ∈ cards, ∃ i, ∃ bound : i < rows.length,
    card.sequence = session.lastSeq + 1 + i ∧ announces rows[i].envelope.event = true
  climbing : cards.Pairwise fun first second => first.sequence < second.sequence

/-- What the log of a session counts. -/
def logKey (row : SessionRow) : Nat × Nat := (row.revision, row.lastSeq)

/-- A log to which nothing is added. -/
theorem LogMoved.nil {log : Nat → Option SessionEventRow} {session session' : SessionRow}
    (same : logKey session' = logKey session) : LogMoved log log session session' [] [] := by
  simp only [logKey, Prod.mk.injEq] at same
  obtain ⟨revision, lastSeq⟩ := same
  refine ⟨.nil, lastSeq, revision.ge, ?_, .nil, ?_, fun _ => revision, ?_, .nil⟩
  all_goals
    intro row impossible
    cases impossible

/-- One event, with the card it announces if there is one. -/
theorem LogMoved.one {before after : Nat → Option SessionEventRow} {session session' : SessionRow}
    {row : SessionEventRow} {cards : List TranscriptEntry}
    (events : Extends before after session.lastSeq [row]) (revised : row.revision = session.revision + 1)
    (revision : session'.revision = session.revision + 1) (lastSeq : session'.lastSeq = session.lastSeq + 1)
    (announced : cards = [] ∨ ∃ card, cards = [card] ∧ card.sequence = session.lastSeq + 1 ∧
      announces row.envelope.event = true) : LogMoved before after session session' [row] cards := by
  have raise : session.revision ≤ session'.revision := by omega
  refine ⟨events, lastSeq, raise, ?_, List.pairwise_singleton _ _, ?_, ?_, ?_, ?_⟩
  · intro other member
    rw [List.mem_singleton] at member
    subst member
    omega
  · intro other member
    cases member
    exact revised.trans revision.symm
  · intro impossible
    cases impossible
  · intro card member
    rcases announced with rfl | ⟨only, rfl, place, tells⟩
    · cases member
    · rw [List.mem_singleton] at member
      subst member
      exact ⟨0, Nat.one_pos, place, tells⟩
  · rcases announced with rfl | ⟨only, rfl, _, _⟩
    · exact .nil
    · exact List.pairwise_singleton _ _

/-- Two stretches of a log, one after the other. -/
theorem LogMoved.append {before middle after : Nat → Option SessionEventRow} {one two three : SessionRow}
    {rows more : List SessionEventRow} {cards others : List TranscriptEntry}
    (first : LogMoved before middle one two rows cards) (second : LogMoved middle after two three more others) :
    LogMoved before after one three (rows ++ more) (cards ++ others) := by
  have raise := Nat.le_trans first.raise second.raise
  refine ⟨?_, ?_, raise, ?_, ?_, ?_, ?_, ?_, ?_⟩
  · refine first.events.append ?_
    rw [← first.lastSeq]
    exact second.events
  · rw [second.lastSeq, first.lastSeq, List.length_append, Nat.add_assoc]
  · intro row member
    rcases List.mem_append.mp member with early | late
    · exact ⟨(first.revisions row early).1, Nat.le_trans (first.revisions row early).2 second.raise⟩
    · exact ⟨Nat.le_trans first.raise (second.revisions row late).1, (second.revisions row late).2⟩
  · refine List.pairwise_append.mpr ⟨first.ordered, second.ordered, ?_⟩
    intro row early other late
    exact Nat.le_trans (first.revisions row early).2 (second.revisions other late).1
  · intro row member
    rw [List.getLast?_append] at member
    cases ending : more.getLast? with
    | none =>
        rw [ending, Option.none_or] at member
        rw [first.last row member, second.settled (List.getLast?_eq_none_iff.mp ending)]
    | some final =>
        rw [ending, Option.some_or] at member
        cases member
        exact second.last row ending
  · intro empty
    obtain ⟨rfl, rfl⟩ := List.append_eq_nil_iff.mp empty
    rw [second.settled rfl, first.settled rfl]
  · intro card member
    rcases List.mem_append.mp member with early | late
    · obtain ⟨i, bound, place, tells⟩ := first.announced card early
      refine ⟨i, ?_, place, ?_⟩
      · rw [List.length_append]
        omega
      · rw [List.getElem_append_left bound]
        exact tells
    · obtain ⟨i, bound, place, tells⟩ := second.announced card late
      refine ⟨rows.length + i, ?_, ?_, ?_⟩
      · rw [List.length_append]
        omega
      · rw [place, first.lastSeq]
        omega
      · rw [List.getElem_append_right (Nat.le_add_right _ _)]
        simp only [Nat.add_sub_cancel_left]
        exact tells
  · refine List.pairwise_append.mpr ⟨first.climbing, second.climbing, ?_⟩
    intro card early other late
    obtain ⟨i, iBound, iPlace, _⟩ := first.announced card early
    obtain ⟨j, jBound, jPlace, _⟩ := second.announced other late
    rw [iPlace, jPlace, first.lastSeq]
    omega

/-- A session logged the events `rows`, which announce `cards`, and no other session did. -/
structure SessionLogged (before after : Table (SessionId × Nat) SessionEventRow) (sessionId : SessionId)
    (session session' : SessionRow) (rows : List SessionEventRow) (cards : List TranscriptEntry) : Prop where
  moved : LogMoved (stream before sessionId) (stream after sessionId) session session' rows cards
  other : ∀ key, key ≠ sessionId → stream after key = stream before key

theorem SessionLogged.nil {log : Table (SessionId × Nat) SessionEventRow} {sessionId : SessionId}
    {session session' : SessionRow} (same : logKey session' = logKey session) :
    SessionLogged log log sessionId session session' [] [] := ⟨.nil same, fun _ _ => rfl⟩

/-- A session that logs one event, with the card it announces if there is one. -/
theorem SessionLogged.one {before : Table (SessionId × Nat) SessionEventRow} {sessionId : SessionId}
    {session session' : SessionRow} {event : SessionEvent} {now : Nat} {cards : List TranscriptEntry}
    (fresh : before.get? (sessionId, session.lastSeq + 1) = none)
    (revision : session'.revision = session.revision + 1) (lastSeq : session'.lastSeq = session.lastSeq + 1)
    (announced : cards = [] ∨ ∃ card, cards = [card] ∧ card.sequence = session.lastSeq + 1 ∧
      announces event = true) :
    SessionLogged before (before.add (sessionId, session.lastSeq + 1)
        (sessionEventRow sessionId (session.revision + 1) (session.lastSeq + 1) event now))
      sessionId session session'
      [sessionEventRow sessionId (session.revision + 1) (session.lastSeq + 1) event now] cards := by
  have events : Appended before (before.add (sessionId, session.lastSeq + 1) _) sessionId session.lastSeq
      [sessionEventRow sessionId (session.revision + 1) (session.lastSeq + 1) event now] := .single fresh
  exact ⟨.one events.extended rfl revision lastSeq announced, events.other⟩

theorem SessionLogged.append {before middle after : Table (SessionId × Nat) SessionEventRow}
    {sessionId : SessionId} {one two three : SessionRow} {rows more : List SessionEventRow}
    {cards others : List TranscriptEntry} (first : SessionLogged before middle sessionId one two rows cards)
    (second : SessionLogged middle after sessionId two three more others) :
    SessionLogged before after sessionId one three (rows ++ more) (cards ++ others) :=
  ⟨first.moved.append second.moved, fun key differs => (second.other key differs).trans (first.other key differs)⟩

/-- One recovery card and its event, at the next sequence. -/
theorem appendCard_ok {E : Environment} {sessionId : SessionId} {turnId : TurnId} {revision now : Nat}
    {card : Card} {last last' : Nat} {db db' : E.Db}
    (appended : appendCard E sessionId turnId revision now (last, db) card = .ok (last', db')) :
    ∃ entry : TranscriptEntry, entry.kind = card.kind ∧ entry.sequence = last + 1 ∧ last' = last + 1 ∧
      db' = { db with conversationOutbox := db'.conversationOutbox, sessionEvents := db'.sessionEvents } ∧
      db'.conversationOutbox.rows = db.conversationOutbox.rows ++ [outboxRow sessionId entry] ∧
      entry.sequence < 2 ^ 63 ∧ Appended db.sessionEvents db'.sessionEvents sessionId last
        [sessionEventRow sessionId revision entry.sequence (.transcriptAppended entry) now] := by
  simp only [appendCard, bind_ok, addOr_ok, Except.ok.injEq, Prod.mk.injEq] at appended
  obtain ⟨_, ⟨rfl, _⟩, _, inserted, ⟨_, _⟩, logged, rfl, rfl⟩ := appended
  have ranged := insertTranscript_range inserted
  obtain ⟨freshCard, rfl⟩ := insertTranscript_ok inserted
  obtain ⟨freshEvent, _, rfl⟩ := insertSessionEvent_ok logged
  exact ⟨_, rfl, rfl, rfl, rfl, Table.rows_add_fresh _ _ freshCard, ranged, .single freshEvent⟩

/-- Cards written one after the other, each announced by an event of the same revision. -/
theorem appendCards_ok {E : Environment} {sessionId : SessionId} {turnId : TurnId} {revision now : Nat}
    {cards : List Card} {last last' : Nat} {db db' : E.Db}
    (folded : cards.foldlM (appendCard E sessionId turnId revision now) (last, db) = .ok (last', db')) :
    ∃ entries : List TranscriptEntry, entries.map TranscriptEntry.kind = cards.map Card.kind ∧
      last' = last + entries.length ∧
      db' = { db with conversationOutbox := db'.conversationOutbox, sessionEvents := db'.sessionEvents } ∧
      db'.conversationOutbox.rows = db.conversationOutbox.rows ++ entries.map (outboxRow sessionId) ∧
      (∀ entry ∈ entries, entry.sequence < 2 ^ 63) ∧ Appended db.sessionEvents db'.sessionEvents sessionId last (entries.map fun entry =>
        sessionEventRow sessionId revision entry.sequence (.transcriptAppended entry) now) ∧
      ∀ i (bound : i < entries.length), entries[i].sequence = last + 1 + i := by
  induction cards generalizing last db with
  | nil =>
      simp only [List.foldlM_nil, pure_ok, Prod.mk.injEq] at folded
      obtain ⟨rfl, rfl⟩ := folded
      refine ⟨[], rfl, rfl, rfl, (List.append_nil _).symm, List.forall_mem_nil _, .nil, ?_⟩
      intro i bound
      exact absurd bound (Nat.not_lt_zero _)
  | cons card cards ih =>
      simp only [List.foldlM_cons, bind_ok] at folded
      obtain ⟨⟨middle, carded⟩, one, rest⟩ := folded
      obtain ⟨entry, kind, place, rfl, frameOne, outboxOne, rangedOne, eventOne⟩ := appendCard_ok one
      obtain ⟨entries, kinds, rfl, frame, outbox, ranged, events, places⟩ := ih rest
      refine ⟨entry :: entries, ?_, ?_, ?_, ?_, List.forall_mem_cons.mpr ⟨rangedOne, ranged⟩,
        eventOne.append events, ?_⟩
      · rw [List.map_cons, List.map_cons, kind, kinds]
      · rw [List.length_cons]
        omega
      · rw [frameOne] at frame
        exact frame
      · rw [outbox, outboxOne, List.append_assoc]
        rfl
      · intro i bound
        rcases i with _ | i
        · exact place
        · rw [List.getElem_cons_succ, places]
          omega

end LatteCode.Storage
