import LatteCode.Storage.Written
/- The recovery of one stale linked turn, with everything it does. -/

namespace LatteCode.Storage
open Keyed Outcome Numbered

variable {D : Type}

/-- The columns of a `turns` row repeat its state. -/
structure Mirrored (db : Database D) : Prop where
  turnId : ∀ key row, db.turns.get? key = some row → row.state.turnId = key
  status : ∀ key row, db.turns.get? key = some row → row.status = row.state.status
  revision : ∀ key row, db.turns.get? key = some row → row.revision = row.state.revision

/-- What identifies the link of a turn; the other columns are counters. -/
def linkKey (row : SessionTurnRow) : SessionId × Option TurnId × Nat :=
  (row.sessionId, row.parentTurnId, row.ordinal)

def SameLinks (before after : Table TurnId SessionTurnRow) : Prop :=
  ∀ key, (after.get? key).map linkKey = (before.get? key).map linkKey

theorem SameLinks.refl {links : Table TurnId SessionTurnRow} : SameLinks links links := fun _ => rfl

theorem SameLinks.trans {before middle after : Table TurnId SessionTurnRow}
    (first : SameLinks before middle) (second : SameLinks middle after) : SameLinks before after :=
  fun key => (second key).trans (first key)

theorem SameLinks.modify {links : Table TurnId SessionTurnRow} {turnId : TurnId}
    {f : SessionTurnRow → SessionTurnRow} (kept : ∀ row, linkKey (f row) = linkKey row) :
    SameLinks links (links.modify turnId f) := by
  intro key
  rw [Table.get?_modify]
  split
  · rw [Option.map_map]
    congr 1
    funext row
    exact kept row
  · rfl

theorem SameLinks.get? {before after : Table TurnId SessionTurnRow} (same : SameLinks before after)
    {key : TurnId} {row : SessionTurnRow} (found : after.get? key = some row) :
    ∃ old, before.get? key = some old ∧ old.sessionId = row.sessionId ∧ old.ordinal = row.ordinal := by
  have mapped := same key
  rw [found, Option.map_some] at mapped
  obtain ⟨old, held, keyed⟩ := Option.map_eq_some_iff.mp mapped.symm
  exact ⟨old, held, congrArg Prod.fst keyed, congrArg (fun key => key.2.2) keyed⟩

theorem SameLinks.symm {before after : Table TurnId SessionTurnRow} (same : SameLinks before after) :
    SameLinks after before := fun key => (same key).symm

theorem SameLinks.isSome {before after : Table TurnId SessionTurnRow} (same : SameLinks before after)
    (key : TurnId) : (after.get? key).isSome = (before.get? key).isSome := by
  have mapped := congrArg Option.isSome (same key)
  simpa only [Option.isSome_map] using mapped

/-- The tool rounds that a turn has opened, as its link counts them. -/
def toolRounds (links : Table TurnId SessionTurnRow) (turnId : TurnId) : Nat :=
  (links.get? turnId).elim 0 SessionTurnRow.toolRoundCount

theorem toolRounds_modify {links : Table TurnId SessionTurnRow} {turnId : TurnId}
    {f : SessionTurnRow → SessionTurnRow} (kept : ∀ row, (f row).toolRoundCount = row.toolRoundCount) (key : TurnId) :
    toolRounds (links.modify turnId f) key = toolRounds links key := by
  rw [toolRounds, Table.get?_modify]
  split
  · rw [Option.elim_map]
    exact congrArg (Option.elim _ 0) (funext kept)
  · rfl

/-- The session row after an operation of one of its turns. -/
def movedSession (session : SessionRow) (revision lastSeq : Nat) (lifecycle : SessionLifecycle)
    (turnId : TurnId) (now : Nat) : SessionRow :=
  { session with
    revision := revision
    lastSeq := lastSeq
    lifecycle := lifecycle
    latestTurnId := some turnId
    updatedAtMs := now }

/-- The state in which recovery leaves a stale turn. -/
def interruptedState (state : TurnState) : TurnState :=
  { state with
    status := .interrupted
    revision := state.revision + 1
    pendingInput := none
    pendingPermission := none }

theorem interruptedState_advances {state : TurnState} (alive : state.status.terminal = false) :
    Advances state (interruptedState state) := by
  refine .one rfl rfl ?_
  intro coherent
  have noFailure : state.failure.isSome = false := by
    rw [Bool.eq_false_iff]
    intro failed
    rw [coherent.failure.mp failed] at alive
    cases alive
  have noHandoff : state.handoff.isSome = false := by
    rw [Bool.eq_false_iff]
    intro handed
    rw [coherent.handoff.mp handed] at alive
    cases alive
  constructor <;> simp [interruptedState, noFailure, noHandoff]

/-- The lifecycle after recovery of a turn: its started effects may have acted. -/
def recoveredLifecycle (db : Database D) (turnId : TurnId) : SessionLifecycle :=
  if (effectIds db turnId .started).isEmpty then .interrupted else .reconciliationRequired

/-- Recovery of one stale linked turn. -/
structure Interrupted (sessionId : SessionId) (turnId : TurnId) (token now : Nat) (db db' : Database D)
    (session session' : SessionRow) (turn row : TurnRow) (rows : List SessionEventRow)
    (cards : List TranscriptEntry) : Prop where
  active : db.sessionActiveTurns.get? sessionId = some ⟨turnId, token⟩
  foundSession : db.sessions.get? sessionId = some session
  foundTurn : db.turns.get? turnId = some turn
  turnToken : turn.leaseToken = token
  alive : turn.state.status.terminal = false
  written : TurnWritten db db' turn row [row.state] now
  state : row.state = interruptedState turn.state
  rowToken : row.leaseToken = token
  moved : session' = movedSession session (session.revision + 1) (session.lastSeq + rows.length)
    (recoveredLifecycle db turnId) turnId now
  sessions : ∀ key, db'.sessions.get? key = if key = sessionId then some session' else db.sessions.get? key
  logged : SessionLogged db.sessionEvents db'.sessionEvents sessionId session session' rows cards
  outbox : db'.conversationOutbox.rows = db.conversationOutbox.rows ++ cards.map (outboxRow sessionId)
  ranged : ∀ card ∈ cards, card.sequence < 2 ^ 63
  quiet : ∀ card ∈ cards, card.kind ≠ .assistant
  links : SameLinks db.sessionTurns db'.sessionTurns
  rounds : ∀ key, toolRounds db'.sessionTurns key = toolRounds db.sessionTurns key
  actives : ∀ key, db'.sessionActiveTurns.get? key =
    if key = sessionId then none else db.sessionActiveTurns.get? key
  frame : db' = { db with
    turns := db'.turns
    turnReadModel := db'.turnReadModel
    events := db'.events
    effects := (settleEffects db turnId now).effects
    pendingPermissions := (settleEffects db turnId now).pendingPermissions
    sessionTurns := db'.sessionTurns
    sessionActiveTurns := db'.sessionActiveTurns
    conversationOutbox := db'.conversationOutbox
    sessionEvents := db'.sessionEvents
    sessions := db'.sessions }

theorem staleTurn_ok {db : Database D} {sessionId : SessionId} {turnId : TurnId} {expectedToken : Nat}
    {expectedTurnRevision : Option Nat} {turn : TurnRow}
    (stale : staleTurn db sessionId turnId expectedToken expectedTurnRevision = .ok (some turn)) :
    db.sessionActiveTurns.get? sessionId = some ⟨turnId, expectedToken⟩ ∧ db.turns.get? turnId = some turn ∧
      turn.leaseToken = expectedToken ∧ turn.state.status.terminal = false := by
  unfold staleTurn at stale
  split at stale
  case h_1 => cases stale
  case h_2 active held =>
    split at stale
    case isTrue => cases stale
    case isFalse current =>
      simp only [bind_ok, queryRow_ok, Except.ok.injEq] at stale
      obtain ⟨row, found, chosen⟩ := stale
      split at chosen
      case isTrue facts =>
        cases chosen
        push Not at current
        obtain ⟨rfl, rfl⟩ := current
        exact ⟨held, found, facts.1, facts.2.2⟩
      case isFalse => cases chosen

/-- The events of a recovery: its cards, then what became of the session. -/
def recoveryEvents (sessionId : SessionId) (revision last now : Nat) (event : SessionEvent)
    (entries : List TranscriptEntry) : List SessionEventRow :=
  entries.map (fun entry => sessionEventRow sessionId revision entry.sequence (.transcriptAppended entry) now) ++
    [sessionEventRow sessionId revision (last + entries.length + 1) event now]

theorem recoveryEvents_length {sessionId : SessionId} {revision last now : Nat} {event : SessionEvent}
    {entries : List TranscriptEntry} :
    (recoveryEvents sessionId revision last now event entries).length = entries.length + 1 := by
  rw [recoveryEvents, List.length_append, List.length_map, List.length_singleton]

theorem recoveryEvents_revision {sessionId : SessionId} {revision last now : Nat} {event : SessionEvent}
    {entries : List TranscriptEntry} {row : SessionEventRow}
    (member : row ∈ recoveryEvents sessionId revision last now event entries) : row.revision = revision := by
  rw [recoveryEvents, List.mem_append, List.mem_map, List.mem_singleton] at member
  rcases member with ⟨_, _, rfl⟩ | rfl <;> rfl

theorem recovery_logged {E : Environment} {sessionId : SessionId} {turnId : TurnId} {now : Nat}
    {cards : List Card} {session : SessionRow} {last : Nat} (lifecycle : SessionLifecycle)
    {event : SessionEvent} {db middle : E.Db}
    (folded : cards.foldlM (appendCard E sessionId turnId (session.revision + 1) now)
      (session.lastSeq, db) = .ok (last, middle))
    (fresh : middle.sessionEvents.get? (sessionId, last + 1) = none) :
    ∃ rows entries, entries.map TranscriptEntry.kind = cards.map Card.kind ∧
      SessionLogged db.sessionEvents (middle.sessionEvents.add (sessionId, last + 1)
          (sessionEventRow sessionId (session.revision + 1) (last + 1) event now)) sessionId session
        (movedSession session (session.revision + 1) (last + 1) lifecycle turnId now) rows entries ∧
      last + 1 = session.lastSeq + rows.length ∧
      middle = { db with
        conversationOutbox := middle.conversationOutbox
        sessionEvents := middle.sessionEvents } ∧
      middle.conversationOutbox.rows = db.conversationOutbox.rows ++ entries.map (outboxRow sessionId) ∧
      ∀ entry ∈ entries, entry.sequence < 2 ^ 63 := by
  obtain ⟨entries, kinds, rfl, frame, outbox, ranged, events, places⟩ := appendCards_ok folded
  let last := session.lastSeq + entries.length
  have whole : Appended db.sessionEvents (middle.sessionEvents.add (sessionId, last + 1)
      (sessionEventRow sessionId (session.revision + 1) (last + 1) event now)) sessionId session.lastSeq
      (recoveryEvents sessionId (session.revision + 1) session.lastSeq now event entries) := by
    refine events.append ?_
    rw [List.length_map]
    exact .single fresh
  refine ⟨recoveryEvents sessionId (session.revision + 1) session.lastSeq now event entries, entries, kinds,
    ⟨⟨whole.extended, ?_, Nat.le_succ _, ?_, ?_, ?_, ?_, ?_, ?_⟩, whole.other⟩, ?_, frame, outbox, ranged⟩
  · rw [recoveryEvents_length]
    rfl
  · intro row member
    rw [recoveryEvents_revision member]
    exact ⟨Nat.le_succ _, Nat.le_refl _⟩
  · refine List.pairwise_iff_getElem.mpr ?_
    intro i j iBound jBound _
    rw [recoveryEvents_revision (List.getElem_mem iBound), recoveryEvents_revision (List.getElem_mem jBound)]
  · intro row member
    exact recoveryEvents_revision (List.mem_of_getLast? member)
  · intro empty
    have length := congrArg List.length empty
    rw [recoveryEvents_length] at length
    cases length
  · intro entry member
    obtain ⟨i, bound, rfl⟩ := List.getElem_of_mem member
    refine ⟨i, ?_, places i bound, ?_⟩
    · rw [recoveryEvents_length]
      omega
    · simp only [recoveryEvents]
      rw [List.getElem_append_left (by rwa [List.length_map]), List.getElem_map]
      rfl
  · refine List.pairwise_iff_getElem.mpr ?_
    intro i j iBound jBound order
    rw [places i iBound, places j jBound]
    omega
  · rw [recoveryEvents_length]
    omega

theorem StatePath.single {current next : TurnState} {states : List TurnState}
    (path : StatePath current next states) (revision : next.revision = current.revision + 1) :
    states = [next] := by
  have length := path.revision
  cases path with
  | stay => omega
  | one => rfl
  | cancelled =>
      simp only [List.length_cons, List.length_nil] at length
      omega

/-- Recovery speaks for the engine, never for the assistant. -/
theorem recoveryCards_quiet {E : Environment} {turnId : TurnId} {turnRevision : Nat} {started prepared : List String} :
    .assistant ∉ (recoveryCards E turnId turnRevision started prepared).map Card.kind := by
  have effects : ∀ (names : List (String × Nat)) (text status label : String),
      .assistant ∉ (names.map (recoveryEffectCard E turnId turnRevision text status label)).map Card.kind := by
    intro names text status label member
    rw [List.map_map, List.mem_map] at member
    obtain ⟨_, _, same⟩ := member
    cases same
  rw [recoveryCards, List.map_cons, List.map_append, List.mem_cons, List.mem_append]
  rintro (same | started | prepared)
  · cases same
  · exact effects _ _ _ _ started
  · exact effects _ _ _ _ prepared

/-- The rewritten session row, whatever the update of it reads. -/
theorem sessions_modify {sessions : Table SessionId SessionRow} {sessionId : SessionId} {session : SessionRow}
    {f : SessionRow → SessionRow} (found : sessions.get? sessionId = some session) (key : SessionId) :
    (sessions.modify sessionId f).get? key = if key = sessionId then some (f session) else sessions.get? key := by
  rw [Table.get?_modify]
  split
  case isTrue here => rw [here, found, Option.map_some]
  case isFalse => rfl

theorem interruptStaleTurn_ok {E : Environment} {db db' : E.Db} {sessionId : SessionId} {turnId : TurnId}
    {session : SessionRow} {turn : TurnRow} {token now : Nat} {response : SessionCommitResponse}
    (mirrored : Mirrored db) (active : db.sessionActiveTurns.get? sessionId = some ⟨turnId, token⟩)
    (foundSession : db.sessions.get? sessionId = some session) (foundTurn : db.turns.get? turnId = some turn)
    (turnToken : turn.leaseToken = token) (alive : turn.state.status.terminal = false)
    (interrupted : interruptStaleTurn E db sessionId turnId session turn token now = .ok (response, db')) :
    ∃ session' row rows cards,
      Interrupted sessionId turnId token now db db' session session' turn row rows cards := by
  simp only [interruptStaleTurn, bind_ok, toI64s_ok, addOr_ok, Except.ok.injEq, Prod.mk.injEq] at interrupted
  obtain ⟨_, _, _, ⟨rfl, _⟩, moved, appended, _, ⟨rfl, _⟩, ⟨last, carded⟩, folded, _, ⟨rfl, _⟩,
    ⟨stored, logged⟩, final, snapshot, _, _, rfl⟩ := interrupted
  have named := mirrored.turnId _ _ foundTurn
  obtain ⟨row, states, moving, frame, written, state, rowToken, _⟩ :=
    appendLinkedTurnTransition_written (named.symm ▸ foundTurn)
      (mirrored.revision _ _ foundTurn) (interruptedState_advances alive) appended
  have single : states = [row.state] := written.path.single (by rw [state]; rfl)
  subst single
  obtain ⟨fresh, _, rfl⟩ := insertSessionEvent_ok final
  unfold TurnFrame at frame
  rw [frame] at folded
  obtain ⟨rows, entries, kinds, session_logged, length, cardFrame, outbox, ranged⟩ :=
    recovery_logged (recoveredLifecycle db turnId) folded fresh
  rw [cardFrame]
  refine ⟨_, row, rows, entries, active, foundSession, foundTurn, turnToken, alive,
    ⟨written.path, written.turns, written.status, written.revision, written.lastSeq, written.readModel,
      written.events⟩, state, rowToken, ?_, sessions_modify foundSession, ?_, outbox, ranged, ?_, ?_, ?_, ?_, rfl⟩
  · rw [length]
    rfl
  · exact session_logged
  · intro card member spoken
    have spoke := List.mem_map_of_mem (f := TranscriptEntry.kind) member
    rw [kinds, spoken] at spoke
    exact recoveryCards_quiet spoke
  · refine SameLinks.modify ?_
    intro link
    split <;> rfl
  · refine toolRounds_modify ?_
    intro link
    split <;> rfl
  · intro key
    rw [Table.get?_deleteWhere]
    change Option.filter _ (db.sessionActiveTurns.get? key) = _
    by_cases here : key = sessionId
    · subst here
      rw [active, if_pos rfl]
      simp
    · rw [if_neg here]
      cases db.sessionActiveTurns.get? key <;> simp [here]

end LatteCode.Storage
