import LatteCode.Storage.Reach
/- The session graph: sessions, their active child and the turns they link. -/

namespace LatteCode.Storage
open Keyed Outcome Numbered Relation

variable {E : Environment} {db db' : E.Db}

/-- What the graph of one session is, by whether it has an active child. -/
structure SessionGraph (db : E.Db) (sessionId : SessionId) (session : SessionRow) : Prop where
  active : ∀ row, db.sessionActiveTurns.get? sessionId = some row →
    session.latestTurnId = some row.turnId ∧ ∃ turn, db.turns.get? row.turnId = some turn ∧
      activeLifecycle turn.state.status = some session.lifecycle
  idle : db.sessionActiveTurns.get? sessionId = none → ∀ latest, session.latestTurnId = some latest →
    ∃ turn, db.turns.get? latest = some turn ∧ settledAs turn.state session.lifecycle
  fork : session.latestTurnId = none → session.lifecycle = .ready ∧ session.parentSessionId.isSome = true
  latest : ∀ turnId, session.latestTurnId = some turnId →
    ∃ link, db.sessionTurns.get? turnId = some link ∧ link.sessionId = sessionId
  others : ∀ turnId link, db.sessionTurns.get? turnId = some link → link.sessionId = sessionId →
    session.latestTurnId ≠ some turnId →
      ∃ turn, db.turns.get? turnId = some turn ∧ turn.state.status.terminal = true

/-- Every session has its graph, and active rows and links belong to sessions and turns. -/
structure Graph (db : E.Db) : Prop where
  session : ∀ sessionId row, db.sessions.get? sessionId = some row → SessionGraph db sessionId row
  activeSession : ∀ sessionId row, db.sessionActiveTurns.get? sessionId = some row →
    (db.sessions.get? sessionId).isSome = true
  linkSession : ∀ turnId link, db.sessionTurns.get? turnId = some link →
    (db.sessions.get? link.sessionId).isSome = true
  linkTurn : ∀ turnId link, db.sessionTurns.get? turnId = some link → (db.turns.get? turnId).isSome = true

/-- The part of a session row that the graph speaks of. -/
def graphKey (row : SessionRow) : SessionLifecycle × Option TurnId × Option SessionId :=
  (row.lifecycle, row.latestTurnId, row.parentSessionId)

/-- Two databases show the same graph around one session. -/
structure SameGraph (db db' : E.Db) (sessionId : SessionId) : Prop where
  actives : (db'.sessionActiveTurns.get? sessionId).map ActiveTurnRow.turnId =
    (db.sessionActiveTurns.get? sessionId).map ActiveTurnRow.turnId
  links : ∀ turnId, ((db'.sessionTurns.get? turnId).map SessionTurnRow.sessionId = some sessionId ↔
    (db.sessionTurns.get? turnId).map SessionTurnRow.sessionId = some sessionId)
  turns : ∀ turnId, (db.sessionTurns.get? turnId).map SessionTurnRow.sessionId = some sessionId →
    (db'.turns.get? turnId).map TurnRow.state = (db.turns.get? turnId).map TurnRow.state

theorem map_eq_some_of {α β : Type} {f : α → β} {x y : Option α} (same : y.map f = x.map f) {a : α}
    (found : x = some a) : ∃ b, y = some b ∧ f b = f a := by
  rw [found, Option.map_some] at same
  exact Option.map_eq_some_iff.mp same

theorem SessionGraph.congr {sessionId : SessionId} {row row' : SessionRow}
    (graph : SessionGraph db sessionId row) (key : graphKey row' = graphKey row)
    (same : SameGraph db db' sessionId) : SessionGraph db' sessionId row' := by
  simp only [graphKey, Prod.mk.injEq] at key
  obtain ⟨lifecycle, latestTurn, parent⟩ := key
  have owned : ∀ turnId, row.latestTurnId = some turnId →
      (db.sessionTurns.get? turnId).map SessionTurnRow.sessionId = some sessionId := by
    intro turnId named
    obtain ⟨link, found, here⟩ := graph.latest turnId named
    rw [found, Option.map_some, here]
  refine ⟨?_, ?_, ?_, ?_, ?_⟩
  · intro active' held
    obtain ⟨active, found, turnId⟩ := map_eq_some_of same.actives.symm held
    obtain ⟨named, turn, heldTurn, active_lifecycle⟩ := graph.active active found
    obtain ⟨turn', heldTurn', state⟩ := map_eq_some_of (same.turns _ (owned _ named)) heldTurn
    rw [latestTurn, lifecycle, ← turnId, named]
    exact ⟨rfl, turn', heldTurn', state ▸ active_lifecycle⟩
  · intro none latest named
    rw [latestTurn] at named
    have idle : db.sessionActiveTurns.get? sessionId = Option.none := by
      have mapped := same.actives
      rw [none, Option.map_none] at mapped
      exact Option.map_eq_none_iff.mp mapped.symm
    obtain ⟨turn, held, settled⟩ := graph.idle idle latest named
    obtain ⟨turn', held', state⟩ := map_eq_some_of (same.turns _ (owned _ named)) held
    rw [lifecycle]
    exact ⟨turn', held', state ▸ settled⟩
  · rw [latestTurn, lifecycle, parent]
    exact graph.fork
  · intro turnId named
    rw [latestTurn] at named
    exact Option.map_eq_some_iff.mp ((same.links turnId).mpr (owned turnId named))
  · intro turnId link held here unnamed
    rw [latestTurn] at unnamed
    have mine := (same.links turnId).mp (by rw [held, Option.map_some, here])
    obtain ⟨old, foundLink, oldHere⟩ := Option.map_eq_some_iff.mp mine
    obtain ⟨turn, found, terminal⟩ := graph.others turnId old foundLink oldHere unnamed
    obtain ⟨turn', found', state⟩ := map_eq_some_of (same.turns turnId mine) found
    exact ⟨turn', found', state ▸ terminal⟩

theorem SameGraph.of_tables {sessionId : SessionId}
    (actives : (db'.sessionActiveTurns.get? sessionId).map ActiveTurnRow.turnId =
      (db.sessionActiveTurns.get? sessionId).map ActiveTurnRow.turnId)
    (links : SameLinks db.sessionTurns db'.sessionTurns)
    (turns : ∀ turnId, (db.sessionTurns.get? turnId).map SessionTurnRow.sessionId = some sessionId →
      (db'.turns.get? turnId).map TurnRow.state = (db.turns.get? turnId).map TurnRow.state) :
    SameGraph db db' sessionId := by
  refine ⟨actives, ?_, turns⟩
  intro turnId
  have mapped := congrArg (Option.map Prod.fst) (links turnId)
  simp only [Option.map_map] at mapped
  change (db'.sessionTurns.get? turnId).map SessionTurnRow.sessionId =
    (db.sessionTurns.get? turnId).map SessionTurnRow.sessionId at mapped
  rw [mapped]

/-- A change that shows the same graph around every session keeps the graph. -/
theorem Graph.congr (graph : Graph db)
    (sessions : ∀ key, (db'.sessions.get? key).map graphKey = (db.sessions.get? key).map graphKey)
    (actives : ∀ key, (db'.sessionActiveTurns.get? key).map ActiveTurnRow.turnId =
      (db.sessionActiveTurns.get? key).map ActiveTurnRow.turnId)
    (links : SameLinks db.sessionTurns db'.sessionTurns)
    (turns : ∀ turnId, (db.sessionTurns.get? turnId).isSome = true →
      (db'.turns.get? turnId).map TurnRow.state = (db.turns.get? turnId).map TurnRow.state) : Graph db' := by
  have known : ∀ key, (db'.sessions.get? key).isSome = (db.sessions.get? key).isSome := by
    intro key
    simpa only [Option.isSome_map] using congrArg Option.isSome (sessions key)
  refine ⟨?_, ?_, ?_, ?_⟩
  · intro sessionId row' held
    obtain ⟨row, found, key⟩ := map_eq_some_of (sessions sessionId).symm held
    refine (graph.session sessionId row found).congr key.symm (.of_tables (actives sessionId) links ?_)
    intro turnId mine
    obtain ⟨link, here, _⟩ := Option.map_eq_some_iff.mp mine
    exact turns turnId (Option.isSome_iff_exists.mpr ⟨link, here⟩)
  · intro sessionId row' held
    obtain ⟨row, found, _⟩ := map_eq_some_of (actives sessionId).symm held
    rw [known]
    exact graph.activeSession sessionId row found
  · intro turnId link' held
    obtain ⟨link, found, same, _⟩ := links.get? held
    rw [known, ← same]
    exact graph.linkSession turnId link found
  · intro turnId link' held
    obtain ⟨link, found, _, _⟩ := links.get? held
    have linked := turns turnId (Option.isSome_iff_exists.mpr ⟨link, found⟩)
    have here := graph.linkTurn turnId link found
    simpa only [Option.isSome_map, here] using congrArg Option.isSome linked

/-- The latest turn of a session moves; the rest of the graph stays. -/
theorem Graph.moved {sessionId : SessionId} {session session' : SessionRow} {turnId : TurnId} {row : TurnRow}
    (graph : Graph db) (foundSession : db.sessions.get? sessionId = some session)
    (was : session.latestTurnId = some turnId) (now : session'.latestTurnId = some turnId)
    (sessions : ∀ key, db'.sessions.get? key = if key = sessionId then some session' else db.sessions.get? key)
    (turns : ∀ key, db'.turns.get? key = if key = turnId then some row else db.turns.get? key)
    (links : SameLinks db.sessionTurns db'.sessionTurns)
    (actives : ∀ key, key ≠ sessionId → db'.sessionActiveTurns.get? key = db.sessionActiveTurns.get? key)
    (active : ∀ active, db'.sessionActiveTurns.get? sessionId = some active →
      active.turnId = turnId ∧ activeLifecycle row.state.status = some session'.lifecycle)
    (idle : db'.sessionActiveTurns.get? sessionId = none → settledAs row.state session'.lifecycle) :
    Graph db' := by
  have moving := graph.session sessionId session foundSession
  obtain ⟨link, heldLink, ownLink⟩ := moving.latest turnId was
  have heldTurn : db'.turns.get? turnId = some row := by rw [turns, if_pos rfl]
  have known : ∀ key, (db.sessions.get? key).isSome = true → (db'.sessions.get? key).isSome = true := by
    intro key present
    rw [sessions]
    split
    · rfl
    · exact present
  refine ⟨?_, ?_, ?_, ?_⟩
  · intro key other held
    rw [sessions] at held
    split at held
    case isTrue here =>
      cases held
      subst here
      refine ⟨?_, ?_, ?_, ?_, ?_⟩
      · intro activeRow present
        obtain ⟨same, lifecycle⟩ := active activeRow present
        rw [same]
        exact ⟨now, row, heldTurn, lifecycle⟩
      · intro none latest named
        rw [now, Option.some.injEq] at named
        subst named
        exact ⟨row, heldTurn, idle none⟩
      · intro none
        rw [now] at none
        cases none
      · intro latest named
        rw [now, Option.some.injEq] at named
        subst named
        obtain ⟨link', held', same, _⟩ := links.symm.get? heldLink
        exact ⟨link', held', same.trans ownLink⟩
      · intro otherId link' present mine unnamed
        have differs : otherId ≠ turnId := fun same => unnamed (same ▸ now)
        obtain ⟨old, foundOld, same, _⟩ := links.get? present
        rw [turns, if_neg differs]
        exact moving.others otherId old foundOld (same.trans mine) (was ▸ fun same => differs
          (Option.some.inj same).symm)
    case isFalse differs =>
      refine (graph.session key other held).congr rfl (.of_tables ?_ links ?_)
      · rw [actives key differs]
      · intro otherId mine
        have apart : otherId ≠ turnId := by
          rintro rfl
          rw [heldLink, Option.map_some, Option.some.injEq] at mine
          exact differs (mine.symm.trans ownLink)
        rw [turns, if_neg apart]
  · intro key activeRow held
    by_cases here : key = sessionId
    · rw [here]
      exact known sessionId (Option.isSome_iff_exists.mpr ⟨session, foundSession⟩)
    · rw [actives key here] at held
      exact known key (graph.activeSession key activeRow held)
  · intro otherId link' held
    obtain ⟨old, found, same, _⟩ := links.get? held
    exact known _ (same ▸ graph.linkSession otherId old found)
  · intro otherId link' held
    obtain ⟨old, found, _, _⟩ := links.get? held
    rw [turns]
    split
    · rfl
    · exact graph.linkTurn otherId old found

/-- The gate of a commit names the latest turn of its session. -/
theorem Graph.gate_latest {request : SessionCommitRequest} {lease : Lease} {session : SessionRow}
    (graph : Graph db) (found : db.sessions.get? request.sessionId = some session)
    (gate : activeTurnMatches session (db.sessionActiveTurns.get? request.sessionId) request lease = true) :
    session.latestTurnId = some request.turnId := by
  cases active : db.sessionActiveTurns.get? request.sessionId with
  | some row =>
      rw [active] at gate
      simp only [activeTurnMatches, Bool.and_eq_true, decide_eq_true_eq] at gate
      rw [← gate.1]
      exact ((graph.session _ _ found).active row active).1
  | none =>
      rw [active] at gate
      simp only [activeTurnMatches, Bool.or_eq_true, recoveredReconciliation, terminalQueueAudit,
        idleCompactionAppend, Bool.and_eq_true, decide_eq_true_eq] at gate
      rcases gate with (⟨⟨_, latest⟩, _⟩ | ⟨⟨_, latest⟩, _⟩) | ⟨⟨_, latest⟩, _⟩ <;> exact latest

/-- The active row after a commit of the latest turn. -/
theorem settledActives_get? {actives : Table SessionId ActiveTurnRow} {sessionId : SessionId}
    {turnId : TurnId} (token : Nat) (terminal : Bool)
    (own : ∀ row, actives.get? sessionId = some row → row.turnId = turnId) (key : SessionId) :
    (settledActives actives sessionId turnId token terminal).get? key =
      if key = sessionId then
        if terminal then none else (actives.get? sessionId).map fun row => { row with leaseToken := token }
      else actives.get? key := by
  cases terminal with
  | true =>
      rw [settledActives, if_pos rfl, Table.get?_deleteWhere]
      split
      case isTrue here =>
        subst here
        cases held : actives.get? key with
        | none => rfl
        | some row => simp [own row held]
      case isFalse differs => cases actives.get? key <;> simp [differs]
  | false =>
      rw [settledActives, if_neg Bool.false_ne_true, Table.get?_modify]
      split
      case isTrue here =>
        subst here
        cases held : actives.get? key with
        | none => rfl
        | some row => simp [own row held]
      case isFalse => rfl

/-- A session whose latest turn goes on has an active turn. -/
theorem Graph.active_of_alive {sessionId : SessionId} {session : SessionRow} {turnId : TurnId} {turn : TurnRow}
    (graph : Graph db) (found : db.sessions.get? sessionId = some session)
    (latest : session.latestTurnId = some turnId) (foundTurn : db.turns.get? turnId = some turn)
    (alive : turn.state.status.terminal = false) : ∃ active, db.sessionActiveTurns.get? sessionId = some active := by
  refine Option.ne_none_iff_exists'.mp ?_
  intro none
  obtain ⟨held, foundHeld, settled⟩ := (graph.session _ _ found).idle none turnId latest
  rw [foundTurn, Option.some.injEq] at foundHeld
  rw [foundHeld, settledAs_terminal settled] at alive
  cases alive

section Commits

variable {request : SessionCommitRequest} {lease : Lease} {now : Nat} {session session' : SessionRow}
  {turn row : TurnRow} {draft : Draft} {mid : E.Db} {states : List TurnState} {cards : List TranscriptEntry}
  {response : SessionCommitResponse}

/-- An active row of the session of a commit names the turn of the commit. -/
theorem Graph.own_active (graph : Graph db)
    (done : Committed E request lease now db db' session session' turn row draft mid states cards response)
    (active : ActiveTurnRow) (held : db.sessionActiveTurns.get? request.sessionId = some active) :
    active.turnId = request.turnId := by
  have found := done.admitted.foundSession
  exact Option.some.inj
    (((graph.session _ _ found).active active held).1.symm.trans (graph.gate_latest found done.admitted.gate))

/-- The active rows after a commit, in a database with its graph. -/
theorem Graph.committed_actives (graph : Graph db)
    (done : Committed E request lease now db db' session session' turn row draft mid states cards response)
    (key : SessionId) : db'.sessionActiveTurns.get? key =
      if key = request.sessionId then
        if draft.terminal then none
        else (db.sessionActiveTurns.get? request.sessionId).map fun row =>
          { row with leaseToken := lease.fencingToken }
      else db.sessionActiveTurns.get? key := by
  have table : db'.sessionActiveTurns = settledActives db.sessionActiveTurns request.sessionId request.turnId
      lease.fencingToken draft.terminal := by rw [done.frame]
  rw [table]
  exact settledActives_get? lease.fencingToken draft.terminal (graph.own_active done) key

theorem Graph.committed (graph : Graph db) (mirrored : Mirrored db)
    (done : Committed E request lease now db db' session session' turn row draft mid states cards response) :
    Graph db' := by
  have found := done.admitted.foundSession
  have foundTurn := done.admitted.foundTurn
  have was := graph.gate_latest found done.admitted.gate
  have moving := graph.session _ _ found
  have own := graph.own_active done
  have actives := graph.committed_actives done
  have lifecycle : session'.lifecycle = draft.nextLifecycle := by rw [done.moved]; rfl
  refine graph.moved found was ?_ done.sessions (mirrored.turnId _ _ foundTurn ▸ done.written.turns) done.links
    ?_ ?_ ?_
  · rw [done.moved]
    rfl
  · intro key differs
    rw [actives, if_neg differs]
  · intro active held
    rw [actives, if_pos rfl] at held
    split at held
    case isTrue => cases held
    case isFalse open_ =>
      obtain ⟨old, foundActive, rfl⟩ := Option.map_eq_some_iff.mp held
      refine ⟨own old foundActive, ?_⟩
      rw [done.state, lifecycle]
      cases done.shaped.shape with
      | stay _ same kept _ =>
          obtain ⟨_, held', foundHeld, live⟩ := moving.active old foundActive
          rw [own old foundActive, foundTurn, Option.some.injEq] at foundHeld
          rw [same, kept, foundHeld]
          exact live
      | move _ _ _ _ live => exact live
      | finish _ closed => exact absurd closed open_
  · intro none
    rw [actives, if_pos rfl] at none
    rw [done.state, lifecycle]
    cases done.shaped.shape with
    | stay _ same kept open_ =>
        rw [open_, if_neg Bool.false_ne_true, Option.map_eq_none_iff] at none
        obtain ⟨held', foundHeld, settled⟩ := moving.idle none _ was
        rw [foundTurn, Option.some.injEq] at foundHeld
        rw [same, kept, foundHeld]
        exact settled
    | move _ open_ alive =>
        rw [open_, if_neg Bool.false_ne_true, Option.map_eq_none_iff] at none
        obtain ⟨held', foundHeld, settled⟩ := moving.idle none _ was
        rw [foundTurn, Option.some.injEq] at foundHeld
        rw [foundHeld, settledAs_terminal settled] at alive
        cases alive
    | finish _ _ _ _ settled => exact settled

end Commits

theorem Graph.interrupted {sessionId : SessionId} {turnId : TurnId} {token now : Nat}
    {session session' : SessionRow} {turn row : TurnRow} {rows : List SessionEventRow}
    {cards : List TranscriptEntry} (graph : Graph db) (mirrored : Mirrored db)
    (done : Interrupted sessionId turnId token now db db' session session' turn row rows cards) : Graph db' := by
  have was := ((graph.session _ _ done.foundSession).active _ done.active).1
  refine graph.moved done.foundSession was ?_ done.sessions
    (mirrored.turnId _ _ done.foundTurn ▸ done.written.turns) done.links ?_ ?_ ?_
  · rw [done.moved]
    rfl
  · intro key differs
    rw [done.actives, if_neg differs]
  · intro active held
    rw [done.actives, if_pos rfl] at held
    cases held
  · intro _
    rw [done.state, done.moved]
    change settledAs _ (recoveredLifecycle db turnId)
    unfold recoveredLifecycle
    split <;> rfl

/-- The lifecycle of a child's first state is that of a running session. -/
theorem childRow_active {turnId : TurnId} {lease : Option Lease} {state : TurnState}
    (started : initialTurn turnId lease = .ok state) : activeLifecycle state.status = some .running := by
  obtain ⟨_, _, status, _⟩ := initialTurn_ok started
  rw [status]
  split <;> rfl

/-- A child joins a session that has no active one. -/
theorem Graph.child {sessionId : SessionId} {session' : SessionRow} {state : TurnState}
    {parent : Option TurnId} {ordinal now : Nat} {lease : Option Lease} (graph : Graph db)
    (child : ChildWritten db db' sessionId state parent ordinal lease now)
    (running : session'.lifecycle = .running) (latest : session'.latestTurnId = some state.turnId)
    (sessions : ∀ key, db'.sessions.get? key = if key = sessionId then some session' else db.sessions.get? key)
    (settled : ∀ turnId link, db.sessionTurns.get? turnId = some link → link.sessionId = sessionId →
      ∃ turn, db.turns.get? turnId = some turn ∧ turn.state.status.terminal = true) : Graph db' := by
  have apart : ∀ turnId link, db.sessionTurns.get? turnId = some link → turnId ≠ state.turnId := by
    rintro turnId link held rfl
    rw [child.freshLink] at held
    cases held
  have known : ∀ key, (db.sessions.get? key).isSome = true → (db'.sessions.get? key).isSome = true := by
    intro key present
    rw [sessions]
    split
    · rfl
    · exact present
  have knownSelf : (db'.sessions.get? sessionId).isSome = true := by rw [sessions, if_pos rfl]; rfl
  have heldTurn : db'.turns.get? state.turnId = some (childRow state lease now) := by
    rw [child.turns, if_pos rfl]
  refine ⟨?_, ?_, ?_, ?_⟩
  · intro key other held
    rw [sessions] at held
    split at held
    case isTrue here =>
      cases held
      subst here
      refine ⟨?_, ?_, ?_, ?_, ?_⟩
      · intro active present
        rw [child.actives, if_pos rfl, Option.some.injEq] at present
        subst present
        exact ⟨latest, _, heldTurn, running ▸ childRow_active child.started⟩
      · intro none
        rw [child.actives, if_pos rfl] at none
        cases none
      · intro none
        rw [latest] at none
        cases none
      · intro turnId named
        rw [latest, Option.some.injEq] at named
        exact ⟨_, by rw [child.links, if_pos named.symm], rfl⟩
      · intro turnId link present mine unnamed
        rw [latest] at unnamed
        have differs : turnId ≠ state.turnId := fun same => unnamed (congrArg some same.symm)
        rw [child.links, if_neg differs] at present
        rw [child.turns, if_neg differs]
        exact settled turnId link present mine
    case isFalse differs =>
      refine (graph.session key other held).congr rfl ⟨?_, ?_, ?_⟩
      · rw [child.actives, if_neg differs]
      · intro turnId
        rw [child.links]
        split
        case isTrue here =>
          rw [here, child.freshLink]
          constructor
          · intro mine
            exact absurd (Option.some.inj mine).symm differs
          · intro impossible
            cases impossible
        case isFalse => exact Iff.rfl
      · intro turnId mine
        obtain ⟨link, present, _⟩ := Option.map_eq_some_iff.mp mine
        rw [child.turns, if_neg (apart turnId link present)]
  · intro key active held
    by_cases here : key = sessionId
    · exact here ▸ knownSelf
    · rw [child.actives, if_neg here] at held
      exact known key (graph.activeSession key active held)
  · intro turnId link held
    rw [child.links] at held
    split at held
    case isTrue =>
      cases held
      exact knownSelf
    case isFalse => exact known _ (graph.linkSession turnId link held)
  · intro turnId link held
    rw [child.links] at held
    rw [child.turns]
    split
    case isTrue => rfl
    case isFalse differs =>
      rw [if_neg differs] at held
      exact graph.linkTurn turnId link held

theorem Graph.created {args : CreateSession} {lease : Option Lease} {now : Nat} {state : TurnState}
    {rows : List SessionEventRow} {snapshot : SessionSnapshot} (graph : Graph db)
    (done : Created E args lease now db db' state rows snapshot) : Graph db' := by
  refine graph.child done.child rfl (congrArg some done.named.symm) done.sessions ?_
  intro turnId link held mine
  have known := graph.linkSession turnId link held
  rw [mine, done.freshSession] at known
  cases known

theorem Graph.followedUp {args : FollowUp} {lease : Option Lease} {now : Nat} {session session' : SessionRow}
    {state : TurnState} {rows : List SessionEventRow} {snapshot : SessionSnapshot} (graph : Graph db)
    (done : FollowedUp E args lease now db db' session session' state rows snapshot) : Graph db' := by
  have old := graph.session _ _ done.foundSession
  refine graph.child done.child ?_ ?_ done.sessions ?_
  · rw [done.moved]
    rfl
  · rw [done.moved, done.named]
    rfl
  · intro turnId link held mine
    by_cases named : session.latestTurnId = some turnId
    · obtain ⟨turn, found, settled⟩ := old.idle done.child.idle turnId named
      exact ⟨turn, found, settledAs_terminal settled⟩
    · exact old.others turnId link held mine named

theorem Graph.forked {source fork : SessionId} {history : List TranscriptEntry} {title : Option String}
    {now : Nat} {row : SessionRow} (graph : Graph db)
    (done : Forked E source fork history title now db db' row) : Graph db' := by
  have noActive : db.sessionActiveTurns.get? fork = none := by
    rw [Option.eq_none_iff_forall_ne_some]
    intro active held
    have known := graph.activeSession fork active held
    rw [done.freshSession] at known
    cases known
  have noLink : ∀ turnId link, db.sessionTurns.get? turnId = some link → link.sessionId ≠ fork := by
    rintro turnId link held rfl
    have known := graph.linkSession turnId link held
    rw [done.freshSession] at known
    cases known
  have known : ∀ key, (db.sessions.get? key).isSome = true → (db'.sessions.get? key).isSome = true := by
    intro key present
    rw [done.sessions]
    split
    · rfl
    · exact present
  have actives : db'.sessionActiveTurns = db.sessionActiveTurns := by rw [done.frame]
  have links : db'.sessionTurns = db.sessionTurns := by rw [done.frame]
  have turns : db'.turns = db.turns := by rw [done.frame]
  refine ⟨?_, ?_, ?_, ?_⟩
  · intro key other held
    rw [done.sessions] at held
    split at held
    case isTrue here =>
      cases held
      subst here
      refine ⟨?_, ?_, fun _ => ⟨rfl, rfl⟩, ?_, ?_⟩
      · intro active present
        rw [actives, noActive] at present
        cases present
      · intro _ latest impossible
        cases impossible
      · intro turnId impossible
        cases impossible
      · intro turnId link present mine
        rw [links] at present
        exact absurd mine (noLink turnId link present)
    case isFalse =>
      refine (graph.session key other held).congr rfl (.of_tables ?_ (links ▸ .refl) ?_)
      · rw [actives]
      · intro turnId _
        rw [turns]
  · intro key active held
    rw [actives] at held
    exact known key (graph.activeSession key active held)
  · intro turnId link held
    rw [links] at held
    exact known _ (graph.linkSession turnId link held)
  · intro turnId link held
    rw [links] at held
    rw [turns]
    exact graph.linkTurn turnId link held

theorem Graph.other (graph : Graph db) (change : Uncommitted E db db') (mirrored : Mirrored db) : Graph db' := by
  cases change with
  | created done => exact graph.created done
  | followedUp done => exact graph.followedUp done
  | forked done => exact graph.forked done
  | interrupted done => exact graph.interrupted mirrored done
  | switched done =>
      refine graph.congr ?_ ?_ ?_ ?_
      · intro key
        rw [done.sessions]
        split
        case isTrue here =>
          rw [here, done.foundSession]
          rfl
        case isFalse => rfl
      all_goals rw [done.frame]
      · exact fun _ => rfl
      · exact .refl
      · exact fun _ _ => rfl
  | retired done =>
      rw [done.result]
      refine graph.congr (fun _ => rfl) (fun _ => rfl) .refl ?_
      intro turnId present
      simp only [Table.get?_modify]
      split
      case isTrue here =>
        rw [here, done.unlinked] at present
        cases present
      case isFalse => rfl
  | acquired done =>
      obtain ⟨adopted, _, turns⟩ := done.turns
      have others := done.frame
      refine graph.congr (fun _ => by rw [others]) (fun _ => by rw [others]) (by rw [others]; exact .refl) ?_
      intro turnId _
      rw [turns, Option.map_map]
      congr 1
      funext row
      dsimp only [Function.comp_apply]
      split <;> rfl
  | quiesced done =>
      rw [done.result]
      refine graph.congr (fun _ => rfl) ?_ .refl ?_
      · intro key
        simp only [Table.get?_modify]
        split
        · rw [Option.map_map]
          rfl
        · rfl
      · intro turnId _
        simp only [Table.get?_modify]
        split
        · rw [Option.map_map]
          rfl
        · rfl
  | renamed sessionId title done =>
      subst done
      refine graph.congr ?_ (fun _ => rfl) .refl (fun _ _ => rfl)
      intro key
      simp only [Table.get?_modify]
      split
      · rw [Option.map_map]
        rfl
      · rfl
  | runCreated state now baselines fresh _ done =>
      subst done
      refine graph.congr (fun _ => rfl) (fun _ => rfl) .refl ?_
      intro turnId present
      obtain ⟨link, held⟩ := Option.isSome_iff_exists.mp present
      have linked := graph.linkTurn turnId link held
      simp only [Table.get?_add_fresh _ _ fresh]
      split
      case isTrue here =>
        rw [here, fresh] at linked
        cases linked
      case isFalse => rfl
  | renewed _ _ done | released _ done | acknowledged _ done | evidenced _ done
  | aliased _ _ _ _ _ _ done =>
      subst done
      exact graph.congr (fun _ => rfl) (fun _ => rfl) .refl (fun _ _ => rfl)

theorem Graph.change (graph : Graph db) (change : Change E db db') (mirrored : Mirrored db) : Graph db' := by
  cases change with
  | committed done => exact graph.committed mirrored done
  | other done => exact graph.other done mirrored

theorem Reachable.graph (reached : Reachable E db) : Graph db := by
  refine Reachable.invariant ?_ (fun _ _ before held change => held.change change before.mirrored) reached
  constructor <;> (intro key row impossible; cases impossible)

/-! ## What the graph says of a session -/

/-- The session graph of one session, given which turns a ready session may have last. -/
structure GraphShown (readyAfter : TurnState → Prop) (db : E.Db) (sessionId : SessionId)
    (session : SessionRow) : Prop where
  activeIff : (db.sessionActiveTurns.get? sessionId).isSome = true ↔
    session.lifecycle = .running ∨ session.lifecycle = .waitingPermission ∨ session.lifecycle = .waitingInput
  active : ∀ row, db.sessionActiveTurns.get? sessionId = some row →
    session.latestTurnId = some row.turnId ∧ ∃ turn, db.turns.get? row.turnId = some turn ∧
      ((turn.state.status = .queued ∨ turn.state.status = .running) ↔ session.lifecycle = .running) ∧
      (turn.state.status = .waitingPermission ↔ session.lifecycle = .waitingPermission) ∧
      (turn.state.status = .waitingInput ↔ session.lifecycle = .waitingInput)
  others : ∀ turnId link, db.sessionTurns.get? turnId = some link → link.sessionId = sessionId →
    (∀ row, db.sessionActiveTurns.get? sessionId = some row → row.turnId ≠ turnId) →
      ∃ turn, db.turns.get? turnId = some turn ∧
        (turn.state.status = .completed ∨ turn.state.status = .failed ∨ turn.state.status = .interrupted)
  ready : session.lifecycle = .ready →
    (session.latestTurnId = none → session.parentSessionId.isSome = true) ∧
    ∀ latest, session.latestTurnId = some latest →
      ∃ turn, db.turns.get? latest = some turn ∧ readyAfter turn.state

/-- A turn that completed or failed retryably. -/
def completedOrRetryable (state : TurnState) : Prop :=
  state.status = .completed ∨
    state.status = .failed ∧ state.failure.any (fun failure => failure.retryability = .retryable) = true

/-- A turn after which the conversation continues; a denied permission is one. -/
def conversationContinues (state : TurnState) : Prop :=
  state.status = .completed ∨ state.status = .failed ∧ state.failure.any continuable = true

theorem terminal_cases {status : TurnStatus} (terminal : status.terminal = true) :
    status = .completed ∨ status = .failed ∨ status = .interrupted := by
  cases status <;> simp_all [TurnStatus.terminal]

theorem SessionGraph.shown {sessionId : SessionId} {session : SessionRow}
    (graph : SessionGraph db sessionId session) :
    GraphShown conversationContinues db sessionId session := by
  refine ⟨?_, ?_, ?_, ?_⟩
  · constructor
    · intro present
      obtain ⟨row, held⟩ := Option.isSome_iff_exists.mp present
      obtain ⟨_, turn, _, live⟩ := graph.active row held
      cases status : turn.state.status <;> simp_all [activeLifecycle]
    · intro working
      rw [← Bool.not_eq_false, Option.isSome_eq_false_iff, Option.isNone_iff_eq_none]
      intro none
      cases latest : session.latestTurnId with
      | none => simp [(graph.fork latest).1] at working
      | some turnId =>
          obtain ⟨turn, _, settled⟩ := graph.idle none turnId latest
          rcases working with lifecycle | lifecycle | lifecycle <;> simp [lifecycle, settledAs] at settled
  · intro row held
    obtain ⟨latest, turn, found, live⟩ := graph.active row held
    refine ⟨latest, turn, found, ?_⟩
    cases status : turn.state.status <;> rw [status] at live <;> simp [activeLifecycle] at live <;>
      simp [← live]
  · intro turnId link held mine inactive
    by_cases named : session.latestTurnId = some turnId
    · have none : db.sessionActiveTurns.get? sessionId = none := by
        rw [Option.eq_none_iff_forall_ne_some]
        intro row present
        exact inactive row present (Option.some.inj ((graph.active row present).1.symm.trans named))
      obtain ⟨turn, found, settled⟩ := graph.idle none turnId named
      exact ⟨turn, found, terminal_cases (settledAs_terminal settled)⟩
    · obtain ⟨turn, found, terminal⟩ := graph.others turnId link held mine named
      exact ⟨turn, found, terminal_cases terminal⟩
  · intro ready
    refine ⟨fun none => (graph.fork none).2, ?_⟩
    intro latest named
    have none : db.sessionActiveTurns.get? sessionId = none := by
      rw [Option.eq_none_iff_forall_ne_some]
      intro row present
      obtain ⟨_, turn, _, live⟩ := graph.active row present
      rw [ready] at live
      cases status : turn.state.status <;> simp [status, activeLifecycle] at live
    obtain ⟨turn, found, settled⟩ := graph.idle none latest named
    rw [ready] at settled
    exact ⟨turn, found, settled⟩

/-- In every run, every session shows its graph. -/
theorem run_graph (ops : List Operation) (sessionId : SessionId) (session : SessionRow)
    (found : (runOf E ops).sessions.get? sessionId = some session) :
    GraphShown conversationContinues (runOf E ops) sessionId session :=
  ((reachable_runOf ops).graph.session sessionId session found).shown

/-- A turn whose permission is denied. -/
def deniedRun : List Operation := sampleRun [
  (1, 1, .requestPermission "ask" ⟨"request", sampleDigest, "verify"⟩),
  (2, 2, .resolvePermission "deny" "request" false none)]

theorem deniedRun_session :
    ((runOf plain deniedRun).sessions.get? sampleSession).map (fun row => (row.lifecycle, row.latestTurnId)) =
      some (.ready, some sampleTurn) := by decide +kernel

theorem run_graph_denied : ∃ session, (runOf plain deniedRun).sessions.get? sampleSession = some session ∧
    GraphShown conversationContinues (runOf plain deniedRun) sampleSession session := by
  obtain ⟨session, found, _⟩ := Option.map_eq_some_iff.mp deniedRun_session
  exact ⟨session, found, run_graph deniedRun sampleSession session found⟩

/-- A denial leaves a ready session after a turn that neither completed nor failed retryably. -/
theorem denied_not_retryable : ¬ ∀ (E : Environment) (ops : List Operation) (sessionId : SessionId)
    (session : SessionRow), (runOf E ops).sessions.get? sessionId = some session →
      GraphShown completedOrRetryable (runOf E ops) sessionId session := by
  intro claim
  obtain ⟨session, found, shown⟩ := Option.map_eq_some_iff.mp deniedRun_session
  simp only [Prod.mk.injEq] at shown
  obtain ⟨turn, held, allowed⟩ := ((claim plain deniedRun sampleSession session found).ready shown.1).2 _ shown.2
  have denied : ((runOf plain deniedRun).turns.get? sampleTurn).map (fun row =>
      (row.state.status, row.state.failure.map TurnFailure.retryability)) = some (.failed, some .terminal) := by
    decide +kernel
  rw [held, Option.map_some, Option.some.injEq, Prod.mk.injEq] at denied
  rcases allowed with completed | ⟨_, retryable⟩
  · exact absurd (completed.symm.trans denied.1) (by decide)
  · obtain ⟨failure, failed, terminal⟩ := Option.map_eq_some_iff.mp denied.2
    rw [failed] at retryable
    simp [terminal] at retryable

end LatteCode.Storage
