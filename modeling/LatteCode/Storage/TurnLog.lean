import LatteCode.Storage.Graph
/- The event log of a linked turn, and what it says of the turn's past. -/

namespace LatteCode.Storage
open Keyed Outcome Numbered Relation Runs

variable {E : Environment} {db middle db' : E.Db} {turnId : TurnId}

/-- A linked turn moves along a path of states, each with its event. -/
structure TurnMoved (db db' : E.Db) (turnId : TurnId) (turn row : TurnRow) (states : List TurnState) : Prop where
  before : db.turns.get? turnId = some turn
  after : db'.turns.get? turnId = some row
  linked : (db.sessionTurns.get? turnId).isSome = true
  path : StatePath turn.state row.state states
  lastSeq : row.lastSeq = turn.lastSeq + states.length
  readModel : db.turnReadModel.get? turnId = some ⟨turn.state.revision, turn.lastSeq, turn.state⟩ →
    db'.turnReadModel.get? turnId = some ⟨row.state.revision, row.lastSeq, row.state⟩
  events : ∃ now, Extends (stream db.events turnId) (stream db'.events turnId) turn.lastSeq
    (states.map (turnEventRow now))

/-- A turn keeps its state and its log. -/
structure TurnKept (db db' : E.Db) (turnId : TurnId) : Prop where
  links : (db'.sessionTurns.get? turnId).isSome = (db.sessionTurns.get? turnId).isSome
  turns : (db'.turns.get? turnId).map (fun row => (row.state, row.lastSeq)) =
    (db.turns.get? turnId).map fun row => (row.state, row.lastSeq)
  readModel : db'.turnReadModel.get? turnId = db.turnReadModel.get? turnId
  events : stream db'.events turnId = stream db.events turnId

theorem TurnKept.trans (first : TurnKept db middle turnId) (second : TurnKept middle db' turnId) :
    TurnKept db db' turnId :=
  ⟨second.links.trans first.links, second.turns.trans first.turns, second.readModel.trans first.readModel,
    second.events.trans first.events⟩

/-- What one step does to one turn. -/
inductive TurnStep (db db' : E.Db) (turnId : TurnId) : Prop
  | unlinked (after : db'.sessionTurns.get? turnId = none)
  | kept (same : TurnKept db db' turnId)
  | moved {turn row : TurnRow} {states : List TurnState} (done : TurnMoved db db' turnId turn row states)
  | child {state : TurnState} {lease : Option Lease} {now : Nat}
      (started : initialTurn turnId lease = .ok state) (absent : db.turns.get? turnId = none)
      (after : db'.turns.get? turnId = some (childRow state lease now))
      (readModel : db'.turnReadModel.get? turnId =
        some ⟨state.revision, (childRow state lease now).lastSeq, state⟩)
      (events : Extends (stream db.events turnId) (stream db'.events turnId) 0
        ((startedStates lease state).map (turnEventRow now)))

/-- A turn that a write does not name keeps its rows. -/
theorem TurnWritten.step {turn row : TurnRow} {states : List TurnState} {now : Nat} (mirrored : Mirrored db)
    (links : SameLinks db.sessionTurns db'.sessionTurns) {key : TurnId} (found : db.turns.get? key = some turn)
    (linked : (db.sessionTurns.get? key).isSome = true)
    (written : TurnWritten db db' turn row states now) (turnId : TurnId) :
    (turnId = key ∧ TurnMoved db db' turnId turn row states) ∨ TurnKept db db' turnId := by
  have named := mirrored.turnId _ _ found
  by_cases here : turnId = key
  · subst here
    refine .inl ⟨rfl, found, ?_, linked, written.path, written.lastSeq, ?_, now, ?_⟩
    · rw [written.turns, if_pos named.symm]
    · intro held
      rw [written.readModel]
      split
      · rw [held, Option.map_some]
      case isFalse unmoved =>
        have stayed : states = [] := by
          by_contra moved
          exact unmoved ⟨named.symm, moved⟩
        have same : row.state = turn.state := by
          have path := written.path
          rw [stayed] at path
          exact path.of_nil
        rw [held, written.lastSeq, stayed, same]
        rfl
    · exact named ▸ written.events.extended
  · refine .inr ⟨links.isSome turnId, ?_, ?_, ?_⟩
    · rw [written.turns, if_neg (named ▸ here)]
    · rw [written.readModel, if_neg fun both => here (both.1.trans named)]
    · exact written.events.other turnId (named ▸ here)

theorem ChildWritten.step {sessionId : SessionId} {state : TurnState} {parent : Option TurnId}
    {ordinal now : Nat} {lease : Option Lease}
    (child : ChildWritten db db' sessionId state parent ordinal lease now) (turnId : TurnId) :
    TurnStep db db' turnId := by
  by_cases here : turnId = state.turnId
  · subst here
    refine .child child.started child.freshTurn ?_ ?_ child.events.extended
    · rw [child.turns, if_pos rfl]
    · rw [child.readModel, if_pos rfl]
  · refine .kept ⟨?_, ?_, ?_, child.events.other turnId here⟩
    · rw [child.links, if_neg here]
    · rw [child.turns, if_neg here]
    · rw [child.readModel, if_neg here]

/-- A change that rewrites only columns beside the state, and no log. -/
theorem TurnKept.of_rows (links : db'.sessionTurns = db.sessionTurns)
    (turns : (db'.turns.get? turnId).map (fun row => (row.state, row.lastSeq)) =
      (db.turns.get? turnId).map fun row => (row.state, row.lastSeq))
    (readModel : db'.turnReadModel = db.turnReadModel) (events : db'.events = db.events) :
    TurnKept db db' turnId := by
  refine ⟨?_, turns, ?_, ?_⟩
  · rw [links]
  · rw [readModel]
  · rw [events]

theorem Retired.turn {key : TurnId} {state : TurnState} {sequence now : Nat}
    (done : Retired key state sequence now db db') (turnId : TurnId) :
    db'.sessionTurns.get? turnId = none ∨ TurnKept db db' turnId := by
  have result := done.result
  by_cases here : turnId = key
  · refine .inl ?_
    rw [result, here]
    exact done.unlinked
  · refine .inr ⟨?_, ?_, ?_, ?_⟩
    · rw [result]
    · rw [result]
      simp only [Table.get?_modify, if_neg here]
    · rw [result]
      simp only [Table.get?_modify, if_neg here]
    · funext n
      rw [result, stream, Table.get?_add_fresh _ _ done.fresh, if_neg fun same => here (congrArg Prod.fst same)]
      rfl

theorem Quiesced.turn {sessionId : SessionId} {key : TurnId} {token : Nat} {turn : TurnRow}
    (done : Quiesced sessionId key token turn db db') (turnId : TurnId) : TurnKept db db' turnId := by
  have result := done.result
  refine .of_rows (by rw [result]) ?_ (by rw [result]) (by rw [result])
  rw [result]
  simp only [Table.get?_modify]
  split
  · rw [Option.map_map]
    rfl
  · rfl

theorem Interrupted.turn {sessionId : SessionId} {key : TurnId} {token now : Nat}
    {session session' : SessionRow} {turn row : TurnRow} {rows : List SessionEventRow}
    {cards : List TranscriptEntry} (mirrored : Mirrored db) (graph : Graph db)
    (done : Interrupted sessionId key token now db db' session session' turn row rows cards) (turnId : TurnId) :
    TurnMoved db db' turnId turn row [row.state] ∨ TurnKept db db' turnId := by
  have owner := graph.session _ _ done.foundSession
  obtain ⟨link, linked, _⟩ := owner.latest _ (owner.active _ done.active).1
  rcases done.written.step mirrored done.links done.foundTurn (Option.isSome_iff_exists.mpr ⟨link, linked⟩)
    turnId with ⟨_, moved⟩ | kept
  · exact .inl moved
  · exact .inr kept

theorem Uncommitted.turn_step (change : Uncommitted E db db') (mirrored : Mirrored db) (graph : Graph db)
    (turnId : TurnId) : TurnStep db db' turnId := by
  cases change with
  | created done => exact done.child.step turnId
  | followedUp done => exact done.child.step turnId
  | interrupted done =>
      rcases done.turn mirrored graph turnId with moved | kept
      · exact .moved moved
      · exact .kept kept
  | retired done =>
      rcases done.turn turnId with unlinked | kept
      · exact .unlinked unlinked
      · exact .kept kept
  | quiesced done => exact .kept (done.turn turnId)
  | acquired done =>
      have frame := done.frame
      obtain ⟨adopted, _, turns⟩ := done.turns
      refine .kept (.of_rows (by rw [frame]) ?_ (by rw [frame]) (by rw [frame]))
      rw [turns, Option.map_map]
      congr 1
      funext row
      dsimp only [Function.comp_apply]
      split <;> rfl
  | runCreated state now baselines fresh freshModel done =>
      subst done
      by_cases here : turnId = state.turnId
      · refine .unlinked ?_
        rw [here, Option.eq_none_iff_forall_ne_some]
        intro link held
        have present := graph.linkTurn _ link held
        rw [fresh] at present
        cases present
      · refine .kept ⟨rfl, ?_, ?_, rfl⟩
        · simp only [Table.get?_add_fresh _ _ fresh, if_neg here]
        · simp only [Table.get?_add_fresh _ _ freshModel, if_neg here]
  | switched done =>
      rw [done.frame]
      exact .kept (.of_rows rfl rfl rfl rfl)
  | forked done =>
      rw [done.frame]
      exact .kept (.of_rows rfl rfl rfl rfl)
  | renewed _ _ done | released _ done | renamed _ _ done | acknowledged _ done | evidenced _ done
  | aliased _ _ _ _ _ _ done =>
      subst done
      exact .kept (.of_rows rfl rfl rfl rfl)

theorem Committed.turn_step {request : SessionCommitRequest} {lease : Lease} {now : Nat}
    {session session' : SessionRow} {turn row : TurnRow} {draft : Draft} {mid : E.Db} {states : List TurnState}
    {cards : List TranscriptEntry} {response : SessionCommitResponse} (mirrored : Mirrored db) (graph : Graph db)
    (done : Committed E request lease now db db' session session' turn row draft mid states cards response)
    (turnId : TurnId) : TurnStep db db' turnId := by
  have found := done.admitted.foundSession
  have latest := graph.gate_latest found done.admitted.gate
  obtain ⟨link, linked, _⟩ := (graph.session _ _ found).latest _ latest
  rcases done.written.step mirrored done.links done.admitted.foundTurn
    (Option.isSome_iff_exists.mpr ⟨link, linked⟩) turnId with ⟨_, moved⟩ | kept
  · exact .moved moved
  · exact .kept kept

/-! ## Housekeeping ends a turn at most once -/

/-- What housekeeping does to one turn: nothing, or it ends one that was still active. -/
inductive TurnEnds (db db' : E.Db) (turnId : TurnId) : Prop
  | unlinked (after : db'.sessionTurns.get? turnId = none)
  | kept (same : TurnKept db db' turnId)
  | ended {turn row : TurnRow} (done : TurnMoved db db' turnId turn row [row.state])
      (linked : (db'.sessionTurns.get? turnId).isSome = true)
      (alive : turn.state.status.terminal = false) (terminal : row.state.status.terminal = true)

theorem Housekeeping.links (change : Housekeeping E db db') : SameLinks db.sessionTurns db'.sessionTurns := by
  cases change with
  | interrupted done => exact done.links
  | retired done =>
      rw [done.result]
      exact .refl
  | quiesced done =>
      rw [done.result]
      exact .refl
  | released freed done =>
      subst done
      exact .refl

theorem Housekeeping.turn_ends (change : Housekeeping E db db') (mirrored : Mirrored db) (graph : Graph db)
    (turnId : TurnId) : TurnEnds db db' turnId := by
  cases change with
  | interrupted done =>
      rcases done.turn mirrored graph turnId with moved | kept
      · refine .ended moved ?_ done.alive ?_
        · rw [done.links.isSome]
          exact moved.linked
        · rw [done.state]
          rfl
      · exact .kept kept
  | retired done =>
      rcases done.turn turnId with unlinked | kept
      · exact .unlinked unlinked
      · exact .kept kept
  | quiesced done => exact .kept (done.turn turnId)
  | released freed done =>
      subst done
      exact .kept (.of_rows rfl rfl rfl rfl)

theorem TurnMoved.trans_kept {turn row : TurnRow} {states : List TurnState}
    (moved : TurnMoved db middle turnId turn row states) (kept : TurnKept middle db' turnId) :
    ∃ row', row'.state = row.state ∧ TurnMoved db db' turnId turn row' states := by
  have turns := kept.turns
  rw [moved.after, Option.map_some] at turns
  obtain ⟨row', after, same⟩ := Option.map_eq_some_iff.mp turns
  simp only [Prod.mk.injEq] at same
  obtain ⟨state, lastSeq⟩ := same
  obtain ⟨now, events⟩ := moved.events
  refine ⟨row', state, moved.before, after, moved.linked, ?_, ?_, ?_, now, ?_⟩
  · rw [state]
    exact moved.path
  · rw [lastSeq]
    exact moved.lastSeq
  · intro held
    rw [kept.readModel, state, lastSeq]
    exact moved.readModel held
  · rw [kept.events]
    exact events

theorem TurnKept.trans_moved {turn row : TurnRow} {states : List TurnState} (kept : TurnKept db middle turnId)
    (moved : TurnMoved middle db' turnId turn row states) :
    ∃ turn', turn'.state = turn.state ∧ TurnMoved db db' turnId turn' row states := by
  have turns := kept.turns
  rw [moved.before, Option.map_some] at turns
  obtain ⟨turn', before, same⟩ := Option.map_eq_some_iff.mp turns.symm
  simp only [Prod.mk.injEq] at same
  obtain ⟨state, lastSeq⟩ := same
  obtain ⟨now, events⟩ := moved.events
  refine ⟨turn', state, before, moved.after, ?_, ?_, ?_, ?_, now, ?_⟩
  · rw [← kept.links]
    exact moved.linked
  · rw [state]
    exact moved.path
  · rw [lastSeq]
    exact moved.lastSeq
  · intro held
    refine moved.readModel ?_
    rw [kept.readModel, ← state, ← lastSeq]
    exact held
  · rw [lastSeq, ← kept.events]
    exact events

theorem TurnEnds.trans (first : TurnEnds db middle turnId) (second : TurnEnds middle db' turnId)
    (links : SameLinks middle.sessionTurns db'.sessionTurns) : TurnEnds db db' turnId := by
  cases second with
  | unlinked after => exact .unlinked after
  | kept same =>
      cases first with
      | unlinked after =>
          refine .unlinked ?_
          rw [← Option.not_isSome_iff_eq_none, same.links, after]
          exact Bool.false_ne_true
      | kept before => exact .kept (before.trans same)
      | ended done linked alive terminal =>
          obtain ⟨row', state, moved⟩ := done.trans_kept same
          rw [← state] at moved terminal
          exact .ended moved (by rw [same.links]; exact linked) alive terminal
  | ended done linked alive terminal =>
      cases first with
      | unlinked after =>
          rw [links.isSome, after] at linked
          cases linked
      | kept before =>
          obtain ⟨turn', state, moved⟩ := before.trans_moved done
          exact .ended moved linked (state ▸ alive) terminal
      | ended earlier _ _ closed =>
          have same := earlier.after.symm.trans done.before
          cases same
          rw [alive] at closed
          cases closed

theorem Housekeeping.path_turn_ends (path : ReflTransGen (Housekeeping E) db db') (reached : Reachable E db)
    (turnId : TurnId) : TurnEnds db db' turnId := by
  induction path with
  | refl => exact .kept (.of_rows rfl rfl rfl rfl)
  | tail before change ih =>
      have here := reached.path before
      exact ih.trans (change.turn_ends here.mirrored here.graph turnId) change.links

/-- One operation moves a turn along at most one path. -/
theorem step_turn (reached : Reachable E db) (op : Operation) (turnId : TurnId) :
    TurnStep db (step E db op) turnId := by
  rcases step_ok reached op with ⟨_, _, _, _, _, _, _, _, _, _, _, _, _, done⟩ | change | path
  · exact done.turn_step reached.mirrored reached.graph turnId
  · exact change.turn_step reached.mirrored reached.graph turnId
  · cases Housekeeping.path_turn_ends path reached turnId with
    | unlinked after => exact .unlinked after
    | kept same => exact .kept same
    | ended done => exact .moved done

/-! ## The log of every linked turn -/

/-- Turns that do not exist have no events. -/
def NoOrphanEvents (db : E.Db) : Prop :=
  ∀ turnId, db.turns.get? turnId = none → ∀ n, stream db.events turnId n = none

theorem NoOrphanEvents.of_tables (held : NoOrphanEvents db)
    (turns : ∀ key, db'.turns.get? key = none → db.turns.get? key = none)
    (events : ∀ key n, db'.turns.get? key = none → stream db'.events key n = stream db.events key n) :
    NoOrphanEvents db' := by
  intro key absent n
  rw [events key n absent]
  exact held key (turns key absent) n

theorem NoOrphanEvents.change (held : NoOrphanEvents db) (change : Change E db db') :
    NoOrphanEvents db' := by
  have written : ∀ {turn row : TurnRow} {states : List TurnState} {now : Nat},
      TurnWritten db db' turn row states now → NoOrphanEvents db' := by
    intro turn row states now written
    have away : ∀ key, db'.turns.get? key = none → key ≠ turn.state.turnId ∧ db.turns.get? key = none := by
      intro key absent
      rw [written.turns] at absent
      split at absent
      case isTrue => cases absent
      case isFalse differs => exact ⟨differs, absent⟩
    refine held.of_tables (fun key absent => (away key absent).2) ?_
    intro key n absent
    rw [written.events.other key (away key absent).1]
  have linked : ∀ {sessionId : SessionId} {state : TurnState} {parent : Option TurnId} {ordinal now : Nat}
      {lease : Option Lease}, ChildWritten db db' sessionId state parent ordinal lease now →
        NoOrphanEvents db' := by
    intro sessionId state parent ordinal now lease child
    have away : ∀ key, db'.turns.get? key = none → key ≠ state.turnId ∧ db.turns.get? key = none := by
      intro key absent
      rw [child.turns] at absent
      split at absent
      case isTrue => cases absent
      case isFalse differs => exact ⟨differs, absent⟩
    refine held.of_tables (fun key absent => (away key absent).2) ?_
    intro key n absent
    rw [child.events.other key (away key absent).1]
  cases change with
  | committed done => exact written done.written
  | other done =>
      cases done with
      | created done => exact linked done.child
      | followedUp done => exact linked done.child
      | interrupted done => exact written done.written
      | retired done =>
          have result := done.result
          have same : ∀ key, (db'.turns.get? key).isSome = (db.turns.get? key).isSome := by
            intro key
            rw [result]
            simp only [Table.get?_modify]
            split
            · rw [Option.isSome_map]
            · rfl
          have absent : ∀ key, db'.turns.get? key = none → db.turns.get? key = none := by
            intro key none
            rw [← Option.not_isSome_iff_eq_none, ← same, none]
            exact Bool.false_ne_true
          refine held.of_tables absent ?_
          intro key n none
          rw [result, stream, Table.get?_add_fresh _ _ done.fresh, if_neg]
          · rfl
          · intro here
            rw [Prod.mk.injEq] at here
            have present := done.present
            rw [← here.1, absent key none] at present
            cases present
      | acquired done =>
          have frame := done.frame
          obtain ⟨adopted, _, turns⟩ := done.turns
          refine held.of_tables ?_ (fun key n _ => by rw [frame])
          intro key none
          rw [turns, Option.map_eq_none_iff] at none
          exact none
      | quiesced done =>
          have result := done.result
          refine held.of_tables ?_ (fun key n _ => by rw [result])
          intro key none
          rw [result] at none
          simp only [Table.get?_modify] at none
          split at none
          · exact Option.map_eq_none_iff.mp none
          · exact none
      | runCreated state now baselines fresh _ done =>
          subst done
          refine held.of_tables ?_ (fun _ _ _ => rfl)
          intro key none
          simp only [Table.get?_add_fresh _ _ fresh] at none
          split at none
          case isTrue => cases none
          case isFalse => exact none
      | switched done =>
          rw [done.frame]
          exact held
      | forked done =>
          rw [done.frame]
          exact held
      | renewed _ _ done | released _ done | renamed _ _ done | acknowledged _ done | evidenced _ done
      | aliased _ _ _ _ _ _ done =>
          subst done
          exact held

theorem Reachable.noOrphanEvents (reached : Reachable E db) : NoOrphanEvents db :=
  reached.invariant (fun _ _ _ => rfl) fun _ _ _ held change => held.change change

/-- The log of a linked turn agrees with the turn. -/
structure TurnLog (db : E.Db) (turnId : TurnId) (turn : TurnRow) : Prop where
  lastSeq : turn.lastSeq = turn.state.revision
  readModel : db.turnReadModel.get? turnId = some ⟨turn.state.revision, turn.lastSeq, turn.state⟩
  coherent : turn.state.Coherent
  events : Contiguous (stream db.events turnId) 0 turn.lastSeq

theorem TurnLog.kept {turn row : TurnRow} (log : TurnLog db turnId turn) (same : TurnKept db db' turnId)
    (before : db.turns.get? turnId = some turn) (after : db'.turns.get? turnId = some row) :
    row.state = turn.state ∧ TurnLog db' turnId row := by
  have turns := same.turns
  rw [before, after, Option.map_some, Option.map_some, Option.some.injEq, Prod.mk.injEq] at turns
  obtain ⟨state, lastSeq⟩ := turns
  refine ⟨state, ?_, ?_, ?_, ?_⟩
  · rw [lastSeq, state]
    exact log.lastSeq
  · rw [same.readModel, state, lastSeq]
    exact log.readModel
  · rw [state]
    exact log.coherent
  · rw [same.events, lastSeq]
    exact log.events

theorem TurnLog.moved {turn row : TurnRow} {states : List TurnState} (log : TurnLog db turnId turn)
    (done : TurnMoved db db' turnId turn row states) : TurnLog db' turnId row := by
  obtain ⟨now, events⟩ := done.events
  refine ⟨?_, done.readModel log.readModel, done.path.coherent log.coherent, ?_⟩
  · rw [done.lastSeq, log.lastSeq, done.path.revision]
  · have extended := log.events.append (Nat.zero_le _) events
    rw [List.length_map] at extended
    rw [done.lastSeq]
    exact extended

theorem TurnLog.child {state : TurnState} {lease : Option Lease} {now : Nat}
    (started : initialTurn turnId lease = .ok state) (empty : ∀ n, stream db.events turnId n = none)
    (readModel : db'.turnReadModel.get? turnId =
      some ⟨state.revision, (childRow state lease now).lastSeq, state⟩)
    (events : Extends (stream db.events turnId) (stream db'.events turnId) 0
      ((startedStates lease state).map (turnEventRow now))) :
    TurnLog db' turnId (childRow state lease now) := by
  obtain ⟨_, revision, _, coherent⟩ := initialTurn_ok started
  refine ⟨revision.symm, readModel, coherent, ?_⟩
  have none : Contiguous (stream db.events turnId) 0 0 := .empty empty
  have extended := none.append (Nat.le_refl _) events
  cases lease with
  | none => exact extended
  | some lease => exact extended

/-- What the event of a state tells: the handoff of a completion, else the status. -/
def Reports (event : RuntimeEvent) (state : TurnState) : Prop :=
  if state.status = .completed then ∃ handoff, state.handoff = some handoff ∧ event = .handoffProduced handoff
  else event = .stateChanged state.status

theorem turnEvent_reports {state : TurnState} (coherent : state.Coherent) : Reports (turnEvent state) state := by
  unfold Reports turnEvent
  split
  case isTrue completed =>
    obtain ⟨handoff, held⟩ := Option.isSome_iff_exists.mp (coherent.handoff.mpr completed)
    exact ⟨handoff, held, by rw [held]⟩
  case isFalse other =>
    have none : state.handoff = none := by
      rw [← Option.not_isSome_iff_eq_none]
      exact fun held => other (coherent.handoff.mp held)
    rw [none]

/-- The event at `seq` tells what the turn was at that revision: a state that it had between two calls,
or the cancelling state inside the call that interrupted it. -/
structure Remembered (E : Environment) (ops : List Operation) (k : Nat) (turnId : TurnId) (seq : Nat)
    (event : EventRow) : Prop where
  revision : event.revision = seq
  envelope : event.envelope.turnId = turnId ∧ event.envelope.revision = seq
  told : (∃ j, j ≤ k ∧ ∃ turn, (dbAt E ops j).turns.get? turnId = some turn ∧ turn.state.revision = seq ∧
      Reports event.envelope.event turn.state) ∨
    ∃ j, j < k ∧ ∃ before after, (dbAt E ops j).turns.get? turnId = some before ∧
      (dbAt E ops (j + 1)).turns.get? turnId = some after ∧ before.state.status.terminal = false ∧
      before.state.revision + 1 = seq ∧ after.state.revision = seq + 1 ∧ after.state.status = .interrupted ∧
      event.envelope.event = .stateChanged .cancelling

theorem Remembered.later {ops : List Operation} {k : Nat} {seq : Nat} {event : EventRow}
    (held : Remembered E ops k turnId seq event) : Remembered E ops (k + 1) turnId seq event := by
  refine ⟨held.revision, held.envelope, ?_⟩
  rcases held.told with ⟨j, order, facts⟩ | ⟨j, order, facts⟩
  · exact .inl ⟨j, Nat.le_succ_of_le order, facts⟩
  · exact .inr ⟨j, Nat.lt_succ_of_lt order, facts⟩

/-- An event written along a path tells a state of the path. -/
theorem TurnMoved.remembered {ops : List Operation} {k : Nat} {turn row : TurnRow} {states : List TurnState}
    (done : TurnMoved (dbAt E ops k) (dbAt E ops (k + 1)) turnId turn row states)
    (log : TurnLog (dbAt E ops k) turnId turn) (named : turn.state.turnId = turnId) (now i : Nat)
    (bound : i < states.length) :
    Remembered E ops (k + 1) turnId (turn.lastSeq + 1 + i) (turnEventRow now states[i]) := by
  obtain ⟨same, revision⟩ := done.path.states_getElem i bound
  have seq : states[i].revision = turn.lastSeq + 1 + i := by rw [revision, log.lastSeq]
  refine ⟨seq, ⟨same.trans named, seq⟩, ?_⟩
  rcases done.path.last_or_cancelling i bound with
    last | ⟨alive, interrupted, place, next, stopped, keeps⟩
  · refine .inl ⟨k + 1, Nat.le_refl _, row, done.after, last ▸ seq, ?_⟩
    have reports := turnEvent_reports (done.path.coherent log.coherent)
    rw [← last] at reports ⊢
    exact reports
  · refine .inr ⟨k, Nat.lt_succ_self k, turn, row, done.before, done.after, alive, ?_, ?_, interrupted, ?_⟩
    · rw [← place, seq]
    · rw [next, seq]
    · have reports := turnEvent_reports (keeps log.coherent)
      rw [Reports, if_neg (by rw [stopped]; decide)] at reports
      exact reports.trans (by rw [stopped])

theorem ChildWritten.links_kept {sessionId : SessionId} {state : TurnState} {parent : Option TurnId}
    {ordinal now : Nat} {lease : Option Lease}
    (child : ChildWritten db db' sessionId state parent ordinal lease now) {turnId : TurnId}
    {key : SessionId × Option TurnId × Nat} (linked : (db.sessionTurns.get? turnId).map linkKey = some key) :
    (db'.sessionTurns.get? turnId).map linkKey = some key := by
  rw [child.links]
  split
  case isTrue same =>
    rw [same, child.freshLink] at linked
    cases linked
  case isFalse => exact linked

/-- A turn once linked stays linked, in its session, under its parent and with its ordinal. -/
theorem Change.links_kept (change : Change E db db') {turnId : TurnId} {key : SessionId × Option TurnId × Nat}
    (linked : (db.sessionTurns.get? turnId).map linkKey = some key) :
    (db'.sessionTurns.get? turnId).map linkKey = some key := by
  cases change with
  | committed done =>
      rw [done.links turnId]
      exact linked
  | other done =>
      cases done with
      | created done => exact done.child.links_kept linked
      | followedUp done => exact done.child.links_kept linked
      | interrupted done =>
          rw [done.links turnId]
          exact linked
      | retired done | quiesced done =>
          rw [done.result]
          exact linked
      | acquired done | switched done | forked done =>
          rw [done.frame]
          exact linked
      | renewed _ _ done | released _ done | renamed _ _ done | acknowledged _ done | evidenced _ done
      | aliased _ _ _ _ _ _ done | runCreated _ _ _ _ _ done =>
          subst done
          exact linked

theorem Housekeeping.path_links_kept {db db' : Database E.Digest}
    (path : Relation.ReflTransGen (Housekeeping E) db db') {turnId : TurnId} {key : SessionId × Option TurnId × Nat}
    (linked : (db.sessionTurns.get? turnId).map linkKey = some key) :
    (db'.sessionTurns.get? turnId).map linkKey = some key := by
  induction path with
  | refl => exact linked
  | tail _ change ih => exact Change.links_kept (.other change.uncommitted) ih

theorem step_links_kept (reached : Reachable E db) (op : Operation) {turnId : TurnId}
    {key : SessionId × Option TurnId × Nat} (linked : (db.sessionTurns.get? turnId).map linkKey = some key) :
    ((step E db op).sessionTurns.get? turnId).map linkKey = some key := by
  rcases step_change reached op with change | path
  · exact change.links_kept linked
  · exact Housekeeping.path_links_kept path linked

theorem step_links_grow (reached : Reachable E db) (op : Operation) (turnId : TurnId)
    (linked : (db.sessionTurns.get? turnId).isSome = true) :
    ((step E db op).sessionTurns.get? turnId).isSome = true := by
  obtain ⟨link, found⟩ := Option.isSome_iff_exists.mp linked
  have keyed : (db.sessionTurns.get? turnId).map linkKey = some (linkKey link) := by rw [found, Option.map_some]
  obtain ⟨later, held, _⟩ := Option.map_eq_some_iff.mp (step_links_kept reached op keyed)
  rw [held]
  rfl

/-- A linked turn keeps its link and its events. -/
structure LogGrows (db db' : E.Db) (turnId : TurnId) : Prop where
  linked : (db'.sessionTurns.get? turnId).isSome = true
  events : ∀ n row, stream db.events turnId n = some row → stream db'.events turnId n = some row

theorem step_log_grows (reached : Reachable E db) (op : Operation) (turnId : TurnId)
    (linked : (db.sessionTurns.get? turnId).isSome = true) : LogGrows db (step E db op) turnId := by
  have still := step_links_grow reached op turnId linked
  refine ⟨still, ?_⟩
  cases step_turn reached op turnId with
  | unlinked after =>
      rw [after] at still
      cases still
  | kept same =>
      rw [same.events]
      exact fun _ _ told => told
  | moved done =>
      obtain ⟨_, events⟩ := done.events
      exact events.kept
  | child _ _ _ _ events => exact events.kept

theorem run_log_grows (ops : List Operation) (turnId : TurnId) {j k : Nat} (order : j ≤ k)
    (bound : k ≤ ops.length) (linked : ((dbAt E ops j).sessionTurns.get? turnId).isSome = true) :
    LogGrows (dbAt E ops j) (dbAt E ops k) turnId := by
  let R (db db' : E.Db) : Prop := (db.sessionTurns.get? turnId).isSome = true → LogGrows db db' turnId
  have still : ∀ db, R db db := fun _ held => ⟨held, fun _ _ told => told⟩
  refine monotone (R := R) still ?_ ?_ order bound linked
  · intro a b c first second held
    have one := first held
    have two := second one.linked
    exact ⟨two.linked, fun n row told => two.events n row (one.events n row told)⟩
  · intro i inside held
    rw [stateAt_succ inside]
    exact step_log_grows (reachable_dbAt ops i) ops[i] turnId held

/-- The log tells every state that the turn has had between two calls. -/
def TellsPast (E : Environment) (ops : List Operation) (k : Nat) (turnId : TurnId) : Prop :=
  ∀ j, j ≤ k → ∀ past, ((dbAt E ops j).sessionTurns.get? turnId).isSome = true →
    (dbAt E ops j).turns.get? turnId = some past → 1 ≤ past.state.revision →
      ∃ event, stream (dbAt E ops k).events turnId past.state.revision = some event ∧
        Reports event.envelope.event past.state

/-- A stream that keeps its rows and tells the new state still tells the past. -/
theorem TellsPast.succ {ops : List Operation} {k : Nat} (held : TellsPast E ops k turnId)
    (kept : ∀ n row, stream (dbAt E ops k).events turnId n = some row →
      stream (dbAt E ops (k + 1)).events turnId n = some row)
    (new : ∀ row, (dbAt E ops (k + 1)).turns.get? turnId = some row → 1 ≤ row.state.revision →
      ∃ event, stream (dbAt E ops (k + 1)).events turnId row.state.revision = some event ∧
        Reports event.envelope.event row.state) : TellsPast E ops (k + 1) turnId := by
  intro j order past linked found started
  rcases Nat.lt_or_eq_of_le order with earlier | rfl
  · obtain ⟨event, told, reports⟩ := held j (Nat.le_of_lt_succ earlier) past linked found started
    exact ⟨event, kept _ _ told, reports⟩
  · exact new past found started

/-- The event of the last state of a path. -/
theorem TurnMoved.tells {ops : List Operation} {k : Nat} {turn row : TurnRow} {states : List TurnState}
    (done : TurnMoved (dbAt E ops k) (dbAt E ops (k + 1)) turnId turn row states)
    (log : TurnLog (dbAt E ops k) turnId turn) (held : TellsPast E ops k turnId)
    (started : 1 ≤ row.state.revision) :
    ∃ event, stream (dbAt E ops (k + 1)).events turnId row.state.revision = some event ∧
      Reports event.envelope.event row.state := by
  obtain ⟨now, events⟩ := done.events
  have coherent := done.path.coherent log.coherent
  have revision := done.path.revision
  by_cases moved : states = []
  · have same : row.state = turn.state := by
      have path := done.path
      rw [moved] at path
      exact path.of_nil
    rw [same] at started ⊢
    obtain ⟨event, told, reports⟩ := held k (Nat.le_refl k) turn done.linked done.before started
    exact ⟨event, events.kept _ _ told, reports⟩
  · have bound : states.length - 1 < (states.map (turnEventRow now)).length := by
      have := List.length_pos_of_ne_nil moved
      rw [List.length_map]
      omega
    have told := events.added (states.length - 1) bound
    have place : turn.lastSeq + 1 + (states.length - 1) = row.state.revision := by
      have := List.length_pos_of_ne_nil moved
      rw [log.lastSeq, revision]
      omega
    rw [place, List.getElem_map] at told
    refine ⟨_, told, ?_⟩
    have last := done.path.getLast? moved
    rw [List.getLast?_eq_getElem?, List.getElem?_eq_some_iff] at last
    obtain ⟨_, last⟩ := last
    change Reports (turnEvent states[states.length - 1]) row.state
    rw [last]
    exact turnEvent_reports coherent

/-- At every point of a run, the log of a linked turn agrees with it and remembers its past. -/
theorem run_turn_log (ops : List Operation) : ∀ k, k ≤ ops.length → ∀ turn,
    ((dbAt E ops k).sessionTurns.get? turnId).isSome = true → (dbAt E ops k).turns.get? turnId = some turn →
      TurnLog (dbAt E ops k) turnId turn ∧ TellsPast E ops k turnId ∧ ∀ seq event,
        stream (dbAt E ops k).events turnId seq = some event → Remembered E ops k turnId seq event := by
  intro k
  induction k with
  | zero =>
      intro _ turn linked
      rw [dbAt, stateAt_zero] at linked
      cases linked
  | succ k ih =>
      intro bound turn linked found
      have reached := reachable_dbAt (E := E) ops k
      have stepped : step E (dbAt E ops k) ops[k] = dbAt E ops (k + 1) := (stateAt_succ bound).symm
      have taken := step_turn reached ops[k] turnId
      rw [stepped] at taken
      cases taken with
      | unlinked after =>
          rw [after] at linked
          cases linked
      | kept same =>
          have turns := same.turns
          rw [found, Option.map_some] at turns
          obtain ⟨before, held, _⟩ := Option.map_eq_some_iff.mp turns.symm
          obtain ⟨log, tells, past⟩ := ih (Nat.le_of_succ_le bound) before (same.links ▸ linked) held
          obtain ⟨state, log'⟩ := log.kept same held found
          refine ⟨log', tells.succ (fun n row told => by rw [same.events]; exact told) ?_, ?_⟩
          · intro row after started
            rw [found, Option.some.injEq] at after
            subst after
            rw [same.events, state]
            exact tells k (Nat.le_refl k) before (same.links ▸ linked) held (state ▸ started)
          intro seq event told
          rw [same.events] at told
          exact (past seq event told).later
      | @moved before row states done =>
          rw [done.after, Option.some.injEq] at found
          subst found
          obtain ⟨log, tells, past⟩ := ih (Nat.le_of_succ_le bound) before done.linked done.before
          obtain ⟨now, events⟩ := done.events
          refine ⟨log.moved done, tells.succ events.kept ?_, ?_⟩
          · intro other after started
            rw [done.after, Option.some.injEq] at after
            subst after
            exact done.tells log tells started
          intro seq event told
          rcases events.only seq event told with old | ⟨i, inside, rfl, rfl⟩
          · exact (past seq event old).later
          · rw [List.length_map] at inside
            rw [List.getElem_map]
            exact done.remembered log (reached.mirrored.turnId _ _ done.before) now i inside
      | @child state lease now started absent after readModel events =>
          rw [after, Option.some.injEq] at found
          subst found
          have empty := reached.noOrphanEvents turnId absent
          have log := TurnLog.child started empty readModel events
          obtain ⟨named, revision, _, _⟩ := initialTurn_ok started
          have only : ∀ seq event, stream (dbAt E ops (k + 1)).events turnId seq = some event →
              seq = state.revision ∧ event = turnEventRow now state := by
            intro seq event told
            rcases events.only seq event told with old | ⟨i, inside, rfl, rfl⟩
            · rw [empty] at old
              cases old
            · cases lease with
              | none => exact absurd inside (Nat.not_lt_zero _)
              | some lease =>
                  have first : i = 0 := by simpa [startedStates] using inside
                  subst first
                  exact ⟨revision.symm, rfl⟩
          refine ⟨log, ?_, ?_⟩
          · intro j order past held foundPast first
            rcases Nat.lt_or_eq_of_le order with earlier | rfl
            · have still := run_log_grows (E := E) ops turnId (Nat.le_of_lt_succ earlier)
                (Nat.le_of_succ_le bound) held
              obtain ⟨link, present⟩ := Option.isSome_iff_exists.mp still.linked
              have turned := reached.graph.linkTurn turnId link present
              rw [absent] at turned
              cases turned
            · rw [after, Option.some.injEq] at foundPast
              subst foundPast
              have present := (log.events state.revision).mpr ⟨first, log.lastSeq.ge⟩
              obtain ⟨event, told⟩ := Option.isSome_iff_exists.mp present
              refine ⟨event, told, ?_⟩
              rw [(only _ _ told).2]
              exact turnEvent_reports log.coherent
          · intro seq event told
            obtain ⟨rfl, rfl⟩ := only seq event told
            exact ⟨rfl, ⟨named, rfl⟩, .inl ⟨k + 1, Nat.le_refl _, _, after, rfl, turnEvent_reports log.coherent⟩⟩

/-- What each call does to a linked turn, as the log `events` shows it: nothing, one revision, or the two of
a cancellation, told as `Cancelling` and then `Interrupted`. -/
def CallsShown (E : Environment) (ops : List Operation) (turnId : TurnId)
    (events : Table (TurnId × Nat) EventRow) : Prop :=
  ∀ j, j < ops.length → ∀ before after, ((dbAt E ops j).sessionTurns.get? turnId).isSome = true →
    (dbAt E ops j).turns.get? turnId = some before → (dbAt E ops (j + 1)).turns.get? turnId = some after →
      after.state = before.state ∨ after.state.revision = before.state.revision + 1 ∨
      before.state.status.terminal = false ∧ after.state.status = .interrupted ∧
        after.state.revision = before.state.revision + 2 ∧ ∃ first second,
          events.get? (turnId, before.state.revision + 1) = some first ∧
          events.get? (turnId, before.state.revision + 2) = some second ∧
          first.envelope.event = .stateChanged .cancelling ∧
          second.envelope.event = .stateChanged .interrupted

theorem TurnMoved.call_shown {turn row : TurnRow} {states : List TurnState}
    (done : TurnMoved db db' turnId turn row states) (log : TurnLog db turnId turn) :
    row.state = turn.state ∨ row.state.revision = turn.state.revision + 1 ∨
      turn.state.status.terminal = false ∧ row.state.status = .interrupted ∧
        row.state.revision = turn.state.revision + 2 ∧ ∃ first second,
          stream db'.events turnId (turn.state.revision + 1) = some first ∧
          stream db'.events turnId (turn.state.revision + 2) = some second ∧
          first.envelope.event = .stateChanged .cancelling ∧
          second.envelope.event = .stateChanged .interrupted := by
  obtain ⟨path, coherent⟩ := And.intro done.path (done.path.coherent log.coherent)
  obtain ⟨now, events⟩ := done.events
  rw [log.lastSeq] at events
  generalize row.state = next at path coherent ⊢
  cases path with
  | stay => exact .inl rfl
  | one revision _ _ => exact .inr (.inl revision)
  | @cancelled cancelling _ first second =>
      have one := events.added 0 (Nat.zero_lt_succ _)
      have two := events.added 1 (Nat.lt_succ_self _)
      obtain ⟨alive, stopped⟩ := TurnState.transition_cancel first
      have interrupted : next.status = .interrupted :=
        congrArg TurnState.status (TurnState.transition_interrupt second).2
      have told : ∀ {state : TurnState}, state.Coherent → state.status ≠ .completed →
          turnEvent state = .stateChanged state.status := by
        intro state held unfinished
        have reports := turnEvent_reports held
        rwa [Reports, if_neg unfinished] at reports
      refine .inr (.inr ⟨alive, interrupted, ?_, _, _, one, two, ?_, ?_⟩)
      · rw [(TurnState.transition_identity second).1, (TurnState.transition_identity first).1]
      · have status : cancelling.status = .cancelling := by rw [stopped]
        refine (told (TurnState.transition_coherent log.coherent first) ?_).trans (by rw [status])
        rw [status]
        decide
      · refine (told coherent ?_).trans (by rw [interrupted])
        rw [interrupted]
        decide

theorem run_calls_shown (ops : List Operation) (turnId : TurnId) :
    CallsShown E ops turnId (runOf E ops).events := by
  intro j bound before after linked found moved
  have reached := reachable_dbAt (E := E) ops j
  have stepped : step E (dbAt E ops j) ops[j] = dbAt E ops (j + 1) := (stateAt_succ bound).symm
  have still := run_log_grows (E := E) ops turnId (Nat.le_succ j) bound linked
  have later := run_log_grows (E := E) ops turnId bound (Nat.le_refl _) still.linked
  have taken := step_turn reached ops[j] turnId
  rw [stepped] at taken
  cases taken with
  | unlinked none =>
      have present := still.linked
      rw [none] at present
      cases present
  | kept same =>
      have turns := same.turns
      rw [found, moved, Option.map_some, Option.map_some, Option.some.injEq, Prod.mk.injEq] at turns
      exact .inl turns.1
  | moved done =>
      rw [done.before, Option.some.injEq] at found
      rw [done.after, Option.some.injEq] at moved
      subst found moved
      obtain ⟨log, _, _⟩ := run_turn_log ops j (Nat.le_of_lt bound) _ linked done.before
      rcases done.call_shown log with same | one | ⟨alive, interrupted, revision, first, second, told, followed, events⟩
      · exact .inl same
      · exact .inr (.inl one)
      · rw [show dbAt E ops ops.length = runOf E ops from stateAt_length] at later
        exact .inr (.inr ⟨alive, interrupted, revision, first, second, later.events _ _ told,
          later.events _ _ followed, events⟩)
  | child _ absent =>
      rw [absent] at found
      cases found

/-- In every run, the rows of a linked turn agree, its events are numbered by its revisions, and each tells
what the turn was at that revision. -/
theorem run_turn_events (ops : List Operation) (turnId : TurnId) (link : SessionTurnRow) (turn : TurnRow)
    (linked : (runOf E ops).sessionTurns.get? turnId = some link)
    (found : (runOf E ops).turns.get? turnId = some turn) :
    turn.lastSeq = turn.state.revision ∧ turn.revision = turn.state.revision ∧
      (runOf E ops).turnReadModel.get? turnId = some ⟨turn.state.revision, turn.lastSeq, turn.state⟩ ∧
      (∀ seq, ((runOf E ops).events.get? (turnId, seq)).isSome = true ↔
        1 ≤ seq ∧ seq ≤ turn.state.revision) ∧
      (∀ j, j ≤ ops.length → ∀ past, ((dbAt E ops j).sessionTurns.get? turnId).isSome = true →
        (dbAt E ops j).turns.get? turnId = some past → 1 ≤ past.state.revision →
          ∃ event, (runOf E ops).events.get? (turnId, past.state.revision) = some event ∧
            Reports event.envelope.event past.state) ∧
      (∀ seq event, (runOf E ops).events.get? (turnId, seq) = some event →
        Remembered E ops ops.length turnId seq event) ∧
      CallsShown E ops turnId (runOf E ops).events := by
  have whole : dbAt E ops ops.length = runOf E ops := stateAt_length
  obtain ⟨log, tells, past⟩ := run_turn_log (E := E) ops ops.length (Nat.le_refl _) turn
    (by rw [whole, linked]; rfl) (by rw [whole]; exact found)
  unfold TellsPast at tells
  rw [whole] at log tells past
  refine ⟨log.lastSeq, (reachable_runOf ops).mirrored.revision _ _ found, log.readModel, ?_, tells, past,
    run_calls_shown ops turnId⟩
  intro seq
  rw [← log.lastSeq]
  exact log.events seq

/-- A turn that is cancelled while it runs. -/
def cancelledRun : List Operation := sampleRun [(1, 1, .interrupt "cancel" none)]

theorem run_turn_events_cancelled : ∃ link turn,
    (runOf plain cancelledRun).sessionTurns.get? sampleTurn = some link ∧
    (runOf plain cancelledRun).turns.get? sampleTurn = some turn ∧ turn.lastSeq = turn.state.revision ∧
      CallsShown plain cancelledRun sampleTurn (runOf plain cancelledRun).events := by
  have present : ((runOf plain cancelledRun).sessionTurns.get? sampleTurn).isSome = true ∧
      ((runOf plain cancelledRun).turns.get? sampleTurn).isSome = true := by decide +kernel
  obtain ⟨link, linked⟩ := Option.isSome_iff_exists.mp present.1
  obtain ⟨turn, found⟩ := Option.isSome_iff_exists.mp present.2
  obtain ⟨lastSeq, _, _, _, _, _, calls⟩ := run_turn_events cancelledRun sampleTurn link turn linked found
  exact ⟨link, turn, linked, found, lastSeq, calls⟩

end LatteCode.Storage
