import LatteCode.Storage.SessionLog
import LatteCode.Storage.TurnLog
/- The tool rounds of a turn: the cards that open them, and the counter in the link of the turn. -/

namespace LatteCode.Storage
open Keyed Outcome Numbered Relation Runs

variable {E : Environment} {db middle db' : E.Db} {turnId : TurnId}

/-! ## What opens a round -/

/-- An assistant card of the turn with a nonempty `tool_calls` array. -/
def opensRound (turnId : TurnId) (entry : TranscriptEntry) : Bool :=
  entry.turnId = some turnId && entry.kind = .assistant &&
    (entry.payload.bind (Json.get? "tool_calls")).any Json.isNonemptyArray

theorem opensRound_iff {entry : TranscriptEntry} : opensRound turnId entry = true ↔ entry.turnId = some turnId ∧
    entry.kind = .assistant ∧ (entry.payload.bind (Json.get? "tool_calls")).any Json.isNonemptyArray = true := by
  simp only [opensRound, Bool.and_eq_true, decide_eq_true_eq, and_assoc]

/-- The rounds of a turn among the outbox rows that a call inserts. -/
def openedRounds (db db' : E.Db) (turnId : TurnId) : Nat :=
  (Table.inserted db.conversationOutbox db'.conversationOutbox).countP fun row => opensRound turnId row.2.entry

/-- The updates whose card opens a round. -/
def declaresCalls (E : Redactor) : CommitSessionTurnUpdate → Bool
  | .appendTranscript _ .assistant _ payload =>
      ((payload.map E.redactSessionValue).bind (Json.get? "tool_calls")).any Json.isNonemptyArray
  | _ => false

theorem quiet_card {card : Option Card} (kind : card.all (fun card => card.kind ≠ .assistant) = true) :
    card.any countsAsToolRound = false := by
  cases card with
  | none => rfl
  | some card =>
      simp only [Option.all_some, decide_not, Bool.not_eq_true', decide_eq_false_iff_not] at kind
      rw [Option.any_some, countsAsToolRound, decide_eq_false kind, Bool.false_and]

/-- Only an assistant append writes an assistant card. -/
theorem applyUpdate_round {lease : Lease} {now : Nat} {current : TurnState} {lifecycle : SessionLifecycle}
    {recovered : Bool} {update : CommitSessionTurnUpdate} {draft : Draft}
    (applied : applyUpdate E db turnId lease now current lifecycle recovered update = .ok (draft, db')) :
    draft.card.any countsAsToolRound = declaresCalls E.toRedactor update := by
  cases update with
  | start sourceKey =>
      simp only [applyUpdate, applyStart, bind_ok] at applied
      obtain ⟨_, _, written⟩ := applied
      cases written
      exact quiet_card rfl
  | appendTranscript sourceKey kind text payload =>
      cases applied
      cases kind <;> rfl
  | prepareEffect sourceKey effectId digest descriptor canonical policy description checkpoint =>
      simp only [applyUpdate, applyPrepareEffect, bind_ok, invalidJson, mapError_ok] at applied
      obtain ⟨_, _, _, _, _, _, _, _, _, _, _, _, _, _, chosen⟩ := applied
      cases policy with
      | allow =>
          cases chosen
          exact quiet_card rfl
      | ask =>
          simp only [bind_ok] at chosen
          obtain ⟨_, _, _, _, written⟩ := chosen
          cases written
          exact quiet_card rfl
  | startEffect sourceKey effectId digest checkpoint =>
      simp only [applyUpdate, applyStartEffect, bind_ok] at applied
      obtain ⟨_, _, _, _, _, _, _, _, _, _, _, _, _, _, _, _, _, _, _, _, written⟩ := applied
      cases written
      exact quiet_card rfl
  | observeEffect sourceKey effectId digest success result payload checkpoint =>
      simp only [applyUpdate, applyObserveEffect, bind_ok] at applied
      obtain ⟨_, _, _, _, _, _, _, _, _, _, _, _, written⟩ := applied
      cases written
      exact quiet_card rfl
  | unknownEffect sourceKey effectId digest checkpoint =>
      simp only [applyUpdate, applyUnknownEffect, bind_ok] at applied
      obtain ⟨_, _, _, _, _, _, _, _, _, _, _, _, written⟩ := applied
      cases written
      exact quiet_card rfl
  | reconcileUnknownEffect sourceKey effectId checkpoint =>
      simp only [applyUpdate, applyReconcileUnknownEffect, bind_ok] at applied
      obtain ⟨_, _, _, _, _, _, _, _, _, _, written⟩ := applied
      cases written
      exact quiet_card rfl
  | requestPermission sourceKey request =>
      simp only [applyUpdate, applyRequestPermission, bind_ok] at applied
      obtain ⟨_, _, written⟩ := applied
      cases written
      exact quiet_card rfl
  | resolvePermission sourceKey requestId allow rebound =>
      simp only [applyUpdate, applyResolvePermission, bind_ok] at applied
      obtain ⟨_, _, chosen⟩ := applied
      cases allow with
      | true =>
          rw [if_pos rfl, bind_ok] at chosen
          obtain ⟨_, _, written⟩ := chosen
          cases written
          exact quiet_card rfl
      | false =>
          rw [if_neg Bool.false_ne_true, bind_ok] at chosen
          obtain ⟨_, _, written⟩ := chosen
          cases written
          exact quiet_card rfl
  | requestInput sourceKey request =>
      simp only [applyUpdate, applyRequestInput, bind_ok] at applied
      obtain ⟨_, _, written⟩ := applied
      cases written
      exact quiet_card rfl
  | provideInput sourceKey requestId value =>
      simp only [applyUpdate, applyProvideInput, bind_ok] at applied
      obtain ⟨_, _, written⟩ := applied
      cases written
      exact quiet_card rfl
  | complete sourceKey handoff =>
      simp only [applyUpdate, applyComplete, bind_ok] at applied
      obtain ⟨_, _, written⟩ := applied
      cases written
      exact quiet_card rfl
  | completeVerified sourceKey summary effectId digest files =>
      simp only [applyUpdate, applyCompleteVerified, bind_ok] at applied
      obtain ⟨_, _, _, _, written⟩ := applied
      cases written
      exact quiet_card rfl
  | fail sourceKey failure =>
      simp only [applyUpdate, applyFail, bind_ok] at applied
      obtain ⟨_, _, written⟩ := applied
      cases written
      exact quiet_card rfl
  | interrupt sourceKey effectId =>
      simp only [applyUpdate, applyInterrupt] at applied
      split at applied
      · simp only [applyInterruptWaiting, bind_ok] at applied
        obtain ⟨_, _, _, _, written⟩ := applied
        cases written
        exact quiet_card rfl
      · simp only [applyInterruptRunning, bind_ok] at applied
        obtain ⟨_, _, _, _, written⟩ := applied
        cases written
        exact quiet_card rfl

/-! ## The counter follows the cards -/

/-- The outbox gains `opened` rounds of the turn, and the counter of the turn as many. -/
def RoundsGrown (db db' : E.Db) (turnId : TurnId) (opened : Nat) : Prop :=
  ∃ new, db'.conversationOutbox.rows = db.conversationOutbox.rows ++ new ∧
    new.countP (fun row => opensRound turnId row.2.entry) = opened ∧
    toolRounds db'.sessionTurns turnId = toolRounds db.sessionTurns turnId + opened

namespace RoundsGrown

theorem trans {opened more : Nat} (first : RoundsGrown db middle turnId opened)
    (second : RoundsGrown middle db' turnId more) : RoundsGrown db db' turnId (opened + more) := by
  obtain ⟨new, rows, count, counter⟩ := first
  obtain ⟨later, moreRows, moreCount, moreCounter⟩ := second
  refine ⟨new ++ later, ?_, ?_, ?_⟩
  · rw [moreRows, rows, List.append_assoc]
  · rw [List.countP_append, count, moreCount]
  · rw [moreCounter, counter, Nat.add_assoc]

theorem same (outbox : db'.conversationOutbox = db.conversationOutbox) (links : db'.sessionTurns = db.sessionTurns) :
    RoundsGrown db db' turnId 0 :=
  ⟨[], by rw [outbox, List.append_nil], rfl, by rw [links, Nat.add_zero]⟩

/-- Entries of another kind, or of no turn, and an unchanged counter. -/
theorem quiet {sessionId : SessionId} {cards : List TranscriptEntry}
    (outbox : db'.conversationOutbox.rows = db.conversationOutbox.rows ++ cards.map (outboxRow sessionId))
    (silent : ∀ card ∈ cards, card.kind ≠ .assistant ∨ card.turnId = none)
    (counter : toolRounds db'.sessionTurns turnId = toolRounds db.sessionTurns turnId) :
    RoundsGrown db db' turnId 0 := by
  refine ⟨_, outbox, ?_, counter⟩
  rw [List.countP_eq_zero]
  intro row member
  obtain ⟨card, held, rfl⟩ := List.mem_map.mp member
  intro opens
  obtain ⟨owned, spoken, _⟩ := opensRound_iff.mp opens
  rcases silent card held with other | none
  · exact other spoken
  · cases none.symm.trans owned

theorem opened {n : Nat} (grown : RoundsGrown db db' turnId n) : openedRounds db db' turnId = n := by
  obtain ⟨new, rows, count, _⟩ := grown
  rw [openedRounds, Table.inserted_append rows]
  exact count

end RoundsGrown

theorem ChildWritten.tool_rounds {sessionId : SessionId} {state : TurnState} {parent : Option TurnId}
    {ordinal now : Nat} {lease : Option Lease}
    (child : ChildWritten db db' sessionId state parent ordinal lease now) :
    toolRounds db'.sessionTurns turnId = toolRounds db.sessionTurns turnId := by
  rw [toolRounds, toolRounds, child.links]
  split
  case isTrue here =>
    rw [here, child.freshLink]
    rfl
  case isFalse => rfl

theorem Housekeeping.rounds_grown (change : Housekeeping E db db') : RoundsGrown db db' turnId 0 := by
  cases change with
  | interrupted done => exact .quiet done.outbox (fun card member => .inl (done.quiet card member)) (done.rounds turnId)
  | retired done | quiesced done =>
      rw [done.result]
      exact .same rfl rfl
  | released freed done =>
      subst done
      exact .same rfl rfl

theorem Housekeeping.path_rounds_grown (path : ReflTransGen (Housekeeping E) db db') : RoundsGrown db db' turnId 0 := by
  induction path with
  | refl => exact .same rfl rfl
  | tail _ change ih => exact ih.trans change.rounds_grown

/-- Every change but a commit or an acknowledgement leaves the rounds alone. -/
theorem Uncommitted.rounds_grown (change : Uncommitted E db db') :
    RoundsGrown db db' turnId 0 ∨ ∃ drained, db' = { db with
      conversationOutbox := db.conversationOutbox.deleteWhere drained } := by
  cases change with
  | created done =>
      have outbox := done.outbox
      rw [← List.map_singleton (f := outboxRow _)] at outbox
      refine .inl (.quiet outbox ?_ done.child.tool_rounds)
      intro card member
      rw [List.mem_singleton.mp member]
      exact .inl (nomatch ·)
  | followedUp done =>
      have outbox := done.outbox
      rw [← List.map_singleton (f := outboxRow _)] at outbox
      refine .inl (.quiet outbox ?_ done.child.tool_rounds)
      intro card member
      rw [List.mem_singleton.mp member]
      exact .inl (nomatch ·)
  | switched done =>
      have outbox := done.outbox
      rw [← List.map_singleton (f := outboxRow _)] at outbox
      refine .inl (.quiet outbox ?_ (by rw [done.frame]))
      intro card member
      rw [List.mem_singleton.mp member]
      exact .inl (nomatch ·)
  | forked done =>
      have outbox := done.outbox
      rw [← Function.comp_def (outboxRow _), ← List.map_map] at outbox
      refine .inl (.quiet outbox ?_ (by rw [done.frame]))
      intro card member
      obtain ⟨_, _, rfl⟩ := List.mem_map.mp member
      exact .inr rfl
  | interrupted done => exact .inl (Housekeeping.interrupted done).rounds_grown
  | retired done => exact .inl (Housekeeping.retired done).rounds_grown
  | quiesced done => exact .inl (Housekeeping.quiesced done).rounds_grown
  | released freed done => exact .inl (Housekeeping.released freed done).rounds_grown
  | acquired done =>
      rw [done.frame]
      exact .inl (.same rfl rfl)
  | acknowledged drained done => exact .inr ⟨drained, done⟩
  | renewed _ _ done | renamed _ _ done | evidenced _ done | aliased _ _ _ _ _ _ done
  | runCreated _ _ _ _ _ done =>
      subst done
      exact .inl (.same rfl rfl)

/-- What a call does to the rounds of a turn: nothing, or a fresh commit at the current revision opens one. -/
inductive RoundStep (op : Operation) (db db' : E.Db) (turnId : TurnId) : Prop
  | quiet (opened : openedRounds db db' turnId = 0)
      (counter : toolRounds db'.sessionTurns turnId = toolRounds db.sessionTurns turnId)
  | opened {request : SessionCommitRequest} {lease : Lease} {now : Nat} {session session' : SessionRow}
      {link : SessionTurnRow} (same : op = .commit request lease now) (owned : request.turnId = turnId)
      (declares : declaresCalls E.toRedactor request.update = true)
      (found : db.sessions.get? request.sessionId = some session)
      (expected : session.revision = request.expectedSessionRevision)
      (after : db'.sessions.get? request.sessionId = some session')
      (raised : session'.revision = session.revision + 1)
      (linked : db.sessionTurns.get? turnId = some link) (home : link.sessionId = request.sessionId)
      (opened : openedRounds db db' turnId = 1)
      (counter : toolRounds db'.sessionTurns turnId = toolRounds db.sessionTurns turnId + 1)

theorem RoundsGrown.quiet_step {op : Operation} (grown : RoundsGrown db db' turnId 0) : RoundStep op db db' turnId := by
  have opened := grown.opened
  obtain ⟨_, _, _, counter⟩ := grown
  exact .quiet opened counter

/-- The card of a commit opens a round of its own turn, if it counts. -/
theorem opensRound_commitEntry {request : SessionCommitRequest} {now sequence : Nat} {card : Card} :
    opensRound turnId (commitEntry E request now sequence card) =
      (decide (turnId = request.turnId) && countsAsToolRound card) := by
  rw [opensRound, countsAsToolRound, commitEntry, Bool.and_assoc]
  congr 1
  simp only [Option.some.injEq, eq_comm]

theorem Committed.round_step {request : SessionCommitRequest} {lease : Lease} {now : Nat}
    {session session' : SessionRow} {turn row : TurnRow} {draft : Draft} {mid : E.Db} {states : List TurnState}
    {cards : List TranscriptEntry} {response : SessionCommitResponse} (graph : Graph db)
    (done : Committed E request lease now db db' session session' turn row draft mid states cards response)
    (turnId : TurnId) : RoundStep (.commit request lease now) db db' turnId := by
  have found := done.admitted.foundSession
  obtain ⟨link, linked, home⟩ := (graph.session _ _ found).latest _ (graph.gate_latest found done.admitted.gate)
  have opened : openedRounds db db' turnId =
      if turnId = request.turnId ∧ draft.card.any countsAsToolRound = true then 1 else 0 := by
    rw [openedRounds, Table.inserted_append done.outbox, done.drafted, List.countP_map]
    cases draft.card with
    | none => simp only [Option.map_none, Option.toList_none, List.countP_nil, Option.any_none, Bool.false_eq_true,
        and_false, if_false]
    | some card =>
        rw [Option.map_some, Option.toList_some, List.countP_singleton, Option.any_some]
        simp only [Function.comp_apply, outboxRow, opensRound_commitEntry, Bool.and_eq_true, decide_eq_true_eq]
  have counter := done.rounds turnId
  by_cases opens : turnId = request.turnId ∧ draft.card.any countsAsToolRound = true
  · rw [if_pos opens] at opened
    simp only [if_pos opens] at counter
    obtain ⟨rfl, counts⟩ := opens
    refine .opened rfl rfl ?_ found done.admitted.sessionRevision (by rw [done.sessions, if_pos rfl]) ?_ linked home
      opened ?_
    · rw [← applyUpdate_round done.applied, counts]
    · rw [done.moved]
      rfl
    · rw [linked, Option.map_some, Option.map_eq_some_iff] at counter
      obtain ⟨after, held, count⟩ := counter
      rw [toolRounds, toolRounds, held, linked]
      exact count
  · rw [if_neg opens] at opened
    simp only [if_neg opens] at counter
    refine .quiet opened ?_
    have same := congrArg (Option.elim · 0 id) counter
    rw [Option.elim_map, Option.elim_map] at same
    exact same

theorem step_round (reached : Reachable E db) (op : Operation) (turnId : TurnId) :
    RoundStep op db (step E db op) turnId := by
  rcases step_ok reached op with ⟨_, _, _, _, _, _, _, _, _, _, _, _, rfl, done⟩ | change | path
  · exact done.round_step reached.graph turnId
  · rcases change.rounds_grown with grown | ⟨drained, same⟩
    · exact grown.quiet_step
    · rw [same]
      refine .quiet ?_ rfl
      rw [openedRounds, Table.inserted_deleteWhere]
      rfl
  · exact (Housekeeping.path_rounds_grown path).quiet_step

end LatteCode.Storage
