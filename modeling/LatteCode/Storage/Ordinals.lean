import LatteCode.Storage.TurnLog
/- The children of a session in their order: an accepted turn is the newest, and the snapshot shows all of them. -/

namespace LatteCode.Storage
open Keyed Outcome

variable {E : Environment} {db db' : E.Db}

/-- The child that was linked last: every other child of the session has a smaller ordinal. -/
def Newest (db : E.Db) (sessionId : SessionId) (turnId : TurnId) : Prop :=
  ∃ link, db.sessionTurns.get? turnId = some link ∧ link.sessionId = sessionId ∧
    ∀ other row, db.sessionTurns.get? other = some row → row.sessionId = sessionId → other ≠ turnId →
      row.ordinal < link.ordinal

theorem foldl_max_ge (values : List Nat) (start : Nat) :
    start ≤ values.foldl max start ∧ ∀ value ∈ values, value ≤ values.foldl max start := by
  induction values generalizing start with
  | nil => exact ⟨Nat.le_refl _, fun value member => by cases member⟩
  | cons value values ih =>
      obtain ⟨above, each⟩ := ih (max start value)
      refine ⟨Nat.le_trans (Nat.le_max_left _ _) above, ?_⟩
      intro other member
      rcases List.mem_cons.mp member with rfl | rest
      · exact Nat.le_trans (Nat.le_max_right _ _) above
      · exact each other rest

theorem ordinal_lt_next {sessionId : SessionId} {turnId : TurnId} {link : SessionTurnRow}
    (found : db.sessionTurns.get? turnId = some link) (owned : link.sessionId = sessionId) :
    link.ordinal < nextOrdinal db sessionId := by
  have member : (turnId, link) ∈ db.sessionTurns.select fun _ row => decide (row.sessionId = sessionId) :=
    (Table.mem_select _ _).mpr ⟨found, decide_eq_true owned⟩
  exact (foldl_max_ge _ 0).2 _ (List.mem_map.mpr ⟨_, member, rfl⟩)

theorem ChildWritten.newest {sessionId : SessionId} {state : TurnState} {parent : Option TurnId}
    {ordinal now : Nat} {lease : Option Lease}
    (child : ChildWritten db db' sessionId state parent ordinal lease now)
    (below : ∀ other row, db.sessionTurns.get? other = some row → row.sessionId = sessionId → row.ordinal < ordinal) :
    Newest db' sessionId state.turnId := by
  refine ⟨⟨sessionId, parent, ordinal, none, 0⟩, ?_, rfl, ?_⟩
  · rw [child.links, if_pos rfl]
  · intro other row found owned apart
    rw [child.links, if_neg apart] at found
    exact below other row found owned

theorem Created.newest {args : CreateSession} {lease : Option Lease} {now : Nat} {state : TurnState}
    {rows : List SessionEventRow} {snapshot : SessionSnapshot} (graph : Graph db)
    (done : Created E args lease now db db' state rows snapshot) : Newest db' args.sessionId args.turnId := by
  rw [← done.named]
  refine done.child.newest ?_
  intro other row found owned
  have known := graph.linkSession other row found
  rw [owned, done.freshSession] at known
  cases known

theorem FollowedUp.newest {args : FollowUp} {lease : Option Lease} {now : Nat} {session session' : SessionRow}
    {state : TurnState} {rows : List SessionEventRow} {snapshot : SessionSnapshot}
    (done : FollowedUp E args lease now db db' session session' state rows snapshot) :
    Newest db' args.sessionId args.turnId := by
  rw [← done.named]
  exact done.child.newest fun other row found owned => ordinal_lt_next found owned

/-- The turns of a snapshot are the linked turns of the session. -/
theorem mem_sessionTurnSummaries (graph : Graph db) {sessionId : SessionId} {turnId : TurnId} {ordinal : Nat} :
    (∃ summary ∈ sessionTurnSummaries E db sessionId, summary.turnId = turnId ∧ summary.ordinal = ordinal) ↔
      ∃ link, db.sessionTurns.get? turnId = some link ∧ link.sessionId = sessionId ∧ link.ordinal = ordinal := by
  have selected : ∀ linked, linked ∈ (db.sessionTurns.select fun _ row => decide (row.sessionId = sessionId)).insertionSort
      (fun a b => a.2.ordinal ≤ b.2.ordinal) ↔ db.sessionTurns.get? linked.1 = some linked.2 ∧
        linked.2.sessionId = sessionId := by
    intro linked
    rw [List.mem_insertionSort, Table.mem_select, decide_eq_true_iff]
  constructor
  · rintro ⟨summary, member, rfl, rfl⟩
    obtain ⟨linked, held, shown⟩ := List.mem_filterMap.mp member
    obtain ⟨turn, _, rfl⟩ := Option.map_eq_some_iff.mp shown
    obtain ⟨found, owned⟩ := (selected linked).mp held
    exact ⟨linked.2, found, owned, rfl⟩
  · rintro ⟨link, found, owned, rfl⟩
    obtain ⟨turn, held⟩ := Option.isSome_iff_exists.mp (graph.linkTurn turnId link found)
    let summary : SessionTurnSummary := ⟨turnId, link.parentTurnId, link.ordinal, sessionTurnStatus turn.state.status,
      turn.state.revision, link.completedAtMs, turn.state.failure.map TurnFailure.code⟩
    have shown : summary ∈ sessionTurnSummaries E db sessionId := by
      refine List.mem_filterMap.mpr ⟨(turnId, link), (selected (turnId, link)).mpr ⟨found, owned⟩, ?_⟩
      rw [held, Option.map_some]
    exact ⟨summary, shown, rfl, rfl⟩

end LatteCode.Storage
