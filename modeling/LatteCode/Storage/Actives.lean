import LatteCode.Storage.Graph
/- The active turn of a session changes only with its revision: what a pair of revisions fences. -/

namespace LatteCode.Storage
open Keyed Outcome Relation

variable {E : Environment} {db middle db' : E.Db} {sessionId : SessionId} {session : SessionRow}

def activeTurn (db : E.Db) (sessionId : SessionId) : Option TurnId :=
  (db.sessionActiveTurns.get? sessionId).map ActiveTurnRow.turnId

/-- The session moves on from a revision, or keeps its active turn. -/
def RevisionFenced (db' : E.Db) (sessionId : SessionId) (revision : Nat) (active : Option TurnId) : Prop :=
  ∃ session', db'.sessions.get? sessionId = some session' ∧ revision ≤ session'.revision ∧
    (session'.revision = revision → activeTurn db' sessionId = active)

namespace RevisionFenced

theorem of_kept (found : db'.sessions.get? sessionId = some session)
    (active : activeTurn db' sessionId = activeTurn db sessionId) :
    RevisionFenced db' sessionId session.revision (activeTurn db sessionId) :=
  ⟨session, found, Nat.le_refl _, fun _ => active⟩

theorem of_raised {session' : SessionRow} {active : Option TurnId} (found : db'.sessions.get? sessionId = some session')
    (raised : session.revision < session'.revision) : RevisionFenced db' sessionId session.revision active :=
  ⟨session', found, Nat.le_of_lt raised, fun same => absurd same (Nat.ne_of_gt raised)⟩

/-- One session's row is written, with a greater revision; the others keep theirs and their active turns. -/
theorem of_owner {owner : SessionId} {written written' : SessionRow}
    (before : db.sessions.get? owner = some written) (raised : written.revision < written'.revision)
    (sessions : ∀ key, db'.sessions.get? key = if key = owner then some written' else db.sessions.get? key)
    (actives : ∀ key, key ≠ owner → db'.sessionActiveTurns.get? key = db.sessionActiveTurns.get? key)
    (found : db.sessions.get? sessionId = some session) :
    RevisionFenced db' sessionId session.revision (activeTurn db sessionId) := by
  have after := sessions sessionId
  by_cases here : sessionId = owner
  · subst here
    rw [before, Option.some.injEq] at found
    subst found
    rw [if_pos rfl] at after
    exact of_raised after raised
  · rw [if_neg here, found] at after
    refine of_kept after ?_
    rw [activeTurn, activeTurn, actives sessionId here]

/-- A new session leaves the others alone. -/
theorem of_fresh {owner : SessionId} {written : SessionRow} (fresh : db.sessions.get? owner = none)
    (sessions : ∀ key, db'.sessions.get? key = if key = owner then some written else db.sessions.get? key)
    (actives : ∀ key, key ≠ owner → db'.sessionActiveTurns.get? key = db.sessionActiveTurns.get? key)
    (found : db.sessions.get? sessionId = some session) :
    RevisionFenced db' sessionId session.revision (activeTurn db sessionId) := by
  have here : sessionId ≠ owner := by
    rintro rfl
    rw [fresh] at found
    cases found
  have after := sessions sessionId
  rw [if_neg here, found] at after
  refine of_kept after ?_
  rw [activeTurn, activeTurn, actives sessionId here]

end RevisionFenced

theorem Uncommitted.fenced (change : Uncommitted E db db') (found : db.sessions.get? sessionId = some session) :
    RevisionFenced db' sessionId session.revision (activeTurn db sessionId) := by
  cases change with
  | created done =>
      exact .of_fresh done.freshSession done.sessions (fun key other => by rw [done.child.actives, if_neg other]) found
  | followedUp done =>
      refine .of_owner done.foundSession ?_ done.sessions (fun key other => by rw [done.child.actives, if_neg other]) found
      rw [done.moved]
      exact Nat.lt_add_of_pos_right (by unfold followUpSteps; split <;> decide)
  | switched done =>
      exact .of_owner done.foundSession (Nat.lt_succ_self _) done.sessions (fun key _ => by rw [done.frame]) found
  | forked done =>
      exact .of_fresh done.freshSession done.sessions (fun key _ => by rw [done.frame]) found
  | interrupted done =>
      refine .of_owner done.foundSession ?_ done.sessions (fun key other => by rw [done.actives, if_neg other]) found
      rw [done.moved]
      exact Nat.lt_succ_self _
  | quiesced done =>
      rw [done.result]
      refine .of_kept found ?_
      simp only [activeTurn, Table.get?_modify]
      split
      case isTrue => rw [Option.map_map]; rfl
      case isFalse => rfl
  | acquired done =>
      rw [done.frame]
      exact .of_kept found rfl
  | retired done =>
      rw [done.result]
      exact .of_kept found rfl
  | renamed owner title done =>
      subst done
      have after : (db.sessions.modify owner fun row => { row with title := title }).get? sessionId =
          some (if sessionId = owner then { session with title := title } else session) := by
        rw [Table.get?_modify, found]
        split <;> rfl
      refine ⟨_, after, ?_, fun _ => rfl⟩
      split <;> exact Nat.le_refl _
  | renewed _ _ done | released _ done | acknowledged _ done | evidenced _ done | aliased _ _ _ _ _ _ done
  | runCreated _ _ _ _ _ done =>
      subst done
      exact .of_kept found rfl

theorem Change.fenced (graph : Graph db) (change : Change E db db') (found : db.sessions.get? sessionId = some session) :
    RevisionFenced db' sessionId session.revision (activeTurn db sessionId) := by
  cases change with
  | committed done =>
      refine .of_owner done.admitted.foundSession ?_ done.sessions ?_ found
      · rw [done.moved]
        exact Nat.lt_succ_self _
      · intro key other
        rw [graph.committed_actives done, if_neg other]
  | other done => exact done.fenced found

/-- What held before a change is fenced after it. -/
theorem RevisionFenced.trans {revision : Nat} {active : Option TurnId}
    (before : RevisionFenced middle sessionId revision active)
    (after : ∀ session, middle.sessions.get? sessionId = some session →
      RevisionFenced db' sessionId session.revision (activeTurn middle sessionId)) :
    RevisionFenced db' sessionId revision active := by
  obtain ⟨session, found, order, kept⟩ := before
  obtain ⟨session', found', order', kept'⟩ := after session found
  refine ⟨session', found', Nat.le_trans order order', ?_⟩
  intro same
  have stood : session.revision = revision := Nat.le_antisymm (same ▸ order') order
  exact (kept' (same.trans stood.symm)).trans (kept stood)

theorem Housekeeping.path_fenced (path : ReflTransGen (Housekeeping E) db db')
    (found : db.sessions.get? sessionId = some session) :
    RevisionFenced db' sessionId session.revision (activeTurn db sessionId) := by
  induction path with
  | refl => exact .of_kept found rfl
  | tail _ change ih => exact ih.trans fun _ held => change.uncommitted.fenced held

/-- No call of the store gives a session another active turn at the same revision. -/
theorem RevisionFenced.step {revision : Nat} {active : Option TurnId} (reached : Reachable E db)
    (before : RevisionFenced db sessionId revision active) (op : Operation) :
    RevisionFenced (Storage.step E db op) sessionId revision active := by
  refine before.trans ?_
  intro session found
  rcases step_change reached op with change | path
  · exact change.fenced reached.graph found
  · exact Housekeeping.path_fenced path found

end LatteCode.Storage
