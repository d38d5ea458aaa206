import LatteCode.Storage.Effects
/- The authority to start an effect that the operator must allow. -/

namespace LatteCode.Storage
open Keyed Outcome Numbered Relation Runs

variable {E : Environment} {db middle db' : E.Db} {effectId : String}

/-! ## Starts and status changes of one call -/

theorem step_effect_kept (reached : Reachable E db) (op : Operation) (effectId : String) :
    EffectKept Moves (db.effects.get? effectId) ((step E db op).effects.get? effectId) := by
  have settled : EffectKept Settles (db.effects.get? effectId) ((step E db op).effects.get? effectId) →
      EffectKept Moves (db.effects.get? effectId) ((step E db op).effects.get? effectId) := by
    intro kept row found
    obtain ⟨row', after, turnId, policy, settles⟩ := kept row found
    exact ⟨row', after, turnId, policy, settles.moves⟩
  rcases step_ok reached op with ⟨_, _, _, _, _, _, _, _, _, _, _, _, _, done⟩ | change | path
  · exact done.effect_kept effectId
  · exact settled (change.effect_kept effectId)
  · exact settled (Housekeeping.path_effect_kept path effectId)

/-- The status of an effect, if it is known. -/
def effectStatus (db : E.Db) (effectId : String) : Option EffectStatus :=
  (db.effects.get? effectId).map EffectRow.status

theorem effectStatus_eq_some {status : EffectStatus} : effectStatus db effectId = some status ↔
    ∃ row, db.effects.get? effectId = some row ∧ row.status = status := Option.map_eq_some_iff

/-- Recoveries neither start nor prepare. -/
theorem settled_not_new {status : EffectStatus} (fresh : status = .started ∨ status = .prepared)
    (absent : db.effects.get? effectId = none → db'.effects.get? effectId = none)
    (kept : EffectKept Settles (db.effects.get? effectId) (db'.effects.get? effectId))
    (after : effectStatus db' effectId = some status) : effectStatus db effectId = some status := by
  obtain ⟨row', held, status'⟩ := effectStatus_eq_some.mp after
  cases before : db.effects.get? effectId with
  | none =>
      rw [absent before] at held
      cases held
  | some row =>
      obtain ⟨other, same, _, _, settles⟩ := kept row before
      rw [held, Option.some.injEq] at same
      subst same
      refine effectStatus_eq_some.mpr ⟨row, before, ?_⟩
      rcases settles with same | same
      · exact same.symm.trans status'
      · rw [status'] at same
        rcases fresh with rfl | rfl <;> cases was : row.status <;> rw [was] at same <;> cases same

/-- A fresh commit by this request, with all that it does. -/
def CommittedBy (E : Environment) (request : SessionCommitRequest) (lease : Lease) (now : Nat) (db db' : E.Db)
    (turn row : TurnRow) (draft : Draft) (mid : E.Db) : Prop :=
  ∃ session session' states cards response,
    Committed E request lease now db db' session session' turn row draft mid states cards response

/-- A call after which an effect is newly started or prepared is a fresh commit. -/
theorem step_commits {op : Operation} {status : EffectStatus} (reached : Reachable E db)
    (fresh : status = .started ∨ status = .prepared)
    (before : effectStatus db effectId ≠ some status)
    (after : effectStatus (step E db op) effectId = some status) :
    ∃ request lease now turn row draft mid, op = .commit request lease now ∧
      CommittedBy E request lease now db (step E db op) turn row draft mid := by
  rcases step_ok reached op with
    ⟨request, lease, now, session, session', turn, row, draft, mid, states, cards, response, same, done⟩ |
    change | path
  · exact ⟨request, lease, now, turn, row, draft, mid, same, session, session', states, cards, response, done⟩
  · exact absurd (settled_not_new fresh (change.effect_absent effectId) (change.effect_kept effectId) after) before
  · exact absurd (settled_not_new fresh (Housekeeping.path_effect_absent path effectId)
      (Housekeeping.path_effect_kept path effectId) after) before

/-- Of all moves only that of a start ends in `started`. -/
theorem updateMove_starts {turnId : TurnId} {current : TurnState} {update : CommitSessionTurnUpdate}
    {move : EffectMove} (moves : updateMove E db turnId current update = some move)
    (starts : move.target = .started) :
    ∃ sourceKey digest checkpoint, update = .startEffect sourceKey move.effectId digest checkpoint := by
  cases update with
  | startEffect sourceKey id digest checkpoint =>
      cases moves
      exact ⟨sourceKey, digest, checkpoint, rfl⟩
  | observeEffect _ _ _ success =>
      cases moves
      cases success <;> cases starts
  | unknownEffect | reconcileUnknownEffect =>
      cases moves
      cases starts
  | resolvePermission _ _ allow =>
      cases allow with
      | true => cases moves
      | false =>
          cases moves
          cases starts
  | interrupt =>
      simp only [updateMove] at moves
      split at moves
      · obtain ⟨_, _, rfl⟩ := Option.map_eq_some_iff.mp moves
        cases starts
      · obtain ⟨_, _, rfl⟩ := Option.map_eq_some_iff.mp moves
        cases starts
  | _ => cases moves

/-- Only the update that starts it makes an effect started. -/
theorem Committed.starts {request : SessionCommitRequest} {lease : Lease} {now : Nat}
    {session session' : SessionRow} {turn row : TurnRow} {draft : Draft} {mid : E.Db} {states : List TurnState}
    {cards : List TranscriptEntry} {response : SessionCommitResponse}
    (done : Committed E request lease now db db' session session' turn row draft mid states cards response)
    (before : effectStatus db effectId ≠ some .started) (after : effectStatus db' effectId = some .started) :
    ∃ sourceKey digest checkpoint, request.update = .startEffect sourceKey effectId digest checkpoint := by
  obtain ⟨row', held, started⟩ := effectStatus_eq_some.mp after
  cases done.effect effectId with
  | prepared _ _ added key =>
      rw [held, Option.some.injEq] at added
      subst added
      have status : row'.status = .prepared := congrArg (fun key => key.2.2) key
      rw [started] at status
      cases status
  | moved same =>
      rw [held, Option.map_some] at same
      obtain ⟨old, found, key⟩ := Option.map_eq_some_iff.mp same.symm
      have status := congrArg (fun key => key.2.2) key
      simp only [movedKey, effectKey, started] at status
      have unstarted : old.status ≠ .started := fun was => before (effectStatus_eq_some.mpr ⟨old, found, was⟩)
      split at status
      case isFalse => exact absurd status unstarted
      case isTrue =>
        cases moving : updateMove E db request.turnId turn.state request.update with
        | none =>
            rw [moving] at status
            exact absurd status unstarted
        | some move =>
            rw [moving] at status
            simp only [movedStatus, Option.elim_some, EffectMove.apply] at status
            split at status
            case isFalse => exact absurd status unstarted
            case isTrue applies =>
              rw [applies.1]
              exact updateMove_starts moving status

/-! ## Who lets a waiting turn run -/

/-- A turn keeps its state, or is interrupted. -/
def StateKept (before after : Option TurnRow) : Prop :=
  ∀ row, before = some row → ∃ row', after = some row' ∧
    (row'.state = row.state ∨ row'.state.status = .interrupted)

theorem StateKept.of_same {before after : Option TurnRow} (same : after = before) : StateKept before after :=
  fun row found => ⟨row, same.trans found, .inl rfl⟩

theorem ChildWritten.state_kept {sessionId : SessionId} {state : TurnState} {parent : Option TurnId}
    {ordinal now : Nat} {lease : Option Lease}
    (child : ChildWritten db db' sessionId state parent ordinal lease now) (turnId : TurnId) :
    StateKept (db.turns.get? turnId) (db'.turns.get? turnId) := by
  intro row found
  refine ⟨row, ?_, .inl rfl⟩
  rw [child.turns, if_neg]
  · exact found
  · rintro rfl
    rw [child.freshTurn] at found
    cases found

theorem Uncommitted.state_kept (change : Uncommitted E db db') (turnId : TurnId) :
    StateKept (db.turns.get? turnId) (db'.turns.get? turnId) := by
  cases change with
  | created done => exact done.child.state_kept turnId
  | followedUp done => exact done.child.state_kept turnId
  | interrupted done =>
      intro row found
      rw [done.written.turns]
      split
      · exact ⟨_, rfl, .inr (by rw [done.state]; rfl)⟩
      · exact ⟨row, found, .inl rfl⟩
  | retired done =>
      intro row found
      have interrupted := done.interrupted
      rw [done.result]
      simp only [Table.get?_modify, found, Option.map_some]
      split
      · exact ⟨_, rfl, .inr interrupted⟩
      · exact ⟨row, rfl, .inl rfl⟩
  | acquired done =>
      obtain ⟨adopted, _, turns⟩ := done.turns
      intro row found
      rw [turns, found, Option.map_some]
      refine ⟨_, rfl, .inl ?_⟩
      split <;> rfl
  | quiesced done =>
      intro row found
      rw [done.result]
      simp only [Table.get?_modify, found, Option.map_some]
      split
      · exact ⟨_, rfl, .inl rfl⟩
      · exact ⟨row, rfl, .inl rfl⟩
  | runCreated state now baselines fresh _ done =>
      subst done
      intro row found
      refine ⟨row, ?_, .inl rfl⟩
      simp only [Table.get?_add_fresh _ _ fresh]
      rw [if_neg]
      · exact found
      · rintro rfl
        rw [fresh] at found
        cases found
  | switched done | forked done =>
      rw [done.frame]
      exact .of_same rfl
  | renewed _ _ done | released _ done | renamed _ _ done | acknowledged _ done | evidenced _ done
  | aliased _ _ _ _ _ _ done =>
      subst done
      exact .of_same rfl

theorem Housekeeping.path_state_kept (path : ReflTransGen (Housekeeping E) db db') (turnId : TurnId) :
    StateKept (db.turns.get? turnId) (db'.turns.get? turnId) := by
  induction path with
  | refl => exact .of_same rfl
  | tail _ change ih =>
      intro row found
      obtain ⟨one, held, first⟩ := ih row found
      obtain ⟨two, after, second⟩ := change.uncommitted.state_kept turnId one held
      refine ⟨two, after, ?_⟩
      rcases second with same | interrupted
      · rw [same]
        exact first
      · exact .inr interrupted

/-- Only an allowing resolution lets a turn that waits for permission run. -/
theorem applyUpdate_resumes {update : CommitSessionTurnUpdate} {turnId : TurnId} {lease : Lease} {now : Nat}
    {current : TurnState} {lifecycle : SessionLifecycle} {recovered : Bool} {draft : Draft} {mid : E.Db}
    (applied : applyUpdate E db turnId lease now current lifecycle recovered update = .ok (draft, mid))
    (waiting : current.status = .waitingPermission) (running : draft.next.status = .running) :
    draft.next.revision = current.revision + 1 ∧ ∃ sourceKey requestId rebound,
      update = .resolvePermission sourceKey requestId true rebound := by
  have clash : ∀ {status : TurnStatus}, status ≠ .waitingPermission → current.status ≠ status := by
    rintro _ differs rfl
    exact differs waiting
  have ended : ∀ {status : TurnStatus}, status ≠ .running → draft.next.status ≠ status := by
    rintro _ differs rfl
    exact differs running
  cases update with
  | resolvePermission sourceKey requestId allow rebound =>
      obtain ⟨step, _, chosen⟩ := applyResolvePermission_ok applied
      obtain ⟨_, _, next⟩ := TurnState.transition_resolvePermission step
      cases allow with
      | true => exact ⟨(TurnState.transition_identity step).1, sourceKey, requestId, rebound, rfl⟩
      | false =>
          rw [next] at running
          cases running
  | start =>
      simp only [applyUpdate, applyStart, bind_ok, transitionOr_ok, Except.ok.injEq, Prod.mk.injEq] at applied
      obtain ⟨_, step, _, _⟩ := applied
      exact absurd (TurnState.transition_start step).1 (clash (by decide))
  | provideInput =>
      simp only [applyUpdate, applyProvideInput, bind_ok, transitionOr_ok, Except.ok.injEq,
        Prod.mk.injEq] at applied
      obtain ⟨_, step, _, _⟩ := applied
      exact absurd (TurnState.transition_provideInput step).1 (clash (by decide))
  | requestInput =>
      simp only [applyUpdate, applyRequestInput, bind_ok, transitionOr_ok, Except.ok.injEq,
        Prod.mk.injEq] at applied
      obtain ⟨_, step, _, _⟩ := applied
      exact absurd (TurnState.transition_requestInput step).1 (clash (by decide))
  | requestPermission =>
      obtain ⟨_, _, _, _, step⟩ := applyRequestPermission_ok applied
      exact absurd (TurnState.transition_requestPermission step).1 (clash (by decide))
  | appendTranscript =>
      cases applied
      exact absurd waiting (ended (by decide))
  | prepareEffect => exact absurd (applyPrepareEffect_ok applied).1 (clash (by decide))
  | startEffect => exact absurd (applyStartEffect_ok applied).1 (clash (by decide))
  | observeEffect => exact absurd (applyObserveEffect_ok applied).1 (clash (by decide))
  | unknownEffect => exact absurd (cancelled_shape (applyUnknownEffect_ok applied).1).2.2 (ended (by decide))
  | reconcileUnknownEffect =>
      exact absurd (reconciled_ok (applyReconcileUnknownEffect_ok applied).1).2.2 (ended (by decide))
  | complete =>
      simp only [applyUpdate, applyComplete, bind_ok, transitionOr_ok, Except.ok.injEq, Prod.mk.injEq] at applied
      obtain ⟨_, step, _, _⟩ := applied
      exact absurd (TurnState.transition_complete rfl step).1 (clash (by decide))
  | completeVerified =>
      simp only [applyUpdate, applyCompleteVerified, bind_ok, transitionOr_ok, Except.ok.injEq,
        Prod.mk.injEq] at applied
      obtain ⟨_, _, _, step, _, _⟩ := applied
      exact absurd (TurnState.transition_complete rfl step).1 (clash (by decide))
  | fail =>
      simp only [applyUpdate, applyFail, bind_ok, transitionOr_ok, Except.ok.injEq, Prod.mk.injEq] at applied
      obtain ⟨_, step, rfl, _⟩ := applied
      have failed : _ = TurnStatus.failed := congrArg TurnState.status (TurnState.transition_fail step).2
      exact absurd failed (ended (by decide))
  | interrupt =>
      rcases applyInterrupt_ok applied with ⟨_, applied⟩ | ⟨_, applied⟩
      · have failed : _ = TurnStatus.failed :=
          congrArg TurnState.status (applyInterruptWaiting_ok applied).2.2.2.1
        exact absurd failed (ended (by decide))
      · exact absurd (cancelled_shape (applyInterruptRunning_ok applied).1).2.2 (ended (by decide))

/-- A call that lets a turn run that waits for permission is an allowing resolution of it. -/
theorem step_resumes {op : Operation} {turnId : TurnId} {turn row : TurnRow} (reached : Reachable E db)
    (before : db.turns.get? turnId = some turn) (waiting : turn.state.status = .waitingPermission)
    (after : (step E db op).turns.get? turnId = some row) (running : row.state.status = .running) :
    row.state.revision = turn.state.revision + 1 ∧ ∃ request lease now sourceKey requestId rebound,
      op = .commit request lease now ∧ request.turnId = turnId ∧
      request.update = .resolvePermission sourceKey requestId true rebound := by
  have never : ¬ StateKept (db.turns.get? turnId) ((step E db op).turns.get? turnId) := by
    intro kept
    obtain ⟨other, held, same⟩ := kept turn before
    rw [after, Option.some.injEq] at held
    subst held
    rw [running] at same
    rcases same with state | interrupted
    · rw [state, waiting] at running
      cases running
    · cases interrupted
  rcases step_ok reached op with
    ⟨request, lease, now, session, session', old, new, draft, mid, states, cards, response, same, done⟩ |
    change | path
  · have named := reached.mirrored.turnId _ _ done.admitted.foundTurn
    have turns := done.written.turns turnId
    by_cases here : turnId = request.turnId
    · subst here
      rw [if_pos named.symm, after, Option.some.injEq] at turns
      have found := done.admitted.foundTurn
      rw [before, Option.some.injEq] at found
      subst turns found
      rw [done.state] at running ⊢
      obtain ⟨revision, sourceKey, requestId, rebound, update⟩ := applyUpdate_resumes done.applied waiting running
      exact ⟨revision, request, lease, now, sourceKey, requestId, rebound, same, rfl, update⟩
    · rw [if_neg (named ▸ here)] at turns
      exact absurd (.of_same turns) never
  · exact absurd (change.state_kept turnId) never
  · exact absurd (Housekeeping.path_state_kept path turnId) never

/-- A permission keeps its binding. -/
def BindingKept (before after : Option PermissionRow) : Prop :=
  ∀ row, before = some row → after.map permissionKey = some (permissionKey row)

theorem Uncommitted.binding_kept (change : Uncommitted E db db') (effectId : String) :
    BindingKept (db.pendingPermissions.get? effectId) (db'.pendingPermissions.get? effectId) := by
  intro row found
  cases change.ledger with
  | interrupted done =>
      rw [done.frame]
      simp only [settleEffects, Table.get?_mapRows, found, Option.map_some]
      split
      · rw [consumePermission_key]
      · rfl
  | retired done =>
      rw [done.result, found]
      rfl
  | same _ permissions =>
      rw [permissions, found]
      rfl

theorem Housekeeping.path_binding_kept (path : ReflTransGen (Housekeeping E) db db') (effectId : String) :
    BindingKept (db.pendingPermissions.get? effectId) (db'.pendingPermissions.get? effectId) := by
  induction path with
  | refl => exact fun row found => by rw [found]; rfl
  | tail _ change ih =>
      intro row found
      obtain ⟨one, held, key⟩ := Option.map_eq_some_iff.mp (ih row found)
      rw [change.uncommitted.binding_kept effectId one held, key]

theorem step_binding_kept (reached : Reachable E db) (op : Operation) (effectId : String) :
    BindingKept (db.pendingPermissions.get? effectId) ((step E db op).pendingPermissions.get? effectId) := by
  rcases step_ok reached op with ⟨_, _, _, _, _, _, _, _, mid, _, _, _, _, done⟩ | change | path
  · intro row found
    have permissions : (step E db op).pendingPermissions = mid.pendingPermissions := by rw [done.frame]
    rw [permissions]
    exact applyUpdate_permission done.applied found
  · exact change.binding_kept effectId
  · exact Housekeeping.path_binding_kept path effectId

/-! ## Runs -/

/-- Call `i` of a run prepares the effect under this policy, for this turn and with this request. -/
def PreparesAt (E : Environment) (ops : List Operation) (i : Nat) (effectId : String)
    (policy : SessionEffectPolicy) (turnId : TurnId) (asked : PendingPermission) : Prop :=
  effectStatus (dbAt E ops i) effectId = none ∧ effectStatus (dbAt E ops (i + 1)) effectId = some .prepared ∧
    ∃ request lease now sourceKey digest descriptor canonical description checkpoint,
      ops[i]? = some (.commit request lease now) ∧ request.turnId = turnId ∧
      request.update = .prepareEffect sourceKey effectId digest descriptor canonical policy description
        checkpoint ∧
      asked = ⟨E.redactSessionText effectId, E.redactSessionText digest, E.redactSessionText description⟩

/-- Call `j` of a run allows the permission for which the turn waits. -/
def AllowsAt (E : Environment) (ops : List Operation) (j : Nat) (turnId : TurnId) (asked : PendingPermission)
    (revision : Nat) : Prop :=
  ∃ request lease now sourceKey requestId rebound before after,
    ops[j]? = some (.commit request lease now) ∧ request.turnId = turnId ∧
    request.update = .resolvePermission sourceKey requestId true rebound ∧
    (dbAt E ops j).turns.get? turnId = some before ∧ before.state.status = .waitingPermission ∧
    before.state.pendingPermission = some asked ∧
    (dbAt E ops (j + 1)).turns.get? turnId = some after ∧ after.state.status = .running ∧
    before.state.revision + 1 = revision ∧ after.state.revision = revision

/-- The turn stands at this revision from after call `j` up to before call `k`. -/
def StandsAt (E : Environment) (ops : List Operation) (j k : Nat) (turnId : TurnId) (revision : Nat) : Prop :=
  ∀ m, j < m → m ≤ k → ((dbAt E ops m).turns.get? turnId).map (fun turn => turn.state.revision) = some revision

/-- An effect prepared by call `i` under `Ask`, before call `k`: its permission is bound to `revision`, and the
turn that runs at this revision has been allowed to. -/
structure AskHeld (E : Environment) (ops : List Operation) (i k : Nat) (effectId : String) (turnId : TurnId)
    (asked : PendingPermission) (revision : Nat) : Prop where
  later : i < k
  linked : ((dbAt E ops k).sessionTurns.get? turnId).isSome = true
  effect : ∃ row, (dbAt E ops k).effects.get? effectId = some row ∧ row.turnId = turnId ∧
    row.preEvidenceJson = policyMarker .ask
  permission : ∃ row, (dbAt E ops k).pendingPermissions.get? effectId = some row ∧
    permissionKey row = (turnId, revision)
  turn : ∃ turn, (dbAt E ops k).turns.get? turnId = some turn ∧ revision ≤ turn.state.revision + 1 ∧
    (turn.state.revision + 1 = revision →
      turn.state.status = .waitingPermission ∧ turn.state.pendingPermission = some asked) ∧
    (turn.state.revision = revision → turn.state.status = .running →
      ∃ j, i < j ∧ j < k ∧ AllowsAt E ops j turnId asked revision ∧ StandsAt E ops j k turnId revision)

theorem StandsAt.succ {ops : List Operation} {j k : Nat} {turnId : TurnId} {revision : Nat}
    (held : StandsAt E ops j k turnId revision)
    (new : ((dbAt E ops (k + 1)).turns.get? turnId).map (fun turn => turn.state.revision) = some revision) :
    StandsAt E ops j (k + 1) turnId revision := by
  intro m later bound
  rcases Nat.lt_or_eq_of_le bound with early | rfl
  · exact held m later (Nat.le_of_lt_succ early)
  · exact new

theorem AskHeld.succ {ops : List Operation} {i k : Nat} {turnId : TurnId} {asked : PendingPermission}
    {revision : Nat} (held : AskHeld E ops i k effectId turnId asked revision) (bound : k < ops.length) :
    AskHeld E ops i (k + 1) effectId turnId asked revision := by
  have reached := reachable_dbAt (E := E) ops k
  have stepped : step E (dbAt E ops k) ops[k] = dbAt E ops (k + 1) := (stateAt_succ bound).symm
  have linked := step_links_grow reached ops[k] turnId held.linked
  have kept := step_effect_kept reached ops[k] effectId
  have bindings := step_binding_kept reached ops[k] effectId
  have taken := step_turn reached ops[k] turnId
  rw [stepped] at linked kept bindings taken
  refine ⟨Nat.lt_succ_of_lt held.later, linked, ?_, ?_, ?_⟩
  · obtain ⟨row, found, mine, asks⟩ := held.effect
    obtain ⟨row', after, turnId', policy, _⟩ := kept row found
    exact ⟨row', after, turnId'.trans mine, policy.trans asks⟩
  · obtain ⟨row, found, key⟩ := held.permission
    obtain ⟨row', after, same⟩ := Option.map_eq_some_iff.mp (bindings row found)
    exact ⟨row', after, same.trans key⟩
  · obtain ⟨turn, found, above, waits, allowed⟩ := held.turn
    cases taken with
    | unlinked none =>
        rw [none] at linked
        cases linked
    | child _ absent =>
        rw [absent] at found
        cases found
    | kept same =>
        have turns := same.turns
        rw [found, Option.map_some] at turns
        obtain ⟨turn', after, state⟩ := Option.map_eq_some_iff.mp turns
        have state : turn'.state = turn.state := congrArg Prod.fst state
        refine ⟨turn', after, ?_, ?_, ?_⟩
        · rw [state]
          exact above
        · rw [state]
          exact waits
        · intro here running
          rw [state] at here running
          obtain ⟨j, later, earlier, allows, stands⟩ := allowed here running
          refine ⟨j, later, Nat.lt_succ_of_lt earlier, allows, stands.succ ?_⟩
          rw [after, Option.map_some, state, here]
    | @moved before row states done =>
        have same := done.before
        rw [found, Option.some.injEq] at same
        subst same
        have revised := done.path.revision
        refine ⟨row, done.after, by omega, ?_, ?_⟩
        · intro here
          have none : states = [] := List.eq_nil_of_length_eq_zero (by omega)
          have path := done.path
          rw [none] at path
          rw [path.of_nil] at here ⊢
          exact waits here
        · intro here running
          by_cases waiting : turn.state.revision + 1 = revision
          · -- the turn leaves the revision at which it waits, and it runs: the permission was allowed
            obtain ⟨status, pending⟩ := waits waiting
            have after := done.after
            rw [← stepped] at after
            obtain ⟨next, request, lease, now, sourceKey, requestId, rebound, same, mine, update⟩ :=
              step_resumes reached found status after running
            refine ⟨k, held.later, Nat.lt_succ_self k, ⟨request, lease, now, sourceKey, requestId, rebound, turn,
              row, ?_, mine, update, found, status, pending, done.after, running, waiting, here⟩, ?_⟩
            · rw [List.getElem?_eq_getElem bound, same]
            · intro m later earlier
              have only : m = k + 1 := Nat.le_antisymm earlier later
              subst only
              rw [done.after, Option.map_some, here]
          · have none : states = [] := List.eq_nil_of_length_eq_zero (by omega)
            have path := done.path
            rw [none] at path
            have state := path.of_nil
            rw [state] at here running
            obtain ⟨j, later, earlier, allows, stands⟩ := allowed here running
            refine ⟨j, later, Nat.lt_succ_of_lt earlier, allows, stands.succ ?_⟩
            rw [done.after, Option.map_some, state, here]

/-- A preparation under `Ask` binds its permission two revisions ahead and makes the turn wait for it. -/
theorem PreparesAt.held {ops : List Operation} {i : Nat} {turnId : TurnId} {asked : PendingPermission}
    (prepares : PreparesAt E ops i effectId .ask turnId asked) :
    ∃ revision, AskHeld E ops i (i + 1) effectId turnId asked revision := by
  obtain ⟨absent, prepared, request, lease, now, sourceKey, digest, descriptor, canonical, description, checkpoint,
    called, rfl, update, rfl⟩ := prepares
  obtain ⟨bound, same⟩ := List.getElem?_eq_some_iff.mp called
  have reached := reachable_dbAt (E := E) ops i
  have stepped : step E (dbAt E ops i) ops[i] = dbAt E ops (i + 1) := (stateAt_succ bound).symm
  rw [← stepped] at prepared
  obtain ⟨request', lease', now', turn, row, draft, mid, op, session, session', states, cards, response, done⟩ :=
    step_commits reached (.inr rfl) (by simp [absent]) prepared
  rw [same, Operation.commit.injEq] at op
  obtain ⟨rfl, rfl, rfl⟩ := op
  rw [stepped] at done prepared
  have applied := done.applied
  rw [update] at applied
  obtain ⟨_, _, between, inserted, chosen⟩ := applyPrepareEffect_ok applied
  obtain ⟨impossible, _⟩ | ⟨_, permitted, _, _, asks⟩ := chosen
  · cases impossible
  obtain ⟨fresh, rfl⟩ := insertPrepared_ok inserted
  obtain ⟨freshPermission, bindings⟩ := insertPermission_ok permitted
  have next := (TurnState.transition_requestPermission asks).2
  have named := (reached.mirrored.turnId _ _ done.admitted.foundTurn)
  have latest := reached.graph.gate_latest done.admitted.foundSession done.admitted.gate
  obtain ⟨link, linked, _⟩ := (reached.graph.session _ _ done.admitted.foundSession).latest _ latest
  have effects : (dbAt E ops (i + 1)).effects = mid.effects := by rw [done.frame]
  have permissions : (dbAt E ops (i + 1)).pendingPermissions = mid.pendingPermissions := by rw [done.frame]
  have after := done.written.turns request.turnId
  rw [if_pos named.symm] at after
  refine ⟨turn.state.revision + 2, Nat.lt_succ_self i, ?_, ?_, ?_, row, after, ?_, ?_, ?_⟩
  · rw [done.links.isSome, linked]
    rfl
  · rw [effects, bindings]
    exact ⟨_, (Table.get?_add_fresh _ _ fresh _).trans (if_pos rfl), rfl, rfl⟩
  · rw [permissions, bindings]
    exact ⟨_, (Table.get?_add_fresh _ _ freshPermission _).trans (if_pos rfl), rfl⟩
  · rw [done.state, next]
  · intro _
    rw [done.state, next]
    exact ⟨rfl, rfl⟩
  · intro here
    rw [done.state, next] at here
    exact absurd here (by simp)

theorem run_ask_held {ops : List Operation} {i : Nat} {turnId : TurnId} {asked : PendingPermission}
    (prepares : PreparesAt E ops i effectId .ask turnId asked) :
    ∃ revision, ∀ k, i < k → k ≤ ops.length → AskHeld E ops i k effectId turnId asked revision := by
  obtain ⟨revision, first⟩ := prepares.held
  refine ⟨revision, ?_⟩
  intro k later
  induction k, later using Nat.le_induction with
  | base => exact fun _ => first
  | succ k _ ih => exact fun bound => (ih (Nat.le_of_succ_le bound)).succ bound

/-- Call `k` of a run starts the effect. -/
def StartsAt (E : Environment) (ops : List Operation) (k : Nat) (effectId : String) : Prop :=
  k < ops.length ∧ effectStatus (dbAt E ops k) effectId ≠ some .started ∧
    effectStatus (dbAt E ops (k + 1)) effectId = some .started

/-- Call `k` starts an effect with its unconsumed permission, under the lease that the permission is bound to,
at the revision that an allowing resolution between the calls `i` and `k` has left. -/
def AuthorizedAt (E : Environment) (ops : List Operation) (i k : Nat) (effectId : String) (turnId : TurnId)
    (asked : PendingPermission) : Prop :=
  ∃ request lease now sourceKey digest checkpoint permission,
    ops[k]? = some (.commit request lease now) ∧ request.turnId = turnId ∧
    request.update = .startEffect sourceKey effectId digest checkpoint ∧
    (dbAt E ops k).pendingPermissions.get? effectId = some permission ∧ permission.turnId = turnId ∧
    permission.leaseOwner = lease.owner ∧ permission.leaseToken = lease.fencingToken ∧
    permission.consumedAtMs = none ∧ ∃ j, i < j ∧ j < k ∧
      AllowsAt E ops j turnId asked permission.turnRevision ∧
      StandsAt E ops j k turnId permission.turnRevision

theorem effect_kept_at (ops : List Operation) (effectId : String) {k : Nat} (bound : k < ops.length) :
    EffectKept Moves ((dbAt E ops k).effects.get? effectId) ((dbAt E ops (k + 1)).effects.get? effectId) := by
  have stepped : step E (dbAt E ops k) ops[k] = dbAt E ops (k + 1) := (stateAt_succ bound).symm
  exact stepped ▸ step_effect_kept (reachable_dbAt ops k) ops[k] effectId

theorem effect_stays (ops : List Operation) {j k : Nat} (order : j ≤ k) (bound : k ≤ ops.length)
    (known : ((dbAt E ops j).effects.get? effectId).isSome = true) :
    ((dbAt E ops k).effects.get? effectId).isSome = true := by
  induction k, order using Nat.le_induction with
  | base => exact known
  | succ k _ ih =>
      obtain ⟨row, found⟩ := Option.isSome_iff_exists.mp (ih (Nat.le_of_succ_le bound))
      obtain ⟨row', after, _⟩ := effect_kept_at ops effectId bound row found
      exact Option.isSome_iff_exists.mpr ⟨row', after⟩

/-- The statuses that only an effect that is past its start, or that never starts, has. -/
def pastStart (status : EffectStatus) : Prop := status ≠ .declared ∧ status ≠ .prepared

theorem Moves.pastStart {before after : EffectStatus} (moves : Moves before after)
    (past : pastStart before) : Storage.pastStart after := by
  rcases moves with rfl | member
  · exact past
  · obtain ⟨_, unprepared⟩ := past
    cases before <;> cases after <;> simp_all [effectChanges, Storage.pastStart]

/-- A started effect never returns to a status from which it could start. -/
theorem StartsAt.past {ops : List Operation} {j : Nat} (starts : StartsAt E ops j effectId) :
    ∀ k, j + 1 ≤ k → k ≤ ops.length → ∃ status, effectStatus (dbAt E ops k) effectId = some status ∧
      pastStart status := by
  intro k order
  induction k, order using Nat.le_induction with
  | base => exact fun _ => ⟨.started, starts.2.2, by decide, by decide⟩
  | succ k _ ih =>
      intro bound
      obtain ⟨status, held, past⟩ := ih (Nat.le_of_succ_le bound)
      obtain ⟨row, found, rfl⟩ := effectStatus_eq_some.mp held
      obtain ⟨row', after, _, _, moves⟩ := effect_kept_at ops effectId bound row found
      exact ⟨row'.status, effectStatus_eq_some.mpr ⟨row', after, rfl⟩, moves.pastStart past⟩

theorem StartsAt.not_again {ops : List Operation} {j k : Nat} (first : StartsAt E ops j effectId)
    (order : j < k) : ¬ StartsAt E ops k effectId := by
  intro second
  obtain ⟨status, held, _, unprepared⟩ := first.past k order (Nat.le_of_lt second.1)
  obtain ⟨row, found, rfl⟩ := effectStatus_eq_some.mp held
  obtain ⟨row', after, _, _, moves⟩ := effect_kept_at ops effectId second.1 row found
  have started : row'.status = .started := by
    have status := second.2.2
    rw [effectStatus, after, Option.map_some, Option.some.injEq] at status
    exact status
  rcases moves with same | member
  · exact second.2.1 (effectStatus_eq_some.mpr ⟨row, found, same.trans started⟩)
  · rw [started] at member
    cases was : row.status <;> simp_all [effectChanges]

theorem StartsAt.authorized {ops : List Operation} {i k : Nat} {turnId : TurnId} {asked : PendingPermission}
    (starts : StartsAt E ops k effectId) (prepares : PreparesAt E ops i effectId .ask turnId asked) :
    AuthorizedAt E ops i k effectId turnId asked := by
  obtain ⟨bound, before, after⟩ := starts
  have reached := reachable_dbAt (E := E) ops k
  have stepped : step E (dbAt E ops k) ops[k] = dbAt E ops (k + 1) := (stateAt_succ bound).symm
  rw [← stepped] at after
  obtain ⟨request, lease, now, turn, row, draft, mid, op, session, session', states, cards, response, done⟩ :=
    step_commits reached (.inl rfl) before after
  obtain ⟨sourceKey, digest, checkpoint, update⟩ := done.starts before after
  have applied := done.applied
  rw [update] at applied
  obtain ⟨running, _, _, _, _, _, effect, authorized, found, mine, prepared, _, allowed, _⟩ :=
    applyStartEffect_ok applied
  have later : i < k := by
    obtain ⟨absent, _, _, _, _, _, _, _, _, _, _, called, _⟩ := prepares
    obtain ⟨inside, _⟩ := List.getElem?_eq_some_iff.mp called
    by_contra order
    have stays := effect_stays ops (Nat.le_of_not_lt order) (Nat.le_of_lt inside) (by rw [found]; rfl)
    rw [effectStatus, Option.map_eq_none_iff] at absent
    rw [absent] at stays
    cases stays
  obtain ⟨revision, held⟩ := run_ask_held prepares
  have held := held k later (Nat.le_of_lt bound)
  obtain ⟨row', held', turnId', asks⟩ := held.effect
  rw [found, Option.some.injEq] at held'
  subst held'
  have here : request.turnId = turnId := mine.symm.trans turnId'
  obtain ⟨permission, bindsFound, key⟩ := held.permission
  simp only [permissionKey, Prod.mk.injEq] at key
  rcases authorizeStart_ok allowed with
    ⟨other, binds, owned, revised, owner, token, unused, _⟩ | ⟨allows, _⟩
  · rw [bindsFound, Option.some.injEq] at binds
    subst binds
    obtain ⟨turn', foundTurn, _, _, runs⟩ := held.turn
    have same := done.admitted.foundTurn
    rw [here, foundTurn, Option.some.injEq] at same
    subst same
    have stands := revised.symm.trans key.2
    obtain ⟨j, first, last, resolves, standing⟩ := runs stands running
    refine ⟨request, lease, now, sourceKey, digest, checkpoint, permission, ?_, here, update, bindsFound, key.1,
      owner, token, unused, j, first, last, ?_, ?_⟩
    · rw [List.getElem?_eq_getElem bound, op]
    · rw [key.2]
      exact resolves
    · rw [key.2]
      exact standing
  · rw [asks] at allows
    exact absurd allows (by decide)

/-- In a run, an effect changes status only as listed, starts at most once, and if it was prepared under `Ask`,
starts only with the authority of its permission. -/
structure LedgerSafe (E : Environment) (ops : List Operation) : Prop where
  changes : ∀ k, k < ops.length → ∀ effectId before after,
    effectStatus (dbAt E ops k) effectId = some before →
      effectStatus (dbAt E ops (k + 1)) effectId = some after → before ≠ after → (before, after) ∈ effectChanges
  once : ∀ effectId j k, StartsAt E ops j effectId → StartsAt E ops k effectId → j = k
  authorized : ∀ effectId i k turnId asked, PreparesAt E ops i effectId .ask turnId asked →
    StartsAt E ops k effectId → AuthorizedAt E ops i k effectId turnId asked

theorem run_ledger_safe (ops : List Operation) : LedgerSafe E ops := by
  refine ⟨?_, ?_, fun effectId i k turnId asked prepares starts => starts.authorized prepares⟩
  · intro k bound effectId before after held held' differs
    obtain ⟨row, found, rfl⟩ := effectStatus_eq_some.mp held
    obtain ⟨row', found', _, _, moves⟩ := effect_kept_at ops effectId bound row found
    rw [effectStatus, found', Option.map_some, Option.some.injEq] at held'
    subst held'
    rcases moves with same | member
    · exact absurd same differs
    · exact member
  · intro effectId j k first second
    rcases Nat.lt_trichotomy j k with order | same | order
    · exact absurd second (first.not_again order)
    · exact same
    · exact absurd first (second.not_again order)

end LatteCode.Storage
