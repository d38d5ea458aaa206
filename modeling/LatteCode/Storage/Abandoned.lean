import LatteCode.Storage.Authority
/- Effects that are still started when their turn ends. -/

namespace LatteCode.Storage
open Keyed Outcome Numbered Relation Runs

variable {E : Environment} {db middle db' : E.Db} {effectId : String}

theorem mem_effectIds {turnId : TurnId} {status : EffectStatus} : effectId ∈ effectIds db turnId status ↔
    ∃ row, db.effects.get? effectId = some row ∧ row.turnId = turnId ∧ row.status = status := by
  rw [effectIds, List.mem_map]
  constructor
  · rintro ⟨⟨key, row⟩, member, rfl⟩
    obtain ⟨found, chosen⟩ := (Table.mem_select _ _).mp member
    rw [Bool.and_eq_true, decide_eq_true_eq, decide_eq_true_eq] at chosen
    exact ⟨row, found, chosen⟩
  · rintro ⟨row, found, mine, same⟩
    refine ⟨(effectId, row), (Table.mem_select _ _).mpr ⟨found, ?_⟩, rfl⟩
    rw [Bool.and_eq_true, decide_eq_true_eq, decide_eq_true_eq]
    exact ⟨mine, same⟩

/-- Every effect belongs to a turn. -/
def EffectTurns (db : E.Db) : Prop :=
  ∀ effectId row, db.effects.get? effectId = some row → (db.turns.get? row.turnId).isSome = true

theorem EffectTurns.change (held : EffectTurns db) (change : Change E db db') : EffectTurns db' := by
  intro effectId row' after
  cases change with
  | committed done =>
      have kept : ∀ turnId, (db.turns.get? turnId).isSome = true → (db'.turns.get? turnId).isSome = true := by
        intro turnId present
        rw [done.written.turns]
        split
        · rfl
        · exact present
      cases done.effect effectId with
      | moved same =>
          rw [after, Option.map_some] at same
          obtain ⟨row, found, key⟩ := Option.map_eq_some_iff.mp same.symm
          rw [← show row.turnId = row'.turnId from congrArg Prod.fst key]
          exact kept _ (held effectId row found)
      | prepared _ _ added key =>
          rw [after, Option.some.injEq] at added
          subst added
          rw [show row'.turnId = _ from congrArg Prod.fst key]
          exact kept _ (Option.isSome_iff_exists.mpr ⟨_, done.admitted.foundTurn⟩)
  | other done =>
      cases before : db.effects.get? effectId with
      | none =>
          rw [done.effect_absent effectId before] at after
          cases after
      | some row =>
          obtain ⟨other, same, turnId, _⟩ := done.effect_kept effectId row before
          rw [after, Option.some.injEq] at same
          subst same
          rw [turnId]
          obtain ⟨turn, found⟩ := Option.isSome_iff_exists.mp (held effectId row before)
          obtain ⟨turn', present, _⟩ := done.state_kept row.turnId turn found
          exact Option.isSome_iff_exists.mpr ⟨turn', present⟩

theorem Reachable.effectTurns (reached : Reachable E db) : EffectTurns db := by
  refine reached.invariant ?_ fun _ _ _ held change => held.change change
  intro effectId row impossible
  cases impossible

/-! ## What the end of a turn must account for -/

/-- The updates that end their turn. -/
def endsTurn : CommitSessionTurnUpdate → Bool
  | .unknownEffect .. | .reconcileUnknownEffect .. | .complete .. | .completeVerified .. | .fail ..
  | .interrupt .. => true
  | .resolvePermission _ _ allow _ => !allow
  | _ => false

/-- An update that would end the turn in this state moves every started effect of the turn. -/
def accountsStarted (E : Environment) (db : E.Db) (turnId : TurnId) (current : TurnState)
    (update : CommitSessionTurnUpdate) : Bool :=
  let started := effectIds db turnId .started
  match update with
  | .complete .. | .completeVerified .. => decide (current.status ≠ .running) || started.isEmpty
  | .fail .. => decide (isWaiting current) || started.isEmpty
  | .resolvePermission _ _ false _ => decide (current.status ≠ .waitingPermission) || started.isEmpty
  | .reconcileUnknownEffect .. => started.isEmpty
  | .unknownEffect _ effectId .. => started.all (· = effectId)
  | .interrupt _ named =>
      if isWaiting current then started.isEmpty
      else started.all fun effectId => interruptedEffect E db turnId named = some effectId
  | _ => true

section Updates

variable {mid : E.Db} {turnId : TurnId} {lease : Lease} {now : Nat} {current : TurnState}
  {lifecycle : SessionLifecycle} {recovered : Bool} {draft : Draft}

/-- Only the listed updates ask the tail to end the turn. -/
theorem applyUpdate_ends {update : CommitSessionTurnUpdate}
    (applied : applyUpdate E db turnId lease now current lifecycle recovered update = .ok (draft, mid))
    (closed : draft.terminal = true) : endsTurn update = true := by
  have never : draft.terminal = false → endsTurn update = true := by
    intro open_
    rw [closed] at open_
    cases open_
  cases update with
  | unknownEffect | reconcileUnknownEffect | complete | completeVerified | fail | interrupt => rfl
  | resolvePermission _ _ allow =>
      obtain ⟨_, _, ⟨_, open_, _⟩ | ⟨rfl, _⟩⟩ := applyResolvePermission_ok applied
      · exact never open_
      · rfl
  | prepareEffect => exact never (applyPrepareEffect_ok applied).2.1
  | startEffect => exact never (applyStartEffect_ok applied).2.2.2.2.2.1
  | observeEffect => exact never (applyObserveEffect_ok applied).2.2.2.2.1
  | requestPermission => exact never (applyRequestPermission_ok applied).2.2.1
  | appendTranscript =>
      cases applied
      exact never rfl
  | start =>
      simp only [applyUpdate, applyStart, bind_ok, Except.ok.injEq, Prod.mk.injEq] at applied
      obtain ⟨_, _, rfl, _⟩ := applied
      exact never rfl
  | requestInput =>
      simp only [applyUpdate, applyRequestInput, bind_ok, Except.ok.injEq, Prod.mk.injEq] at applied
      obtain ⟨_, _, rfl, _⟩ := applied
      exact never rfl
  | provideInput =>
      simp only [applyUpdate, applyProvideInput, bind_ok, Except.ok.injEq, Prod.mk.injEq] at applied
      obtain ⟨_, _, rfl, _⟩ := applied
      exact never rfl

/-- An update that accounts for the started effects leaves none of them started when it ends the turn. -/
theorem applyUpdate_accounts {update : CommitSessionTurnUpdate}
    (applied : applyUpdate E db turnId lease now current lifecycle recovered update = .ok (draft, mid))
    (closed : draft.terminal = true) (accounts : accountsStarted E db turnId current update = true)
    (started : effectId ∈ effectIds db turnId .started) :
    movedStatus (updateMove E db turnId current update) effectId .started ≠ .started := by
  have empty : (effectIds db turnId .started).isEmpty = true →
      movedStatus (updateMove E db turnId current update) effectId .started ≠ .started := by
    intro none
    rw [List.isEmpty_iff] at none
    rw [none] at started
    cases started
  have ends := applyUpdate_ends applied closed
  cases update with
  | complete =>
      simp only [applyUpdate, applyComplete, bind_ok, transitionOr_ok, Except.ok.injEq, Prod.mk.injEq] at applied
      obtain ⟨_, step, _, _⟩ := applied
      have running := (TurnState.transition_complete rfl step).1
      simp only [accountsStarted, running, ne_eq, not_true_eq_false, decide_false, Bool.false_or] at accounts
      exact empty accounts
  | completeVerified =>
      simp only [applyUpdate, applyCompleteVerified, bind_ok, transitionOr_ok, Except.ok.injEq,
        Prod.mk.injEq] at applied
      obtain ⟨_, _, _, step, _, _⟩ := applied
      have running := (TurnState.transition_complete rfl step).1
      simp only [accountsStarted, running, ne_eq, not_true_eq_false, decide_false, Bool.false_or] at accounts
      exact empty accounts
  | fail =>
      simp only [applyUpdate, applyFail, bind_ok, transitionOr_ok, Except.ok.injEq, Prod.mk.injEq] at applied
      obtain ⟨_, step, _, _⟩ := applied
      have active : ¬ isWaiting current := by
        rintro (waiting | waiting) <;>
          simp [TurnState.transition_ok, TurnState.advance, waiting] at step
      simp only [accountsStarted, active, decide_false, Bool.false_or] at accounts
      exact empty accounts
  | resolvePermission _ _ allow =>
      cases allow with
      | true => cases ends
      | false =>
          obtain ⟨step, _⟩ := applyResolvePermission_ok applied
          have waiting := (TurnState.transition_resolvePermission step).1
          simp only [accountsStarted, waiting, ne_eq, not_true_eq_false, decide_false, Bool.false_or] at accounts
          exact empty accounts
  | reconcileUnknownEffect => exact empty accounts
  | unknownEffect _ id =>
      have same : effectId = id := of_decide_eq_true (List.all_eq_true.mp accounts effectId started)
      simp [updateMove, movedStatus, EffectMove.apply, same]
  | interrupt _ named =>
      simp only [accountsStarted] at accounts
      split at accounts
      case isTrue => exact empty accounts
      case isFalse active =>
        have same := of_decide_eq_true (List.all_eq_true.mp accounts effectId started)
        simp [updateMove, if_neg active, same, movedStatus, EffectMove.apply]
  | _ => cases ends

end Updates

/-! ## Started effects and active turns -/

/-- Every started effect of a linked turn belongs to the active turn of its session. -/
def NoneAbandoned (db : E.Db) : Prop :=
  ∀ effectId row link, db.effects.get? effectId = some row → row.status = .started →
    db.sessionTurns.get? row.turnId = some link →
      ∃ active, db.sessionActiveTurns.get? link.sessionId = some active ∧ active.turnId = row.turnId

/-- A change that starts no effect and keeps the links and the active turns abandons nothing. -/
theorem NoneAbandoned.congr (held : NoneAbandoned db)
    (started : ∀ effectId row', db'.effects.get? effectId = some row' → row'.status = .started →
      ∃ row, db.effects.get? effectId = some row ∧ row.status = .started ∧ row.turnId = row'.turnId)
    (links : SameLinks db.sessionTurns db'.sessionTurns)
    (actives : ∀ key, (db'.sessionActiveTurns.get? key).map ActiveTurnRow.turnId =
      (db.sessionActiveTurns.get? key).map ActiveTurnRow.turnId) : NoneAbandoned db' := by
  intro effectId row' link' found status linked
  obtain ⟨row, before, same, turnId⟩ := started effectId row' found status
  obtain ⟨link, old, session, _⟩ := links.get? linked
  obtain ⟨active, present, mine⟩ := held effectId row link before same (turnId ▸ old)
  obtain ⟨active', present', kept⟩ := map_eq_some_of (actives link.sessionId) present
  rw [← session]
  exact ⟨active', present', (kept.trans mine).trans turnId⟩

/-- A new child takes over no effect, and its session had no active turn to lose. -/
theorem NoneAbandoned.child {sessionId : SessionId} {state : TurnState} {parent : Option TurnId}
    {ordinal now : Nat} {lease : Option Lease} (held : NoneAbandoned db) (owned : EffectTurns db)
    (child : ChildWritten db db' sessionId state parent ordinal lease now)
    (effects : db'.effects = db.effects) : NoneAbandoned db' := by
  intro effectId row link found status linked
  rw [effects] at found
  have apart : row.turnId ≠ state.turnId := by
    intro same
    have present := owned effectId row found
    rw [same, child.freshTurn] at present
    cases present
  rw [child.links, if_neg apart] at linked
  obtain ⟨active, present, mine⟩ := held effectId row link found status linked
  refine ⟨active, ?_, mine⟩
  rw [child.actives, if_neg]
  · exact present
  · intro here
    rw [here, child.idle] at present
    cases present

/-- Recovery leaves no effect of its turn started, and takes no other active turn. -/
theorem NoneAbandoned.interrupted {sessionId : SessionId} {turnId : TurnId} {token now : Nat}
    {session session' : SessionRow} {turn row : TurnRow} {rows : List SessionEventRow}
    {cards : List TranscriptEntry} (held : NoneAbandoned db)
    (done : Interrupted sessionId turnId token now db db' session session' turn row rows cards) :
    NoneAbandoned db' := by
  intro effectId row' link' found status linked
  have same := done.effect effectId
  rw [found, Option.map_some] at same
  obtain ⟨row, before, key⟩ := Option.map_eq_some_iff.mp same.symm
  have owner : row.turnId = row'.turnId := congrArg Prod.fst key
  have settled : (settledKey turnId row).2.2 = .started := (congrArg (fun key => key.2.2) key).trans status
  have other : row.turnId ≠ turnId := by
    intro mine
    simp only [settledKey, if_pos mine] at settled
    cases old : row.status <;> simp [old, settledStatus] at settled
  simp only [settledKey, if_neg other] at settled
  obtain ⟨link, old, inSession, _⟩ := done.links.get? linked
  obtain ⟨active, present, mine⟩ := held effectId row link before settled (owner ▸ old)
  refine ⟨active, ?_, mine.trans owner⟩
  rw [← inSession, done.actives, if_neg]
  · exact present
  · intro here
    rw [here, done.active, Option.some.injEq] at present
    exact other (mine.symm.trans (present ▸ rfl))

/-- Beside commits, no operation abandons a started effect. -/
theorem NoneAbandoned.other (held : NoneAbandoned db) (owned : EffectTurns db) (change : Uncommitted E db db') :
    NoneAbandoned db' := by
  have same : db'.effects = db.effects → ∀ effectId row', db'.effects.get? effectId = some row' →
      row'.status = .started → ∃ row, db.effects.get? effectId = some row ∧ row.status = .started ∧
        row.turnId = row'.turnId := by
    intro effects effectId row' found status
    rw [effects] at found
    exact ⟨row', found, status, rfl⟩
  cases change with
  | created done => exact held.child owned done.child (by rw [done.frame])
  | followedUp done => exact held.child owned done.child (by rw [done.frame])
  | interrupted done => exact held.interrupted done
  | retired done =>
      refine held.congr ?_ (by rw [done.result]; exact .refl) (by rw [done.result]; exact fun _ => rfl)
      intro effectId row' found status
      have same := done.effect effectId
      rw [found, Option.map_some] at same
      obtain ⟨row, before, key⟩ := Option.map_eq_some_iff.mp same.symm
      have after : (retiredKey _ row).2.2 = .started := (congrArg (fun key => key.2.2) key).trans status
      refine ⟨row, before, ?_, congrArg Prod.fst key⟩
      simp only [retiredKey] at after
      split at after
      case isTrue mine =>
        rw [mine.2] at after
        cases after
      case isFalse => exact after
  | switched done | forked done | acquired done =>
      refine held.congr (same (by rw [done.frame])) ?_ ?_
      all_goals rw [done.frame]
      · exact .refl
      · exact fun _ => rfl
  | quiesced done =>
      rw [done.result]
      refine held.congr (fun effectId row' found status => ⟨row', found, status, rfl⟩) .refl ?_
      intro key
      simp only [Table.get?_modify]
      split
      · rw [Option.map_map]
        rfl
      · rfl
  | renewed _ _ done | released _ done | renamed _ _ done | acknowledged _ done | evidenced _ done
  | aliased _ _ _ _ _ _ done | runCreated _ _ _ _ _ done =>
      subst done
      exact held.congr (same rfl) .refl fun _ => rfl

section Commits

variable {request : SessionCommitRequest} {lease : Lease} {now : Nat} {session session' : SessionRow}
  {turn row : TurnRow} {draft : Draft} {mid : E.Db} {states : List TurnState} {cards : List TranscriptEntry}
  {response : SessionCommitResponse}

/-- An effect that is started after a commit was started before it, or the commit started it. -/
theorem Committed.started_source {effect' : EffectRow}
    (done : Committed E request lease now db db' session session' turn row draft mid states cards response)
    (found : db'.effects.get? effectId = some effect') (started : effect'.status = .started) :
    ∃ effect, db.effects.get? effectId = some effect ∧ effect.turnId = effect'.turnId ∧
      (effect.turnId = request.turnId →
        movedStatus (updateMove E db request.turnId turn.state request.update) effectId effect.status = .started) ∧
      (effect.status = .started ∨ effect.turnId = request.turnId ∧ ∃ sourceKey digest checkpoint,
        request.update = .startEffect sourceKey effectId digest checkpoint) := by
  cases done.effect effectId with
  | prepared _ _ added key =>
      rw [found, Option.some.injEq] at added
      subst added
      have status : effect'.status = .prepared := congrArg (fun key => key.2.2) key
      rw [started] at status
      cases status
  | moved same =>
      rw [found, Option.map_some] at same
      obtain ⟨effect, before, key⟩ := Option.map_eq_some_iff.mp same.symm
      have status : (movedKey request.turnId (updateMove E db request.turnId turn.state request.update)
          effectId effect).2.2 = .started := (congrArg (fun key => key.2.2) key).trans started
      simp only [movedKey] at status
      refine ⟨effect, before, congrArg Prod.fst key, ?_, ?_⟩
      · intro mine
        rwa [if_pos mine] at status
      · by_cases was : effect.status = .started
        · exact .inl was
        · refine .inr ⟨?_, done.starts ?_ (effectStatus_eq_some.mpr ⟨effect', found, started⟩)⟩
          · by_contra other
            rw [if_neg other] at status
            exact was status
          · intro before'
            obtain ⟨same, held, status⟩ := effectStatus_eq_some.mp before'
            rw [before, Option.some.injEq] at held
            exact was (held ▸ status)

/-- A commit that accounts for the started effects of its turn abandons none. -/
theorem NoneAbandoned.committed (held : NoneAbandoned db) (graph : Graph db)
    (done : Committed E request lease now db db' session session' turn row draft mid states cards response)
    (accounts : accountsStarted E db request.turnId turn.state request.update = true) : NoneAbandoned db' := by
  intro effectId effect' link' found status linked
  have foundSession := done.admitted.foundSession
  have latest := graph.gate_latest foundSession done.admitted.gate
  obtain ⟨effect, before, owner, moved, source⟩ := done.started_source found status
  obtain ⟨link, old, inSession, _⟩ := done.links.get? linked
  rw [← owner] at old ⊢
  rw [← inSession, graph.committed_actives done]
  by_cases mine : effect.turnId = request.turnId
  · obtain ⟨own, ownLink, ownSession⟩ := (graph.session _ _ foundSession).latest _ latest
    rw [mine, ownLink, Option.some.injEq] at old
    subst old
    have open_ : draft.terminal = false := by
      rw [← Bool.not_eq_true]
      intro closed
      rcases source with was | ⟨_, _, _, _, starts⟩
      · refine applyUpdate_accounts done.applied closed accounts ?_ (was ▸ moved mine)
        exact mem_effectIds.mpr ⟨effect, before, mine, was⟩
      · have ends := applyUpdate_ends done.applied closed
        rw [starts] at ends
        cases ends
    have active : ∃ active, db.sessionActiveTurns.get? request.sessionId = some active := by
      rcases source with was | ⟨_, _, _, _, starts⟩
      · obtain ⟨active, present, _⟩ := held effectId effect own before was (mine ▸ ownLink)
        exact ⟨active, ownSession ▸ present⟩
      · have applied := done.applied
        rw [starts] at applied
        have running := (applyStartEffect_ok applied).1
        exact graph.active_of_alive foundSession latest done.admitted.foundTurn (by rw [running]; rfl)
    obtain ⟨active, present⟩ := active
    rw [if_pos ownSession, open_, if_neg Bool.false_ne_true, present, Option.map_some]
    exact ⟨_, rfl, (graph.own_active done active present).trans mine.symm⟩
  · rcases source with was | ⟨here, _⟩
    · obtain ⟨active, present, same⟩ := held effectId effect link before was old
      refine ⟨active, ?_, same⟩
      rw [if_neg]
      · exact present
      · intro here
        rw [here] at present
        exact mine (same.symm.trans (graph.own_active done active present))
    · exact absurd here mine

end Commits

/-! ## Runs that account for what they started -/

/-- A call that would end a turn accounts for the started effects of that turn. -/
def accountsStep (E : Environment) (db : E.Db) : Operation → Bool
  | .commit request lease now =>
      (db.sessionCommandDedup.get? request.commandId).isSome ||
        (db.sessionCommitSources.get? (request.sessionId, request.update.sourceKey)).isSome ||
        match checkFences db request lease now with
        | .ok (_, turn) => accountsStarted E db request.turnId turn.state request.update
        | .error _ => true
  | _ => true

theorem Housekeeping.path_noneAbandoned (path : ReflTransGen (Housekeeping E) db db') (reached : Reachable E db)
    (held : NoneAbandoned db) : NoneAbandoned db' := by
  induction path with
  | refl => exact held
  | tail path change ih => exact ih.other (reached.path path).effectTurns change.uncommitted

/-- One call that accounts for the started effects abandons none. -/
theorem NoneAbandoned.step (held : NoneAbandoned db) (reached : Reachable E db) (op : Operation)
    (accounts : accountsStep E db op = true) : NoneAbandoned (step E db op) := by
  rcases step_ok reached op with ⟨_, _, _, _, _, _, _, _, _, _, _, _, rfl, done⟩ | change | path
  · refine held.committed reached.graph done ?_
    simpa only [accountsStep, done.freshCommand, done.freshSource, done.fenced, Option.isSome_none,
      Bool.false_or] using accounts
  · exact held.other reached.effectTurns change
  · exact Housekeeping.path_noneAbandoned path reached held

/-- In a run whose calls account for the effects they end, no started effect is ever abandoned. -/
theorem run_none_abandoned (ops : List Operation)
    (accounts : ∀ k (_ : k < ops.length), accountsStep E (dbAt E ops k) ops[k] = true) (k : Nat)
    (bound : k ≤ ops.length) : NoneAbandoned (dbAt E ops k) := by
  have kept : ∀ db op, Reachable E db ∧ NoneAbandoned db → accountsStep E db op = true →
      Reachable E (step E db op) ∧ NoneAbandoned (step E db op) :=
    fun db op held good => ⟨held.1.step op, held.2.step held.1 op good⟩
  refine (invariant_of_steps ⟨.refl, ?_⟩ kept accounts k bound).2
  intro effectId row link impossible
  cases impossible

/-- A turn that ends after its effect was observed. -/
def accountedRun : List Operation := sampleRun [
  (1, 1, samplePrepare "e1" .allow),
  (2, 1, sampleStart "e1"),
  (3, 1, .observeEffect "observe" "e1" sampleDigest true "ok" none "null"),
  (4, 1, .complete "done" ⟨"done", [], []⟩)]

theorem run_none_abandoned_accounted : NoneAbandoned (runOf plain accountedRun) := by
  have accounts : ∀ k : Fin accountedRun.length,
      accountsStep plain (dbAt plain accountedRun k) accountedRun[k] = true := by decide +kernel
  have all := run_none_abandoned accountedRun (fun k bound => accounts ⟨k, bound⟩) accountedRun.length
    (Nat.le_refl _)
  rwa [dbAt, stateAt_length] at all

/-- A turn that completes while its effect is started. -/
def abandonedRun : List Operation := sampleRun [
  (1, 1, samplePrepare "e1" .allow),
  (2, 1, sampleStart "e1"),
  (3, 1, .complete "done" ⟨"done", [], []⟩)]

/-- The completed turn leaves its effect started, with no active turn in the session. -/
theorem completed_abandons : ¬ ∀ (E : Environment) (ops : List Operation), NoneAbandoned (runOf E ops) := by
  intro claim
  have effect : ((runOf plain abandonedRun).effects.get? "e1").map (fun row => (row.turnId, row.status)) =
      some (sampleTurn, .started) := by decide +kernel
  have link : ((runOf plain abandonedRun).sessionTurns.get? sampleTurn).map SessionTurnRow.sessionId =
      some sampleSession := by decide +kernel
  have idle : ((runOf plain abandonedRun).sessionActiveTurns.get? sampleSession).isNone = true := by decide +kernel
  obtain ⟨row, held, key⟩ := Option.map_eq_some_iff.mp effect
  obtain ⟨linked, heldLink, session⟩ := Option.map_eq_some_iff.mp link
  simp only [Prod.mk.injEq] at key
  obtain ⟨active, present, _⟩ := claim plain abandonedRun "e1" row linked held key.2 (key.1 ▸ heldLink)
  rw [session, Option.isNone_iff_eq_none.mp idle] at present
  cases present

end LatteCode.Storage
