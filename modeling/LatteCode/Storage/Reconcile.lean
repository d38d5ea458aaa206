import LatteCode.Storage.Abandoned
import LatteCode.Storage.Fencing
/- Unknown effects and the sessions that wait for their reconciliation. -/

namespace LatteCode.Storage
open Keyed Outcome Numbered Relation Runs

variable {E : Environment} {db middle db' : E.Db} {effectId : String}

/-- A session requires reconciliation exactly when its latest turn holds an unknown effect. -/
def ReconciliationGate (db : E.Db) : Prop :=
  ∀ sessionId session, db.sessions.get? sessionId = some session →
    (session.lifecycle = .reconciliationRequired ↔
      ∃ turnId, session.latestTurnId = some turnId ∧ effectIds db turnId .unknown ≠ [])

/-- The gate, and that an unknown effect of a linked turn is one of the latest turn of its session. -/
structure Reconcilable (db : E.Db) : Prop where
  unknown : ∀ effectId row link, db.effects.get? effectId = some row → row.status = .unknown →
    db.sessionTurns.get? row.turnId = some link → ∃ session, db.sessions.get? link.sessionId = some session ∧
      session.latestTurnId = some row.turnId ∧ session.lifecycle = .reconciliationRequired
  required : ∀ sessionId session, db.sessions.get? sessionId = some session →
    session.lifecycle = .reconciliationRequired → ∃ turnId effectId row, session.latestTurnId = some turnId ∧
      db.effects.get? effectId = some row ∧ row.turnId = turnId ∧ row.status = .unknown

theorem Reconcilable.gate (held : Reconcilable db) (graph : Graph db) : ReconciliationGate db := by
  intro sessionId session found
  constructor
  · intro requires
    obtain ⟨turnId, effectId, row, latest, present, mine, unknown⟩ := held.required _ _ found requires
    exact ⟨turnId, latest, List.ne_nil_of_mem (mem_effectIds.mpr ⟨row, present, mine, unknown⟩)⟩
  · rintro ⟨turnId, latest, some_⟩
    obtain ⟨effectId, member⟩ := List.exists_mem_of_ne_nil _ some_
    obtain ⟨row, present, mine, unknown⟩ := mem_effectIds.mp member
    obtain ⟨link, linked, own⟩ := (graph.session _ _ found).latest _ latest
    obtain ⟨session', found', _, requires⟩ := held.unknown effectId row link present unknown (mine ▸ linked)
    rw [own, found, Option.some.injEq] at found'
    rw [found']
    exact requires

/-- The part of a session row that the gate speaks of. -/
def gateKey (row : SessionRow) : SessionLifecycle × Option TurnId := (row.lifecycle, row.latestTurnId)

/-- A change that keeps the unknown effects, the links and the gated part of every session keeps the gate. -/
theorem Reconcilable.congr (held : Reconcilable db)
    (effects : ∀ effectId, (∀ row', db'.effects.get? effectId = some row' → row'.status = .unknown →
        (∃ link, db'.sessionTurns.get? row'.turnId = some link) →
          ∃ row, db.effects.get? effectId = some row ∧ row.turnId = row'.turnId ∧ row.status = .unknown) ∧
      ∀ row, db.effects.get? effectId = some row → row.status = .unknown →
        ∃ row', db'.effects.get? effectId = some row' ∧ row'.turnId = row.turnId ∧ row'.status = .unknown)
    (links : SameLinks db.sessionTurns db'.sessionTurns)
    (sessions : ∀ key, (db'.sessions.get? key).map gateKey = (db.sessions.get? key).map gateKey) :
    Reconcilable db' := by
  constructor
  · intro effectId row' link' found status linked
    obtain ⟨row, before, same, unknown⟩ := (effects effectId).1 row' found status ⟨link', linked⟩
    obtain ⟨link, old, session, _⟩ := links.get? linked
    obtain ⟨owner, present, latest, requires⟩ := held.unknown effectId row link before unknown (same ▸ old)
    obtain ⟨owner', present', key⟩ := map_eq_some_of (sessions link.sessionId) present
    simp only [gateKey, Prod.mk.injEq] at key
    rw [← session]
    exact ⟨owner', present', key.2.trans (same ▸ latest), key.1.trans requires⟩
  · intro sessionId session' found requires
    obtain ⟨session, before, key⟩ := map_eq_some_of (sessions sessionId).symm found
    simp only [gateKey, Prod.mk.injEq] at key
    obtain ⟨turnId, effectId, row, latest, present, mine, unknown⟩ :=
      held.required sessionId session before (key.1.trans requires)
    obtain ⟨row', present', same, unknown'⟩ := (effects effectId).2 row present unknown
    exact ⟨turnId, effectId, row', key.2 ▸ latest, present', same.trans mine, unknown'⟩

theorem activeLifecycle_requires {status : TurnStatus} :
    activeLifecycle status ≠ some .reconciliationRequired := by
  cases status <;> simp [activeLifecycle]

/-- An active turn has no unknown effect. -/
theorem Reconcilable.active_known (held : Reconcilable db) (graph : Graph db) {sessionId : SessionId}
    {active : ActiveTurnRow} (present : db.sessionActiveTurns.get? sessionId = some active) {row : EffectRow}
    (found : db.effects.get? effectId = some row) (mine : row.turnId = active.turnId) : row.status ≠ .unknown := by
  intro unknown
  obtain ⟨session, foundSession⟩ := Option.isSome_iff_exists.mp (graph.activeSession _ _ present)
  obtain ⟨latest, turn, _, live⟩ := (graph.session _ _ foundSession).active active present
  obtain ⟨link, linked, own⟩ := (graph.session _ _ foundSession).latest _ latest
  obtain ⟨owner, foundOwner, _, requires⟩ := held.unknown effectId row link found unknown (mine ▸ linked)
  rw [own, foundSession, Option.some.injEq] at foundOwner
  rw [foundOwner, requires] at live
  exact activeLifecycle_requires live

/-- A new child takes over no effect, and its session required no reconciliation. -/
theorem Reconcilable.child {sessionId : SessionId} {session' : SessionRow} {state : TurnState}
    {parent : Option TurnId} {ordinal now : Nat} {lease : Option Lease} (held : Reconcilable db)
    (owned : EffectTurns db) (child : ChildWritten db db' sessionId state parent ordinal lease now)
    (effects : db'.effects = db.effects)
    (sessions : ∀ key, db'.sessions.get? key = if key = sessionId then some session' else db.sessions.get? key)
    (was : ∀ session, db.sessions.get? sessionId = some session → session.lifecycle ≠ .reconciliationRequired)
    (becomes : session'.lifecycle ≠ .reconciliationRequired) : Reconcilable db' := by
  constructor
  · intro effectId row link found unknown linked
    rw [effects] at found
    have apart : row.turnId ≠ state.turnId := by
      intro same
      have present := owned effectId row found
      rw [same, child.freshTurn] at present
      cases present
    rw [child.links, if_neg apart] at linked
    obtain ⟨session, present, latest, requires⟩ := held.unknown effectId row link found unknown linked
    refine ⟨session, ?_, latest, requires⟩
    rw [sessions, if_neg]
    · exact present
    · intro here
      exact was session (here ▸ present) requires
  · intro key session found requires
    rw [sessions] at found
    split at found
    case isTrue =>
      cases found
      exact absurd requires becomes
    case isFalse =>
      rw [effects]
      exact held.required key session found requires

/-- Recovery turns the started effects of its turn unknown, and asks for reconciliation if there are any. -/
theorem Reconcilable.interrupted {sessionId : SessionId} {turnId : TurnId} {token now : Nat}
    {session session' : SessionRow} {turn row : TurnRow} {rows : List SessionEventRow}
    {cards : List TranscriptEntry} (held : Reconcilable db) (graph : Graph db)
    (done : Interrupted sessionId turnId token now db db' session session' turn row rows cards) :
    Reconcilable db' := by
  have latest := ((graph.session _ _ done.foundSession).active _ done.active).1
  have lifecycle : session'.lifecycle = recoveredLifecycle db turnId := by rw [done.moved]; rfl
  have newest : session'.latestTurnId = some turnId := by rw [done.moved]; rfl
  obtain ⟨own, ownLink, ownSession⟩ := (graph.session _ _ done.foundSession).latest _ latest
  constructor
  · intro effectId row' link' found status linked
    have same := done.effect effectId
    rw [found, Option.map_some] at same
    obtain ⟨before, present, key⟩ := Option.map_eq_some_iff.mp same.symm
    have owner : before.turnId = row'.turnId := congrArg Prod.fst key
    have settled : (settledKey turnId before).2.2 = .unknown := (congrArg (fun key => key.2.2) key).trans status
    obtain ⟨link, old, inSession, _⟩ := done.links.get? linked
    by_cases mine : before.turnId = turnId
    · have started : before.status = .started := by
        have known := held.active_known graph done.active present mine
        simp only [settledKey, if_pos mine] at settled
        cases was : before.status <;> simp_all [settledStatus]
      have nonempty := List.ne_nil_of_mem (mem_effectIds.mpr ⟨before, present, mine, started⟩)
      rw [← owner, mine, ownLink, Option.some.injEq] at old
      rw [← inSession, ← old, ownSession, ← owner, mine, done.sessions, if_pos rfl]
      refine ⟨session', rfl, newest, ?_⟩
      rw [lifecycle, recoveredLifecycle, if_neg]
      rwa [List.isEmpty_iff]
    · simp only [settledKey, if_neg mine] at settled
      obtain ⟨other, foundOther, named, requires⟩ :=
        held.unknown effectId before link present settled (owner ▸ old)
      refine ⟨other, ?_, owner ▸ named, requires⟩
      rw [← inSession, done.sessions, if_neg]
      · exact foundOther
      · intro here
        rw [here, done.foundSession, Option.some.injEq] at foundOther
        rw [← foundOther, latest, Option.some.injEq] at named
        exact mine named.symm
  · intro key other found requires
    rw [done.sessions] at found
    split at found
    case isTrue =>
      cases found
      rw [lifecycle, recoveredLifecycle] at requires
      split at requires
      case isTrue => cases requires
      case isFalse nonempty =>
        rw [List.isEmpty_iff] at nonempty
        obtain ⟨effectId, member⟩ := List.exists_mem_of_ne_nil _ nonempty
        obtain ⟨before, present, mine, started⟩ := mem_effectIds.mp member
        have same := done.effect effectId
        rw [present, Option.map_some] at same
        obtain ⟨after, present', key⟩ := Option.map_eq_some_iff.mp same
        simp only [effectKey, settledKey, if_pos mine, started, Prod.mk.injEq] at key
        exact ⟨turnId, effectId, after, newest, present', key.1.trans mine, key.2.2⟩
    case isFalse =>
      obtain ⟨other', effectId, before, named, present, mine, unknown⟩ := held.required key other found requires
      have same := done.effect effectId
      rw [present, Option.map_some] at same
      obtain ⟨after, present', key⟩ := Option.map_eq_some_iff.mp same
      simp only [effectKey, settledKey, unknown, settledStatus, ite_self, Prod.mk.injEq] at key
      exact ⟨other', effectId, after, named, present', key.1.trans mine, key.2.2⟩

/-- Beside commits, no operation breaks the gate. -/
theorem Reconcilable.other (held : Reconcilable db) (graph : Graph db) (owned : EffectTurns db)
    (change : Uncommitted E db db') : Reconcilable db' := by
  have same : db'.effects = db.effects → ∀ effectId, (∀ row', db'.effects.get? effectId = some row' →
        row'.status = .unknown → (∃ link, db'.sessionTurns.get? row'.turnId = some link) →
          ∃ row, db.effects.get? effectId = some row ∧ row.turnId = row'.turnId ∧ row.status = .unknown) ∧
      ∀ row, db.effects.get? effectId = some row → row.status = .unknown →
        ∃ row', db'.effects.get? effectId = some row' ∧ row'.turnId = row.turnId ∧ row'.status = .unknown := by
    intro effects effectId
    rw [effects]
    exact ⟨fun row found unknown _ => ⟨row, found, rfl, unknown⟩, fun row found unknown => ⟨row, found, rfl, unknown⟩⟩
  cases change with
  | created done =>
      refine held.child owned done.child (by rw [done.frame]) done.sessions ?_ ?_
      · intro session found
        rw [done.freshSession] at found
        cases found
      · exact SessionLifecycle.noConfusion
  | followedUp done =>
      refine held.child owned done.child (by rw [done.frame]) done.sessions ?_ ?_
      · intro session found
        rw [done.foundSession, Option.some.injEq] at found
        rw [← found, done.ready]
        exact SessionLifecycle.noConfusion
      · rw [done.moved]
        exact SessionLifecycle.noConfusion
  | interrupted done => exact held.interrupted graph done
  | retired done =>
      refine held.congr ?_ (by rw [done.result]; exact .refl) (by rw [done.result]; exact fun _ => rfl)
      intro effectId
      have moved := done.effect effectId
      constructor
      · intro row' found status ⟨link, linked⟩
        rw [found, Option.map_some] at moved
        obtain ⟨row, before, key⟩ := Option.map_eq_some_iff.mp moved.symm
        have owner : row.turnId = row'.turnId := congrArg Prod.fst key
        have after : (retiredKey _ row).2.2 = .unknown := (congrArg (fun key => key.2.2) key).trans status
        refine ⟨row, before, owner, ?_⟩
        simp only [retiredKey] at after
        split at after
        case isTrue mine =>
          rw [done.result, ← owner, mine.1] at linked
          rw [show db.sessionTurns.get? _ = none from done.unlinked] at linked
          cases linked
        case isFalse => exact after
      · intro row found unknown
        rw [found, Option.map_some] at moved
        obtain ⟨row', after, key⟩ := Option.map_eq_some_iff.mp moved
        simp only [effectKey, retiredKey, unknown, Prod.mk.injEq] at key
        exact ⟨row', after, key.1, by simpa using key.2.2⟩
  | switched done =>
      refine held.congr (same (by rw [done.frame])) (by rw [done.frame]; exact .refl) ?_
      intro key
      rw [done.sessions]
      split
      case isTrue here =>
        rw [here, done.foundSession]
        rfl
      case isFalse => rfl
  | @forked source fork _ _ _ _ done =>
      have effects : db'.effects = db.effects := by rw [done.frame]
      have links : db'.sessionTurns = db.sessionTurns := by rw [done.frame]
      constructor
      · intro effectId row link found unknown linked
        rw [effects] at found
        rw [links] at linked
        obtain ⟨session, present, facts⟩ := held.unknown effectId row link found unknown linked
        refine ⟨session, ?_, facts⟩
        rw [done.sessions, if_neg]
        · exact present
        · intro here
          rw [here, done.freshSession] at present
          cases present
      · intro key session found requires
        rw [done.sessions] at found
        split at found
        case isTrue =>
          cases found
          cases requires
        case isFalse =>
          rw [effects]
          exact held.required key session found requires
  | acquired done =>
      refine held.congr (same (by rw [done.frame])) ?_ ?_
      all_goals rw [done.frame]
      · exact .refl
      · exact fun _ => rfl
  | quiesced done =>
      refine held.congr (same (by rw [done.result])) ?_ ?_
      all_goals rw [done.result]
      · exact .refl
      · exact fun _ => rfl
  | renamed sessionId title done =>
      subst done
      refine held.congr (same rfl) .refl ?_
      intro key
      simp only [Table.get?_modify]
      split
      · rw [Option.map_map]
        rfl
      · rfl
  | renewed _ _ done | released _ done | acknowledged _ done | evidenced _ done
  | aliased _ _ _ _ _ _ done | runCreated _ _ _ _ _ done =>
      subst done
      exact held.congr (same rfl) .refl fun _ => rfl

/-! ## What an update does to the gate -/

/-- An update that holds an effect uncertain names a started one, and an acknowledgement leaves none unknown. -/
def accountsUnknown (E : Environment) (db : E.Db) (turnId : TurnId) (current : TurnState) :
    CommitSessionTurnUpdate → Bool
  | .interrupt _ (some named) =>
      decide (isWaiting current) || (effectIds db turnId .started).contains (E.redactSessionText named)
  | .reconcileUnknownEffect _ effectId _ =>
      !(effectIds db turnId .unknown).contains effectId || (effectIds db turnId .unknown).all (· = effectId)
  | _ => true

/-- A move from and to statuses other than unknown. -/
def Quiet (move : Option EffectMove) : Prop := ∀ m ∈ move, m.source ≠ .unknown ∧ m.target ≠ .unknown

theorem Quiet.unknown_iff {move : Option EffectMove} (quiet : Quiet move) (status : EffectStatus) :
    movedStatus move effectId status = .unknown ↔ status = .unknown := by
  cases move with
  | none => rfl
  | some m =>
      obtain ⟨source, target⟩ := quiet m rfl
      simp only [movedStatus, Option.elim_some, EffectMove.apply]
      split
      case isTrue applies =>
        rw [applies.2]
        exact iff_of_false target source
      case isFalse => rfl

/-- What an update does to the unknown effects of its turn, and to the lifecycle of the session with them. -/
inductive GateStep (db : E.Db) (turnId : TurnId) (current : TurnState) (lifecycle : SessionLifecycle)
    (draft : Draft) (move : Option EffectMove) : Prop
  | kept (same : draft.nextLifecycle = lifecycle) (quiet : Quiet move)
  | left (alive : current.status.terminal = false) (next : draft.nextLifecycle ≠ .reconciliationRequired)
      (quiet : Quiet move)
  | entered (alive : current.status.terminal = false) (next : draft.nextLifecycle = .reconciliationRequired)
      {effectId : String} (moves : move = some ⟨effectId, .started, .unknown⟩)
      (started : effectId ∈ effectIds db turnId .started)
  | cleared (next : draft.nextLifecycle ≠ .reconciliationRequired) {effectId : String}
      (moves : move = some ⟨effectId, .unknown, .observedFailed⟩)
      (only : ∀ other ∈ effectIds db turnId .unknown, other = effectId)

section Updates

variable {mid : E.Db} {turnId : TurnId} {lease : Lease} {now : Nat} {current : TurnState}
  {lifecycle : SessionLifecycle} {recovered : Bool} {draft : Draft}

theorem Quiet.none : Quiet Option.none := by
  intro m impossible
  cases impossible

theorem Quiet.some {move : EffectMove} (source : move.source ≠ .unknown) (target : move.target ≠ .unknown) :
    Quiet (Option.some move) := by
  intro m same
  cases same
  exact ⟨source, target⟩

theorem isWaiting_alive (waiting : isWaiting current) : current.status.terminal = false := by
  rcases waiting with status | status <;> simp only [status, TurnStatus.terminal]

theorem applyInterruptRunning_gate {sourceKey : String} {named : Option String}
    (active : ¬ isWaiting current)
    (applied : applyInterruptRunning E db turnId now current lifecycle sourceKey named = .ok (draft, mid))
    (accounts : accountsUnknown E db turnId current (.interrupt sourceKey named) = true) :
    GateStep db turnId current lifecycle draft (updateMove E db turnId current (.interrupt sourceKey named)) := by
  obtain ⟨done, _, _, next, _⟩ := applyInterruptRunning_ok applied
  have alive := (cancelled_shape done).1
  simp only [updateMove, if_neg active]
  cases uncertain : interruptedEffect E db turnId named with
  | none =>
      rw [uncertain] at next
      refine .left alive ?_ Quiet.none
      rw [next]
      exact SessionLifecycle.noConfusion
  | some effectId =>
      rw [uncertain] at next
      refine .entered alive next rfl ?_
      cases named with
      | none => exact List.mem_of_getLast? uncertain
      | some named =>
          simp only [accountsUnknown, active, decide_false, Bool.false_or, List.contains_iff_mem] at accounts
          rwa [← Option.some.inj uncertain]

theorem applyUpdate_gate {update : CommitSessionTurnUpdate}
    (applied : applyUpdate E db turnId lease now current lifecycle recovered update = .ok (draft, mid))
    (accounts : accountsUnknown E db turnId current update = true) :
    GateStep db turnId current lifecycle draft (updateMove E db turnId current update) := by
  have goes_on : endsTurn update = false → Quiet (updateMove E db turnId current update) →
      GateStep db turnId current lifecycle draft (updateMove E db turnId current update) := by
    intro goes quiet
    cases (applyUpdate_shaped applied).shape with
    | stay _ _ same _ => exact .kept same quiet
    | move _ _ alive _ live =>
        refine .left alive ?_ quiet
        intro requires
        rw [requires] at live
        exact activeLifecycle_requires live
    | finish _ closed =>
        rw [applyUpdate_ends applied closed] at goes
        cases goes
  cases update with
  | unknownEffect =>
      obtain ⟨done, _, next, _, started, _⟩ := applyUnknownEffect_ok applied
      obtain ⟨row, found, mine, status, _⟩ := effectMatches_iff.mp started
      exact .entered (cancelled_shape done).1 next rfl (mem_effectIds.mpr ⟨row, found, mine, status⟩)
  | reconcileUnknownEffect _ id =>
      obtain ⟨_, _, next, _, unknown, _⟩ := applyReconcileUnknownEffect_ok applied
      obtain ⟨row, found, mine, status⟩ := effectIn_iff.mp unknown
      have present := mem_effectIds.mpr ⟨row, found, mine, status⟩
      simp only [accountsUnknown, List.contains_iff_mem.mpr present, Bool.not_true, Bool.false_or,
        List.all_eq_true, decide_eq_true_eq] at accounts
      refine .cleared ?_ rfl accounts
      rw [next]
      exact SessionLifecycle.noConfusion
  | interrupt =>
      rcases applyInterrupt_ok applied with ⟨waiting, applied⟩ | ⟨active, applied⟩
      · obtain ⟨_, _, next, _⟩ := applyInterruptWaiting_ok applied
        refine .left (isWaiting_alive waiting) ?_ ?_
        · rw [next]
          exact SessionLifecycle.noConfusion
        · simp only [updateMove, if_pos (show isWaiting current from waiting)]
          intro move named
          obtain ⟨_, _, rfl⟩ := Option.map_eq_some_iff.mp named
          exact ⟨EffectStatus.noConfusion, EffectStatus.noConfusion⟩
      · exact applyInterruptRunning_gate active applied accounts
  | complete =>
      simp only [applyUpdate, applyComplete, bind_ok, transitionOr_ok, Except.ok.injEq, Prod.mk.injEq] at applied
      obtain ⟨_, step, rfl, _⟩ := applied
      have running := (TurnState.transition_complete rfl step).1
      exact .left (by rw [running]; rfl) SessionLifecycle.noConfusion Quiet.none
  | completeVerified =>
      simp only [applyUpdate, applyCompleteVerified, bind_ok, transitionOr_ok, Except.ok.injEq,
        Prod.mk.injEq] at applied
      obtain ⟨_, _, _, step, rfl, _⟩ := applied
      have running := (TurnState.transition_complete rfl step).1
      exact .left (by rw [running]; rfl) SessionLifecycle.noConfusion Quiet.none
  | fail _ failure =>
      simp only [applyUpdate, applyFail, bind_ok, transitionOr_ok, Except.ok.injEq, Prod.mk.injEq] at applied
      obtain ⟨_, step, rfl, _⟩ := applied
      refine .left (TurnState.transition_fail step).1 ?_ Quiet.none
      by_cases retry : failure.retryability = .retryable <;> simp [retry]
  | resolvePermission _ _ allow =>
      cases allow with
      | true => exact goes_on rfl Quiet.none
      | false =>
          obtain ⟨step, _, ⟨impossible, _⟩ | ⟨_, _, next, _⟩⟩ := applyResolvePermission_ok applied
          · cases impossible
          · have waiting := (TurnState.transition_resolvePermission step).1
            refine .left (isWaiting_alive (.inl waiting)) ?_ (Quiet.some EffectStatus.noConfusion
              EffectStatus.noConfusion)
            rw [next]
            exact SessionLifecycle.noConfusion
  | startEffect => exact goes_on rfl (Quiet.some EffectStatus.noConfusion EffectStatus.noConfusion)
  | observeEffect _ _ _ success =>
      refine goes_on rfl (Quiet.some EffectStatus.noConfusion ?_)
      cases success <;> exact EffectStatus.noConfusion
  | start | appendTranscript | prepareEffect | requestPermission | requestInput | provideInput =>
      exact goes_on rfl Quiet.none

end Updates

section Commits

variable {request : SessionCommitRequest} {lease : Lease} {now : Nat} {session session' : SessionRow}
  {turn row : TurnRow} {draft : Draft} {mid : E.Db} {states : List TurnState} {cards : List TranscriptEntry}
  {response : SessionCommitResponse}

/-- The status that a commit leaves an effect in. -/
def committedStatus (E : Environment) (db : E.Db) (request : SessionCommitRequest) (turn : TurnRow)
    (effectId : String) (effect : EffectRow) : EffectStatus :=
  if effect.turnId = request.turnId then
    movedStatus (updateMove E db request.turnId turn.state request.update) effectId effect.status
  else effect.status

theorem Committed.effect_after {effect : EffectRow}
    (done : Committed E request lease now db db' session session' turn row draft mid states cards response)
    (found : db.effects.get? effectId = some effect) :
    ∃ effect', db'.effects.get? effectId = some effect' ∧ effect'.turnId = effect.turnId ∧
      effect'.status = committedStatus E db request turn effectId effect := by
  cases done.effect effectId with
  | prepared _ fresh _ _ =>
      rw [found] at fresh
      cases fresh
  | moved same =>
      rw [found, Option.map_some] at same
      obtain ⟨effect', after, key⟩ := Option.map_eq_some_iff.mp same
      exact ⟨effect', after, congrArg Prod.fst key, congrArg (fun key => key.2.2) key⟩

theorem Committed.effect_before {effect' : EffectRow}
    (done : Committed E request lease now db db' session session' turn row draft mid states cards response)
    (found : db'.effects.get? effectId = some effect') (held : effect'.status ≠ .prepared) :
    ∃ effect, db.effects.get? effectId = some effect ∧ effect.turnId = effect'.turnId ∧
      effect'.status = committedStatus E db request turn effectId effect := by
  cases done.effect effectId with
  | prepared _ _ added key =>
      rw [found, Option.some.injEq] at added
      subst added
      exact absurd (congrArg (fun key => key.2.2) key) held
  | moved same =>
      rw [found, Option.map_some] at same
      obtain ⟨effect, before, key⟩ := Option.map_eq_some_iff.mp same.symm
      exact ⟨effect, before, congrArg Prod.fst key, (congrArg (fun key => key.2.2) key).symm⟩

/-- A commit that names what it holds uncertain, and acknowledges all there is, keeps the gate. -/
theorem Reconcilable.committed (held : Reconcilable db) (graph : Graph db)
    (done : Committed E request lease now db db' session session' turn row draft mid states cards response)
    (accounts : accountsUnknown E db request.turnId turn.state request.update = true) : Reconcilable db' := by
  have foundSession := done.admitted.foundSession
  have latest := graph.gate_latest foundSession done.admitted.gate
  obtain ⟨own, ownLink, ownSession⟩ := (graph.session _ _ foundSession).latest _ latest
  have lifecycle : session'.lifecycle = draft.nextLifecycle := by rw [done.moved]; rfl
  have newest : session'.latestTurnId = some request.turnId := by rw [done.moved]; rfl
  have gate := applyUpdate_gate done.applied accounts
  -- an unknown effect of the turn of the commit means that the turn is over
  have over_ : ∀ effectId effect, db.effects.get? effectId = some effect → effect.turnId = request.turnId →
      effect.status = .unknown →
        session.lifecycle = .reconciliationRequired ∧ turn.state.status.terminal = true := by
    intro effectId effect found mine unknown
    obtain ⟨owner, foundOwner, _, requires⟩ := held.unknown effectId effect own found unknown (mine ▸ ownLink)
    rw [ownSession, foundSession, Option.some.injEq] at foundOwner
    refine ⟨foundOwner ▸ requires, ?_⟩
    rw [← Bool.not_eq_false]
    intro alive
    obtain ⟨active, present⟩ := graph.active_of_alive foundSession latest done.admitted.foundTurn alive
    exact held.active_known graph present found (mine.trans (graph.own_active done active present).symm) unknown
  constructor
  · intro effectId effect' link' found unknown linked
    obtain ⟨effect, before, owner, status⟩ := done.effect_before found (by rw [unknown]; exact EffectStatus.noConfusion)
    rw [unknown] at status
    obtain ⟨link, old, inSession, _⟩ := done.links.get? linked
    rw [← inSession, ← owner]
    rw [← owner] at old
    by_cases mine : effect.turnId = request.turnId
    · rw [mine, ownLink, Option.some.injEq] at old
      rw [← old, ownSession, mine, done.sessions, if_pos rfl]
      refine ⟨session', rfl, newest, ?_⟩
      rw [lifecycle]
      rw [committedStatus, if_pos mine] at status
      cases gate with
      | kept same quiet =>
          rw [same]
          exact (over_ effectId effect before mine ((quiet.unknown_iff _).mp status.symm)).1
      | left alive _ quiet =>
          have ended := (over_ effectId effect before mine ((quiet.unknown_iff _).mp status.symm)).2
          rw [alive] at ended
          cases ended
      | entered _ next => exact next
      | cleared _ moves only =>
          simp only [moves, movedStatus, Option.elim_some, EffectMove.apply] at status
          split at status
          case isTrue => cases status
          case isFalse apart =>
            have member := mem_effectIds.mpr ⟨effect, before, mine, status.symm⟩
            exact absurd ⟨only effectId member, status.symm⟩ apart
    · rw [committedStatus, if_neg mine] at status
      obtain ⟨other, foundOther, named, requires⟩ := held.unknown effectId effect link before status.symm old
      refine ⟨other, ?_, named, requires⟩
      rw [done.sessions, if_neg]
      · exact foundOther
      · intro here
        rw [here, foundSession, Option.some.injEq] at foundOther
        rw [← foundOther, latest, Option.some.injEq] at named
        exact mine named.symm
  · intro key other found requires
    rw [done.sessions] at found
    split at found
    case isTrue =>
      cases found
      rw [lifecycle] at requires
      cases gate with
      | kept same quiet =>
          obtain ⟨turnId, effectId, effect, named, before, mine, unknown⟩ :=
            held.required _ _ foundSession (same.symm.trans requires)
          rw [latest, Option.some.injEq] at named
          obtain ⟨effect', after, owner, status⟩ := done.effect_after before
          refine ⟨request.turnId, effectId, effect', newest, after, owner.trans (mine.trans named.symm), ?_⟩
          rw [status, committedStatus, if_pos (mine.trans named.symm), quiet.unknown_iff]
          exact unknown
      | left _ next => exact absurd requires next
      | entered _ _ moves started =>
          obtain ⟨effect, before, mine, was⟩ := mem_effectIds.mp started
          obtain ⟨effect', after, owner, status⟩ := done.effect_after before
          refine ⟨request.turnId, _, effect', newest, after, owner.trans mine, ?_⟩
          rw [status, committedStatus, if_pos mine, moves]
          simp [movedStatus, EffectMove.apply, was]
      | cleared next => exact absurd requires next
    case isFalse away =>
      obtain ⟨turnId, effectId, effect, named, before, mine, unknown⟩ := held.required key other found requires
      obtain ⟨effect', after, owner, status⟩ := done.effect_after before
      refine ⟨turnId, effectId, effect', named, after, owner.trans mine, ?_⟩
      rw [status, committedStatus, if_neg]
      · exact unknown
      · intro here
        obtain ⟨link, linked, inSession⟩ := (graph.session _ _ found).latest _ named
        rw [← mine, here, ownLink, Option.some.injEq] at linked
        exact away (inSession.symm.trans (linked ▸ ownSession))

end Commits

/-! ## Runs -/

/-- A call that would hold an effect uncertain, or acknowledge one, accounts for the unknown effects. -/
def reconcilesStep (E : Environment) (db : E.Db) : Operation → Bool
  | .commit request lease now =>
      (db.sessionCommandDedup.get? request.commandId).isSome ||
        (db.sessionCommitSources.get? (request.sessionId, request.update.sourceKey)).isSome ||
        match checkFences db request lease now with
        | .ok (_, turn) => accountsUnknown E db request.turnId turn.state request.update
        | .error _ => true
  | _ => true

theorem Housekeeping.path_reconcilable (path : ReflTransGen (Housekeeping E) db db') (reached : Reachable E db)
    (held : Reconcilable db) : Reconcilable db' := by
  induction path with
  | refl => exact held
  | tail path change ih =>
      have here := reached.path path
      exact ih.other here.graph here.effectTurns change.uncommitted

/-- One call that accounts for the unknown effects keeps the gate. -/
theorem Reconcilable.step (held : Reconcilable db) (reached : Reachable E db) (op : Operation)
    (accounts : reconcilesStep E db op = true) : Reconcilable (step E db op) := by
  rcases step_ok reached op with ⟨_, _, _, _, _, _, _, _, _, _, _, _, rfl, done⟩ | change | path
  · refine held.committed reached.graph done ?_
    simpa only [reconcilesStep, done.freshCommand, done.freshSource, done.fenced, Option.isSome_none,
      Bool.false_or] using accounts
  · exact held.other reached.graph reached.effectTurns change
  · exact Housekeeping.path_reconcilable path reached held

end LatteCode.Storage
