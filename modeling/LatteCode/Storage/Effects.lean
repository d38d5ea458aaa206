import LatteCode.Storage.TurnLog
/- The effect ledger: what an update may do to the status of an effect. -/

namespace LatteCode.Storage
open Keyed Outcome Numbered Relation Runs

variable {E : Environment} {db middle db' : E.Db} {effectId : String}

/-- The status changes that an effect may see. -/
def effectChanges : List (EffectStatus × EffectStatus) := [
  (.prepared, .started),
  (.prepared, .observedFailed),
  (.started, .observedSuccess),
  (.started, .observedFailed),
  (.started, .unknown),
  (.unknown, .observedFailed)]

/-- A targeted `UPDATE effects`: the effect it names, the status it requires, the status it writes. -/
structure EffectMove where
  effectId : String
  source : EffectStatus
  target : EffectStatus
deriving DecidableEq

def EffectMove.apply (move : EffectMove) (effectId : String) (status : EffectStatus) : EffectStatus :=
  if effectId = move.effectId ∧ status = move.source then move.target else status

/-- A turn that waits for an answer. -/
def isWaiting (state : TurnState) : Prop :=
  state.status = .waitingPermission ∨ state.status = .waitingInput

instance (state : TurnState) : Decidable (isWaiting state) := inferInstanceAs (Decidable (_ ∨ _))

/-- The one effect that an update may move. -/
def updateMove (E : Environment) (db : E.Db) (turnId : TurnId) (current : TurnState) :
    CommitSessionTurnUpdate → Option EffectMove
  | .startEffect _ effectId .. => some ⟨effectId, .prepared, .started⟩
  | .observeEffect _ effectId _ success .. =>
      some ⟨effectId, .started, if success then .observedSuccess else .observedFailed⟩
  | .unknownEffect _ effectId .. => some ⟨effectId, .started, .unknown⟩
  | .reconcileUnknownEffect _ effectId _ => some ⟨effectId, .unknown, .observedFailed⟩
  | .resolvePermission _ requestId false _ => some ⟨requestId, .prepared, .observedFailed⟩
  | .interrupt _ effectId =>
      if isWaiting current then
        current.pendingPermission.map fun permission => ⟨permission.requestId, .prepared, .observedFailed⟩
      else (interruptedEffect E db turnId effectId).map fun effectId => ⟨effectId, .started, .unknown⟩
  | _ => none

/-- The status of an effect after an optional move. -/
def movedStatus (move : Option EffectMove) (effectId : String) (status : EffectStatus) : EffectStatus :=
  move.elim status fun move => move.apply effectId status

@[simp] theorem movedStatus_none (status : EffectStatus) : movedStatus none effectId status = status := rfl

/-- Every move of an update is one of the six changes. -/
theorem updateMove_allowed {turnId : TurnId} {current : TurnState} {update : CommitSessionTurnUpdate}
    {move : EffectMove} (moves : updateMove E db turnId current update = some move) :
    (move.source, move.target) ∈ effectChanges := by
  cases update with
  | startEffect | unknownEffect | reconcileUnknownEffect =>
      cases moves
      simp [effectChanges]
  | observeEffect _ _ _ success =>
      cases moves
      cases success <;> simp [effectChanges]
  | resolvePermission _ _ allow =>
      cases allow with
      | true => cases moves
      | false =>
          cases moves
          simp [effectChanges]
  | interrupt =>
      simp only [updateMove] at moves
      split at moves
      · obtain ⟨_, _, rfl⟩ := Option.map_eq_some_iff.mp moves
        simp [effectChanges]
      · obtain ⟨_, _, rfl⟩ := Option.map_eq_some_iff.mp moves
        simp [effectChanges]
  | _ => cases moves

/-- What the ledger tells of an effect, apart from its evidence. -/
def effectKey (row : EffectRow) : TurnId × String × EffectStatus :=
  (row.turnId, row.preEvidenceJson, row.status)

/-- The effects of one turn move along `move`, and the others stay. -/
def movedKey (turnId : TurnId) (move : Option EffectMove) (effectId : String) (row : EffectRow) :
    TurnId × String × EffectStatus :=
  (row.turnId, row.preEvidenceJson,
    if row.turnId = turnId then movedStatus move effectId row.status else row.status)

@[simp] theorem movedKey_none (turnId : TurnId) : movedKey turnId none effectId = effectKey := by
  funext row
  simp [movedKey, effectKey]

theorem moveEffect_key {D : Type} {ledger : Database D} {turnId : TurnId} (move : EffectMove) {evidence : Json}
    {now : Nat} :
    ((moveEffect ledger move.effectId turnId move.source move.target evidence now).effects.get? effectId).map
        effectKey = (ledger.effects.get? effectId).map (movedKey turnId (some move) effectId) := by
  simp only [moveEffect, Table.get?_modify]
  split
  case isTrue here =>
    rw [Option.map_map]
    congr 1
    funext row
    by_cases mine : row.turnId = turnId <;> by_cases source : row.status = move.source <;>
      simp [movedKey, movedStatus, EffectMove.apply, effectKey, here, mine, source]
  case isFalse away =>
    congr 1
    funext row
    simp [movedKey, movedStatus, EffectMove.apply, effectKey, away]

/-- What one update does to one effect: a move, or its preparation. -/
inductive EffectStep (turnId : TurnId) (update : CommitSessionTurnUpdate) (move : Option EffectMove)
    (effectId : String) (before after : Option EffectRow) : Prop
  | moved (same : after.map effectKey = before.map (movedKey turnId move effectId))
  | prepared {sourceKey digest descriptor canonical description checkpoint : String}
      {policy : SessionEffectPolicy} {row : EffectRow}
      (prepares : update = .prepareEffect sourceKey effectId digest descriptor canonical policy description
        checkpoint)
      (fresh : before = none) (added : after = some row)
      (key : effectKey row = (turnId, policyMarker policy, .prepared))

section Updates

variable {mid : E.Db} {turnId : TurnId} {lease : Lease} {now : Nat} {current : TurnState}
  {lifecycle : SessionLifecycle} {recovered : Bool} {draft : Draft}

theorem applyPrepareEffect_effect
    {sourceKey id digest descriptor canonical description checkpoint : String} {policy : SessionEffectPolicy}
    (applied : applyPrepareEffect E db turnId lease now current lifecycle sourceKey id digest descriptor
      canonical policy description checkpoint = .ok (draft, mid)) (effectId : String) :
    EffectStep turnId (.prepareEffect sourceKey id digest descriptor canonical policy description checkpoint) none
      effectId (db.effects.get? effectId) (mid.effects.get? effectId) := by
  obtain ⟨_, _, prepared, inserted, chosen⟩ := applyPrepareEffect_ok applied
  obtain ⟨fresh, rfl⟩ := insertPrepared_ok inserted
  have effects : mid.effects = db.effects.add id
      ⟨turnId, .prepared, now, descriptor, digest, policyMarker policy, none, now, none⟩ := by
    rcases chosen with ⟨_, rfl, _⟩ | ⟨_, permitted, _⟩
    · rfl
    · obtain ⟨_, rfl⟩ := insertPermission_ok permitted
      rfl
  rw [effects, Table.get?_add_fresh _ _ fresh]
  by_cases here : effectId = id
  · subst here
    exact .prepared rfl fresh (if_pos rfl) rfl
  · rw [if_neg here]
    refine .moved ?_
    rw [movedKey_none]

/-- A start takes a prepared effect of the turn, so it is the move that it looks like. -/
theorem applyStartEffect_effect {sourceKey id digest checkpoint : String}
    (applied : applyStartEffect E db turnId lease now current lifecycle sourceKey id digest checkpoint =
      .ok (draft, mid)) (effectId : String) :
    (mid.effects.get? effectId).map effectKey =
      (db.effects.get? effectId).map (movedKey turnId (some ⟨id, .prepared, .started⟩) effectId) := by
  obtain ⟨_, _, _, _, _, _, effect, authorized, found, mine, prepared, _, allowed, rfl⟩ :=
    applyStartEffect_ok applied
  have effects : authorized.effects = db.effects := by
    rcases authorizeStart_ok allowed with ⟨_, _, _, _, _, _, _, rfl⟩ | ⟨_, rfl, _⟩ <;> rfl
  simp only [effects, Table.get?_modify]
  by_cases here : effectId = id
  · subst here
    rw [if_pos rfl, found]
    simp [movedKey, movedStatus, EffectMove.apply, effectKey, mine, prepared]
  · rw [if_neg here]
    congr 1
    funext row
    simp [movedKey, movedStatus, EffectMove.apply, effectKey, here]

/-- A resolution moves the digest of the effect, or fails the effect that was denied. -/
theorem applyResolvePermission_effect {sourceKey requestId : String} {allow : Bool} {rebound : Option String}
    (applied : applyResolvePermission E db turnId lease now current lifecycle sourceKey requestId allow
      rebound = .ok (draft, mid)) (effectId : String) :
    (mid.effects.get? effectId).map effectKey = (db.effects.get? effectId).map (movedKey turnId
      (updateMove E db turnId current (.resolvePermission sourceKey requestId allow rebound)) effectId) := by
  obtain ⟨_, _, ⟨rfl, _, _, resolved⟩ | ⟨rfl, _, _, rfl⟩⟩ := applyResolvePermission_ok applied
  · have kept : (mid.effects.get? effectId).map effectKey = (db.effects.get? effectId).map effectKey := by
      rcases resolveAllowed_ok resolved with ⟨_, _, _, rebinds⟩ | ⟨_, _, rfl⟩
      · obtain ⟨_, _, ⟨_, _, _, rfl⟩ | ⟨_, _, rfl⟩⟩ := rebindPermission_ok rebinds
        · rfl
        · simp only [Table.get?_modify]
          split
          · rw [Option.map_map]
            rfl
          · rfl
      · rfl
    have still : updateMove E db turnId current (.resolvePermission sourceKey requestId true rebound) = none := rfl
    rw [kept, still, movedKey_none]
  · exact moveEffect_key ⟨requestId, .prepared, .observedFailed⟩

theorem applyInterrupt_effect {sourceKey : String} {named : Option String}
    (applied : applyInterrupt E db turnId now current lifecycle sourceKey named = .ok (draft, mid))
    (effectId : String) :
    (mid.effects.get? effectId).map effectKey = (db.effects.get? effectId).map (movedKey turnId
      (updateMove E db turnId current (.interrupt sourceKey named)) effectId) := by
  rcases applyInterrupt_ok applied with ⟨waiting, applied⟩ | ⟨started, applied⟩
  · obtain ⟨_, _, _, _, rfl⟩ := applyInterruptWaiting_ok applied
    rw [updateMove, if_pos (show isWaiting current from waiting), interruptWaitingLedger]
    split
    case h_1 none => rw [none, Option.map_none, movedKey_none]
    case h_2 permission found =>
      rw [found, Option.map_some]
      exact moveEffect_key ⟨permission.requestId, .prepared, .observedFailed⟩
  · obtain ⟨_, _, _, _, rfl⟩ := applyInterruptRunning_ok applied
    rw [updateMove, if_neg (show ¬ isWaiting current from started)]
    unfold interruptRunningLedger
    split
    case h_1 none => rw [none, Option.map_none, movedKey_none]
    case h_2 uncertain found =>
      rw [found, Option.map_some]
      exact moveEffect_key ⟨uncertain, .started, .unknown⟩

/-- The updates that write the effect ledger. -/
def writesLedger : CommitSessionTurnUpdate → Bool
  | .prepareEffect .. | .startEffect .. | .observeEffect .. | .unknownEffect .. | .reconcileUnknownEffect ..
  | .resolvePermission .. | .interrupt .. => true
  | _ => false

theorem updateMove_none {update : CommitSessionTurnUpdate} (quiet : writesLedger update = false) :
    updateMove E db turnId current update = none := by
  cases update <;> first | rfl | cases quiet

theorem applyUpdate_untouched {update : CommitSessionTurnUpdate}
    (applied : applyUpdate E db turnId lease now current lifecycle recovered update = .ok (draft, mid))
    (quiet : writesLedger update = false) : mid = db := by
  have first : mid = db ∧ Shaped db mid turnId lease now current lifecycle recovered draft → mid = db := And.left
  cases update with
  | start =>
      simp only [applyUpdate, applyStart, bind_ok, Except.ok.injEq, Prod.mk.injEq] at applied
      obtain ⟨_, _, _, rfl⟩ := applied
      rfl
  | appendTranscript =>
      cases applied
      rfl
  | requestPermission => exact (applyRequestPermission_ok applied).1
  | requestInput => exact first (applyRequestInput_shaped applied)
  | provideInput => exact first (applyProvideInput_shaped applied)
  | complete => exact first (applyComplete_shaped applied)
  | completeVerified => exact first (applyCompleteVerified_shaped applied)
  | fail => exact first (applyFail_shaped applied)
  | _ => cases quiet

/-- Every update moves the one effect that it names, or prepares it, and no other. -/
theorem applyUpdate_effect {update : CommitSessionTurnUpdate}
    (applied : applyUpdate E db turnId lease now current lifecycle recovered update = .ok (draft, mid))
    (effectId : String) :
    EffectStep turnId update (updateMove E db turnId current update) effectId (db.effects.get? effectId)
      (mid.effects.get? effectId) := by
  cases update with
  | prepareEffect => exact applyPrepareEffect_effect applied effectId
  | startEffect => exact .moved (applyStartEffect_effect applied effectId)
  | observeEffect =>
      obtain ⟨_, _, _, _, _, _, _, rfl⟩ := applyObserveEffect_ok applied
      exact .moved (moveEffect_key ⟨_, _, _⟩)
  | unknownEffect =>
      obtain ⟨_, _, _, _, _, _, rfl⟩ := applyUnknownEffect_ok applied
      exact .moved (moveEffect_key ⟨_, _, _⟩)
  | reconcileUnknownEffect =>
      obtain ⟨_, _, _, _, _, _, rfl⟩ := applyReconcileUnknownEffect_ok applied
      exact .moved (moveEffect_key ⟨_, _, _⟩)
  | resolvePermission => exact .moved (applyResolvePermission_effect applied effectId)
  | interrupt => exact .moved (applyInterrupt_effect applied effectId)
  | _ =>
      have same := applyUpdate_untouched applied rfl
      subst same
      refine .moved ?_
      rw [updateMove_none rfl, movedKey_none]

/-- What binds a permission: its turn and the revision it answers. -/
def permissionKey (row : PermissionRow) : TurnId × Nat := (row.turnId, row.turnRevision)

theorem consumePermission_key (row : PermissionRow) : permissionKey (consumePermission row now) = permissionKey row := by
  unfold consumePermission
  split <;> rfl

/-- No update releases or rebinds a permission to another turn or revision. -/
theorem applyUpdate_permission {update : CommitSessionTurnUpdate} {permission : PermissionRow}
    (applied : applyUpdate E db turnId lease now current lifecycle recovered update = .ok (draft, mid))
    (found : db.pendingPermissions.get? effectId = some permission) :
    (mid.pendingPermissions.get? effectId).map permissionKey = some (permissionKey permission) := by
  have same : ∀ {ledger : E.Db}, ledger.pendingPermissions = db.pendingPermissions →
      (ledger.pendingPermissions.get? effectId).map permissionKey = some (permissionKey permission) := by
    intro ledger kept
    rw [kept, found, Option.map_some]
  have consumed : ∀ {ledger : E.Db} {id : String},
      ledger.pendingPermissions = (consumePermissionOf db id turnId now).pendingPermissions →
      (ledger.pendingPermissions.get? effectId).map permissionKey = some (permissionKey permission) := by
    intro ledger id kept
    rw [kept]
    simp only [consumePermissionOf, Table.get?_modify]
    split
    · rw [found, Option.map_some, Option.map_some]
      split
      · rw [consumePermission_key]
      · rfl
    · rw [found, Option.map_some]
  cases update with
  | prepareEffect =>
      obtain ⟨_, _, prepared, inserted, chosen⟩ := applyPrepareEffect_ok applied
      obtain ⟨_, rfl⟩ := insertPrepared_ok inserted
      rcases chosen with ⟨_, rfl, _⟩ | ⟨_, permitted, _⟩
      · exact same rfl
      · obtain ⟨fresh, rfl⟩ := insertPermission_ok permitted
        simp only at fresh
        simp only [Table.get?_add_fresh _ _ fresh]
        rw [if_neg]
        · exact same rfl
        · rintro rfl
          rw [found] at fresh
          cases fresh
  | startEffect =>
      obtain ⟨_, _, _, _, _, _, _, _, _, _, _, _, allowed, rfl⟩ := applyStartEffect_ok applied
      rcases authorizeStart_ok allowed with ⟨_, _, _, _, _, _, _, rfl⟩ | ⟨_, rfl, _⟩
      · exact consumed rfl
      · exact same rfl
  | observeEffect =>
      obtain ⟨_, _, _, _, _, _, _, rfl⟩ := applyObserveEffect_ok applied
      exact same rfl
  | unknownEffect =>
      obtain ⟨_, _, _, _, _, _, rfl⟩ := applyUnknownEffect_ok applied
      exact same rfl
  | reconcileUnknownEffect =>
      obtain ⟨_, _, _, _, _, _, rfl⟩ := applyReconcileUnknownEffect_ok applied
      exact same rfl
  | resolvePermission =>
      obtain ⟨_, _, ⟨_, _, _, resolved⟩ | ⟨_, _, _, rfl⟩⟩ := applyResolvePermission_ok applied
      · rcases resolveAllowed_ok resolved with ⟨_, _, _, rebinds⟩ | ⟨_, _, rfl⟩
        · obtain ⟨_, _, ⟨_, _, _, rfl⟩ | ⟨_, _, rfl⟩⟩ := rebindPermission_ok rebinds
          · exact same rfl
          · simp only [Table.get?_modify]
            split
            · rw [found]
              rfl
            · exact same rfl
        · exact same rfl
      · exact consumed rfl
  | interrupt =>
      rcases applyInterrupt_ok applied with ⟨_, applied⟩ | ⟨_, applied⟩
      · obtain ⟨_, _, _, _, rfl⟩ := applyInterruptWaiting_ok applied
        unfold interruptWaitingLedger
        split
        · exact same rfl
        · exact consumed rfl
      · obtain ⟨_, _, _, _, rfl⟩ := applyInterruptRunning_ok applied
        unfold interruptRunningLedger
        split <;> exact same rfl
  | _ => exact same (congrArg Database.pendingPermissions (applyUpdate_untouched applied rfl))

end Updates

/-! ## The ledger across changes -/

/-- The status in which recovery leaves an effect. -/
def settledStatus : EffectStatus → EffectStatus
  | .prepared => .observedFailed
  | .started => .unknown
  | status => status

/-- The effects of one turn settle, and the others stay. -/
def settledKey (turnId : TurnId) (row : EffectRow) : TurnId × String × EffectStatus :=
  (row.turnId, row.preEvidenceJson, if row.turnId = turnId then settledStatus row.status else row.status)

theorem settleEffects_key {D : Type} {ledger : Database D} {turnId : TurnId} {now : Nat} :
    ((settleEffects ledger turnId now).effects.get? effectId).map effectKey =
      (ledger.effects.get? effectId).map (settledKey turnId) := by
  simp only [settleEffects, Table.get?_mapRows, Option.map_map]
  congr 1
  funext row
  by_cases mine : row.turnId = turnId
  · cases status : row.status <;> simp [settledKey, effectKey, settleEffect, settledStatus, mine, status]
  · simp [settledKey, effectKey, mine]

/-- A direct v1 turn that recovery interrupts loses track of what it had started. -/
def retiredKey (turnId : TurnId) (row : EffectRow) : TurnId × String × EffectStatus :=
  (row.turnId, row.preEvidenceJson,
    if row.turnId = turnId ∧ row.status = .started then settledStatus row.status else row.status)

theorem Retired.effect {turnId : TurnId} {state : TurnState} {sequence now : Nat}
    (done : Retired turnId state sequence now db db') (effectId : String) :
    (db'.effects.get? effectId).map effectKey = (db.effects.get? effectId).map (retiredKey turnId) := by
  rw [done.result]
  simp only [Table.get?_mapRows, Option.map_map]
  congr 1
  funext row
  by_cases mine : row.turnId = turnId <;> by_cases started : row.status = .started <;>
    simp [retiredKey, effectKey, settledStatus, mine, started]

theorem Interrupted.effect {sessionId : SessionId} {turnId : TurnId} {token now : Nat}
    {session session' : SessionRow} {turn row : TurnRow} {rows : List SessionEventRow}
    {cards : List TranscriptEntry}
    (done : Interrupted sessionId turnId token now db db' session session' turn row rows cards)
    (effectId : String) :
    (db'.effects.get? effectId).map effectKey = (db.effects.get? effectId).map (settledKey turnId) := by
  rw [done.frame]
  exact settleEffects_key

theorem Committed.effect {request : SessionCommitRequest} {lease : Lease} {now : Nat}
    {session session' : SessionRow} {turn row : TurnRow} {draft : Draft} {mid : E.Db} {states : List TurnState}
    {cards : List TranscriptEntry} {response : SessionCommitResponse}
    (done : Committed E request lease now db db' session session' turn row draft mid states cards response)
    (effectId : String) :
    EffectStep request.turnId request.update (updateMove E db request.turnId turn.state request.update) effectId
      (db.effects.get? effectId) (db'.effects.get? effectId) := by
  have effects : db'.effects = mid.effects := by rw [done.frame]
  rw [effects]
  exact applyUpdate_effect done.applied effectId

/-- Beside commits, only the two recoveries write the ledger. -/
inductive LedgerChange (db db' : E.Db) : Prop
  | interrupted {sessionId : SessionId} {turnId : TurnId} {token now : Nat} {session session' : SessionRow}
      {turn row : TurnRow} {rows : List SessionEventRow} {cards : List TranscriptEntry}
      (done : Interrupted sessionId turnId token now db db' session session' turn row rows cards)
  | retired {turnId : TurnId} {state : TurnState} {sequence now : Nat}
      (done : Retired turnId state sequence now db db')
  | same (effects : db'.effects = db.effects) (permissions : db'.pendingPermissions = db.pendingPermissions)

theorem Uncommitted.ledger (change : Uncommitted E db db') : LedgerChange db db' := by
  cases change with
  | interrupted done => exact .interrupted done
  | retired done => exact .retired done
  | created done | followedUp done | switched done | forked done | acquired done =>
      rw [done.frame]
      exact .same rfl rfl
  | quiesced done =>
      rw [done.result]
      exact .same rfl rfl
  | renewed _ _ done | released _ done | renamed _ _ done | acknowledged _ done | evidenced _ done
  | aliased _ _ _ _ _ _ done | runCreated _ _ _ _ _ done =>
      subst done
      exact .same rfl rfl

/-- An effect keeps its turn and policy, and its status moves as `allowed`. -/
def EffectKept (allowed : EffectStatus → EffectStatus → Prop) (before after : Option EffectRow) : Prop :=
  ∀ row, before = some row → ∃ row', after = some row' ∧ row'.turnId = row.turnId ∧
    row'.preEvidenceJson = row.preEvidenceJson ∧ allowed row.status row'.status

theorem EffectKept.of_map {allowed : EffectStatus → EffectStatus → Prop} {before after : Option EffectRow}
    {key : EffectRow → TurnId × String × EffectStatus} (same : after.map effectKey = before.map key)
    (keys : ∀ row, (key row).1 = row.turnId ∧ (key row).2.1 = row.preEvidenceJson ∧
      allowed row.status (key row).2.2) : EffectKept allowed before after := by
  intro row found
  rw [found, Option.map_some] at same
  obtain ⟨row', held, moved⟩ := Option.map_eq_some_iff.mp same
  obtain ⟨turnId, policy, status⟩ := keys row
  rw [← moved] at turnId policy status
  exact ⟨row', held, turnId, policy, status⟩

/-- Recovery settles an effect or leaves it. -/
def Settles (before after : EffectStatus) : Prop := after = before ∨ after = settledStatus before

theorem Settles.trans {first second third : EffectStatus} (one : Settles first second)
    (two : Settles second third) : Settles first third := by
  rcases one with rfl | rfl
  · exact two
  · rcases two with rfl | rfl
    · exact .inr rfl
    · refine .inr ?_
      cases first <;> rfl

/-- What one call may do to the status of an effect. -/
def Moves (before after : EffectStatus) : Prop := before = after ∨ (before, after) ∈ effectChanges

theorem Settles.moves {before after : EffectStatus} (settles : Settles before after) : Moves before after := by
  rcases settles with rfl | rfl
  · exact .inl rfl
  · cases before <;> simp [Moves, settledStatus, effectChanges]

theorem Uncommitted.effect_kept (change : Uncommitted E db db') (effectId : String) :
    EffectKept Settles (db.effects.get? effectId) (db'.effects.get? effectId) := by
  cases change.ledger with
  | interrupted done =>
      refine .of_map (done.effect effectId) fun row => ⟨rfl, rfl, ?_⟩
      simp only [settledKey]
      split
      · exact .inr rfl
      · exact .inl rfl
  | retired done =>
      refine .of_map (done.effect effectId) fun row => ⟨rfl, rfl, ?_⟩
      simp only [retiredKey]
      split
      · exact .inr rfl
      · exact .inl rfl
  | same effects =>
      rw [effects]
      exact fun row found => ⟨row, found, rfl, rfl, .inl rfl⟩

/-- No recovery adds an effect. -/
theorem Uncommitted.effect_absent (change : Uncommitted E db db') (effectId : String)
    (absent : db.effects.get? effectId = none) : db'.effects.get? effectId = none := by
  have mapped : ∀ {key : EffectRow → TurnId × String × EffectStatus},
      (db'.effects.get? effectId).map effectKey = (db.effects.get? effectId).map key →
        db'.effects.get? effectId = none := by
    intro key same
    rw [absent, Option.map_none] at same
    exact Option.map_eq_none_iff.mp same
  cases change.ledger with
  | interrupted done => exact mapped (done.effect effectId)
  | retired done => exact mapped (done.effect effectId)
  | same effects =>
      rw [effects]
      exact absent

theorem Housekeeping.path_effect_kept (path : ReflTransGen (Housekeeping E) db db') (effectId : String) :
    EffectKept Settles (db.effects.get? effectId) (db'.effects.get? effectId) := by
  induction path with
  | refl => exact fun row found => ⟨row, found, rfl, rfl, .inl rfl⟩
  | tail _ change ih =>
      intro row found
      obtain ⟨one, held, turnOne, policyOne, first⟩ := ih row found
      obtain ⟨two, after, turnTwo, policyTwo, second⟩ := change.uncommitted.effect_kept effectId one held
      exact ⟨two, after, turnTwo.trans turnOne, policyTwo.trans policyOne, first.trans second⟩

theorem Housekeeping.path_effect_absent (path : ReflTransGen (Housekeeping E) db db') (effectId : String)
    (absent : db.effects.get? effectId = none) : db'.effects.get? effectId = none := by
  induction path with
  | refl => exact absent
  | tail _ change ih => exact change.uncommitted.effect_absent effectId ih

theorem Committed.effect_kept {request : SessionCommitRequest} {lease : Lease} {now : Nat}
    {session session' : SessionRow} {turn row : TurnRow} {draft : Draft} {mid : E.Db} {states : List TurnState}
    {cards : List TranscriptEntry} {response : SessionCommitResponse}
    (done : Committed E request lease now db db' session session' turn row draft mid states cards response)
    (effectId : String) : EffectKept Moves (db.effects.get? effectId) (db'.effects.get? effectId) := by
  cases done.effect effectId with
  | moved same =>
      refine .of_map same fun row => ⟨rfl, rfl, ?_⟩
      simp only [movedKey]
      split
      case isFalse => exact .inl rfl
      case isTrue =>
        cases moving : updateMove E db request.turnId turn.state request.update with
        | none => exact .inl rfl
        | some move =>
            simp only [movedStatus, Option.elim_some, EffectMove.apply]
            split
            case isTrue applies =>
              rw [applies.2]
              exact .inr (updateMove_allowed moving)
            case isFalse => exact .inl rfl
  | prepared _ fresh _ _ =>
      intro row found
      rw [fresh] at found
      cases found

end LatteCode.Storage
