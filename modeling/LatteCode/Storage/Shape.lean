import LatteCode.Storage.System
/- What one update of a linked turn may do to its turn, and which tables it leaves alone. -/

namespace LatteCode.Storage
open Keyed Outcome

/-- The lifecycle of a session whose active child has this status. -/
def activeLifecycle : TurnStatus → Option SessionLifecycle
  | .queued | .running => some .running
  | .waitingPermission => some .waitingPermission
  | .waitingInput => some .waitingInput
  | _ => none

/-- A failure after which the conversation continues. -/
def continuable (failure : TurnFailure) : Bool :=
  failure.retryability = .retryable || failure.code = .permissionDenied

/-- What the last turn of an idle session is, by the lifecycle of the session. -/
def settledAs (state : TurnState) : SessionLifecycle → Prop
  | .ready => state.status = .completed ∨ state.status = .failed ∧ state.failure.any continuable = true
  | .failed => state.status = .failed
  | .interrupted => state.status = .interrupted
  | .reconciliationRequired => state.status = .interrupted
  | _ => False

theorem settledAs_terminal {state : TurnState} {lifecycle : SessionLifecycle}
    (settled : settledAs state lifecycle) : state.status.terminal = true := by
  cases lifecycle <;> simp only [settledAs] at settled
  case ready => rcases settled with status | ⟨status, _⟩ <;> simp [status, TurnStatus.terminal]
  all_goals simp [settled, TurnStatus.terminal]

theorem activeLifecycle_isSome {status : TurnStatus} {lifecycle : SessionLifecycle}
    (active : activeLifecycle status = some lifecycle) : status.terminal = false := by
  cases status <;> simp_all [activeLifecycle, TurnStatus.terminal]

/-- A linked turn advances by one revision, or by the two of a cancellation. -/
inductive Advances (current next : TurnState) : Prop
  | one (revision : next.revision = current.revision + 1) (turnId : next.turnId = current.turnId)
      (coherent : current.Coherent → next.Coherent)
  | cancel (cancelling : TurnState) (first : current.transition current.revision .cancel = .ok cancelling)
      (second : cancelling.transition cancelling.revision .interrupt = .ok next)

theorem Advances.of_transition {current next : TurnState} {transition : Transition}
    (step : current.transition current.revision transition = .ok next) : Advances current next :=
  .one (TurnState.transition_identity step).1 (TurnState.transition_identity step).2
    fun coherent => TurnState.transition_coherent coherent step

theorem Advances.coherent {current next : TurnState} (step : Advances current next)
    (coherent : current.Coherent) : next.Coherent := by
  cases step with
  | one _ _ keeps => exact keeps coherent
  | cancel cancelling first second =>
      exact TurnState.transition_coherent (TurnState.transition_coherent coherent first) second

theorem Advances.turnId {current next : TurnState} (step : Advances current next) :
    next.turnId = current.turnId := by
  cases step with
  | one _ same _ => exact same
  | cancel cancelling first second =>
      exact (TurnState.transition_identity second).2.trans (TurnState.transition_identity first).2

theorem Advances.revision_lt {current next : TurnState} (step : Advances current next) :
    current.revision < next.revision := by
  cases step with
  | one revision _ _ => omega
  | cancel cancelling first second =>
      have one := (TurnState.transition_identity first).1
      have two := (TurnState.transition_identity second).1
      omega

/-- The three things an update can ask of the shared tail. -/
inductive DraftShape (current : TurnState) (lifecycle : SessionLifecycle) (recovered : Bool)
    (draft : Draft) : Prop
  | stay (unchanged : draft.turnChanged = false) (same : draft.next = current)
      (lifecycle : draft.nextLifecycle = lifecycle) (open_ : draft.terminal = false)
  | move (changed : draft.turnChanged = true) (open_ : draft.terminal = false)
      (alive : current.status.terminal = false) (step : Advances current draft.next)
      (lifecycle : activeLifecycle draft.next.status = some draft.nextLifecycle)
  | finish (changed : draft.turnChanged = true) (closed : draft.terminal = true)
      (alive : current.status.terminal = false ∨ recovered = true) (step : Advances current draft.next)
      (settled : settledAs draft.next draft.nextLifecycle)

/-- The authority bump of a started effect. -/
def bumpEpoch (lease : Lease) (now : Nat) (row : TurnRow) : TurnRow :=
  { row with effectEpoch := row.effectEpoch + 1, leaseToken := lease.fencingToken, updatedAtMs := now }

/-- An update writes the effect ledger and at most the effect epoch of its own turn. -/
structure LedgerOnly {D : Type} (db mid : Database D) (turnId : TurnId) (lease : Lease) (now : Nat)
    (draft : Draft) : Prop where
  frame : mid = { db with
    turns := mid.turns
    effects := mid.effects
    pendingPermissions := mid.pendingPermissions
    sessionEffectCanonical := mid.sessionEffectCanonical }
  turns : mid.turns = db.turns ∨
    (draft.turnChanged = false ∧ mid.turns = db.turns.modify turnId (bumpEpoch lease now))

theorem LedgerOnly.refl {D : Type} {db : Database D} {turnId : TurnId} {lease : Lease} {now : Nat}
    {draft : Draft} : LedgerOnly db db turnId lease now draft :=
  ⟨rfl, .inl rfl⟩

theorem cancelled_ok {current next : TurnState} (done : cancelled current = .ok next) :
    ∃ cancelling, current.transition current.revision .cancel = .ok cancelling ∧
      cancelling.transition cancelling.revision .interrupt = .ok next := by
  simpa only [cancelled, bind_ok, transitionOr_ok] using done

/-- A cancellation ends an active turn as interrupted. -/
theorem cancelled_shape {current next : TurnState} (done : cancelled current = .ok next) :
    current.status.terminal = false ∧ Advances current next ∧ next.status = .interrupted := by
  obtain ⟨cancelling, first, second⟩ := cancelled_ok done
  exact ⟨(TurnState.transition_cancel first).1, .cancel cancelling first second,
    congrArg TurnState.status (TurnState.transition_interrupt second).2⟩

section Variants

variable {E : Environment} {db mid : E.Db} {turnId : TurnId} {lease : Lease} {now : Nat}
  {current : TurnState} {lifecycle : SessionLifecycle} {recovered : Bool} {draft : Draft}

variable (db mid turnId lease now current lifecycle recovered draft) in
/-- The shape of a draft together with the tables its update wrote. -/
structure Shaped : Prop where
  shape : DraftShape current lifecycle recovered draft
  ledger : LedgerOnly db mid turnId lease now draft

theorem applyStart_shaped (applied : applyStart E db current lifecycle = .ok (draft, mid)) :
    Shaped db mid turnId lease now current lifecycle recovered draft := by
  simp only [applyStart, bind_ok, transitionOr_ok, Except.ok.injEq, Prod.mk.injEq] at applied
  obtain ⟨next, step, rfl, rfl⟩ := applied
  obtain ⟨queued, same⟩ := TurnState.transition_start step
  refine ⟨.move rfl rfl ?_ (.of_transition step) ?_, .refl⟩
  · simp only [queued, TurnStatus.terminal]
  · rw [same]
    rfl

theorem applyAppendTranscript_shaped {sourceKey text : String} {kind : TranscriptKind}
    {payload : Option Json}
    (applied : applyAppendTranscript E db current lifecycle sourceKey kind text payload = .ok (draft, mid)) :
    Shaped db mid turnId lease now current lifecycle recovered draft := by
  cases applied
  exact ⟨.stay rfl rfl rfl rfl, .refl⟩

theorem insertPrepared_ok {effectId digest descriptor canonical : String} {policy : SessionEffectPolicy}
    (inserted : insertPrepared E db turnId now effectId digest descriptor canonical policy = .ok mid) :
    db.effects.get? effectId = none ∧ mid = { db with
      effects := db.effects.add effectId
        ⟨turnId, .prepared, now, descriptor, digest, policyMarker policy, none, now, none⟩
      sessionEffectCanonical := db.sessionEffectCanonical.add effectId ⟨turnId, canonical⟩ } := by
  simp only [insertPrepared, bind_ok, toI64s_ok, unique_ok, Except.ok.injEq] at inserted
  obtain ⟨_, _, _, fresh, _, _, rfl⟩ := inserted
  exact ⟨fresh, rfl⟩

theorem insertPermission_ok {effectId digest : String}
    (inserted : insertPermission E db turnId lease current effectId digest = .ok mid) :
    db.pendingPermissions.get? effectId = none ∧ mid = { db with
      pendingPermissions := db.pendingPermissions.add effectId
        ⟨turnId, current.revision + 2, lease.owner, lease.fencingToken, digest, none⟩ } := by
  simp only [insertPermission, bind_ok, addOr_ok, toI64s_ok, unique_ok, Except.ok.injEq] at inserted
  obtain ⟨_, ⟨rfl, _⟩, _, _, _, fresh, _, _, rfl⟩ := inserted
  exact ⟨fresh, rfl⟩

/-- A preparation adds its row; an `Ask` also binds a permission and starts waiting for it. -/
theorem applyPrepareEffect_ok {sourceKey effectId digest descriptor canonical description checkpoint : String}
    {policy : SessionEffectPolicy}
    (applied : applyPrepareEffect E db turnId lease now current lifecycle sourceKey effectId digest descriptor
      canonical policy description checkpoint = .ok (draft, mid)) :
    current.status = .running ∧ draft.terminal = false ∧ ∃ prepared : E.Db,
      insertPrepared E db turnId now effectId digest descriptor canonical policy = .ok prepared ∧
      ((policy = .allow ∧ mid = prepared ∧ draft.turnChanged = false ∧ draft.next = current ∧
          draft.nextLifecycle = lifecycle) ∨
        (policy = .ask ∧ insertPermission E prepared turnId lease current effectId digest = .ok mid ∧
          draft.turnChanged = true ∧ draft.nextLifecycle = .waitingPermission ∧
          current.transition current.revision (.requestPermission ⟨E.redactSessionText effectId,
            E.redactSessionText digest, E.redactSessionText description⟩) = .ok draft.next)) := by
  simp only [applyPrepareEffect, bind_ok, ensure_ok, invalidJson_ok] at applied
  obtain ⟨_, _, _, _, _, _, _, _, _, _, _, running, prepared, inserted, chosen⟩ := applied
  cases policy with
  | allow =>
      cases chosen
      exact ⟨running, rfl, _, inserted, .inl ⟨rfl, rfl, rfl, rfl, rfl⟩⟩
  | ask =>
      simp only [bind_ok, transitionOr_ok, Except.ok.injEq, Prod.mk.injEq] at chosen
      obtain ⟨next, step, bound, permitted, rfl, rfl⟩ := chosen
      exact ⟨running, rfl, prepared, inserted, .inr ⟨rfl, permitted, rfl, rfl, step⟩⟩

theorem applyPrepareEffect_shaped
    {sourceKey effectId digest descriptor canonical description checkpoint : String}
    {policy : SessionEffectPolicy}
    (applied : applyPrepareEffect E db turnId lease now current lifecycle sourceKey effectId digest descriptor
      canonical policy description checkpoint = .ok (draft, mid)) :
    Shaped db mid turnId lease now current lifecycle recovered draft := by
  obtain ⟨running, open_, prepared, inserted, chosen⟩ := applyPrepareEffect_ok applied
  obtain ⟨_, rfl⟩ := insertPrepared_ok inserted
  rcases chosen with ⟨_, rfl, unchanged, same, kept⟩ | ⟨_, permitted, changed, waiting, step⟩
  · exact ⟨.stay unchanged same kept open_, rfl, .inl rfl⟩
  · obtain ⟨_, rfl⟩ := insertPermission_ok permitted
    have next := (TurnState.transition_requestPermission step).2
    refine ⟨.move changed open_ ?_ (.of_transition step) ?_, rfl, .inl rfl⟩
    · simp only [running, TurnStatus.terminal]
    · rw [waiting, next]
      rfl

/-- An authorized start consumes the permission of the effect, or finds an allow policy. -/
theorem authorizeStart_ok {effectId : String} {effect : EffectRow}
    (authorized : authorizeStart E db turnId lease now current effectId effect = .ok mid) :
    (∃ permission, db.pendingPermissions.get? effectId = some permission ∧ permission.turnId = turnId ∧
        permission.turnRevision = current.revision ∧ permission.leaseOwner = lease.owner ∧
        permission.leaseToken = lease.fencingToken ∧ permission.consumedAtMs = none ∧
        mid = consumePermissionOf db effectId turnId now) ∨
      (effect.preEvidenceJson = policyMarker .allow ∧ mid = db ∧
        ∀ permission, db.pendingPermissions.get? effectId = some permission → permission.turnId ≠ turnId) := by
  unfold authorizeStart at authorized
  split at authorized
  case h_1 permission found =>
    obtain ⟨held, owned⟩ := Option.filter_eq_some_iff.mp found
    simp only [bind_ok, ensure_ok, Except.ok.injEq] at authorized
    obtain ⟨_, ⟨revision, owner, token, unused⟩, rfl⟩ := authorized
    exact .inl ⟨permission, held, of_decide_eq_true owned, revision, owner, token, unused, rfl⟩
  case h_2 absent =>
    simp only [bind_ok, ensure_ok, Except.ok.injEq] at authorized
    obtain ⟨_, allowed, rfl⟩ := authorized
    refine .inr ⟨allowed, rfl, ?_⟩
    intro permission held owned
    rw [Option.filter_eq_none_iff] at absent
    exact absent permission held (decide_eq_true owned)

/-- A start moves one prepared effect of the turn, under its authority, and bumps the effect epoch. -/
theorem applyStartEffect_ok {sourceKey effectId digest checkpoint : String}
    (applied : applyStartEffect E db turnId lease now current lifecycle sourceKey effectId digest checkpoint =
      .ok (draft, mid)) :
    current.status = .running ∧ current.pendingPermission = none ∧ draft.turnChanged = false ∧
      draft.next = current ∧ draft.nextLifecycle = lifecycle ∧ draft.terminal = false ∧
      ∃ effect authorized, db.effects.get? effectId = some effect ∧ effect.turnId = turnId ∧
        effect.status = .prepared ∧ effect.approvalDigest = digest ∧
        authorizeStart E db turnId lease now current effectId effect = .ok authorized ∧
        mid = { authorized with
          effects := authorized.effects.modify effectId fun row =>
            { row with status := .started, startedAtMs := now }
          turns := authorized.turns.modify turnId (bumpEpoch lease now) } := by
  simp only [applyStartEffect, bind_ok, ensure_ok, invalidJson_ok, require_ok, toI64s_ok, Except.ok.injEq,
    Prod.mk.injEq] at applied
  obtain ⟨_, _, _, _, _, _, _, ⟨running, quiet, _⟩, effect, found, _, matched, _, _, authorized, allowed,
    _, _, _, _, rfl, rfl⟩ := applied
  obtain ⟨held, owned⟩ := Option.filter_eq_some_iff.mp found
  simp only [Bool.and_eq_true, decide_eq_true_eq] at owned
  exact ⟨running, quiet, rfl, rfl, rfl, rfl, effect, authorized, held, owned.1, owned.2, matched, allowed, rfl⟩

theorem applyStartEffect_shaped {sourceKey effectId digest checkpoint : String}
    (applied : applyStartEffect E db turnId lease now current lifecycle sourceKey effectId digest checkpoint =
      .ok (draft, mid)) : Shaped db mid turnId lease now current lifecycle recovered draft := by
  obtain ⟨_, _, unchanged, same, kept, open_, effect, authorized, _, _, _, _, allowed, rfl⟩ :=
    applyStartEffect_ok applied
  rcases authorizeStart_ok allowed with ⟨_, _, _, _, _, _, _, rfl⟩ | ⟨_, rfl, _⟩
  · exact ⟨.stay unchanged same kept open_, rfl, .inr ⟨unchanged, rfl⟩⟩
  · exact ⟨.stay unchanged same kept open_, rfl, .inr ⟨unchanged, rfl⟩⟩

theorem effectMatches_iff {effectId digest : String} {status : EffectStatus} :
    effectMatches db effectId turnId status digest = true ↔ ∃ effect, db.effects.get? effectId = some effect ∧
      effect.turnId = turnId ∧ effect.status = status ∧ effect.approvalDigest = digest := by
  simp only [effectMatches, Table.holds_iff, Bool.and_eq_true, decide_eq_true_eq, and_assoc]

theorem effectIn_iff {effectId : String} {status : EffectStatus} :
    effectIn db effectId turnId status = true ↔ ∃ effect, db.effects.get? effectId = some effect ∧
      effect.turnId = turnId ∧ effect.status = status := by
  simp only [effectIn, Table.holds_iff, Bool.and_eq_true, decide_eq_true_eq]

theorem applyObserveEffect_ok {sourceKey effectId digest result checkpoint : String} {success : Bool}
    {payload : Option Json}
    (applied : applyObserveEffect E db turnId now current lifecycle sourceKey effectId digest success result
      payload checkpoint = .ok (draft, mid)) :
    current.status = .running ∧ draft.turnChanged = false ∧ draft.next = current ∧
      draft.nextLifecycle = lifecycle ∧ draft.terminal = false ∧
      effectMatches db effectId turnId .started digest = true ∧
      ∃ evidence, mid = moveEffect db effectId turnId .started
        (if success then .observedSuccess else .observedFailed) evidence now := by
  simp only [applyObserveEffect, bind_ok, ensure_ok, invalidJson_ok, toI64s_ok, Except.ok.injEq,
    Prod.mk.injEq] at applied
  obtain ⟨_, _, _, _, _, _, _, running, _, _, _, started, rfl, rfl⟩ := applied
  exact ⟨running, rfl, rfl, rfl, rfl, started, _, rfl⟩

theorem applyUnknownEffect_ok {sourceKey effectId digest checkpoint : String}
    (applied : applyUnknownEffect E db turnId now current sourceKey effectId digest checkpoint =
      .ok (draft, mid)) :
    cancelled current = .ok draft.next ∧ draft.turnChanged = true ∧
      draft.nextLifecycle = .reconciliationRequired ∧ draft.terminal = true ∧
      effectMatches db effectId turnId .started digest = true ∧
      ∃ evidence, mid = moveEffect db effectId turnId .started .unknown evidence now := by
  simp only [applyUnknownEffect, bind_ok, ensure_ok, invalidJson_ok, toI64s_ok, Except.ok.injEq,
    Prod.mk.injEq] at applied
  obtain ⟨_, _, _, _, _, _, _, _, _, started, next, done, rfl, rfl⟩ := applied
  exact ⟨done, rfl, rfl, rfl, started, _, rfl⟩

/-- An acknowledgement fails the turn terminally, from wherever the two paths start. -/
theorem reconciled_ok {effectId : String} {next : TurnState}
    (done : reconciled E current recovered effectId = .ok next) :
    (current.status.terminal = false ∨ recovered = true) ∧ Advances current next ∧ next.status = .failed := by
  unfold reconciled at done
  split at done
  case isTrue after =>
    simp only [bind_ok, ensure_ok, addOr_ok, Except.ok.injEq] at done
    obtain ⟨_, interrupted, _, ⟨rfl, _⟩, rfl⟩ := done
    refine ⟨.inr after, .one rfl rfl ?_, rfl⟩
    intro coherent
    have noHandoff : current.handoff.isSome = false := by
      rw [Bool.eq_false_iff]
      intro held
      rw [coherent.handoff, interrupted] at held
      cases held
    constructor <;> simp [noHandoff]
  case isFalse =>
    rw [transitionOr_ok] at done
    obtain ⟨alive, same⟩ := TurnState.transition_fail done
    exact ⟨.inl alive, .of_transition done, same ▸ rfl⟩

theorem applyReconcileUnknownEffect_ok {sourceKey effectId checkpoint : String}
    (applied : applyReconcileUnknownEffect E db turnId now current recovered sourceKey effectId checkpoint =
      .ok (draft, mid)) :
    reconciled E current recovered effectId = .ok draft.next ∧ draft.turnChanged = true ∧
      draft.nextLifecycle = .failed ∧ draft.terminal = true ∧ effectIn db effectId turnId .unknown = true ∧
      ∃ evidence, mid = moveEffect db effectId turnId .unknown .observedFailed evidence now := by
  simp only [applyReconcileUnknownEffect, bind_ok, ensure_ok, invalidJson_ok, toI64s_ok, Except.ok.injEq,
    Prod.mk.injEq] at applied
  obtain ⟨_, _, _, _, _, _, _, unknown, next, done, rfl, rfl⟩ := applied
  exact ⟨done, rfl, rfl, rfl, unknown, _, rfl⟩

theorem applyObserveEffect_shaped {sourceKey effectId digest result checkpoint : String} {success : Bool}
    {payload : Option Json}
    (applied : applyObserveEffect E db turnId now current lifecycle sourceKey effectId digest success result
      payload checkpoint = .ok (draft, mid)) :
    Shaped db mid turnId lease now current lifecycle recovered draft := by
  obtain ⟨_, unchanged, same, kept, open_, _, _, rfl⟩ := applyObserveEffect_ok applied
  exact ⟨.stay unchanged same kept open_, rfl, .inl rfl⟩

theorem applyUnknownEffect_shaped {sourceKey effectId digest checkpoint : String}
    (applied : applyUnknownEffect E db turnId now current sourceKey effectId digest checkpoint =
      .ok (draft, mid)) : Shaped db mid turnId lease now current lifecycle recovered draft := by
  obtain ⟨done, changed, unknown, closed, _, _, rfl⟩ := applyUnknownEffect_ok applied
  obtain ⟨alive, advances, interrupted⟩ := cancelled_shape done
  refine ⟨.finish changed closed (.inl alive) advances ?_, rfl, .inl rfl⟩
  rw [unknown]
  exact interrupted

theorem applyReconcileUnknownEffect_shaped {sourceKey effectId checkpoint : String}
    (applied : applyReconcileUnknownEffect E db turnId now current recovered sourceKey effectId checkpoint =
      .ok (draft, mid)) : Shaped db mid turnId lease now current lifecycle recovered draft := by
  obtain ⟨done, changed, failed, closed, _, _, rfl⟩ := applyReconcileUnknownEffect_ok applied
  obtain ⟨alive, advances, status⟩ := reconciled_ok done
  refine ⟨.finish changed closed alive advances ?_, rfl, .inl rfl⟩
  rw [failed]
  exact status

theorem applyRequestPermission_ok {sourceKey : String} {request : PendingPermission}
    (applied : applyRequestPermission E db current lifecycle sourceKey request = .ok (draft, mid)) :
    mid = db ∧ draft.turnChanged = true ∧ draft.terminal = false ∧ draft.nextLifecycle = .waitingPermission ∧
      current.transition current.revision (.requestPermission (redactPermission E request)) =
        .ok draft.next := by
  simp only [applyRequestPermission, bind_ok, transitionOr_ok, Except.ok.injEq, Prod.mk.injEq] at applied
  obtain ⟨next, step, rfl, rfl⟩ := applied
  exact ⟨rfl, rfl, rfl, rfl, step⟩

theorem applyRequestPermission_shaped {sourceKey : String} {request : PendingPermission}
    (applied : applyRequestPermission E db current lifecycle sourceKey request = .ok (draft, mid)) :
    Shaped db mid turnId lease now current lifecycle recovered draft := by
  obtain ⟨rfl, changed, open_, waiting, step⟩ := applyRequestPermission_ok applied
  obtain ⟨running, next⟩ := TurnState.transition_requestPermission step
  refine ⟨.move changed open_ ?_ (.of_transition step) ?_, .refl⟩
  · simp only [running, TurnStatus.terminal]
  · rw [waiting, next]
    rfl

/-- A rebind writes the bound lease and the digest; without one the resolving lease is the bound one. -/
theorem rebindPermission_ok {requestId : String} {permission : PermissionRow} {effect : EffectRow}
    {revision : Nat} {rebound : Option String}
    (rebinds : rebindPermission E db lease requestId permission effect revision rebound = .ok mid) :
    permission.turnRevision = revision ∧ permission.approvalDigest = effect.approvalDigest ∧
      ((rebound = none ∧ permission.leaseOwner = lease.owner ∧ permission.leaseToken = lease.fencingToken ∧
          mid = db) ∨
        ∃ digest, rebound = some digest ∧ mid = { db with
          effects := db.effects.modify requestId fun row => { row with approvalDigest := digest }
          pendingPermissions := db.pendingPermissions.modify requestId fun row =>
            { row with
              leaseOwner := lease.owner
              leaseToken := lease.fencingToken
              approvalDigest := digest } }) := by
  simp only [rebindPermission, bind_ok, ensure_ok] at rebinds
  obtain ⟨_, ⟨revised, digested⟩, chosen⟩ := rebinds
  refine ⟨revised, digested, ?_⟩
  cases rebound with
  | none =>
      simp only [bind_ok, ensure_ok, Except.ok.injEq] at chosen
      obtain ⟨_, ⟨owner, token⟩, rfl⟩ := chosen
      exact .inl ⟨rfl, owner, token, rfl⟩
  | some digest =>
      simp only [bind_ok, toI64s_ok, unique_ok, Except.ok.injEq] at chosen
      obtain ⟨_, _, _, _, _, _, rfl⟩ := chosen
      exact .inr ⟨digest, rfl, rfl⟩

theorem preparedPermission_eq_some {requestId : String} {permission : PermissionRow} {effect : EffectRow} :
    preparedPermission db requestId turnId = some (permission, effect) ↔
      db.pendingPermissions.get? requestId = some permission ∧ db.effects.get? requestId = some effect ∧
        permission.turnId = turnId ∧ effect.turnId = turnId ∧ permission.consumedAtMs = none ∧
        effect.status = .prepared := by
  simp only [preparedPermission, Option.bind_eq_some_iff]
  constructor
  · rintro ⟨permission', held, effect', found, chosen⟩
    split at chosen
    case isTrue facts =>
      cases chosen
      exact ⟨held, found, facts⟩
    case isFalse => cases chosen
  · rintro ⟨held, found, facts⟩
    exact ⟨permission, held, effect, found, if_pos facts⟩

/-- An allowed resolution meets a prepared permission bound to the next revision, or none. -/
theorem resolveAllowed_ok {requestId : String} {revision : Nat} {rebound : Option String}
    (resolved : resolveAllowed E db turnId lease requestId revision rebound = .ok mid) :
    (∃ permission effect, preparedPermission db requestId turnId = some (permission, effect) ∧
        rebindPermission E db lease requestId permission effect revision rebound = .ok mid) ∨
      (preparedPermission db requestId turnId = none ∧ rebound = none ∧ mid = db) := by
  unfold resolveAllowed at resolved
  split at resolved
  case h_1 permission effect found => exact .inl ⟨permission, effect, found, resolved⟩
  case h_2 absent =>
    simp only [bind_ok, ensure_ok, Except.ok.injEq] at resolved
    obtain ⟨_, unbound, rfl⟩ := resolved
    exact .inr ⟨absent, unbound, rfl⟩

theorem applyResolvePermission_ok {sourceKey requestId : String} {allow : Bool} {rebound : Option String}
    (applied : applyResolvePermission E db turnId lease now current lifecycle sourceKey requestId allow
      rebound = .ok (draft, mid)) :
    current.transition current.revision (.resolvePermission (E.redactSessionText requestId) allow) =
        .ok draft.next ∧ draft.turnChanged = true ∧
      ((allow = true ∧ draft.terminal = false ∧ draft.nextLifecycle = .running ∧
          resolveAllowed E db turnId lease requestId draft.next.revision rebound = .ok mid) ∨
        (allow = false ∧ draft.terminal = true ∧ draft.nextLifecycle = .ready ∧
          mid = resolveDenied E db turnId now requestId)) := by
  simp only [applyResolvePermission, bind_ok, transitionOr_ok] at applied
  obtain ⟨next, step, chosen⟩ := applied
  cases allow with
  | true =>
      simp only [if_true, bind_ok, Except.ok.injEq, Prod.mk.injEq] at chosen
      obtain ⟨_, resolved, rfl, rfl⟩ := chosen
      exact ⟨step, rfl, .inl ⟨rfl, rfl, rfl, resolved⟩⟩
  | false =>
      simp only [Bool.false_eq_true, if_false, bind_ok, toI64s_ok, Except.ok.injEq, Prod.mk.injEq] at chosen
      obtain ⟨_, _, rfl, rfl⟩ := chosen
      exact ⟨step, rfl, .inr ⟨rfl, rfl, rfl, rfl⟩⟩

theorem applyResolvePermission_shaped {sourceKey requestId : String} {allow : Bool} {rebound : Option String}
    (applied : applyResolvePermission E db turnId lease now current lifecycle sourceKey requestId allow
      rebound = .ok (draft, mid)) :
    Shaped db mid turnId lease now current lifecycle recovered draft := by
  obtain ⟨step, changed, chosen⟩ := applyResolvePermission_ok applied
  obtain ⟨waiting, _, next⟩ := TurnState.transition_resolvePermission step
  have alive : current.status.terminal = false := by simp only [waiting, TurnStatus.terminal]
  rcases chosen with ⟨rfl, open_, running, resolved⟩ | ⟨rfl, closed, ready, rfl⟩
  · refine ⟨.move changed open_ alive (.of_transition step) ?_, ?_⟩
    · rw [running, next]
      rfl
    · rcases resolveAllowed_ok resolved with ⟨_, _, _, rebinds⟩ | ⟨_, _, rfl⟩
      · obtain ⟨_, _, ⟨_, _, _, rfl⟩ | ⟨_, _, rfl⟩⟩ := rebindPermission_ok rebinds
        · exact .refl
        · exact ⟨rfl, .inl rfl⟩
      · exact .refl
  · refine ⟨.finish changed closed (.inl alive) (.of_transition step) ?_, rfl, .inl rfl⟩
    rw [ready, next]
    exact .inr ⟨rfl, rfl⟩

theorem applyRequestInput_shaped {sourceKey : String} {request : PendingInput}
    (applied : applyRequestInput E db current lifecycle sourceKey request = .ok (draft, mid)) :
    mid = db ∧ Shaped db mid turnId lease now current lifecycle recovered draft := by
  simp only [applyRequestInput, bind_ok, transitionOr_ok, Except.ok.injEq, Prod.mk.injEq] at applied
  obtain ⟨next, step, rfl, rfl⟩ := applied
  obtain ⟨running, same⟩ := TurnState.transition_requestInput step
  refine ⟨rfl, .move rfl rfl ?_ (.of_transition step) ?_, .refl⟩
  · simp only [running, TurnStatus.terminal]
  · rw [same]
    rfl

theorem applyProvideInput_shaped {sourceKey requestId value : String}
    (applied : applyProvideInput E db current lifecycle sourceKey requestId value = .ok (draft, mid)) :
    mid = db ∧ Shaped db mid turnId lease now current lifecycle recovered draft := by
  simp only [applyProvideInput, bind_ok, transitionOr_ok, Except.ok.injEq, Prod.mk.injEq] at applied
  obtain ⟨next, step, rfl, rfl⟩ := applied
  obtain ⟨waiting, same⟩ := TurnState.transition_provideInput step
  refine ⟨rfl, .move rfl rfl ?_ (.of_transition step) ?_, .refl⟩
  · simp only [waiting, TurnStatus.terminal]
  · rw [same]
    rfl

/-- Both completions end the turn as completed; the verified one only under a passing policy. -/
theorem completedDraft_shaped {next : TurnState} {handoff : Handoff} {policy : CompletionPolicy}
    {sourceKey : String} (passes : policy.passes handoff = true)
    (step : current.transition current.revision (.complete handoff policy) = .ok next) :
    DraftShape current lifecycle recovered (completedDraft E current lifecycle next sourceKey) := by
  obtain ⟨running, same⟩ := TurnState.transition_complete passes step
  refine .finish rfl rfl (.inl ?_) (.of_transition step) (.inl ?_)
  · simp only [running, TurnStatus.terminal]
  · change next.status = .completed
    rw [same]

theorem applyComplete_shaped {sourceKey : String} {handoff : Handoff}
    (applied : applyComplete E db current lifecycle sourceKey handoff = .ok (draft, mid)) :
    mid = db ∧ Shaped db mid turnId lease now current lifecycle recovered draft := by
  simp only [applyComplete, bind_ok, transitionOr_ok, Except.ok.injEq, Prod.mk.injEq] at applied
  obtain ⟨next, step, rfl, rfl⟩ := applied
  exact ⟨rfl, completedDraft_shaped rfl step, .refl⟩

theorem applyCompleteVerified_shaped {sourceKey summary effectId digest : String} {files : List String}
    (applied : applyCompleteVerified E db turnId now current lifecycle sourceKey summary effectId digest
      files = .ok (draft, mid)) :
    mid = db ∧ Shaped db mid turnId lease now current lifecycle recovered draft := by
  simp only [applyCompleteVerified, bind_ok, transitionOr_ok, Except.ok.injEq, Prod.mk.injEq] at applied
  obtain ⟨record, _, next, step, rfl, rfl⟩ := applied
  exact ⟨rfl, completedDraft_shaped rfl step, .refl⟩

theorem applyFail_shaped {sourceKey : String} {failure : TurnFailure}
    (applied : applyFail E db current lifecycle sourceKey failure = .ok (draft, mid)) :
    mid = db ∧ Shaped db mid turnId lease now current lifecycle recovered draft := by
  simp only [applyFail, bind_ok, transitionOr_ok, Except.ok.injEq, Prod.mk.injEq] at applied
  obtain ⟨next, step, rfl, rfl⟩ := applied
  obtain ⟨alive, rfl⟩ := TurnState.transition_fail step
  refine ⟨rfl, .finish rfl rfl (.inl alive) (.of_transition step) ?_, .refl⟩
  by_cases retry : failure.retryability = .retryable
  · simp [retry, settledAs, continuable, redactFailure]
  · simp [retry, settledAs]

/-- The ledger of an interrupted wait: the waiting capability is used up, its effect never ran. -/
def interruptWaitingLedger (E : Environment) (db : E.Db) (turnId : TurnId) (now : Nat) (current : TurnState) :
    E.Db :=
  match current.pendingPermission with
  | none => db
  | some permission =>
      moveEffect (consumePermissionOf db permission.requestId turnId now) permission.requestId turnId
        .prepared .observedFailed (.ofMembers [("cancelled", .string "before_start")]) now

theorem applyInterruptWaiting_ok {sourceKey : String}
    (applied : applyInterruptWaiting E db turnId now current lifecycle sourceKey = .ok (draft, mid)) :
    draft.turnChanged = true ∧ draft.terminal = true ∧ draft.nextLifecycle = .failed ∧
      draft.next = { current with
        revision := current.revision + 1
        status := .failed
        pendingInput := none
        pendingPermission := none
        failure := some ⟨.cancelled, "run cancelled while waiting", .terminal⟩ } ∧
      mid = interruptWaitingLedger E db turnId now current := by
  simp only [applyInterruptWaiting, bind_ok, addOr_ok, toI64s_ok, Except.ok.injEq, Prod.mk.injEq] at applied
  obtain ⟨_, ⟨rfl, _⟩, _, _, rfl, rfl⟩ := applied
  exact ⟨rfl, rfl, rfl, rfl, rfl⟩

theorem applyInterruptWaiting_shaped {sourceKey : String}
    (waiting : current.status = .waitingPermission ∨ current.status = .waitingInput)
    (applied : applyInterruptWaiting E db turnId now current lifecycle sourceKey = .ok (draft, mid)) :
    Shaped db mid turnId lease now current lifecycle recovered draft := by
  obtain ⟨changed, closed, failed, next, rfl⟩ := applyInterruptWaiting_ok applied
  have alive : current.status.terminal = false := by
    rcases waiting with status | status <;> simp only [status, TurnStatus.terminal]
  have coherent : current.Coherent → draft.next.Coherent := by
    intro held
    have noHandoff : current.handoff.isSome = false := by
      rw [Bool.eq_false_iff]
      intro handed
      rw [held.handoff.mp handed] at alive
      cases alive
    rw [next]
    constructor <;> simp [noHandoff]
  refine ⟨.finish changed closed (.inl alive) (.one ?_ ?_ coherent) ?_, ?_⟩
  · rw [next]
  · rw [next]
  · rw [failed, next]
    rfl
  · unfold interruptWaitingLedger
    split
    · exact .refl
    · exact ⟨rfl, .inl rfl⟩

/-- The ledger of an interruption: the one uncertain effect turns unknown if it is started. -/
def interruptRunningLedger (E : Environment) (db : E.Db) (turnId : TurnId) (now : Nat)
    (uncertain : Option String) : E.Db :=
  match uncertain with
  | none => db
  | some effectId => moveEffect db effectId turnId .started .unknown
      (.ofMembers [("outcome", .string "cancelled_after_start")]) now

theorem applyInterruptRunning_ok {sourceKey : String} {effectId : Option String}
    (applied : applyInterruptRunning E db turnId now current lifecycle sourceKey effectId =
      .ok (draft, mid)) :
    cancelled current = .ok draft.next ∧ draft.turnChanged = true ∧ draft.terminal = true ∧
      draft.nextLifecycle = (if (interruptedEffect E db turnId effectId).isSome then .reconciliationRequired
        else .interrupted) ∧
      mid = interruptRunningLedger E db turnId now (interruptedEffect E db turnId effectId) := by
  simp only [applyInterruptRunning, bind_ok, toI64s_ok, Except.ok.injEq, Prod.mk.injEq] at applied
  obtain ⟨_, _, next, done, rfl, rfl⟩ := applied
  exact ⟨done, rfl, rfl, rfl, rfl⟩

theorem applyInterruptRunning_shaped {sourceKey : String} {effectId : Option String}
    (applied : applyInterruptRunning E db turnId now current lifecycle sourceKey effectId =
      .ok (draft, mid)) : Shaped db mid turnId lease now current lifecycle recovered draft := by
  obtain ⟨done, changed, closed, chosen, rfl⟩ := applyInterruptRunning_ok applied
  obtain ⟨alive, advances, interrupted⟩ := cancelled_shape done
  refine ⟨.finish changed closed (.inl alive) advances ?_, ?_⟩
  · rw [chosen]
    split <;> exact interrupted
  · unfold interruptRunningLedger
    split
    · exact .refl
    · exact ⟨rfl, .inl rfl⟩

theorem applyInterrupt_ok {sourceKey : String} {effectId : Option String}
    (applied : applyInterrupt E db turnId now current lifecycle sourceKey effectId = .ok (draft, mid)) :
    ((current.status = .waitingPermission ∨ current.status = .waitingInput) ∧
        applyInterruptWaiting E db turnId now current lifecycle sourceKey = .ok (draft, mid)) ∨
      (¬ (current.status = .waitingPermission ∨ current.status = .waitingInput) ∧
        applyInterruptRunning E db turnId now current lifecycle sourceKey effectId = .ok (draft, mid)) := by
  unfold applyInterrupt at applied
  split at applied
  case isTrue waiting => exact .inl ⟨waiting, applied⟩
  case isFalse started => exact .inr ⟨started, applied⟩

theorem applyInterrupt_shaped {sourceKey : String} {effectId : Option String}
    (applied : applyInterrupt E db turnId now current lifecycle sourceKey effectId = .ok (draft, mid)) :
    Shaped db mid turnId lease now current lifecycle recovered draft := by
  rcases applyInterrupt_ok applied with ⟨waiting, applied⟩ | ⟨_, applied⟩
  · exact applyInterruptWaiting_shaped waiting applied
  · exact applyInterruptRunning_shaped applied

/-- Every update of a linked turn has one of the three shapes and writes only the ledger. -/
theorem applyUpdate_shaped {update : CommitSessionTurnUpdate}
    (applied : applyUpdate E db turnId lease now current lifecycle recovered update = .ok (draft, mid)) :
    Shaped db mid turnId lease now current lifecycle recovered draft := by
  cases update with
  | start => exact applyStart_shaped applied
  | appendTranscript => exact applyAppendTranscript_shaped applied
  | prepareEffect => exact applyPrepareEffect_shaped applied
  | startEffect => exact applyStartEffect_shaped applied
  | observeEffect => exact applyObserveEffect_shaped applied
  | unknownEffect => exact applyUnknownEffect_shaped applied
  | reconcileUnknownEffect => exact applyReconcileUnknownEffect_shaped applied
  | requestPermission => exact applyRequestPermission_shaped applied
  | resolvePermission => exact applyResolvePermission_shaped applied
  | requestInput => exact (applyRequestInput_shaped applied).2
  | provideInput => exact (applyProvideInput_shaped applied).2
  | complete => exact (applyComplete_shaped applied).2
  | completeVerified => exact (applyCompleteVerified_shaped applied).2
  | fail => exact (applyFail_shaped applied).2
  | interrupt => exact applyInterrupt_shaped applied

end Variants

end LatteCode.Storage
