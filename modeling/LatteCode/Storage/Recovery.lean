import LatteCode.Storage.Accept
/- Recovery of stale linked turns, and the fenced leases whose loss it answers. -/

namespace LatteCode.Storage
open Keyed Outcome

inductive SessionLeaseLossRecovery where
  | recovered (response : SessionCommitResponse)
  | fencedNoop
  | alreadyTerminal (snapshot : SessionSnapshot)

structure Card where
  kind : TranscriptKind
  text : String
  payload : Option Json
  sourceKey : String

section Ledger

variable {D : Type} (db : Database D)

/-- Effects of a turn in one status, in rowid order. -/
def effectIds (turnId : TurnId) (status : EffectStatus) : List String :=
  (db.effects.select fun _ row => row.turnId = turnId && row.status = status).map Prod.fst

/-- A prepared effect never crossed the external boundary; a started one may have acted. -/
def settleEffect (row : EffectRow) (now : Nat) : EffectRow :=
  match row.status with
  | .prepared => { row with
      status := .observedFailed
      postEvidence := some (.ofMembers [("recovery", .string "not_started")])
      observedAtMs := some now }
  | .started => { row with
      status := .unknown
      postEvidence := some (.ofMembers [("outcome", .string "lease_lost_after_start")])
      observedAtMs := some now }
  | _ => row

def consumePermission (row : PermissionRow) (now : Nat) : PermissionRow :=
  if row.consumedAtMs = none then { row with consumedAtMs := some now } else row

def settleEffects (turnId : TurnId) (now : Nat) : Database D :=
  { db with
    pendingPermissions := db.pendingPermissions.mapRows fun _ row =>
      if row.turnId = turnId then consumePermission row now else row
    effects := db.effects.mapRows fun _ row => if row.turnId = turnId then settleEffect row now else row }

/-- The turn to interrupt, when the stale token still names the active row and the turn. -/
def staleTurn (sessionId : SessionId) (turnId : TurnId) (expectedToken : Nat)
    (expectedTurnRevision : Option Nat) : Except StorageError (Option TurnRow) :=
  match db.sessionActiveTurns.get? sessionId with
  | none => .ok none
  | some active =>
      if active.turnId ≠ turnId ∨ active.leaseToken ≠ expectedToken then .ok none
      else do
        let turn ← queryRow (db.turns.get? turnId)
        .ok (if turn.leaseToken = expectedToken ∧ expectedTurnRevision.all (· = turn.state.revision) ∧
          turn.state.status.terminal = false then some turn else none)

end Ledger

variable (E : Environment)

/-- One transcript card with its event, at the next sequence of the session. -/
def appendCard (sessionId : SessionId) (turnId : TurnId) (revision now : Nat)
    (written : Nat × E.Db) (card : Card) : Except StorageError (Nat × E.Db) := do
  let sequence ← addOr written.1 1 "session sequence overflow during recovery"
  let entry : TranscriptEntry := {
    entryId := E.newEntryId sessionId sequence
    sequence := sequence
    turnId := some turnId
    kind := card.kind
    text := E.redactSessionText card.text
    payload := card.payload.map E.redactSessionValue
    sourceKey := card.sourceKey
    createdAtMs := now }
  let db ← insertTranscript written.2 sessionId entry
  let (_, db) ← insertSessionEvent db sessionId revision sequence (.transcriptAppended entry) now
  .ok (sequence, db)

/-- The card of one effect that recovery settled. -/
def recoveryEffectCard (turnId : TurnId) (turnRevision : Nat) (text status label : String)
    (effect : String × Nat) : Card where
  kind := .failure
  text := text
  payload := some (.ofMembers [("effect_id", .string (E.redactSessionText effect.1)), ("status", .string status)])
  sourceKey := "recovery:" ++ turnId.toString ++ ":" ++ toString turnRevision ++ ":" ++ label ++ ":" ++
    toString effect.2

def recoveryCards (turnId : TurnId) (turnRevision : Nat) (started prepared : List String) : List Card :=
  { kind := .system
    text := "lease authority lost; linked turn interrupted"
    payload := some (.ofMembers [("recovery", .string "lease_lost")])
    sourceKey := "recovery:" ++ turnId.toString ++ ":" ++ toString turnRevision ++ ":interrupted" } ::
  (started.zipIdx.map (recoveryEffectCard E turnId turnRevision
      "effect outcome unknown; reconciliation required" "unknown" "unknown") ++
    prepared.zipIdx.map (recoveryEffectCard E turnId turnRevision
      "prepared effect terminalized before external execution" "not_started" "prepared"))

/-- The v2 half of stale-run recovery, inside the transaction of the v1 interruption. -/
def interruptStaleTurn (db : E.Db) (sessionId : SessionId) (turnId : TurnId) (session : SessionRow)
    (turn : TurnRow) (expectedToken now : Nat) : Except StorageError (SessionCommitResponse × E.Db) := do
  let started := effectIds db turnId .started
  let prepared := effectIds db turnId .prepared
  toI64s [now]
  let db := settleEffects db turnId now
  let revision ← addOr turn.state.revision 1 "revision overflow during recovery"
  let interrupted := { turn.state with
    status := .interrupted
    revision := revision
    pendingInput := none
    pendingPermission := none }
  let db ← appendLinkedTurnTransition db turn.state interrupted turn.lastSeq expectedToken now
  let db := { db with
    sessionTurns := db.sessionTurns.modify turnId fun row =>
      if row.sessionId = sessionId then { row with completedAtMs := some now } else row
    sessionActiveTurns := db.sessionActiveTurns.deleteWhere fun key row =>
      key = sessionId && row.turnId = turnId && row.leaseToken = expectedToken }
  let nextSessionRevision ← addOr session.revision 1 "session revision overflow during recovery"
  let (sequence, db) ← (recoveryCards E turnId turn.state.revision started prepared).foldlM
    (appendCard E sessionId turnId nextSessionRevision now) (session.lastSeq, db)
  let nextSequence ← addOr sequence 1 "session sequence overflow during recovery"
  let (stored, db) ← insertSessionEvent db sessionId nextSessionRevision nextSequence
    (match started.head? with
      | some effectId => .reconciliationRequired turnId (E.redactSessionText effectId)
      | none => .lifecycleChanged .interrupted (some turnId)) now
  let db := { db with
    sessions := db.sessions.modify sessionId fun row =>
      { row with
        revision := nextSessionRevision
        lastSeq := nextSequence
        lifecycle := if started.isEmpty then .interrupted else .reconciliationRequired
        latestTurnId := some turnId
        updatedAtMs := now } }
  let snapshot ← sessionSnapshot E db sessionId none 100
  .ok (⟨snapshot, stored⟩, db)

def recoverLinkedSessionTurn (db : E.Db) (sessionId : SessionId) (turnId : TurnId) (expectedToken : Nat)
    (expectedTurnRevision : Option Nat) (now : Nat) :
    Except StorageError (Option SessionCommitResponse × E.Db) := do
  match ← staleTurn db sessionId turnId expectedToken expectedTurnRevision with
  | none => .ok (none, db)
  | some turn => do
      let session ← require (db.sessions.get? sessionId) (.sessionNotFound sessionId)
      let (response, db) ← interruptStaleTurn E db sessionId turnId session turn expectedToken now
      .ok (some response, db)

def recoverSessionAfterLeaseLoss (db : E.Db) (sessionId : SessionId) (turnId : TurnId)
    (lostLease : Lease) (expectedTurnRevision now : Nat) :
    Except StorageError (SessionLeaseLossRecovery × E.Db) := do
  requireLeaseScope lostLease (sessionLeaseScope sessionId)
  toI64s [lostLease.fencingToken, now]
  ensure (db.authoritative (sessionLeaseScope sessionId) lostLease.owner lostLease.fencingToken now = false)
    (.invalidData "lease is still authoritative")
  let turn ← require (db.turns.get? turnId) (.turnNotFound turnId)
  if turn.state.status.terminal then do
    let snapshot ← currentSessionSnapshot E db sessionId SESSION_PROJECTION_TRANSCRIPT_LIMIT
    .ok (.alreadyTerminal snapshot, db)
  else do
    let (response, db) ← recoverLinkedSessionTurn E db sessionId turnId lostLease.fencingToken
      (some expectedTurnRevision) now
    match response with
    | some response => .ok (.recovered response, db)
    | none => .ok (.fencedNoop, db)

section Startup

variable {D : Type} (db : Database D)

def linked (turnId : TurnId) : Bool := (db.sessionTurns.get? turnId).isSome

/-- Some unexpired lease of the scope carries this token. -/
def liveToken (scope : LeaseScope) (token now : Nat) : Bool :=
  db.runtimeLease.holds scope fun row => row.fencingToken = token && decide (row.expiresAtMs > now)

/-- Active children under a nonzero token without a live lease. -/
def staleActiveTurns (now : Nat) : List (SessionId × TurnId × Nat) :=
  db.sessionActiveTurns.rows.filterMap fun (sessionId, active) =>
    (db.turns.get? active.turnId).bind fun turn =>
      if turn.status ∈ [.queued, .running, .cancelling, .waitingPermission, .waitingInput] ∧
          turn.leaseToken ≠ 0 ∧ liveToken db (sessionLeaseScope sessionId) turn.leaseToken now = false then
        some (sessionId, active.turnId, turn.leaseToken)
      else none

/-- Direct v1 turns that run without a live `runtime` lease. -/
def staleLegacyTurns (now : Nat) : List (TurnId × TurnRow) :=
  db.turns.select fun turnId turn =>
    (turn.status = .running || turn.status = .cancelling) && !linked db turnId &&
      !liveToken db .runtime turn.leaseToken now

def interruptLegacyTurn (now : Nat) (stale : TurnId × TurnRow) : Except StorageError (Database D) := do
  let revision ← addOr stale.2.state.revision 1 "revision overflow during recovery"
  let state := { stale.2.state with status := .interrupted, revision := revision }
  let sequence ← addOr stale.2.lastSeq 1 "event sequence overflow during recovery"
  toI64s [sequence, revision, now]
  unique (db.events.get? (stale.1, sequence) = none) "events.turn_id, events.seq"
  .ok { db with
    events := db.events.add (stale.1, sequence)
      ⟨revision, ⟨PROTOCOL_VERSION, state.turnId, revision, .stateChanged .interrupted⟩, now⟩
    turns := db.turns.modify stale.1 fun row =>
      { row with state := state, status := .interrupted, revision := revision, lastSeq := sequence }
    turnReadModel := db.turnReadModel.modify stale.1 fun _ => ⟨revision, sequence, state⟩
    effects := db.effects.mapRows fun _ row =>
      if row.turnId = stale.1 && row.status = .started then { row with status := .unknown } else row }

end Startup

/-- Recovers all expired leases, linked children first and direct v1 turns after them. -/
def recoverAt (db : E.Db) (now : Nat) : Except StorageError (List SessionCommitResponse × E.Db) := do
  toI64s [now]
  let (recovered, db) ← (staleActiveTurns db now).foldlM
    (fun (progress : List SessionCommitResponse × E.Db) stale => do
      let (response, db) ← recoverLinkedSessionTurn E progress.2 stale.1 stale.2.1 stale.2.2 none now
      .ok (progress.1 ++ response.toList, db)) ([], db)
  let db ← (staleLegacyTurns db now).foldlM (fun db stale => interruptLegacyTurn db now stale) db
  .ok (recovered, db)

section Leases

variable {D : Type} (db : Database D)

/-- The token of an acquisition: kept on a same-owner extension, minted otherwise. -/
def leaseToken (scope : LeaseScope) (owner : String) (now : Nat) :
    Except StorageError (Nat × Database D) :=
  match db.runtimeLease.get? scope with
  | some row =>
      if row.expiresAtMs > now ∧ row.owner = owner then .ok (row.fencingToken, db)
      else if row.expiresAtMs > now then .error .engineUnavailable
      else mint
  | none => mint
where
  mint : Except StorageError (Nat × Database D) := do
    let token ← addOr db.lastToken 1 "fencing token overflow"
    toI64s [token]
    .ok (token, { db with lastToken := token })

/-- Hands direct v1 turns to the `runtime` lease; linked turns are never touched here. -/
def adoptLegacyTurns (turnId : Option TurnId) (token : Nat) : Except StorageError (Database D) :=
  match turnId with
  | some turnId => do
      ensure (db.turns.get? turnId ≠ none) (.turnNotFound turnId)
      ensure (linked db turnId = false) .linkedTurnRequiresSessionCommit
      .ok { db with turns := db.turns.modify turnId fun row => { row with leaseToken := token } }
  | none => .ok { db with
      turns := db.turns.mapRows fun turnId row =>
        if row.status = .queued && !linked db turnId then { row with leaseToken := token } else row }

/-- Only the `runtime` scope adopts turns. -/
def adoptTurns (scope : LeaseScope) (turnId : Option TurnId) (token : Nat) : Except StorageError (Database D) :=
  if scope = .runtime then adoptLegacyTurns db turnId token else .ok db

def acquireScopedLease (scope : LeaseScope) (owner : String) (turnId : Option TurnId) (now ttl : Nat) :
    Except StorageError (Lease × Database D) := do
  let (token, db) ← leaseToken db scope owner now
  let expires ← addOr now ttl "lease expiry overflow"
  toI64s [token, expires]
  unique (¬ db.runtimeLease.anyRow fun other row => other ≠ scope && row.owner = owner)
    "runtime_lease.owner"
  let db := { db with runtimeLease := db.runtimeLease.put scope ⟨owner, token, expires⟩ }
  let db ← adoptTurns db scope turnId token
  .ok (⟨scope, owner, token, expires⟩, db)

def renewLease (lease : Lease) (now ttl : Nat) : Except StorageError (Lease × Database D) := do
  let expires ← addOr now ttl "lease expiry overflow"
  toI64s [expires, lease.fencingToken, now]
  ensure (db.authoritative lease.scope lease.owner lease.fencingToken now) .leaseLost
  .ok ({ lease with expiresAtMs := expires }, { db with
    runtimeLease := db.runtimeLease.modify lease.scope fun row => { row with expiresAtMs := expires } })

/-- A waiting child under this token: releasing its lease is a clean quiescence boundary. -/
def quiescible (sessionId : SessionId) (token : Nat) : Option TurnId :=
  (db.sessionActiveTurns.get? sessionId).bind fun active =>
    if active.leaseToken = token ∧ db.turns.holds active.turnId (fun turn => turn.leaseToken = token &&
        (turn.status = .waitingPermission || turn.status = .waitingInput)) then
      some active.turnId
    else none

end Leases

def releaseSession (db : E.Db) (sessionId : SessionId) (token wallNow : Nat) :
    Except StorageError (Option SessionCommitResponse × E.Db) :=
  match quiescible db sessionId token with
  | some turnId => .ok (none, { db with
      turns := db.turns.modify turnId fun row => { row with leaseToken := 0 }
      sessionActiveTurns := db.sessionActiveTurns.modify sessionId fun row => { row with leaseToken := 0 } })
  | none =>
      match db.sessionActiveTurns.get? sessionId with
      | some active =>
          if active.leaseToken = token then
            recoverLinkedSessionTurn E db sessionId active.turnId token none wallNow
          else .ok (none, db)
      | none => .ok (none, db)

/-- What a release does to the child of a session lease before the row goes. -/
def releaseScope (db : E.Db) (lease : Lease) (wallNow : Nat) :
    Except StorageError (Option SessionCommitResponse × E.Db) :=
  match lease.scope with
  | .runtime => .ok (none, db)
  | .session sessionId => do
      toI64s [lease.fencingToken]
      releaseSession E db sessionId lease.fencingToken wallNow

/-- `wallNow` is the clock `release_lease` reads itself. -/
def releaseLease (db : E.Db) (lease : Lease) (wallNow : Nat) :
    Except StorageError (Option SessionCommitResponse × E.Db) := do
  let (recovery, db) ← releaseScope E db lease wallNow
  toI64s [lease.fencingToken]
  ensure (db.runtimeLease.holds lease.scope fun row =>
    row.owner = lease.owner && row.fencingToken = lease.fencingToken) .leaseLost
  .ok (recovery, { db with
    runtimeLease := db.runtimeLease.deleteWhere fun scope row =>
      scope = lease.scope && row.owner = lease.owner && row.fencingToken = lease.fencingToken })

end LatteCode.Storage
