import LatteCode.Storage.ToolRounds
import LatteCode.Storage.Fencing
/- The import of a database of schema 9 to 12 into the current one. -/

namespace LatteCode.Storage
open Keyed Table Outcome

/-! ## The tables of the legacy schemas, with the columns that are copied -/

structure LegacyRunRow where
  state : TurnState
  status : TurnStatus
  revision : Nat
  lastSeq : Nat
  leaseToken : Nat
  createdAtMs : Nat
  updatedAtMs : Nat

structure LegacyEffectRow where
  runId : TurnId
  status : EffectStatus
  startedAtMs : Nat
  observedAtMs : Option Nat

structure LegacyThreadRow where
  revision : Nat
  lastSeq : Nat
  lifecycle : SessionLifecycle
  binding : SessionProviderBinding
  latestRunId : Option TurnId
  createdAtMs : Nat
  updatedAtMs : Nat
  title : String
  workspaceRoot : String
  parentThreadId : Option SessionId
  focus : Option String

structure LegacyThreadRunRow where
  threadId : SessionId
  parentRunId : Option TurnId
  ordinal : Nat
  completedAtMs : Option Nat

structure LegacyDatabase (Digest : Type) where
  userVersion : Nat
  runs : Table TurnId LegacyRunRow
  events : Table (TurnId × Nat) EventRow
  effects : Table String LegacyEffectRow
  evidence : Table String EvidenceRow
  runReadModel : Table TurnId ReadModelRow
  pendingPermissions : Table String PermissionRow
  runtimeCheckpoints : Table TurnId CheckpointRow
  runBaselines : Table TurnId (List (String × String))
  threads : Table SessionId LegacyThreadRow
  /-- Schema 10 added `parent_thread_id`, and schema 12 `focus`. -/
  hasParent : Bool
  hasFocus : Bool
  threadRuns : Table TurnId LegacyThreadRunRow
  threadActiveRuns : Table SessionId ActiveTurnRow
  threadEvents : Table (SessionId × Nat) SessionEventRow
  threadCommandDedup : Table SessionCommandId (CommandRow Digest)
  threadCommitSources : Table (SessionId × String) (CommitSourceRow Digest)
  threadEffectCanonical : Table String CanonicalRow
  /-- `conversation_outbox`, and `thread_transcript_v2` where that table does not exist yet. -/
  conversationOutbox : Option (Table (SessionId × Nat) OutboxRow)
  threadTranscript : Table (SessionId × Nat) OutboxRow

/-! ## The copy -/

def unconstrained {κ ρ : Type} : Table κ ρ → κ → ρ → Bool := fun _ _ _ => false

section Copy

variable {D : Type}

def importedTurn (row : LegacyRunRow) : TurnRow where
  state := row.state
  status := row.status
  revision := row.revision
  lastSeq := row.lastSeq
  leaseToken := row.leaseToken
  effectEpoch := 0
  createdAtMs := row.createdAtMs
  updatedAtMs := row.updatedAtMs

/-- The columns that are not copied are `NULL`, which is an empty text or a zero here. -/
def importedEffect (row : LegacyEffectRow) : EffectRow where
  turnId := row.runId
  status := row.status
  startedAtMs := row.startedAtMs
  descriptorJson := ""
  approvalDigest := ""
  preEvidenceJson := ""
  postEvidence := none
  preparedAtMs := 0
  observedAtMs := row.observedAtMs

def importedSession (legacy : LegacyDatabase D) (row : LegacyThreadRow) : SessionRow where
  revision := row.revision
  lastSeq := row.lastSeq
  lifecycle := row.lifecycle
  binding := row.binding
  latestTurnId := row.latestRunId
  createdAtMs := row.createdAtMs
  updatedAtMs := row.updatedAtMs
  title := row.title
  workspaceRoot := row.workspaceRoot
  focus := if legacy.hasFocus then row.focus else none
  parentSessionId := if legacy.hasParent then row.parentThreadId else none

def importedLink (row : LegacyThreadRunRow) : SessionTurnRow :=
  ⟨row.threadId, row.parentRunId, row.ordinal, row.completedAtMs, 0⟩

/-- The tool rounds of a turn that the outbox still has cards of. -/
def countedRounds (outbox : Table (SessionId × Nat) OutboxRow) (turnId : TurnId) : Nat :=
  outbox.rows.countP fun row => row.2.turnId = some turnId && row.2.kind = .assistant &&
    (row.2.entry.payload.bind (Json.get? "tool_calls")).any Json.isNonemptyArray

def clashingOutbox (outbox : Table (SessionId × Nat) OutboxRow) (key : SessionId × Nat) (row : OutboxRow) : Bool :=
  outbox.anyRow fun other held => held.entry.entryId = row.entry.entryId ||
    (other.1 = key.1 && held.sourceKey = row.sourceKey)

/-- The rows after the copy; the counters of all linked turns are rebuilt from the cards that are there then. -/
def copyLegacy (legacy : LegacyDatabase D) (db : Database D) : Database D :=
  let outbox := insertOrIgnore clashingOutbox (legacy.conversationOutbox.getD legacy.threadTranscript).rows
    db.conversationOutbox
  { db with
    turns := insertOrIgnore unconstrained (legacy.runs.rows.map fun row => (row.1, importedTurn row.2)) db.turns
    events := insertOrIgnore unconstrained legacy.events.rows db.events
    effects := insertOrIgnore unconstrained (legacy.effects.rows.map fun row => (row.1, importedEffect row.2)) db.effects
    evidence := insertOrIgnore unconstrained legacy.evidence.rows db.evidence
    turnReadModel := insertOrIgnore unconstrained legacy.runReadModel.rows db.turnReadModel
    pendingPermissions := insertOrIgnore
      (fun held _ row => held.anyRow fun _ other => other.approvalDigest = row.approvalDigest)
      legacy.pendingPermissions.rows db.pendingPermissions
    runtimeCheckpoints := insertOrIgnore unconstrained legacy.runtimeCheckpoints.rows db.runtimeCheckpoints
    turnBaselines := insertOrIgnore unconstrained legacy.runBaselines.rows db.turnBaselines
    sessions := insertOrIgnore unconstrained
      (legacy.threads.rows.map fun row => (row.1, importedSession legacy row.2)) db.sessions
    sessionTurns := (insertOrIgnore
      (fun held _ row => held.anyRow fun _ other => other.sessionId = row.sessionId && other.ordinal = row.ordinal)
      (legacy.threadRuns.rows.map fun row => (row.1, importedLink row.2)) db.sessionTurns).mapRows
        fun turnId row => { row with toolRoundCount := countedRounds outbox turnId }
    sessionActiveTurns := insertOrIgnore (fun held _ row => held.anyRow fun _ other => other.turnId = row.turnId)
      legacy.threadActiveRuns.rows db.sessionActiveTurns
    sessionEvents := insertOrIgnore unconstrained legacy.threadEvents.rows db.sessionEvents
    sessionCommandDedup := insertOrIgnore unconstrained legacy.threadCommandDedup.rows db.sessionCommandDedup
    sessionCommitSources := insertOrIgnore unconstrained legacy.threadCommitSources.rows db.sessionCommitSources
    sessionEffectCanonical := insertOrIgnore unconstrained legacy.threadEffectCanonical.rows db.sessionEffectCanonical
    conversationOutbox := outbox }

end Copy

/-! ## The import -/

def validateCatalogKey (value name : String) : Except StorageError Unit :=
  ensure (¬ (value.isEmpty ∨ value.utf8ByteSize > 256 ∨
      ¬ value.toList.all fun c => c.isAlphanum || c = '-' || c = '_'))
    (.invalidData ("invalid " ++ name))

/-- The database, with the fingerprint under which each source was imported. -/
structure Catalog (Digest : Type) where
  database : Database Digest
  legacyImports : Table String String

section Import

variable {D : Type} (catalog : Catalog D) (legacy : LegacyDatabase D) (sourcePath fingerprint workspaceRoot : String)

/-- The checks before the transaction; `own` says that the source is the current database itself. `false` is an import
that has nothing to do. -/
def admitImport (own : Bool) : Except StorageError Bool := do
  validateWorkspaceRoot workspaceRoot
  validateCatalogKey fingerprint "legacy import fingerprint"
  let previous := catalog.legacyImports.get? sourcePath
  if own || previous = some fingerprint then .ok false
  else do
    ensure (9 ≤ legacy.userVersion ∧ legacy.userVersion ≤ 12) (.invalidData
      ("legacy database schema " ++ toString legacy.userVersion ++ " cannot be imported; expected 9 through 12"))
    ensure (¬ legacy.threads.anyRow fun _ row => row.workspaceRoot ≠ workspaceRoot)
      (.invalidData "legacy database contains Sessions from another workspace")
    ensure (previous.isSome ∨ ¬ (legacy.runs.anyRow (fun turnId _ => (catalog.database.turns.get? turnId).isSome) ∨
        legacy.threads.anyRow fun sessionId _ => (catalog.database.sessions.get? sessionId).isSome))
      (.invalidData "legacy import collides with existing global identifiers")
    .ok true

def copiedCatalog : Catalog D :=
  ⟨copyLegacy legacy catalog.database, catalog.legacyImports.put sourcePath fingerprint⟩

end Import

/-- What the import answers and leaves; the copy stays when the recovery after it fails. -/
def importLegacyDatabase (E : Environment) (catalog : Catalog E.Digest) (legacy : LegacyDatabase E.Digest) (own : Bool)
    (sourcePath fingerprint workspaceRoot : String) (now : Nat) : Except StorageError Bool × Catalog E.Digest :=
  match admitImport catalog legacy sourcePath fingerprint workspaceRoot own with
  | .error error => (.error error, catalog)
  | .ok false => (.ok false, catalog)
  | .ok true =>
      match toI64s [now] with
      | .error error => (.error error, catalog)
      | .ok () =>
          let copied := copiedCatalog catalog legacy sourcePath fingerprint
          match recoverAt E copied.database now with
          | .error error => (.error error, copied)
          | .ok (_, database) => (.ok true, { copied with database })

/-! ## The tokens of a recovery -/

section Tokens

variable {D : Type} {db middle db' : Database D}

/-- Every token of a turn and of an active turn was minted by this database. -/
structure Minted (db : Database D) : Prop where
  turns : ∀ turnId turn, db.turns.get? turnId = some turn → turn.leaseToken ≤ db.lastToken
  actives : ∀ sessionId active, db.sessionActiveTurns.get? sessionId = some active → active.leaseToken ≤ db.lastToken

/-- Every turn stands under its own id. -/
def Named (db : Database D) : Prop := ∀ turnId turn, db.turns.get? turnId = some turn → turn.state.turnId = turnId

/-- A row of a turn, when states of the turn `written` are stored under a token. -/
def MovedTo (written : TurnId) (token : Nat) (turnId : TurnId) (row row' : TurnRow) : Prop :=
  (row'.leaseToken = row.leaseToken ∧ row'.state.turnId = row.state.turnId) ∨
    (turnId = written ∧ row'.leaseToken = token ∧ row'.state.turnId = written)

/-- Rows of one turn are stored under a token, no other token changes, and no active turn but these is dropped. -/
structure Stored (written : TurnId) (token : Nat) (dropped : ActiveTurnRow → Prop) (db db' : Database D) : Prop where
  last : db'.lastToken = db.lastToken
  absent : ∀ turnId, db.turns.get? turnId = none → db'.turns.get? turnId = none
  present : ∀ turnId row, db.turns.get? turnId = some row →
    ∃ row', db'.turns.get? turnId = some row' ∧ MovedTo written token turnId row row'
  kept : ∀ sessionId active, db.sessionActiveTurns.get? sessionId = some active →
    db'.sessionActiveTurns.get? sessionId = some active ∨ dropped active
  old : ∀ sessionId active, db'.sessionActiveTurns.get? sessionId = some active →
    db.sessionActiveTurns.get? sessionId = some active

theorem writeTurnState_stored {state : TurnState} {lastSeq token now : Nat} (dropped : ActiveTurnRow → Prop)
    (wrote : writeTurnState db state lastSeq token now = .ok db') : Stored state.turnId token dropped db db' := by
  simp only [writeTurnState, bind_ok, Except.ok.injEq] at wrote
  obtain ⟨mid, event, _, _, rfl⟩ := wrote
  obtain ⟨_, rfl⟩ := insertTurnEvent_ok event
  refine ⟨rfl, ?_, ?_, fun _ _ held => .inl held, fun _ _ held => held⟩
  · intro turnId missing
    simp only [Table.get?_modify, missing, Option.map_none, ite_self]
  · intro turnId row found
    simp only [Table.get?_modify, found, Option.map_some]
    split
    case isFalse => exact ⟨row, rfl, .inl ⟨rfl, rfl⟩⟩
    case isTrue here =>
      split
      case isTrue => exact ⟨_, rfl, .inr ⟨here, rfl, rfl⟩⟩
      case isFalse => exact ⟨row, rfl, .inl ⟨rfl, rfl⟩⟩

/-- A transition by one revision writes its next state and nothing else. -/
theorem appendLinkedTurnTransition_next {current next : TurnState} {lastSeq token now : Nat}
    (forward : next.revision = current.revision + 1)
    (appended : appendLinkedTurnTransition db current next lastSeq token now = .ok db') :
    writeTurnState db next (lastSeq + 1) token now = .ok db' := by
  have single : linkedTurnStates current next = .ok [next] := by
    rw [linkedTurnStates, if_neg]
    rintro ⟨two, _⟩
    omega
  simp only [appendLinkedTurnTransition, bind_ok, ensure_ok, single, Except.ok.injEq, exists_eq_left',
    List.foldlM_cons, List.foldlM_nil, addOr_ok, pure_ok, Prod.exists, Prod.mk.injEq] at appended
  obtain ⟨_, _, _, _, ⟨_, _, ⟨_, ⟨rfl, _⟩, _, wrote, rfl, rfl⟩, rfl, rfl⟩, rfl⟩ := appended
  exact wrote

end Tokens

section Recoveries

variable {E : Environment} {db db' : E.Db}

theorem interruptStaleTurn_stored {sessionId : SessionId} {turnId : TurnId} {session : SessionRow} {turn : TurnRow}
    {token now : Nat} {response : SessionCommitResponse}
    (interrupted : interruptStaleTurn E db sessionId turnId session turn token now = .ok (response, db')) :
    Stored turn.state.turnId token (fun active => active = ⟨turnId, token⟩) db db' := by
  simp only [interruptStaleTurn, bind_ok, toI64s_ok, addOr_ok, Except.ok.injEq, Prod.mk.injEq] at interrupted
  obtain ⟨_, _, _, ⟨rfl, _⟩, moved, appended, _, ⟨rfl, _⟩, ⟨last, carded⟩, folded, _, ⟨rfl, _⟩,
    ⟨stored, logged⟩, final, snapshot, _, _, rfl⟩ := interrupted
  obtain ⟨_, _, rfl⟩ := insertSessionEvent_ok final
  obtain ⟨_, _, _, frame, _⟩ := appendCards_ok folded
  rw [frame]
  have wrote := appendLinkedTurnTransition_next rfl appended
  have written := writeTurnState_stored (fun _ => False) wrote
  refine ⟨written.last, written.absent, written.present, ?_, ?_⟩
  · intro key active held
    rcases written.kept key active held with still | impossible
    · by_cases dropped : active = ⟨turnId, token⟩
      · exact .inr dropped
      · left
        rw [Table.get?_deleteWhere, still, Option.filter_eq_some_iff]
        refine ⟨rfl, ?_⟩
        simp only [Bool.not_eq_true', Bool.and_eq_false_iff, decide_eq_false_iff_not]
        by_contra all
        simp only [not_or, Decidable.not_not] at all
        obtain ⟨⟨_, sameTurn⟩, sameToken⟩ := all
        exact dropped (by rw [← sameTurn, ← sameToken])
    · exact impossible.elim
  · intro key active held
    rw [Table.get?_deleteWhere] at held
    exact written.old key active (Option.filter_eq_some_iff.mp held).1

/-- The token bound survives, and what is under named rows afterwards was under them before. -/
structure TokensSettled {D : Type} (db db' : Database D) : Prop where
  minted : Minted db → Minted db'
  named : Named db → Named db'
  unminted : Named db → Minted db' → Minted db

theorem TokensSettled.refl {D : Type} (db : Database D) : TokensSettled db db := ⟨id, id, fun _ => id⟩

theorem TokensSettled.trans {D : Type} {db middle db' : Database D} (first : TokensSettled db middle)
    (second : TokensSettled middle db') : TokensSettled db db' where
  minted minted := second.minted (first.minted minted)
  named named := second.named (first.named named)
  unminted named minted := first.unminted named (second.unminted (first.named named) minted)

/-- States of a turn stored under the token it has already settle what they touch. -/
theorem Stored.settles {D : Type} {db db' : Database D} {turnId : TurnId} {turn : TurnRow}
    {dropped : ActiveTurnRow → Prop}
    (stored : Stored turn.state.turnId turn.leaseToken dropped db db')
    (found : db.turns.get? turnId = some turn)
    (owned : ∀ active, dropped active → active.leaseToken = turn.leaseToken) : TokensSettled db db' where
  minted := by
    intro minted
    constructor
    · intro key row' held'
      rw [stored.last]
      rcases found' : db.turns.get? key with _ | row
      · rw [stored.absent key found'] at held'
        cases held'
      · obtain ⟨moved, held, ⟨token, _⟩ | ⟨_, token, _⟩⟩ := stored.present key row found'
        · cases held.symm.trans held'
          exact token ▸ minted.turns key row found'
        · cases held.symm.trans held'
          exact token ▸ minted.turns turnId turn found
    · intro key active held'
      rw [stored.last]
      exact minted.actives key active (stored.old key active held')
  named := by
    intro named key row' held'
    rcases found' : db.turns.get? key with _ | row
    · rw [stored.absent key found'] at held'
      cases held'
    · obtain ⟨moved, held, ⟨_, same⟩ | ⟨here, _, same⟩⟩ := stored.present key row found'
      · cases held.symm.trans held'
        exact same.trans (named key row found')
      · cases held.symm.trans held'
        exact same.trans here.symm
  unminted := by
    intro named minted'
    have turns : ∀ key row, db.turns.get? key = some row → row.leaseToken ≤ db.lastToken := by
      intro key row found'
      obtain ⟨row', held, ⟨token, _⟩ | ⟨here, token, _⟩⟩ := stored.present key row found'
      · rw [← stored.last, ← token]
        exact minted'.turns key row' held
      · -- the turn that is written is the one that was found
        have same : key = turnId := here.trans (named turnId turn found)
        subst same
        cases found.symm.trans found'
        rw [← stored.last, ← token]
        exact minted'.turns key row' held
    refine ⟨turns, ?_⟩
    intro key active held
    rcases stored.kept key active held with still | gone
    · rw [← stored.last]
      exact minted'.actives key active still
    · rw [owned active gone]
      exact turns turnId turn found

theorem recoverLinkedSessionTurn_settles {sessionId : SessionId} {turnId : TurnId} {token now : Nat}
    {expected : Option Nat} {response : Option SessionCommitResponse}
    (recovered : recoverLinkedSessionTurn E db sessionId turnId token expected now = .ok (response, db')) :
    TokensSettled db db' := by
  simp only [recoverLinkedSessionTurn, bind_ok] at recovered
  obtain ⟨stale, chosen, rest⟩ := recovered
  cases stale with
  | none =>
      simp only [Except.ok.injEq, Prod.mk.injEq] at rest
      obtain ⟨_, rfl⟩ := rest
      exact .refl db
  | some turn =>
      simp only [bind_ok, require_ok, Except.ok.injEq, Prod.mk.injEq] at rest
      obtain ⟨session, _, ⟨answer, final⟩, interrupted, _, rfl⟩ := rest
      obtain ⟨_, found, tokened, _⟩ := staleTurn_ok chosen
      have stored := interruptStaleTurn_stored interrupted
      subst tokened
      exact stored.settles found fun active same => by rw [same]

/-- An interruption of a direct turn rewrites its state and no token. -/
theorem interruptLegacyTurn_tokens {D : Type} {db db' : Database D} {now : Nat} {stale : TurnId × TurnRow}
    (interrupted : interruptLegacyTurn db now stale = .ok db') :
    db'.lastToken = db.lastToken ∧ db'.sessionActiveTurns = db.sessionActiveTurns ∧
      ∃ f : TurnId → TurnRow → TurnRow, (∀ key, db'.turns.get? key = (db.turns.get? key).map (f key)) ∧
        ∀ key row, (f key row).leaseToken = row.leaseToken ∧ ((f key row).state.turnId = row.state.turnId ∨
          (key = stale.1 ∧ (f key row).state.turnId = stale.2.state.turnId)) := by
  simp only [interruptLegacyTurn, bind_ok, toI64s_ok, addOr_ok, unique_ok, Except.ok.injEq] at interrupted
  obtain ⟨_, ⟨rfl, _⟩, _, ⟨rfl, _⟩, _, _, _, _, rfl⟩ := interrupted
  refine ⟨rfl, rfl, _, fun key => Table.get?_mapRows _ _ key, ?_⟩
  intro key row
  split
  case isTrue here => exact ⟨rfl, .inr ⟨here, rfl⟩⟩
  case isFalse => exact ⟨rfl, .inl rfl⟩

theorem interruptLegacyTurn_minted {D : Type} {db db' : Database D} {now : Nat} {stale : TurnId × TurnRow}
    (interrupted : interruptLegacyTurn db now stale = .ok db') : Minted db' ↔ Minted db := by
  obtain ⟨last, actives, f, rows, kept⟩ := interruptLegacyTurn_tokens interrupted
  constructor
  · intro minted
    refine ⟨fun key row found => ?_, fun key active held => ?_⟩
    · have bound := minted.turns key (f key row) (by rw [rows, found, Option.map_some])
      rwa [(kept key row).1, last] at bound
    · rw [← last]
      exact minted.actives key active (by rw [actives, held])
  · intro minted
    refine ⟨fun key row' held => ?_, fun key active held => ?_⟩
    · rw [rows] at held
      obtain ⟨row, found, rfl⟩ := Option.map_eq_some_iff.mp held
      rw [(kept key row).1, last]
      exact minted.turns key row found
    · rw [actives] at held
      rw [last]
      exact minted.actives key active held

theorem interruptLegacyTurn_named {D : Type} {db db' : Database D} {now : Nat} {stale : TurnId × TurnRow}
    (interrupted : interruptLegacyTurn db now stale = .ok db') (same : stale.2.state.turnId = stale.1)
    (named : Named db) : Named db' := by
  obtain ⟨_, _, f, rows, kept⟩ := interruptLegacyTurn_tokens interrupted
  intro key row' held
  rw [rows] at held
  obtain ⟨row, found, rfl⟩ := Option.map_eq_some_iff.mp held
  rcases (kept key row).2 with still | ⟨here, moved⟩
  · exact still.trans (named key row found)
  · rw [moved, same, here]

/-- The recovery of all expired leases settles the tokens. -/
theorem recoverAt_settles {now : Nat} {responses : List SessionCommitResponse}
    (recovered : recoverAt E db now = .ok (responses, db')) : TokensSettled db db' := by
  simp only [recoverAt, bind_ok, Except.ok.injEq, Prod.mk.injEq] at recovered
  obtain ⟨_, _, ⟨answers, middle⟩, linkedTurns, final, directTurns, _, rfl⟩ := recovered
  have first : TokensSettled db middle := by
    refine foldlM_keeps (P := fun progress => TokensSettled db progress.2) ?_ (.refl db) linkedTurns
    intro stale _ before after settled step
    simp only [bind_ok, Except.ok.injEq] at step
    obtain ⟨⟨response, next⟩, recovered, rfl⟩ := step
    exact settled.trans (recoverLinkedSessionTurn_settles recovered)
  have minted : Minted final ↔ Minted middle := by
    refine foldlM_keeps (P := fun next => Minted next ↔ Minted middle) ?_ Iff.rfl directTurns
    intro stale _ before after kept step
    exact (interruptLegacyTurn_minted step).trans kept
  have named : Named middle → Named final := by
    intro rows
    refine foldlM_keeps (P := Named) ?_ rows directTurns
    intro stale listed before after kept step
    have held := ((Table.mem_select _ _).mp listed).1
    exact interruptLegacyTurn_named step (rows stale.1 stale.2 held) kept
  exact ⟨fun bound => minted.mpr (first.minted bound), fun rows => named (first.named rows),
    fun rows bound => first.unminted rows (minted.mp bound)⟩

end Recoveries

/-! ## The tokens of a copy -/

/-- What the constraints of the legacy schema and the program that wrote the file promise of it. -/
structure LegacyDatabase.WellFormed {D : Type} (legacy : LegacyDatabase D) : Prop where
  named : ∀ turnId run, legacy.runs.get? turnId = some run → run.state.turnId = turnId
  /-- `run_id TEXT NOT NULL UNIQUE` of `thread_active_runs_v2`. -/
  activeRuns : ∀ threadId other active active', legacy.threadActiveRuns.get? threadId = some active →
    legacy.threadActiveRuns.get? other = some active' → active'.turnId = active.turnId → other = threadId

/-- No row that an import copies has a token beyond the last one that this database minted. -/
structure Covers {D : Type} (db : Database D) (legacy : LegacyDatabase D) : Prop where
  turns : ∀ turnId run, legacy.runs.get? turnId = some run → db.turns.get? turnId = none →
    run.leaseToken ≤ db.lastToken
  actives : ∀ sessionId active, legacy.threadActiveRuns.get? sessionId = some active →
    db.sessionActiveTurns.get? sessionId = none →
    (∀ other held, db.sessionActiveTurns.get? other = some held → held.turnId ≠ active.turnId) →
    active.leaseToken ≤ db.lastToken

section Copies

variable {D : Type} {db : Database D} {legacy : LegacyDatabase D}

theorem mem_importedTurns {turnId : TurnId} {turn : TurnRow} :
    (turnId, turn) ∈ legacy.runs.rows.map (fun row => (row.1, importedTurn row.2)) ↔
      ∃ run, legacy.runs.get? turnId = some run ∧ importedTurn run = turn := by
  constructor
  · intro member
    obtain ⟨row, listed, same⟩ := List.mem_map.mp member
    cases same
    exact ⟨row.2, (legacy.runs.mem_rows_iff).mp listed, rfl⟩
  · rintro ⟨run, found, rfl⟩
    exact List.mem_map.mpr ⟨(turnId, run), (legacy.runs.mem_rows_iff).mpr found, rfl⟩

theorem copyLegacy_turn {turnId : TurnId} {turn : TurnRow}
    (held : (copyLegacy legacy db).turns.get? turnId = some turn) : db.turns.get? turnId = some turn ∨
      (db.turns.get? turnId = none ∧ ∃ run, legacy.runs.get? turnId = some run ∧ importedTurn run = turn) :=
  (insertOrIgnore_new held).imp id fun new => ⟨new.1, mem_importedTurns.mp new.2.1⟩

/-- An active row is copied when neither its session nor its turn is active yet. -/
theorem copyLegacy_active (distinct : legacy.WellFormed) {sessionId : SessionId} {active : ActiveTurnRow}
    (found : legacy.threadActiveRuns.get? sessionId = some active)
    (idle : db.sessionActiveTurns.get? sessionId = none)
    (inactive : ∀ other held, db.sessionActiveTurns.get? other = some held → held.turnId ≠ active.turnId) :
    (copyLegacy legacy db).sessionActiveTurns.get? sessionId = some active := by
  refine insertOrIgnore_stored legacy.threadActiveRuns.keys_nodup idle (mem_of_get? _ found) ?_
  intro t bounded
  rw [Bool.eq_false_iff]
  intro clashes
  obtain ⟨other, held, stored, same⟩ := (anyRow_iff _ _).mp clashes
  have shared : held.turnId = active.turnId := of_decide_eq_true same
  rcases bounded other held stored with old | ⟨listed, apart⟩
  · exact inactive other held old shared
  · exact apart (distinct.activeRuns sessionId other active held found (get?_of_mem _ listed) shared)

theorem copyLegacy_named (named : Named db) (wellFormed : legacy.WellFormed) : Named (copyLegacy legacy db) := by
  intro turnId turn held
  rcases copyLegacy_turn held with old | ⟨_, run, found, rfl⟩
  · exact named turnId turn old
  · exact wellFormed.named turnId run found

theorem Covers.minted (covers : Covers db legacy) (minted : Minted db) : Minted (copyLegacy legacy db) := by
  constructor
  · intro turnId turn held
    rcases copyLegacy_turn held with old | ⟨free, run, found, rfl⟩
    · exact minted.turns turnId turn old
    · exact covers.turns turnId run found free
  · intro sessionId active held
    rcases insertOrIgnore_new held with old | ⟨idle, listed, t, grown, clear⟩
    · exact minted.actives sessionId active old
    · refine covers.actives sessionId active (get?_of_mem _ listed) idle fun other row stored same => ?_
      have clashes := (anyRow_iff t fun _ held => decide (held.turnId = active.turnId)).mpr
        ⟨other, row, grown other row stored, decide_eq_true same⟩
      exact absurd (clashes.symm.trans clear) (by decide)

theorem Minted.covers (wellFormed : legacy.WellFormed) (minted : Minted (copyLegacy legacy db)) : Covers db legacy := by
  constructor
  · intro turnId run found free
    have distinct : ((legacy.runs.rows.map fun row => (row.1, importedTurn row.2)).map Prod.fst).Nodup := by
      rw [List.map_map]
      exact legacy.runs.keys_nodup
    exact minted.turns turnId (importedTurn run)
      (insertOrIgnore_stored distinct free (mem_importedTurns.mpr ⟨run, found, rfl⟩) fun _ _ => rfl)
  · intro sessionId active found idle inactive
    exact minted.actives sessionId active (copyLegacy_active wellFormed found idle inactive)

end Copies

/-! ## The tokens of an import -/

section Imports

variable {E : Environment} {catalog : Catalog E.Digest} {legacy : LegacyDatabase E.Digest}

/-- An import that is refused or has nothing to do leaves the catalog; any other copies, and may recover. -/
theorem importLegacyDatabase_settles (own : Bool) (sourcePath fingerprint workspaceRoot : String) (now : Nat) :
    if admitImport catalog legacy sourcePath fingerprint workspaceRoot own = .ok true ∧ now < 2 ^ 63 then
      TokensSettled (copyLegacy legacy catalog.database)
        (importLegacyDatabase E catalog legacy own sourcePath fingerprint workspaceRoot now).2.database
    else (importLegacyDatabase E catalog legacy own sourcePath fingerprint workspaceRoot now).2 = catalog := by
  unfold importLegacyDatabase
  rcases admitted : admitImport catalog legacy sourcePath fingerprint workspaceRoot own with error | _ | _
  · rw [if_neg fun both => nomatch both.1]
  · rw [if_neg fun both => nomatch both.1]
  · rcases ranged : toI64s [now] with error | ⟨⟩
    · have late : ¬ now < 2 ^ 63 := by
        intro early
        have fits : toI64s [now] = .ok () := toI64s_ok.mpr (by simpa using early)
        rw [fits] at ranged
        cases ranged
      rw [if_neg fun both => late both.2]
    · have early : now < 2 ^ 63 := toI64s_ok.mp ranged now List.mem_cons_self
      rw [if_pos ⟨rfl, early⟩]
      dsimp only
      rcases recovered : recoverAt E (copiedCatalog catalog legacy sourcePath fingerprint).database now with
        error | ⟨responses, database⟩
      · exact .refl _
      · exact recoverAt_settles recovered

/-- A token that passes under a lease is no reason to refuse its commit: what is left is another turn, or none. -/
theorem checkFences_passes {D : Type} {db : Database D} {request : SessionCommitRequest} {lease : Lease} {now : Nat}
    (turns : ∀ turnId turn, db.turns.get? turnId = some turn → turn.leaseToken ≤ lease.fencingToken)
    (actives : ∀ sessionId active, db.sessionActiveTurns.get? sessionId = some active →
      active.leaseToken ≤ lease.fencingToken)
    (live : requireAuthority db (sessionLeaseScope request.sessionId) now lease = .ok ()) :
    checkFences db request lease now ≠ .error .leaseLost ∧
      (checkFences db request lease now = .error .sessionActiveTurnMismatch →
        ∀ active, db.sessionActiveTurns.get? request.sessionId = some active → active.turnId ≠ request.turnId) := by
  constructor
  · intro lost
    simp only [checkFences, bind_error, live, require_error, ensure_error, ensure_ok, require_ok, queryRow, reduceCtorEq,
      and_false, false_or, exists_false, or_false, and_true] at lost
    obtain ⟨_, _, _, _, _, _, _, _, turn, found, refused⟩ := lost
    exact refused (turns _ turn found)
  · intro mismatch active held same
    simp only [checkFences, bind_error, live, require_error, ensure_error, ensure_ok, require_ok, queryRow, reduceCtorEq,
      and_false, false_or, exists_false, or_false, and_true] at mismatch
    obtain ⟨_, _, _, _, _, _, refused⟩ := mismatch
    rw [held] at refused
    refine refused ?_
    rw [activeTurnMatches, Bool.and_eq_true, decide_eq_true_eq, decide_eq_true_eq]
    exact ⟨same, actives _ active held⟩

/-- A new lease of a session is above every token that was minted. -/
theorem acquired_above {D : Type} {db db' : Database D} {sessionId : SessionId} {owner : String} {now ttl : Nat}
    {lease : Lease} (minted : Minted db)
    (fresh : extendsLease db (sessionLeaseScope sessionId) owner now = false)
    (acquired : acquireScopedLease db (sessionLeaseScope sessionId) owner none now ttl = .ok (lease, db')) :
    (∀ turnId turn, db'.turns.get? turnId = some turn → turn.leaseToken ≤ lease.fencingToken) ∧
      ∀ other active, db'.sessionActiveTurns.get? other = some active → active.leaseToken ≤ lease.fencingToken := by
  have done := acquireScopedLease_ok acquired
  have token : lease.fencingToken = db.lastToken + 1 := by
    rcases done.tokened with ⟨row, found, unexpired, owned, _⟩ | ⟨_, token, _⟩
    · have extension : extendsLease db (sessionLeaseScope sessionId) owner now = true := by
        refine (Table.holds_iff _ _ _).mpr ⟨row, found, ?_⟩
        rw [Bool.and_eq_true, decide_eq_true_eq, decide_eq_true_eq]
        exact ⟨unexpired, owned⟩
      exact absurd (extension.symm.trans fresh) (by decide)
    · exact token
  constructor
  · intro turnId turn held
    obtain ⟨adopted, _, rows⟩ := done.turns
    rw [rows] at held
    obtain ⟨row, found, rfl⟩ := Option.map_eq_some_iff.mp held
    have bound := minted.turns turnId row found
    split
    · exact Nat.le_refl _
    · omega
  · intro other active held
    rw [done.frame] at held
    have bound := minted.actives other active held
    omega

/-- Nothing that is stored refuses a commit under a new lease of a session for its token. -/
def FreshLeasePasses {D : Type} (db : Database D) : Prop :=
  ∀ owner now ttl clock (request : SessionCommitRequest) lease db',
    extendsLease db (sessionLeaseScope request.sessionId) owner now = false →
    acquireScopedLease db (sessionLeaseScope request.sessionId) owner none now ttl = .ok (lease, db') →
    requireAuthority db' (sessionLeaseScope request.sessionId) clock lease = .ok () →
    checkFences db' request lease clock ≠ .error .leaseLost ∧
      (checkFences db' request lease clock = .error .sessionActiveTurnMismatch →
        ∀ active, db'.sessionActiveTurns.get? request.sessionId = some active → active.turnId ≠ request.turnId)

theorem Minted.passes {D : Type} {db : Database D} (minted : Minted db) : FreshLeasePasses db := by
  intro owner now ttl clock request lease db' fresh acquired live
  obtain ⟨turns, actives⟩ := acquired_above minted fresh acquired
  exact checkFences_passes turns actives live

/-- An import keeps the tokens within the epoch exactly when it copies no token beyond it, and then no new session
lease is refused for a token. -/
theorem import_minted_iff (own : Bool) (sourcePath fingerprint workspaceRoot : String) (now : Nat)
    (minted : Minted catalog.database) (named : Named catalog.database) (wellFormed : legacy.WellFormed) :
    (Minted (importLegacyDatabase E catalog legacy own sourcePath fingerprint workspaceRoot now).2.database ↔
      (admitImport catalog legacy sourcePath fingerprint workspaceRoot own = .ok true ∧ now < 2 ^ 63 →
        Covers catalog.database legacy)) ∧
    (Minted (importLegacyDatabase E catalog legacy own sourcePath fingerprint workspaceRoot now).2.database →
      FreshLeasePasses (importLegacyDatabase E catalog legacy own sourcePath fingerprint workspaceRoot now).2.database) := by
  refine ⟨?_, Minted.passes⟩
  have done := @importLegacyDatabase_settles E catalog legacy own sourcePath fingerprint workspaceRoot now
  split at done
  case isTrue admitted =>
    constructor
    · intro bound _
      exact (done.unminted (copyLegacy_named named wellFormed) bound).covers wellFormed
    · intro covers
      exact done.minted ((covers admitted).minted minted)
  case isFalse refused =>
    rw [done]
    exact ⟨fun _ admitted => absurd admitted refused, fun _ => minted⟩

end Imports

/-! ## A file that the program wrote before schema 13 -/

/-- The rows of a database under the names and columns of schema 12. -/
def legacyLayout {D : Type} (db : Database D) : LegacyDatabase D where
  userVersion := 12
  runs := insertOrIgnore unconstrained (db.turns.rows.map fun row => (row.1,
    ⟨row.2.state, row.2.status, row.2.revision, row.2.lastSeq, row.2.leaseToken, row.2.createdAtMs,
      row.2.updatedAtMs⟩)) .empty
  events := db.events
  effects := insertOrIgnore unconstrained (db.effects.rows.map fun row => (row.1,
    ⟨row.2.turnId, row.2.status, row.2.startedAtMs, row.2.observedAtMs⟩)) .empty
  evidence := db.evidence
  runReadModel := db.turnReadModel
  pendingPermissions := db.pendingPermissions
  runtimeCheckpoints := db.runtimeCheckpoints
  runBaselines := db.turnBaselines
  threads := insertOrIgnore unconstrained (db.sessions.rows.map fun row => (row.1,
    ⟨row.2.revision, row.2.lastSeq, row.2.lifecycle, row.2.binding, row.2.latestTurnId, row.2.createdAtMs,
      row.2.updatedAtMs, row.2.title, row.2.workspaceRoot, row.2.parentSessionId, row.2.focus⟩)) .empty
  hasParent := true
  hasFocus := true
  threadRuns := insertOrIgnore unconstrained (db.sessionTurns.rows.map fun row => (row.1,
    ⟨row.2.sessionId, row.2.parentTurnId, row.2.ordinal, row.2.completedAtMs⟩)) .empty
  threadActiveRuns := db.sessionActiveTurns
  threadEvents := db.sessionEvents
  threadCommandDedup := db.sessionCommandDedup
  threadCommitSources := db.sessionCommitSources
  threadEffectCanonical := db.sessionEffectCanonical
  conversationOutbox := some db.conversationOutbox
  threadTranscript := .empty

/-- A second coordinator of another file: its lease is the second that was minted there. -/
def writerLease : Lease := ⟨sessionLeaseScope sampleSession, "engine", 2, 100⟩

def writerRun : List Operation := [
  .acquireLease .runtime "other" none 0 100,
  .acquireLease (sessionLeaseScope sampleSession) "engine" none 0 100,
  .createSession sampleCreate (some writerLease) 1,
  .commit (sampleRequest 0 1 1 (.complete "done" ⟨"done", [], []⟩)) writerLease 2]

def writerFile : LegacyDatabase plain.Digest := legacyLayout (runOf plain writerRun)

def emptyCatalog : Catalog plain.Digest := ⟨.empty plain.Digest, .empty⟩

def fileImport : Except StorageError Bool × Catalog plain.Digest :=
  importLegacyDatabase plain emptyCatalog writerFile false "/old/catalog.db" "f" "/workspace" 50

/-- The card of a compaction of the idle session. -/
def compactionRequest : SessionCommitRequest :=
  sampleRequest 9 2 2 (.appendTranscript "compact" .compactSummary "summary" none)

theorem writerFile_wellFormed : writerFile.WellFormed := by
  have named : ∀ row ∈ writerFile.runs.rows, row.2.state.turnId = row.1 := by decide +kernel
  have idle : writerFile.threadActiveRuns.rows.isEmpty = true := by decide +kernel
  constructor
  · intro turnId run found
    exact named (turnId, run) (mem_of_get? _ found)
  · intro threadId other active active' found
    have listed := mem_of_get? _ found
    rw [List.isEmpty_iff.mp idle] at listed
    cases listed

theorem emptyCatalog_minted : Minted emptyCatalog.database ∧ Named emptyCatalog.database := by
  refine ⟨⟨?_, ?_⟩, ?_⟩
  · intro turnId turn found
    exact absurd (found.symm.trans (get?_empty turnId)) (by simp)
  · intro sessionId active held
    exact absurd (held.symm.trans (get?_empty sessionId)) (by simp)
  · intro turnId turn found
    exact absurd (found.symm.trans (get?_empty turnId)) (by simp)

theorem import_minted_writer :
    (Minted fileImport.2.database ↔
      (admitImport emptyCatalog writerFile "/old/catalog.db" "f" "/workspace" false = .ok true ∧ 50 < 2 ^ 63 →
        Covers emptyCatalog.database writerFile)) ∧
    (Minted fileImport.2.database → FreshLeasePasses fileImport.2.database) :=
  import_minted_iff false "/old/catalog.db" "f" "/workspace" 50 emptyCatalog_minted.1 emptyCatalog_minted.2
    writerFile_wellFormed

/-- The imported turn keeps the token 2 of its old file, where nothing was minted yet: the compaction card of a new
lease is refused. -/
theorem import_unminted : Minted emptyCatalog.database ∧ writerFile.WellFormed ∧ fileImport.1.toOption = some true ∧
    ¬ Minted fileImport.2.database ∧ ¬ FreshLeasePasses fileImport.2.database := by
  have token : (fileImport.2.database.turns.get? sampleTurn).map TurnRow.leaseToken = some 2 := by decide +kernel
  have last : fileImport.2.database.lastToken = 0 := by decide +kernel
  refine ⟨emptyCatalog_minted.1, writerFile_wellFormed, by decide +kernel, ?_, ?_⟩
  · intro minted
    obtain ⟨turn, found, two⟩ := Option.map_eq_some_iff.mp token
    have bound := minted.turns sampleTurn turn found
    rw [two, last] at bound
    exact absurd bound (by decide)
  · intro passes
    have fresh : extendsLease fileImport.2.database (sessionLeaseScope sampleSession) "engine" 60 = false := by
      decide +kernel
    have refused : (match acquireScopedLease fileImport.2.database (sessionLeaseScope sampleSession) "engine" none 60
          100 with
        | .ok (lease, db') => decide (requireAuthority db' (sessionLeaseScope sampleSession) 70 lease = .ok ()) &&
            decide ((checkFences db' compactionRequest lease 70).map (fun _ => ()) = .error .leaseLost)
        | .error _ => false) = true := by decide +kernel
    rcases acquired : acquireScopedLease fileImport.2.database (sessionLeaseScope sampleSession) "engine" none 60 100 with
      error | ⟨lease, db'⟩
    · rw [acquired] at refused
      cases refused
    · rw [acquired] at refused
      dsimp only at refused
      rw [Bool.and_eq_true, decide_eq_true_eq, decide_eq_true_eq, map_error] at refused
      exact (passes "engine" 60 100 70 compactionRequest lease db' fresh acquired refused.1).1 refused.2

end LatteCode.Storage
