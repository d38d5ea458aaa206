import LatteCode.Storage.Identity
import LatteCode.Storage.SessionLog
import LatteCode.Storage.Fencing
/- The deduplication tables: what a command that was committed once is answered. -/

namespace LatteCode.Storage
open Keyed Outcome Numbered Relation Runs

variable {E : Environment} {db middle db' : E.Db}

/-- What a change adds to the deduplication tables. -/
inductive CommandsChange (db db' : E.Db) : Prop
  | same (commands : db'.sessionCommandDedup = db.sessionCommandDedup)
      (sources : db'.sessionCommitSources = db.sessionCommitSources)
  | accepted {commandId : SessionCommandId} {digest : E.Digest} {snapshot : SessionSnapshot} {now : Nat}
      (fresh : db.sessionCommandDedup.get? commandId = none)
      (commands : db'.sessionCommandDedup =
        db.sessionCommandDedup.add commandId ⟨digest, .snapshot snapshot, now⟩)
      (sources : db'.sessionCommitSources = db.sessionCommitSources)
  | committed {request : SessionCommitRequest} {response : SessionCommitResponse} {now : Nat}
      {session session' : SessionRow} (fresh : db.sessionCommandDedup.get? request.commandId = none)
      (freshSource : db.sessionCommitSources.get? (request.sessionId, request.update.sourceKey) = none)
      (before : db.sessions.get? request.sessionId = some session)
      (after : db'.sessions.get? request.sessionId = some session')
      (next : session'.lastSeq = session.lastSeq + 1)
      (responded : response.snapshot.sessionId = request.sessionId ∧ response.snapshot.sequence = session'.lastSeq)
      (commands : db'.sessionCommandDedup = db.sessionCommandDedup.add request.commandId
        ⟨sessionCommandDigest E request, .response response, now⟩)
      (sources : db'.sessionCommitSources = db.sessionCommitSources.add (request.sessionId, request.update.sourceKey)
        ⟨sessionCommandDigest E request, response⟩)
  | aliased {request : SessionCommitRequest} {source : CommitSourceRow E.Digest} {now : Nat}
      (found : db.sessionCommitSources.get? (request.sessionId, request.update.sourceKey) = some source)
      (digest : source.digest = sessionCommandDigest E request)
      (fresh : db.sessionCommandDedup.get? request.commandId = none)
      (commands : db'.sessionCommandDedup = db.sessionCommandDedup.add request.commandId
        ⟨sessionCommandDigest E request, .response source.response, now⟩)
      (sources : db'.sessionCommitSources = db.sessionCommitSources)

theorem CommandRecorded.commands_change {commandId : Option SessionCommandId} {digest : E.Digest}
    {snapshot : SessionSnapshot} {now : Nat}
    (recorded : CommandRecorded db db' commandId ⟨digest, .snapshot snapshot, now⟩)
    (sources : db'.sessionCommitSources = db.sessionCommitSources) : CommandsChange db db' := by
  cases commandId with
  | none => exact .same recorded.commands sources
  | some commandId => exact .accepted (recorded.fresh commandId rfl) recorded.commands sources

theorem Change.commands (change : Change E db db') : CommandsChange db db' := by
  cases change with
  | @committed request _ now _ _ _ _ _ _ _ _ response done =>
      have commands : db'.sessionCommandDedup = db.sessionCommandDedup.add request.commandId
          ⟨sessionCommandDigest E request, .response response, now⟩ := by rw [done.frame]
      refine .committed done.freshCommand done.freshSource done.admitted.foundSession ?_ ?_ done.responded
        commands (by rw [done.frame])
      · rw [done.sessions, if_pos rfl]
      · rw [done.moved]
        rfl
  | other done =>
      cases done with
      | created done => exact done.recorded.commands_change (by rw [done.frame])
      | followedUp done => exact done.recorded.commands_change (by rw [done.frame])
      | aliased _ _ _ found same fresh done =>
          subst done
          exact .aliased found same fresh rfl rfl
      | switched done | forked done | interrupted done | acquired done =>
          rw [done.frame]
          exact .same rfl rfl
      | retired done | quiesced done =>
          rw [done.result]
          exact .same rfl rfl
      | renewed _ _ done | released _ done | renamed _ _ done | acknowledged _ done | evidenced _ done
      | runCreated _ _ _ _ _ done =>
          subst done
          exact .same rfl rfl

/-- A key that holds a row keeps it when another row is added. -/
theorem add_kept {κ ρ : Type} [DecidableEq κ] {table : Table κ ρ} {key added : κ} {row new : ρ}
    (found : table.get? key = some row) (fresh : table.get? added = none) :
    (table.add added new).get? key = some row := by
  rw [Table.get?_add_fresh _ _ fresh, if_neg]
  · exact found
  · rintro rfl
    rw [fresh] at found
    cases found

/-- Both tables only grow. -/
structure CommandsKept (db db' : E.Db) : Prop where
  commands : ∀ commandId row, db.sessionCommandDedup.get? commandId = some row →
    db'.sessionCommandDedup.get? commandId = some row
  sources : ∀ key row, db.sessionCommitSources.get? key = some row → db'.sessionCommitSources.get? key = some row

theorem CommandsKept.refl (db : E.Db) : CommandsKept db db := ⟨fun _ _ => id, fun _ _ => id⟩

theorem CommandsKept.trans (first : CommandsKept db middle) (second : CommandsKept middle db') :
    CommandsKept db db' :=
  ⟨fun commandId row found => second.commands commandId row (first.commands commandId row found),
    fun key row found => second.sources key row (first.sources key row found)⟩

theorem CommandsChange.kept (change : CommandsChange db db') : CommandsKept db db' := by
  cases change with
  | same commands sources => exact ⟨fun _ _ found => commands ▸ found, fun _ _ found => sources ▸ found⟩
  | accepted fresh commands sources =>
      exact ⟨fun _ _ found => commands ▸ add_kept found fresh, fun _ _ found => sources ▸ found⟩
  | committed fresh freshSource _ _ _ _ commands sources =>
      exact ⟨fun _ _ found => commands ▸ add_kept found fresh, fun _ _ found => sources ▸ add_kept found freshSource⟩
  | aliased _ _ fresh commands sources =>
      exact ⟨fun _ _ found => commands ▸ add_kept found fresh, fun _ _ found => sources ▸ found⟩

theorem Housekeeping.path_commands_kept (path : ReflTransGen (Housekeeping E) db db') : CommandsKept db db' := by
  induction path with
  | refl => exact .refl db
  | tail _ change ih => exact ih.trans (Change.commands (.other change.uncommitted)).kept

theorem run_commands_kept (ops : List Operation) {i j : Nat} (order : i ≤ j) (bound : j ≤ ops.length) :
    CommandsKept (dbAt E ops i) (dbAt E ops j) := by
  refine Runs.monotone (R := CommandsKept) .refl (fun first second => first.trans second) ?_ order bound
  intro k inside
  rw [stateAt_succ inside]
  rcases step_change (reachable_dbAt ops k) ops[k] with change | path
  · exact change.commands.kept
  · exact Housekeeping.path_commands_kept path

theorem Committed.source_recorded {request : SessionCommitRequest} {lease : Lease} {now : Nat}
    {session session' : SessionRow} {turn row : TurnRow} {draft : Draft} {mid : E.Db} {states : List TurnState}
    {cards : List TranscriptEntry} {response : SessionCommitResponse}
    (done : Committed E request lease now db db' session session' turn row draft mid states cards response) :
    db'.sessionCommitSources.get? (request.sessionId, request.update.sourceKey) =
      some ⟨sessionCommandDigest E request, response⟩ := by
  rw [done.frame]
  simp only [Table.get?_add_fresh _ _ done.freshSource, if_true]

/-! ## Command identity -/

/-- A commit that returns a response leaves it recorded under the command, with the digest of the request. -/
theorem commit_recorded {request : SessionCommitRequest} {lease : Lease} {now : Nat}
    {response : SessionCommitResponse} (mirrored : Mirrored db)
    (committed : commitSessionTurnUpdate E request lease now db = .ok (response, db')) :
    ∃ row, db'.sessionCommandDedup.get? request.commandId = some row ∧
      row.digest = sessionCommandDigest E request ∧ row.result = .response response := by
  rcases (commitSessionTurnUpdate_ok mirrored committed).2 with
    ⟨row, found, digest, result, rfl⟩ | ⟨absent, _, _, _, _, rfl⟩ | ⟨_, _, _, _, _, _, _, _, done⟩
  · exact ⟨row, found, digest, result⟩
  · refine ⟨⟨sessionCommandDigest E request, .response response, now⟩, ?_, rfl, rfl⟩
    simp only [Table.get?_add_fresh _ _ absent, if_true]
  · refine ⟨⟨sessionCommandDigest E request, .response response, now⟩, ?_, rfl, rfl⟩
    rw [done.frame]
    simp only [Table.get?_add_fresh _ _ done.freshCommand, if_true]

/-- What a later submission under a command id that has answered `response` gets, in a database that it never
changes. -/
structure CommandAnswered (E : Environment) (db : E.Db) (request request' : SessionCommitRequest)
    (response : SessionCommitResponse) (lease : Lease) (now : Nat) : Prop where
  unchanged : step E db (.commit request' lease now) = db
  scope : lease.scope ≠ sessionLeaseScope request'.sessionId →
    exec E db (.commit request' lease now) = .error .leaseLost
  source : lease.scope = sessionLeaseScope request'.sessionId → ∀ error,
    validateSessionSource request'.update.sourceKey = .error error →
      exec E db (.commit request' lease now) = .error error
  same : lease.scope = sessionLeaseScope request'.sessionId →
    validateSessionSource request'.update.sourceKey = .ok () → SameCommand E request request' →
      exec E db (.commit request' lease now) = .ok (.committed response, db)
  differs : lease.scope = sessionLeaseScope request'.sessionId →
    validateSessionSource request'.update.sourceKey = .ok () → ¬ SameCommand E request request' →
      exec E db (.commit request' lease now) = .error .sessionCommandReplayMismatch

/-- A recorded command answers by its digest. -/
theorem command_answered (collisionFree : Function.Injective E.sha256) {request request' : SessionCommitRequest}
    {response : SessionCommitResponse} {row : CommandRow E.Digest} (lease : Lease) (now : Nat)
    (named : request'.commandId = request.commandId)
    (found : db.sessionCommandDedup.get? request.commandId = some row)
    (digest : row.digest = sessionCommandDigest E request) (result : row.result = .response response) :
    CommandAnswered E db request request' response lease now := by
  have digests : row.digest = sessionCommandDigest E request' ↔ SameCommand E request request' := by
    rw [digest, sessionCommandDigest_eq collisionFree]
    exact ⟨And.right, fun same => ⟨named.symm, same⟩⟩
  have answer : lease.scope = sessionLeaseScope request'.sessionId →
      validateSessionSource request'.update.sourceKey = .ok () →
      commitSessionTurnUpdate E request' lease now db = replayCommand E request' db row := by
    intro scope source
    simp only [commitSessionTurnUpdate, requireLeaseScope, ensure, if_pos scope, source, named, found]
    rfl
  have wrongScope : lease.scope ≠ sessionLeaseScope request'.sessionId →
      exec E db (.commit request' lease now) = .error .leaseLost := by
    intro scope
    simp only [exec, commitSessionTurnUpdate, requireLeaseScope, ensure, if_neg scope]
    rfl
  have wrongSource : lease.scope = sessionLeaseScope request'.sessionId → ∀ error,
      validateSessionSource request'.update.sourceKey = .error error →
        exec E db (.commit request' lease now) = .error error := by
    intro scope error source
    simp only [exec, commitSessionTurnUpdate, requireLeaseScope, ensure, if_pos scope, source]
    rfl
  have replayed : lease.scope = sessionLeaseScope request'.sessionId →
      validateSessionSource request'.update.sourceKey = .ok () → SameCommand E request request' →
        exec E db (.commit request' lease now) = .ok (.committed response, db) := by
    intro scope source same
    simp only [exec, answer scope source, replayCommand, ensure, if_pos (digests.mpr same), result]
    rfl
  have rejected : lease.scope = sessionLeaseScope request'.sessionId →
      validateSessionSource request'.update.sourceKey = .ok () → ¬ SameCommand E request request' →
        exec E db (.commit request' lease now) = .error .sessionCommandReplayMismatch := by
    intro scope source differs
    simp only [exec, answer scope source, replayCommand, ensure, if_neg fun same => differs (digests.mp same)]
    rfl
  refine ⟨?_, wrongScope, wrongSource, replayed, rejected⟩
  by_cases scope : lease.scope = sessionLeaseScope request'.sessionId
  · cases source : validateSessionSource request'.update.sourceKey with
    | error error => rw [step, wrongSource scope error source]
    | ok _ =>
        by_cases same : SameCommand E request request'
        · rw [step, replayed scope source same]
        · rw [step, rejected scope source same]
  · rw [step, wrongScope scope]

/-- One prepared effect; the preparation is the third call. -/
def preparedRun : List Operation := sampleRun [(1, 1, samplePrepare "e1" .allow)]

/-- The preparation of `preparedRun`. -/
def preparedRequest : SessionCommitRequest := sampleRequest 0 1 1 (samplePrepare "e1" .allow)

/-- The same preparation with another exact descriptor. -/
def redescribedRequest : SessionCommitRequest :=
  sampleRequest 0 1 1 (.prepareEffect "prepare:e1" "e1" sampleDigest "null" "other" .allow "verify" "null")

theorem preparedRun_commits : ∃ response after, exec plain (dbAt plain preparedRun 2)
    (.commit preparedRequest sampleLease 2) = .ok (.committed response, after) := by
  have accepted : (exec plain (dbAt plain preparedRun 2) (.commit preparedRequest sampleLease 2)).toOption.isSome =
      true := by decide +kernel
  cases result : exec plain (dbAt plain preparedRun 2) (.commit preparedRequest sampleLease 2) with
  | error error =>
      rw [result] at accepted
      cases accepted
  | ok value =>
      obtain ⟨reply, after⟩ := value
      have returned := result
      simp only [exec, map_ok, Prod.mk.injEq] at returned
      obtain ⟨⟨response, _⟩, _, rfl, rfl⟩ := returned
      exact ⟨response, _, rfl⟩

theorem plain_collisionFree : Function.Injective plain.sha256 := fun _ _ same => same

/-- What the deduplication tables hold, when digests identify commands. -/
structure Answered (db : E.Db) : Prop where
  sources : ∀ key source, db.sessionCommitSources.get? key = some source → ∃ request,
    source.digest = sessionCommandDigest E request ∧
      (db.sessionCommandDedup.get? request.commandId).isSome = true
  shown : ∀ commandId row response, db.sessionCommandDedup.get? commandId = some row →
    row.result = .response response → ∃ session, db.sessions.get? response.snapshot.sessionId = some session ∧
      response.snapshot.sequence ≤ session.lastSeq
  distinct : ∀ commandId commandId' row row' response, db.sessionCommandDedup.get? commandId = some row →
    db.sessionCommandDedup.get? commandId' = some row' → row.result = .response response →
    row'.result = .response response → commandId = commandId'

/-- The last sequence of a session never falls. -/
theorem Change.session_grows {sessionId : SessionId} {session : SessionRow} (change : Change E db db')
    (found : db.sessions.get? sessionId = some session) :
    ∃ session', db'.sessions.get? sessionId = some session' ∧ session.lastSeq ≤ session'.lastSeq := by
  rcases change.log_change with change | ⟨_, done⟩
  · obtain ⟨session', _, _, moved⟩ := change.existing found
    exact ⟨session', moved.after, by rw [moved.logged.lastSeq]; exact Nat.le_add_right _ _⟩
  · subst done
    exact ⟨session, found, Nat.le_refl _⟩

theorem Answered.change (collisionFree : Function.Injective E.sha256) (held : Answered db)
    (change : Change E db db') : Answered db' := by
  have known : ∀ request : SessionCommitRequest, ∀ source, (∃ key, db.sessionCommitSources.get? key = some source) →
      source.digest = sessionCommandDigest E request →
      (db.sessionCommandDedup.get? request.commandId).isSome = true := by
    rintro request source ⟨key, found⟩ digest
    obtain ⟨recorded, same, present⟩ := held.sources key source found
    rw [← ((sessionCommandDigest_eq collisionFree).mp (same.symm.trans digest)).1]
    exact present
  have grown : ∀ commandId row response, db.sessionCommandDedup.get? commandId = some row →
      row.result = .response response → ∃ session', db'.sessions.get? response.snapshot.sessionId = some session' ∧
        response.snapshot.sequence ≤ session'.lastSeq := by
    intro commandId row response found result
    obtain ⟨session, present, below⟩ := held.shown commandId row response found result
    obtain ⟨session', after, order⟩ := change.session_grows present
    exact ⟨session', after, Nat.le_trans below order⟩
  have kept := change.commands.kept
  have sources : (∀ key source, db'.sessionCommitSources.get? key = some source →
      db.sessionCommitSources.get? key = some source) → ∀ key source,
      db'.sessionCommitSources.get? key = some source → ∃ request,
        source.digest = sessionCommandDigest E request ∧
          (db'.sessionCommandDedup.get? request.commandId).isSome = true := by
    intro old key source found
    obtain ⟨request, digest, present⟩ := held.sources key source (old key source found)
    obtain ⟨row, recorded⟩ := Option.isSome_iff_exists.mp present
    exact ⟨request, digest, Option.isSome_iff_exists.mpr ⟨row, kept.commands _ _ recorded⟩⟩
  cases change.commands with
  | same commands same =>
      refine ⟨sources fun _ _ found => same ▸ found, ?_, ?_⟩
      all_goals rw [commands]
      · exact grown
      · exact held.distinct
  | accepted fresh commands same =>
      have old : ∀ commandId row response, db'.sessionCommandDedup.get? commandId = some row →
          row.result = .response response → db.sessionCommandDedup.get? commandId = some row := by
        intro commandId row response found result
        rw [commands, Table.get?_add_fresh _ _ fresh] at found
        split at found
        case isTrue =>
          cases found
          cases result
        case isFalse => exact found
      refine ⟨sources fun _ _ found => same ▸ found, ?_, ?_⟩
      · intro commandId row response found result
        exact grown commandId row response (old _ _ _ found result) result
      · intro commandId commandId' row row' response found found' result result'
        exact held.distinct _ _ _ _ response (old _ _ _ found result) (old _ _ _ found' result') result result'
  | @committed request response _ session session' fresh freshSource before after next responded commands same =>
      -- The response shows a sequence that no recorded response of the session can have shown.
      have unseen : ∀ commandId row, db.sessionCommandDedup.get? commandId = some row →
          row.result ≠ .response response := by
        intro commandId row found result
        obtain ⟨held, present, below⟩ := held.shown commandId row response found result
        rw [responded.1, before, Option.some.injEq] at present
        subst present
        omega
      have cases_ : ∀ commandId row shown, db'.sessionCommandDedup.get? commandId = some row →
          row.result = .response shown → (commandId = request.commandId ∧ shown = response) ∨
            (db.sessionCommandDedup.get? commandId = some row ∧ shown ≠ response) := by
        intro commandId row shown found result
        rw [commands, Table.get?_add_fresh _ _ fresh] at found
        split at found
        case isTrue here =>
          cases found
          cases result
          exact .inl ⟨here, rfl⟩
        case isFalse => exact .inr ⟨found, fun named => unseen _ _ found (named ▸ result)⟩
      refine ⟨?_, ?_, ?_⟩
      · intro key source found
        rw [same, Table.get?_add_fresh _ _ freshSource] at found
        split at found
        case isTrue =>
          cases found
          refine ⟨request, rfl, ?_⟩
          rw [commands, Table.get?_add_fresh _ _ fresh, if_pos rfl]
          rfl
        case isFalse =>
          obtain ⟨recorded, digest, present⟩ := held.sources key source found
          obtain ⟨row, recorded'⟩ := Option.isSome_iff_exists.mp present
          exact ⟨recorded, digest, Option.isSome_iff_exists.mpr ⟨row, kept.commands _ _ recorded'⟩⟩
      · intro commandId row shown found result
        rcases cases_ commandId row shown found result with ⟨_, rfl⟩ | ⟨old, _⟩
        · rw [responded.1]
          exact ⟨session', after, Nat.le_of_eq responded.2⟩
        · exact grown commandId row shown old result
      · intro commandId commandId' row row' shown found found' result result'
        rcases cases_ commandId row shown found result with ⟨here, rfl⟩ | ⟨old, other⟩
        · rcases cases_ commandId' row' shown found' result' with ⟨here', _⟩ | ⟨_, other⟩
          · rw [here, here']
          · exact absurd rfl other
        · rcases cases_ commandId' row' shown found' result' with ⟨_, same⟩ | ⟨old', _⟩
          · exact absurd same other
          · exact held.distinct _ _ _ _ shown old old' result result'
  | aliased found digest fresh =>
      have present := known _ _ ⟨_, found⟩ digest
      rw [fresh] at present
      cases present

theorem Reachable.answered (collisionFree : Function.Injective E.sha256) (reached : Reachable E db) :
    Answered db := by
  refine Reachable.invariant ?_ (fun _ _ _ held change => held.change collisionFree change) reached
  refine ⟨?_, ?_, ?_⟩
  · intro key source impossible
    cases impossible
  · intro commandId row response impossible
    cases impossible
  · intro commandId commandId' row row' response impossible
    cases impossible

/-- In no run does a commit answer for its source key under another command id: the digest of a request covers its
command id, so the second table never matches. -/
theorem run_source_never_answers (collisionFree : Function.Injective E.sha256) (ops : List Operation) {i j : Nat}
    (bound : i < ops.length) (later : i < j) (within : j ≤ ops.length) {request : SessionCommitRequest}
    {lease lease' : Lease} {now now' : Nat} {response : SessionCommitResponse} {after : E.Db}
    (commits : ops[i] = .commit request lease now) (fresh : replays E (dbAt E ops i) ops[i] = false)
    (result : exec E (dbAt E ops i) ops[i] = .ok (.committed response, after)) {commandId : SessionCommandId}
    (other : commandId ≠ request.commandId) (db' : E.Db) :
    exec E (dbAt E ops j) (.commit { request with commandId := commandId } lease' now') ≠
      .ok (.committed response, db') := by
  intro answered
  have next : dbAt E ops (i + 1) = after := (stateAt_succ bound).trans (exec_step result)
  have kept := run_commands_kept (E := E) ops later within
  have tables := (reachable_dbAt (E := E) ops j).answered collisionFree
  rw [next] at kept
  rw [commits] at result fresh
  simp only [replays, Bool.or_eq_false_iff, Option.isSome_eq_false_iff, Option.isNone_iff_eq_none] at fresh
  simp only [exec, map_ok, Prod.mk.injEq, Reply.committed.injEq] at result answered
  obtain ⟨⟨_, _⟩, committed, rfl, rfl⟩ := result
  obtain ⟨⟨_, _⟩, again, rfl, rfl⟩ := answered
  -- What the first commit recorded.
  obtain ⟨row, recorded, _, stored⟩ := commit_recorded (reachable_dbAt ops i).mirrored committed
  obtain ⟨source, held, digest⟩ : ∃ source, (dbAt E ops j).sessionCommitSources.get?
      (request.sessionId, request.update.sourceKey) = some source ∧
        source.digest = sessionCommandDigest E request := by
    rcases (commitSessionTurnUpdate_ok (reachable_dbAt ops i).mirrored committed).2 with
      ⟨_, found, _⟩ | ⟨_, _, found, _⟩ | ⟨_, _, _, _, _, _, _, _, done⟩
    · rw [fresh.1] at found
      cases found
    · rw [fresh.2] at found
      cases found
    · exact ⟨_, kept.sources _ _ done.source_recorded, rfl⟩
  have mismatch : source.digest ≠ sessionCommandDigest E { request with commandId := commandId } := by
    rw [digest]
    intro same
    exact other ((sessionCommandDigest_eq collisionFree).mp same).1.symm
  rcases (commitSessionTurnUpdate_ok (reachable_dbAt ops j).mirrored again).2 with
    ⟨row', found, _, result, _⟩ | ⟨_, source', found, same, _⟩ | ⟨_, _, _, _, _, _, _, _, done⟩
  · exact other (tables.distinct _ _ _ _ _ found (kept.commands _ _ recorded) result stored)
  · rw [held, Option.some.injEq] at found
    exact mismatch (found ▸ same)
  · have freshSource := done.freshSource
    rw [held] at freshSource
    cases freshSource

/-- The preparation of `preparedRun`, sent again under a new command id. -/
theorem run_source_never_answers_prepared : ∃ response, ∀ db' : plain.Db,
    exec plain (dbAt plain preparedRun 3)
      (.commit { preparedRequest with commandId := ⟨⟨7#128⟩⟩ } sampleLease 2) ≠ .ok (.committed response, db') := by
  obtain ⟨response, after, result⟩ := preparedRun_commits
  exact ⟨response, run_source_never_answers plain_collisionFree preparedRun (i := 2) (j := 3) (by decide)
    (by decide) (by decide) rfl (by decide +kernel) result (by decide)⟩

/-- Sent again under a new command id, a committed preparation is rejected. -/
theorem renamed_command_rejected : ¬ ∀ (E : Environment) (_ : Function.Injective E.sha256) (ops : List Operation)
    (i j : Nat) (_ : i < ops.length) (_ : i < j) (_ : j ≤ ops.length) (request : SessionCommitRequest)
    (lease : Lease) (now now' : Nat) (response : SessionCommitResponse) (after : E.Db)
    (commandId : SessionCommandId), ops[i] = .commit request lease now →
    replays E (dbAt E ops i) ops[i] = false →
    exec E (dbAt E ops i) ops[i] = .ok (.committed response, after) →
      ∃ db', exec E (dbAt E ops j) (.commit { request with commandId := commandId } lease now') =
        .ok (.committed response, db') := by
  intro claim
  obtain ⟨response, after, result⟩ := preparedRun_commits
  obtain ⟨db', answered⟩ := claim plain plain_collisionFree preparedRun 2 3 (by decide) (by decide) (by decide)
    preparedRequest sampleLease 2 2 response after ⟨⟨7#128⟩⟩ rfl (by decide +kernel) result
  have rejected : (exec plain (dbAt plain preparedRun 3)
      (.commit { preparedRequest with commandId := ⟨⟨7#128⟩⟩ } sampleLease 2)).toOption.isNone = true := by
    decide +kernel
  rw [answered] at rejected
  cases rejected

end LatteCode.Storage
