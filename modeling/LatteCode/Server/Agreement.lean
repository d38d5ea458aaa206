import LatteCode.Server.Handlers
import LatteCode.Storage.Commands
import LatteCode.Storage.Digests
/- The two layers that recognize a retried command: the ledger of a process, and the durable record of its digest. -/

namespace LatteCode
open Storage Outcome

namespace Server
open Reservations

/-- What a retry is told: the recorded result, a payload mismatch, or neither of them by this layer. -/
inductive Verdict where
  | replayed (body : Body)
  | different
  | undecided
deriving DecidableEq

namespace Request

/-- The acknowledgement of an accepted submission. -/
def acknowledgement (workspace : WorkspaceInstance) (snapshot : SessionSnapshot) : Request → Body
  | create _ body => .created ⟨body.sessionId.toString, snapshot.revision⟩
  | followUp .. => .followUp ⟨snapshot.revision, workspace.id⟩

/-- A handler answers an acceptance with this acknowledgement, at once or after it registered the session. -/
theorem accepted_acknowledgement (request : Request) (workspace : WorkspaceInstance) (outcome : CreateOutcome) :
    (∃ task, request.accepted workspace outcome = .waits (.registering (acceptedStatus outcome)
        (request.acknowledgement workspace outcome.snapshot)) task) ∨
      request.accepted workspace outcome =
        .finishes (.ok (acceptedStatus outcome, request.acknowledgement workspace outcome.snapshot)) := by
  cases request with
  | create workspaceId body => exact .inl ⟨_, rfl⟩
  | followUp id body => exact .inr rfl

theorem acknowledgement_answers (request : Request) (workspace : WorkspaceInstance) (snapshot : SessionSnapshot) :
    Answers (request.acknowledgement workspace snapshot) request := by
  cases request <;> trivial

variable (S : Service) (root : String) (db : S.Db)

/-- `durable_replay` of a create, `lookup_follow_up_replay` of a follow-up: both come before anything is started. -/
def lookup : Request → Except StorageError (Option SessionSnapshot)
  | create _ body => lookupCreateReplay S.toEnvironment db body.commandId body.sessionId root body.prompt body.binding
      body.focus
  | followUp id body =>
      match S.parseUuid id with
      | none => .ok none
      | some uuid => lookupFollowUpReplay S.toEnvironment db body.commandId ⟨uuid⟩ body.expectedSessionRevision body.prompt

/-- What a restarted server, whose ledger is empty, says of a command. -/
def durableVerdict (workspace : WorkspaceInstance) (request : Request) : Verdict :=
  match request.lookup S root db with
  | .ok (some snapshot) => .replayed (request.acknowledgement workspace snapshot)
  | .error .sessionCommandReplayMismatch => .different
  | _ => .undecided

end Request

/-- What the ledger of a process says of a command. -/
def World.verdict (S : Service) (self : World S.Digest) (request : Request) : Verdict :=
  match (self.idempotencyClaim (request.key S) (S.sha256 request.payload)).1 with
  | .replay record =>
      match World.replayIdempotentRecord request record with
      | .ok reply => .replayed reply.2
      | .error _ => .undecided
  | .mismatch => .different
  | _ => .undecided

/-- Two requests of one command on one path. -/
inductive SamePath : Request → Request → Prop where
  | create (workspaceId : String) {first second : CreateSessionRequest} (command : first.commandId = second.commandId) :
      SamePath (.create workspaceId first) (.create workspaceId second)
  | followUp (id : String) {first second : FollowUpRequest} (command : first.commandId = second.commandId) :
      SamePath (.followUp id first) (.followUp id second)

/-- The requests differ in nothing but how they spell one focus. -/
def Respelled : Request → Request → Prop
  | .create _ first, .create _ second => first.sessionId = second.sessionId ∧ first.prompt = second.prompt ∧
      first.binding = second.binding ∧ normalizedFocus first.focus = normalizedFocus second.focus ∧
      first.focus ≠ second.focus
  | _, _ => False

/-- What the durable digest covers of two requests is the same. -/
def Equivalent : Request → Request → Prop
  | .create _ first, .create _ second => first.sessionId = second.sessionId ∧ first.prompt = second.prompt ∧
      first.binding = second.binding ∧ normalizedFocus first.focus = normalizedFocus second.focus
  | .followUp _ first, .followUp _ second =>
      first.expectedSessionRevision = second.expectedSessionRevision ∧ first.prompt = second.prompt
  | _, _ => False

theorem Respelled.equivalent {first second : Request} (respelled : Respelled first second) : Equivalent first second := by
  cases first <;> cases second <;> first
    | exact respelled.elim
    | exact ⟨respelled.1, respelled.2.1, respelled.2.2.1, respelled.2.2.2.1⟩

section Payloads

variable {first second : Request}

theorem SamePath.key (path : SamePath first second) (S : Service) : first.key S = second.key S := by
  cases path with
  | create workspaceId command | followUp id command => simp only [Request.key, Request.scope, Request.commandId, command]

/-- The ledger compares the payloads as they came. -/
theorem SamePath.payload (path : SamePath first second) :
    first.payload = second.payload ↔ Equivalent first second ∧ ¬ Respelled first second := by
  cases path with
  | @create workspaceId first second command =>
      have distinct : ["session_id", "command_id", "prompt", "binding", "focus"].Nodup := by decide
      simp only [Request.payload]
      constructor
      · intro same
        have members := Json.ofMembers_injective same (by simp only [List.map]) (by simp only [List.map]) distinct
        simp only [List.cons.injEq, Prod.mk.injEq, Json.string.injEq, true_and, and_true, Json.ofText_inj] at members
        obtain ⟨session, _, prompt, binding, focus⟩ := members
        exact ⟨⟨SessionId.toString_injective session, prompt, bindingJson_injective binding, congrArg _ focus⟩,
          fun respelled => respelled.2.2.2.2 focus⟩
      · rintro ⟨⟨session, prompt, binding, focus⟩, spelled⟩
        have focus : first.focus = second.focus := by
          by_contra differs
          exact spelled ⟨session, prompt, binding, focus, differs⟩
        rw [command, session, prompt, binding, focus]
  | @followUp id first second command =>
      have distinct : ["command_id", "prompt", "expected_session_revision"].Nodup := by decide
      simp only [Request.payload]
      constructor
      · intro same
        have members := Json.ofMembers_injective same (by simp only [List.map]) (by simp only [List.map]) distinct
        simp only [List.cons.injEq, Prod.mk.injEq, Json.string.injEq, true_and, and_true, Json.ofNat_inj] at members
        exact ⟨⟨members.2.2, members.2.1⟩, fun none => none⟩
      · rintro ⟨⟨expected, prompt⟩, _⟩
        rw [command, expected, prompt]

end Payloads

section Lookups

variable {S : Service} {root : String} {db : S.Db}

/-- A row that one of two digests of a command meets is met by a digest of another command of equal digests only. -/
theorem lookupReplay_second {D : Type} [DecidableEq D] {missingField : String → String} {db : Database D}
    {commandId : SessionCommandId} {digest legacy digest' legacy' : D} {snapshot : SessionSnapshot} {Same : Prop}
    (first : lookupReplay missingField db commandId digest legacy = .ok (some snapshot))
    (current : digest = digest' ↔ Same) (older : legacy = legacy' ↔ Same) (apart : digest ≠ legacy')
    (apart' : digest' ≠ legacy) :
    (Same → lookupReplay missingField db commandId digest' legacy' = .ok (some snapshot)) ∧
      (¬ Same → lookupReplay missingField db commandId digest' legacy' = .error .sessionCommandReplayMismatch) := by
  unfold lookupReplay at first ⊢
  cases found : db.sessionCommandDedup.get? commandId with
  | none =>
      rw [found] at first
      cases first
  | some row =>
      simp only [found, bind_ok, ensure_ok, Except.ok.injEq, Option.some.injEq] at first
      obtain ⟨_, met, _, decoded, rfl⟩ := first
      constructor
      · intro same
        have met' : row.digest = digest' ∨ row.digest = legacy' := by
          rw [← current.mpr same, ← older.mpr same]
          exact met
        simp only [ensure, if_pos met', decoded]
        rfl
      · intro differs
        have unmet : ¬ (row.digest = digest' ∨ row.digest = legacy') := by
          rcases met with met | met <;> rw [met]
          · exact fun either => either.elim (fun same => differs (current.mp same)) apart
          · exact fun either => either.elim (fun same => apart' same.symm) fun same => differs (older.mp same)
        simp only [ensure, if_neg unmet]
        rfl

theorem lookupCreateReplay_valid {E : Environment} {db : E.Db} {commandId : SessionCommandId} {sessionId : SessionId}
    {prompt : String} {binding : SessionProviderBinding} {focus : Option String} {u : Unit}
    (valid : validateWorkspaceRoot root = .ok u) :
    lookupCreateReplay E db commandId sessionId root prompt binding focus =
      lookupReplay E.missingField db commandId (createCommandDigest E sessionId root prompt binding focus)
        (legacyCreateCommandDigest E sessionId root prompt binding focus) := by
  rw [lookupCreateReplay, valid]
  rfl

/-- On one path the workspace is the same. -/
theorem create_equivalent {digests : Prop} {workspaceId : String} {first second : CreateSessionRequest}
    (covered : digests ↔ root = root ∧ first.sessionId = second.sessionId ∧ first.prompt = second.prompt ∧
      first.binding = second.binding ∧ normalizedFocus first.focus = normalizedFocus second.focus) :
    digests ↔ Equivalent (.create workspaceId first) (.create workspaceId second) :=
  covered.trans (and_iff_right rfl)

/-- The durable layer compares what its digest covers. -/
theorem SamePath.lookup {first second : Request} (path : SamePath first second)
    (collisionFree : Function.Injective S.sha256) {snapshot : SessionSnapshot}
    (accepted : first.lookup S root db = .ok (some snapshot)) :
    (Equivalent first second → second.lookup S root db = .ok (some snapshot)) ∧
      (¬ Equivalent first second → second.lookup S root db = .error .sessionCommandReplayMismatch) := by
  cases path with
  | @create workspaceId first second command =>
      simp only [Request.lookup] at accepted ⊢
      cases valid : validateWorkspaceRoot root with
      | error error =>
          rw [lookupCreateReplay, valid] at accepted
          cases accepted
      | ok _ =>
          rw [lookupCreateReplay_valid valid] at accepted ⊢
          rw [← command]
          exact lookupReplay_second accepted (create_equivalent (createCommandDigest_eq collisionFree))
            (create_equivalent (legacyCreateCommandDigest_eq collisionFree)) (createCommandDigest_ne_legacy collisionFree)
            (createCommandDigest_ne_legacy collisionFree)
  | @followUp id first second command =>
      simp only [Request.lookup] at accepted ⊢
      cases parsed : S.parseUuid id with
      | none =>
          rw [parsed] at accepted
          cases accepted
      | some uuid =>
          rw [parsed] at accepted
          simp only [lookupFollowUpReplay, ← command] at accepted ⊢
          exact lookupReplay_second accepted (followUpCommandDigest_eq collisionFree)
            (legacyFollowUpCommandDigest_eq collisionFree) (followUpCommandDigest_ne_legacy collisionFree)
            (followUpCommandDigest_ne_legacy collisionFree)

end Lookups

section Accepted

variable {E : Environment} {db db' : E.Db} {commandId : SessionCommandId} {digest legacy : E.Digest}
  {snapshot : SessionSnapshot} {outcome : CreateOutcome} {event : Option StoredSessionEvent} {lease : Option Lease}
  {now : Nat} {ops : List Operation} {k m : Nat}

theorem lookupReplay_kept {missingField : String → String} (kept : CommandsKept db db')
    (found : lookupReplay missingField db commandId digest legacy = .ok (some snapshot)) :
    lookupReplay missingField db' commandId digest legacy = .ok (some snapshot) := by
  unfold lookupReplay at found ⊢
  cases row : db.sessionCommandDedup.get? commandId with
  | none =>
      rw [row] at found
      cases found
  | some held =>
      rw [row] at found
      rw [kept.commands commandId held row]
      exact found

theorem lookupReplay_recorded {missingField : String → String}
    (recorded : CommandRecorded db db' (some commandId) ⟨digest, .snapshot snapshot, now⟩) :
    lookupReplay missingField db' commandId digest legacy = .ok (some snapshot) := by
  have row : db'.sessionCommandDedup.get? commandId = some ⟨digest, .snapshot snapshot, now⟩ := by
    rw [recorded.commands, recordedCommands, Keyed.Table.get?_add_fresh _ _ (recorded.fresh commandId rfl), if_pos rfl]
  simp only [lookupReplay, row, ensure, true_or, if_true, decodeSnapshot]
  rfl

theorem dbAt_succ_of_exec {reply : Reply} (bound : k < ops.length) (done : exec E (dbAt E ops k) ops[k] = .ok (reply, db')) :
    dbAt E ops (k + 1) = db' := by
  show Runs.stateAt _ _ ops (k + 1) = db'
  rw [Runs.stateAt_succ bound, Storage.step, done]

/-- A create that was accepted replays its snapshot for the rest of the run. -/
theorem accepted_create_replays {args : CreateSession} (named : args.commandId = some commandId) (bound : k < ops.length)
    (called : ops[k] = .createSession args lease now)
    (accepted : exec E (dbAt E ops k) ops[k] = .ok (.accepted outcome event, db')) (order : k < m)
    (within : m ≤ ops.length) :
    lookupCreateReplay E (dbAt E ops m) commandId args.sessionId args.workspaceRoot args.prompt args.binding args.focus =
      .ok (some outcome.snapshot) := by
  have after := dbAt_succ_of_exec bound accepted
  have kept := run_commands_kept (E := E) ops order within
  rw [after] at kept
  rw [called, exec, map_ok] at accepted
  obtain ⟨⟨⟨outcome', event'⟩, db''⟩, created, same⟩ := accepted
  cases same
  have valid : validateWorkspaceRoot args.workspaceRoot = .ok () := by
    simp only [createSessionV2Inner, bind_ok] at created
    exact created.choose_spec.2.choose_spec.1
  rw [lookupCreateReplay_valid valid]
  rcases (createSessionV2Inner_ok created).2 with ⟨snapshot, replayed, rfl, rfl⟩ | ⟨_, state, rows, snapshot, rfl, written⟩
  · rw [createReplay, named] at replayed
    simp only [bind_ok] at replayed
    obtain ⟨found, looked, rest⟩ := replayed
    cases found with
    | none =>
        simp only [bind_ok] at rest
        obtain ⟨_, _, none⟩ := rest
        cases none
    | some found =>
        cases rest
        exact lookupReplay_kept kept looked
  · have recorded := written.recorded
    rw [named] at recorded
    exact lookupReplay_kept kept (lookupReplay_recorded recorded)

theorem accepted_followUp_replays {args : FollowUp} (named : args.commandId = some commandId) (bound : k < ops.length)
    (called : ops[k] = .createFollowUp args lease now)
    (accepted : exec E (dbAt E ops k) ops[k] = .ok (.accepted outcome event, db')) (order : k < m)
    (within : m ≤ ops.length) :
    lookupFollowUpReplay E (dbAt E ops m) commandId args.sessionId args.expectedSessionRevision args.prompt =
      .ok (some outcome.snapshot) := by
  have after := dbAt_succ_of_exec bound accepted
  have kept := run_commands_kept (E := E) ops order within
  rw [after] at kept
  rw [called, exec, map_ok] at accepted
  obtain ⟨⟨⟨outcome', event'⟩, db''⟩, created, same⟩ := accepted
  cases same
  rcases (createSessionFollowUpV2Inner_ok created).2 with
    ⟨snapshot, replayed, rfl, rfl⟩ | ⟨_, session, session', state, rows, snapshot, rfl, written⟩
  · rw [followUpReplay, named] at replayed
    exact lookupReplay_kept kept replayed
  · have recorded := written.recorded
    rw [named] at recorded
    exact lookupReplay_kept kept (lookupReplay_recorded recorded)

end Accepted

section Verdicts

variable {S : Service} {root : String} {db : S.Db} {world : World S.Digest} {first second : Request}
  {workspace : WorkspaceInstance} {status : StatusCode} {snapshot : SessionSnapshot}

theorem SamePath.answers (path : SamePath first second) {body : Body} (answers : Request.Answers body first) :
    Request.Answers body second := by
  cases path <;> cases body <;> exact answers

theorem SamePath.acknowledgement (path : SamePath first second) (same : Equivalent first second) :
    first.acknowledgement workspace snapshot = second.acknowledgement workspace snapshot := by
  cases path with
  | create workspaceId command => simp only [Request.acknowledgement, same.1]
  | followUp id command => rfl

theorem SamePath.verdict (path : SamePath first second) (collisionFree : Function.Injective S.sha256)
    (recorded : world.idempotency (first.key S) =
      some (.done ⟨status, (first.acknowledgement workspace snapshot).toValue, S.sha256 first.payload⟩)) :
    (first.payload = second.payload →
        world.verdict S second = .replayed (first.acknowledgement workspace snapshot)) ∧
      (first.payload ≠ second.payload → world.verdict S second = .different) := by
  rw [path.key S] at recorded
  constructor
  · intro same
    have claimed : (world.idempotencyClaim (second.key S) (S.sha256 second.payload)).1 =
        .replay ⟨status, (first.acknowledgement workspace snapshot).toValue, S.sha256 first.payload⟩ :=
      congrArg Prod.fst (claim_done recorded (congrArg S.sha256 same))
    have reads := Request.readBody_toValue (path.answers (first.acknowledgement_answers workspace snapshot))
    simp only [World.verdict, claimed, World.replayIdempotentRecord, reads]
  · intro differs
    have claimed : (world.idempotencyClaim (second.key S) (S.sha256 second.payload)).1 = .mismatch := by
      rw [World.idempotencyClaim, claim, recorded]
      simp only [if_neg fun same => differs (collisionFree same)]
    simp only [World.verdict, claimed]

theorem SamePath.durableVerdict (path : SamePath first second) (workspace : WorkspaceInstance)
    (collisionFree : Function.Injective S.sha256)
    (accepted : first.lookup S root db = .ok (some snapshot)) :
    (Equivalent first second →
        second.durableVerdict S root db workspace = .replayed (first.acknowledgement workspace snapshot)) ∧
      (¬ Equivalent first second → second.durableVerdict S root db workspace = .different) := by
  have durable := path.lookup collisionFree accepted
  constructor
  · intro same
    rw [Request.durableVerdict, durable.1 same, path.acknowledgement same]
  · intro differs
    rw [Request.durableVerdict, durable.2 differs]

/-- A session created under the sample lease by a command. -/
def commandedRun : List Operation :=
  [.acquireLease (sessionLeaseScope sampleSession) "engine" none 0 100,
    .createSession { sampleCreate with commandId := some sampleCommand } (some sampleLease) 1]

/-- The sample create with a blank focus instead of none. -/
def blankFocusRequest : Request := .create "workspace" ⟨sampleSession, sampleCommand, "prompt", sampleBinding, some ""⟩

theorem commandedRun_accepts : ∃ snapshot,
    sampleCreateRequest.lookup sampleService "/workspace" (dbAt plain commandedRun 2) = .ok (some snapshot) := by
  have found : (sampleCreateRequest.lookup sampleService "/workspace"
      (dbAt plain commandedRun 2)).toOption.join.isSome = true := by decide +kernel
  cases looked : sampleCreateRequest.lookup sampleService "/workspace" (dbAt plain commandedRun 2) with
  | error error =>
      rw [looked] at found
      cases found
  | ok existing =>
      cases existing with
      | none =>
          rw [looked] at found
          cases found
      | some snapshot => exact ⟨snapshot, rfl⟩

/-- The ledger after the sample create was acknowledged. -/
def acknowledgedWorld (snapshot : SessionSnapshot) : World sampleService.Digest where
  idempotency := Function.update (fun _ => none) (sampleCreateRequest.key sampleService) (some (.done
    ⟨.accepted, (sampleCreateRequest.acknowledgement sampleWorkspace snapshot).toValue,
      sampleService.sha256 sampleCreateRequest.payload⟩))
  handlers := []

theorem acknowledgedWorld_recorded (snapshot : SessionSnapshot) :
    (acknowledgedWorld snapshot).idempotency (sampleCreateRequest.key sampleService) = some (.done
      ⟨.accepted, (sampleCreateRequest.acknowledgement sampleWorkspace snapshot).toValue,
        sampleService.sha256 sampleCreateRequest.payload⟩) := by
  unfold acknowledgedWorld
  simp only [Function.update_self]

end Verdicts

end Server

end LatteCode
