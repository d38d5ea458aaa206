import LatteCode.Storage.Commands
import LatteCode.Storage.Digests
/- The workspace root of a session: who writes it, and what a replayed create says of it. -/

namespace LatteCode.Storage
open Keyed Outcome Relation Runs

variable {E : Environment} {db db' : E.Db}

/-- The column a session is located by. -/
def rootOf (db : E.Db) (sessionId : SessionId) : Option String :=
  (db.sessions.get? sessionId).map SessionRow.workspaceRoot

/-- No session moves. -/
def RootsKept (db db' : E.Db) : Prop := ∀ sessionId root, rootOf db sessionId = some root → rootOf db' sessionId = some root

/-- What a change does to the roots: nothing, or one session is new, with a root of its own or that of its source. -/
inductive RootsChange (db db' : E.Db) : Prop
  | same (roots : ∀ sessionId, rootOf db' sessionId = rootOf db sessionId)
  | born {owner : SessionId} {root : String} (fresh : rootOf db owner = none)
      (roots : ∀ sessionId, rootOf db' sessionId = if sessionId = owner then some root else rootOf db sessionId)

/-- One row is rewritten under its root. -/
theorem roots_moved {owner : SessionId} {session session' : SessionRow} (found : db.sessions.get? owner = some session)
    (sessions : ∀ key, db'.sessions.get? key = if key = owner then some session' else db.sessions.get? key)
    (root : session'.workspaceRoot = session.workspaceRoot) (sessionId : SessionId) :
    rootOf db' sessionId = rootOf db sessionId := by
  rw [rootOf, rootOf, sessions]
  by_cases same : sessionId = owner
  · subst same
    rw [if_pos rfl, found, Option.map_some, Option.map_some, root]
  · rw [if_neg same]

theorem roots_born {owner : SessionId} {session' : SessionRow}
    (sessions : ∀ key, db'.sessions.get? key = if key = owner then some session' else db.sessions.get? key)
    (sessionId : SessionId) :
    rootOf db' sessionId = if sessionId = owner then some session'.workspaceRoot else rootOf db sessionId := by
  rw [rootOf, rootOf, sessions]
  split <;> rfl

theorem roots_fresh {owner : SessionId} (fresh : db.sessions.get? owner = none) : rootOf db owner = none := by
  rw [rootOf, fresh, Option.map_none]

theorem roots_same (sessions : db'.sessions = db.sessions) (sessionId : SessionId) :
    rootOf db' sessionId = rootOf db sessionId := by
  rw [rootOf, rootOf, sessions]

theorem roots_renamed {sessionId : SessionId} {title : String} (key : SessionId) :
    rootOf ({ db with sessions := db.sessions.modify sessionId fun row => { row with title := title } } : E.Db) key =
      rootOf db key := by
  rw [rootOf, rootOf, Table.get?_modify]
  split
  case isTrue same =>
    subst same
    rw [Option.map_map]
    rfl
  case isFalse => rfl

theorem Change.roots (change : Change E db db') : RootsChange db db' := by
  cases change with
  | committed done =>
      exact .same (roots_moved done.admitted.foundSession done.sessions (by rw [done.moved]; rfl))
  | other done =>
      cases done with
      | created done => exact .born (roots_fresh done.freshSession) (roots_born done.sessions)
      | forked done => exact .born (roots_fresh done.freshSession) (roots_born done.sessions)
      | followedUp done => exact .same (roots_moved done.foundSession done.sessions (by rw [done.moved]; rfl))
      | switched done => exact .same (roots_moved done.foundSession done.sessions rfl)
      | interrupted done => exact .same (roots_moved done.foundSession done.sessions (by rw [done.moved]; rfl))
      | acquired done =>
          rw [done.frame]
          exact .same (roots_same rfl)
      | retired done | quiesced done =>
          rw [done.result]
          exact .same (roots_same rfl)
      | renewed _ _ done | released _ done | acknowledged _ done | evidenced _ done | runCreated _ _ _ _ _ done
      | aliased _ _ _ _ _ _ done =>
          subst done
          exact .same (roots_same rfl)
      | renamed sessionId title done =>
          subst done
          exact .same roots_renamed

theorem RootsChange.kept (change : RootsChange db db') : RootsKept db db' := by
  intro sessionId root held
  cases change with
  | same roots => rw [roots, held]
  | @born owner _ fresh roots =>
      have other : sessionId ≠ owner := by
        rintro rfl
        rw [fresh] at held
        cases held
      rw [roots, if_neg other, held]

theorem Housekeeping.path_roots_same (path : ReflTransGen (Housekeeping E) db db') (sessionId : SessionId) :
    rootOf db' sessionId = rootOf db sessionId := by
  induction path with
  | refl => rfl
  | tail _ change ih =>
      rw [← ih]
      cases change with
      | interrupted done => exact roots_moved done.foundSession done.sessions (by rw [done.moved]; rfl) sessionId
      | retired done | quiesced done =>
          rw [done.result]
          exact roots_same rfl sessionId
      | released _ done =>
          subst done
          exact roots_same rfl sessionId

theorem step_roots_kept (reached : Reachable E db) (op : Operation) : RootsKept db (step E db op) := by
  rcases step_change reached op with change | path
  · exact change.roots.kept
  · exact fun sessionId root held => (Housekeeping.path_roots_same path sessionId).trans held

/-- Where the roots after a call come from: the sessions before it, or the create that was called. -/
inductive RootsStep (op : Operation) (db db' : E.Db) : Prop
  | same (roots : ∀ sessionId, rootOf db' sessionId = rootOf db sessionId)
  | created {args : CreateSession} {lease : Option Lease} {now : Nat} (called : op = .createSession args lease now)
      (roots : ∀ sessionId, rootOf db' sessionId =
        if sessionId = args.sessionId then some args.workspaceRoot else rootOf db sessionId)
  | forked {source fork : SessionId} {root : String} (found : rootOf db source = some root)
      (roots : ∀ sessionId, rootOf db' sessionId = if sessionId = fork then some root else rootOf db sessionId)

theorem exec_roots {op : Operation} {reply : Reply} (mirrored : Mirrored db)
    (result : exec E db op = .ok (reply, db')) : RootsStep op db db' := by
  cases op with
  | createSession args lease now =>
      simp only [exec, map_ok, Prod.mk.injEq] at result
      obtain ⟨⟨⟨outcome, event⟩, _⟩, created, _, rfl⟩ := result
      rcases (createSessionV2Inner_ok created).2 with ⟨_, _, _, rfl⟩ | ⟨_, _, _, _, _, done⟩
      · exact .same fun _ => rfl
      · exact .created rfl (roots_born done.sessions)
  | createFollowUp args lease now =>
      simp only [exec, map_ok, Prod.mk.injEq] at result
      obtain ⟨⟨⟨outcome, event⟩, _⟩, created, _, rfl⟩ := result
      rcases (createSessionFollowUpV2Inner_ok created).2 with ⟨_, _, _, rfl⟩ | ⟨_, _, _, _, _, _, _, done⟩
      · exact .same fun _ => rfl
      · exact .same (roots_moved done.foundSession done.sessions (by rw [done.moved]; rfl))
  | switchBinding sessionId expected binding lease now =>
      simp only [exec, map_ok, Prod.mk.injEq] at result
      obtain ⟨⟨_, _⟩, switched, _, rfl⟩ := result
      obtain ⟨_, _, _, _, done⟩ := switchSessionBindingV2_ok switched
      exact .same (roots_moved done.foundSession done.sessions rfl)
  | createFork source fork history title now =>
      simp only [exec, map_ok, Prod.mk.injEq] at result
      obtain ⟨⟨_, _⟩, forked, _, rfl⟩ := result
      obtain ⟨row, done⟩ := createSessionFork_ok forked
      have born := roots_born done.sessions
      have located : rootOf db source = some row.workspaceRoot := by
        rw [rootOf, done.foundSource, Option.map_some]
      exact .forked located born
  | commit request lease now =>
      simp only [exec, map_ok, Prod.mk.injEq] at result
      obtain ⟨⟨response, _⟩, committed, rfl, rfl⟩ := result
      rcases (commitSessionTurnUpdate_ok mirrored committed).2 with
        ⟨_, _, _, _, rfl⟩ | ⟨_, _, _, _, _, rfl⟩ | ⟨_, _, _, _, _, _, _, _, done⟩
      · exact .same fun _ => rfl
      · exact .same (roots_same rfl)
      · exact .same (roots_moved done.admitted.foundSession done.sessions (by rw [done.moved]; rfl))
  | recoverLeaseLoss sessionId turnId lease expected now =>
      simp only [exec, map_ok, Prod.mk.injEq] at result
      obtain ⟨⟨_, _⟩, recovered, _, rfl⟩ := result
      exact .same (Housekeeping.path_roots_same
        (Recovery.path_housekeeping (recoverSessionAfterLeaseLoss_path mirrored recovered)))
  | recoverAt now =>
      simp only [exec, map_ok, Prod.mk.injEq] at result
      obtain ⟨⟨_, _⟩, recovered, _, rfl⟩ := result
      exact .same (Housekeeping.path_roots_same (Recovery.path_housekeeping (recoverAt_path mirrored recovered)))
  | acquireLease scope owner turnId now ttl =>
      simp only [exec, map_ok, Prod.mk.injEq] at result
      obtain ⟨⟨_, _⟩, acquired, _, rfl⟩ := result
      rw [(acquireScopedLease_ok acquired).frame]
      exact .same (roots_same rfl)
  | renewLease lease now ttl =>
      simp only [exec, map_ok, Prod.mk.injEq] at result
      obtain ⟨⟨_, _⟩, renewed, _, rfl⟩ := result
      rw [(renewLease_ok renewed).2.2]
      exact .same (roots_same rfl)
  | releaseLease lease wallNow =>
      simp only [exec, map_ok, Prod.mk.injEq] at result
      obtain ⟨⟨_, _⟩, released, _, rfl⟩ := result
      exact .same (Housekeeping.path_roots_same (releaseLease_path mirrored released))
  | renameSession sessionId title =>
      simp only [exec, renameSession, map_ok, bind_ok, ensure_ok, Except.ok.injEq, Prod.mk.injEq] at result
      obtain ⟨⟨_, _⟩, ⟨_, _, _, _, _, rfl⟩, _, rfl⟩ := result
      exact .same roots_renamed
  | acknowledgeOutbox sessionId through =>
      simp only [exec, acknowledgeConversationOutbox, map_ok, bind_ok, toI64s_ok, Except.ok.injEq,
        Prod.mk.injEq] at result
      obtain ⟨⟨_, _⟩, ⟨_, _, _, rfl⟩, _, rfl⟩ := result
      exact .same (roots_same rfl)
  | recordEvidence turnId expected lease evidence now =>
      simp only [exec, recordVerificationEvidence, map_ok, bind_ok, toI64s_ok, unique_ok, Except.ok.injEq,
        Prod.mk.injEq] at result
      obtain ⟨⟨_, _⟩, ⟨_, _, _, _, _, _, _, _, _, _, _, _, _, rfl⟩, _, rfl⟩ := result
      exact .same (roots_same rfl)
  | createRun state now baseline =>
      simp only [exec, createRunWithBaseline, map_ok, bind_ok, toI64s_ok, unique_ok, Except.ok.injEq,
        Prod.mk.injEq] at result
      obtain ⟨⟨_, _⟩, ⟨_, _, _, fresh, _, freshModel, _, _, _, rfl⟩, _, rfl⟩ := result
      exact .same (roots_same rfl)

/-- After a call every root was one before, or is that of the create. -/
theorem step_root (reached : Reachable E db) {op : Operation} {sessionId : SessionId} {root : String}
    (held : rootOf (step E db op) sessionId = some root) :
    (∃ owner, rootOf db owner = some root) ∨
      ∃ args lease now, op = .createSession args lease now ∧ args.workspaceRoot = root := by
  cases result : exec E db op with
  | error error =>
      rw [step, result] at held
      exact .inl ⟨sessionId, held⟩
  | ok value =>
      rw [step, result] at held
      cases exec_roots reached.mirrored result with
      | same roots =>
          rw [roots] at held
          exact .inl ⟨sessionId, held⟩
      | created called roots =>
          rw [roots] at held
          split at held
          case isTrue =>
            cases held
            exact .inr ⟨_, _, _, called, rfl⟩
          case isFalse => exact .inl ⟨sessionId, held⟩
      | forked found roots =>
          rw [roots] at held
          split at held
          case isTrue =>
            cases held
            exact .inl ⟨_, found⟩
          case isFalse => exact .inl ⟨sessionId, held⟩

/-! ## Recorded creates -/

/-- The session of a recorded create lies under the root that its digest covers. -/
def Rooted (E : Environment) (db : E.Db) : Prop :=
  ∀ commandId row snapshot sessionId root prompt binding focus, db.sessionCommandDedup.get? commandId = some row →
    row.result = .snapshot snapshot →
    row.digest = createCommandDigest E sessionId root prompt binding focus ∨
      row.digest = legacyCreateCommandDigest E sessionId root prompt binding focus →
    rootOf db sessionId = some root

theorem recorded_row {commandId : Option SessionCommandId} {key : SessionCommandId} {new row : CommandRow E.Digest}
    (recorded : CommandRecorded db db' commandId new) (found : db'.sessionCommandDedup.get? key = some row) :
    db.sessionCommandDedup.get? key = some row ∨ row = new := by
  rw [recorded.commands] at found
  cases commandId with
  | none => exact .inl found
  | some commandId =>
      rw [recordedCommands, Table.get?_add_fresh _ _ (recorded.fresh commandId rfl)] at found
      split at found
      case isTrue =>
        cases found
        exact .inr rfl
      case isFalse => exact .inl found

theorem added_row {commandId key : SessionCommandId} {new row : CommandRow E.Digest}
    (fresh : db.sessionCommandDedup.get? commandId = none)
    (commands : db'.sessionCommandDedup = db.sessionCommandDedup.add commandId new)
    (found : db'.sessionCommandDedup.get? key = some row) :
    db.sessionCommandDedup.get? key = some row ∨ row = new := by
  rw [commands, Table.get?_add_fresh _ _ fresh] at found
  split at found
  case isTrue =>
    cases found
    exact .inr rfl
  case isFalse => exact .inl found

/-- A recorded command of a change is an older one, a commit, a follow-up or the create of a session under its root. -/
theorem Change.row (change : Change E db db') {key : SessionCommandId} {row : CommandRow E.Digest}
    (found : db'.sessionCommandDedup.get? key = some row) :
    db.sessionCommandDedup.get? key = some row ∨ (∃ response, row.result = .response response) ∨
      (∃ sessionId expected prompt, row.digest = followUpCommandDigest E sessionId expected prompt) ∨
      ∃ sessionId root prompt binding focus, row.digest = createCommandDigest E sessionId root prompt binding focus ∧
        rootOf db' sessionId = some root := by
  cases change with
  | committed done =>
      refine (added_row done.freshCommand (by rw [done.frame]) found).imp_right fun new => .inl ?_
      exact new ▸ ⟨_, rfl⟩
  | other done =>
      cases done with
      | @created args _ _ _ _ _ done =>
          refine (recorded_row done.recorded found).imp_right fun new => .inr (.inr
            ⟨args.sessionId, args.workspaceRoot, args.prompt, args.binding, args.focus, ?_, ?_⟩)
          · rw [new]
            rfl
          · rw [roots_born done.sessions, if_pos rfl]
            rfl
      | @followedUp args _ _ _ _ _ _ _ done =>
          refine (recorded_row done.recorded found).imp_right fun new => .inr (.inl
            ⟨args.sessionId, args.expectedSessionRevision, args.prompt, ?_⟩)
          rw [new]
          rfl
      | aliased _ _ _ _ _ fresh done =>
          subst done
          refine (added_row fresh rfl found).imp_right fun new => .inl ?_
          exact new ▸ ⟨_, rfl⟩
      | switched done | forked done | interrupted done | acquired done =>
          rw [done.frame] at found
          exact .inl found
      | retired done | quiesced done =>
          rw [done.result] at found
          exact .inl found
      | renewed _ _ done | released _ done | renamed _ _ done | acknowledged _ done | evidenced _ done
      | runCreated _ _ _ _ _ done =>
          subst done
          exact .inl found

theorem Change.rooted (collisionFree : Function.Injective E.sha256) (change : Change E db db') (rooted : Rooted E db) :
    Rooted E db' := by
  intro commandId row snapshot sessionId root prompt binding focus found result digest
  rcases change.row found with old | ⟨_, response⟩ | ⟨_, _, _, followUp⟩ | ⟨session, place, _, _, _, create, held⟩
  · exact change.roots.kept _ _ (rooted commandId row snapshot sessionId root prompt binding focus old result digest)
  · rw [result] at response
    cases response
  · rw [followUp] at digest
    rcases digest with same | same
    · exact absurd same.symm (createCommandDigest_ne_followUp collisionFree)
    · exact absurd same.symm (legacyCreateCommandDigest_ne_followUp collisionFree)
  · rw [create] at digest
    rcases digest with same | same
    · obtain ⟨rfl, rfl, _⟩ := (createCommandDigest_eq collisionFree).mp same
      exact held
    · exact absurd same (createCommandDigest_ne_legacy collisionFree)

theorem Reachable.rooted (collisionFree : Function.Injective E.sha256) (reached : Reachable E db) : Rooted E db := by
  refine reached.invariant ?_ fun _ _ _ rooted change => change.rooted collisionFree rooted
  intro commandId row _ _ _ _ _ _ found
  cases found

/-- A create that is looked up with success names a session under this root. -/
theorem lookupCreateReplay_root (collisionFree : Function.Injective E.sha256) (reached : Reachable E db)
    {commandId : SessionCommandId} {sessionId : SessionId} {root prompt : String} {binding : SessionProviderBinding}
    {focus : Option String} {snapshot : SessionSnapshot}
    (looked : lookupCreateReplay E db commandId sessionId root prompt binding focus = .ok (some snapshot)) :
    rootOf db sessionId = some root := by
  simp only [lookupCreateReplay, bind_ok] at looked
  obtain ⟨_, _, looked⟩ := looked
  unfold lookupReplay at looked
  cases found : db.sessionCommandDedup.get? commandId with
  | none =>
      rw [found] at looked
      cases looked
  | some row =>
      simp only [found, bind_ok, ensure_ok, Except.ok.injEq, Option.some.injEq] at looked
      obtain ⟨_, met, decoded, result, _⟩ := looked
      cases held : row.result with
      | snapshot snapshot =>
          exact reached.rooted collisionFree commandId row snapshot sessionId root prompt binding focus found held met
      | response response =>
          rw [held] at result
          cases result

/-- A create that is accepted leaves the session under the root that it was called with. -/
theorem createSessionV2Inner_root (collisionFree : Function.Injective E.sha256) (reached : Reachable E db)
    {args : CreateSession} {lease : Option Lease} {now : Nat} {commandId : SessionCommandId} {outcome : CreateOutcome}
    {event : Option StoredSessionEvent} (named : args.commandId = some commandId)
    (created : createSessionV2Inner E db args lease now = .ok ((outcome, event), db')) :
    rootOf db' args.sessionId = some args.workspaceRoot := by
  have valid : validateWorkspaceRoot args.workspaceRoot = .ok () := by
    simp only [createSessionV2Inner, bind_ok] at created
    exact created.choose_spec.2.choose_spec.1
  rcases (createSessionV2Inner_ok created).2 with ⟨snapshot, replayed, _, rfl⟩ | ⟨_, _, _, _, _, done⟩
  · rw [createReplay, named] at replayed
    simp only [bind_ok] at replayed
    obtain ⟨found, looked, rest⟩ := replayed
    cases found with
    | none =>
        simp only [bind_ok] at rest
        obtain ⟨_, _, none⟩ := rest
        cases none
    | some found =>
        have created : lookupCreateReplay E db' commandId args.sessionId args.workspaceRoot args.prompt args.binding
            args.focus = .ok (some found) := by
          rw [lookupCreateReplay, valid]
          exact looked
        exact lookupCreateReplay_root collisionFree reached created
  · rw [roots_born done.sessions, if_pos rfl]
    rfl

end LatteCode.Storage
