import LatteCode.Storage.Change
/- Every operation is a path of changes, and every run a path from the empty database. -/

namespace LatteCode.Storage
open Keyed Outcome Numbered Relation Runs

variable {E : Environment} {db db' : E.Db}

/-- Any change of the database: a fresh commit or another one. -/
inductive Change (E : Environment) (db db' : E.Db) : Prop
  | committed {request : SessionCommitRequest} {lease : Lease} {now : Nat} {session session' : SessionRow}
      {turn row : TurnRow} {draft : Draft} {mid : E.Db} {states : List TurnState}
      {cards : List TranscriptEntry} {response : SessionCommitResponse}
      (done : Committed E request lease now db db' session session' turn row draft mid states cards response)
  | other (done : Uncommitted E db db')

/-- The interruptions that a recovery consists of. -/
inductive Recovery (E : Environment) (db db' : E.Db) : Prop
  | interrupted {sessionId : SessionId} {turnId : TurnId} {token now : Nat} {session session' : SessionRow}
      {turn row : TurnRow} {rows : List SessionEventRow} {cards : List TranscriptEntry}
      (done : Interrupted sessionId turnId token now db db' session session' turn row rows cards)
  | retired {turnId : TurnId} {state : TurnState} {sequence now : Nat}
      (done : Retired turnId state sequence now db db')

/-- What recoveries and releases consist of. -/
inductive Housekeeping (E : Environment) (db db' : E.Db) : Prop
  | interrupted {sessionId : SessionId} {turnId : TurnId} {token now : Nat} {session session' : SessionRow}
      {turn row : TurnRow} {rows : List SessionEventRow} {cards : List TranscriptEntry}
      (done : Interrupted sessionId turnId token now db db' session session' turn row rows cards)
  | retired {turnId : TurnId} {state : TurnState} {sequence now : Nat}
      (done : Retired turnId state sequence now db db')
  | quiesced {sessionId : SessionId} {turnId : TurnId} {token : Nat} {turn : TurnRow}
      (done : Quiesced sessionId turnId token turn db db')
  | released (freed : LeaseScope → LeaseRow → Bool)
      (done : db' = { db with runtimeLease := db.runtimeLease.deleteWhere freed })

theorem Housekeeping.uncommitted (change : Housekeeping E db db') : Uncommitted E db db' := by
  cases change with
  | interrupted done => exact .interrupted done
  | retired done => exact .retired done
  | quiesced done => exact .quiesced done
  | released freed done => exact .released freed done

theorem Recovery.housekeeping (change : Recovery E db db') : Housekeeping E db db' := by
  cases change with
  | interrupted done => exact .interrupted done
  | retired done => exact .retired done

theorem Recovery.path_housekeeping (path : ReflTransGen (Recovery E) db db') :
    ReflTransGen (Housekeeping E) db db' := by
  induction path with
  | refl => exact .refl
  | tail _ change ih => exact ih.tail change.housekeeping

theorem Change.mirrored (change : Change E db db') (mirrored : Mirrored db) : Mirrored db' := by
  cases change with
  | committed done => exact mirrored.written done.written
  | other done => exact done.mirrored mirrored

theorem recoverLinkedSessionTurn_ok {sessionId : SessionId} {turnId : TurnId} {token now : Nat}
    {revision : Option Nat} {response : Option SessionCommitResponse} (mirrored : Mirrored db)
    (recovered : recoverLinkedSessionTurn E db sessionId turnId token revision now = .ok (response, db')) :
    (response = none ∧ db' = db) ∨ ∃ session session' turn row rows cards,
      Interrupted sessionId turnId token now db db' session session' turn row rows cards := by
  simp only [recoverLinkedSessionTurn, bind_ok] at recovered
  obtain ⟨found, stale, rest⟩ := recovered
  cases found with
  | none =>
      simp only [Except.ok.injEq, Prod.mk.injEq] at rest
      exact .inl ⟨rest.1.symm, rest.2.symm⟩
  | some turn =>
      simp only [bind_ok, require_ok, Except.ok.injEq, Prod.mk.injEq] at rest
      obtain ⟨session, foundSession, ⟨response, moved⟩, interrupted, _, rfl⟩ := rest
      obtain ⟨active, foundTurn, turnToken, alive⟩ := staleTurn_ok stale
      obtain ⟨session', row, rows, cards, done⟩ :=
        interruptStaleTurn_ok mirrored active foundSession foundTurn turnToken alive interrupted
      exact .inr ⟨session, session', turn, row, rows, cards, done⟩

theorem recoverLinkedSessionTurn_path {sessionId : SessionId} {turnId : TurnId} {token now : Nat}
    {revision : Option Nat} {response : Option SessionCommitResponse} (mirrored : Mirrored db)
    (recovered : recoverLinkedSessionTurn E db sessionId turnId token revision now = .ok (response, db')) :
    ReflTransGen (Recovery E) db db' := by
  rcases recoverLinkedSessionTurn_ok mirrored recovered with ⟨_, rfl⟩ | ⟨_, _, _, _, _, _, done⟩
  · exact .refl
  · exact .single (.interrupted done)

theorem Recovery.path_mirrored (path : ReflTransGen (Recovery E) db db') (mirrored : Mirrored db) :
    Mirrored db' := by
  induction path with
  | refl => exact mirrored
  | tail _ change ih => exact change.housekeeping.uncommitted.mirrored ih

theorem recoverStale_path {stales : List (SessionId × TurnId × Nat)} {now : Nat}
    {responses responses' : List SessionCommitResponse} (mirrored : Mirrored db)
    (folded : stales.foldlM (fun (progress : List SessionCommitResponse × E.Db) stale => do
        let (response, db) ← recoverLinkedSessionTurn E progress.2 stale.1 stale.2.1 stale.2.2 none now
        .ok (progress.1 ++ response.toList, db)) (responses, db) = .ok (responses', db')) :
    ReflTransGen (Recovery E) db db' := by
  induction stales generalizing responses db with
  | nil =>
      simp only [List.foldlM_nil, pure_ok, Prod.mk.injEq] at folded
      obtain ⟨_, rfl⟩ := folded
      exact .refl
  | cons stale stales ih =>
      simp only [List.foldlM_cons, bind_ok, Except.ok.injEq] at folded
      obtain ⟨_, ⟨⟨response, middle⟩, recovered, rfl⟩, rest⟩ := folded
      have first := recoverLinkedSessionTurn_path mirrored recovered
      exact first.trans (ih (Recovery.path_mirrored first mirrored) rest)

/-- Direct v1 turns are retired one after the other. -/
theorem retireStale_retired {stales : List (TurnId × TurnRow)} {now : Nat}
    (legacy : ∀ stale ∈ stales, (db.turns.get? stale.1).isSome = true ∧
      db.sessionTurns.get? stale.1 = none ∧ stale.2.state.turnId = stale.1)
    (folded : stales.foldlM (fun db stale => interruptLegacyTurn db now stale) db = .ok db') :
    ReflTransGen (fun before after : E.Db => ∃ turnId state sequence, Retired turnId state sequence now before after)
      db db' := by
  induction stales generalizing db with
  | nil =>
      simp only [List.foldlM_nil, pure_ok] at folded
      subst folded
      exact .refl
  | cons stale stales ih =>
      simp only [List.foldlM_cons, bind_ok] at folded
      obtain ⟨middle, interrupted, rest⟩ := folded
      obtain ⟨present, unlinked, named⟩ := legacy stale List.mem_cons_self
      obtain ⟨state, sequence, retired⟩ := interruptLegacyTurn_ok present unlinked named interrupted
      refine .trans (.single ⟨_, _, _, retired⟩) (ih ?_ rest)
      intro other member
      obtain ⟨held, facts⟩ := legacy other (List.mem_cons_of_mem _ member)
      rw [retired.result]
      refine ⟨?_, facts⟩
      simp only [Table.get?_modify]
      split
      · rw [Option.isSome_map]
        exact held
      · exact held

theorem staleLegacy {now : Nat} (mirrored : Mirrored db) : ∀ stale ∈ staleLegacyTurns db now,
    (db.turns.get? stale.1).isSome = true ∧ db.sessionTurns.get? stale.1 = none ∧ stale.2.state.turnId = stale.1 := by
  intro stale member
  obtain ⟨found, chosen⟩ := (Table.mem_select _ _).mp member
  simp only [Bool.and_eq_true, Bool.not_eq_true', linked] at chosen
  exact ⟨Option.isSome_iff_exists.mpr ⟨_, found⟩,
    Option.not_isSome_iff_eq_none.mp (Bool.eq_false_iff.mp chosen.1.2), mirrored.turnId _ _ found⟩

theorem recoverAt_path {now : Nat} {responses : List SessionCommitResponse} (mirrored : Mirrored db)
    (recovered : Storage.recoverAt E db now = .ok (responses, db')) : ReflTransGen (Recovery E) db db' := by
  simp only [Storage.recoverAt, bind_ok, toI64s_ok, Except.ok.injEq, Prod.mk.injEq] at recovered
  obtain ⟨_, _, ⟨_, middle⟩, folded, retired, legacy, _, rfl⟩ := recovered
  have first := recoverStale_path mirrored folded
  have middleMirrored := Recovery.path_mirrored first mirrored
  refine first.trans (ReflTransGen.mono ?_ _ _ (retireStale_retired (staleLegacy middleMirrored) legacy))
  rintro before after ⟨turnId, state, sequence, done⟩
  exact .retired done

theorem releaseSession_path {sessionId : SessionId} {token now : Nat}
    {recovery : Option SessionCommitResponse} (mirrored : Mirrored db)
    (released : releaseSession E db sessionId token now = .ok (recovery, db')) :
    ReflTransGen (Housekeeping E) db db' := by
  unfold releaseSession at released
  split at released
  case h_1 turnId quiet =>
    simp only [Except.ok.injEq, Prod.mk.injEq] at released
    obtain ⟨_, rfl⟩ := released
    obtain ⟨active, turn, found, turnToken, waiting⟩ := quiescible_eq_some quiet
    exact .single (.quiesced ⟨active, found, turnToken, waiting, rfl⟩)
  case h_2 =>
    split at released
    case h_1 active held =>
      split at released
      case isTrue => exact Recovery.path_housekeeping (recoverLinkedSessionTurn_path mirrored released)
      case isFalse =>
        simp only [Except.ok.injEq, Prod.mk.injEq] at released
        obtain ⟨_, rfl⟩ := released
        exact .refl
    case h_2 =>
      simp only [Except.ok.injEq, Prod.mk.injEq] at released
      obtain ⟨_, rfl⟩ := released
      exact .refl

/-- A release settles the child of the scope and then deletes the lease, which must be there. -/
theorem releaseLease_ok {lease : Lease} {now : Nat} {recovery : Option SessionCommitResponse}
    (released : Storage.releaseLease E db lease now = .ok (recovery, db')) :
    ∃ middle : E.Db, releaseScope E db lease now = .ok (recovery, middle) ∧
      (∃ row, middle.runtimeLease.get? lease.scope = some row ∧ row.owner = lease.owner ∧
        row.fencingToken = lease.fencingToken) ∧
      db' = { middle with runtimeLease := middle.runtimeLease.deleteWhere fun scope row =>
        scope = lease.scope && row.owner = lease.owner && row.fencingToken = lease.fencingToken } := by
  simp only [Storage.releaseLease, bind_ok, toI64s_ok, ensure_ok, Except.ok.injEq, Prod.mk.injEq] at released
  obtain ⟨⟨_, middle⟩, settled, _, _, _, held, rfl, rfl⟩ := released
  obtain ⟨row, found, matched⟩ := (Table.holds_iff _ _ _).mp held
  simp only [Bool.and_eq_true, decide_eq_true_eq] at matched
  exact ⟨middle, settled, ⟨row, found, matched.1, matched.2⟩, rfl⟩

theorem releaseScope_path {lease : Lease} {now : Nat} {recovery : Option SessionCommitResponse}
    (mirrored : Mirrored db) (released : releaseScope E db lease now = .ok (recovery, db')) :
    ReflTransGen (Housekeeping E) db db' := by
  unfold releaseScope at released
  split at released
  case h_1 =>
    simp only [Except.ok.injEq, Prod.mk.injEq] at released
    obtain ⟨_, rfl⟩ := released
    exact .refl
  case h_2 =>
    simp only [bind_ok, toI64s_ok] at released
    obtain ⟨_, _, released⟩ := released
    exact releaseSession_path mirrored released

theorem releaseLease_path {lease : Lease} {now : Nat} {recovery : Option SessionCommitResponse}
    (mirrored : Mirrored db) (released : Storage.releaseLease E db lease now = .ok (recovery, db')) :
    ReflTransGen (Housekeeping E) db db' := by
  obtain ⟨middle, settled, _, rfl⟩ := releaseLease_ok released
  exact (releaseScope_path mirrored settled).tail (.released _ rfl)

theorem recoverSessionAfterLeaseLoss_path {sessionId : SessionId} {turnId : TurnId} {lease : Lease}
    {expected now : Nat} {recovery : SessionLeaseLossRecovery} (mirrored : Mirrored db)
    (recovered : recoverSessionAfterLeaseLoss E db sessionId turnId lease expected now =
      .ok (recovery, db')) : ReflTransGen (Recovery E) db db' := by
  simp only [recoverSessionAfterLeaseLoss, bind_ok, require_ok] at recovered
  obtain ⟨_, _, _, _, _, _, turn, _, rest⟩ := recovered
  split at rest
  case isTrue =>
    simp only [bind_ok, Except.ok.injEq, Prod.mk.injEq] at rest
    obtain ⟨_, _, _, rfl⟩ := rest
    exact .refl
  case isFalse =>
    simp only [bind_ok] at rest
    obtain ⟨⟨response, middle⟩, recovered, chosen⟩ := rest
    have path := recoverLinkedSessionTurn_path mirrored recovered
    cases response with
    | none =>
        cases chosen
        exact path
    | some response =>
        cases chosen
        exact path

theorem renewLease_ok {lease renewed : Lease} {now ttl : Nat}
    (renews : Storage.renewLease db lease now ttl = .ok (renewed, db')) :
    db.authoritative lease.scope lease.owner lease.fencingToken now = true ∧
      renewed = { lease with expiresAtMs := now + ttl } ∧ db' = { db with
        runtimeLease := db.runtimeLease.modify lease.scope fun row =>
          { row with expiresAtMs := now + ttl } } := by
  simp only [Storage.renewLease, bind_ok, addOr_ok, toI64s_ok, ensure_ok, Except.ok.injEq,
    Prod.mk.injEq] at renews
  obtain ⟨_, ⟨rfl, _⟩, _, _, _, live, rfl, rfl⟩ := renews
  exact ⟨live, rfl, rfl⟩

/-- A create answers from a recorded command or an existing session, or inserts. -/
theorem createSessionV2Inner_ok {args : CreateSession} {lease : Option Lease} {now : Nat}
    {outcome : CreateOutcome} {event : Option StoredSessionEvent}
    (created : createSessionV2Inner E db args lease now = .ok ((outcome, event), db')) :
    HeldBy db (sessionLeaseScope args.sessionId) now lease ∧
      ((∃ snapshot, createReplay E db args = .ok (some snapshot) ∧ outcome = .replayed snapshot ∧ db' = db) ∨
        (createReplay E db args = .ok none ∧
          ∃ state rows snapshot, outcome = .created snapshot ∧
            Created E args lease now db db' state rows snapshot)) := by
  simp only [createSessionV2Inner, bind_ok, ensure_ok] at created
  obtain ⟨_, _, _, _, _, _, _, required, replay, replayed, rest⟩ := created
  have held := requireInitialLease_ok required
  refine ⟨held, ?_⟩
  cases replay with
  | some snapshot =>
      simp only [Except.ok.injEq, Prod.mk.injEq] at rest
      obtain ⟨⟨rfl, _⟩, rfl⟩ := rest
      exact .inl ⟨snapshot, replayed, rfl, rfl⟩
  | none =>
      obtain ⟨state, rows, snapshot, same, done⟩ := insertSession_ok held rest
      exact .inr ⟨replayed, state, rows, snapshot, same, done⟩

theorem createSessionFollowUpV2Inner_ok {args : FollowUp} {lease : Option Lease} {now : Nat}
    {outcome : CreateOutcome} {event : Option StoredSessionEvent}
    (created : createSessionFollowUpV2Inner E db args lease now = .ok ((outcome, event), db')) :
    HeldBy db (sessionLeaseScope args.sessionId) now lease ∧
      ((∃ snapshot, followUpReplay E db args = .ok (some snapshot) ∧ outcome = .replayed snapshot ∧ db' = db) ∨
        (followUpReplay E db args = .ok none ∧
          ∃ session session' state rows snapshot, outcome = .created snapshot ∧
            FollowedUp E args lease now db db' session session' state rows snapshot)) := by
  simp only [createSessionFollowUpV2Inner, bind_ok, ensure_ok] at created
  obtain ⟨_, _, _, required, replay, replayed, rest⟩ := created
  have held := requireInitialLease_ok required
  refine ⟨held, ?_⟩
  cases replay with
  | some snapshot =>
      simp only [Except.ok.injEq, Prod.mk.injEq] at rest
      obtain ⟨⟨rfl, _⟩, rfl⟩ := rest
      exact .inl ⟨snapshot, replayed, rfl, rfl⟩
  | none =>
      simp only [bind_ok, require_ok] at rest
      obtain ⟨session, found, parent, checked, inserted⟩ := rest
      obtain ⟨session', state, rows, snapshot, same, done⟩ := insertFollowUp_ok held found checked inserted
      exact .inr ⟨replayed, session, session', state, rows, snapshot, same, done⟩

/-- A commit replays a command, answers for its source key, or is fresh. -/
theorem commitSessionTurnUpdate_ok {request : SessionCommitRequest} {lease : Lease} {now : Nat}
    {response : SessionCommitResponse} (mirrored : Mirrored db)
    (committed : commitSessionTurnUpdate E request lease now db = .ok (response, db')) :
    lease.scope = sessionLeaseScope request.sessionId ∧
      ((∃ row, db.sessionCommandDedup.get? request.commandId = some row ∧
          row.digest = sessionCommandDigest E request ∧ row.result = .response response ∧ db' = db) ∨
        (db.sessionCommandDedup.get? request.commandId = none ∧ ∃ source,
          db.sessionCommitSources.get? (request.sessionId, request.update.sourceKey) = some source ∧
          source.digest = sessionCommandDigest E request ∧ source.response = response ∧
          db' = { db with
            sessionCommandDedup := db.sessionCommandDedup.add request.commandId
              ⟨sessionCommandDigest E request, .response response, now⟩ }) ∨
        ∃ session session' turn row draft mid states cards,
          Committed E request lease now db db' session session' turn row draft mid states cards response) := by
  simp only [commitSessionTurnUpdate, bind_ok, requireLeaseScope_ok] at committed
  obtain ⟨_, inScope, _, _, rest⟩ := committed
  refine ⟨inScope, ?_⟩
  split at rest
  case h_1 row found =>
    simp only [replayCommand, bind_ok, ensure_ok, Except.ok.injEq, Prod.mk.injEq] at rest
    obtain ⟨_, same, decoded, decodes, rfl, rfl⟩ := rest
    refine .inl ⟨row, found, same, ?_, rfl⟩
    cases stored : row.result with
    | response value =>
        rw [stored] at decodes
        cases decodes
        rfl
    | snapshot value =>
        rw [stored] at decodes
        cases decodes
  case h_2 absent =>
    split at rest
    case h_1 source found =>
      simp only [replaySource, bind_ok, ensure_ok, toI64s_ok, unique_ok, Except.ok.injEq,
        Prod.mk.injEq] at rest
      obtain ⟨_, same, _, _, _, _, rfl, rfl⟩ := rest
      exact .inr (.inl ⟨absent, source, found, same, rfl, rfl⟩)
    case h_2 => exact .inr (.inr (commitFresh_ok mirrored rest))

/-- A successful call is a fresh commit, one other change, or a path of housekeeping. -/
theorem exec_ok {op : Operation} {reply : Reply} (mirrored : Mirrored db)
    (result : exec E db op = .ok (reply, db')) :
    (∃ request lease now session session' turn row draft mid states cards response,
      op = .commit request lease now ∧ reply = .committed response ∧
      Committed E request lease now db db' session session' turn row draft mid states cards response) ∨
    Uncommitted E db db' ∨ ReflTransGen (Housekeeping E) db db' := by
  cases op with
  | createSession args lease now =>
      simp only [exec, map_ok, Prod.mk.injEq] at result
      obtain ⟨⟨⟨outcome, event⟩, _⟩, created, _, rfl⟩ := result
      rcases (createSessionV2Inner_ok created).2 with ⟨_, _, _, rfl⟩ | ⟨_, _, _, _, _, done⟩
      · exact .inr (.inr .refl)
      · exact .inr (.inl (.created done))
  | createFollowUp args lease now =>
      simp only [exec, map_ok, Prod.mk.injEq] at result
      obtain ⟨⟨⟨outcome, event⟩, _⟩, created, _, rfl⟩ := result
      rcases (createSessionFollowUpV2Inner_ok created).2 with ⟨_, _, _, rfl⟩ | ⟨_, _, _, _, _, _, _, done⟩
      · exact .inr (.inr .refl)
      · exact .inr (.inl (.followedUp done))
  | switchBinding sessionId expected binding lease now =>
      simp only [exec, map_ok, Prod.mk.injEq] at result
      obtain ⟨⟨_, _⟩, switched, _, rfl⟩ := result
      obtain ⟨_, _, _, _, done⟩ := switchSessionBindingV2_ok switched
      exact .inr (.inl (.switched done))
  | createFork source fork history title now =>
      simp only [exec, map_ok, Prod.mk.injEq] at result
      obtain ⟨⟨_, _⟩, forked, _, rfl⟩ := result
      obtain ⟨_, done⟩ := createSessionFork_ok forked
      exact .inr (.inl (.forked done))
  | commit request lease now =>
      simp only [exec, map_ok, Prod.mk.injEq] at result
      obtain ⟨⟨response, _⟩, committed, rfl, rfl⟩ := result
      rcases (commitSessionTurnUpdate_ok mirrored committed).2 with
        ⟨_, _, _, _, rfl⟩ | ⟨absent, source, found, same, rfl, rfl⟩ | ⟨_, _, _, _, _, _, _, _, done⟩
      · exact .inr (.inr .refl)
      · exact .inr (.inl (.aliased request now source found same absent rfl))
      · exact .inl ⟨_, _, _, _, _, _, _, _, _, _, _, _, rfl, rfl, done⟩
  | recoverLeaseLoss sessionId turnId lease expected now =>
      simp only [exec, map_ok, Prod.mk.injEq] at result
      obtain ⟨⟨_, _⟩, recovered, _, rfl⟩ := result
      exact .inr (.inr (Recovery.path_housekeeping (recoverSessionAfterLeaseLoss_path mirrored recovered)))
  | recoverAt now =>
      simp only [exec, map_ok, Prod.mk.injEq] at result
      obtain ⟨⟨_, _⟩, recovered, _, rfl⟩ := result
      exact .inr (.inr (Recovery.path_housekeeping (recoverAt_path mirrored recovered)))
  | acquireLease scope owner turnId now ttl =>
      simp only [exec, map_ok, Prod.mk.injEq] at result
      obtain ⟨⟨_, _⟩, acquired, _, rfl⟩ := result
      exact .inr (.inl (.acquired (acquireScopedLease_ok acquired)))
  | renewLease lease now ttl =>
      simp only [exec, map_ok, Prod.mk.injEq] at result
      obtain ⟨⟨_, _⟩, renewed, _, rfl⟩ := result
      exact .inr (.inl (.renewed _ _ (renewLease_ok renewed).2.2))
  | releaseLease lease wallNow =>
      simp only [exec, map_ok, Prod.mk.injEq] at result
      obtain ⟨⟨_, _⟩, released, _, rfl⟩ := result
      exact .inr (.inr (releaseLease_path mirrored released))
  | renameSession sessionId title =>
      simp only [exec, renameSession, map_ok, bind_ok, ensure_ok, Except.ok.injEq, Prod.mk.injEq] at result
      obtain ⟨⟨_, _⟩, ⟨_, _, _, _, _, rfl⟩, _, rfl⟩ := result
      exact .inr (.inl (.renamed _ _ rfl))
  | acknowledgeOutbox sessionId through =>
      simp only [exec, acknowledgeConversationOutbox, map_ok, bind_ok, toI64s_ok, Except.ok.injEq,
        Prod.mk.injEq] at result
      obtain ⟨⟨_, _⟩, ⟨_, _, _, rfl⟩, _, rfl⟩ := result
      exact .inr (.inl (.acknowledged _ rfl))
  | recordEvidence turnId expected lease evidence now =>
      simp only [exec, recordVerificationEvidence, map_ok, bind_ok, toI64s_ok, unique_ok, Except.ok.injEq,
        Prod.mk.injEq] at result
      obtain ⟨⟨_, _⟩, ⟨_, _, _, _, _, _, _, _, _, _, _, _, _, rfl⟩, _, rfl⟩ := result
      exact .inr (.inl (.evidenced _ rfl))
  | createRun state now baseline =>
      simp only [exec, createRunWithBaseline, map_ok, bind_ok, toI64s_ok, unique_ok, Except.ok.injEq,
        Prod.mk.injEq] at result
      obtain ⟨⟨_, _⟩, ⟨_, _, _, fresh, _, freshModel, _, _, _, rfl⟩, _, rfl⟩ := result
      exact .inr (.inl (.runCreated state now _ fresh freshModel rfl))

/-! ## Reachable databases -/

/-- The databases between the changes of any run. -/
def Reachable (E : Environment) (db : E.Db) : Prop := ReflTransGen (Change E) (Database.empty E.Digest) db

/-- The invariant rule over changes. -/
theorem Reachable.invariant {Inv : E.Db → Prop} (start : Inv (Database.empty E.Digest))
    (kept : ∀ db db', Reachable E db → Inv db → Change E db db' → Inv db') (reached : Reachable E db) : Inv db := by
  induction reached with
  | refl => exact start
  | tail path change ih => exact kept _ _ path ih change

theorem Reachable.mirrored (reached : Reachable E db) : Mirrored db := by
  refine Reachable.invariant ?_ (fun _ _ _ held change => change.mirrored held) reached
  constructor <;> (intro key row impossible; cases impossible)

theorem Reachable.path (reached : Reachable E db) (path : ReflTransGen (Housekeeping E) db db') :
    Reachable E db' := by
  induction path with
  | refl => exact reached
  | tail _ change ih => exact ih.tail (.other change.uncommitted)

/-- One step: a fresh commit, one other change, or a path of housekeeping, perhaps empty. -/
theorem step_ok (reached : Reachable E db) (op : Operation) :
    (∃ request lease now session session' turn row draft mid states cards response,
      op = .commit request lease now ∧
      Committed E request lease now db (step E db op) session session' turn row draft mid states cards
        response) ∨
    Uncommitted E db (step E db op) ∨ ReflTransGen (Housekeeping E) db (step E db op) := by
  cases result : exec E db op with
  | error e =>
      rw [show step E db op = db by rw [step, result]]
      exact .inr (.inr .refl)
  | ok value =>
      obtain ⟨reply, db'⟩ := value
      rw [show step E db op = db' by rw [step, result]]
      rcases exec_ok reached.mirrored result with
        ⟨request, lease, now, session, session', turn, row, draft, mid, states, cards, response, same, _, done⟩ |
        other
      · exact .inl ⟨request, lease, now, session, session', turn, row, draft, mid, states, cards, response, same,
          done⟩
      · exact .inr other

theorem step_change (reached : Reachable E db) (op : Operation) :
    Change E db (step E db op) ∨ ReflTransGen (Housekeeping E) db (step E db op) := by
  rcases step_ok reached op with ⟨_, _, _, _, _, _, _, _, _, _, _, _, _, done⟩ | change | path
  · exact .inl (.committed done)
  · exact .inl (.other change)
  · exact .inr path

theorem Reachable.step (reached : Reachable E db) (op : Operation) : Reachable E (step E db op) := by
  rcases step_change reached op with change | path
  · exact ReflTransGen.tail reached change
  · exact reached.path path

theorem reachable_runOf (ops : List Operation) : Reachable E (runOf E ops) :=
  Runs.invariant .refl (fun _ op reached => reached.step op) ops

theorem reachable_dbAt (ops : List Operation) (k : Nat) : Reachable E (dbAt E ops k) :=
  reachable_runOf (ops.take k)

end LatteCode.Storage
