import LatteCode.Storage.Actives
/- Which calls of the store are announced to subscribers, and that the others change no session. -/

namespace LatteCode.Storage
open Keyed Outcome Relation

/-- What the engine does after a call of the store, before it returns. -/
inductive Announcement where
  /-- A create sends its event at once. -/
  | created (notice : SessionId × Nat)
  /-- `finish_session_response`. -/
  | response (notice : SessionId × Nat)
  /-- Recoveries synchronise one conversation after the other. -/
  | recoveries (notices : List (SessionId × Nat))
deriving DecidableEq

def noticeOf (response : SessionCommitResponse) : SessionId × Nat :=
  (response.sessionEvent.envelope.sessionId, response.sessionEvent.envelope.revision)

def announcement : Operation → Reply → Option Announcement
  | .createSession _ (some _) _, .accepted (.created snapshot) _ => some (.created (snapshot.sessionId, snapshot.revision))
  | .createFollowUp _ (some _) _, .accepted (.created _) (some event) =>
      some (.response (event.envelope.sessionId, event.envelope.revision))
  | _, .committed response => some (.response (noticeOf response))
  | _, .leaseLoss (.recovered response) => some (.recoveries [noticeOf response])
  | _, .recovered (response :: more) => some (.recoveries ((response :: more).map noticeOf))
  | _, .released (some response) => some (.response (noticeOf response))
  | _, _ => none

/-- A session is created, and followed up, without a lease only outside of a server. -/
def served : Operation → Bool
  | .createSession _ none _ | .createFollowUp _ none _ => false
  | _ => true

variable {E : Environment} {db db' : E.Db} {sessionId : SessionId} {session : SessionRow}

/-- What a snapshot shows besides the cards, which its sequence number counts. -/
def header (E : Environment) (db : E.Db) (sessionId : SessionId) : Except StorageError SessionSnapshot :=
  (sessionSnapshot E db sessionId none 1).map fun snapshot => { snapshot with transcript := ⟨[], none, false⟩ }

/-- The columns of a session row that a snapshot shows. -/
def shownKey (row : SessionRow) :
    Nat × Nat × SessionLifecycle × SessionProviderBinding × Option TurnId × Option String :=
  (row.revision, row.lastSeq, row.lifecycle, row.binding, row.latestTurnId, row.focus)

/-- A change that one session does not show. -/
structure Unshown (db db' : E.Db) (sessionId : SessionId) : Prop where
  session : (db'.sessions.get? sessionId).map shownKey = (db.sessions.get? sessionId).map shownKey
  actives : activeTurn db' sessionId = activeTurn db sessionId
  links : db'.sessionTurns = db.sessionTurns
  turns : ∀ turnId, (db.sessionTurns.get? turnId).isSome = true →
    (db'.turns.get? turnId).map TurnRow.state = (db.turns.get? turnId).map TurnRow.state

theorem Unshown.refl : Unshown db db sessionId := ⟨rfl, rfl, rfl, fun _ _ => rfl⟩

theorem Unshown.trans {middle : E.Db} (first : Unshown db middle sessionId) (second : Unshown middle db' sessionId) :
    Unshown db db' sessionId := by
  refine ⟨second.session.trans first.session, second.actives.trans first.actives, second.links.trans first.links, ?_⟩
  intro turnId linked
  exact (second.turns turnId (by rw [first.links]; exact linked)).trans (first.turns turnId linked)

theorem Unshown.summaries (unshown : Unshown db db' sessionId) :
    sessionTurnSummaries E db' sessionId = sessionTurnSummaries E db sessionId := by
  unfold sessionTurnSummaries
  rw [unshown.links]
  refine List.filterMap_congr ?_
  rintro ⟨turnId, link⟩ member
  have linked := ((Table.mem_select _ _).mp ((List.mem_insertionSort _).mp member)).1
  have state := unshown.turns turnId (by rw [linked]; rfl)
  have mapped := congrArg (Option.map fun state : TurnState =>
    ({ turnId := turnId
       parentTurnId := link.parentTurnId
       ordinal := link.ordinal
       status := sessionTurnStatus state.status
       turnRevision := state.revision
       completedAtMs := link.completedAtMs
       failureCode := state.failure.map TurnFailure.code } : SessionTurnSummary)) state
  simpa only [Option.map_map, Function.comp_def] using mapped

theorem mem_summaries_linked {summary : SessionTurnSummary} (member : summary ∈ sessionTurnSummaries E db sessionId) :
    (db.sessionTurns.get? summary.turnId).isSome = true := by
  obtain ⟨linked, held, shown⟩ := List.mem_filterMap.mp member
  obtain ⟨turn, _, rfl⟩ := Option.map_eq_some_iff.mp shown
  have found := ((Table.mem_select _ _).mp ((List.mem_insertionSort _).mp held)).1
  exact Option.isSome_iff_exists.mpr ⟨_, found⟩

theorem Unshown.pending (unshown : Unshown db db' sessionId) (active : TurnId) :
    pendingRequest E db' active (sessionTurnSummaries E db sessionId) =
      pendingRequest E db active (sessionTurnSummaries E db sessionId) := by
  unfold pendingRequest
  cases found : (sessionTurnSummaries E db sessionId).find? fun turn => turn.turnId = active with
  | none => rfl
  | some summary =>
      have named : summary.turnId = active := by simpa using List.find?_some found
      have linked := mem_summaries_linked (List.mem_of_find?_eq_some found)
      rw [named] at linked
      have state := unshown.turns active linked
      simp only [Option.bind_some]
      cases before : db.turns.get? active with
      | none =>
          rw [before, Option.map_none, Option.map_eq_none_iff] at state
          rw [state]
      | some turn =>
          rw [before, Option.map_some] at state
          obtain ⟨turn', after, same⟩ := Option.map_eq_some_iff.mp state
          rw [after]
          simp only [Option.bind_some, same]

theorem Unshown.header (unshown : Unshown db db' sessionId) (found : db.sessions.get? sessionId = some session) :
    header E db' sessionId = header E db sessionId := by
  have mapped := unshown.session
  rw [found, Option.map_some] at mapped
  obtain ⟨session', after, same⟩ := Option.map_eq_some_iff.mp mapped
  have active := unshown.actives
  unfold activeTurn at active
  simp only [shownKey, Prod.mk.injEq] at same
  obtain ⟨revision, sequence, lifecycle, binding, latest, focus⟩ := same
  simp only [Storage.header, sessionSnapshot, found, after, require, active, unshown.summaries, unshown.pending, bind,
    Except.bind, revision, sequence, lifecycle, binding, latest, focus]
  cases toI64s [0] <;> rfl

/-! ## Calls without an announcement -/

/-- Rows that keep their state keep a linked turn as it is shown. -/
theorem Unshown.of_turns (session : db'.sessions = db.sessions) (actives : activeTurn db' sessionId = activeTurn db sessionId)
    (links : db'.sessionTurns = db.sessionTurns)
    (turns : ∀ turnId, (db.sessionTurns.get? turnId).isSome = true →
      (db'.turns.get? turnId).map TurnRow.state = (db.turns.get? turnId).map TurnRow.state) :
    Unshown db db' sessionId := ⟨by rw [session], actives, links, turns⟩

theorem Retired.unshown {turnId : TurnId} {state : TurnState} {sequence now : Nat}
    (done : Retired turnId state sequence now db db') : Unshown db db' sessionId := by
  rw [done.result]
  refine .of_turns rfl rfl rfl ?_
  intro other linked
  have apart : other ≠ turnId := by
    rintro rfl
    rw [done.unlinked] at linked
    cases linked
  simp only [Table.get?_modify, if_neg apart]

theorem Quiesced.unshown {owner : SessionId} {turnId : TurnId} {token : Nat} {turn : TurnRow}
    (done : Quiesced owner turnId token turn db db') : Unshown db db' sessionId := by
  rw [done.result]
  refine .of_turns rfl ?_ rfl ?_
  · simp only [activeTurn, Table.get?_modify]
    split
    · rw [Option.map_map]
      rfl
    · rfl
  · intro other _
    simp only [Table.get?_modify]
    split
    · rw [Option.map_map]
      rfl
    · rfl

theorem Acquired.unshown {scope : LeaseScope} {owner : String} {now : Nat} {lease : Lease}
    (done : Acquired scope owner now db db' lease) : Unshown db db' sessionId := by
  obtain ⟨adopted, _, turns⟩ := done.turns
  refine .of_turns ?_ ?_ ?_ ?_
  · rw [done.frame]
  · rw [done.frame]
    rfl
  · rw [done.frame]
  · intro turnId _
    rw [turns, Option.map_map]
    congr 1
    funext row
    simp only [Function.comp_apply]
    split <;> rfl

theorem Forked.unshown {source fork : SessionId} {history : List TranscriptEntry} {title : Option String} {now : Nat}
    {row : SessionRow} (done : Forked E source fork history title now db db' row)
    (found : db.sessions.get? sessionId = some session) : Unshown db db' sessionId := by
  have apart : sessionId ≠ fork := by
    rintro rfl
    rw [done.freshSession] at found
    cases found
  refine ⟨by rw [done.sessions, if_neg apart], ?_, ?_, ?_⟩
  · rw [done.frame]
    rfl
  · rw [done.frame]
  · intro turnId _
    rw [done.frame]

/-- A started follow-up has its event. -/
theorem followUp_event {args : FollowUp} {lease : Lease} {now : Nat} {outcome : SessionSnapshot}
    {event : Option StoredSessionEvent}
    (created : createSessionFollowUpV2Inner E db args (some lease) now = .ok ((.created outcome, event), db')) :
    event.isSome = true := by
  simp only [createSessionFollowUpV2Inner, bind_ok, ensure_ok] at created
  obtain ⟨_, _, _, _, replay, _, rest⟩ := created
  cases replay with
  | some snapshot =>
      simp only [Except.ok.injEq, Prod.mk.injEq] at rest
      obtain ⟨⟨impossible, _⟩, _⟩ := rest
      cases impossible
  | none =>
      simp only [bind_ok, insertFollowUp, Except.ok.injEq, Prod.mk.injEq] at rest
      obtain ⟨_, _, _, _, _, _, _, _, _, _, _, _, _, _, ⟨_, _⟩, _, _, _, _, _, ⟨started, _⟩, inserted, _, _, _, _, _, _,
        ⟨_, rfl⟩, _⟩ := rest
      simp only [insertStarted, bind_ok, Except.ok.injEq, Prod.mk.injEq] at inserted
      obtain ⟨_, _, ⟨_, _⟩, _, rfl, _⟩ := inserted
      rfl

theorem recoverLinkedSessionTurn_silent {turnId : TurnId} {token now : Nat} {revision : Option Nat}
    (recovered : recoverLinkedSessionTurn E db sessionId turnId token revision now = .ok (none, db')) : db' = db := by
  simp only [recoverLinkedSessionTurn, bind_ok] at recovered
  obtain ⟨found, _, rest⟩ := recovered
  cases found with
  | none =>
      simp only [Except.ok.injEq, Prod.mk.injEq] at rest
      exact rest.2.symm
  | some turn =>
      simp only [bind_ok, Except.ok.injEq, Prod.mk.injEq] at rest
      obtain ⟨_, _, _, _, impossible, _⟩ := rest
      cases impossible

/-- A sweep without a response has interrupted no linked turn. -/
theorem recoverStale_silent {stales : List (SessionId × TurnId × Nat)} {now : Nat}
    {responses responses' : List SessionCommitResponse}
    (folded : stales.foldlM (fun (progress : List SessionCommitResponse × E.Db) stale => do
        let (response, db) ← recoverLinkedSessionTurn E progress.2 stale.1 stale.2.1 stale.2.2 none now
        .ok (progress.1 ++ response.toList, db)) (responses, db) = .ok (responses', db')) :
    responses <+: responses' ∧ (responses' = responses → db' = db) := by
  induction stales generalizing responses db with
  | nil =>
      simp only [List.foldlM_nil, pure_ok, Prod.mk.injEq] at folded
      obtain ⟨rfl, rfl⟩ := folded
      exact ⟨List.prefix_rfl, fun _ => rfl⟩
  | cons stale stales ih =>
      simp only [List.foldlM_cons, bind_ok, Except.ok.injEq] at folded
      obtain ⟨_, ⟨⟨response, middle⟩, recovered, rfl⟩, rest⟩ := folded
      obtain ⟨longer, still⟩ := ih rest
      refine ⟨(List.prefix_append _ _).trans longer, ?_⟩
      rintro rfl
      cases response with
      | none =>
          rw [still (List.append_nil _).symm]
          exact recoverLinkedSessionTurn_silent recovered
      | some response =>
          have shorter := longer.length_le
          rw [List.length_append] at shorter
          exact absurd shorter (Nat.not_le_of_lt (Nat.lt_add_of_pos_right Nat.zero_lt_one))

theorem recoverAt_silent (mirrored : Mirrored db) {now : Nat} (recovered : recoverAt E db now = .ok ([], db')) :
    Unshown db db' sessionId := by
  simp only [Storage.recoverAt, bind_ok, toI64s_ok, Except.ok.injEq, Prod.mk.injEq] at recovered
  obtain ⟨_, _, ⟨responses, middle⟩, folded, retired, legacy, rfl, rfl⟩ := recovered
  have same := (recoverStale_silent folded).2 rfl
  subst same
  have path := retireStale_retired (staleLegacy mirrored) legacy
  clear legacy folded
  induction path with
  | refl => exact .refl
  | tail _ change ih =>
      obtain ⟨_, _, _, done⟩ := change
      exact ih.trans done.unshown

theorem releaseLease_silent {lease : Lease} {now : Nat} (released : Storage.releaseLease E db lease now = .ok (none, db')) :
    Unshown db db' sessionId := by
  obtain ⟨middle, settled, _, rfl⟩ := releaseLease_ok released
  have quiet : Unshown db middle sessionId := by
    unfold releaseScope at settled
    split at settled
    case h_1 =>
      simp only [Except.ok.injEq, Prod.mk.injEq] at settled
      rw [settled.2]
      exact .refl
    case h_2 =>
      simp only [bind_ok, toI64s_ok] at settled
      obtain ⟨_, _, settled⟩ := settled
      unfold releaseSession at settled
      split at settled
      case h_1 turnId found =>
        simp only [Except.ok.injEq, Prod.mk.injEq] at settled
        obtain ⟨active, turn, foundTurn, turnToken, waiting⟩ := quiescible_eq_some found
        exact Quiesced.unshown ⟨active, foundTurn, turnToken, waiting, settled.2.symm⟩
      case h_2 =>
        split at settled
        case h_1 active held =>
          split at settled
          case isTrue =>
            rw [recoverLinkedSessionTurn_silent settled]
            exact .refl
          case isFalse =>
            simp only [Except.ok.injEq, Prod.mk.injEq] at settled
            rw [settled.2]
            exact .refl
        case h_2 =>
          simp only [Except.ok.injEq, Prod.mk.injEq] at settled
          rw [settled.2]
          exact .refl
  exact ⟨quiet.session, quiet.actives, quiet.links, quiet.turns⟩

theorem recoverLeaseLoss_silent {turnId : TurnId} {lease : Lease} {expected now : Nat} {recovery : SessionLeaseLossRecovery}
    (recovered : recoverSessionAfterLeaseLoss E db sessionId turnId lease expected now = .ok (recovery, db'))
    (silent : ∀ response, recovery ≠ .recovered response) : db' = db := by
  simp only [recoverSessionAfterLeaseLoss, bind_ok, require_ok] at recovered
  obtain ⟨_, _, _, _, _, _, turn, _, rest⟩ := recovered
  split at rest
  case isTrue =>
    simp only [bind_ok, Except.ok.injEq, Prod.mk.injEq] at rest
    obtain ⟨_, _, _, rfl⟩ := rest
    rfl
  case isFalse =>
    simp only [bind_ok] at rest
    obtain ⟨⟨response, middle⟩, recovered, chosen⟩ := rest
    cases response with
    | none =>
        cases chosen
        exact recoverLinkedSessionTurn_silent recovered
    | some response =>
        cases chosen
        exact absurd rfl (silent response)

/-- What a server does to an existing session is announced. -/
theorem exec_silent (reached : Reachable E db) {op : Operation} {reply : Reply} (serves : served op = true)
    (result : exec E db op = .ok (reply, db')) (silent : announcement op reply = none)
    (found : db.sessions.get? sessionId = some session) : Unshown db db' sessionId := by
  cases op with
  | createSession args lease now =>
      cases lease with
      | none => cases serves
      | some lease =>
          simp only [exec, map_ok, Prod.mk.injEq] at result
          obtain ⟨⟨⟨outcome, event⟩, _⟩, created, rfl, rfl⟩ := result
          rcases (createSessionV2Inner_ok created).2 with ⟨_, _, _, rfl⟩ | ⟨_, _, _, _, rfl, _⟩
          · exact .refl
          · cases silent
  | createFollowUp args lease now =>
      cases lease with
      | none => cases serves
      | some lease =>
          simp only [exec, map_ok, Prod.mk.injEq] at result
          obtain ⟨⟨⟨outcome, event⟩, _⟩, created, rfl, rfl⟩ := result
          rcases (createSessionFollowUpV2Inner_ok created).2 with ⟨_, _, _, rfl⟩ | ⟨_, _, _, _, _, _, rfl, _⟩
          · exact .refl
          · obtain ⟨stored, some⟩ := Option.isSome_iff_exists.mp (followUp_event created)
            rw [some] at silent
            cases silent
  | switchBinding sessionId expected binding lease now =>
      simp only [exec, map_ok, Prod.mk.injEq] at result
      obtain ⟨_, _, rfl, _⟩ := result
      cases silent
  | createFork source fork history title now =>
      simp only [exec, map_ok, Prod.mk.injEq] at result
      obtain ⟨⟨_, _⟩, forked, _, rfl⟩ := result
      obtain ⟨_, done⟩ := createSessionFork_ok forked
      exact done.unshown found
  | commit request lease now =>
      simp only [exec, map_ok, Prod.mk.injEq] at result
      obtain ⟨_, _, rfl, _⟩ := result
      cases silent
  | recoverLeaseLoss sessionId turnId lease expected now =>
      simp only [exec, map_ok, Prod.mk.injEq] at result
      obtain ⟨⟨recovery, _⟩, recovered, rfl, rfl⟩ := result
      rw [recoverLeaseLoss_silent recovered fun response same => by rw [same] at silent; cases silent]
      exact .refl
  | recoverAt now =>
      simp only [exec, map_ok, Prod.mk.injEq] at result
      obtain ⟨⟨responses, _⟩, recovered, rfl, rfl⟩ := result
      cases responses with
      | nil => exact recoverAt_silent reached.mirrored recovered
      | cons => cases silent
  | acquireLease scope owner turnId now ttl =>
      simp only [exec, map_ok, Prod.mk.injEq] at result
      obtain ⟨⟨_, _⟩, acquired, _, rfl⟩ := result
      exact (acquireScopedLease_ok acquired).unshown
  | renewLease lease now ttl =>
      simp only [exec, map_ok, Prod.mk.injEq] at result
      obtain ⟨⟨_, _⟩, renewed, _, rfl⟩ := result
      rw [(renewLease_ok renewed).2.2]
      exact .of_turns rfl rfl rfl fun _ _ => rfl
  | releaseLease lease wallNow =>
      simp only [exec, map_ok, Prod.mk.injEq] at result
      obtain ⟨⟨recovery, _⟩, released, rfl, rfl⟩ := result
      cases recovery with
      | none => exact releaseLease_silent released
      | some => cases silent
  | renameSession owner title =>
      simp only [exec, renameSession, map_ok, bind_ok, ensure_ok, Except.ok.injEq, Prod.mk.injEq] at result
      obtain ⟨⟨_, _⟩, ⟨_, _, _, _, _, rfl⟩, _, rfl⟩ := result
      refine ⟨?_, rfl, rfl, fun _ _ => rfl⟩
      simp only [Table.get?_modify]
      split
      · rw [Option.map_map]
        rfl
      · rfl
  | acknowledgeOutbox owner through =>
      simp only [exec, acknowledgeConversationOutbox, map_ok, bind_ok, toI64s_ok, Except.ok.injEq,
        Prod.mk.injEq] at result
      obtain ⟨⟨_, _⟩, ⟨_, _, _, rfl⟩, _, rfl⟩ := result
      exact .of_turns rfl rfl rfl fun _ _ => rfl
  | recordEvidence turnId expected lease evidence now =>
      simp only [exec, recordVerificationEvidence, map_ok, bind_ok, toI64s_ok, unique_ok, Except.ok.injEq,
        Prod.mk.injEq] at result
      obtain ⟨⟨_, _⟩, ⟨_, _, _, _, _, _, _, _, _, _, _, _, _, rfl⟩, _, rfl⟩ := result
      exact .of_turns rfl rfl rfl fun _ _ => rfl
  | createRun state now baseline =>
      simp only [exec, createRunWithBaseline, map_ok, bind_ok, toI64s_ok, unique_ok, Except.ok.injEq,
        Prod.mk.injEq] at result
      obtain ⟨⟨_, _⟩, ⟨_, _, _, fresh, _, freshModel, _, _, _, rfl⟩, _, rfl⟩ := result
      refine .of_turns rfl rfl rfl ?_
      intro turnId linked
      have apart : turnId ≠ state.turnId := by
        rintro rfl
        obtain ⟨link, held⟩ := Option.isSome_iff_exists.mp linked
        have present := reached.graph.linkTurn _ link held
        rw [fresh] at present
        cases present
      simp only [Table.get?_add_fresh _ _ fresh, if_neg apart]

end LatteCode.Storage
