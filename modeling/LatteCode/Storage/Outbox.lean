import LatteCode.Storage.SessionLog
/- The outbox of a session: calls append to it, and only an acknowledgement takes from it. -/

namespace LatteCode.Storage
open Keyed Outcome Relation Runs

variable {E : Environment} {db middle db' : E.Db} {sessionId : SessionId}

/-- The rows of one session, in insertion order. -/
def outboxOf (db : E.Db) (sessionId : SessionId) : List ((SessionId × Nat) × OutboxRow) :=
  db.conversationOutbox.select fun key _ => key.1 = sessionId

/-- What a query over the entries of a session finds, `ORDER BY seq ASC`. -/
theorem outbox_sorted {entries : List TranscriptEntry}
    (rows : (outboxOf db sessionId).Perm (entries.map (outboxRow sessionId)))
    (climbing : entries.Pairwise fun first second => first.sequence < second.sequence)
    (p : SessionId × Nat → OutboxRow → Bool) :
    (db.conversationOutbox.select fun key row => key.1 = sessionId && p key row).insertionSort
        (fun a b => a.1.2 ≤ b.1.2) =
      (entries.filter fun entry => p (outboxRow sessionId entry).1 (outboxRow sessionId entry).2).map
        (outboxRow sessionId) := by
  have chosen : (db.conversationOutbox.select fun key row => key.1 = sessionId && p key row).Perm
      ((entries.filter fun entry => p (outboxRow sessionId entry).1 (outboxRow sessionId entry).2).map
        (outboxRow sessionId)) := by
    have filtered := rows.filter fun row => p row.1 row.2
    rw [List.filter_map, outboxOf, Table.select, List.filter_filter] at filtered
    refine (List.Perm.of_eq (List.filter_congr fun row _ => ?_)).trans filtered
    exact Bool.and_comm _ _
  have inOrder : ((entries.filter fun entry => p (outboxRow sessionId entry).1 (outboxRow sessionId entry).2).map
      (outboxRow sessionId)).Pairwise fun a b => a.1.2 < b.1.2 :=
    List.pairwise_map.mpr (climbing.filter _)
  refine ((List.perm_insertionSort _ _).trans chosen).eq_of_pairwise ?_ (List.pairwise_insertionSort _ _)
    (inOrder.imp Nat.le_of_lt)
  intro a b here there below above
  have distinct := inOrder.imp Nat.ne_of_lt
  have here' := chosen.mem_iff.mp ((List.perm_insertionSort _ _).mem_iff.mp here)
  exact List.inj_on_of_nodup_map (List.pairwise_map.mpr distinct) here' there (Nat.le_antisymm below above)

theorem outboxEntries_of {entries : List TranscriptEntry}
    (rows : (outboxOf db sessionId).Perm (entries.map (outboxRow sessionId)))
    (climbing : entries.Pairwise fun first second => first.sequence < second.sequence) (after : Option Nat) :
    outboxEntries E db sessionId after = entries.filter fun entry => after.all (· < entry.sequence) := by
  rw [outboxEntries, outbox_sorted rows climbing, List.map_map]
  exact List.map_id _

/-- Whether a call takes entries of this session out of the outbox. -/
def drains (sessionId : SessionId) : Operation → Bool
  | .acknowledgeOutbox owner _ => owner = sessionId
  | _ => false

theorem OutboxGrown.outboxOf {cards : List TranscriptEntry} (grown : OutboxGrown db db' sessionId cards) :
    outboxOf db' sessionId = outboxOf db sessionId ++
      (appendedEntries db db' sessionId).map (outboxRow sessionId) := by
  rw [grown.entries]
  obtain ⟨new, rows, mine⟩ := grown
  rw [Storage.outboxOf, Table.select, rows, List.filter_append, mine]
  rfl

theorem LogChange.grown (change : LogChange db db') : ∃ cards, OutboxGrown db db' sessionId cards := by
  cases change with
  | quiet _ _ outbox => exact ⟨[], .same outbox⟩
  | @moved owner _ _ _ _ _ _ _ outbox | @born owner _ _ _ _ _ _ _ outbox =>
      by_cases here : sessionId = owner
      · subst here
        exact ⟨_, .own outbox⟩
      · exact ⟨[], .other here outbox⟩

theorem Housekeeping.path_grown (path : ReflTransGen (Housekeeping E) db db') :
    ∃ cards, OutboxGrown db db' sessionId cards := by
  induction path with
  | refl => exact ⟨[], .same rfl⟩
  | tail _ change ih =>
      obtain ⟨_, first⟩ := ih
      obtain ⟨_, second⟩ := change.log_change.grown
      exact ⟨_, first.trans second⟩

/-- A call that acknowledges nothing only appends. -/
theorem exec_grown {op : Operation} {reply : Reply} (mirrored : Mirrored db)
    (keeps : ∀ owner through, op ≠ .acknowledgeOutbox owner through) (result : exec E db op = .ok (reply, db')) :
    ∃ cards, OutboxGrown db db' sessionId cards := by
  cases op with
  | createSession args lease now =>
      simp only [exec, map_ok, Prod.mk.injEq] at result
      obtain ⟨⟨⟨_, _⟩, _⟩, created, _, rfl⟩ := result
      rcases (createSessionV2Inner_ok created).2 with ⟨_, _, _, rfl⟩ | ⟨_, _, _, _, _, done⟩
      · exact ⟨[], .same rfl⟩
      · exact done.log_change.grown
  | createFollowUp args lease now =>
      simp only [exec, map_ok, Prod.mk.injEq] at result
      obtain ⟨⟨⟨_, _⟩, _⟩, created, _, rfl⟩ := result
      rcases (createSessionFollowUpV2Inner_ok created).2 with ⟨_, _, _, rfl⟩ | ⟨_, _, _, _, _, _, _, done⟩
      · exact ⟨[], .same rfl⟩
      · exact done.log_change.grown
  | switchBinding owner expected binding lease now =>
      simp only [exec, map_ok, Prod.mk.injEq] at result
      obtain ⟨⟨_, _⟩, switched, _, rfl⟩ := result
      obtain ⟨_, _, _, _, done⟩ := switchSessionBindingV2_ok switched
      exact done.log_change.grown
  | createFork source fork history title now =>
      simp only [exec, map_ok, Prod.mk.injEq] at result
      obtain ⟨⟨_, _⟩, forked, _, rfl⟩ := result
      obtain ⟨_, done⟩ := createSessionFork_ok forked
      exact done.log_change.grown
  | commit request lease now =>
      simp only [exec, map_ok, Prod.mk.injEq] at result
      obtain ⟨⟨_, _⟩, committed, rfl, rfl⟩ := result
      rcases (commitSessionTurnUpdate_ok mirrored committed).2 with
        ⟨_, _, _, _, rfl⟩ | ⟨_, _, _, _, _, rfl⟩ | ⟨_, _, _, _, _, _, _, _, done⟩
      · exact ⟨[], .same rfl⟩
      · exact ⟨[], .same rfl⟩
      · exact done.log_change.grown
  | recoverLeaseLoss owner turnId lease expected now =>
      simp only [exec, map_ok, Prod.mk.injEq] at result
      obtain ⟨⟨_, _⟩, recovered, _, rfl⟩ := result
      exact Housekeeping.path_grown (Recovery.path_housekeeping (recoverSessionAfterLeaseLoss_path mirrored recovered))
  | recoverAt now =>
      simp only [exec, map_ok, Prod.mk.injEq] at result
      obtain ⟨⟨_, _⟩, recovered, _, rfl⟩ := result
      exact Housekeeping.path_grown (Recovery.path_housekeeping (recoverAt_path mirrored recovered))
  | acquireLease scope owner turnId now ttl =>
      simp only [exec, map_ok, Prod.mk.injEq] at result
      obtain ⟨⟨_, _⟩, acquired, _, rfl⟩ := result
      refine ⟨[], .same ?_⟩
      rw [(acquireScopedLease_ok acquired).frame]
  | renewLease lease now ttl =>
      simp only [exec, map_ok, Prod.mk.injEq] at result
      obtain ⟨⟨_, _⟩, renewed, _, rfl⟩ := result
      refine ⟨[], .same ?_⟩
      rw [(renewLease_ok renewed).2.2]
  | releaseLease lease wallNow =>
      simp only [exec, map_ok, Prod.mk.injEq] at result
      obtain ⟨⟨_, _⟩, released, _, rfl⟩ := result
      exact Housekeeping.path_grown (releaseLease_path mirrored released)
  | renameSession owner title =>
      simp only [exec, renameSession, map_ok, bind_ok, ensure_ok, Except.ok.injEq, Prod.mk.injEq] at result
      obtain ⟨⟨_, _⟩, ⟨_, _, _, _, _, rfl⟩, _, rfl⟩ := result
      exact ⟨[], .same rfl⟩
  | acknowledgeOutbox owner through => exact absurd rfl (keeps owner through)
  | recordEvidence turnId expected lease evidence now =>
      simp only [exec, recordVerificationEvidence, map_ok, bind_ok, toI64s_ok, unique_ok, Except.ok.injEq,
        Prod.mk.injEq] at result
      obtain ⟨⟨_, _⟩, ⟨_, _, _, _, _, _, _, _, _, _, _, _, _, rfl⟩, _, rfl⟩ := result
      exact ⟨[], .same rfl⟩
  | createRun state now baseline =>
      simp only [exec, createRunWithBaseline, map_ok, bind_ok, toI64s_ok, unique_ok, Except.ok.injEq,
        Prod.mk.injEq] at result
      obtain ⟨⟨_, _⟩, ⟨_, _, _, _, _, _, _, _, _, rfl⟩, _, rfl⟩ := result
      exact ⟨[], .same rfl⟩

/-- What a call leaves in the outbox of a session, unless it acknowledges entries there. -/
theorem step_outboxOf (reached : Reachable E db) {op : Operation} (keeps : drains sessionId op = false) :
    outboxOf (step E db op) sessionId = outboxOf db sessionId ++
      (appendedEntries db (step E db op) sessionId).map (outboxRow sessionId) := by
  cases result : exec E db op with
  | error e =>
      have same : step E db op = db := by rw [step, result]
      have grown : OutboxGrown db db sessionId [] := .same rfl
      rw [same]
      exact grown.outboxOf
  | ok value =>
      obtain ⟨reply, db'⟩ := value
      have stepped : step E db op = db' := by rw [step, result]
      rw [stepped]
      by_cases acknowledges : ∃ owner through, op = .acknowledgeOutbox owner through
      · obtain ⟨owner, through, rfl⟩ := acknowledges
        have differs : owner ≠ sessionId := of_decide_eq_false keeps
        simp only [exec, acknowledgeConversationOutbox, map_ok, bind_ok, toI64s_ok, Except.ok.injEq,
          Prod.mk.injEq] at result
        obtain ⟨⟨_, _⟩, ⟨_, _, _, rfl⟩, _, rfl⟩ := result
        rw [drained_entries rfl, List.map_nil, List.append_nil, outboxOf, outboxOf, Table.select, Table.select,
          Table.deleteWhere, List.filter_filter]
        refine List.filter_congr ?_
        intro row _
        by_cases mine : row.1.1 = sessionId
        · simp [mine, differs.symm]
        · simp [mine]
      · have grows : ∃ cards, OutboxGrown db db' sessionId cards := exec_grown reached.mirrored
          (fun owner through same => acknowledges ⟨owner, through, same⟩) result
        obtain ⟨_, grown⟩ := grows
        exact grown.outboxOf

/-- The acknowledgement of a session takes its entries up to a sequence. -/
theorem acknowledge_outboxOf {through : Nat} (range : through < 2 ^ 63) :
    ∃ db', exec E db (.acknowledgeOutbox sessionId through) = .ok (.done, db') ∧
      db' = { db with conversationOutbox := db'.conversationOutbox } ∧
      appendedEntries db db' sessionId = [] ∧
      outboxOf db' sessionId = (outboxOf db sessionId).filter fun row => through < row.1.2 := by
  refine ⟨{ db with conversationOutbox := db.conversationOutbox.deleteWhere fun key _ =>
    key.1 = sessionId && decide (key.2 ≤ through) }, ?_, rfl, drained_entries rfl, ?_⟩
  · rw [exec, map_ok]
    exact ⟨((), _), bind_ok.mpr ⟨(), toI64s_ok.mpr (List.forall_mem_singleton.mpr range), rfl⟩, rfl⟩
  · rw [outboxOf, outboxOf, Table.select, Table.select, Table.deleteWhere, List.filter_filter, List.filter_filter]
    refine List.filter_congr ?_
    intro row _
    by_cases later : through < row.1.2
    · simp [later, Nat.not_le.mpr later]
    · simp [later, Nat.not_lt.mp later]

/-- Every sequence in the outbox fits the column. -/
def OutboxRanged (db : E.Db) : Prop := ∀ row ∈ db.conversationOutbox.rows, row.1.2 < 2 ^ 63

theorem OutboxRanged.grown {owner : SessionId} {cards : List TranscriptEntry} (held : OutboxRanged db)
    (outbox : db'.conversationOutbox.rows = db.conversationOutbox.rows ++ cards.map (outboxRow owner))
    (ranged : ∀ card ∈ cards, card.sequence < 2 ^ 63) : OutboxRanged db' := by
  intro row member
  rw [outbox, List.mem_append] at member
  rcases member with old | new
  · exact held row old
  · obtain ⟨card, added, rfl⟩ := List.mem_map.mp new
    exact ranged card added

theorem Reachable.outboxRanged (reached : Reachable E db) : OutboxRanged db := by
  refine reached.invariant (List.forall_mem_nil _) ?_
  intro db db' _ held change
  rcases change.log_change with change | ⟨drained, rfl⟩
  · cases change with
    | quiet _ _ outbox =>
        rw [OutboxRanged, outbox]
        exact held
    | moved _ _ _ outbox ranged | born _ _ _ outbox ranged => exact held.grown outbox ranged
  · intro row member
    exact held row (List.mem_filter.mp member).1

end LatteCode.Storage
