import LatteCode.Tui.Settled
/- The three places of a prompt, and every way an input moves what they hold. -/

namespace LatteCode.Tui
open Runs

/-- What is typed, submitted and put aside, and whether the submission has failed. -/
structure Buffers where
  composer : String
  pending : Option PendingSubmission
  deferred : Option String
  next : Nat
  queued : Option String
  failed : Bool

/-- No submission is asked for. -/
def Unsubmitted (reduced : Reduced) : Prop := ∀ action ∈ reduced.2, action.submission = none

/-- A key or a paste. -/
def SessionUiInput.edits : SessionUiInput → Bool
  | .key .. | .paste _ => true
  | _ => false

/-- The sessions that an authoritative projection shows. -/
def SessionUiInput.projection : SessionUiInput → Option (List SessionSnapshot)
  | .snapshot sessions => some sessions
  | .sessionOpened opened => some [opened]
  | _ => none

namespace SessionUiModel

variable (E : TuiEnvironment) (model : SessionUiModel)

def buffers : Buffers :=
  ⟨model.composer, model.pendingSubmission, model.deferredComposerDraft, model.nextSubmissionId, model.queuedFollowUp,
    model.submissionRefresh.composer⟩

/-- The pending submission, with the session that the input assigns to it. -/
def answering : SessionUiInput → Option PendingSubmission
  | .submissionAssigned submissionId sessionId => model.pendingSubmission.map fun pending =>
      if pending.submissionId = submissionId then { pending with sessionId := some sessionId } else pending
  | _ => model.pendingSubmission

end SessionUiModel

namespace Buffers

variable (buffers : Buffers)

/-- The submission is durable: a draft put aside returns to an empty composer. -/
def accepted : Buffers :=
  { buffers with
    composer := if buffers.composer = "" then buffers.deferred.getD "" else buffers.composer
    pending := none
    deferred := if buffers.composer = "" then none else buffers.deferred
    queued := none
    failed := false }

/-- The prompt returns to the composer, and what was typed meanwhile is put aside. -/
def restored (prompt : String) : Buffers :=
  { buffers with
    composer := prompt
    pending := none
    deferred := if buffers.composer = "" then buffers.deferred else some buffers.composer
    queued := none
    failed := false }

/-- The prompt leaves the composer under the next number. -/
def submitted (sessionId : Option SessionId) (afterSequence : Nat) : Buffers :=
  { buffers with
    composer := ""
    pending := some ⟨buffers.next, buffers.composer, sessionId, afterSequence⟩
    next := saturatingAdd buffers.next 1 }

end Buffers

/-- Every way an input moves a prompt, while no follow-up is queued in the terminal itself. -/
inductive BufferMove (E : TuiEnvironment) (model : SessionUiModel) : SessionUiInput → Reduced → Prop
  | keeps {input : SessionUiInput} {reduced : Reduced} (plain : input.projection = none)
      (same : reduced.1.buffers = model.buffers) (silent : Unsubmitted reduced) : BufferMove E model input reduced
  | settles {input : SessionUiInput} {reduced : Reduced} {sessions : List SessionSnapshot}
      (projects : input.projection = some sessions)
      (waiting : model.pendingSubmission.isSome = true → model.submissionRefresh.composer = false)
      (same : reduced.1.buffers = model.buffers) (silent : Unsubmitted reduced) : BufferMove E model input reduced
  | edits {input : SessionUiInput} {reduced : Reduced} (typed : input.edits = true) (composer : String) (next : Nat)
      (grows : model.nextSubmissionId ≤ next) (limit : next ≤ 2 ^ 64 - 1)
      (moved : reduced.1.buffers = { model.buffers with composer := composer, next := next })
      (silent : Unsubmitted reduced) : BufferMove E model input reduced
  | submits {key : KeyEvent} {now : Nat} {model' : SessionUiModel} {action : SessionUiAction}
      (idle : model.pendingSubmission = none) (nonblank : trim model.composer ≠ "") (sessionId : Option SessionId)
      (afterSequence : Nat) (moved : model'.buffers = model.buffers.submitted sessionId afterSequence)
      (carries : action.submission = some (model.nextSubmissionId, model.composer)) :
      BufferMove E model (.key key now) (model', [action])
  | assigns {input : SessionUiInput} {model' : SessionUiModel} {pending : PendingSubmission}
      (plain : input.projection = none) (answers : model.answering input = some pending)
      (moved : model'.buffers = { model.buffers with pending := some pending }) : BufferMove E model input (model', [])
  | fails {model' : SessionUiModel} {pending : PendingSubmission} (held : model.pendingSubmission = some pending)
      (moved : model'.buffers = { model.buffers with failed := true }) :
      BufferMove E model (.submissionError pending.submissionId) (model', [.refreshSnapshots])
  | accepts {input : SessionUiInput} {reduced : Reduced} {pending : PendingSubmission} (arrives : input.edits = false)
      (answers : model.answering input = some pending) (durable : pending.durable E reduced.1.sessions = true)
      (moved : reduced.1.buffers = model.buffers.accepted) (silent : Unsubmitted reduced) : BufferMove E model input reduced
  | restores {input : SessionUiInput} {reduced : Reduced} {pending : PendingSubmission} {sessions : List SessionSnapshot}
      (held : model.pendingSubmission = some pending) (failed : model.submissionRefresh.composer = true)
      (projects : input.projection = some sessions) (shown : reduced.1.sessions = sessions)
      (lost : pending.durable E sessions = false) (moved : reduced.1.buffers = model.buffers.restored pending.prompt)
      (silent : Unsubmitted reduced) : BufferMove E model input reduced

namespace SessionUiModel

variable (E : TuiEnvironment) (model : SessionUiModel)

/-! ## Projections -/

theorem acceptSubmission_buffers : model.acceptSubmission.buffers = model.buffers.accepted := by
  unfold acceptSubmission
  simp only
  split
  case isTrue empty =>
    cases put : model.deferredComposerDraft with
    | none => simp [buffers, Buffers.accepted, empty, put]
    | some draft => simp [buffers, Buffers.accepted, empty, put]
  case isFalse typed => simp [buffers, Buffers.accepted, typed]

theorem restorePendingSubmission_buffers {pending : PendingSubmission} (held : model.pendingSubmission = some pending) :
    model.restorePendingSubmission.buffers = model.buffers.restored pending.prompt := by
  unfold restorePendingSubmission
  rw [held]
  rfl

theorem reconcilePendingInputSubmission_buffers :
    (model.reconcilePendingInputSubmission E).buffers = model.buffers := by
  unfold reconcilePendingInputSubmission
  split
  · split <;> rfl
  · rfl

theorem reconcilePendingModelSwitch_buffers : model.reconcilePendingModelSwitch.buffers = model.buffers := by
  unfold reconcilePendingModelSwitch
  split
  · split <;> rfl
  · rfl

theorem finalizeFailedInput_buffers : model.finalizeFailedInput.buffers = model.buffers := by
  unfold finalizeFailedInput
  split
  · split <;> rfl
  · rfl

theorem synchronizeInputTarget_buffers : model.synchronizeInputTarget.buffers = model.buffers := by
  unfold synchronizeInputTarget
  split
  · rfl
  · simp only
    split <;> rfl

theorem restoreStrandedFollowUp_idle (idle : model.queuedFollowUp = none) : model.restoreStrandedFollowUp = model := by
  unfold restoreStrandedFollowUp stranded
  rw [idle]
  rfl

theorem reconcilePendingSubmission_durable {pending : PendingSubmission} (held : model.pendingSubmission = some pending)
    (durable : pending.durable E model.sessions = true) :
    (model.reconcilePendingSubmission E).buffers = model.buffers.accepted := by
  rw [reconcilePendingSubmission, held]
  simp only
  rw [if_pos durable]
  exact model.acceptSubmission_buffers

theorem reconcilePendingSubmission_lost {pending : PendingSubmission} (held : model.pendingSubmission = some pending)
    (lost : pending.durable E model.sessions = false) : model.reconcilePendingSubmission E = model := by
  rw [reconcilePendingSubmission, held]
  simp only
  rw [lost]
  rfl

theorem reconcilePendingSubmission_idle (idle : model.pendingSubmission = none) :
    model.reconcilePendingSubmission E = model := by
  rw [reconcilePendingSubmission, idle]

theorem finalizeFailedComposer_idle (idle : model.pendingSubmission = none) : model.finalizeFailedComposer = model := by
  rw [finalizeFailedComposer, idle, Option.isSome_none, Bool.and_false]
  rfl

theorem finalizeFailedComposer_failed {pending : PendingSubmission} (held : model.pendingSubmission = some pending)
    (failed : model.submissionRefresh.composer = true) :
    model.finalizeFailedComposer.buffers = model.buffers.restored pending.prompt := by
  rw [finalizeFailedComposer, held, failed]
  exact model.restorePendingSubmission_buffers held

theorem finalizeFailedComposer_unanswered (waiting : model.submissionRefresh.composer = false) :
    model.finalizeFailedComposer = model := by
  rw [finalizeFailedComposer, waiting, Bool.false_and]
  rfl

/-- The stages after the failed submission is restored leave the buffers alone, and so do those before it. -/
theorem settleProjection_stages {first : Buffers} (reconciled : (model.reconcilePendingSubmission E).buffers = first)
    {second : Buffers} (finalized : ∀ middle : SessionUiModel, middle.buffers = first →
      middle.finalizeFailedComposer.buffers = second) (idle : second.queued = none) :
    (model.settleProjection E).buffers = second := by
  have before := ((reconcilePendingModelSwitch_buffers _).trans
    ((model.reconcilePendingSubmission E).reconcilePendingInputSubmission_buffers E)).trans reconciled
  have after : (finalizeFailedSubmissionsAfterSnapshot (((model.reconcilePendingSubmission E
      ).reconcilePendingInputSubmission E).reconcilePendingModelSwitch)).buffers = second :=
    (finalizeFailedInput_buffers _).trans (finalized _ before)
  rw [settleProjection, synchronizeInputTarget_buffers,
    restoreStrandedFollowUp_idle _ ((congrArg Buffers.queued after).trans idle)]
  exact after

/-- A projection accepts a durable submission, restores a failed one, and leaves the rest alone. -/
inductive SettleMove : Buffers → Prop
  | keeps (waiting : model.pendingSubmission.isSome = true → model.submissionRefresh.composer = false) :
      SettleMove model.buffers
  | accepts {pending : PendingSubmission} (held : model.pendingSubmission = some pending)
      (durable : pending.durable E model.sessions = true) : SettleMove model.buffers.accepted
  | restores {pending : PendingSubmission} (held : model.pendingSubmission = some pending)
      (lost : pending.durable E model.sessions = false) (failed : model.submissionRefresh.composer = true) :
      SettleMove (model.buffers.restored pending.prompt)

theorem settleProjection_move (idle : model.queuedFollowUp = none) :
    SettleMove E model (model.settleProjection E).buffers := by
  cases held : model.pendingSubmission with
  | none =>
      have same : (model.settleProjection E).buffers = model.buffers := by
        refine settleProjection_stages E model (congrArg buffers (model.reconcilePendingSubmission_idle E held)) ?_ idle
        intro middle still
        rw [finalizeFailedComposer_idle _ ((congrArg Buffers.pending still).trans held), still]
      rw [same]
      refine .keeps fun pends => ?_
      rw [held] at pends
      cases pends
  | some pending =>
      cases durable : pending.durable E model.sessions with
      | true =>
          have taken : (model.settleProjection E).buffers = model.buffers.accepted := by
            refine settleProjection_stages E model (model.reconcilePendingSubmission_durable E held durable) ?_ rfl
            intro middle still
            rw [finalizeFailedComposer_idle _ (congrArg Buffers.pending still), still]
          rw [taken]
          exact .accepts held durable
      | false =>
          have reconciled := congrArg buffers (model.reconcilePendingSubmission_lost E held durable)
          cases failed : model.submissionRefresh.composer with
          | false =>
              have same : (model.settleProjection E).buffers = model.buffers := by
                refine settleProjection_stages E model reconciled (fun middle still => ?_) idle
                rw [finalizeFailedComposer_unanswered _ ((congrArg Buffers.failed still).trans failed), still]
              rw [same]
              exact .keeps fun _ => failed
          | true =>
              have back : (model.settleProjection E).buffers = model.buffers.restored pending.prompt := by
                refine settleProjection_stages E model reconciled (fun middle still => ?_) rfl
                rw [finalizeFailedComposer_failed _ ((congrArg Buffers.pending still).trans held)
                  ((congrArg Buffers.failed still).trans failed), still]
              rw [back]
              exact .restores held durable failed

/-! ## Inputs -/

theorem adoptAssignedSession_buffers : model.adoptAssignedSession.buffers = model.buffers := by
  unfold adoptAssignedSession
  split
  · split <;> rfl
  · rfl

theorem adoptAssignedSession_sessions : model.adoptAssignedSession.sessions = model.sessions := by
  unfold adoptAssignedSession
  split
  · split <;> rfl
  · rfl

theorem showSnapshot_buffers (sessions : List SessionSnapshot) :
    (model.showSnapshot sessions).buffers = model.buffers ∧ (model.showSnapshot sessions).sessions = sessions := by
  have adopted := ({ model with sessions := sessions }).adoptAssignedSession_buffers
  have shown := ({ model with sessions := sessions }).adoptAssignedSession_sessions
  unfold showSnapshot closeOverlaysWhenBlocked
  simp only
  split
  · exact ⟨adopted, shown⟩
  · exact ⟨adopted, shown⟩

theorem dropStaleConfirmation_still :
    model.dropStaleConfirmation.buffers = model.buffers ∧ model.dropStaleConfirmation.sessions = model.sessions := by
  unfold dropStaleConfirmation
  split <;> exact ⟨rfl, rfl⟩

theorem dispatchQueued_idle (idle : model.queuedFollowUp = none) : model.dispatchQueued = (model, []) := by
  unfold dispatchQueued
  rw [idle]

theorem settleProjection_sessions : (model.settleProjection E).sessions = model.sessions :=
  congrArg (fun focus => focus.selection.sessions) (model.settleProjection_focus E)

variable {E model}

theorem SettleMove.queued {settled : Buffers} (move : SettleMove E model settled) (idle : model.queuedFollowUp = none) :
    settled.queued = none := by
  cases move with
  | keeps => exact idle
  | accepts | restores => rfl

theorem edits_of_projection {input : SessionUiInput} {sessions : List SessionSnapshot}
    (projects : input.projection = some sessions) : input.edits = false := by
  cases input with
  | snapshot | sessionOpened => rfl
  | _ => cases projects

/-- What a projection settles is a move of the terminal that it was shown to. -/
theorem SettleMove.lift {shown : SessionUiModel} {settled : Buffers} (move : SettleMove E shown settled)
    (same : shown.buffers = model.buffers) {input : SessionUiInput} (projects : input.projection = some shown.sessions)
    (plain : model.answering input = model.pendingSubmission) {model' : SessionUiModel} (moved : model'.buffers = settled)
    (still : model'.sessions = shown.sessions) : BufferMove E model input (model', []) := by
  have silent : Unsubmitted (model', []) := List.forall_mem_nil _
  have held : shown.pendingSubmission = model.pendingSubmission := congrArg Buffers.pending same
  have answer : shown.submissionRefresh.composer = model.submissionRefresh.composer := congrArg Buffers.failed same
  cases move with
  | keeps waiting =>
      refine .settles projects (fun pends => answer.symm.trans (waiting ?_)) (moved.trans same) silent
      rw [held]
      exact pends
  | @accepts pending pends durable =>
      rw [same] at moved
      exact .accepts (edits_of_projection projects) (plain.trans (held.symm.trans pends)) (still.symm ▸ durable) moved
        silent
  | restores pends lost failed =>
      rw [same] at moved
      exact .restores (held.symm.trans pends) (answer.symm.trans failed) projects still lost moved silent

theorem reduceSnapshot_move (idle : model.queuedFollowUp = none) (sessions : List SessionSnapshot) :
    BufferMove E model (.snapshot sessions) (model.reduceSnapshot E sessions) := by
  obtain ⟨same, shown⟩ := model.showSnapshot_buffers sessions
  have queued : (model.showSnapshot sessions).queuedFollowUp = none := (congrArg Buffers.queued same).trans idle
  have move := settleProjection_move E (model.showSnapshot sessions) queued
  obtain ⟨kept, still⟩ := ((model.showSnapshot sessions).settleProjection E).dropStaleConfirmation_still
  have left : ((model.showSnapshot sessions).settleProjection E).dropStaleConfirmation.queuedFollowUp = none :=
    (congrArg Buffers.queued kept).trans (move.queued queued)
  rw [reduceSnapshot, dispatchQueued_idle _ left]
  have projects : (SessionUiInput.snapshot sessions).projection = some (model.showSnapshot sessions).sessions := by
    rw [shown]
    rfl
  exact move.lift same projects rfl kept (still.trans (settleProjection_sessions E _))

theorem reduceSessionOpened_move (idle : model.queuedFollowUp = none) (snapshot : SessionSnapshot) :
    BufferMove E model (.sessionOpened snapshot) (model.reduceSessionOpened E snapshot) := by
  have move := settleProjection_move E (model.showOpened snapshot) idle
  have same : (model.showOpened snapshot).buffers = model.buffers := rfl
  exact move.lift same rfl rfl rfl (settleProjection_sessions E _)

/-- Outside a projection, a durable submission is accepted and nothing is restored. -/
theorem reconcilePendingSubmission_move {shown : SessionUiModel} {input : SessionUiInput} {pending : PendingSubmission}
    (arrives : input.edits = false) (plain : input.projection = none) (answers : model.answering input = some pending)
    (same : shown.buffers = { model.buffers with pending := some pending }) {model' : SessionUiModel}
    (moved : model'.buffers = (shown.reconcilePendingSubmission E).buffers) (still : model'.sessions = shown.sessions) :
    BufferMove E model input (model', []) := by
  have held : shown.pendingSubmission = some pending := congrArg Buffers.pending same
  cases durable : pending.durable E shown.sessions with
  | true =>
      rw [shown.reconcilePendingSubmission_durable E held durable, same] at moved
      exact .accepts arrives answers (still.symm ▸ durable) moved (List.forall_mem_nil _)
  | false =>
      rw [shown.reconcilePendingSubmission_lost E held durable, same] at moved
      exact .assigns plain answers moved

theorem reduceEvent_move (event : SessionEventEnvelope) :
    BufferMove E model (.event event) (model.reduceEvent E event) := by
  have refresh : ∀ model' : SessionUiModel, model'.buffers = model.buffers →
      BufferMove E model (.event event) (model', [.refreshSnapshots]) := fun model' same =>
    .keeps rfl same (List.forall_mem_singleton.mpr rfl)
  unfold reduceEvent
  split
  · exact refresh _ rfl
  split
  · exact refresh _ rfl
  split
  · exact refresh _ rfl
  · have moved := (synchronizeInputTarget_buffers _).trans (((model.showSessionEvent event).reconcilePendingSubmission E
      ).reconcilePendingInputSubmission_buffers E)
    have focus := (synchronizeInputTarget_focus _).trans ((reconcilePendingInputSubmission_focus E _).trans
      ((model.showSessionEvent event).reconcilePendingSubmission_focus E))
    have still := congrArg (fun focus => focus.selection.sessions) focus
    cases held : model.pendingSubmission with
    | none =>
        refine .keeps rfl (moved.trans ?_) (List.forall_mem_nil _)
        rw [(model.showSessionEvent event).reconcilePendingSubmission_idle E held]
        rfl
    | some pending =>
        have same : (model.showSessionEvent event).buffers = { model.buffers with pending := some pending } := by
          rw [← held]
          rfl
        exact @reconcilePendingSubmission_move E model _ (.event event) pending rfl rfl held same _ moved still

theorem reduceSubmissionAssigned_move (submissionId : Nat) (sessionId : SessionId) :
    BufferMove E model (.submissionAssigned submissionId sessionId)
      (model.reduceSubmissionAssigned E submissionId sessionId, []) := by
  unfold reduceSubmissionAssigned
  split
  · exact .keeps rfl rfl (List.forall_mem_nil _)
  case h_2 pending found =>
    obtain ⟨held, own⟩ := Option.filter_eq_some_iff.mp found
    have answers : model.answering (.submissionAssigned submissionId sessionId) =
        some { pending with sessionId := some sessionId } := by
      rw [answering, held, Option.map_some, if_pos (of_decide_eq_true own)]
    simp only
    split
    · split
      · exact reconcilePendingSubmission_move rfl rfl answers rfl rfl (congrArg (fun focus => focus.selection.sessions)
          (reconcilePendingSubmission_focus E _))
      · exact reconcilePendingSubmission_move rfl rfl answers rfl rfl (congrArg (fun focus => focus.selection.sessions)
          (reconcilePendingSubmission_focus E _))
    · exact reconcilePendingSubmission_move rfl rfl answers rfl rfl (congrArg (fun focus => focus.selection.sessions)
        (reconcilePendingSubmission_focus E _))

/-! ## Keys -/

theorem reduceInterrupt_buffers (now : Nat) : (model.reduceInterrupt now).1.buffers = model.buffers := by
  unfold reduceInterrupt
  split
  · rfl
  split
  · rfl
  · simp only
    split <;> rfl

theorem reduceInterrupt_unsubmitted (now : Nat) : Unsubmitted (model.reduceInterrupt now) := by
  unfold reduceInterrupt
  split
  · exact List.forall_mem_nil _
  split
  · exact List.forall_mem_singleton.mpr rfl
  · simp only
    split
    · exact List.forall_mem_singleton.mpr rfl
    · exact List.forall_mem_nil _

theorem reduceConfirmationKey_buffers (key : KeyEvent) (c : SessionId × String) :
    (model.reduceConfirmationKey key c).1.buffers = model.buffers ∧ Unsubmitted (model.reduceConfirmationKey key c) := by
  unfold reduceConfirmationKey
  split
  · exact ⟨rfl, List.forall_mem_nil _⟩
  split
  · exact ⟨rfl, List.forall_mem_singleton.mpr rfl⟩
  · split <;> exact ⟨rfl, List.forall_mem_nil _⟩

theorem reduceReconciliationKey_buffers (key : KeyEvent) (session : SessionSnapshot) :
    (model.reduceReconciliationKey key session).1.buffers = model.buffers ∧
      Unsubmitted (model.reduceReconciliationKey key session) := by
  unfold reduceReconciliationKey
  split
  · split <;> exact ⟨rfl, List.forall_mem_nil _⟩
  · exact ⟨rfl, List.forall_mem_nil _⟩

theorem reducePermissionKey_buffers (key : KeyEvent) (request : SessionId × String) :
    (model.reducePermissionKey key request).1.buffers = model.buffers ∧
      Unsubmitted (model.reducePermissionKey key request) := by
  unfold reducePermissionKey
  split
  · exact ⟨rfl, List.forall_mem_singleton.mpr rfl⟩
  split
  · exact ⟨rfl, List.forall_mem_singleton.mpr rfl⟩
  · exact ⟨rfl, List.forall_mem_nil _⟩

theorem saturatingAdd_grows (n : Nat) (bound : n ≤ 2 ^ 64 - 1) : n ≤ saturatingAdd n 1 := by
  unfold saturatingAdd
  omega

theorem saturatingAdd_limit (a b : Nat) : saturatingAdd a b ≤ 2 ^ 64 - 1 := Nat.min_le_right _ _

/-- An answer to an input request takes a number and leaves the prompts alone. -/
theorem reduceInputKey_move (bound : model.nextSubmissionId ≤ 2 ^ 64 - 1) (key : KeyEvent) (now : Nat)
    (session : SessionSnapshot) (turnId : TurnId) (requestId : String) :
    BufferMove E model (.key key now) (model.reduceInputKey E key session turnId requestId) := by
  unfold reduceInputKey
  split
  · exact .keeps rfl rfl (List.forall_mem_nil _)
  split
  · exact .edits rfl model.composer (saturatingAdd model.nextSubmissionId 1) (saturatingAdd_grows _ bound)
      (saturatingAdd_limit _ _) rfl
      (List.forall_mem_singleton.mpr rfl)
  split
  · exact .keeps rfl rfl (List.forall_mem_nil _)
  split
  · exact .keeps rfl rfl (List.forall_mem_nil _)
  split
  · split <;> exact .keeps rfl rfl (List.forall_mem_nil _)
  · exact .keeps rfl rfl (List.forall_mem_nil _)

/-- Views that agree make buffers that agree. -/
theorem buffers_of_views {model' : SessionUiModel} (standing : model'.standing = model.standing) :
    model'.buffers = { model.buffers with
      composer := model'.composer, pending := model'.pendingSubmission, next := model'.nextSubmissionId } := by
  have deferred : model'.deferredComposerDraft = model.deferredComposerDraft :=
    congrArg Standing.deferredComposerDraft standing
  have queued : model'.queuedFollowUp = model.queuedFollowUp := congrArg Standing.queuedFollowUp standing
  have refresh : model'.submissionRefresh = model.submissionRefresh := congrArg Standing.submissionRefresh standing
  rw [buffers, deferred, queued, refresh]
  rfl

theorem openMove_bufferMove {reduced : Reduced} (move : OpenMove model reduced)
    (idle : model.queuedFollowUp = none) (bound : model.nextSubmissionId ≤ 2 ^ 64 - 1) (key : KeyEvent)
    (now : Nat) : BufferMove E model (.key key now) reduced := by
  cases move with
  | left leaves =>
      refine .edits rfl reduced.1.composer model.nextSubmissionId (Nat.le_refl _) bound ?_ fun action emitted =>
        (leaves.quiet action emitted).1
      rw [buffers_of_views leaves.standing, leaves.pending, leaves.next]
      rfl
  | refused standing pending queued => exact absurd idle queued
  | @submitted model' action standing pending nonblank desk carries =>
      have composer : model'.composer = "" := congrArg Desk.composer desk
      have held := congrArg Desk.pendingSubmission desk
      have next := congrArg Desk.nextSubmissionId desk
      refine .submits pending nonblank (model.selectedSession.map SessionSnapshot.sessionId)
        (model.selectedSession.elim 0 lastSequence) ?_ carries
      rw [buffers_of_views standing, composer, show model'.pendingSubmission = _ from held,
        show model'.nextSubmissionId = _ from next]
      rfl

theorem reduceKeyAt_move (idle : model.queuedFollowUp = none) (bound : model.nextSubmissionId ≤ 2 ^ 64 - 1)
    (key : KeyEvent) (now : Nat) : BufferMove E model (.key key now) (model.reduceKeyAt E key now) := by
  -- a key that forgets the interrupts before it sees the same buffers
  have armed : ∀ reduced, BufferMove E model.disarm (.key key now) reduced → BufferMove E model (.key key now) reduced := by
    intro reduced move
    cases move with
    | keeps plain same silent => exact .keeps plain same silent
    | settles projects => cases projects
    | edits typed composer next grows limit moved silent =>
        exact .edits typed composer next grows limit moved silent
    | submits idle nonblank sessionId afterSequence moved carries =>
        exact .submits idle nonblank sessionId afterSequence moved carries
    | assigns plain answers moved => exact .assigns plain answers moved
    | accepts arrives answers durable moved silent => exact .accepts arrives answers durable moved silent
    | restores held failed projects => cases projects
  have source := model.reduceKeyAt_case E key now
  revert source
  generalize model.reduceKeyAt E key now = reduced
  intro source
  cases source with
  | released => exact .keeps rfl rfl (List.forall_mem_nil _)
  | quits | refreshes => exact .keeps rfl rfl (List.forall_mem_singleton.mpr rfl)
  | interrupts => exact .keeps rfl (reduceInterrupt_buffers now) (reduceInterrupt_unsubmitted now)
  | confirms c =>
      have still := @reduceConfirmationKey_buffers model.disarm key c
      exact .keeps rfl still.1 still.2
  | reconciles session =>
      have still := @reduceReconciliationKey_buffers model.disarm key session
      exact .keeps rfl still.1 still.2
  | permits session request =>
      have still := @reducePermissionKey_buffers model.disarm key request
      exact .keeps rfl still.1 still.2
  | answers session turnId requestId =>
      exact armed _ (@reduceInputKey_move E model.disarm bound key now session turnId requestId)
  | opens => exact armed _ (openMove_bufferMove (model.disarm.reduceOpenKey_move E key) idle bound key now)

theorem reducePaste_move (bound : model.nextSubmissionId ≤ 2 ^ 64 - 1) (value : String) :
    BufferMove E model (.paste value) (model.reducePaste value, []) := by
  have silent : ∀ model' : SessionUiModel, Unsubmitted (model', []) := fun _ => List.forall_mem_nil _
  unfold reducePaste
  simp only
  split
  · exact .keeps rfl rfl (silent _)
  split
  · exact .keeps rfl rfl (silent _)
  split
  · exact .edits rfl (appendEditorText model.composer value EDITOR_CAP) model.nextSubmissionId (Nat.le_refl _) bound
      rfl (silent _)
  · exact .keeps rfl rfl (silent _)

theorem recordProgress_buffers (progress : SessionTransientProgress) :
    (model.recordProgress progress).buffers = model.buffers := by
  unfold recordProgress
  split <;> rfl

theorem reduceCatalogReady_buffers (sessions : List SessionSummary) (query : Option String) :
    (model.reduceCatalogReady sessions query).1.buffers = model.buffers ∧
      Unsubmitted (model.reduceCatalogReady sessions query) := by
  unfold reduceCatalogReady
  simp only
  split
  · exact ⟨rfl, List.forall_mem_nil _⟩
  split
  · exact ⟨rfl, List.forall_mem_singleton.mpr rfl⟩
  · exact ⟨rfl, List.forall_mem_nil _⟩
  · exact ⟨rfl, List.forall_mem_nil _⟩

/-- Every input moves the prompts in one of these ways. -/
theorem reduce_bufferMove (idle : model.queuedFollowUp = none) (bound : model.nextSubmissionId ≤ 2 ^ 64 - 1)
    (input : SessionUiInput) : BufferMove E model input (reduce E model input) := by
  have silent : ∀ model' : SessionUiModel, Unsubmitted (model', []) := fun _ => List.forall_mem_nil _
  have refreshing : ∀ model' : SessionUiModel, Unsubmitted (model', [.refreshSnapshots]) := fun _ =>
    List.forall_mem_singleton.mpr rfl
  cases input with
  | key key now => exact reduceKeyAt_move idle bound key now
  | paste value => exact reducePaste_move bound value
  | snapshot sessions => exact reduceSnapshot_move idle sessions
  | sessionOpened snapshot => exact reduceSessionOpened_move idle snapshot
  | event event => exact reduceEvent_move event
  | submissionAssigned submissionId sessionId => exact reduceSubmissionAssigned_move submissionId sessionId
  | mouse kind => cases kind <;> exact .keeps rfl rfl (silent _)
  | progress progress => exact .keeps rfl (recordProgress_buffers progress) (silent _)
  | sessionCatalogReady sessions query =>
      obtain ⟨same, unsubmitted⟩ := model.reduceCatalogReady_buffers sessions query
      exact .keeps rfl same unsubmitted
  | resize | frameRendered | sessionCatalog | connected | disconnected | commandError | commandCompleted | tick
  | contextUsage => exact .keeps rfl rfl (silent _)
  | lagged => exact .keeps rfl rfl (refreshing _)
  | submissionError submissionId =>
      unfold reduce
      simp only
      split
      case isTrue pends =>
        rw [composerPends, Option.any_eq_true] at pends
        obtain ⟨pending, held, own⟩ := pends
        rw [← of_decide_eq_true own]
        exact .fails held rfl
      case isFalse => exact .keeps rfl rfl (silent _)
  | inputSubmissionError | modelSwitchCompleted =>
      unfold reduce
      simp only
      split
      · exact .keeps rfl rfl (refreshing _)
      · exact .keeps rfl rfl (silent _)
  | submissionCompleted | inputSubmissionCompleted | modelSwitchError =>
      unfold reduce
      simp only
      split <;> exact .keeps rfl rfl (silent _)

/-- A projection is what is shown afterwards. -/
theorem reduce_sessions {input : SessionUiInput} {sessions : List SessionSnapshot}
    (projects : input.projection = some sessions) : (reduce E model input).1.sessions = sessions := by
  cases input with
  | snapshot shown =>
      cases projects
      have settled := ((model.showSnapshot sessions).settleProjection E).dropStaleConfirmation_still.2.trans
        (settleProjection_sessions E _)
      exact (congrArg (fun focus => focus.selection.sessions) (dispatchQueued_focus _)).trans
        (settled.trans (model.showSnapshot_buffers sessions).2)
  | sessionOpened opened =>
      cases projects
      exact settleProjection_sessions E _
  | _ => cases projects

/-! ## Whose prompt an input is about -/

variable {input : SessionUiInput}

theorem answering_isSome {pending : PendingSubmission} (answers : model.answering input = some pending) :
    ∃ held, model.pendingSubmission = some held := by
  unfold answering at answers
  split at answers
  · obtain ⟨held, pends, _⟩ := Option.map_eq_some_iff.mp answers
    exact ⟨held, pends⟩
  · exact ⟨pending, answers⟩

/-- The session that an input assigns does not change the prompt. -/
theorem answering_prompt {pending : PendingSubmission} (answers : model.answering input = some pending) :
    model.pendingSubmission.map PendingSubmission.prompt = some pending.prompt := by
  unfold answering at answers
  split at answers
  · obtain ⟨held, pends, rfl⟩ := Option.map_eq_some_iff.mp answers
    rw [pends, Option.map_some]
    split <;> rfl
  · rw [answers, Option.map_some]

theorem answering_of_projection {sessions : List SessionSnapshot} (projects : input.projection = some sessions) :
    model.answering input = model.pendingSubmission := by
  cases input with
  | snapshot | sessionOpened => rfl
  | _ => cases projects

theorem answering_id {model : SessionUiModel} {input : SessionUiInput} {pending : PendingSubmission}
    (answers : model.answering input = some pending) :
    ∃ held, model.pendingSubmission = some held ∧ held.submissionId = pending.submissionId := by
  unfold answering at answers
  split at answers
  · obtain ⟨held, pends, rfl⟩ := Option.map_eq_some_iff.mp answers
    refine ⟨held, pends, ?_⟩
    split <;> rfl
  · exact ⟨pending, answers, rfl⟩

end SessionUiModel

/-! ## Every run -/

/-- Nothing is queued in the terminal, its numbers fit, and only a pending submission has failed. -/
structure Manned (model : SessionUiModel) : Prop where
  idle : model.queuedFollowUp = none
  bound : model.nextSubmissionId ≤ 2 ^ 64 - 1
  answerable : model.pendingSubmission = none → model.submissionRefresh.composer = false

theorem BufferMove.manned {E : TuiEnvironment} {model : SessionUiModel} {input : SessionUiInput} {reduced : Reduced}
    (move : BufferMove E model input reduced) (manned : Manned model) : Manned reduced.1 := by
  have moved : ∀ {after : Buffers}, reduced.1.buffers = after → after.queued = none → after.next ≤ 2 ^ 64 - 1 →
      (after.pending = none → after.failed = false) → Manned reduced.1 := by
    rintro after rfl idle bound answerable
    exact ⟨idle, bound, answerable⟩
  obtain ⟨idle, bound, answerable⟩ := manned
  cases move with
  | keeps _ same => exact moved same idle bound answerable
  | settles _ _ same => exact moved same idle bound answerable
  | edits _ _ _ _ limit after => exact moved after idle limit answerable
  | submits pending _ _ _ after =>
      exact moved after idle (SessionUiModel.saturatingAdd_limit _ _) fun _ => answerable pending
  | assigns _ _ after => exact moved after idle bound nofun
  | fails held after =>
      refine moved after idle bound fun none => ?_
      change model.pendingSubmission = _ at none
      cases held.symm.trans none
  | accepts _ _ _ after => exact moved after rfl bound fun _ => rfl
  | restores _ _ _ _ _ after => exact moved after rfl bound fun _ => rfl

theorem Starting.manned {initial : SessionUiModel} (starting : Starting initial) : Manned initial := by
  have first : 1 ≤ 2 ^ 64 - 1 := by decide
  rcases starting with rfl | ⟨startup, rfl⟩
  · exact ⟨rfl, first, fun _ => rfl⟩
  · exact ⟨rfl, first, fun _ => rfl⟩

theorem reduceModel_manned {E : TuiEnvironment} {model : SessionUiModel} (input : SessionUiInput) (manned : Manned model) :
    Manned (reduceModel E model input) :=
  (SessionUiModel.reduce_bufferMove manned.idle manned.bound input).manned manned

theorem modelAt_manned {E : TuiEnvironment} {initial : SessionUiModel} {inputs : List SessionUiInput}
    (starting : Starting initial) (k : Nat) : Manned (modelAt E initial inputs k) :=
  invariant_at starting.manned (fun _ input manned => reduceModel_manned input manned) k

end LatteCode.Tui
