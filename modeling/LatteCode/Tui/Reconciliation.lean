import LatteCode.Tui.Settled
/- An acknowledgement of an unknown effect is given for what the terminal shows at that moment. -/

namespace LatteCode.Tui
open Runs

/-- The event is the next one of a projected session. -/
def SessionUiModel.applies (model : SessionUiModel) (event : SessionEventEnvelope) : Prop :=
  ∃ session, model.sessions.find? (fun session => session.sessionId = event.sessionId) = some session ∧
    event.revision = saturatingAdd session.revision 1

/-- A session opened, or an event applied, under an open acknowledgement still shows what it is for. -/
def Revalidates (model : SessionUiModel) : SessionUiInput → Prop
  | .sessionOpened snapshot => ∀ c, model.reconciliationConfirmation = some c →
      snapshot.sessionId = c.1 ∧ reconciliationEffectFromSnapshot snapshot = some c.2
  | .event event => ∀ c, model.reconciliationConfirmation = some c → model.applies event →
      (model.showSessionEvent event).confirmationHolds c = true
  | _ => True

/-- `Ctrl+R`, which opens an acknowledgement. -/
def Opens : SessionUiInput → Prop
  | .key key _ => key.code = .char 'r' ∧ key.control = true
  | _ => False

namespace SessionUiModel

variable {E : TuiEnvironment} {model : SessionUiModel}

/-- What is acknowledged is what the projection shows. -/
def Fresh (model : SessionUiModel) : Prop :=
  ∀ c, model.reconciliationConfirmation = some c → model.confirmationHolds c = true

theorem Fresh.of_focus {model' : SessionUiModel} (fresh : model.Fresh) (same : model'.focusOf = model.focusOf)
    {c : SessionId × String} (opened : model'.reconciliationConfirmation = some c) :
    model.reconciliationConfirmation = some c ∧ model'.confirmationHolds c = true := by
  have confirmation : model'.reconciliationConfirmation = model.reconciliationConfirmation :=
    congrArg Focus.confirmation same
  have before : model.reconciliationConfirmation = some c := confirmation.symm.trans opened
  refine ⟨before, ?_⟩
  rw [confirmationHolds_congr (congrArg Focus.selection same) (congrArg Focus.hint same)]
  exact fresh c before

theorem reduceInterrupt_focus (now : Nat) : (model.reduceInterrupt now).1.focusOf = model.focusOf := by
  unfold reduceInterrupt
  split
  · rfl
  split
  · rfl
  · simp only
    split <;> rfl

theorem reducePermissionKey_still (key : KeyEvent) (request : SessionId × String) :
    (model.reducePermissionKey key request).1 = model := by
  unfold reducePermissionKey
  split
  · rfl
  · split <;> rfl

theorem reduceInputKey_focus (key : KeyEvent) (session : SessionSnapshot) (turnId : TurnId) (requestId : String) :
    (model.reduceInputKey E key session turnId requestId).1.focusOf = model.focusOf := by
  unfold reduceInputKey
  split
  · rfl
  split
  · rfl
  split
  · rfl
  split
  · rfl
  split
  · split <;> rfl
  · rfl

/-- An open acknowledgement survives a key only unanswered. -/
theorem reduceConfirmationKey_focus {key : KeyEvent} {c c' : SessionId × String}
    (opened : (model.reduceConfirmationKey key c).1.reconciliationConfirmation = some c') :
    (model.reduceConfirmationKey key c).1.focusOf = model.focusOf := by
  unfold reduceConfirmationKey at opened ⊢
  split
  · rfl
  case isFalse inert =>
    rw [if_neg inert] at opened
    split
    case isTrue confirms =>
      rw [if_pos confirms] at opened
      cases opened
    case isFalse waits =>
      rw [if_neg waits] at opened
      split
      case isTrue cancels =>
        rw [if_pos cancels] at opened
        cases opened
      · rfl

/-- `Ctrl+R` opens an acknowledgement of the effect that is shown, and no other key does. -/
theorem reduceReconciliationKey_opens {key : KeyEvent} {session : SessionSnapshot} {c : SessionId × String}
    (closed : model.reconciliationConfirmation = none) (selected : model.selectedSession = some session)
    (required : session.lifecycle = .reconciliationRequired)
    (opened : (model.reduceReconciliationKey key session).1.reconciliationConfirmation = some c) :
    (key.code = .char 'r' ∧ key.control = true) ∧ model.confirmationHolds c = true ∧
      (model.reduceReconciliationKey key session).1.confirmationHolds c = true := by
  unfold reduceReconciliationKey at opened ⊢
  split
  case h_2 none =>
    rw [none] at opened
    exact absurd (closed.symm.trans opened) (Option.some_ne_none c).symm
  case h_1 effectId effect =>
    rw [effect] at opened
    simp only at opened
    split
    case isFalse other =>
      rw [if_neg other] at opened
      exact absurd (closed.symm.trans opened) (Option.some_ne_none c).symm
    case isTrue review =>
      rw [if_pos review] at opened
      cases opened
      have holds : model.confirmationHolds (session.sessionId, effectId) = true :=
        model.confirmationHolds_iff.mpr ⟨session, selected, rfl, required, effect⟩
      exact ⟨review.2, holds, holds⟩

/-- A key keeps an open acknowledgement, or opens one for what is shown. -/
theorem reduceKeyAt_fresh (fresh : model.Fresh) {key : KeyEvent} {now : Nat} {c : SessionId × String}
    (opened : (model.reduceKeyAt E key now).1.reconciliationConfirmation = some c) :
    (model.reduceKeyAt E key now).1.confirmationHolds c = true ∧
      (model.reconciliationConfirmation = some c ∨
        (key.code = .char 'r' ∧ key.control = true) ∧ model.confirmationHolds c = true) := by
  have kept : ∀ reduced : Reduced, reduced.1.focusOf = model.focusOf → reduced.1.reconciliationConfirmation = some c →
      reduced.1.confirmationHolds c = true ∧ (model.reconciliationConfirmation = some c ∨
        (key.code = .char 'r' ∧ key.control = true) ∧ model.confirmationHolds c = true) := by
    intro reduced same shown
    obtain ⟨before, holds⟩ := fresh.of_focus same shown
    exact ⟨holds, .inl before⟩
  have source := model.reduceKeyAt_case E key now
  revert opened source
  generalize model.reduceKeyAt E key now = reduced
  intro opened source
  cases source with
  | released | quits | refreshes => exact kept _ rfl opened
  | interrupts => exact kept _ (reduceInterrupt_focus now) opened
  | confirms c' _ => exact kept _ (reduceConfirmationKey_focus opened) opened
  | reconciles session closed selected required =>
      have review := @reduceReconciliationKey_opens model.disarm key session c closed selected required opened
      exact ⟨review.2.2, .inr ⟨review.1, review.2.1⟩⟩
  | permits session request =>
      refine kept _ ?_ opened
      rw [reducePermissionKey_still]
      rfl
  | answers session turnId requestId => exact kept _ (reduceInputKey_focus key session turnId requestId) opened
  | opens closed _ =>
      have still := congrArg Standing.reconciliationConfirmation (model.disarm.reduceOpenKey_move E key).standing
      exact absurd (closed.symm.trans (still.symm.trans opened)) (Option.some_ne_none c).symm

theorem reduceSnapshot_fresh {sessions : List SessionSnapshot} {c : SessionId × String}
    (opened : (model.reduceSnapshot E sessions).1.reconciliationConfirmation = some c) :
    (model.reduceSnapshot E sessions).1.confirmationHolds c = true ∧ model.reconciliationConfirmation = some c := by
  unfold reduceSnapshot at opened ⊢
  have same := (((model.showSnapshot sessions).settleProjection E).dropStaleConfirmation).dispatchQueued_focus
  obtain ⟨before, holds⟩ := dropStaleConfirmation_holds _ ((congrArg Focus.confirmation same).symm.trans opened)
  have settled := congrArg Focus.confirmation ((model.showSnapshot sessions).settleProjection_focus E)
  refine ⟨?_, (model.showSnapshot_confirmation sessions).symm.trans (settled.symm.trans before)⟩
  rw [confirmationHolds_congr (congrArg Focus.selection same) (congrArg Focus.hint same)]
  exact holds

theorem reduceSessionOpened_fresh {snapshot : SessionSnapshot} {c : SessionId × String}
    (opened : (model.reduceSessionOpened E snapshot).1.reconciliationConfirmation = some c)
    (own : snapshot.sessionId = c.1) (effect : reconciliationEffectFromSnapshot snapshot = some c.2) :
    (model.reduceSessionOpened E snapshot).1.confirmationHolds c = true ∧ model.reconciliationConfirmation = some c := by
  have same := (model.showOpened snapshot).settleProjection_focus E
  refine ⟨?_, (congrArg Focus.confirmation same).symm.trans opened⟩
  change ((model.showOpened snapshot).settleProjection E).confirmationHolds c = true
  rw [confirmationHolds_congr (congrArg Focus.selection same) (congrArg Focus.hint same), confirmationHolds_iff]
  have required : snapshot.lifecycle = .reconciliationRequired := by
    unfold reconciliationEffectFromSnapshot at effect
    split at effect
    case isTrue required => exact required
    case isFalse => cases effect
  refine ⟨snapshot, model.showOpened_selected snapshot, own, required, ?_⟩
  rw [showOpened_hint, effect, reconciliationEffectId]
  simp

theorem reduceEvent_fresh (fresh : model.Fresh) {event : SessionEventEnvelope}
    (good : Revalidates model (.event event)) {c : SessionId × String}
    (opened : (model.reduceEvent E event).1.reconciliationConfirmation = some c) :
    (model.reduceEvent E event).1.confirmationHolds c = true ∧ model.reconciliationConfirmation = some c := by
  unfold reduceEvent at opened ⊢
  split
  case h_1 =>
    rw [‹List.find? _ _ = none›] at opened
    exact ⟨fresh c opened, opened⟩
  case h_2 session found =>
    rw [found] at opened
    simp only at opened
    split
    case isTrue gap =>
      rw [if_pos gap] at opened
      exact ⟨fresh c opened, opened⟩
    case isFalse next =>
      rw [if_neg next] at opened
      have applies : model.applies event := ⟨session, found, Classical.not_not.mp next⟩
      split
      case isTrue binding =>
        rw [if_pos binding] at opened
        exact ⟨good c opened applies, opened⟩
      case isFalse other =>
        rw [if_neg other] at opened
        have same := (((((model.showSessionEvent event).reconcilePendingSubmission E).reconcilePendingInputSubmission E
          ).synchronizeInputTarget_focus).trans (reconcilePendingInputSubmission_focus E _)).trans
            (reconcilePendingSubmission_focus E _)
        have before : model.reconciliationConfirmation = some c := (congrArg Focus.confirmation same).symm.trans opened
        refine ⟨?_, before⟩
        rw [confirmationHolds_congr (congrArg Focus.selection same) (congrArg Focus.hint same)]
        exact good c before applies

/-- A draft becomes its session only while no session is selected. -/
theorem reduceSubmissionAssigned_focus {submissionId : Nat} {sessionId : SessionId} {session : SessionSnapshot}
    (selected : model.selectedSession = some session) :
    (model.reduceSubmissionAssigned E submissionId sessionId).focusOf = model.focusOf := by
  have undrafted : model.activeConversation ≠ some .newSessionDraft := by
    intro draft
    rw [selectedSession, draft] at selected
    cases selected
  unfold reduceSubmissionAssigned
  split
  · rfl
  · simp only
    rw [reconcilePendingSubmission_focus]
    split
    · rw [if_neg undrafted]
      rfl
    · rfl

/-- One input: what stays acknowledged is still shown, and only `Ctrl+R` opens anything. -/
theorem step_fresh (fresh : model.Fresh) {input : SessionUiInput} (good : Revalidates model input)
    {c : SessionId × String} (opened : (reduceModel E model input).reconciliationConfirmation = some c) :
    (reduceModel E model input).confirmationHolds c = true ∧
      (model.reconciliationConfirmation = some c ∨ Opens input ∧ model.confirmationHolds c = true) := by
  have kept : ∀ reduced : Reduced, reduced.1.focusOf = model.focusOf → reduced.1.reconciliationConfirmation = some c →
      reduced.1.confirmationHolds c = true ∧
        (model.reconciliationConfirmation = some c ∨ Opens input ∧ model.confirmationHolds c = true) := by
    intro reduced same shown
    obtain ⟨before, holds⟩ := fresh.of_focus same shown
    exact ⟨holds, .inl before⟩
  unfold reduceModel at opened ⊢
  cases input with
  | key key now => exact reduceKeyAt_fresh fresh opened
  | snapshot sessions =>
      obtain ⟨holds, before⟩ := reduceSnapshot_fresh opened
      exact ⟨holds, .inl before⟩
  | sessionOpened snapshot =>
      have before : model.reconciliationConfirmation = some c :=
        (congrArg Focus.confirmation ((model.showOpened snapshot).settleProjection_focus E)).symm.trans opened
      obtain ⟨own, effect⟩ := good c before
      exact ⟨(reduceSessionOpened_fresh opened own effect).1, .inl before⟩
  | event event =>
      obtain ⟨holds, before⟩ := reduceEvent_fresh fresh good opened
      exact ⟨holds, .inl before⟩
  | submissionAssigned submissionId sessionId =>
      have untouched : (model.reduceSubmissionAssigned E submissionId sessionId).reconciliationConfirmation =
          model.reconciliationConfirmation := model.reduceSubmissionAssigned_confirmation E submissionId sessionId
      have before : model.reconciliationConfirmation = some c := untouched.symm.trans opened
      obtain ⟨session, selected, _⟩ := model.confirmationHolds_iff.mp (fresh c before)
      exact kept _ (reduceSubmissionAssigned_focus selected) opened
  | paste value => exact kept _ (model.reducePaste_focus value) opened
  | mouse kind => cases kind <;> exact kept _ rfl opened
  | progress progress => exact kept _ (model.recordProgress_focus progress) opened
  | sessionCatalogReady sessions query => exact kept _ (model.reduceCatalogReady_focus sessions query) opened
  | frameRendered | lagged | connected | disconnected => exact ⟨fresh c opened, .inl opened⟩
  | resize | sessionCatalog | commandError | commandCompleted
  | tick | contextUsage => exact kept _ rfl opened
  | submissionError | submissionCompleted | inputSubmissionError | inputSubmissionCompleted | modelSwitchError
  | modelSwitchCompleted =>
      refine kept _ ?_ opened
      unfold reduce
      simp only
      split <;> rfl

end SessionUiModel

/-! ## Runs -/

section Runs

variable (E : TuiEnvironment) (initial : SessionUiModel) (inputs : List SessionUiInput)

/-- `Ctrl+R` opened this acknowledgement before input `k`, and from then on the selected session had to reconcile it. -/
def Acknowledging (k : Nat) (c : SessionId × String) : Prop :=
  ∃ j input, j < k ∧ inputs[j]? = some input ∧ Opens input ∧
    (modelAt E initial inputs (j + 1)).reconciliationConfirmation = some c ∧
      ∀ i, j ≤ i → i ≤ k → (modelAt E initial inputs i).confirmationHolds c = true

/-- The reduction of a key, without the acknowledgement that is open. -/
def unheld (reduced : Reduced) : Reduced := ({ reduced.1 with reconciliationConfirmation := none }, reduced.2)

/-- What is reconciled at input `k` is shown and was reviewed there, and nothing else holds the keys back. -/
structure AcknowledgesFresh (k : Nat) : Prop where
  emitted : ∀ sessionId effectId, .reconcileUnknown sessionId effectId ∈ emittedAt E initial inputs k →
    (modelAt E initial inputs k).confirmationHolds (sessionId, effectId) = true ∧
      Acknowledging E initial inputs k (sessionId, effectId)
  heard : ∀ c, (modelAt E initial inputs k).reconciliationConfirmation = some c →
    ¬ ((modelAt E initial inputs k).confirmationHolds c = true ∧ Acknowledging E initial inputs k c) →
      ∀ key now, unheld ((modelAt E initial inputs k).reduceKeyAt E key now) =
        unheld (({ modelAt E initial inputs k with reconciliationConfirmation := none }).reduceKeyAt E key now)

variable {E initial inputs}

theorem Starting.closed (starting : Starting initial) : initial.reconciliationConfirmation = none := by
  rcases starting with rfl | ⟨startup, rfl⟩
  · rfl
  · rfl

theorem run_acknowledging (starting : Starting initial)
    (good : ∀ k (bound : k < inputs.length), Revalidates (modelAt E initial inputs k) inputs[k]) :
    ∀ k, k ≤ inputs.length → ∀ c, (modelAt E initial inputs k).reconciliationConfirmation = some c →
      (modelAt E initial inputs k).confirmationHolds c = true ∧ Acknowledging E initial inputs k c := by
  intro k
  induction k with
  | zero =>
      intro _ c opened
      rw [modelAt, stateAt_zero, starting.closed] at opened
      cases opened
  | succ k ih =>
      intro bound c opened
      have earlier := ih (Nat.le_of_succ_le bound)
      have next : modelAt E initial inputs (k + 1) = reduceModel E (modelAt E initial inputs k) inputs[k] :=
        stateAt_succ bound
      have moved := SessionUiModel.step_fresh (E := E) (fun c opened => (earlier c opened).1) (good k bound) (next ▸ opened)
      rw [← next] at moved
      refine ⟨moved.1, ?_⟩
      rcases moved.2 with before | ⟨chord, held⟩
      · obtain ⟨j, input, less, taken, opens, set, shown⟩ := (earlier c before).2
        refine ⟨j, input, Nat.lt_succ_of_lt less, taken, opens, set, fun i from_ upto => ?_⟩
        rcases Nat.lt_or_eq_of_le upto with inside | rfl
        · exact shown i from_ (Nat.le_of_lt_succ inside)
        · exact moved.1
      · refine ⟨k, inputs[k], Nat.lt_succ_self k, List.getElem?_eq_getElem bound, chord, opened, fun i from_ upto => ?_⟩
        rcases Nat.lt_or_eq_of_le upto with inside | rfl
        · rw [Nat.le_antisymm (Nat.le_of_lt_succ inside) from_]
          exact held
        · exact moved.1

/-- While every projection that arrives under an open acknowledgement still shows what it is for,
an effect is reconciled only when that is what the terminal shows. -/
theorem reconciliation_fresh (starting : Starting initial)
    (good : ∀ k (bound : k < inputs.length), Revalidates (modelAt E initial inputs k) inputs[k]) (k : Nat)
    (bound : k ≤ inputs.length) : AcknowledgesFresh E initial inputs k := by
  have held := run_acknowledging starting good k bound
  constructor
  · intro sessionId effectId emitted
    unfold emittedAt at emitted
    split at emitted
    case h_1 input taken =>
      obtain ⟨key, now, rfl⟩ := decides_key emitted rfl
      cases SessionUiModel.reduceKeyAt_decides emitted rfl with
      | acknowledges opened => exact held _ opened
    case h_2 => cases emitted
  · intro c opened stale
    exact absurd (held c opened) stale

end Runs

/-! ## A session that has left its reconciliation behind -/

def plainTui : TuiEnvironment where
  namedAssignment := id
  bearer := id
  openaiKey := id
  graphemes text := text.toList.map fun c => String.ofList [c]
  width _ := 1
  parseSessionId _ := none

def shownSession (lifecycle : SessionLifecycle) (entries : List TranscriptEntry) : SessionSnapshot where
  sessionId := ⟨⟨1⟩⟩
  revision := 1
  sequence := 1
  lifecycle := lifecycle
  binding := ⟨1, "p", "t", "p", "m", "c", "t", [], "ref", "scope", 1⟩
  latestTurnId := none
  activeTurnId := none
  pending := none
  turns := []
  transcript := ⟨entries, none, false⟩
  focus := none

def unknownCard : TranscriptEntry where
  entryId := ⟨⟨2⟩⟩
  sequence := 1
  turnId := none
  kind := .failure
  text := ""
  payload := some (.ofMembers [("status", .string "unknown"), ("effect_id", .string "effect")])
  sourceKey := "card"
  createdAtMs := 1

def chord (c : Char) : SessionUiInput := .key ⟨.char c, .CONTROL, .press⟩ 0

/-- The review of an effect, and its acknowledgement. -/
def reviewed : List SessionUiInput :=
  [.sessionOpened (shownSession .reconciliationRequired [unknownCard]), chord 'r', chord 'a']

theorem reconciliation_fresh_reviewed : AcknowledgesFresh plainTui .default reviewed 2 := by
  have good : ∀ k (bound : k < reviewed.length), Revalidates (modelAt plainTui .default reviewed k) reviewed[k] := by
    intro k bound
    match k with
    | 0 =>
        intro c opened
        cases opened
    | 1 | 2 => exact trivial
  exact reconciliation_fresh (.inl rfl) good 2 (by decide)

/-- The session is opened again after another client has reconciled it. -/
def reopened : List SessionUiInput :=
  [.sessionOpened (shownSession .reconciliationRequired [unknownCard]), chord 'r',
    .sessionOpened (shownSession .ready [unknownCard]), chord 'a']

theorem reopened_acknowledges : ¬ ∀ (inputs : List SessionUiInput) (k : Nat), k ≤ inputs.length →
    AcknowledgesFresh plainTui .default inputs k := by
  intro claim
  have emitted : .reconcileUnknown ⟨⟨1⟩⟩ "effect" ∈ emittedAt plainTui .default reopened 3 := by decide +kernel
  have left : (modelAt plainTui .default reopened 3).confirmationHolds (⟨⟨1⟩⟩, "effect") = false := by decide +kernel
  have holds := ((claim reopened 3 (by decide)).emitted _ _ emitted).1
  exact Bool.false_ne_true (left.symm.trans holds)

end LatteCode.Tui
