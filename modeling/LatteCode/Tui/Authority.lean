import LatteCode.Tui.Loop
import LatteCode.Tui.Reconciliation
/- When the terminal may act again after it has lost the projection: once a refresh has read the snapshots. -/

namespace LatteCode.Tui
open Runs Outcome

/-! ## The connection under each input -/

namespace SessionUiModel

variable {E : TuiEnvironment} {model : SessionUiModel}

theorem reduceSessionOpened_connection (snapshot : SessionSnapshot) :
    (reduce E model (.sessionOpened snapshot)).1.connection = model.connection :=
  congrArg Focus.connection ((model.showOpened snapshot).settleProjection_focus E)

theorem reduceCatalogReady_connection (sessions : List SessionSummary) (query : Option String) :
    (reduce E model (.sessionCatalogReady sessions query)).1.connection = model.connection :=
  congrArg Focus.connection (model.reduceCatalogReady_focus sessions query)

theorem showSnapshot_connection (sessions : List SessionSnapshot) :
    (model.showSnapshot sessions).connection = .connected := by
  unfold showSnapshot closeOverlaysWhenBlocked
  simp only
  split <;> rfl

theorem reduceSnapshot_connection (sessions : List SessionSnapshot) :
    (reduce E model (.snapshot sessions)).1.connection = .connected := by
  have dropped : ∀ shown : SessionUiModel, shown.dropStaleConfirmation.connection = shown.connection := by
    intro shown
    unfold dropStaleConfirmation
    split <;> rfl
  refine (congrArg Focus.connection (dispatchQueued_focus _)).trans ((dropped _).trans ?_)
  exact (congrArg Focus.connection ((model.showSnapshot sessions).settleProjection_focus E)).trans
    (showSnapshot_connection sessions)

theorem reduceKeyAt_connection (key : KeyEvent) (now : Nat) :
    (model.reduceKeyAt E key now).1.connection = model.connection := by
  have source := model.reduceKeyAt_case E key now
  revert source
  generalize model.reduceKeyAt E key now = reduced
  intro source
  cases source with
  | released | quits | refreshes => rfl
  | interrupts => exact congrArg Focus.connection (reduceInterrupt_focus now)
  | confirms c =>
      unfold reduceConfirmationKey
      split
      · rfl
      split
      · rfl
      · split <;> rfl
  | reconciles session =>
      unfold reduceReconciliationKey
      split
      · split <;> rfl
      · rfl
  | permits session request =>
      rw [reducePermissionKey_still]
      rfl
  | answers session turnId requestId => exact congrArg Focus.connection (reduceInputKey_focus key session turnId requestId)
  | opens => exact congrArg Standing.connection (model.disarm.reduceOpenKey_move E key).standing

theorem reduceSubmissionAssigned_connection (submissionId : Nat) (sessionId : SessionId) :
    (model.reduceSubmissionAssigned E submissionId sessionId).connection = model.connection := by
  unfold reduceSubmissionAssigned
  split
  · rfl
  · simp only
    refine (congrArg Focus.connection (reconcilePendingSubmission_focus E _)).trans ?_
    split
    · split <;> rfl
    · rfl

/-- An event leaves the connection, or asks for the snapshots. -/
theorem reduceEvent_connection (event : SessionEventEnvelope) :
    (model.reduceEvent E event).1.connection = model.connection ∨
      (model.reduceEvent E event).1.connection = .snapshotRequired := by
  unfold reduceEvent
  split
  · exact .inl rfl
  split
  · exact .inr rfl
  split
  · exact .inr rfl
  · exact .inl ((congrArg Focus.connection (synchronizeInputTarget_focus _)).trans
      ((congrArg Focus.connection (reconcilePendingInputSubmission_focus E _)).trans
        (congrArg Focus.connection (reconcilePendingSubmission_focus E _))))

/-- The inputs that connect the terminal. -/
def Connects : SessionUiInput → Prop
  | .snapshot _ | .connected => True
  | _ => False

theorem reduce_offline {input : SessionUiInput} (other : ¬ Connects input) (offline : model.connection ≠ .connected) :
    (reduce E model input).1.connection ≠ .connected := by
  have kept : ∀ reduced : Reduced, reduced.1.connection = model.connection → reduced.1.connection ≠ .connected :=
    fun reduced same connected => offline (same.symm.trans connected)
  cases input with
  | snapshot | connected => exact absurd trivial other
  | key key now => exact kept _ (reduceKeyAt_connection key now)
  | paste value => exact kept _ (congrArg Focus.connection (model.reducePaste_focus value))
  | sessionOpened snapshot => exact kept _ (reduceSessionOpened_connection snapshot)
  | sessionCatalogReady sessions query => exact kept _ (reduceCatalogReady_connection sessions query)
  | submissionAssigned submissionId sessionId =>
      exact kept (_, []) (reduceSubmissionAssigned_connection submissionId sessionId)
  | progress progress => exact kept (_, []) (congrArg Focus.connection (model.recordProgress_focus progress))
  | event event =>
      rcases @reduceEvent_connection E model event with same | required
      · exact kept _ same
      · change (model.reduceEvent E event).1.connection ≠ .connected
        rw [required]
        exact nofun
  | mouse kind => cases kind <;> exact offline
  | lagged | disconnected => exact nofun
  | resize | frameRendered | sessionCatalog | commandError | commandCompleted | tick | contextUsage => exact offline
  | submissionError | submissionCompleted | inputSubmissionError | inputSubmissionCompleted | modelSwitchError
  | modelSwitchCompleted =>
      refine kept _ ?_
      unfold reduce
      simp only
      split <;> rfl

end SessionUiModel

/-! ## Carrying out actions -/

/-- How far an action leads: to what a catalog opens, to a projection, or to the sink. -/
def SessionUiAction.rank : SessionUiAction → Nat
  | .showSessions _ | .searchSessions _ => 2
  | .openSession _ | .refreshSnapshots => 1
  | _ => 0

/-- What follows from an action that leads this far. -/
def Follows (action : SessionUiAction) (next : List SessionUiAction) : Prop :=
  ∀ follow ∈ next, follow.rank < action.rank ∧ follow ≠ .refreshSnapshots

/-- A refresh reads the snapshots for no conversation, and for a draft whose submission is pending. -/
def ReadsSnapshots (model : SessionUiModel) : Prop :=
  model.activeConversation = none ∨ model.activeConversation = some .newSessionDraft ∧ model.pendingSubmission ≠ none

theorem authorityEnabled_iff {model : SessionUiModel} : model.authorityEnabled = true ↔ model.connection = .connected := by
  rw [SessionUiModel.authorityEnabled, decide_eq_true_eq]

section Actions

variable {σ : Type} {E : TuiEnvironment} {client : SessionProjectionClient σ} {terminal terminal' : Terminal σ}

theorem Terminal.fetch_ok {α : Type} {call : σ → Except String α × σ} {value : α}
    (fetched : terminal.fetch call = .ok (value, terminal')) : terminal'.model = terminal.model := by
  unfold fetch at fetched
  split at fetched
  · cases fetched
    rfl
  · cases fetched

theorem Terminal.openSession_model (snapshot : SessionSnapshot) :
    (terminal.openSession E client snapshot).1.model = (reduce E terminal.model (.sessionOpened snapshot)).1 ∧
      (terminal.openSession E client snapshot).2 = [] := by
  unfold openSession
  simp only
  split <;> exact ⟨rfl, rfl⟩

theorem reduceSnapshot_follows (model : SessionUiModel) (sessions : List SessionSnapshot) :
    Follows .refreshSnapshots (reduce E model (.snapshot sessions)).2 := by
  intro follow emitted
  change follow ∈ (SessionUiModel.dispatchQueued _).2 at emitted
  unfold SessionUiModel.dispatchQueued at emitted
  split at emitted
  · rw [List.mem_singleton.mp emitted]
    exact ⟨Nat.zero_lt_one, nofun⟩
  · cases emitted

theorem reduceCatalogReady_follows (model : SessionUiModel) (sessions : List SessionSummary) (query : Option String) :
    ∀ follow ∈ (reduce E model (.sessionCatalogReady sessions query)).2, ∃ sessionId, follow = .openSession sessionId := by
  intro follow emitted
  change follow ∈ (model.reduceCatalogReady sessions query).2 at emitted
  unfold SessionUiModel.reduceCatalogReady at emitted
  simp only at emitted
  split at emitted
  · cases emitted
  split at emitted
  · exact ⟨_, List.mem_singleton.mp emitted⟩
  · cases emitted
  · cases emitted

/-- A refresh connects the terminal exactly where it reads the snapshots. -/
theorem Terminal.refresh_ok {next : List SessionUiAction} (refreshed : terminal.refresh E client = .ok (terminal', next)) :
    Follows .refreshSnapshots next ∧ (terminal'.model.authorityEnabled = true ↔
      terminal.model.authorityEnabled = true ∨ ReadsSnapshots terminal.model) := by
  have listed : ∀ {sessions : List SessionSnapshot} {middle : Terminal σ}, middle.model = terminal.model →
      ReadsSnapshots terminal.model → middle.feed E (.snapshot sessions) = (terminal', next) →
        Follows .refreshSnapshots next ∧ (terminal'.model.authorityEnabled = true ↔
          terminal.model.authorityEnabled = true ∨ ReadsSnapshots terminal.model) := by
    intro sessions middle same reads fed
    cases fed
    refine ⟨reduceSnapshot_follows _ _, fun _ => .inr reads, fun _ => authorityEnabled_iff.mpr ?_⟩
    exact SessionUiModel.reduceSnapshot_connection sessions
  have kept : ¬ ReadsSnapshots terminal.model → terminal'.model.connection = terminal.model.connection →
      (terminal'.model.authorityEnabled = true ↔ terminal.model.authorityEnabled = true ∨ ReadsSnapshots terminal.model) := by
    intro elsewhere same
    rw [authorityEnabled_iff, authorityEnabled_iff, same, or_iff_left elsewhere]
  unfold refresh at refreshed
  split at refreshed
  case h_1 sessionId active =>
    obtain ⟨⟨snapshot, middle⟩, fetched, opened⟩ := bind_ok.mp refreshed
    obtain ⟨model, silent⟩ := @Terminal.openSession_model σ E client middle snapshot
    rw [pure_ok.mp opened] at model silent
    refine ⟨?_, kept ?_ ?_⟩
    · rw [show next = [] from silent]
      exact List.forall_mem_nil _
    · rintro (none | ⟨draft, _⟩)
      · cases none.symm.trans active
      · cases draft.symm.trans active
    · rw [show terminal'.model = _ from model, SessionUiModel.reduceSessionOpened_connection, fetch_ok fetched]
  case h_2 active idle =>
    obtain ⟨⟨sessions, middle⟩, fetched, listed⟩ := bind_ok.mp refreshed
    have same : middle.model.connection = terminal.model.connection :=
      congrArg SessionUiModel.connection (fetch_ok fetched)
    cases listed
    refine ⟨List.forall_mem_nil _, kept ?_ ?_⟩
    · rintro (none | ⟨_, pending⟩)
      · cases none.symm.trans active
      · exact pending idle
    · exact same
  case h_3 pending active held =>
    obtain ⟨⟨snapshots, middle⟩, fetched, shown⟩ := bind_ok.mp refreshed
    refine listed (fetch_ok fetched) (.inr ⟨active, ?_⟩) (pure_ok.mp shown)
    rw [held]
    exact nofun
  case h_4 active =>
    obtain ⟨⟨snapshots, middle⟩, fetched, shown⟩ := bind_ok.mp refreshed
    exact listed (fetch_ok fetched) (.inl active) (pure_ok.mp shown)

/-- An action leads less and less far, asks for no further refresh, and connects the terminal only as a refresh does. -/
theorem Terminal.perform_ok {action : SessionUiAction} {next : List SessionUiAction}
    (performed : terminal.perform E client action = .ok (terminal', next)) :
    Follows action next ∧ (terminal'.model.authorityEnabled = true ↔
      terminal.model.authorityEnabled = true ∨ action = .refreshSnapshots ∧ ReadsSnapshots terminal.model) := by
  have kept : action ≠ .refreshSnapshots → terminal'.model.connection = terminal.model.connection →
      (terminal'.model.authorityEnabled = true ↔
        terminal.model.authorityEnabled = true ∨ action = .refreshSnapshots ∧ ReadsSnapshots terminal.model) := by
    intro other same
    rw [authorityEnabled_iff, authorityEnabled_iff, same, or_iff_left fun refresh => other refresh.1]
  have opened : ∀ {middle : Terminal σ} {snapshot : SessionSnapshot}, action ≠ .refreshSnapshots →
      middle.model = terminal.model → middle.openSession E client snapshot = (terminal', next) →
        Follows action next ∧ (terminal'.model.authorityEnabled = true ↔
          terminal.model.authorityEnabled = true ∨ action = .refreshSnapshots ∧ ReadsSnapshots terminal.model) := by
    intro middle snapshot other same shown
    obtain ⟨model, silent⟩ := @Terminal.openSession_model σ E client middle snapshot
    rw [shown] at model silent
    refine ⟨?_, kept other ?_⟩
    · rw [show next = [] from silent]
      exact List.forall_mem_nil _
    · rw [show terminal'.model = _ from model, SessionUiModel.reduceSessionOpened_connection, same]
  have listed : ∀ {middle : Terminal σ} {sessions : List SessionSummary} {query : Option String}, action.rank = 2 →
      action ≠ .refreshSnapshots → middle.model = terminal.model →
        middle.feed E (.sessionCatalogReady sessions query) = (terminal', next) →
          Follows action next ∧ (terminal'.model.authorityEnabled = true ↔
            terminal.model.authorityEnabled = true ∨ action = .refreshSnapshots ∧ ReadsSnapshots terminal.model) := by
    intro middle sessions query rank other same shown
    cases shown
    refine ⟨fun follow emitted => ?_, kept other ?_⟩
    · obtain ⟨sessionId, rfl⟩ := reduceCatalogReady_follows _ _ _ follow emitted
      rw [rank]
      exact ⟨Nat.one_lt_two, fun same => by cases same⟩
    · exact (SessionUiModel.reduceCatalogReady_connection sessions query).trans (congrArg SessionUiModel.connection same)
  have sunk : action ≠ .refreshSnapshots → (do
      let fetched ← terminal.fetch (client.sink action)
      return (fetched.2, []) : Except Stop (Terminal σ × List SessionUiAction)) = .ok (terminal', next) →
        Follows action next ∧ (terminal'.model.authorityEnabled = true ↔
          terminal.model.authorityEnabled = true ∨ action = .refreshSnapshots ∧ ReadsSnapshots terminal.model) := by
    intro other sent
    obtain ⟨⟨_, middle⟩, fetched, done⟩ := bind_ok.mp sent
    have same : middle.model = terminal.model := Terminal.fetch_ok fetched
    cases done
    exact ⟨List.forall_mem_nil _, kept other (congrArg SessionUiModel.connection same)⟩
  unfold perform at performed
  split at performed
  · cases performed
  · obtain ⟨⟨sessions, middle⟩, fetched, shown⟩ := bind_ok.mp performed
    exact listed rfl (fun same => by cases same) (fetch_ok fetched) (pure_ok.mp shown)
  · obtain ⟨⟨found, middle⟩, fetched, rest⟩ := bind_ok.mp performed
    cases found with
    | some snapshot => exact opened (fun same => by cases same) (fetch_ok fetched) (pure_ok.mp rest)
    | none =>
        obtain ⟨⟨sessions, last⟩, again, shown⟩ := bind_ok.mp rest
        exact listed rfl (fun same => by cases same) ((fetch_ok again).trans (fetch_ok fetched)) (pure_ok.mp shown)
  · obtain ⟨⟨sessions, middle⟩, fetched, shown⟩ := bind_ok.mp performed
    exact listed rfl (fun same => by cases same) (fetch_ok fetched) (pure_ok.mp shown)
  · split at performed
    · refine opened (fun same => by cases same) ?_ (Except.ok.inj performed)
      rfl
    · cases performed
      exact ⟨List.forall_mem_nil _, kept (fun same => by cases same) rfl⟩
  · obtain ⟨follows, connects⟩ := refresh_ok performed
    exact ⟨follows, connects.trans (by rw [eq_self, true_and])⟩
  case h_7 => exact sunk ‹_› performed

/-- Three levels are enough to carry any action out. -/
theorem carryOut_enough {n m : Nat} : ∀ {action : SessionUiAction} (terminal : Terminal σ), action.rank < n → action.rank < m →
    carryOut E client n terminal action = carryOut E client m terminal action := by
  induction n generalizing m with
  | zero => exact fun _ low _ => absurd low (Nat.not_lt_zero _)
  | succ n ih =>
      intro action terminal low high
      cases m with
      | zero => exact absurd high (Nat.not_lt_zero _)
      | succ m =>
          unfold carryOut
          cases performed : terminal.perform E client action with
          | error stop => rfl
          | ok result =>
              obtain ⟨middle, next⟩ := result
              have follows := (Terminal.perform_ok performed).1
              have same : ∀ (actions : List SessionUiAction) (at_ : Terminal σ), (∀ follow ∈ actions, follow.rank < action.rank) →
                  tryRun (carryOut E client n) at_ actions = tryRun (carryOut E client m) at_ actions := by
                intro actions
                induction actions with
                | nil => exact fun _ _ => rfl
                | cons follow rest rest_ih =>
                    intro at_ ranks
                    have less := ranks follow List.mem_cons_self
                    rw [tryRun_cons, tryRun_cons, ih at_ (Nat.lt_of_lt_of_le less (Nat.le_of_lt_succ low))
                      (Nat.lt_of_lt_of_le less (Nat.le_of_lt_succ high))]
                    refine congrArg (Bind.bind _) (funext fun last => ?_)
                    exact rest_ih last fun follow member => ranks follow (List.mem_cons_of_mem _ member)
              exact same next middle fun follow member => (follows follow member).1

theorem rank_lt (action : SessionUiAction) : action.rank < 3 := by
  unfold SessionUiAction.rank
  split <;> omega

/-- `apply_session_actions` does not depend on the depth that it is given. -/
theorem applySessionActions_depth (n : Nat) (enough : 3 ≤ n) (terminal : Terminal σ) (actions : List SessionUiAction) :
    tryRun (carryOut E client n) terminal actions = applySessionActions E client terminal actions := by
  unfold applySessionActions
  refine congrArg (fun step => tryRun step terminal actions) ?_
  funext terminal action
  exact carryOut_enough terminal (Nat.lt_of_lt_of_le (rank_lt action) enough) (rank_lt action)

/-! ## Authority -/

/-- An action carried out leaves the authority as it was, unless it is a refresh that reads the snapshots. -/
theorem carryOut_authority {depth : Nat} : ∀ {action : SessionUiAction} {terminal terminal' : Terminal σ},
    carryOut E client depth terminal action = .ok terminal' → (terminal'.model.authorityEnabled = true ↔
      terminal.model.authorityEnabled = true ∨ action = .refreshSnapshots ∧ ReadsSnapshots terminal.model) := by
  induction depth with
  | zero => exact fun carried => nomatch carried
  | succ depth ih =>
      intro action terminal terminal' carried
      obtain ⟨⟨middle, next⟩, performed, rest⟩ := bind_ok.mp carried
      obtain ⟨follows, connects⟩ := Terminal.perform_ok performed
      rw [← connects]
      -- nothing that follows is a refresh
      have still : ∀ {actions : List SessionUiAction} {first last : Terminal σ}, (∀ follow ∈ actions, follow ≠ .refreshSnapshots) →
          tryRun (carryOut E client depth) first actions = .ok last →
            (last.model.authorityEnabled = true ↔ first.model.authorityEnabled = true) := by
        intro actions
        induction actions with
        | nil =>
            intro first last _ ran
            cases ran
            exact Iff.rfl
        | cons follow actions rest_ih =>
            intro first last others ran
            obtain ⟨second, head, tail⟩ := tryRun_cons_ok.mp ran
            have one := ih head
            rw [or_iff_left fun refresh => others follow List.mem_cons_self refresh.1] at one
            exact (rest_ih (fun other member => others other (List.mem_cons_of_mem _ member)) tail).trans one
      exact still (fun follow member => (follows follow member).2) rest

/-- Some refresh of the batch is carried out where it reads the snapshots. -/
def Reconnects (E : TuiEnvironment) (client : SessionProjectionClient σ) (terminal : Terminal σ)
    (actions : List SessionUiAction) : Prop :=
  ∃ first rest middle, actions = first ++ .refreshSnapshots :: rest ∧
    applySessionActions E client terminal first = .ok middle ∧ ReadsSnapshots middle.model

theorem applySessionActions_authority {actions : List SessionUiAction} : ∀ {terminal terminal' : Terminal σ},
    applySessionActions E client terminal actions = .ok terminal' → (terminal'.model.authorityEnabled = true ↔
      terminal.model.authorityEnabled = true ∨ Reconnects E client terminal actions) := by
  induction actions with
  | nil =>
      intro terminal terminal' applied
      cases applied
      refine (or_iff_left ?_).symm
      rintro ⟨first, rest, _, split, _⟩
      exact List.append_ne_nil_of_right_ne_nil first (List.cons_ne_nil _ rest) split.symm
  | cons action actions ih =>
      intro terminal terminal' applied
      obtain ⟨middle, head, tail⟩ := tryRun_cons_ok.mp applied
      rw [ih tail, carryOut_authority head, or_assoc]
      refine or_congr_right ?_
      constructor
      · rintro (⟨rfl, reads⟩ | ⟨first, rest, last, rfl, ran, reads⟩)
        · exact ⟨[], actions, terminal, rfl, rfl, reads⟩
        · exact ⟨action :: first, rest, last, rfl, tryRun_cons_ok.mpr ⟨middle, head, ran⟩, reads⟩
      · rintro ⟨first, rest, last, split, ran, reads⟩
        cases first with
        | nil =>
            cases split
            cases ran
            exact .inl ⟨rfl, reads⟩
        | cons one first =>
            cases split
            obtain ⟨second, taken, ran⟩ := tryRun_cons_ok.mp ran
            cases head.symm.trans taken
            exact .inr ⟨first, rest, last, rfl, ran, reads⟩

end Actions

/-! ## Events -/

section Events

variable {E : TuiEnvironment} {model : SessionUiModel}

theorem reduceFeedback_offline (offline : model.connection ≠ .connected) (result : SessionUiFeedback) :
    (reduceFeedback E model result).1.connection ≠ .connected := by
  unfold reduceFeedback
  split
  case h_11 message => exact @SessionUiModel.reduce_offline E model (.commandCompleted message) id offline
  case h_12 => exact offline
  all_goals exact SessionUiModel.reduce_offline id offline

theorem drainRuntimeUpdates_offline (offline : model.connection ≠ .connected) (feedback : List SessionUiFeedback)
    (progress : List SessionTransientProgress) :
    (drainRuntimeUpdates E model feedback progress).1.connection ≠ .connected := by
  have answered : ∀ (feedback : List SessionUiFeedback) (reduced : Reduced), reduced.1.connection ≠ .connected →
      (feedback.foldl (fun (reduced : Reduced) result =>
        ((reduceFeedback E reduced.1 result).1, reduced.2 ++ (reduceFeedback E reduced.1 result).2)) reduced
        ).1.connection ≠ .connected := by
    intro feedback
    induction feedback with
    | nil => exact fun _ offline => offline
    | cons result feedback ih => exact fun reduced offline => ih _ (reduceFeedback_offline offline result)
  have reported : ∀ (progress : List SessionTransientProgress) (model : SessionUiModel), model.connection ≠ .connected →
      (progress.foldl (fun model update => reduceModel E model (.progress update)) model).connection ≠ .connected := by
    intro progress
    induction progress with
    | nil => exact fun _ offline => offline
    | cons update progress ih => exact fun model offline => ih _ (SessionUiModel.reduce_offline id offline)
  exact reported progress _ (answered feedback (model, []) offline)

/-- No event by itself gives the authority back. -/
theorem batch_offline (offline : model.connection ≠ .connected) (event : LoopEvent) :
    (batch E model event).1.connection ≠ .connected := by
  have fed : ∀ input, ¬ SessionUiModel.Connects input → (reduce E model input).1.connection ≠ .connected := fun input other =>
    SessionUiModel.reduce_offline other offline
  cases event with
  | expire => exact offline
  | frame => exact fed .frameRendered id
  | interrupted now => exact fed (.key _ now) id
  | poll poll =>
      cases poll with
      | event | empty => exact offline
      | lagged missed => exact fed .lagged id
      | closed =>
          change (if model.connection ≠ .disconnected then _ else _ : Reduced).1.connection ≠ .connected
          split
          · exact fed .disconnected id
          · exact offline
      | error error =>
          change (if model.status ≠ _ then _ else _ : Reduced).1.connection ≠ .connected
          split
          · exact fed (.commandError error) id
          · exact offline
  | drain feedback progress => exact drainRuntimeUpdates_offline offline feedback progress
  | key key now => exact fed (.key key now) id
  | mouse kind => exact fed (.mouse kind) id
  | resize width height => exact fed (.resize width height) id
  | paste value => exact fed (.paste value) id

end Events

/-! ## Runs -/

section Loop

variable {σ : Type} (E : TuiEnvironment) (client : SessionProjectionClient σ) (start : Terminal σ) (events : List LoopEvent)

/-- The loop has taken the first `k` events. -/
def Reaches (k : Nat) (terminal : Terminal σ) : Prop := tryRun (Terminal.step E client) start (events.take k) = .ok terminal

/-- The terminal as `apply_session_actions` finds it at an event. -/
def Terminal.batched (terminal : Terminal σ) (event : LoopEvent) : Terminal σ :=
  { terminal with model := (batch E terminal.model event).1 }

/-- Authority that is lost comes back at an event whose refresh reads the snapshots, and at no other. -/
structure FollowsProjection : Prop where
  waits : ∀ i k before after, i ≤ k → Reaches E client start events i before → before.model.authorityEnabled = false →
    Reaches E client start events k after → after.model.authorityEnabled = true →
      ∃ j terminal event, i ≤ j ∧ j < k ∧ Reaches E client start events j terminal ∧ events[j]? = some event ∧
        Reconnects E client (terminal.batched E event) (batch E terminal.model event).2
  returns : ∀ k before event after, Reaches E client start events k before → events[k]? = some event →
    (batch E before.model event).1.authorityEnabled = false → .refreshSnapshots ∈ (batch E before.model event).2 →
      Reaches E client start events (k + 1) after →
        (after.model.authorityEnabled = true ↔ Reconnects E client (before.batched E event) (batch E before.model event).2)

variable {E client start events}

theorem reaches_succ {k : Nat} {after : Terminal σ} (bound : k < events.length) :
    Reaches E client start events (k + 1) after ↔
      ∃ before, Reaches E client start events k before ∧ before.step E client events[k] = .ok after := by
  unfold Reaches
  rw [List.take_succ_eq_append_getElem bound, tryRun_append_ok]
  constructor
  · rintro ⟨before, ran, last⟩
    obtain ⟨_, taken, done⟩ := tryRun_cons_ok.mp last
    cases done
    exact ⟨before, ran, taken⟩
  · rintro ⟨before, ran, taken⟩
    exact ⟨before, ran, tryRun_cons_ok.mpr ⟨after, taken, rfl⟩⟩

theorem reaches_beyond {k : Nat} {after : Terminal σ} (beyond : events.length ≤ k) :
    Reaches E client start events (k + 1) after → Reaches E client start events k after := by
  unfold Reaches
  rw [List.take_of_length_le beyond, List.take_of_length_le (Nat.le_succ_of_le beyond)]
  exact id

theorem authority_waits {i : Nat} {before : Terminal σ} (began : Reaches E client start events i before)
    (offline : before.model.authorityEnabled = false) : ∀ k after, i ≤ k → Reaches E client start events k after →
      after.model.authorityEnabled = true → ∃ j terminal event, i ≤ j ∧ j < k ∧ Reaches E client start events j terminal ∧
        events[j]? = some event ∧ Reconnects E client (terminal.batched E event) (batch E terminal.model event).2 := by
  intro k
  induction k with
  | zero =>
      intro after first reached online
      cases Nat.le_zero.mp first
      cases began.symm.trans reached
      exact absurd (offline.symm.trans online) Bool.false_ne_true
  | succ k ih =>
      intro after order reached online
      have later : ∀ terminal, i ≤ k → Reaches E client start events k terminal → terminal.model.authorityEnabled = true →
          ∃ j terminal event, i ≤ j ∧ j < k + 1 ∧ Reaches E client start events j terminal ∧ events[j]? = some event ∧
            Reconnects E client (terminal.batched E event) (batch E terminal.model event).2 := by
        intro terminal order reached online
        obtain ⟨j, at_, event, since, less, rest⟩ := ih terminal order reached online
        exact ⟨j, at_, event, since, Nat.lt_succ_of_lt less, rest⟩
      rcases Nat.lt_or_eq_of_le order with inside | rfl
      · by_cases bound : k < events.length
        · obtain ⟨middle, ran, taken⟩ := (reaches_succ bound).mp reached
          by_cases already : middle.model.authorityEnabled = true
          · exact later middle (Nat.le_of_lt_succ inside) ran already
          · refine ⟨k, middle, events[k], Nat.le_of_lt_succ inside, Nat.lt_succ_self k, ran,
              List.getElem?_eq_getElem bound, ?_⟩
            have off : (middle.batched E events[k]).model.connection ≠ .connected :=
              batch_offline (fun on => already (authorityEnabled_iff.mpr on)) events[k]
            rcases (applySessionActions_authority taken).mp online with kept | reconnects
            · exact absurd (authorityEnabled_iff.mp kept) off
            · exact reconnects
        · exact later after (Nat.le_of_lt_succ inside) (reaches_beyond (Nat.not_lt.mp bound) reached) online
      · cases began.symm.trans reached
        exact absurd (offline.symm.trans online) Bool.false_ne_true

end Loop

/-! ## A gap while a session is open -/

/-- A client whose calls all succeed, over one session. -/
def steadyClient : SessionProjectionClient Unit where
  session _ world := (.ok (shownSession .ready []), world)
  snapshots world := (.ok [], world)
  sessionCatalog world := (.ok [], world)
  exactSession _ world := (.ok none, world)
  exactSessionCatalog _ world := (.ok [], world)
  searchSessionCatalog _ world := (.ok [], world)
  contextUsage _ world := (false, world)
  sink _ world := (.ok (), world)

def steadyStart : Terminal Unit := ⟨.withStartup ⟨"p", "m", []⟩, ()⟩

/-- A fork is opened, and then the event stream lags. -/
def gapWhileOpen : List LoopEvent := [.drain [.sessionManagement (.ok (.forked ⟨⟨1⟩⟩))] [], .poll (.lagged 1)]

/-- What a run leaves of the authority, if it ends well. -/
def authorityAfter (k : Nat) : Option Bool :=
  match tryRun (Terminal.step plainTui steadyClient) steadyStart (gapWhileOpen.take k) with
  | .ok terminal => some terminal.model.authorityEnabled
  | .error _ => none

theorem authorityAfter_some {k : Nat} {value : Bool} (after : authorityAfter k = some value) :
    ∃ terminal, Reaches plainTui steadyClient steadyStart gapWhileOpen k terminal ∧
      terminal.model.authorityEnabled = value := by
  unfold authorityAfter at after
  split at after
  case h_1 terminal ran => exact ⟨terminal, ran, Option.some.inj after⟩
  case h_2 => cases after

end LatteCode.Tui
