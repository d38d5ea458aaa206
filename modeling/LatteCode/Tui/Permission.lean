import LatteCode.Tui.Layout
import LatteCode.Tui.Reconciliation
/- A permission is answered by its own keys, for a request that a frame has shown; other keys wait for the decision. -/

namespace LatteCode.Tui
open Runs

/-- The loop draws a frame into an area, or reduces an input. -/
inductive ScreenEvent where
  | frame (area : Rect)
  | input (input : SessionUiInput)
deriving DecidableEq

/-- The terminal, and the model that the last frame was drawn from with the area it was drawn into. -/
structure Screen where
  model : SessionUiModel
  shown : Option (Rect × SessionUiModel)

namespace Screen

variable (E : TuiEnvironment) (screen : Screen)

/-- A frame is reported as rendered right after it is drawn. -/
def reduced : ScreenEvent → Reduced
  | .frame _ => reduce E screen.model .frameRendered
  | .input input => reduce E screen.model input

def step (event : ScreenEvent) : Screen where
  model := (screen.reduced E event).1
  shown := match event with
    | .frame area => some (area, screen.model)
    | .input _ => screen.shown

def emitted (event : ScreenEvent) : List SessionUiAction := (screen.reduced E event).2

/-- The request that counts as seen is the one that the last frame was drawn for. -/
def Seen : Prop :=
  screen.model.renderedPermissionRequest =
    screen.shown.bind fun frame => frame.2.selectedSession.bind permissionRequest

end Screen

/-! ## The barrier -/

/-- `Ctrl+A` allows, and an unmodified `d` denies. -/
def KeyEvent.answers (key : KeyEvent) (allow : Bool) : Prop :=
  if allow then key.code = .char 'a' ∧ key.modifiers = .CONTROL else key.plain (.char 'd') = true

def KeyEvent.interrupts (key : KeyEvent) : Prop := key.code = .char 'c' ∧ key.control = true

section Barrier

variable (E : TuiEnvironment) (screen : Screen) (event : ScreenEvent)

/-- A permission is answered by its key, while connected, for the request of the selected session that the last frame
shows. -/
def Answered (shows : Rect → SessionUiModel → SessionId × String → Prop) : Prop :=
  ∀ sessionId requestId allow, .resolvePermission sessionId requestId allow ∈ screen.emitted E event →
    ∃ key now session area drawn, event = .input (.key key now) ∧ key.answers allow ∧
      screen.model.connection = .connected ∧ screen.model.selectedSession = some session ∧
      session.sessionId = sessionId ∧ permissionRequest session = some (sessionId, requestId) ∧
      screen.shown = some (area, drawn) ∧ shows area drawn (sessionId, requestId)

/-- While a decision is due, keys and pastes leave both editors alone, and a key that neither answers nor interrupts asks
for nothing but what is allowed. -/
structure Held (allowed : KeyEvent → SessionUiAction → Prop) : Prop where
  key : ∀ session key now, screen.model.selectedSession = some session → blocked session = true →
    event = .input (.key key now) →
      ((screen.step E event).model.composer = screen.model.composer ∧
        (screen.step E event).model.input = screen.model.input) ∧
      ((∀ allow, ¬ key.answers allow) → ¬ key.interrupts → ∀ action ∈ screen.emitted E event, allowed key action)
  paste : ∀ session value, screen.model.selectedSession = some session → blocked session = true →
    event = .input (.paste value) →
      ((screen.step E event).model.composer = screen.model.composer ∧
        (screen.step E event).model.input = screen.model.input) ∧ screen.emitted E event = []

/-- The frame was drawn for the request, and shows its card unless the session has to be reconciled or there is no room. -/
def Presents (area : Rect) (drawn : SessionUiModel) (request : SessionId × String) : Prop :=
  ∃ session, drawn.selectedSession = some session ∧ permissionRequest session = some request ∧
    (session.lifecycle ≠ .reconciliationRequired → 0 < area.width ∧ 0 < area.height →
      0 < (transcriptArea E area drawn).width ∧ 0 < (transcriptArea E area drawn).height →
        ShowsCard E area drawn request)

/-- A snapshot, or the end of the program on its own key. -/
def refreshesOrQuits (key : KeyEvent) (action : SessionUiAction) : Prop :=
  action = .refreshSnapshots ∨ action = .quit ∧ key.code = .f 10

end Barrier

theorem permissionRequest_own {session : SessionSnapshot} {request : SessionId × String}
    (pending : permissionRequest session = some request) : session.sessionId = request.1 := by
  unfold permissionRequest at pending
  split at pending
  · cases pending
    rfl
  · cases pending

/-- A session that waits for an input, or for nothing, blocks only for a reconciliation. -/
theorem blocked_of_input {session : SessionSnapshot} {request : SessionId × String}
    (pending : inputRequest session = some request) (lifecycle : session.lifecycle ≠ .reconciliationRequired) :
    ¬ blocked session = true := by
  have none : permissionRequest session = none := by
    unfold inputRequest at pending
    unfold permissionRequest
    split at pending
    case h_1 input => rw [input]
    case h_2 => cases pending
  rw [blocked, none, decide_eq_false lifecycle]
  exact Bool.false_ne_true

theorem blocked_of_idle {session : SessionSnapshot} (pending : session.pending = none)
    (lifecycle : session.lifecycle ≠ .reconciliationRequired) : ¬ blocked session = true := by
  rw [blocked, permissionRequest, pending, decide_eq_false lifecycle]
  exact Bool.false_ne_true

namespace SessionUiModel

variable {E : TuiEnvironment} {model : SessionUiModel}

/-! ## The request that counts as seen -/

theorem adoptAssignedSession_rendered :
    model.adoptAssignedSession.renderedPermissionRequest = model.renderedPermissionRequest := by
  unfold adoptAssignedSession
  split
  · split <;> rfl
  · rfl

theorem showSnapshot_rendered (sessions : List SessionSnapshot) :
    (model.showSnapshot sessions).renderedPermissionRequest = model.renderedPermissionRequest := by
  have adopted := @adoptAssignedSession_rendered ({ model with sessions := sessions })
  unfold showSnapshot closeOverlaysWhenBlocked
  simp only
  split
  · exact adopted
  · exact adopted

theorem reduceSnapshot_rendered (sessions : List SessionSnapshot) :
    (model.reduceSnapshot E sessions).1.renderedPermissionRequest = model.renderedPermissionRequest := by
  have dropped : ∀ shown : SessionUiModel,
      shown.dropStaleConfirmation.renderedPermissionRequest = shown.renderedPermissionRequest := by
    intro shown
    unfold dropStaleConfirmation
    split <;> rfl
  unfold reduceSnapshot
  refine (congrArg Focus.rendered (dropStaleConfirmation _).dispatchQueued_focus).trans ((dropped _).trans ?_)
  exact (congrArg Focus.rendered ((model.showSnapshot sessions).settleProjection_focus E)).trans
    (showSnapshot_rendered sessions)

theorem reduceEvent_rendered (event : SessionEventEnvelope) :
    (model.reduceEvent E event).1.renderedPermissionRequest = model.renderedPermissionRequest := by
  unfold reduceEvent
  split
  · rfl
  split
  · rfl
  split
  · rfl
  · exact (congrArg Focus.rendered (synchronizeInputTarget_focus _)).trans
      ((congrArg Focus.rendered (reconcilePendingInputSubmission_focus E _)).trans
        (congrArg Focus.rendered (reconcilePendingSubmission_focus E _)))

theorem reduceSubmissionAssigned_rendered (submissionId : Nat) (sessionId : SessionId) :
    (model.reduceSubmissionAssigned E submissionId sessionId).renderedPermissionRequest =
      model.renderedPermissionRequest := by
  unfold reduceSubmissionAssigned
  split
  · rfl
  · simp only
    refine (congrArg Focus.rendered (reconcilePendingSubmission_focus E _)).trans ?_
    split
    · split <;> rfl
    · rfl

theorem reduceConfirmationKey_keeps (key : KeyEvent) (c : SessionId × String) :
    (model.reduceConfirmationKey key c).1.renderedPermissionRequest = model.renderedPermissionRequest ∧
      (model.reduceConfirmationKey key c).1.composer = model.composer ∧
      (model.reduceConfirmationKey key c).1.input = model.input := by
  unfold reduceConfirmationKey
  split
  · exact ⟨rfl, rfl, rfl⟩
  split
  · exact ⟨rfl, rfl, rfl⟩
  · split <;> exact ⟨rfl, rfl, rfl⟩

theorem reduceReconciliationKey_keeps (key : KeyEvent) (session : SessionSnapshot) :
    (model.reduceReconciliationKey key session).1.renderedPermissionRequest = model.renderedPermissionRequest ∧
      (model.reduceReconciliationKey key session).1.composer = model.composer ∧
      (model.reduceReconciliationKey key session).1.input = model.input := by
  unfold reduceReconciliationKey
  split
  · split <;> exact ⟨rfl, rfl, rfl⟩
  · exact ⟨rfl, rfl, rfl⟩

theorem reduceInterrupt_keeps (now : Nat) :
    (model.reduceInterrupt now).1.composer = model.composer ∧ (model.reduceInterrupt now).1.input = model.input := by
  unfold reduceInterrupt
  split
  · exact ⟨rfl, rfl⟩
  split
  · exact ⟨rfl, rfl⟩
  · simp only
    split <;> exact ⟨rfl, rfl⟩

theorem reduceKeyAt_rendered (key : KeyEvent) (now : Nat) :
    (model.reduceKeyAt E key now).1.renderedPermissionRequest = model.renderedPermissionRequest := by
  have source := model.reduceKeyAt_case E key now
  revert source
  generalize model.reduceKeyAt E key now = reduced
  intro source
  cases source with
  | released | quits | refreshes => rfl
  | interrupts => exact congrArg Focus.rendered (reduceInterrupt_focus now)
  | confirms c => exact (reduceConfirmationKey_keeps key c).1
  | reconciles session => exact (reduceReconciliationKey_keeps key session).1
  | permits session request =>
      rw [reducePermissionKey_still]
      rfl
  | answers session turnId requestId => exact congrArg Focus.rendered (reduceInputKey_focus key session turnId requestId)
  | opens => exact congrArg Standing.renderedPermissionRequest (model.disarm.reduceOpenKey_move E key).standing

/-- Only a frame changes which request counts as seen. -/
theorem reduceModel_rendered {input : SessionUiInput} (other : input ≠ .frameRendered) :
    (reduceModel E model input).renderedPermissionRequest = model.renderedPermissionRequest := by
  unfold reduceModel
  cases input with
  | frameRendered => exact absurd rfl other
  | key key now => exact reduceKeyAt_rendered key now
  | snapshot sessions => exact reduceSnapshot_rendered sessions
  | sessionOpened snapshot => exact congrArg Focus.rendered ((model.showOpened snapshot).settleProjection_focus E)
  | event event => exact reduceEvent_rendered event
  | submissionAssigned submissionId sessionId => exact reduceSubmissionAssigned_rendered submissionId sessionId
  | paste value => exact congrArg Focus.rendered (model.reducePaste_focus value)
  | mouse kind => cases kind <;> rfl
  | progress progress => exact congrArg Focus.rendered (model.recordProgress_focus progress)
  | sessionCatalogReady sessions query => exact congrArg Focus.rendered (model.reduceCatalogReady_focus sessions query)
  | resize | sessionCatalog | lagged | connected | disconnected | commandError | commandCompleted | tick
  | contextUsage => rfl
  | submissionError | submissionCompleted | inputSubmissionError | inputSubmissionCompleted | modelSwitchError
  | modelSwitchCompleted =>
      unfold reduce
      simp only
      split <;> rfl

/-! ## Keys while a decision is due -/

/-- A blocked session leaves nothing to the editors. -/
theorem reduceKeyAt_text {session : SessionSnapshot} (selected : model.selectedSession = some session)
    (due : blocked session = true) (key : KeyEvent) (now : Nat) :
    (model.reduceKeyAt E key now).1.composer = model.composer ∧
      (model.reduceKeyAt E key now).1.input = model.input := by
  have source := model.reduceKeyAt_case E key now
  revert source
  generalize model.reduceKeyAt E key now = reduced
  intro source
  cases source with
  | released | quits | refreshes => exact ⟨rfl, rfl⟩
  | interrupts => exact reduceInterrupt_keeps now
  | confirms c => exact (reduceConfirmationKey_keeps key c).2
  | reconciles other => exact (reduceReconciliationKey_keeps key other).2
  | permits other request =>
      rw [reducePermissionKey_still]
      exact ⟨rfl, rfl⟩
  | answers other turnId requestId _ same pending lifecycle =>
      cases selected.symm.trans same
      exact absurd due (blocked_of_input pending lifecycle)
  | opens _ free =>
      obtain ⟨lifecycle, pending⟩ := free session selected
      exact absurd due (blocked_of_idle pending lifecycle)

theorem reduceKeyAt_allowed {session : SessionSnapshot} (selected : model.selectedSession = some session)
    (due : blocked session = true) {key : KeyEvent} {now : Nat} (other : ∀ allow, ¬ key.answers allow)
    (uninterrupted : ¬ key.interrupts) :
    ∀ action ∈ (model.reduceKeyAt E key now).2, refreshesOrQuits key action := by
  intro action
  have source := model.reduceKeyAt_case E key now
  revert source
  generalize model.reduceKeyAt E key now = reduced
  intro source emitted
  cases source with
  | released => cases emitted
  | quits code => exact .inr ⟨List.mem_singleton.mp emitted, code⟩
  | interrupts code control => exact absurd ⟨code, control⟩ uninterrupted
  | refreshes => exact .inl (List.mem_singleton.mp emitted)
  | confirms c => exact absurd (reduceConfirmationKey_emits emitted).2 (other true)
  | reconciles other =>
      rw [reduceReconciliationKey_silent] at emitted
      cases emitted
  | permits another request =>
      obtain ⟨_, _, ⟨_, denies⟩ | ⟨_, allows⟩⟩ := reducePermissionKey_emits emitted
      · exact absurd denies (other false)
      · exact absurd allows (other true)
  | answers another turnId requestId _ same pending lifecycle =>
      cases selected.symm.trans same
      exact absurd due (blocked_of_input pending lifecycle)
  | opens _ free =>
      obtain ⟨lifecycle, pending⟩ := free session selected
      exact absurd due (blocked_of_idle pending lifecycle)

theorem reducePaste_text {session : SessionSnapshot} (selected : model.selectedSession = some session)
    (due : blocked session = true) (value : String) :
    (model.reducePaste value).composer = model.composer ∧ (model.reducePaste value).input = model.input := by
  have held : (model.pendingInputSubmission.isSome || model.reconciliationConfirmation.isSome ||
      model.selectedSession.any blocked) = true := by
    rw [selected, Option.any_some, due, Bool.or_true]
  unfold reducePaste
  simp only
  rw [if_pos held]
  exact ⟨rfl, rfl⟩

end SessionUiModel

/-! ## Runs -/

section Runs

variable (E : TuiEnvironment) (initial : SessionUiModel) (events : List ScreenEvent)

/-- The screen after the first `k` events. -/
abbrev screenAt (k : Nat) : Screen := stateAt (Screen.step E) ⟨initial, none⟩ events k

variable {E initial events}

theorem Starting.unseen (starting : Starting initial) : initial.renderedPermissionRequest = none := by
  rcases starting with rfl | ⟨startup, rfl⟩
  · rfl
  · rfl

theorem Screen.step_seen {screen : Screen} {event : ScreenEvent} (seen : screen.Seen)
    (drawn : event ≠ .input .frameRendered) : (screen.step E event).Seen := by
  cases event with
  | frame area => rfl
  | input input =>
      have other : input ≠ .frameRendered := fun same => drawn (by rw [same])
      exact (SessionUiModel.reduceModel_rendered other).trans seen

theorem screenAt_seen (starting : Starting initial) (drawn : ∀ event ∈ events, event ≠ .input .frameRendered) {k : Nat}
    (bound : k ≤ events.length) : (screenAt E initial events k).Seen := by
  have start : Screen.Seen ⟨initial, none⟩ := starting.unseen
  have good : ∀ k (bound : k < events.length), events[k] ≠ .input .frameRendered := fun k bound =>
    drawn _ (List.getElem_mem bound)
  exact invariant_of_steps start (fun _ _ seen other => Screen.step_seen seen other) good k bound

theorem Screen.answered {screen : Screen} (seen : screen.Seen) (event : ScreenEvent) :
    Answered E screen event (Presents E) := by
  intro sessionId requestId allow emitted
  cases event with
  | frame area => cases emitted
  | input input =>
      obtain ⟨key, now, rfl⟩ := decides_key emitted rfl
      cases SessionUiModel.reduceKeyAt_decides emitted rfl with
      | @resolves session request allow connected selected pending rendered chord =>
          have own : session.sessionId = request.1 := permissionRequest_own pending
          obtain ⟨⟨area, drawn⟩, shown, asked⟩ := Option.bind_eq_some_iff.mp (seen.symm.trans rendered)
          obtain ⟨earlier, chosen, requested⟩ := Option.bind_eq_some_iff.mp asked
          have presents : Presents E area drawn request :=
            ⟨earlier, chosen, requested, fun lifecycle frame room =>
              showsCard_of_room E chosen requested lifecycle frame room⟩
          exact ⟨key, now, session, area, drawn, rfl, chord, of_decide_eq_true connected, selected, own, pending, shown,
            presents⟩

theorem Screen.held (screen : Screen) (event : ScreenEvent) : Held E screen event refreshesOrQuits := by
  constructor
  · rintro session key now selected due rfl
    exact ⟨SessionUiModel.reduceKeyAt_text selected due key now,
      fun other uninterrupted => SessionUiModel.reduceKeyAt_allowed selected due other uninterrupted⟩
  · rintro session value selected due rfl
    exact ⟨SessionUiModel.reducePaste_text selected due value, rfl⟩

/-- A permission is answered only by its keys and only after a frame for it, and while a decision is due the other keys
only refresh or quit. -/
theorem permission_barrier (starting : Starting initial) (drawn : ∀ event ∈ events, event ≠ .input .frameRendered)
    {k : Nat} {event : ScreenEvent} (taken : events[k]? = some event) :
    Answered E (screenAt E initial events k) event (Presents E) ∧
      Held E (screenAt E initial events k) event refreshesOrQuits := by
  have bound : k < events.length := (List.getElem?_eq_some_iff.mp taken).1
  exact ⟨Screen.answered (screenAt_seen starting drawn (Nat.le_of_lt bound)) event, Screen.held _ event⟩

end Runs

/-! ## A terminal of four rows -/

def providerStartup : SessionStartupPresentation := ⟨"p", "m", []⟩

def askingSession : SessionSnapshot :=
  { shownSession .waitingPermission [] with pending := some (.permission ⟨⟨3⟩⟩ "request" "run" 1) }

def pressed (code : KeyCode) : SessionUiInput := .key ⟨code, .empty, .press⟩ 0

/-- A permission arrives, a frame is drawn, and a key follows. -/
def asked (rows : Nat) (code : KeyCode) : List ScreenEvent :=
  [.input (.sessionOpened askingSession), .frame ⟨0, 0, 80, rows⟩, .input (pressed code)]

theorem permission_barrier_denied :
    Answered plainTui (screenAt plainTui (.withStartup providerStartup) (asked 24 (.char 'd')) 2)
        (.input (pressed (.char 'd'))) (Presents plainTui) ∧
      Held plainTui (screenAt plainTui (.withStartup providerStartup) (asked 24 (.char 'd')) 2)
        (.input (pressed (.char 'd'))) refreshesOrQuits := by
  have drawn : ∀ event ∈ asked 24 (.char 'd'), event ≠ .input .frameRendered := by decide
  exact permission_barrier (.inr ⟨providerStartup, rfl⟩) drawn rfl

/-- In four rows the frame has no room for a card, yet `d` answers the request; and `F10` ends a blocked terminal. -/
theorem cramped_barrier :
    (¬ ∀ (events : List ScreenEvent) (k : Nat) (event : ScreenEvent),
      (∀ event ∈ events, event ≠ .input .frameRendered) → events[k]? = some event →
        Answered plainTui (screenAt plainTui (.withStartup providerStartup) events k) event (ShowsCard plainTui)) ∧
    ¬ ∀ (events : List ScreenEvent) (k : Nat) (event : ScreenEvent),
      (∀ event ∈ events, event ≠ .input .frameRendered) → events[k]? = some event →
        Held plainTui (screenAt plainTui (.withStartup providerStartup) events k) event
          fun _ action => action = .refreshSnapshots := by
  have drawn : ∀ code, ∀ event ∈ asked 4 code, event ≠ .input .frameRendered := by
    intro code event member
    simp only [asked, pressed, List.mem_cons, List.not_mem_nil, or_false] at member
    rcases member with rfl | rfl | rfl <;> simp
  constructor
  · intro claim
    have emitted : .resolvePermission ⟨⟨1⟩⟩ "request" false ∈
        (screenAt plainTui (.withStartup providerStartup) (asked 4 (.char 'd')) 2).emitted plainTui
          (.input (pressed (.char 'd'))) := by decide +kernel
    obtain ⟨_, _, _, area, shown, _, _, _, _, _, _, frame, card, painted, _⟩ :=
      claim (asked 4 (.char 'd')) 2 _ (drawn _) rfl _ _ _ emitted
    have last : (screenAt plainTui (.withStartup providerStartup) (asked 4 (.char 'd')) 2).shown.bind
        (fun frame => permissionCard plainTui frame.1 frame.2) = none := by decide +kernel
    rw [frame, Option.bind_some, painted] at last
    cases last
  · intro claim
    have selected : (screenAt plainTui (.withStartup providerStartup) (asked 4 (.f 10)) 2).model.selectedSession =
        some askingSession := by decide +kernel
    have emitted : .quit ∈ (screenAt plainTui (.withStartup providerStartup) (asked 4 (.f 10)) 2).emitted plainTui
        (.input (pressed (.f 10))) := by decide +kernel
    have held := (claim (asked 4 (.f 10)) 2 _ (drawn _) rfl).key _ _ _ selected (by decide +kernel) rfl
    have other : ∀ allow, ¬ KeyEvent.answers ⟨.f 10, .empty, .press⟩ allow := by
      intro allow
      cases allow <;> simp [KeyEvent.answers, KeyEvent.plain]
    have uninterrupted : ¬ KeyEvent.interrupts ⟨.f 10, .empty, .press⟩ := by simp [KeyEvent.interrupts]
    cases held.2 other uninterrupted _ emitted

end LatteCode.Tui
