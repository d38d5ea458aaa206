import LatteCode.Client.Reports
import LatteCode.Storage.Actives
import LatteCode.Tui.Reconciliation
/- A local interrupt: a fresh snapshot, a cancel request with its revisions, and the turn that the server signals. -/

namespace LatteCode.Client
open Outcome Runs Storage

/-! ## The cancel request -/

/-- What an interrupt has come to. -/
inductive Stage where
  | resting
  /-- The snapshot is asked for. -/
  | fetching (sessionId : SessionId)
  | requesting (sessionId : SessionId) (sessionRevision turnRevision : Nat)
  /-- `cancel_durable` has checked its fences, and has not looked for a call to signal. -/
  | checked (sessionId : SessionId) (turnId : TurnId) (sessionRevision turnRevision : Nat)
deriving DecidableEq

inductive ServerEvent where
  | store (op : Operation)
  /-- A runner registers the token of a call or withdraws it; the call of a summary is one of no turn. -/
  | called (sessionId : SessionId) (call : Option (Option TurnId))
  | fetched
  /-- The client or the request gets lost. -/
  | lost
  | received
  | signalled (commandId : SessionCommandId) (lease : Lease) (now : Nat)

/-- The store, the tokens of the calls in flight, an interrupt on its way, and the turns cancelled for it. -/
structure Cancelling (E : Environment) where
  db : E.Db
  active : SessionId → Option (Option TurnId)
  stage : Stage
  hits : List (SessionId × TurnId)

section Requests

variable {E : Environment}

/-- The fences of `cancel_durable`: the active turn, if both revisions are its. -/
def fencedTurn (E : Environment) (db : E.Db) (sessionId : SessionId) (sessionRevision turnRevision : Nat) : Option TurnId :=
  match currentSessionSnapshot E db sessionId SESSION_PROJECTION_TRANSCRIPT_LIMIT with
  | .error _ => none
  | .ok snapshot =>
      snapshot.activeTurnId.bind fun turnId =>
        (snapshot.turns.find? fun turn => turn.turnId = turnId).bind fun turn =>
          if snapshot.revision = sessionRevision ∧ turn.turnRevision = turnRevision then some turnId else none

/-- The durable interruption of a turn without a call in flight. -/
def cancelRequest (sessionId : SessionId) (turnId : TurnId) (sessionRevision turnRevision : Nat)
    (commandId : SessionCommandId) : SessionCommitRequest :=
  ⟨sessionId, turnId, sessionRevision, turnRevision, commandId, none, none, .interrupt (turnId.toString ++ ":cancel") none⟩

/-- The CLI sends the revision of the latest turn. -/
def latestRevision (snapshot : SessionSnapshot) : Nat := (latestTurn snapshot).elim 0 SessionTurnSummary.turnRevision

/-- The TUI sends the revision of the active turn. -/
def activeRevision (snapshot : SessionSnapshot) : Nat :=
  (snapshot.activeTurnId.bind fun turnId => snapshot.turns.find? fun turn => turn.turnId = turnId).elim 0
    SessionTurnSummary.turnRevision

def Cancelling.fetch (turnRevision : SessionSnapshot → Nat) (state : Cancelling E) (sessionId : SessionId) : Stage :=
  match currentSessionSnapshot E state.db sessionId SESSION_PROJECTION_TRANSCRIPT_LIMIT with
  | .ok snapshot => .requesting sessionId snapshot.revision (turnRevision snapshot)
  | .error _ => .resting

/-- The second half of `cancel_durable`: the token in the map is cancelled, and without one the turn is interrupted. -/
def Cancelling.signal (state : Cancelling E) (sessionId : SessionId) (turnId : TurnId) (request : SessionCommitRequest)
    (lease : Lease) (now : Nat) : Cancelling E :=
  match state.active sessionId with
  | some (some called) => { state with stage := .resting, hits := state.hits ++ [(sessionId, called)] }
  | some none => { state with stage := .resting }
  | none =>
      match exec E state.db (.commit request lease now) with
      | .ok _ => { state with
          db := Storage.step E state.db (.commit request lease now)
          stage := .resting
          hits := state.hits ++ [(sessionId, turnId)] }
      | .error _ => { state with stage := .resting }

def Cancelling.step (turnRevision : SessionSnapshot → Nat) (state : Cancelling E) : ServerEvent → Cancelling E
  | .store op => { state with db := Storage.step E state.db op }
  | .called sessionId call =>
      { state with active := fun key => if key = sessionId then call else state.active key }
  | .lost => { state with stage := .resting }
  | .fetched =>
      match state.stage with
      | .fetching sessionId => { state with stage := state.fetch turnRevision sessionId }
      | _ => state
  | .received =>
      match state.stage with
      | .requesting sessionId sessionRevision turnRevision =>
          match fencedTurn E state.db sessionId sessionRevision turnRevision with
          | some turnId => { state with stage := .checked sessionId turnId sessionRevision turnRevision }
          | none => { state with stage := .resting }
      | _ => state
  | .signalled commandId lease now =>
      match state.stage with
      | .checked sessionId turnId sessionRevision turnRevision =>
          state.signal sessionId turnId (cancelRequest sessionId turnId sessionRevision turnRevision commandId) lease now
      | _ => state

end Requests

/-! ## Only an allowed turn is hit -/

section Confinement

variable {E : Environment} {turnRevision : SessionSnapshot → Nat} {state : Cancelling E}
  {allowed more : SessionId × TurnId → Prop} {sessionId : SessionId}

/-- What an interrupt has hit and what its revisions fence are turns that it may hit. -/
structure Confined (allowed : SessionId × TurnId → Prop) (state : Cancelling E) : Prop where
  reached : Reachable E state.db
  hits : ∀ hit ∈ state.hits, allowed hit
  requesting : ∀ sessionId sessionRevision turnRevision, state.stage = .requesting sessionId sessionRevision turnRevision →
    ∃ active, RevisionFenced state.db sessionId sessionRevision active ∧ ∀ turnId ∈ active, allowed (sessionId, turnId)
  checked : ∀ sessionId turnId sessionRevision turnRevision,
    state.stage = .checked sessionId turnId sessionRevision turnRevision → allowed (sessionId, turnId)

/-- The snapshot is taken while no foreign turn is active, and the call that is signalled is one of the checked turn. -/
def Cancelling.Exclusive (allowed : SessionId × TurnId → Prop) (state : Cancelling E) : ServerEvent → Prop
  | .fetched => ∀ sessionId, state.stage = .fetching sessionId →
      ∀ turnId ∈ activeTurn state.db sessionId, allowed (sessionId, turnId)
  | .signalled .. => ∀ sessionId turnId sessionRevision turnRevision,
      state.stage = .checked sessionId turnId sessionRevision turnRevision →
        ∀ called, state.active sessionId = some (some called) → called = turnId
  | _ => True

theorem Confined.mono (confined : Confined allowed state) (wider : ∀ hit, allowed hit → more hit) : Confined more state := by
  refine ⟨confined.reached, fun hit member => wider hit (confined.hits hit member), ?_, ?_⟩
  · intro sessionId sessionRevision turnRevision stage
    obtain ⟨active, fenced, own⟩ := confined.requesting sessionId sessionRevision turnRevision stage
    exact ⟨active, fenced, fun turnId member => wider _ (own turnId member)⟩
  · intro sessionId turnId sessionRevision turnRevision stage
    exact wider _ (confined.checked sessionId turnId sessionRevision turnRevision stage)

theorem Confined.store (confined : Confined allowed state) (op : Operation) :
    Confined allowed { state with db := Storage.step E state.db op } := by
  refine ⟨confined.reached.step op, confined.hits, ?_, confined.checked⟩
  intro sessionId sessionRevision turnRevision stage
  obtain ⟨active, fenced, own⟩ := confined.requesting sessionId sessionRevision turnRevision stage
  exact ⟨active, fenced.step confined.reached op, own⟩

/-- A stage at which nothing is requested asks for nothing. -/
theorem Confined.quiet (reached : Reachable E state.db) (hits : ∀ hit ∈ state.hits, allowed hit)
    (quiet : state.stage = .resting ∨ ∃ sessionId, state.stage = .fetching sessionId) : Confined allowed state := by
  refine ⟨reached, hits, ?_, ?_⟩
  · intro sessionId sessionRevision turnRevision stage
    rcases quiet with resting | ⟨other, fetching⟩
    · rw [resting] at stage
      cases stage
    · rw [fetching] at stage
      cases stage
  · intro sessionId turnId sessionRevision turnRevision stage
    rcases quiet with resting | ⟨other, fetching⟩
    · rw [resting] at stage
      cases stage
    · rw [fetching] at stage
      cases stage

/-- A snapshot shows the revision and the active turn of one moment. -/
theorem snapshot_fences {db : E.Db} {limit : Nat} {snapshot : SessionSnapshot}
    (shown : currentSessionSnapshot E db sessionId limit = .ok snapshot) :
    RevisionFenced db sessionId snapshot.revision (activeTurn db sessionId) ∧
      snapshot.activeTurnId = activeTurn db sessionId := by
  simp only [currentSessionSnapshot, sessionSnapshot, bind_ok, require_ok, Except.ok.injEq] at shown
  obtain ⟨inner, ⟨session, found, _, _, rfl⟩, rfl⟩ := shown
  exact ⟨.of_kept found rfl, rfl⟩

theorem Confined.fetch (confined : Confined allowed state) (stage : state.stage = .fetching sessionId)
    (free : ∀ turnId ∈ activeTurn state.db sessionId, allowed (sessionId, turnId)) :
    Confined allowed { state with stage := state.fetch turnRevision sessionId } := by
  unfold Cancelling.fetch
  split
  case h_1 snapshot shown =>
    refine ⟨confined.reached, confined.hits, ?_, ?_⟩
    · intro other sessionRevision otherRevision requested
      cases requested
      exact ⟨_, (snapshot_fences shown).1, free⟩
    · intro other turnId sessionRevision otherRevision checked
      cases checked
  case h_2 => exact .quiet confined.reached confined.hits (.inl rfl)

/-- The fences admit only what was active when the revision was read. -/
theorem fencedTurn_allowed {db : E.Db} {sessionRevision turnRevision : Nat} {active : Option TurnId} {turnId : TurnId}
    (fenced : RevisionFenced db sessionId sessionRevision active)
    (found : fencedTurn E db sessionId sessionRevision turnRevision = some turnId) : active = some turnId := by
  unfold fencedTurn at found
  split at found
  case h_1 => cases found
  case h_2 snapshot shown =>
    obtain ⟨named, current, found⟩ := Option.bind_eq_some_iff.mp found
    obtain ⟨turn, _, checked⟩ := Option.bind_eq_some_iff.mp found
    split at checked
    case isFalse => cases checked
    case isTrue facts =>
      cases checked
      obtain ⟨session, row, _, kept⟩ := fenced
      obtain ⟨again, same⟩ := snapshot_fences shown
      obtain ⟨other, otherRow, order, _⟩ := again
      have revision : session.revision = sessionRevision := by
        simp only [currentSessionSnapshot, sessionSnapshot, bind_ok, require_ok, Except.ok.injEq] at shown
        obtain ⟨inner, ⟨shownRow, foundRow, _, _, rfl⟩, rfl⟩ := shown
        rw [row, Option.some.injEq] at foundRow
        rw [foundRow]
        exact facts.1
      rw [← kept revision, ← same, current]

theorem Confined.receive (confined : Confined allowed state) {sessionRevision turnRevision : Nat}
    (stage : state.stage = .requesting sessionId sessionRevision turnRevision) {turnId : TurnId}
    (found : fencedTurn E state.db sessionId sessionRevision turnRevision = some turnId) :
    Confined allowed { state with stage := .checked sessionId turnId sessionRevision turnRevision } := by
  obtain ⟨active, fenced, own⟩ := confined.requesting _ _ _ stage
  have mine := own turnId (fencedTurn_allowed fenced found)
  refine ⟨confined.reached, confined.hits, ?_, ?_⟩
  · intro other sessionRevision turnRevision requested
    cases requested
  · intro other otherTurn sessionRevision turnRevision checked
    cases checked
    exact mine

theorem Confined.signal (confined : Confined allowed state) {turnId : TurnId} (mine : allowed (sessionId, turnId))
    (own : ∀ called, state.active sessionId = some (some called) → called = turnId) (request : SessionCommitRequest)
    (lease : Lease) (now : Nat) : Confined allowed (state.signal sessionId turnId request lease now) := by
  have hit : ∀ hit ∈ state.hits ++ [(sessionId, turnId)], allowed hit :=
    List.forall_mem_append.mpr ⟨confined.hits, List.forall_mem_singleton.mpr mine⟩
  unfold Cancelling.signal
  split
  case h_1 called held =>
    cases own called held
    exact .quiet confined.reached hit (.inl rfl)
  case h_2 => exact .quiet confined.reached confined.hits (.inl rfl)
  case h_3 =>
    split
    case h_1 => exact .quiet (confined.reached.step _) hit (.inl rfl)
    case h_2 => exact .quiet confined.reached confined.hits (.inl rfl)

theorem Confined.step (confined : Confined allowed state) {event : ServerEvent} (exclusive : state.Exclusive allowed event) :
    Confined allowed (state.step turnRevision event) := by
  cases event with
  | store op => exact confined.store op
  | called sessionId call => exact ⟨confined.reached, confined.hits, confined.requesting, confined.checked⟩
  | lost => exact .quiet confined.reached confined.hits (.inl rfl)
  | fetched =>
      simp only [Cancelling.step]
      split
      case h_1 sessionId stage => exact confined.fetch stage (exclusive sessionId stage)
      case h_2 => exact confined
  | received =>
      simp only [Cancelling.step]
      split
      case h_1 sessionId sessionRevision turnRevision stage =>
        split
        case h_1 turnId found => exact confined.receive stage found
        case h_2 => exact .quiet confined.reached confined.hits (.inl rfl)
      case h_2 => exact confined
  | signalled commandId lease now =>
      simp only [Cancelling.step]
      split
      case h_1 sessionId turnId sessionRevision turnRevision stage =>
        exact confined.signal (confined.checked _ _ _ _ stage) (exclusive _ _ _ _ stage) _ lease now
      case h_2 => exact confined

end Confinement

/-! ## The CLI -/

/-- `run` or `resume` with its interrupt, after which only a call that is under way can still be accepted. -/
structure Cli (E : Environment) where
  phase : Phase
  own : Option (SessionId × TurnId)
  interrupted : Bool
  cancelling : Cancelling E

inductive CliEvent where
  | client (input : Input)
  /-- `Ctrl+C`, with the session id that a create has been sent with. -/
  | interrupt (minted : SessionId)
  | accepted (input : Input)
  | server (event : ServerEvent)

/-- The session that `cancel_session` is called for. -/
def Phase.interrupts (minted : SessionId) : Phase → Option SessionId
  | .resolving | .binding | .returned _ => none
  | .creating _ => some minted
  | .reading sessionId | .following sessionId _ | .checking sessionId _ | .awaiting sessionId _ => some sessionId

def Phase.over : Phase → Bool
  | .returned _ => true
  | _ => false

section Cli

variable {E : Environment}

def Cli.world (cli : Cli E) : World E := ⟨cli.cancelling.db, cli.phase, cli.own⟩

def Cli.step (command : Command) (cli : Cli E) : CliEvent → Cli E
  | .client (.cancelled _) => cli
  | .client input =>
      if cli.interrupted then cli
      else
        let world := cli.world.step command (.client input)
        { cli with phase := world.phase, own := world.own, cancelling := { cli.cancelling with db := world.db } }
  | .interrupt minted =>
      if cli.interrupted || cli.phase.over then cli
      else { cli with
        interrupted := true
        cancelling := { cli.cancelling with stage := (cli.phase.interrupts minted).elim .resting .fetching } }
  | .accepted input =>
      if cli.interrupted = true ∧ cli.phase.over = false ∧ cli.own = none then
        let world := cli.world.submit command cli.phase input
        { cli with own := world.own, cancelling := { cli.cancelling with db := world.db } }
      else cli
  | .server event => { cli with cancelling := cli.cancelling.step latestRevision event }

variable (E) in
/-- A client that has not started. -/
def Cli.new (active : SessionId → Option (Option TurnId)) : Cli E :=
  ⟨.resolving, none, false, ⟨Database.empty _, active, .resting, []⟩⟩

/-- `Cancelling.Exclusive`, for the turn that the command has started. -/
def Cli.Exclusive (cli : Cli E) : CliEvent → Prop
  | .server event => cli.cancelling.Exclusive (fun hit => cli.own = some hit) event
  | _ => True

/-- An interrupted client has hit its own turn at most, and before that nothing is on its way. -/
structure Cli.Spares (cli : Cli E) : Prop where
  confined : Confined (fun hit => cli.own = some hit) cli.cancelling
  before : cli.interrupted = false → cli.cancelling.stage = .resting ∧ cli.cancelling.hits = []

theorem resting_step {turnRevision : SessionSnapshot → Nat} {state : Cancelling E} (resting : state.stage = .resting)
    (event : ServerEvent) : (state.step turnRevision event).stage = .resting ∧
      (state.step turnRevision event).hits = state.hits := by
  cases event with
  | store | called => exact ⟨resting, rfl⟩
  | lost => exact ⟨rfl, rfl⟩
  | fetched | received | signalled =>
      simp only [Cancelling.step, resting, and_self]

theorem Cli.Spares.step {cli : Cli E} (spares : cli.Spares) (command : Command) {event : CliEvent}
    (exclusive : cli.Exclusive event) : (cli.step command event).Spares := by
  have reached := spares.confined.reached
  cases event with
  | client input =>
      have moves : ∀ world : World E, Reachable E world.db → cli.interrupted = false →
          Cli.Spares { cli with phase := world.phase, own := world.own, cancelling := { cli.cancelling with db := world.db } } := by
        intro world moved calm
        obtain ⟨resting, none⟩ := spares.before calm
        refine ⟨.quiet moved ?_ (.inl resting), fun _ => ⟨resting, none⟩⟩
        intro hit member
        rw [none] at member
        cases member
      have looked := (@step_move _ command cli.world reached (.client input)).reached reached
      cases calm : cli.interrupted with
      | true =>
          cases input <;> simp only [Cli.step, calm, if_true] <;> exact spares
      | false =>
          cases input with
          | cancelled => exact spares
          | _ =>
              simp only [Cli.step, calm, Bool.false_eq_true, if_false]
              have moved := moves _ looked calm
              rw [calm] at moved
              exact moved
  | interrupt minted =>
      simp only [Cli.step]
      split
      case isTrue => exact spares
      case isFalse first =>
        simp only [Bool.or_eq_true, not_or, Bool.not_eq_true] at first
        refine ⟨.quiet reached spares.confined.hits ?_, fun impossible => by cases impossible⟩
        cases cli.phase.interrupts minted with
        | none => exact .inl rfl
        | some sessionId => exact .inr ⟨sessionId, rfl⟩
  | accepted input =>
      simp only [Cli.step]
      split
      case isFalse => exact spares
      case isTrue facts =>
        obtain ⟨after, going, none⟩ := facts
        have open_ : ∀ result, cli.world.phase ≠ .returned result := by
          intro result ended
          have beyond : cli.phase = .returned result := ended
          rw [beyond] at going
          cases going
        -- nothing is allowed before the acceptance, so everything allowed stays so
        have stored : Confined (fun hit => cli.own = some hit)
            { cli.cancelling with db := (cli.world.submit command cli.phase input).db } := by
          rcases (@submit_move _ command cli.world reached input open_).db with same | ⟨op, moved⟩
          · have kept : (cli.world.submit command cli.phase input).db = cli.cancelling.db := same
            rw [kept]
            exact spares.confined
          · have kept : (cli.world.submit command cli.phase input).db = Storage.step E cli.cancelling.db op := moved
            rw [kept]
            exact spares.confined.store op
        refine ⟨stored.mono ?_, fun calm => by rw [after] at calm; cases calm⟩
        intro hit mine
        rw [none] at mine
        cases mine
  | server event =>
      refine ⟨spares.confined.step exclusive, ?_⟩
      intro calm
      obtain ⟨resting, none⟩ := spares.before calm
      obtain ⟨still, kept⟩ := resting_step resting event
      exact ⟨still, kept.trans none⟩

theorem Cli.new_spares (active : SessionId → Option (Option TurnId)) : (Cli.new E active).Spares := by
  refine ⟨.quiet .refl ?_ (.inl rfl), fun _ => ⟨rfl, rfl⟩⟩
  intro hit member
  cases member

end Cli

/-! ## The TUI -/

/-- What `Ctrl+C` emits is for the session that the terminal shows. -/
theorem interrupt_selected {model : Tui.SessionUiModel} {now : Nat} {sessionId : SessionId}
    (pressed : Tui.SessionUiAction.cancel sessionId ∈ (model.reduceInterrupt now).2) :
    ∃ session, model.selectedSession = some session ∧ session.sessionId = sessionId := by
  unfold Tui.SessionUiModel.reduceInterrupt at pressed
  split at pressed
  · cases pressed
  · split at pressed
    · simp at pressed
    · split at pressed
      case h_1 session shown =>
        obtain ⟨selected, _⟩ := Option.filter_eq_some_iff.mp shown
        simp only [List.mem_singleton, Tui.SessionUiAction.cancel.injEq] at pressed
        exact ⟨session, selected, pressed.symm⟩
      case h_2 => cases pressed

/-- The action that `Ctrl+C` hands over, in a process at any moment. -/
def pressed (E : Environment) (db : E.Db) (active : SessionId → Option (Option TurnId)) (sessionId : SessionId) :
    Cancelling E := ⟨db, active, .fetching sessionId, []⟩

/-- The session that an interrupt is on its way for. -/
def Stage.target : Stage → Option SessionId
  | .resting => none
  | .fetching sessionId | .requesting sessionId _ _ | .checked sessionId _ _ _ => some sessionId

/-- An interrupt stays with its session. -/
structure Aimed {E : Environment} (sessionId : SessionId) (state : Cancelling E) : Prop where
  stage : ∀ target ∈ state.stage.target, target = sessionId
  hits : ∀ hit ∈ state.hits, hit.1 = sessionId

theorem Aimed.rest {E : Environment} {sessionId : SessionId} {state : Cancelling E} (resting : state.stage = .resting)
    (hits : ∀ hit ∈ state.hits, hit.1 = sessionId) : Aimed sessionId state := by
  refine ⟨?_, hits⟩
  intro target member
  rw [resting] at member
  cases member

theorem Aimed.step {E : Environment} {sessionId : SessionId} {state : Cancelling E} (aimed : Aimed sessionId state)
    (turnRevision : SessionSnapshot → Nat) (event : ServerEvent) : Aimed sessionId (state.step turnRevision event) := by
  cases event with
  | store | called => exact ⟨aimed.stage, aimed.hits⟩
  | lost => exact .rest rfl aimed.hits
  | fetched =>
      simp only [Cancelling.step]
      split
      case h_2 => exact aimed
      case h_1 target stage =>
        have here := aimed.stage target (by rw [stage]; rfl)
        unfold Cancelling.fetch
        split
        case h_1 => exact ⟨fun other member => by cases member; exact here, aimed.hits⟩
        case h_2 => exact .rest rfl aimed.hits
  | received =>
      simp only [Cancelling.step]
      split
      case h_2 => exact aimed
      case h_1 target _ _ stage =>
        have here := aimed.stage target (by rw [stage]; rfl)
        split
        case h_1 => exact ⟨fun other member => by cases member; exact here, aimed.hits⟩
        case h_2 => exact .rest rfl aimed.hits
  | signalled commandId lease now =>
      simp only [Cancelling.step]
      split
      case h_2 => exact aimed
      case h_1 target _ _ _ stage =>
        have here := aimed.stage target (by rw [stage]; rfl)
        have hit : ∀ turnId, ∀ hit ∈ state.hits ++ [(target, turnId)], hit.1 = sessionId := fun turnId =>
          List.forall_mem_append.mpr ⟨aimed.hits, List.forall_mem_singleton.mpr here⟩
        unfold Cancelling.signal
        split
        case h_1 called _ => exact .rest rfl (hit called)
        case h_2 => exact .rest rfl aimed.hits
        case h_3 =>
          split
          case h_1 => exact .rest rfl (hit _)
          case h_2 => exact .rest rfl aimed.hits

/-- The turn that the terminal shows as active. -/
def shownActive (model : Tui.SessionUiModel) : Option TurnId := model.selectedSession.bind SessionSnapshot.activeTurnId

theorem pressed_spares {E : Environment} {db : E.Db} {active : SessionId → Option (Option TurnId)} {sessionId : SessionId}
    {allowed : SessionId × TurnId → Prop} {events : List ServerEvent} (reached : Reachable E db)
    (exclusive : ∀ k (bound : k < events.length),
      (stateAt (Cancelling.step activeRevision) (pressed E db active sessionId) events k).Exclusive allowed events[k]) :
    ∀ k, k ≤ events.length → ∀ hit ∈
      (stateAt (Cancelling.step activeRevision) (pressed E db active sessionId) events k).hits,
        allowed hit ∧ hit.1 = sessionId := by
  intro k bound hit member
  have start : Confined allowed (pressed E db active sessionId) :=
    .quiet reached (fun _ impossible => by cases impossible) (.inr ⟨sessionId, rfl⟩)
  have confined := invariant_of_steps start (fun state event held good => held.step good) exclusive k bound
  have aimed : Aimed sessionId (stateAt (Cancelling.step activeRevision) (pressed E db active sessionId) events k) := by
    refine invariant_at ⟨?_, fun _ impossible => by cases impossible⟩ (fun _ event held => held.step _ event) k
    rintro target ⟨⟩
    rfl
  exact ⟨confined.hits hit member, aimed.hits hit member⟩

/-- If no foreign turn is active when the snapshot is taken, and the call that the server signals is one of the turn whose
fences it has checked, an interrupt hits no turn but its own: that of the command, or the one that the terminal showed. -/
theorem interrupt_spares (E : Environment) (active : SessionId → Option (Option TurnId)) :
    (∀ (command : Command) (events : List CliEvent),
      (∀ k (bound : k < events.length), (stateAt (Cli.step command) (Cli.new E active) events k).Exclusive events[k]) →
      ∀ k, k ≤ events.length → ∀ hit ∈ (stateAt (Cli.step command) (Cli.new E active) events k).cancelling.hits,
        (stateAt (Cli.step command) (Cli.new E active) events k).own = some hit) ∧
    (∀ (ops : List Operation) (model : Tui.SessionUiModel) (now : Nat) (sessionId : SessionId) (events : List ServerEvent),
      Tui.SessionUiAction.cancel sessionId ∈ (model.reduceInterrupt now).2 →
      (∀ k (bound : k < events.length),
        (stateAt (Cancelling.step activeRevision) (pressed E (runOf E ops) active sessionId) events k).Exclusive
          (fun hit => shownActive model = some hit.2) events[k]) →
      ∀ k, k ≤ events.length → ∀ hit ∈
        (stateAt (Cancelling.step activeRevision) (pressed E (runOf E ops) active sessionId) events k).hits,
        ∃ session, model.selectedSession = some session ∧ session.sessionId = hit.1 ∧
          session.activeTurnId = some hit.2) := by
  constructor
  · intro command events exclusive k bound
    have spares := invariant_of_steps (Cli.new_spares active) (fun cli event held good => held.step command good) exclusive
      k bound
    exact spares.confined.hits
  · intro ops model now sessionId events keyed exclusive k bound hit member
    obtain ⟨shown, here⟩ := pressed_spares (reachable_runOf ops) exclusive k bound hit member
    obtain ⟨session, selected, named⟩ := interrupt_selected keyed
    rw [shownActive, selected, Option.bind_some] at shown
    exact ⟨session, selected, named.trans here.symm, shown⟩

/-! ## A turn of another client -/

/-- The interruption of a `run` after its turn was accepted. -/
def interruptedRun : List CliEvent :=
  [.server (.store (.acquireLease (sessionLeaseScope sampleSession) "engine" none 0 100)), .client .resolved,
    .client (.bound sampleBinding),
    .client (.created sampleSession ⟨⟨11#128⟩⟩ sampleTurn "/workspace" [] (some sampleLease) 1),
    .server (.called sampleSession (some (some sampleTurn))), .interrupt sampleSession, .server .fetched,
    .server .received, .server (.signalled ⟨⟨12#128⟩⟩ sampleLease 2)]

abbrev interruptedAt (k : Nat) : Cli plain :=
  stateAt (Cli.step (.run "prompt" none)) (Cli.new plain fun _ => none) interruptedRun k

theorem interruptedRun_exclusive (k : Nat) (bound : k < interruptedRun.length) :
    (interruptedAt k).Exclusive interruptedRun[k] := by
  have fetching : (interruptedAt 6).cancelling.stage = .fetching sampleSession ∧
      activeTurn (interruptedAt 6).cancelling.db sampleSession = some sampleTurn ∧
      (interruptedAt 6).own = some (sampleSession, sampleTurn) := by decide +kernel
  have signalled : (interruptedAt 8).cancelling.stage = .checked sampleSession sampleTurn 1 1 ∧
      (interruptedAt 8).cancelling.active sampleSession = some (some sampleTurn) := by decide +kernel
  match k, bound with
  | 0, _ | 1, _ | 2, _ | 3, _ | 4, _ | 5, _ | 7, _ => exact trivial
  | 6, _ =>
      intro sessionId stage turnId member
      rw [fetching.1] at stage
      cases stage
      rw [fetching.2.1] at member
      cases member
      exact fetching.2.2
  | 8, _ =>
      intro sessionId turnId sessionRevision turnRevision stage called held
      rw [signalled.1] at stage
      cases stage
      rw [signalled.2] at held
      cases held
      rfl

/-- The terminal shows a running turn. -/
def watchingTui : Tui.SessionUiModel :=
  { Tui.SessionUiModel.default with
    connection := .connected
    sessions := [{ Tui.shownSession .running [] with latestTurnId := some sampleTurn, activeTurnId := some sampleTurn }] }

/-- The shown turn is running and its call in flight when the key is pressed. -/
def shownCancel : List ServerEvent :=
  [.called sampleSession (some (some sampleTurn)), .fetched, .received, .signalled ⟨⟨14#128⟩⟩ sampleLease 4]

abbrev shownCancelAt (k : Nat) : Cancelling plain :=
  stateAt (Cancelling.step activeRevision) (pressed plain (runOf plain (sampleRun [])) (fun _ => none) sampleSession)
    shownCancel k

theorem shownCancel_exclusive (k : Nat) (bound : k < shownCancel.length) :
    (shownCancelAt k).Exclusive (fun hit => shownActive watchingTui = some hit.2) shownCancel[k] := by
  have fetching : activeTurn (shownCancelAt 1).db sampleSession = some sampleTurn ∧
      (shownCancelAt 1).stage = .fetching sampleSession := by decide +kernel
  have signalled : (shownCancelAt 3).stage = .checked sampleSession sampleTurn 1 1 ∧
      (shownCancelAt 3).active sampleSession = some (some sampleTurn) := by decide +kernel
  match k, bound with
  | 0, _ | 2, _ => exact trivial
  | 1, _ =>
      intro sessionId stage turnId member
      rw [fetching.2] at stage
      cases stage
      rw [fetching.1] at member
      cases member
      rfl
  | 3, _ =>
      intro sessionId turnId sessionRevision turnRevision stage called held
      rw [signalled.1] at stage
      cases stage
      rw [signalled.2] at held
      cases held
      rfl

theorem interrupt_spares_own :
    ((interruptedAt 9).cancelling.hits = [(sampleSession, sampleTurn)] ∧
      ∀ hit ∈ (interruptedAt 9).cancelling.hits, (interruptedAt 9).own = some hit) ∧
    (shownCancelAt 4).hits = [(sampleSession, sampleTurn)] ∧ ∀ hit ∈ (shownCancelAt 4).hits,
      ∃ session, watchingTui.selectedSession = some session ∧ session.sessionId = hit.1 ∧
        session.activeTurnId = some hit.2 := by
  refine ⟨⟨by decide +kernel, ?_⟩, by decide +kernel, ?_⟩
  · exact (interrupt_spares plain fun _ => none).1 (.run "prompt" none) interruptedRun interruptedRun_exclusive 9 (by decide)
  · exact (interrupt_spares plain fun _ => none).2 (sampleRun []) watchingTui 0 sampleSession shownCancel (by decide)
      shownCancel_exclusive 4 (by decide)

/-- A `resume` is interrupted while it reads a session in which another client's turn is running. -/
def unsentResume : List CliEvent :=
  [.server (.store (.acquireLease (sessionLeaseScope sampleSession) "engine" none 0 100)),
    .server (.store (.createSession sampleCreate (some sampleLease) 1)),
    .server (.called sampleSession (some (some sampleTurn))), .client .resolved, .interrupt sampleSession,
    .server .fetched, .server .received, .server (.signalled ⟨⟨12#128⟩⟩ sampleLease 2)]

/-- The shown turn completes after its fences were checked, and the queue starts the next one before the signal. -/
def overtakenCancel : List ServerEvent :=
  [.called sampleSession (some (some sampleTurn)), .fetched, .received,
    .store (.commit (sampleRequest 12 1 1 (.complete "done" ⟨"done", [], []⟩)) sampleLease 2),
    .store (.acquireLease (sessionLeaseScope sampleSession) "engine" none 2 100),
    .store (.createFollowUp ⟨some ⟨⟨13#128⟩⟩, sampleSession, laterTurn, 2, "again", []⟩ (some laterLease) 3),
    .called sampleSession (some (some laterTurn)), .signalled ⟨⟨14#128⟩⟩ sampleLease 4]

theorem interrupt_hits_others :
    (¬ ∀ (E : Environment) (command : Command) (active : SessionId → Option (Option TurnId)) (events : List CliEvent) (k : Nat),
      k ≤ events.length → ∀ hit ∈ (stateAt (Cli.step command) (Cli.new E active) events k).cancelling.hits,
        (stateAt (Cli.step command) (Cli.new E active) events k).own = some hit) ∧
    (¬ ∀ (E : Environment) (ops : List Operation) (active : SessionId → Option (Option TurnId)) (model : Tui.SessionUiModel)
        (now : Nat) (sessionId : SessionId) (events : List ServerEvent),
      Tui.SessionUiAction.cancel sessionId ∈ (model.reduceInterrupt now).2 → ∀ k, k ≤ events.length → ∀ hit ∈
        (stateAt (Cancelling.step activeRevision) (pressed E (runOf E ops) active sessionId) events k).hits,
        ∃ session, model.selectedSession = some session ∧ session.sessionId = hit.1 ∧
          session.activeTurnId = some hit.2) := by
  constructor
  · intro claim
    have unsent : (stateAt (Cli.step (.resume (.ok sampleSession) "again")) (Cli.new plain fun _ => none) unsentResume 8).own =
        none := by decide +kernel
    have hit : (sampleSession, sampleTurn) ∈ (stateAt (Cli.step (.resume (.ok sampleSession) "again"))
        (Cli.new plain fun _ => none) unsentResume 8).cancelling.hits := by decide +kernel
    have own := claim plain (.resume (.ok sampleSession) "again") (fun _ => none) unsentResume 8 (by decide) _ hit
    rw [unsent] at own
    cases own
  · intro claim
    have hit : (sampleSession, laterTurn) ∈ (stateAt (Cancelling.step activeRevision)
        (pressed plain (runOf plain (sampleRun [])) (fun _ => none) sampleSession) overtakenCancel 8).hits := by decide +kernel
    obtain ⟨session, selected, _, shown⟩ := claim plain (sampleRun []) (fun _ => none) watchingTui 0 sampleSession
      overtakenCancel (by decide) 8 (by decide) _ hit
    cases selected
    cases shown

end LatteCode.Client
