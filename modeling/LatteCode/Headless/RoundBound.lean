import LatteCode.Headless.Response
import LatteCode.Headless.Batch
import LatteCode.Storage.ToolRounds
/- The bound on the tool rounds of a turn, however often its provider loop is left and entered again. -/

namespace LatteCode.Headless
open Keyed Outcome Relation Runs Storage

/-! ## What `run_provider_step` makes of an answer -/

structure StepContext where
  turnId : TurnId
  maxToolRounds : Option Nat
  /-- The persisted counter, read before the request. -/
  round : Nat
  overflowRetried : Bool
  knownTools : List String

inductive Decision where
  | interrupt
  /-- A forced compaction, then the next request. -/
  | shrink
  | fail (retryability : Retryability) (message : String)
  /-- The partial text is kept, and the turn fails. -/
  | cut (message : Option String) (suffix value reason : String)
  | requestInput (request : PendingInput)
  | openRound (message : Option String) (first : ToolCall) (later : List ToolCall)
  | outcome (message : String)

/-- A text that is not blank. -/
def spoken (message : Option String) : Option String := message.filter fun value => !(trim value).isEmpty

/-- The finishes that leave a response incomplete, with the key suffix, the payload value and the failure. -/
def cutFinish : Option FinishReason → Option (String × String × String)
  | some .length =>
      some ("truncated", "length", "provider stopped at its output limit before completing the response")
  | some .contentFilter => some ("filtered", "content_filter",
      "provider blocked the response before it completed: content was filtered")
  | _ => none

/-- The check of `handle_provider_tool_round`, over the ids it has already seen. -/
def refusesCalls (knownTools : List String) : List String → List ToolCall → Bool
  | _, [] => false
  | ids, call :: rest =>
      !validToolCallId call.id || ids.contains call.id || !knownTools.contains call.name ||
        (match call.input with
          | .object _ => false
          | _ => true) ||
        refusesCalls knownTools (call.id :: ids) rest

def decideResponse (context : StepContext) (response : ProviderResponse) : Decision :=
  match cutFinish response.finishReason with
  | some (suffix, value, reason) => .cut (spoken response.message) suffix value reason
  | none =>
      match response.inputRequest with
      | some input =>
          if input.secret || !validToolCallId input.id || (trim input.prompt).isEmpty then
            .fail .terminal "provider requested unsupported secret or invalid input"
          else .requestInput ⟨input.id, input.prompt⟩
      | none =>
          match response.toolCalls with
          | first :: later =>
              match context.maxToolRounds.filter fun max => max ≤ context.round with
              | some max => .fail .retryable ("turn stopped after " ++ toString max ++
                  " tool rounds without completing;                              " ++
                  "raise or remove session.max_tool_rounds, or narrow the task")
              | none =>
                  if refusesCalls context.knownTools [] (first :: later) then
                    .fail .terminal ("provider tool call ids must match [A-Za-z0-9_-]\x7b1,256\x7d, be unique, " ++
                      "known, and object-shaped")
                  else .openRound response.message first later
          | [] =>
              match spoken response.message with
              | none => .fail .terminal "provider returned an empty assistant outcome"
              | some message => .outcome message

def decideStep (context : StepContext) : Except ProviderError ProviderResponse → Decision
  | .error .cancelled => .interrupt
  | .error error@(.contextOverflow _) =>
      if context.overflowRetried then .fail .retryable ("provider: " ++ error.toString) else .shrink
  | .error error@(.http status _ _) =>
      .fail (if status = 401 ∨ status = 403 then .terminal else .retryable) ("provider: " ++ error.toString)
  | .error error => .fail .retryable ("provider: " ++ error.toString)
  | .ok response => decideResponse context response

section Updates

variable (E : Redactor) (turnId : TurnId)

/-- `fail_with_retryability`. -/
def failUpdate (retryability : Retryability) (message : String) : CommitSessionTurnUpdate :=
  .fail (turnId.toString ++ ":failure") ⟨.runtimeFailed, E.redactSessionText message, retryability⟩

/-- The first commit of a step that ends so. -/
def Decision.update : Decision → Option CommitSessionTurnUpdate
  | interrupt => some (.interrupt (turnId.toString ++ ":provider-cancel") none)
  | shrink => none
  | fail retryability message => some (failUpdate E turnId retryability message)
  | cut none _ _ reason => some (failUpdate E turnId .retryable reason)
  | cut (some text) suffix value _ => some (.appendTranscript (turnId.toString ++ ":assistant-" ++ suffix) .assistant
      text (some (.ofMembers [(suffix, .string value)])))
  | requestInput request =>
      some (.requestInput (turnId.toString ++ ":input-request:" ++ request.requestId) request)
  | openRound message first later => some (.appendTranscript (roundKey turnId first.id) .assistant (message.getD "")
      (some (.ofMembers [("tool_calls", toolCallsValue (first :: later))])))
  | outcome message => some (.appendTranscript (turnId.toString ++ ":assistant-final") .assistant message none)

end Updates

/-- Without calls, the bound and the counter decide nothing. -/
theorem decideStep_unbounded (context : StepContext) (response : ProviderResponse) (silent : response.toolCalls = []) :
    decideStep context (.ok response) = decideStep { context with maxToolRounds := none, round := 0 } (.ok response) := by
  simp only [decideStep, decideResponse, silent]

/-- A payload of one text declares no calls. -/
theorem text_declares_none (E : Redactor) (sourceKey text member value : String) :
    declaresCalls E (.appendTranscript sourceKey .assistant text (some (.ofMembers [(member, .string value)]))) =
      false := by
  have shown : ∃ key shown, E.redactSessionValue (.ofMembers [(member, .string value)]) =
      .object (.cons key (.string shown) .nil) := by
    change ∃ key shown, Json.object (.cons (E.redactSessionText member)
      (if secretKey member then .string "[REDACTED]" else .string (E.redactSessionText value)) .nil) = _
    split <;> exact ⟨_, _, rfl⟩
  obtain ⟨key, shown, same⟩ := shown
  simp only [declaresCalls, Option.map_some, Option.bind_some, same, Json.get?, Fields.get?]
  split <;> rfl

/-- Only a decision to open a round declares calls. -/
theorem update_declares {E : Redactor} {turnId : TurnId} {decision : Decision} {update : CommitSessionTurnUpdate}
    (first : decision.update E turnId = some update) (declares : declaresCalls E update = true) :
    ∃ message call later, decision = .openRound message call later := by
  cases decision with
  | openRound message call later => exact ⟨message, call, later, rfl⟩
  | shrink => cases first
  | cut message suffix value reason =>
      cases message with
      | none =>
          cases first
          cases declares
      | some text =>
          cases first
          rw [text_declares_none] at declares
          cases declares
  | interrupt | fail | requestInput | outcome =>
      cases first
      cases declares

/-- A round is opened only below the bound. -/
theorem decideStep_opens {context : StepContext} {output : Except ProviderError ProviderResponse}
    {message : Option String} {first : ToolCall} {later : List ToolCall}
    (opens : decideStep context output = .openRound message first later) :
    ∀ m, context.maxToolRounds = some m → context.round < m := by
  intro m bounded
  by_contra reached
  rw [Nat.not_lt] at reached
  cases output with
  | error error =>
      cases error with
      | contextOverflow requestId =>
          simp only [decideStep] at opens
          split at opens <;> cases opens
      | cancelled | capability | http | timeout | transport | malformed => cases opens
  | ok response =>
      simp only [decideStep, decideResponse, bounded, Option.filter_some, decide_eq_true reached, if_true] at opens
      split at opens
      · cases opens
      · split at opens
        · split at opens <;> cases opens
        · split at opens
          · cases opens
          · split at opens <;> cases opens

/-! ## The loop among everything else that reaches the store -/

/-- The snapshot that an iteration of `run_provider_turn` starts from. -/
structure LoopView where
  sessionId : SessionId
  turnId : TurnId
  revision : Nat
  turnRevision : Nat
  overflowRetried : Bool

/-- An iteration of the loop in some process: its snapshot, and the counter once it is read. -/
structure Iteration where
  view : LoopView
  round : Option Nat

structure ToolLoop (E : Environment) where
  db : E.Db
  iterations : Nat → Option Iteration

/-- An append under the assistant's name: only `run_provider_step` makes one. -/
def appendsAssistant : Operation → Bool
  | .commit request _ _ =>
      match request.update with
      | .appendTranscript _ .assistant _ _ => true
      | _ => false
  | _ => false

inductive LoopEvent where
  /-- Any other call: of the runner, of a request handler, of another process, of startup. -/
  | store (op : Operation)
  /-- An iteration begins, in a new turn, after a batch, a compaction, an answer, an approval or a restart. -/
  | enter (runner : Nat) (view : LoopView)
  /-- `persisted_tool_rounds`. -/
  | count (runner : Nat)
  /-- The provider answers, and the first commit of the step is made. -/
  | answer (runner : Nat) (output : Except ProviderError ProviderResponse) (commandId : SessionCommandId)
      (lease : Lease) (now : Nat)
  | stop (runner : Nat)

namespace ToolLoop

variable {E : Environment} (limits : TurnId → Option Nat) (knownTools : List String)

def setIteration (self : ToolLoop E) (runner : Nat) (iteration : Option Iteration) : ToolLoop E :=
  { self with iterations := fun other => if other = runner then iteration else self.iterations other }

/-- A snapshot names a turn of its session, and was taken at a revision that the session has reached. -/
def shows (db : E.Db) (view : LoopView) : Bool :=
  db.sessions.holds view.sessionId (fun session => view.revision ≤ session.revision) &&
    db.sessionTurns.holds view.turnId fun link => link.sessionId = view.sessionId

def contextOf (view : LoopView) (round : Nat) : StepContext where
  turnId := view.turnId
  maxToolRounds := limits view.turnId
  round := round
  overflowRetried := view.overflowRetried
  knownTools := knownTools

/-- The commit of an iteration, if its decision makes one. -/
def answerOperation (E : Environment) (view : LoopView) (round : Nat)
    (output : Except ProviderError ProviderResponse) (commandId : SessionCommandId) (lease : Lease) (now : Nat) :
    Option Operation :=
  ((decideStep (contextOf limits knownTools view round) output).update E.toRedactor view.turnId).map fun update =>
    .commit ⟨view.sessionId, view.turnId, view.revision, view.turnRevision, commandId, none, none, update⟩ lease now

/-- The call of the store that an event makes. -/
def operation (self : ToolLoop E) : LoopEvent → Option Operation
  | .store op => if appendsAssistant op then none else some op
  | .answer runner output commandId lease now =>
      (self.iterations runner).bind fun iteration => iteration.round.bind fun round =>
        answerOperation limits knownTools E iteration.view round output commandId lease now
  | _ => none

def turnOver (self : ToolLoop E) : LoopEvent → ToolLoop E
  | .store _ => self
  | .enter runner view => if shows self.db view then self.setIteration runner (some ⟨view, none⟩) else self
  | .count runner =>
      match self.iterations runner with
      | some iteration => self.setIteration runner
          (some { iteration with round := some (toolRounds self.db.sessionTurns iteration.view.turnId) })
      | none => self
  | .answer runner _ _ _ _ | .stop runner => self.setIteration runner none

def step (self : ToolLoop E) (event : LoopEvent) : ToolLoop E :=
  { self.turnOver event with
    db := match self.operation limits knownTools event with
      | some op => Storage.step E self.db op
      | none => self.db }

def initial (E : Environment) : ToolLoop E := ⟨Database.empty E.Digest, fun _ => none⟩

abbrev after (events : List LoopEvent) : ToolLoop E := run (step limits knownTools) (initial E) events

abbrev at_ (events : List LoopEvent) (k : Nat) : ToolLoop E := stateAt (step limits knownTools) (initial E) events k

/-- The round cards of a turn that a run commits. -/
def committedRounds (E : Environment) (events : List LoopEvent) (turnId : TurnId) : Nat :=
  ((List.range events.length).map fun k => openedRounds (at_ (E := E) limits knownTools events k).db
    (at_ (E := E) limits knownTools events (k + 1)).db turnId).sum

/-! ## No iteration counts too little -/

/-- The snapshot is of the turn's session, and unless the session has moved on, the counter is what was read. -/
structure Standing (db : E.Db) (iteration : Iteration) : Prop where
  home : ∃ key, (db.sessionTurns.get? iteration.view.turnId).map linkKey = some key ∧ key.1 = iteration.view.sessionId
  counted : ∃ session, db.sessions.get? iteration.view.sessionId = some session ∧
    iteration.view.revision ≤ session.revision ∧ ∀ round, iteration.round = some round →
      session.revision = iteration.view.revision → toolRounds db.sessionTurns iteration.view.turnId = round

theorem Standing.entered {db : E.Db} {view : LoopView} (shown : shows db view = true) : Standing db ⟨view, none⟩ := by
  rw [shows, Bool.and_eq_true, Table.holds_iff, Table.holds_iff] at shown
  obtain ⟨⟨session, found, reached⟩, link, linked, home⟩ := shown
  refine ⟨⟨linkKey link, by rw [linked, Option.map_some], of_decide_eq_true home⟩, session, found,
    of_decide_eq_true reached, ?_⟩
  intro round none
  cases none

theorem Standing.recounted {db : E.Db} {iteration : Iteration} (standing : Standing db iteration) :
    Standing db { iteration with round := some (toolRounds db.sessionTurns iteration.view.turnId) } := by
  obtain ⟨session, found, reached, _⟩ := standing.counted
  refine ⟨standing.home, session, found, reached, ?_⟩
  intro round same _
  exact Option.some.inj same

/-- A call that opens a round moves the session on. -/
theorem Standing.step {db : E.Db} (reachable : Reachable E db) (op : Operation) {iteration : Iteration}
    (standing : Standing db iteration) : Standing (Storage.step E db op) iteration := by
  obtain ⟨key, linked, home⟩ := standing.home
  obtain ⟨session, found, reached, counted⟩ := standing.counted
  refine ⟨⟨key, step_links_kept reachable op linked, home⟩, ?_⟩
  cases step_session reachable op iteration.view.sessionId with
  | absent before => cases before.symm.trans found
  | born _ done => cases done.before.symm.trans found
  | moved before after logged =>
      cases before.symm.trans found
      refine ⟨_, after, Nat.le_trans reached logged.raise, ?_⟩
      intro round read same
      have still : session.revision = iteration.view.revision :=
        Nat.le_antisymm (same ▸ logged.raise) reached
      cases step_round reachable op iteration.view.turnId with
      | quiet _ counter =>
          rw [counter]
          exact counted round read still
      | opened _ _ _ opener _ moved raised link here =>
          rw [link, Option.map_some, Option.some.injEq] at linked
          have own : iteration.view.sessionId = _ := home.symm.trans ((congrArg Prod.fst linked.symm).trans here)
          rw [← own] at opener moved
          cases opener.symm.trans found
          cases moved.symm.trans after
          omega

/-- What holds between any two events. -/
structure Sound (loop : ToolLoop E) : Prop where
  reachable : Reachable E loop.db
  standing : ∀ runner iteration, loop.iterations runner = some iteration → Standing loop.db iteration
  bounded : ∀ turnId m, limits turnId = some m → toolRounds loop.db.sessionTurns turnId ≤ m

variable {limits} {knownTools} {loop : ToolLoop E}

theorem declares_appends {E : Redactor} {request : SessionCommitRequest} {lease : Lease} {now : Nat}
    (declares : declaresCalls E request.update = true) : appendsAssistant (.commit request lease now) = true := by
  simp only [appendsAssistant]
  cases same : request.update with
  | appendTranscript sourceKey kind text payload =>
      rw [same] at declares
      cases kind with
      | assistant => rfl
      | _ => cases declares
  | _ =>
      rw [same] at declares
      cases declares

/-- The call of an event opens a round only below the bound. -/
theorem Sound.operation_bounded (sound : Sound limits loop) {event : LoopEvent} {op : Operation}
    (made : loop.operation limits knownTools event = some op) {turnId : TurnId} {m : Nat}
    (limited : limits turnId = some m) : toolRounds (Storage.step E loop.db op).sessionTurns turnId ≤ m := by
  cases step_round sound.reachable op turnId with
  | quiet _ counter =>
      rw [counter]
      exact sound.bounded turnId m limited
  | opened same owned declares found expected _ _ _ _ _ counter =>
      subst same owned
      rw [counter]
      cases event with
      | enter | count | stop => cases made
      | store op =>
          simp only [operation] at made
          split at made
          case isTrue => cases made
          case isFalse silent =>
            cases made
            exact absurd (declares_appends declares) silent
      | answer runner output commandId lease now =>
          simp only [operation, Option.bind_eq_some_iff] at made
          obtain ⟨iteration, running, round, read, answered⟩ := made
          rw [answerOperation, Option.map_eq_some_iff] at answered
          obtain ⟨update, first, same⟩ := answered
          cases same
          obtain ⟨message, call, later, opens⟩ := update_declares first declares
          have below := decideStep_opens opens m limited
          obtain ⟨session, held, _, counted⟩ := (sound.standing runner iteration running).counted
          cases held.symm.trans found
          rw [counted round read expected]
          exact below

theorem setIteration_standing {runner other : Nat} {next : Option Iteration} {iteration : Iteration}
    (sound : Sound limits loop) (fresh : ∀ iteration, next = some iteration → Standing loop.db iteration)
    (running : (loop.setIteration runner next).iterations other = some iteration) : Standing loop.db iteration := by
  simp only [setIteration] at running
  split at running
  · exact fresh iteration running
  · exact sound.standing other iteration running

theorem Sound.turnOver_standing (sound : Sound limits loop) {event : LoopEvent} {runner : Nat} {iteration : Iteration}
    (running : (loop.turnOver event).iterations runner = some iteration) : Standing loop.db iteration := by
  cases event with
  | store op => exact sound.standing runner iteration running
  | enter entering view =>
      simp only [turnOver] at running
      split at running
      case isTrue shown =>
        refine setIteration_standing sound ?_ running
        intro iteration same
        cases same
        exact .entered shown
      case isFalse => exact sound.standing runner iteration running
  | count reading =>
      simp only [turnOver] at running
      split at running
      case h_1 entered held =>
        refine setIteration_standing sound ?_ running
        intro iteration same
        cases same
        exact (sound.standing reading entered held).recounted
      case h_2 => exact sound.standing runner iteration running
  | answer | stop =>
      refine setIteration_standing sound ?_ running
      intro iteration none
      cases none

theorem Sound.step (sound : Sound limits loop) (event : LoopEvent) :
    Sound limits (loop.step limits knownTools event) := by
  cases made : loop.operation limits knownTools event with
  | none =>
      have same : (loop.step limits knownTools event).db = loop.db := by simp only [ToolLoop.step, made]
      refine ⟨same ▸ sound.reachable, ?_, same ▸ sound.bounded⟩
      intro runner iteration running
      rw [same]
      exact sound.turnOver_standing running
  | some op =>
      have same : (loop.step limits knownTools event).db = Storage.step E loop.db op := by simp only [ToolLoop.step, made]
      refine ⟨same ▸ sound.reachable.step op, ?_, ?_⟩
      · intro runner iteration running
        rw [same]
        exact (sound.turnOver_standing running).step sound.reachable op
      · intro turnId m limited
        rw [same]
        exact sound.operation_bounded made limited

theorem sound_after (limits : TurnId → Option Nat) (knownTools : List String) (events : List LoopEvent) :
    Sound limits (after (E := E) limits knownTools events) := by
  refine Runs.invariant ⟨.refl, ?_, ?_⟩ (fun _ event sound => sound.step event) events
  · intro runner iteration none
    cases none
  · intro turnId m _
    exact Nat.zero_le m

/-! ## The counter is the number of committed rounds -/

theorem step_counts (loop : ToolLoop E) (reachable : Reachable E loop.db) (event : LoopEvent) (turnId : TurnId) :
    toolRounds (loop.step limits knownTools event).db.sessionTurns turnId = toolRounds loop.db.sessionTurns turnId +
      openedRounds loop.db (loop.step limits knownTools event).db turnId := by
  simp only [ToolLoop.step]
  cases loop.operation limits knownTools event with
  | none => 
      rw [(RoundsGrown.same rfl rfl).opened]
      rfl
  | some op =>
      cases step_round reachable op turnId with
      | quiet opened counter => rw [opened, counter, Nat.add_zero]
      | opened _ _ _ _ _ _ _ _ _ opened counter => rw [opened, counter]

/-- The persisted counter of a turn is the number of its round cards. -/
theorem counter_committed (limits : TurnId → Option Nat) (knownTools : List String) (events : List LoopEvent)
    (turnId : TurnId) : toolRounds (after (E := E) limits knownTools events).db.sessionTurns turnId =
      committedRounds limits knownTools E events turnId := by
  have counted : ∀ k, k ≤ events.length → toolRounds (at_ (E := E) limits knownTools events k).db.sessionTurns turnId =
      ((List.range k).map fun j => openedRounds (at_ (E := E) limits knownTools events j).db
        (at_ (E := E) limits knownTools events (j + 1)).db turnId).sum := by
    intro k
    induction k with
    | zero =>
        intro _
        rw [at_, stateAt_zero]
        rfl
    | succ k ih =>
        intro bound
        rw [List.range_succ, List.map_append, List.sum_append, ← ih (Nat.le_of_succ_le bound), List.map_singleton,
          List.sum_singleton, at_, at_, stateAt_succ bound]
        exact step_counts _ (sound_after limits knownTools (events.take k)).reachable _ turnId
  rw [committedRounds, ← counted events.length (Nat.le_refl _), at_, stateAt_length]

/-- In every run, the bound of a turn holds, its counter is the number of its round cards, and an answer without
calls is taken as if there were no bound. -/
theorem tool_rounds_bounded (E : Environment) (limits : TurnId → Option Nat) (knownTools : List String)
    (events : List LoopEvent) (turnId : TurnId) :
    (∀ m, limits turnId = some m → committedRounds limits knownTools E events turnId ≤ m) ∧
    (∀ link, (after (E := E) limits knownTools events).db.sessionTurns.get? turnId = some link →
      link.toolRoundCount = committedRounds limits knownTools E events turnId) ∧
    ∀ context response, response.toolCalls = [] → decideStep context (.ok response) =
      decideStep { context with maxToolRounds := none, round := 0 } (.ok response) := by
  refine ⟨?_, ?_, decideStep_unbounded⟩
  · intro m limited
    rw [← counter_committed]
    exact (sound_after limits knownTools events).bounded turnId m limited
  · intro link linked
    rw [← counter_committed, toolRounds, linked]
    rfl

/-- Two answers that both call a tool, in a turn that allows one round. -/
def twiceRun : List LoopEvent :=
  let response : ProviderResponse := ⟨none, [⟨"call_1", "ls", .object .nil⟩], none, ⟨none, none, none, none⟩, none, none⟩
  [.store (.acquireLease (sessionLeaseScope sampleSession) "engine" none 0 100),
    .store (.createSession sampleCreate (some sampleLease) 1),
    .enter 0 ⟨sampleSession, sampleTurn, 1, 1, false⟩,
    .count 0,
    .answer 0 (.ok response) ⟨⟨1#128⟩⟩ sampleLease 2,
    .enter 0 ⟨sampleSession, sampleTurn, 2, 1, false⟩,
    .count 0,
    .answer 0 (.ok response) ⟨⟨2#128⟩⟩ sampleLease 3]

theorem tool_rounds_bounded_twice :
    committedRounds (fun _ => some 1) ["ls"] plain twiceRun sampleTurn = 1 ∧
    committedRounds (fun _ => some 1) ["ls"] plain twiceRun sampleTurn ≤ 1 ∧
    ∃ link, (after (E := plain) (fun _ => some 1) ["ls"] twiceRun).db.sessionTurns.get? sampleTurn = some link ∧
      link.toolRoundCount = committedRounds (fun _ => some 1) ["ls"] plain twiceRun sampleTurn := by
  obtain ⟨bounded, counted, _⟩ := tool_rounds_bounded plain (fun _ => some 1) ["ls"] twiceRun sampleTurn
  have present : ((after (E := plain) (fun _ => some 1) ["ls"] twiceRun).db.sessionTurns.get? sampleTurn).isSome =
      true := by decide +kernel
  obtain ⟨link, linked⟩ := Option.isSome_iff_exists.mp present
  exact ⟨by decide +kernel, bounded 1 rfl, link, linked, counted link linked⟩

end ToolLoop

end LatteCode.Headless
