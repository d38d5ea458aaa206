import LatteCode.Tui.Settled
/- The terminal loop: what polls, feedback and keys make it do, and how it carries out the actions of the reducer. -/

namespace LatteCode.Tui
open Runs Outcome

/-! ## What the loop talks to -/

/-- The projection client and the action sink; every call may change what stands behind them. -/
structure SessionProjectionClient (σ : Type) where
  session : SessionId → σ → Except String SessionSnapshot × σ
  snapshots : σ → Except String (List SessionSnapshot) × σ
  sessionCatalog : σ → Except String (List SessionSummary) × σ
  exactSession : String → σ → Except String (Option SessionSnapshot) × σ
  exactSessionCatalog : String → σ → Except String (List SessionSummary) × σ
  searchSessionCatalog : String → σ → Except String (List SessionSummary) × σ
  contextUsage : SessionId → σ → Bool × σ
  sink : SessionUiAction → σ → Except String Unit × σ

inductive SessionProjectionPoll where
  | event
  | lagged (missed : Nat)
  | closed
  | error (error : String)
  | empty
deriving DecidableEq, Repr

inductive SessionManagementOutcome where
  | updated (message : String)
  | forked (sessionId : SessionId)
deriving DecidableEq, Repr

inductive SessionUiFeedback where
  | submissionAssigned (submissionId : Nat) (sessionId : SessionId)
  | submissionResult (submissionId : Nat) (accepted : Bool)
  | inputSubmissionResult (submissionId : Nat) (accepted : Bool)
  | modelSwitchResult (switchId : Nat) (refused : Option String)
  | command (result : Except String String)
  | sessionManagement (result : Except String SessionManagementOutcome)

/-- The loop and the state behind its client. -/
structure Terminal (σ : Type) where
  model : SessionUiModel
  client : σ

/-- How the loop ends. -/
inductive Stop where
  | quit
  | action (error : String)
  /-- Not reached: see `carryOut_enough`. -/
  | depth
deriving DecidableEq, Repr

section Actions

variable {σ : Type} (E : TuiEnvironment) (client : SessionProjectionClient σ)

/-- A projection call; its failure ends the loop. -/
def Terminal.fetch {α : Type} (terminal : Terminal σ) (call : σ → Except String α × σ) : Except Stop (α × Terminal σ) :=
  match (call terminal.client).1 with
  | .ok value => .ok (value, { terminal with client := (call terminal.client).2 })
  | .error error => .error (.action error)

def Terminal.feed (terminal : Terminal σ) (input : SessionUiInput) : Terminal σ × List SessionUiAction :=
  ({ terminal with model := (reduce E terminal.model input).1 }, (reduce E terminal.model input).2)

/-- `reduce_session_opened`: the usage meter is read after the session is shown. -/
def Terminal.openSession (terminal : Terminal σ) (snapshot : SessionSnapshot) : Terminal σ × List SessionUiAction :=
  let opened := terminal.feed E (.sessionOpened snapshot)
  let usage := client.contextUsage snapshot.sessionId opened.1.client
  let metered := { opened.1 with client := usage.2 }
  if usage.1 then ((metered.feed E (.contextUsage snapshot.sessionId)).1, opened.2) else (metered, opened.2)

/-- A refresh reads what the active conversation calls for. -/
def Terminal.refresh (terminal : Terminal σ) : Except Stop (Terminal σ × List SessionUiAction) :=
  match terminal.model.activeConversation, terminal.model.pendingSubmission with
  | some (.session sessionId), _ => do
      let (snapshot, terminal) ← terminal.fetch (client.session sessionId)
      return terminal.openSession E client snapshot
  | some .newSessionDraft, none => do
      let (sessions, terminal) ← terminal.fetch client.sessionCatalog
      return terminal.feed E (.sessionCatalog sessions)
  | some .newSessionDraft, some _ | none, _ => do
      let (snapshots, terminal) ← terminal.fetch client.snapshots
      return terminal.feed E (.snapshot snapshots)

/-- Where the loop carries an action out, and what it has to do next. -/
def Terminal.perform (terminal : Terminal σ) : SessionUiAction → Except Stop (Terminal σ × List SessionUiAction)
  | .quit => .error .quit
  | .showSessions none => do
      let (sessions, terminal) ← terminal.fetch client.sessionCatalog
      return terminal.feed E (.sessionCatalogReady sessions none)
  | .showSessions (some query) => do
      let (found, terminal) ← terminal.fetch (client.exactSession query)
      match found with
      | some snapshot => return terminal.openSession E client snapshot
      | none =>
          let (sessions, terminal) ← terminal.fetch (client.exactSessionCatalog query)
          return terminal.feed E (.sessionCatalogReady sessions (some query))
  | .searchSessions query => do
      let (sessions, terminal) ← terminal.fetch (client.searchSessionCatalog query)
      return terminal.feed E (.sessionCatalogReady sessions (if query = "" then none else some query))
  | .openSession sessionId =>
      match (client.session sessionId terminal.client).1 with
      | .ok snapshot =>
          .ok (({ terminal with client := (client.session sessionId terminal.client).2 }).openSession E client snapshot)
      | .error error =>
          .ok ((({ terminal with client := (client.session sessionId terminal.client).2 }).feed E (.commandError error)).1, [])
  | .refreshSnapshots => terminal.refresh E client
  | action => do
      let (_, terminal) ← terminal.fetch (client.sink action)
      return (terminal, [])

/-- `apply_session_actions` on one action: what follows from it is carried out before the next. -/
def carryOut : Nat → Terminal σ → SessionUiAction → Except Stop (Terminal σ)
  | 0, _, _ => .error .depth
  | depth + 1, terminal, action => do
      let (terminal, next) ← terminal.perform E client action
      tryRun (carryOut depth) terminal next

/-- `apply_session_actions`. -/
def applySessionActions (terminal : Terminal σ) (actions : List SessionUiAction) : Except Stop (Terminal σ) :=
  tryRun (carryOut E client 3) terminal actions

end Actions

/-! ## Events -/

inductive LoopEvent where
  /-- The window of a second interrupt is over. -/
  | expire
  | frame
  | interrupted (now : Nat)
  | poll (poll : SessionProjectionPoll)
  | drain (feedback : List SessionUiFeedback) (progress : List SessionTransientProgress)
  | key (key : KeyEvent) (now : Nat)
  | mouse (kind : MouseEventKind)
  | resize (width height : Nat)
  | paste (value : String)

section Events

variable (E : TuiEnvironment) (model : SessionUiModel)

def reduceFeedback : SessionUiFeedback → Reduced
  | .submissionAssigned submissionId sessionId => reduce E model (.submissionAssigned submissionId sessionId)
  | .submissionResult submissionId true => reduce E model (.submissionCompleted submissionId)
  | .submissionResult submissionId false => reduce E model (.submissionError submissionId)
  | .inputSubmissionResult submissionId true => reduce E model (.inputSubmissionCompleted submissionId)
  | .inputSubmissionResult submissionId false => reduce E model (.inputSubmissionError submissionId)
  | .modelSwitchResult switchId none => reduce E model (.modelSwitchCompleted switchId)
  | .modelSwitchResult switchId (some error) => reduce E model (.modelSwitchError switchId error)
  | .command (.ok message) => reduce E model (.commandCompleted message)
  | .command (.error error) | .sessionManagement (.error error) => reduce E model (.commandError error)
  | .sessionManagement (.ok (.updated message)) =>
      let reduced := reduce E model (.commandCompleted message)
      (reduced.1, reduced.2 ++ [.refreshSnapshots])
  | .sessionManagement (.ok (.forked sessionId)) => (model, [.openSession sessionId])

/-- `drain_runtime_updates`: all feedback, then all progress. -/
def drainRuntimeUpdates (feedback : List SessionUiFeedback) (progress : List SessionTransientProgress) : Reduced :=
  let answered := feedback.foldl (fun (reduced : Reduced) result =>
    let next := reduceFeedback E reduced.1 result
    (next.1, reduced.2 ++ next.2)) (model, [])
  (progress.foldl (fun model update => reduceModel E model (.progress update)) answered.1, answered.2)

def pollActions : SessionProjectionPoll → Reduced
  | .event => (model, [.refreshSnapshots])
  | .lagged _ => reduce E model .lagged
  | .closed => if model.connection ≠ .disconnected then (reduceModel E model .disconnected, []) else (model, [])
  | .error error =>
      if model.status ≠ "Command rejected: " ++ error then (reduceModel E model (.commandError error), []) else (model, [])
  | .empty => (model, [])

/-- What an event makes of the model, and the actions that it hands to `apply_session_actions`. -/
def batch : LoopEvent → Reduced
  | .expire => ({ model with ctrlCExitArmedUntil := none }, [])
  | .frame => (reduceModel E model .frameRendered, [])
  | .interrupted now => reduce E model (.key ⟨.char 'c', .CONTROL, .press⟩ now)
  | .poll poll => pollActions E model poll
  | .drain feedback progress => drainRuntimeUpdates E model feedback progress
  | .key key now => reduce E model (.key key now)
  | .mouse kind => (reduceModel E model (.mouse kind), [])
  | .resize width height => (reduceModel E model (.resize width height), [])
  | .paste value => (reduceModel E model (.paste value), [])

end Events

section Loop

variable {σ : Type} (E : TuiEnvironment) (client : SessionProjectionClient σ)

def Terminal.step (terminal : Terminal σ) (event : LoopEvent) : Except Stop (Terminal σ) :=
  applySessionActions E client { terminal with model := (batch E terminal.model event).1 } (batch E terminal.model event).2

/-- The loop before its first event: the catalog is listed, and nothing follows from it. -/
def Terminal.begin (startup : SessionStartupPresentation) (world : σ) : Except Stop (Terminal σ) := do
  let (sessions, terminal) ← Terminal.fetch ⟨.withStartup startup, world⟩ client.sessionCatalog
  let (terminal, actions) := terminal.feed E (.sessionCatalog sessions)
  applySessionActions E client terminal actions

end Loop

end LatteCode.Tui
