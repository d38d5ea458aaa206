import LatteCode.Storage.System
/- `run` and `resume`: a client submits one turn and observes its session, among the other users of the store. -/

namespace LatteCode.Client
open Runs Storage

inductive TerminalOutcome where
  | completed
  | failed
  | denied
  | waiting
  | interrupted
  | reconciliationRequired
deriving DecidableEq, Repr

def TerminalOutcome.exitCode : TerminalOutcome → Nat
  | .completed => 0
  | .denied => 11
  | .failed | .reconciliationRequired => 1
  | .waiting => 10
  | .interrupted => 130

/-- `max_by_key(ordinal)`: the last of the greatest. -/
def newer (best : Option SessionTurnSummary) (turn : SessionTurnSummary) : Option SessionTurnSummary :=
  match best with
  | some held => if held.ordinal ≤ turn.ordinal then some turn else some held
  | none => some turn

def latestTurn (snapshot : SessionSnapshot) : Option SessionTurnSummary := snapshot.turns.foldl newer none

/-- `none` while the session is running. -/
def classify (snapshot : SessionSnapshot) : Option TerminalOutcome :=
  match snapshot.lifecycle with
  | .running => none
  | .waitingPermission | .waitingInput => some .waiting
  | .interrupted => some .interrupted
  | .reconciliationRequired => some .reconciliationRequired
  | .failed => some .failed
  | .ready =>
      match latestTurn snapshot with
      | some turn =>
          match turn.status with
          | .completed => some .completed
          | .failed => if turn.failureCode = some .permissionDenied then some .denied else some .failed
          | _ => some .failed
      | none => some .failed

inductive ClientError where
  | unreachable (message : String)
  | usage (message : String)
  | notFound (message : String)
  | unauthorized (message : String)
  | conflict (message : String)
  | internal (message : String)
  | failed (message : String)
deriving DecidableEq, Repr

inductive TurnResult where
  | terminal (snapshot : SessionSnapshot) (outcome : TerminalOutcome)
  | cancelled (snapshot : Option SessionSnapshot)
deriving DecidableEq

inductive StreamEvent where
  | sessionChanged (sessionId : String) (revision : Nat)
  | progress (sessionId turnId : String)
  | resyncRequired

inductive Command where
  | run (prompt : String) (focus : Option String)
  /-- `resume`, with the session id as it parses. -/
  | resume (sessionId : Except ClientError SessionId) (prompt : String)

/-- What `observe_session` awaits between two looks at the session. -/
inductive Await where
  | opening
  | streaming
  | sleeping

inductive Phase where
  | resolving
  | binding
  | creating (binding : SessionProviderBinding)
  | reading (sessionId : SessionId)
  | following (sessionId : SessionId) (expected : Nat)
  /-- `check_terminal`, and what comes after a session that still runs. -/
  | checking (sessionId : SessionId) (next : Await)
  | awaiting (sessionId : SessionId) (await : Await)
  | returned (result : Except ClientError TurnResult)

/-- What an await of the client is answered with. -/
inductive Input where
  | failed (error : ClientError)
  | cancelled (snapshot : Option SessionSnapshot)
  | resolved
  | bound (binding : SessionProviderBinding)
  /-- The server accepts the create, with the ids that the client has minted. -/
  | created (sessionId : SessionId) (commandId : SessionCommandId) (turnId : TurnId) (workspaceRoot : String)
      (baseline : List (String × String)) (lease : Option Lease) (now : Nat)
  | followed (commandId : SessionCommandId) (turnId : TurnId) (baseline : List (String × String)) (lease : Option Lease)
      (now : Nat)
  /-- The server answers with the snapshot of this moment. -/
  | shown
  | opened
  | slept
  | streamed (event : Option StreamEvent)

inductive Event where
  /-- Any call of the store by the server, for this session or another one. -/
  | store (op : Operation)
  | client (input : Input)

/-- The store, the client, and the turn that its call was accepted for, which the client itself does not remember. -/
structure World (E : Environment) where
  db : E.Db
  phase : Phase
  own : Option (SessionId × TurnId)

section Steps

variable {E : Environment} (world : World E)

def World.goto (phase : Phase) : World E := { world with phase := phase }

/-- `server.snapshot`. -/
def World.snapshot (sessionId : SessionId) : Except StorageError SessionSnapshot :=
  currentSessionSnapshot E world.db sessionId SESSION_PROJECTION_TRANSCRIPT_LIMIT

def createOf (prompt : String) (focus : Option String) (binding : SessionProviderBinding) (sessionId : SessionId)
    (commandId : SessionCommandId) (turnId : TurnId) (workspaceRoot : String) (baseline : List (String × String)) :
    CreateSession :=
  ⟨some commandId, sessionId, turnId, binding, workspaceRoot, prompt, baseline, focus⟩

def followUpOf (prompt : String) (sessionId : SessionId) (expected : Nat) (commandId : SessionCommandId) (turnId : TurnId)
    (baseline : List (String × String)) : FollowUp :=
  ⟨some commandId, sessionId, turnId, expected, prompt, baseline⟩

/-- The accepted call: from here on the session is observed. -/
def World.accept (result : Except StorageError ((CreateOutcome × Option StoredSessionEvent) × E.Db)) (sessionId : SessionId)
    (turnId : TurnId) : World E :=
  match result with
  | .ok (_, db) => ⟨db, .checking sessionId .opening, some (sessionId, turnId)⟩
  | .error _ => world.goto (.returned (.error (.failed "cannot submit")))

/-- A look at the session: `classify` decides, whichever turn is the latest. -/
def World.check (sessionId : SessionId) (next : Await) : World E :=
  match world.snapshot sessionId with
  | .error _ => world.goto (.returned (.error (.notFound "session not found")))
  | .ok snapshot =>
      match classify snapshot with
      | some outcome => world.goto (.returned (.ok (.terminal snapshot outcome)))
      | none => world.goto (.awaiting sessionId next)

/-- After a look, the connection, an event or the end of the stream. -/
def World.observe (sessionId : SessionId) : Await → Input → World E
  | .opening, .opened => world.goto (.checking sessionId .streaming)
  | .sleeping, .slept => world.goto (.awaiting sessionId .opening)
  | .streaming, .streamed none => world.goto (.checking sessionId .sleeping)
  | .streaming, .streamed (some (.sessionChanged ..)) | .streaming, .streamed (some .resyncRequired) =>
      world.goto (.checking sessionId .streaming)
  | _, _ => world

def World.submit (command : Command) : Phase → Input → World E
  | .resolving, .resolved =>
      match command with
      | .run .. => world.goto .binding
      | .resume (.ok sessionId) _ => world.goto (.reading sessionId)
      | .resume (.error error) _ => world.goto (.returned (.error error))
  | .binding, .bound binding => world.goto (.creating binding)
  | .creating binding, .created sessionId commandId turnId workspaceRoot baseline lease now =>
      match command with
      | .run prompt focus =>
          if world.db.sessionCommandDedup.get? commandId = none then
            world.accept (createSessionV2Inner E world.db
              (createOf prompt focus binding sessionId commandId turnId workspaceRoot baseline) lease now) sessionId turnId
          else world
      | .resume .. => world
  | .reading sessionId, .shown =>
      match world.snapshot sessionId with
      | .error _ => world.goto (.returned (.error (.notFound "session not found")))
      | .ok snapshot => world.goto (.following sessionId snapshot.revision)
  | .following sessionId expected, .followed commandId turnId baseline lease now =>
      match command with
      | .resume _ prompt =>
          if world.db.sessionCommandDedup.get? commandId = none then
            world.accept (createSessionFollowUpV2Inner E world.db
              (followUpOf prompt sessionId expected commandId turnId baseline) lease now) sessionId turnId
          else world
      | .run .. => world
  | .checking sessionId next, .shown => world.check sessionId next
  | .awaiting sessionId await, input => world.observe sessionId await input
  | _, _ => world

def World.step (command : Command) (world : World E) : Event → World E
  | .store op => { world with db := Storage.step E world.db op }
  | .client input =>
      match world.phase, input with
      | .returned _, _ => world
      | _, .failed error => world.goto (.returned (.error error))
      | _, .cancelled snapshot => world.goto (.returned (.ok (.cancelled snapshot)))
      | phase, input => world.submit command phase input

end Steps

variable (E : Environment)

def World.new : World E := ⟨Database.empty _, .resolving, none⟩

/-- The world after the first `k` events. -/
def World.after (command : Command) (events : List Event) (k : Nat) : World E :=
  stateAt (World.step command) (World.new E) events k

end LatteCode.Client
