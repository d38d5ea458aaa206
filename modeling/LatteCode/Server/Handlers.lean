import LatteCode.Lib.Reservation
import LatteCode.Server.Http
import LatteCode.Storage.System
/- The handlers of `create_session` and `follow_up`, which await outside the idempotency ledger. -/

namespace LatteCode.Server
open Reservations Runs Storage

structure WorkspaceInstance where
  id : String
  path : String
deriving DecidableEq

/-- The accepted acknowledgement of a durable mutation. -/
structure IdempotentRecord (D : Type) where
  status : StatusCode
  body : Json
  payloadDigest : D

abbrev IdempotentSlot (D : Type) : Type := Slot D (IdempotentRecord D)

abbrev Response : Type := Except HandlerError (StatusCode × Body)

/-- The oneshot that a runtime task answers on before its turn runs on in the background. -/
inductive Task where
  | unspawned
  | running
  | signalled (acceptance : Except CreateAcceptError CreateOutcome)
  | silent

/-- The await that a handler stands at, or its end. A dropped handler never goes on. -/
inductive Stage where
  | lookingUp
  | accepting (workspace : WorkspaceInstance)
  | registering (status : StatusCode) (body : Body)
  | answered (response : Response)
  | dropped

def Stage.live : Stage → Bool
  | .lookingUp | .accepting _ | .registering .. => true
  | .answered _ | .dropped => false

structure Handler (D : Type) where
  request : Request
  idempotency : Option String
  payloadDigest : D
  stage : Stage
  task : Task

/-- How the lookup of a workspace fails. -/
inductive LookupFailure where
  | session
  | workspace

def LookupFailure.message : LookupFailure → String
  | session => "session not found"
  | workspace => "workspace not found"

/-- What a handler is woken with. -/
inductive Wake where
  | located (result : Except LookupFailure WorkspaceInstance)
  | accepted
  | registered

/-- A poll comes to the next await, or to the result of the owned part. -/
inductive Progress where
  | waits (stage : Stage) (task : Task)
  | finishes (response : Response)

/-- Up to the first await: `follow_up_owned` parses the session id before it. -/
def Request.begin (S : Service) : Request → Progress
  | .create .. => .waits .lookingUp .unspawned
  | .followUp id _ =>
      match S.parseUuid id with
      | none => .finishes (.error (badRequest "invalid session id"))
      | some _ => .waits .lookingUp .unspawned

/-- After the lookup: `create_session_owned` validates the binding, and both spawn the runtime task. -/
def Request.located : Request → Except LookupFailure WorkspaceInstance → Progress
  | _, .error failure => .finishes (.error (notFound failure.message))
  | .create _ body, .ok workspace =>
      match body.binding.validate with
      | .error message => .finishes (.error (badRequest ("invalid binding: " ++ message)))
      | .ok _ => .waits (.accepting workspace) .running
  | .followUp .., .ok workspace => .waits (.accepting workspace) .running

def acceptedStatus : CreateOutcome → StatusCode
  | .created _ => .accepted
  | .replayed _ => .ok

/-- After the acceptance: a create still awaits the registration of its session. -/
def Request.accepted (workspace : WorkspaceInstance) (outcome : CreateOutcome) : Request → Progress
  | .create _ body => .waits (.registering (acceptedStatus outcome)
      (.created ⟨body.sessionId.toString, outcome.snapshot.revision⟩)) (.signalled (.ok outcome))
  | .followUp .. => .finishes (.ok (acceptedStatus outcome, .followUp ⟨outcome.snapshot.revision, workspace.id⟩))

namespace Handler

variable {D : Type} (self : Handler D)

def live : Bool := self.stage.live

/-- A poll of the handler; `none` while it has nothing to go on with. -/
def poll : Wake → Option Progress
  | .located result =>
      match self.stage with
      | .lookingUp => some (self.request.located result)
      | _ => none
  | .accepted =>
      match self.stage, self.task with
      | .accepting workspace, .signalled (.ok outcome) => some (self.request.accepted workspace outcome)
      | .accepting _, .signalled (.error error) => some (.finishes (.error (mapCreateError error)))
      | .accepting _, .silent => some (.finishes (.error (failed "session runtime dropped before acceptance")))
      | _, _ => none
  | .registered =>
      match self.stage with
      | .registering status body => some (.finishes (.ok (status, body)))
      | _ => none

end Handler

/-- The ledger of a server and the handlers it has run. -/
structure World (D : Type) where
  idempotency : String → Option (IdempotentSlot D)
  handlers : List (Handler D)

inductive Event where
  | arrive (request : Request) (header : Option String)
  | poll (handler : Nat) (wake : Wake)
  /-- The runtime task signals, or goes away without a signal. -/
  | signal (handler : Nat) (acceptance : Option (Except CreateAcceptError CreateOutcome))
  | drop (handler : Nat)

namespace World

section Idempotency

variable {D : Type} [DecidableEq D] (self : World D) (key : String)

def idempotencyClaim (payloadDigest : D) : Claim (IdempotentRecord D) × (String → Option (IdempotentSlot D)) :=
  claim IdempotentRecord.payloadDigest self.idempotency key payloadDigest

def idempotencyComplete (record : IdempotentRecord D) : World D :=
  { self with idempotency := complete self.idempotency key record }

def idempotencyRelease : World D := { self with idempotency := release self.idempotency key }

end Idempotency

/-- A replay answers 200, whatever the status was. -/
def replayIdempotentRecord {D : Type} (request : Request) (record : IdempotentRecord D) : Response :=
  match request.readBody record.body with
  | some body => .ok (.ok, body)
  | none => .error (failed "corrupt idempotent record")

variable {D : Type} [DecidableEq D] (self : World D)

def setHandler (i : Nat) (handler : Handler D) : World D := { self with handlers := self.handlers.set i handler }

/-- The end of both handlers: an owner completes its key with the response, or releases it. -/
def finish (i : Nat) (handler : Handler D) (response : Response) : World D :=
  let answered := self.setHandler i { handler with stage := .answered response }
  match handler.idempotency, response with
  | some key, .ok (status, body) => answered.idempotencyComplete key ⟨status, body.toValue, handler.payloadDigest⟩
  | some key, .error _ => answered.idempotencyRelease key
  | none, _ => answered

def proceed (i : Nat) (handler : Handler D) : Progress → World D
  | .waits stage task => self.setHandler i { handler with stage := stage, task := task }
  | .finishes response => self.finish i handler response

/-- A handler that answers in its first poll. -/
def answer (request : Request) (idempotency : Option String) (payloadDigest : D) (response : Response) : World D :=
  { self with handlers := self.handlers ++ [⟨request, idempotency, payloadDigest, .answered response, .unspawned⟩] }

/-- An owner goes on to its first await. -/
def own (S : Service) (request : Request) (idempotency : Option String) (payloadDigest : D) : World D :=
  let handler : Handler D := ⟨request, idempotency, payloadDigest, .lookingUp, .unspawned⟩
  { self with handlers := self.handlers ++ [handler] }.proceed self.handlers.length handler (request.begin S)

end World

namespace World

variable (S : Service)

/-- The first poll of a handler, with its claim. -/
def arrive (self : World S.Digest) (request : Request) (header : Option String) : World S.Digest :=
  let payloadDigest := S.sha256 request.payload
  if headerKey header ≠ some request.commandId.toString then
    self.answer request none payloadDigest
      (.error (badRequest "Idempotency-Key header must equal body command_id"))
  else
    match scopedIdempotencyKey S header request.scope with
    | some key =>
        match self.idempotencyClaim key payloadDigest with
        | (.replay record, _) =>
            self.answer request (some key) payloadDigest (replayIdempotentRecord request record)
        | (.inFlight, _) => self.answer request (some key) payloadDigest (.error inFlight)
        | (.mismatch, _) => self.answer request (some key) payloadDigest (.error payloadMismatch)
        | (.owner, idempotency) => { self with idempotency := idempotency }.own S request (some key) payloadDigest
    | none => self.own S request none payloadDigest

def step (self : World S.Digest) : Event → World S.Digest
  | .arrive request header => self.arrive S request header
  | .poll i wake =>
      match self.handlers[i]? with
      | some handler =>
          match handler.poll wake with
          | some progress => self.proceed i handler progress
          | none => self
      | none => self
  | .signal i acceptance =>
      match self.handlers[i]? with
      | some handler =>
          match handler.task with
          | .running => self.setHandler i { handler with task := (acceptance.map Task.signalled).getD .silent }
          | _ => self
      | none => self
  | .drop i =>
      match self.handlers[i]? with
      | some handler => if handler.live then self.setHandler i { handler with stage := .dropped } else self
      | none => self

/-- `ServerState::new`. -/
def new : World S.Digest := ⟨fun _ => none, []⟩

/-- The world after the first `k` events. -/
def after (events : List Event) (k : Nat) : World S.Digest := stateAt (World.step S) (World.new S) events k

end World

/-! ## Inputs of the cases on fixed data -/

def sampleService : Service := { plain with token := "token", parseUuid := fun _ => none }

def sampleCommand : SessionCommandId := ⟨⟨3#128⟩⟩

def sampleCreateRequest : Request := .create "workspace" ⟨sampleSession, sampleCommand, "prompt", sampleBinding, none⟩

def sampleWorkspace : WorkspaceInstance := ⟨"workspace", "/workspace"⟩

end LatteCode.Server
