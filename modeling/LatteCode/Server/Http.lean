import LatteCode.Core.Encode
import LatteCode.Lib.Outcome
import LatteCode.Storage.Request
/- The requests of the session server that mutate durably, their errors, and the keys they are deduplicated by. -/

namespace LatteCode.Server
open Outcome Storage

inductive StatusCode where
  | ok
  | accepted
  | badRequest
  | notFound
  | conflict
  | unprocessableEntity
  | internalServerError
deriving DecidableEq, Repr

structure ErrorBody where
  errorType : String
  message : String
  currentRevision : Option Nat
deriving DecidableEq, Repr

abbrev HandlerError : Type := StatusCode × ErrorBody

section Errors

def errorResponse (status : StatusCode) (errorType message : String) (currentRevision : Option Nat) : HandlerError :=
  (status, ⟨errorType, message, currentRevision⟩)

def badRequest (message : String) : HandlerError := errorResponse .badRequest "rejected" message none
def notFound (message : String) : HandlerError := errorResponse .notFound "not_found" message none
def conflict (message : String) (currentRevision : Option Nat) : HandlerError :=
  errorResponse .conflict "conflict" message currentRevision
def failed (message : String) : HandlerError := errorResponse .internalServerError "failed" message none

/-- 409 for a retry while the request with the same key is in flight. -/
def inFlight : HandlerError :=
  errorResponse .conflict "conflict" "a request with this idempotency key is still in flight" none

def payloadMismatchWithMessage (message : String) : HandlerError :=
  errorResponse .unprocessableEntity "idempotency_mismatch" message none

def payloadMismatch : HandlerError :=
  payloadMismatchWithMessage "this idempotency key was used with a different request payload"

inductive CreateAcceptError where
  | idempotencyMismatch (message : String)
  | conflict (message : String)
  | failed (message : String)
deriving DecidableEq, Repr

def mapCreateError : CreateAcceptError → HandlerError
  | .idempotencyMismatch message => payloadMismatchWithMessage message
  | .conflict message => conflict message none
  | .failed message => failed ("failed to accept session: " ++ message)

end Errors

/-- The storage environment of a server, its token, and `Uuid::parse_str`. -/
structure Service extends Environment where
  token : String
  parseUuid : String → Option Uuid

structure CreateSessionRequest where
  sessionId : SessionId
  commandId : SessionCommandId
  prompt : String
  binding : SessionProviderBinding
  focus : Option String
deriving DecidableEq

structure FollowUpRequest where
  commandId : SessionCommandId
  prompt : String
  expectedSessionRevision : Nat
deriving DecidableEq

/-- A request with the text of its path. -/
inductive Request where
  | create (workspaceId : String) (body : CreateSessionRequest)
  | followUp (id : String) (body : FollowUpRequest)
deriving DecidableEq

structure SessionCreatedResponse where
  sessionId : String
  acceptedRevision : Nat
deriving DecidableEq

structure FollowUpResponse where
  acceptedRevision : Nat
  workspaceId : String
deriving DecidableEq

inductive Body where
  | created (response : SessionCreatedResponse)
  | followUp (response : FollowUpResponse)
deriving DecidableEq

/-- `serde_json::to_value`. -/
def Body.toValue : Body → Json
  | .created response => .ofMembers [("session_id", .string response.sessionId),
      ("accepted_revision", .ofNat response.acceptedRevision)]
  | .followUp response => .ofMembers [("accepted_revision", .ofNat response.acceptedRevision),
      ("workspace_id", .string response.workspaceId)]

namespace Request

def commandId : Request → SessionCommandId
  | create _ body => body.commandId
  | followUp _ body => body.commandId

/-- The operation and the resource that a key belongs to. -/
def scope : Request → String
  | create workspaceId _ => "create:" ++ workspaceId
  | followUp id _ => "follow-up:" ++ id

/-- What the payload digest is of. -/
def payload : Request → Json
  | create _ body => .ofMembers [("session_id", .string body.sessionId.toString),
      ("command_id", .string body.commandId.toString), ("prompt", .string body.prompt),
      ("binding", bindingJson body.binding), ("focus", .ofText body.focus)]
  | followUp _ body => .ofMembers [("command_id", .string body.commandId.toString), ("prompt", .string body.prompt),
      ("expected_session_revision", .ofNat body.expectedSessionRevision)]

/-- `serde_json::from_value` at the response type of the endpoint. -/
def readBody (value : Json) : Request → Option Body
  | create .. => do
      let sessionId ← (← value.get? "session_id").asStr
      let acceptedRevision ← (← value.get? "accepted_revision").asU64
      some (.created ⟨sessionId, acceptedRevision⟩)
  | followUp .. => do
      let acceptedRevision ← (← value.get? "accepted_revision").asU64
      let workspaceId ← (← value.get? "workspace_id").asStr
      some (.followUp ⟨acceptedRevision, workspaceId⟩)

/-- The body is one of the endpoint's. -/
def Answers : Body → Request → Prop
  | .created _, create .. => True
  | .followUp _, followUp .. => True
  | _, _ => False

theorem readBody_toValue {body : Body} {request : Request} (answers : Answers body request) :
    request.readBody body.toValue = some body := by
  cases body with
  | created response =>
      cases request with
      | create workspaceId body =>
          simp only [readBody, Body.toValue, Json.get?_ofMembers]
          rfl
      | followUp id body => exact answers.elim
  | followUp response =>
      cases request with
      | create workspaceId body => exact answers.elim
      | followUp id body =>
          simp only [readBody, Body.toValue, Json.get?_ofMembers]
          rfl

end Request

section Keys

/-- The trimmed header, when it is not empty. -/
def headerKey (header : Option String) : Option String := (header.map trim).filter fun value => !value.isEmpty

def scopedIdempotencyKey (S : Service) (header : Option String) (scope : String) : Option String :=
  (headerKey header).map fun value => S.token ++ ":" ++ scope ++ ":" ++ value

/-- The key of a request whose header is its command id. -/
def Request.key (S : Service) (request : Request) : String :=
  S.token ++ ":" ++ request.scope ++ ":" ++ request.commandId.toString

theorem scopedIdempotencyKey_command {S : Service} {request : Request} {header : Option String}
    (identified : headerKey header = some request.commandId.toString) :
    scopedIdempotencyKey S header request.scope = some (request.key S) := by
  rw [scopedIdempotencyKey, identified]
  rfl

/-- The two endpoints share no key. -/
theorem Request.key_endpoint (S : Service) (workspaceId id : String) (create : CreateSessionRequest)
    (followUp : FollowUpRequest) : (Request.create workspaceId create).key S ≠ (Request.followUp id followUp).key S := by
  intro same
  simp only [Request.key, Request.scope, String.append_assoc] at same
  have rest := (String.append_right_inj _).mp ((String.append_right_inj _).mp same)
  have first := congrArg (fun text : String => text.toList.head?) rest
  simp [String.toList_append] at first

theorem Request.Answers.of_key {S : Service} {request request' : Request} {body : Body}
    (same : request.key S = request'.key S) (answers : Request.Answers body request) : Request.Answers body request' := by
  cases request with
  | create workspaceId create =>
      cases request' with
      | create workspaceId' create' => cases body <;> exact answers
      | followUp id' followUp' => exact absurd same (Request.key_endpoint S workspaceId id' create followUp')
  | followUp id followUp =>
      cases request' with
      | create workspaceId' create' => exact absurd same.symm (Request.key_endpoint S workspaceId' id create' followUp)
      | followUp id' followUp' => cases body <;> exact answers

end Keys

end LatteCode.Server
