import LatteCode.Core.Ids
import LatteCode.Core.Json
/- Durable turn records of the v1 protocol, with the JSON they serialize to. -/

namespace LatteCode

def PROTOCOL_VERSION : Nat := 1

/-- Durable turn status. -/
inductive TurnStatus where
  | queued
  | running
  | waitingPermission
  | waitingInput
  | cancelling
  | interrupted
  | failed
  | completed
deriving DecidableEq, Repr

/-- The derived `Debug` text, which transition errors quote. -/
def TurnStatus.debug : TurnStatus → String
  | .queued => "Queued"
  | .running => "Running"
  | .waitingPermission => "WaitingPermission"
  | .waitingInput => "WaitingInput"
  | .cancelling => "Cancelling"
  | .interrupted => "Interrupted"
  | .failed => "Failed"
  | .completed => "Completed"

/-- A turn that takes no further step of its own. -/
def TurnStatus.terminal : TurnStatus → Bool
  | .completed | .failed | .interrupted => true
  | _ => false

structure PendingPermission where
  requestId : String
  operationDigest : String
  description : String
deriving DecidableEq, Repr

structure PendingInput where
  requestId : String
  prompt : String
deriving DecidableEq, Repr

inductive Retryability where
  | retryable
  | terminal
deriving DecidableEq, Repr

inductive FailureCode where
  | cancelled
  | permissionDenied
  | verificationFailed
  | runtimeFailed
deriving DecidableEq, Repr

structure TurnFailure where
  code : FailureCode
  message : String
  retryability : Retryability
deriving DecidableEq, Repr

inductive VerificationStatus where
  | passed
  | failed
  | notRun
deriving DecidableEq, Repr

structure Evidence where
  name : String
  status : VerificationStatus
  summary : String
deriving DecidableEq, Repr

structure Handoff where
  summary : String
  filesChanged : List String
  evidence : List Evidence
deriving DecidableEq, Repr

inductive RuntimeEvent where
  | stateChanged (status : TurnStatus)
  | toolStarted (name : String)
  | toolCompleted (name : String) (success : Bool)
  | evidenceRecorded (evidence : Evidence)
  | handoffProduced (handoff : Handoff)
deriving DecidableEq, Repr

structure EventEnvelope where
  protocolVersion : Nat
  turnId : TurnId
  revision : Nat
  event : RuntimeEvent
deriving DecidableEq, Repr

def Retryability.toJson : Retryability → Json
  | .retryable => .string "retryable"
  | .terminal => .string "terminal"

def FailureCode.toJson : FailureCode → Json
  | .cancelled => .string "cancelled"
  | .permissionDenied => .string "permission_denied"
  | .verificationFailed => .string "verification_failed"
  | .runtimeFailed => .string "runtime_failed"

def VerificationStatus.toJson : VerificationStatus → Json
  | .passed => .string "passed"
  | .failed => .string "failed"
  | .notRun => .string "not_run"

def PendingPermission.toJson (value : PendingPermission) : Json :=
  .ofMembers [("request_id", .string value.requestId), ("operation_digest", .string value.operationDigest),
    ("description", .string value.description)]

def PendingInput.toJson (value : PendingInput) : Json :=
  .ofMembers [("request_id", .string value.requestId), ("prompt", .string value.prompt)]

def TurnFailure.toJson (value : TurnFailure) : Json :=
  .ofMembers [("code", value.code.toJson), ("message", .string value.message),
    ("retryability", value.retryability.toJson)]

def Evidence.toJson (value : Evidence) : Json :=
  .ofMembers [("name", .string value.name), ("status", value.status.toJson),
    ("summary", .string value.summary)]

def Handoff.toJson (value : Handoff) : Json :=
  .ofMembers [("summary", .string value.summary), ("files_changed", .ofStrings value.filesChanged),
    ("evidence", .array (.ofList (value.evidence.map Evidence.toJson)))]

/-! Serialization loses nothing, which is what makes a digest an identity. -/

theorem Retryability.toJson_injective {a b : Retryability} (same : a.toJson = b.toJson) : a = b := by
  cases a <;> cases b <;> first | rfl | exact absurd same (by decide)

theorem FailureCode.toJson_injective {a b : FailureCode} (same : a.toJson = b.toJson) : a = b := by
  cases a <;> cases b <;> first | rfl | exact absurd same (by decide)

theorem VerificationStatus.toJson_injective {a b : VerificationStatus}
    (same : a.toJson = b.toJson) : a = b := by
  cases a <;> cases b <;> first | rfl | exact absurd same (by decide)

/-- Two objects of the same member names agree on every member. -/
theorem Json.member_eq {members members' : List (String × Json)}
    (same : Json.ofMembers members = Json.ofMembers members') (key : String) :
    members.reverse.lookup key = members'.reverse.lookup key := by
  rw [← Json.get?_ofMembers, ← Json.get?_ofMembers, same]

theorem PendingPermission.toJson_injective {a b : PendingPermission} (same : a.toJson = b.toJson) :
    a = b := by
  have request := Json.member_eq same "request_id"
  have digest := Json.member_eq same "operation_digest"
  have description := Json.member_eq same "description"
  cases a
  cases b
  simp_all [List.lookup]

theorem PendingInput.toJson_injective {a b : PendingInput} (same : a.toJson = b.toJson) : a = b := by
  have request := Json.member_eq same "request_id"
  have prompt := Json.member_eq same "prompt"
  cases a
  cases b
  simp_all [List.lookup]

theorem TurnFailure.toJson_injective {a b : TurnFailure} (same : a.toJson = b.toJson) : a = b := by
  have code := Json.member_eq same "code"
  have message := Json.member_eq same "message"
  have retryability := Json.member_eq same "retryability"
  simp only [List.reverse_cons, List.reverse_nil, List.nil_append, List.cons_append, List.lookup,
    String.reduceBEq, beq_self_eq_true, Option.some.injEq, Json.string.injEq] at code message retryability
  cases a
  cases b
  simp only [TurnFailure.mk.injEq]
  exact ⟨FailureCode.toJson_injective code, message, Retryability.toJson_injective retryability⟩

theorem Evidence.toJson_injective {a b : Evidence} (same : a.toJson = b.toJson) : a = b := by
  have name := Json.member_eq same "name"
  have status := Json.member_eq same "status"
  have summary := Json.member_eq same "summary"
  simp only [List.reverse_cons, List.reverse_nil, List.nil_append, List.cons_append, List.lookup,
    String.reduceBEq, beq_self_eq_true, Option.some.injEq, Json.string.injEq] at name status summary
  cases a
  cases b
  simp only [Evidence.mk.injEq]
  exact ⟨name, VerificationStatus.toJson_injective status, summary⟩

theorem Handoff.toJson_injective {a b : Handoff} (same : a.toJson = b.toJson) : a = b := by
  have summary := Json.member_eq same "summary"
  have files := Json.member_eq same "files_changed"
  have evidence := Json.member_eq same "evidence"
  simp only [List.reverse_cons, List.reverse_nil, List.nil_append, List.cons_append, List.lookup,
    String.reduceBEq, beq_self_eq_true, Option.some.injEq, Json.string.injEq, Json.array.injEq]
    at summary files evidence
  cases a
  cases b
  simp only [Handoff.mk.injEq]
  exact ⟨summary, Json.ofStrings_injective files,
    (List.map_inj_right fun _ _ => Evidence.toJson_injective).mp (Elements.ofList_injective evidence)⟩

end LatteCode
