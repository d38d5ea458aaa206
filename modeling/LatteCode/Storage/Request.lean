import LatteCode.Storage.Schema
/- Commit requests, the validators of their fields, and the digests that identify commands. -/

namespace LatteCode.Storage
open Keyed Outcome

/-- Policy result captured durably during v2 preparation. -/
inductive SessionEffectPolicy where
  | allow
  | ask
deriving DecidableEq, Repr

/-- Engine-only mutation variants for a linked child turn. -/
inductive CommitSessionTurnUpdate where
  | start (sourceKey : String)
  | appendTranscript (sourceKey : String) (kind : TranscriptKind) (text : String) (payload : Option Json)
  | prepareEffect (sourceKey effectId operationDigest descriptorJson canonicalDescriptorJson : String)
      (policy : SessionEffectPolicy) (description checkpointJson : String)
  | startEffect (sourceKey effectId operationDigest checkpointJson : String)
  | observeEffect (sourceKey effectId operationDigest : String) (success : Bool) (result : String)
      (payload : Option Json) (checkpointJson : String)
  | unknownEffect (sourceKey effectId operationDigest checkpointJson : String)
  | reconcileUnknownEffect (sourceKey effectId checkpointJson : String)
  | requestPermission (sourceKey : String) (request : PendingPermission)
  | resolvePermission (sourceKey requestId : String) (allow : Bool) (reboundOperationDigest : Option String)
  | requestInput (sourceKey : String) (request : PendingInput)
  | provideInput (sourceKey requestId value : String)
  | complete (sourceKey : String) (handoff : Handoff)
  | completeVerified (sourceKey summary verificationEffectId verifiedManifestDigest : String)
      (filesChanged : List String)
  | fail (sourceKey : String) (failure : TurnFailure)
  | interrupt (sourceKey : String) (reconciliationEffectId : Option String)
deriving DecidableEq

def CommitSessionTurnUpdate.sourceKey : CommitSessionTurnUpdate → String
  | .start sourceKey => sourceKey
  | .appendTranscript sourceKey .. => sourceKey
  | .prepareEffect sourceKey .. => sourceKey
  | .startEffect sourceKey .. => sourceKey
  | .observeEffect sourceKey .. => sourceKey
  | .unknownEffect sourceKey .. => sourceKey
  | .reconcileUnknownEffect sourceKey .. => sourceKey
  | .requestPermission sourceKey .. => sourceKey
  | .resolvePermission sourceKey .. => sourceKey
  | .requestInput sourceKey .. => sourceKey
  | .provideInput sourceKey .. => sourceKey
  | .complete sourceKey .. => sourceKey
  | .completeVerified sourceKey .. => sourceKey
  | .fail sourceKey .. => sourceKey
  | .interrupt sourceKey .. => sourceKey

/-- Exact mutation preconditions of one commit. -/
structure SessionCommitRequest where
  sessionId : SessionId
  turnId : TurnId
  expectedSessionRevision : Nat
  expectedTurnRevision : Nat
  commandId : SessionCommandId
  requestId : Option String
  effectId : Option String
  update : CommitSessionTurnUpdate
deriving DecidableEq

def validateWorkspaceRoot (value : String) : Except StorageError Unit :=
  ensure (¬ (value.isEmpty ∨ value.utf8ByteSize > 4 * 1024 ∨ value.toList.any isControl))
    (.invalidData "invalid canonical workspace root")

def validateSessionSource (source : String) : Except StorageError Unit :=
  ensure (¬ (source.isEmpty ∨ source.utf8ByteSize > 256 ∨ source.toList.any isControl))
    (.invalidData "invalid session source key")

def validateSessionEffectId (value : String) : Except StorageError Unit :=
  ensure (¬ (value.isEmpty ∨ value.utf8ByteSize > 512 ∨ value.toList.any isControl))
    (.invalidData "invalid session effect id")

/-- `u8::is_ascii_hexdigit`. -/
def isHexDigit (c : Char) : Bool :=
  ('0' ≤ c && c ≤ '9') || ('a' ≤ c && c ≤ 'f') || ('A' ≤ c && c ≤ 'F')

def validateSessionDigest (value : String) : Except StorageError Unit :=
  ensure (value.utf8ByteSize = 64 ∧ value.toList.all isHexDigit)
    (.invalidData "invalid session effect operation digest")

def SESSION_TITLE_LIMIT : Nat := 120

/-- Keeps characters while the title fits its cap; `used` counts its bytes. -/
def capTitle : Nat → List Char → List Char
  | _, [] => []
  | used, c :: rest =>
      if used + c.utf8Size > SESSION_TITLE_LIMIT then ['…'] else c :: capTitle (used + c.utf8Size) rest

section Redacted

variable (E : Environment)

def sessionTitle (prompt : String) : String :=
  let firstLine := trim (String.ofList ((E.redactSessionText prompt).toList.takeWhile (· ≠ '\n')))
  let title := capTitle 0 (firstLine.toList.filter fun c => !isControl c)
  if title.isEmpty then "Untitled session" else String.ofList title

def redactPermission (value : PendingPermission) : PendingPermission where
  requestId := E.redactSessionText value.requestId
  operationDigest := E.redactSessionText value.operationDigest
  description := E.redactSessionText value.description

def redactInput (value : PendingInput) : PendingInput where
  requestId := E.redactSessionText value.requestId
  prompt := E.redactSessionText value.prompt

def redactFailure (value : TurnFailure) : TurnFailure where
  code := value.code
  message := E.redactSessionText value.message
  retryability := value.retryability

def redactEvidence (value : Evidence) : Evidence where
  name := E.redactSessionText value.name
  status := value.status
  summary := E.redactSessionText value.summary

def redactHandoff (value : Handoff) : Handoff where
  summary := E.redactSessionText value.summary
  filesChanged := value.filesChanged.map E.redactSessionText
  evidence := value.evidence.map (redactEvidence E)

/-- `from_str::<Value>(text).ok().map(redact_session_value)`, `null` when the text does not parse. -/
def redactedDocument (text : String) : Json :=
  .ofOption ((E.fromStr text).toOption.map E.redactSessionValue)

def redactedPayload (payload : Option Json) : Json := .ofOption (payload.map E.redactSessionValue)

end Redacted

def bindingJson (binding : SessionProviderBinding) : Json :=
  .ofMembers [("version", .ofNat binding.version), ("provider_name", .string binding.providerName),
    ("provider_type", .string binding.providerType), ("protocol", .string binding.protocol),
    ("model", .string binding.model), ("config_fingerprint", .string binding.configFingerprint),
    ("tools_fingerprint", .string binding.toolsFingerprint),
    ("aliases", .object (binding.aliases.foldr (fun entry rest => .cons entry.1 (.string entry.2) rest) .nil)),
    ("credential_ref_id", .string binding.credentialRefId),
    ("data_scope_id", .string binding.dataScopeId),
    ("credential_generation", .ofNat binding.credentialGeneration)]

/-- `focus.map(str::trim).filter(|value| !value.is_empty())`. -/
def normalizedFocus (focus : Option String) : Option String :=
  (focus.map trim).filter fun value => !value.isEmpty

section Digests

variable (E : Environment)

/-- A session-create digest; `operation` and `idKey` are the names of its namespace. -/
def createDigestOf (operation idKey : String) (sessionId : SessionId) (workspaceRoot prompt : String)
    (binding : SessionProviderBinding) (focus : Option String) : E.Digest :=
  E.sha256 (.ofMembers [("operation", .string operation),
    ("protocol_version", .ofNat SESSION_PROTOCOL_VERSION), ("workspace", .string workspaceRoot),
    (idKey, .string sessionId.toString), ("prompt", .string prompt), ("binding", bindingJson binding),
    ("focus", .ofText (normalizedFocus focus))])

def createCommandDigest := createDigestOf E "session.start" "session_id"
def legacyCreateCommandDigest := createDigestOf E "thread.start" "thread_id"

def followUpDigestOf (operation idKey revisionKey : String) (sessionId : SessionId)
    (expectedSessionRevision : Nat) (prompt : String) : E.Digest :=
  E.sha256 (.ofMembers [("operation", .string operation),
    ("protocol_version", .ofNat SESSION_PROTOCOL_VERSION), (idKey, .string sessionId.toString),
    (revisionKey, .ofNat expectedSessionRevision), ("prompt", .string prompt)])

def followUpCommandDigest :=
  followUpDigestOf E "session.follow_up" "session_id" "expected_session_revision"
def legacyFollowUpCommandDigest :=
  followUpDigestOf E "thread.follow_up" "thread_id" "expected_thread_revision"

/-- The `update` member of a command digest. The exact descriptor is left out of it. -/
def updateJson : CommitSessionTurnUpdate → Json
  | .start sourceKey =>
      .ofMembers [("kind", .string "start"), ("source_key", .string (E.redactSessionText sourceKey))]
  | .appendTranscript sourceKey kind text payload =>
      .ofMembers [("kind", .string "append_transcript"),
        ("source_key", .string (E.redactSessionText sourceKey)), ("card", .string kind.debug),
        ("text", .string (E.redactSessionText text)), ("payload", redactedPayload E payload)]
  | .prepareEffect sourceKey effectId operationDigest descriptorJson _ policy description checkpointJson =>
      .ofMembers [("kind", .string "prepare_effect"),
        ("source_key", .string (E.redactSessionText sourceKey)),
        ("effect_id", .string (E.redactSessionText effectId)),
        ("operation_digest", .string (E.redactSessionText operationDigest)),
        ("descriptor", redactedDocument E descriptorJson),
        ("policy", .string (match policy with | .allow => "allow" | .ask => "ask")),
        ("description", .string (E.redactSessionText description)),
        ("checkpoint", redactedDocument E checkpointJson)]
  | .startEffect sourceKey effectId operationDigest checkpointJson =>
      .ofMembers [("kind", .string "start_effect"),
        ("source_key", .string (E.redactSessionText sourceKey)),
        ("effect_id", .string (E.redactSessionText effectId)),
        ("operation_digest", .string (E.redactSessionText operationDigest)),
        ("checkpoint", redactedDocument E checkpointJson)]
  | .observeEffect sourceKey effectId operationDigest success result payload checkpointJson =>
      .ofMembers [("kind", .string "observe_effect"),
        ("source_key", .string (E.redactSessionText sourceKey)),
        ("effect_id", .string (E.redactSessionText effectId)),
        ("operation_digest", .string (E.redactSessionText operationDigest)), ("success", .bool success),
        ("result", .string (E.redactSessionText result)), ("payload", redactedPayload E payload),
        ("checkpoint", redactedDocument E checkpointJson)]
  | .unknownEffect sourceKey effectId operationDigest checkpointJson =>
      .ofMembers [("kind", .string "unknown_effect"),
        ("source_key", .string (E.redactSessionText sourceKey)),
        ("effect_id", .string (E.redactSessionText effectId)),
        ("operation_digest", .string (E.redactSessionText operationDigest)),
        ("checkpoint", redactedDocument E checkpointJson)]
  | .reconcileUnknownEffect sourceKey effectId checkpointJson =>
      .ofMembers [("kind", .string "reconcile_unknown_effect"),
        ("source_key", .string (E.redactSessionText sourceKey)),
        ("effect_id", .string (E.redactSessionText effectId)),
        ("checkpoint", redactedDocument E checkpointJson)]
  | .requestPermission sourceKey request =>
      .ofMembers [("kind", .string "request_permission"),
        ("source_key", .string (E.redactSessionText sourceKey)),
        ("request", (redactPermission E request).toJson)]
  | .resolvePermission sourceKey requestId allow reboundOperationDigest =>
      .ofMembers [("kind", .string "resolve_permission"),
        ("source_key", .string (E.redactSessionText sourceKey)),
        ("request_id", .string (E.redactSessionText requestId)), ("allow", .bool allow),
        ("rebound_operation_digest", .ofText reboundOperationDigest)]
  | .requestInput sourceKey request =>
      .ofMembers [("kind", .string "request_input"),
        ("source_key", .string (E.redactSessionText sourceKey)),
        ("request", (redactInput E request).toJson)]
  | .provideInput sourceKey requestId value =>
      .ofMembers [("kind", .string "provide_input"),
        ("source_key", .string (E.redactSessionText sourceKey)),
        ("request_id", .string (E.redactSessionText requestId)),
        ("value", .string (E.redactSessionText value))]
  | .complete sourceKey handoff =>
      .ofMembers [("kind", .string "complete"),
        ("source_key", .string (E.redactSessionText sourceKey)),
        ("handoff", (redactHandoff E handoff).toJson)]
  | .completeVerified sourceKey summary verificationEffectId verifiedManifestDigest filesChanged =>
      .ofMembers [("kind", .string "complete_verified"),
        ("source_key", .string (E.redactSessionText sourceKey)),
        ("summary", .string (E.redactSessionText summary)),
        ("verification_effect_id", .string (E.redactSessionText verificationEffectId)),
        ("verified_manifest_digest", .string (E.redactSessionText verifiedManifestDigest)),
        ("files_changed", .ofStrings (filesChanged.map E.redactSessionText))]
  | .fail sourceKey failure =>
      .ofMembers [("kind", .string "fail"), ("source_key", .string (E.redactSessionText sourceKey)),
        ("failure", (redactFailure E failure).toJson)]
  | .interrupt sourceKey reconciliationEffectId =>
      .ofMembers [("kind", .string "interrupt"),
        ("source_key", .string (E.redactSessionText sourceKey)),
        ("effect_id", .ofText (reconciliationEffectId.map E.redactSessionText))]

def sessionCommandDigest (request : SessionCommitRequest) : E.Digest :=
  E.sha256 (.ofMembers [("session_id", .string request.sessionId.toString),
    ("command_id", .string request.commandId.toString), ("turn_id", .string request.turnId.toString),
    ("expected_session_revision", .ofNat request.expectedSessionRevision),
    ("expected_turn_revision", .ofNat request.expectedTurnRevision),
    ("request_id", .ofText (request.requestId.map E.redactSessionText)),
    ("effect_id", .ofText (request.effectId.map E.redactSessionText)),
    ("update", updateJson E request.update)])

end Digests

end LatteCode.Storage
