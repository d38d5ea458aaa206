import LatteCode.Core.State
/- The v2 conversation-session protocol and its redactor. -/

namespace LatteCode

def SESSION_PROTOCOL_VERSION : Nat := 2
def SESSION_TEXT_CAP_BYTES : Nat := 64 * 1024

/-- Lifecycle of the conversation projection, distinct from its child turn. -/
inductive SessionLifecycle where
  | ready
  | running
  | waitingPermission
  | waitingInput
  | interrupted
  | failed
  | reconciliationRequired
deriving DecidableEq, Repr

/-- `aliases` is a `BTreeMap`, so its entries stand in key order. -/
structure SessionProviderBinding where
  version : Nat
  providerName : String
  providerType : String
  protocol : String
  model : String
  configFingerprint : String
  toolsFingerprint : String
  aliases : List (String × String)
  credentialRefId : String
  dataScopeId : String
  credentialGeneration : Nat
deriving DecidableEq, Repr

/-- `char::is_control`: the Unicode category Cc. -/
def isControl (c : Char) : Bool := c.val < 0x20 || (0x7f ≤ c.val && c.val < 0xa0)

/-- The Unicode `White_Space` characters, which `str::trim` removes. -/
def isWhitespace (c : Char) : Bool :=
  (0x09 ≤ c.val && c.val ≤ 0x0d) || (0x2000 ≤ c.val && c.val ≤ 0x200a) ||
    [0x20, 0x85, 0xa0, 0x1680, 0x2028, 0x2029, 0x202f, 0x205f, 0x3000].contains c.val

def trim (text : String) : String :=
  String.ofList ((text.toList.dropWhile isWhitespace).reverse.dropWhile isWhitespace).reverse

def malformedBindingField (value : String) : Bool :=
  (trim value).isEmpty || value.utf8ByteSize > 1024 || value.toList.any isControl

def malformedAlias (entry : String × String) : Bool :=
  entry.1.isEmpty || entry.2.isEmpty || entry.1.utf8ByteSize > 256 || entry.2.utf8ByteSize > 256 ||
    entry.1.toList.any isControl || entry.2.toList.any isControl

def SessionProviderBinding.validate (self : SessionProviderBinding) : Except String Unit :=
  let fields := [("provider_name", self.providerName), ("provider_type", self.providerType),
    ("protocol", self.protocol), ("model", self.model),
    ("config_fingerprint", self.configFingerprint), ("tools_fingerprint", self.toolsFingerprint),
    ("credential_ref_id", self.credentialRefId), ("data_scope_id", self.dataScopeId)]
  match fields.find? fun field => malformedBindingField field.2 with
  | some field => .error ("invalid " ++ field.1)
  | none =>
      if self.aliases.length > 256 ∨ self.aliases.any malformedAlias then
        .error "invalid provider aliases"
      else .ok ()

inductive SessionTurnStatus where
  | queued
  | running
  | cancelling
  | waitingPermission
  | waitingInput
  | interrupted
  | failed
  | completed
deriving DecidableEq, Repr

structure SessionTurnSummary where
  turnId : TurnId
  parentTurnId : Option TurnId
  ordinal : Nat
  status : SessionTurnStatus
  turnRevision : Nat
  completedAtMs : Option Nat
  failureCode : Option FailureCode
deriving DecidableEq, Repr

inductive TranscriptKind where
  | user
  | assistant
  | toolCall
  | toolResult
  | permission
  | input
  | failure
  | completion
  | system
  | compactSummary
  | toolResultElision
deriving DecidableEq, Repr

/-- The derived `Debug` text, which the command digest uses. -/
def TranscriptKind.debug : TranscriptKind → String
  | .user => "User"
  | .assistant => "Assistant"
  | .toolCall => "ToolCall"
  | .toolResult => "ToolResult"
  | .permission => "Permission"
  | .input => "Input"
  | .failure => "Failure"
  | .completion => "Completion"
  | .system => "System"
  | .compactSummary => "CompactSummary"
  | .toolResultElision => "ToolResultElision"

structure TranscriptEntry where
  entryId : TranscriptEntryId
  sequence : Nat
  turnId : Option TurnId
  kind : TranscriptKind
  text : String
  payload : Option Json
  sourceKey : String
  createdAtMs : Nat
deriving DecidableEq

structure TranscriptPage where
  entries : List TranscriptEntry
  nextAfter : Option Nat
  hasMore : Bool
deriving DecidableEq

inductive SessionPendingRequest where
  | permission (turnId : TurnId) (requestId description : String) (expectedTurnRevision : Nat)
  | input (turnId : TurnId) (requestId prompt : String) (expectedTurnRevision : Nat)
deriving DecidableEq, Repr

/-- Authoritative read projection for a conversation. -/
structure SessionSnapshot where
  sessionId : SessionId
  revision : Nat
  sequence : Nat
  lifecycle : SessionLifecycle
  binding : SessionProviderBinding
  latestTurnId : Option TurnId
  activeTurnId : Option TurnId
  pending : Option SessionPendingRequest
  turns : List SessionTurnSummary
  transcript : TranscriptPage
  focus : Option String
deriving DecidableEq

/-- Typed wake-ups of the durable session event stream. -/
inductive SessionEvent where
  | lifecycleChanged (lifecycle : SessionLifecycle) (turnId : Option TurnId)
  | transcriptAppended (entry : TranscriptEntry)
  | turnLinked (turn : SessionTurnSummary)
  | bindingChanged (providerName model : String)
  | reconciliationRequired (turnId : TurnId) (effectId : String)
deriving DecidableEq

structure SessionEventEnvelope where
  protocolVersion : Nat
  sessionId : SessionId
  revision : Nat
  sequence : Nat
  event : SessionEvent
deriving DecidableEq

/-- Outcome of a session create operation. -/
inductive CreateOutcome where
  | created (snapshot : SessionSnapshot)
  | replayed (snapshot : SessionSnapshot)
deriving DecidableEq

def CreateOutcome.snapshot : CreateOutcome → SessionSnapshot
  | .created snapshot => snapshot
  | .replayed snapshot => snapshot

/-- The `replace_all` passes of the three secret patterns, by the `regex` crate. -/
structure Redactor where
  namedAssignment : String → String
  bearer : String → String
  openaiKey : String → String

/-- Position of the control filter inside an ANSI escape sequence. -/
inductive ScanMode where
  | text
  | escape
  | csi
deriving DecidableEq

/-- Drops escape sequences and controls and caps the text; `used` counts the bytes kept so far. -/
def sanitize : ScanMode → Nat → List Char → List Char
  | _, _, [] => []
  | mode, used, c :: rest =>
      if mode = .csi then
        sanitize (if '@' ≤ c ∧ c ≤ '~' then .text else .csi) used rest
      else if mode = .escape ∧ c = '[' then sanitize .csi used rest
      else if c = '\x1b' then sanitize .escape used rest
      else if isControl c ∧ c ≠ '\n' ∧ c ≠ '\t' then sanitize .text used rest
      else if used + c.utf8Size > SESSION_TEXT_CAP_BYTES then "…[truncated]".toList
      else c :: sanitize .text (used + c.utf8Size) rest

namespace Redactor

variable (E : Redactor)

def redactTokenLikeValues (value : String) : String :=
  E.openaiKey (E.bearer (E.namedAssignment value))

/-- Sanitizes control/ANSI text and caps it at a valid UTF-8 boundary. -/
def redactSessionText (value : String) : String :=
  E.redactTokenLikeValues (String.ofList (sanitize .text 0 value.toList))

end Redactor

def secretNeedles : List String :=
  ["secret", "token", "password", "api_key", "authorization", "credential"]

/-- `str::contains`. -/
def containsText (needle : List Char) : List Char → Bool
  | [] => needle.isEmpty
  | c :: rest => needle.isPrefixOf (c :: rest) || containsText needle rest

def secretKey (key : String) : Bool :=
  secretNeedles.any fun needle => containsText needle.toList (key.toList.map Char.toLower)

namespace Redactor

variable (E : Redactor)

mutual
/-- Recursively sanitizes untrusted structured data before persistence/UI use. -/
def redactSessionValue : Json → Json
  | .object fields => .object (Fields.insertAll (redactMembers fields) .nil)
  | .array elements => .array (redactElements elements)
  | .string value => .string (E.redactSessionText value)
  | .null => .null
  | .bool b => .bool b
  | .number n => .number n
def redactElements : Elements → Elements
  | .nil => .nil
  | .cons head tail => .cons (redactSessionValue head) (redactElements tail)
def redactMembers : Fields → List (String × Json)
  | .nil => []
  | .cons key value rest =>
      (E.redactSessionText key,
        if secretKey key then .string "[REDACTED]" else redactSessionValue value) :: redactMembers rest
end

end Redactor

end LatteCode
