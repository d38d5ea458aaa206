import LatteCode.Headless.Conversation
/- Assistant tool batches: the straight path of `execute_tool_batch`, and the continuation that
`resolve_permission` reads back from the transcript. -/

namespace LatteCode.Headless
open Outcome Storage

def OPENAI_CHAT_TOOL_CALL_ID_MAX_BYTES : Nat := 256

def isAsciiAlphanumeric (c : Char) : Bool :=
  ('a' ≤ c ∧ c ≤ 'z') ∨ ('A' ≤ c ∧ c ≤ 'Z') ∨ ('0' ≤ c ∧ c ≤ '9')

/-- `[A-Za-z0-9_-]{1,256}`. -/
def validToolCallId (id : String) : Bool :=
  !id.isEmpty && id.utf8ByteSize ≤ OPENAI_CHAT_TOOL_CALL_ID_MAX_BYTES &&
    id.toList.all fun c => isAsciiAlphanumeric c || c = '_' || c = '-'

/-- Between the hyphen and the small `z`: letters, digits, colons, underscores. -/
def Legible (text : List Char) : Prop := ∀ c ∈ text, 0x2d ≤ c.val.toNat ∧ c.val.toNat ≤ 0x7a

instance (text : List Char) : Decidable (Legible text) :=
  List.decidableBAll (fun c : Char => 0x2d ≤ c.val.toNat ∧ c.val.toNat ≤ 0x7a) text

theorem Legible.visible {text : List Char} (legible : Legible text) :
    ∀ c ∈ text, c ≠ '\x1b' ∧ isControl c = false := by
  intro c held
  have range := legible c held
  constructor
  · rintro rfl
    exact absurd range.1 (by decide)
  · have above : ¬ c.val < 0x20 := by
      rw [UInt32.lt_iff_toNat_lt]
      exact Nat.not_lt.mpr (Nat.le_trans (by decide) range.1)
    have below : ¬ 0x7f ≤ c.val := by
      rw [UInt32.le_iff_toNat_le]
      exact Nat.not_le.mpr (Nat.lt_of_le_of_lt range.2 (by decide))
    rw [isControl, decide_eq_false above, decide_eq_false below, Bool.false_and, Bool.or_false]

theorem Legible.append {text more : List Char} (first : Legible text) (second : Legible more) :
    Legible (text ++ more) := fun c held => (List.mem_append.mp held).elim (first c) (second c)

theorem validToolCallId_legible {id : String} (valid : validToolCallId id = true) : Legible id.toList := by
  simp only [validToolCallId, Bool.and_eq_true, List.all_eq_true] at valid
  intro c held
  have shape := valid.2 c held
  simp only [isAsciiAlphanumeric, Bool.or_eq_true, decide_eq_true_eq, Char.le_def, UInt32.le_iff_toNat_le] at shape
  rcases shape with ((⟨low, high⟩ | ⟨low, high⟩ | ⟨low, high⟩) | rfl) | rfl
  · exact ⟨Nat.le_trans (by decide) low, Nat.le_trans high (by decide)⟩
  · exact ⟨Nat.le_trans (by decide) low, Nat.le_trans high (by decide)⟩
  · exact ⟨Nat.le_trans (by decide) low, Nat.le_trans high (by decide)⟩
  · decide
  · decide

/-- The calls of one response that `handle_provider_tool_round` lets through. -/
def acceptedCalls (knownTools : List String) (calls : List ToolCall) : Prop :=
  (∀ call ∈ calls, validToolCallId call.id = true ∧ call.name ∈ knownTools ∧ ∃ fields, call.input = .object fields) ∧
    (calls.map ToolCall.id).Nodup

structure SessionEffectDescriptor where
  effectId : String
  toolCallId : String
  name : String
  input : Json
  attempt : Nat
deriving DecidableEq

namespace SessionEffectDescriptor

def toJson (self : SessionEffectDescriptor) : Json :=
  .ofMembers [("effect_id", .string self.effectId), ("tool_call_id", .string self.toolCallId),
    ("name", .string self.name), ("input", self.input), ("attempt", .ofNat self.attempt)]

/-- The call a descriptor was made for. -/
def call (self : SessionEffectDescriptor) : ToolCall := ⟨self.toolCallId, self.name, self.input⟩

end SessionEffectDescriptor

/-- How the execution of a started effect ends. -/
inductive Execution where
  | finished (output : Json) (truncated : Option Bool)
  | failed (error : String)
  | certified (error : String)
  | uncertain

/-- The transcript of one session under the commits of a turn. -/
structure Journal (State : Type) where
  commit : State → String → Card → Except StorageError State
  window : State → List TranscriptEntry
  sequence : State → Nat

/-- What the engine and the tools answer on the calls of one batch, by ordinal. -/
structure Host where
  policy : Nat → ToolCall → SessionEffectPolicy
  execute : Nat → ToolCall → Execution
  /-- Provider, profile and repository context are there when this ordinal is approved. -/
  rebuilds : Nat → Bool
  operationDigest : SessionEffectDescriptor → String
  permissionSummary : SessionEffectDescriptor → String
  /-- `serde_json::to_string`. -/
  render : Json → String

def effectIdOf (turnId : TurnId) (roundSequence ordinal : Nat) (id : String) : String :=
  "session-effect" ++ ":" ++ turnId.toString ++ ":" ++ toString roundSequence ++ ":" ++ toString ordinal ++ ":" ++ id

def descriptorOf (turnId : TurnId) (roundSequence ordinal : Nat) (call : ToolCall) : SessionEffectDescriptor where
  effectId := effectIdOf turnId roundSequence ordinal call.id
  toolCallId := call.id
  name := call.name
  input := call.input
  attempt := 1

theorem descriptorOf_call (turnId : TurnId) (roundSequence ordinal : Nat) (call : ToolCall) :
    (descriptorOf turnId roundSequence ordinal call).call = call := rfl

section SourceKeys

variable (turnId : TurnId)

def roundKey (firstId : String) : String := turnId.toString ++ ":" ++ "assistant-tool-round" ++ ":" ++ firstId

/-- The keys of one effect: by call id and ordinal, or by effect id. -/
def effectKey (name stage : String) : String := turnId.toString ++ ":" ++ "effect" ++ ":" ++ name ++ ":" ++ stage

def prepareKey (call : ToolCall) (ordinal : Nat) : String :=
  effectKey turnId (call.id ++ ":" ++ toString ordinal) "prepare"

def startKey (call : ToolCall) (ordinal : Nat) : String := effectKey turnId (call.id ++ ":" ++ toString ordinal) "start"

def permissionKey (requestId : String) : String :=
  turnId.toString ++ ":" ++ "permission" ++ ":" ++ requestId ++ ":" ++ "allow"

end SourceKeys

section Cards

variable (E : Redactor) (host : Host)

def roundCard (turnId : TurnId) (message : Option String) (calls : List ToolCall) (firstId : String) : Card :=
  ⟨.assistant, E.redactSessionText (message.getD ""),
    some (E.redactSessionValue (.ofMembers [("tool_calls", toolCallsValue calls)])), roundKey turnId firstId⟩

def preparedCard (descriptor : SessionEffectDescriptor) (sourceKey : String) : Card :=
  ⟨.toolCall, E.redactSessionText (host.permissionSummary descriptor), some (E.redactSessionValue (.ofMembers
    [("descriptor", { descriptor with input := E.redactSessionValue descriptor.input }.toJson),
      ("operation_digest", .string (host.operationDigest descriptor))])), cardKey sourceKey⟩

def startedCard (effectId sourceKey : String) : Card :=
  ⟨.system, "tool started", some (.ofMembers [("effect_id", .string (E.redactSessionText effectId)),
    ("status", .string "started")]), cardKey sourceKey⟩

def allowedCard (sourceKey : String) : Card := ⟨.system, "permission allowed", none, cardKey sourceKey⟩

/-- The members a tool reports about its own call. -/
def toolPayload (descriptor : SessionEffectDescriptor) (members : List (String × Json)) : Json :=
  .ofMembers ([("tool_call_id", .string descriptor.toolCallId), ("name", .string descriptor.name)] ++ members)

/-- The payload of a delivered result: the provider content and the presented identity, over the tool's own. -/
def withProviderContent (content toolCallId name : String) : Json → Json
  | .object fields => .object (((fields.insert "provider_content" (.string content)).insert "tool_call_id"
      (.string toolCallId)).insert "name" (.string name))
  | other => other

/-- The key suffix, result text and payload of an observation; an uncertain outcome has none. -/
def observation (descriptor : SessionEffectDescriptor) : Execution → Option (String × String × Json)
  | .finished output truncated =>
      let members := ("output", output) :: (truncated.map fun flag => ("truncated", Json.bool flag)).toList
      some ("observe", host.render output, withProviderContent (host.render output)
        (E.redactSessionText descriptor.toolCallId) (E.redactSessionText descriptor.name)
        (E.redactSessionValue (toolPayload descriptor members)))
  | .failed error =>
      let result := host.render (.ofMembers [("error", .string error)])
      some ("observe", result, withProviderContent result (E.redactSessionText descriptor.toolCallId)
        (E.redactSessionText descriptor.name) (toolPayload descriptor [("error", .string error)]))
  | .certified error =>
      some ("observe-failed", host.render (.ofMembers [("error", .string error)]),
        .ofMembers [("tool_call_id", .string (E.redactSessionText descriptor.toolCallId)),
          ("name", .string (E.redactSessionText descriptor.name)), ("error", .string error)])
  | .uncertain => none

def observedCard (result : String) (payload : Json) (sourceKey : String) : Card :=
  ⟨.toolResult, E.redactSessionText result, some (E.redactSessionValue payload), cardKey sourceKey⟩

end Cards

/-- The round, its calls and the place of the call in them, from the newest assistant card that has it. -/
def toolRoundForCall (entries : List TranscriptEntry) (toolCallId : String) : Option (Nat × List ToolCall × Nat) :=
  (entries.reverse.filter fun entry => entry.kind = .assistant).findSome? fun entry =>
    ((entry.payload.bind (Json.get? "tool_calls")).bind toolCallsFromValue).bind fun calls =>
      (calls.findIdx? fun call => call.id = toolCallId).map fun ordinal => (entry.sequence, calls, ordinal)

def resultCallId (entry : TranscriptEntry) : Option String :=
  (entry.payload.bind (Json.get? "tool_call_id")).bind Json.asStr

/-- The provider content of the newest result under this id. -/
def effectProviderResult (entries : List TranscriptEntry) (toolCallId : String) : Option String :=
  (entries.reverse.find? fun entry => entry.kind = .toolResult && resultCallId entry = some toolCallId).bind fun entry =>
    (entry.payload.bind (Json.get? "provider_content")).bind Json.asStr

/-- Why a batch ends before its last call is done. -/
inductive Stop where
  /-- A commit under this source key fails. -/
  | refused (sourceKey : String) (error : StorageError)
  /-- The outcome of a started effect is uncertain, and the turn goes to reconciliation. -/
  | uncertain
  /-- "missing observed tool result". -/
  | missingResult
  /-- No prepared effect has the id of the approved request. -/
  | unknownRequest
  /-- "prepared tool call has no durable provider round continuation". -/
  | noContinuation
  /-- The provider or the repository context of the resumed turn is not there. -/
  | notRebuilt

/-- What is left of a batch: the calls in hand, and the ordinal of the first. -/
structure Batch (State : Type) where
  state : State
  roundSequence : Nat
  ordinal : Nat
  calls : List ToolCall

/-- One call handed over: the observed result, and the content of the message pushed for it. -/
structure Handed where
  descriptor : SessionEffectDescriptor
  observed : Option String
  content : Option String

section Runner

variable {State : Type} (E : Redactor) (host : Host) (J : Journal State) (turnId : TurnId)

def commitCard (state : State) (sourceKey : String) (card : Card) : Except Stop State :=
  (J.commit state sourceKey card).mapError (.refused sourceKey)

/-- `execute_and_observe_effect` of the effect at this ordinal, with the observed result. -/
def executeAndObserve (state : State) (descriptor : SessionEffectDescriptor) (ordinal : Nat) :
    Except Stop (String × State) := do
  let (suffix, result, payload) ← require (observation E host descriptor (host.execute ordinal descriptor.call)) .uncertain
  let sourceKey := effectKey turnId (E.redactSessionText descriptor.effectId) suffix
  let observed ← commitCard J state sourceKey (observedCard E result payload sourceKey)
  .ok (result, observed)

/-- The rest of an iteration under an `Allow` policy. -/
def runAllowed (batch : Batch State) (descriptor : SessionEffectDescriptor) (call : ToolCall) (rest : List ToolCall)
    (prepared : State) : Except Stop (Handed × Batch State) := do
  let sourceKey := startKey turnId call batch.ordinal
  let started ← commitCard J prepared sourceKey (startedCard E descriptor.effectId sourceKey)
  let (result, observed) ← executeAndObserve E host J turnId started descriptor batch.ordinal
  let content ← require (effectProviderResult (J.window observed) call.id) .missingResult
  .ok (⟨descriptor, some result, some content⟩, ⟨observed, batch.roundSequence, batch.ordinal + 1, rest⟩)

/-- The approval of a parked call. The pending request carries the redacted effect id, the engine finds the
descriptor by that id, and the calls that are left come from the transcript: nothing of the parked run is in hand. -/
def resolvePermission (descriptor : SessionEffectDescriptor) (ordinal : Nat) (parked : State) :
    Except Stop (Handed × Batch State) := do
  let requestId := E.redactSessionText descriptor.effectId
  ensure (requestId = descriptor.effectId) .unknownRequest
  let resolved ← commitCard J parked (permissionKey turnId requestId) (allowedCard (permissionKey turnId requestId))
  let sourceKey := effectKey turnId requestId "start"
  let started ← commitCard J resolved sourceKey (startedCard E requestId sourceKey)
  let (roundSequence, calls, place) ← require
    (toolRoundForCall (J.window resolved) (E.redactSessionText descriptor.toolCallId)) .noContinuation
  let (result, observed) ← executeAndObserve E host J turnId started descriptor ordinal
  ensure (host.rebuilds ordinal = true) .notRebuilt
  .ok (⟨descriptor, some result, none⟩, ⟨observed, roundSequence, place + 1, calls.drop (place + 1)⟩)

/-- One iteration of `execute_tool_batch`: the call goes to `prepare_session_effect`, and then on or not. -/
def handOver (batch : Batch State) (call : ToolCall) (rest : List ToolCall) : Except Stop (Handed × Batch State) := do
  let descriptor := descriptorOf turnId batch.roundSequence batch.ordinal call
  let sourceKey := prepareKey turnId call batch.ordinal
  let prepared ← commitCard J batch.state sourceKey (preparedCard E host descriptor sourceKey)
  match host.policy batch.ordinal call with
  | .allow => runAllowed E host J turnId batch descriptor call rest prepared
  | .ask => resolvePermission E host J turnId descriptor batch.ordinal prepared

/-- How far a batch has come. -/
inductive Progress (State : Type) where
  | running (batch : Batch State)
  | finished (state : State)
  | stopped (reason : Stop)

def Progress.over : Progress State → Bool
  | .running _ => false
  | _ => true

/-- The calls handed over in at most this many iterations, every pause approved. -/
def driveBatch : Nat → Batch State → List Handed × Progress State
  | 0, batch => ([], .running batch)
  | fuel + 1, batch =>
      match batch.calls with
      | [] => ([], .finished batch.state)
      | call :: rest =>
          match handOver E host J turnId batch call rest with
          | .error reason =>
              ([⟨descriptorOf turnId batch.roundSequence batch.ordinal call, none, none⟩], .stopped reason)
          | .ok (handed, next) => (handed :: (driveBatch fuel next).1, (driveBatch fuel next).2)

/-- The round card of a response with calls, and the batch that stands open after it. -/
def openRound (state : State) (message : Option String) (first : ToolCall) (later : List ToolCall) :
    Except Stop (Batch State) := do
  let sourceKey := roundKey turnId first.id
  let opened ← commitCard J state sourceKey (roundCard E turnId message (first :: later) first.id)
  .ok ⟨opened, J.sequence opened, 0, first :: later⟩

end Runner

end LatteCode.Headless
