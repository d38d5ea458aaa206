import LatteCode.Core.Encode
import LatteCode.Core.Session
/- The provider request grammar: messages and the tool calls of an assistant. -/

namespace LatteCode.Headless

structure ToolCall where
  id : String
  name : String
  input : Json
deriving DecidableEq

inductive Message where
  | system (content : String)
  | user (content : String)
  | assistant (content : Option String) (toolCalls : List ToolCall)
  | tool (toolCallId : String) (name : Option String) (content : String)
deriving DecidableEq

def ToolCall.toJson (call : ToolCall) : Json :=
  .ofMembers [("id", .string call.id), ("name", .string call.name), ("input", call.input)]

/-- `json!(calls)`. -/
def toolCallsValue (calls : List ToolCall) : Json := .array (.ofList (calls.map ToolCall.toJson))

/-- Derived deserialization: an object with the three fields, or a sequence of exactly three. -/
def ToolCall.fromValue : Json → Option ToolCall
  | .object fields => do
      let id ← (fields.get? "id").bind Json.asStr
      let name ← (fields.get? "name").bind Json.asStr
      let input ← fields.get? "input"
      some ⟨id, name, input⟩
  | .array (.cons id (.cons name (.cons input .nil))) => do
      let id ← id.asStr
      let name ← name.asStr
      some ⟨id, name, input⟩
  | _ => none

/-- `serde_json::from_value::<Vec<ToolCall>>`. -/
def toolCallsFromValue (value : Json) : Option (List ToolCall) :=
  value.asArray.bind fun elements => elements.mapM ToolCall.fromValue

/-- The tool calls an assistant card declares; a malformed list declares none. -/
def declaredCalls (payload : Option Json) : List ToolCall :=
  ((payload.bind (Json.get? "tool_calls")).bind toolCallsFromValue).getD []

def Message.toJson : Message → Json
  | .system content => .ofMembers [("role", .string "system"), ("content", .string content)]
  | .user content => .ofMembers [("role", .string "user"), ("content", .string content)]
  | .assistant content calls => .ofMembers [("role", .string "assistant"), ("content", .ofText content),
      ("tool_calls", toolCallsValue calls)]
  | .tool id name content => .ofMembers ([("role", .string "tool"), ("tool_call_id", .string id),
      ("content", .string content)] ++ (name.map fun name => ("name", Json.string name)).toList)

/-- `serde_json::to_vec(messages)?.len()`. -/
def wireBytes (F : FloatFormat) (messages : List Message) : Nat :=
  (Json.array (.ofList (messages.map Message.toJson))).encodedBytes F

theorem ToolCall.fromValue_toJson (call : ToolCall) : ToolCall.fromValue call.toJson = some call := by
  have members : ∀ key, (Fields.insertAll [("id", Json.string call.id), ("name", .string call.name),
      ("input", call.input)] .nil).get? key = [("id", Json.string call.id), ("name", .string call.name),
      ("input", call.input)].reverse.lookup key := fun key => Json.get?_ofMembers _ key
  simp only [ToolCall.toJson, Json.ofMembers, ToolCall.fromValue, members]
  rfl

/-- What a provider response declares is what its card declares. -/
theorem toolCallsFromValue_toolCallsValue (calls : List ToolCall) :
    toolCallsFromValue (toolCallsValue calls) = some calls := by
  rw [toolCallsFromValue, toolCallsValue, Json.asArray, Elements.toList_ofList, Option.bind_some]
  induction calls with
  | nil => rfl
  | cons call calls ih =>
      rw [List.map_cons, List.mapM_cons, ToolCall.fromValue_toJson, ih]
      rfl

end LatteCode.Headless
