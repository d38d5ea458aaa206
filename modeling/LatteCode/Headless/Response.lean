import LatteCode.Headless.Provider
/- What a provider answers: a response, or the error that ended the request. -/

namespace LatteCode.Headless

structure ProviderUsage where
  inputTokens : Option Nat
  outputTokens : Option Nat
  totalTokens : Option Nat
  cachedTokens : Option Nat
deriving DecidableEq

inductive FinishReason where
  | stop
  | toolCalls
  | length
  | contentFilter
  | other (reason : String)
deriving DecidableEq

structure InputRequest where
  id : String
  prompt : String
  secret : Bool
deriving DecidableEq

structure ProviderResponse where
  message : Option String
  toolCalls : List ToolCall
  inputRequest : Option InputRequest
  usage : ProviderUsage
  finishReason : Option FinishReason
  providerState : Option Json
deriving DecidableEq

inductive ProviderError where
  | cancelled
  | capability (message : String)
  | http (status : Nat) (requestId : String) (retryable : Bool)
  | contextOverflow (requestId : String)
  | timeout
  | transport (message : String)
  | malformed (message : String)
deriving DecidableEq

namespace ProviderError

def toString : ProviderError → String
  | cancelled => "provider request cancelled"
  | capability message => "provider capability unavailable: " ++ message
  | http status requestId _ => "provider rejected request: http " ++ ToString.toString status ++ requestId
  | contextOverflow requestId => "provider rejected request: context length exceeded" ++ requestId
  | timeout => "provider timeout"
  | transport message => "provider transport: " ++ message
  | malformed message => "malformed provider response: " ++ message

end ProviderError

def finishReason (reason : String) : FinishReason :=
  if reason = "stop" then .stop
  else if reason = "tool_calls" then .toolCalls
  else if reason = "length" then .length
  else if reason = "content_filter" then .contentFilter
  else .other reason

end LatteCode.Headless
