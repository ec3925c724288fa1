import Axinite.Llm.Messages

/-!
# Requests to a language model provider

The requests, responses and errors that providers and their wrappers exchange.
-/

namespace Axinite.Llm

/-- Errors of a provider; the texts of the external error types stand for them. -/
inductive LlmError where
  | requestFailed (provider reason : String)
  | rateLimited (provider : String) (retryAfter : Option Nat)
  | invalidResponse (provider reason : String)
  | contextLengthExceeded (used limit : Nat)
  | modelNotAvailable (provider model : String)
  | authFailed (provider : String)
  | sessionExpired (provider : String)
  | sessionRenewalFailed (provider reason : String)
  | http (reason : String)
  | json (reason : String)
  | io (reason : String)
  deriving DecidableEq, Repr

/-- Request for a completion; the temperature is given by its bits. -/
structure CompletionRequest where
  messages : List ChatMessage
  stopSequences : Option (List String)
  model : Option String
  maxTokens : Option UInt32
  temperature : Option UInt32
  metadata : List (String × String)
  deriving DecidableEq, Repr

/-- Why the completion finished. -/
inductive FinishReason where
  | stop
  | length
  | toolUse
  | contentFilter
  | unknown
  deriving DecidableEq, Repr

structure CompletionResponse where
  content : String
  inputTokens : UInt32
  outputTokens : UInt32
  finishReason : FinishReason
  cacheReadInputTokens : UInt32
  cacheCreationInputTokens : UInt32
  deriving DecidableEq, Repr

structure ToolCompletionResponse where
  content : Option String
  toolCalls : List ToolCall
  inputTokens : UInt32
  outputTokens : UInt32
  finishReason : FinishReason
  cacheReadInputTokens : UInt32
  cacheCreationInputTokens : UInt32
  deriving DecidableEq, Repr

end Axinite.Llm
