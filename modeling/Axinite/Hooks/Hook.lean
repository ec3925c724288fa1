import Axinite.Json

/-!
# Hooks

The points of the agent's life cycle to which hooks are attached, the events that hooks get to
see, and what a hook may answer.  A hook is represented by what the registry reads of it; its
answers are an assignment of replies to hooks and events.
-/

namespace Axinite.Hooks

open Json

/-- Points in the agent life cycle where hooks can be attached. -/
inductive HookPoint where
  | beforeInbound
  | beforeToolCall
  | beforeOutbound
  | onSessionStart
  | onSessionEnd
  | transformResponse
  deriving DecidableEq

/-- The data of a hook invocation. -/
inductive HookEvent where
  | inbound (userId channel content : String) (threadId : Option String)
  | toolCall (toolName : String) (parameters : Value) (userId context : String)
  | outbound (userId channel content : String) (threadId : Option String)
  | sessionStart (userId sessionId : String)
  | sessionEnd (userId sessionId : String)
  | responseTransform (userId threadId response : String)
  deriving DecidableEq

namespace HookEvent

/-- The point that the event belongs to. -/
def hookPoint : HookEvent → HookPoint
  | inbound .. => .beforeInbound
  | toolCall .. => .beforeToolCall
  | outbound .. => .beforeOutbound
  | sessionStart .. => .onSessionStart
  | sessionEnd .. => .onSessionEnd
  | responseTransform .. => .transformResponse

variable (serde : SerdeJson)

/-- Apply a modification to the primary content of the event. -/
def applyModification (event : HookEvent) (modified : String) : HookEvent :=
  match event with
  | inbound userId channel _ threadId => inbound userId channel modified threadId
  | outbound userId channel _ threadId => outbound userId channel modified threadId
  | toolCall toolName parameters userId context =>
    match serde.fromStr modified with
    | some parsed => toolCall toolName parsed userId context
    | none => toolCall toolName parameters userId context
  | responseTransform userId threadId _ => responseTransform userId threadId modified
  | sessionStart userId sessionId => sessionStart userId sessionId
  | sessionEnd userId sessionId => sessionEnd userId sessionId

/-- The primary content of the event. -/
def extractContent : HookEvent → String
  | inbound _ _ content _ => content
  | outbound _ _ content _ => content
  | toolCall _ parameters _ _ => serde.toString parameters
  | responseTransform _ _ response => response
  | sessionStart _ sessionId => sessionId
  | sessionEnd _ sessionId => sessionId

/-- The event has content that the modification can replace. -/
def Applicable (event : HookEvent) (modified : String) : Prop :=
  match event with
  | inbound .. | outbound .. | responseTransform .. => True
  | toolCall .. => (serde.fromStr modified).isSome
  | sessionStart .. | sessionEnd .. => False

variable {serde}

end HookEvent

/-- The result of executing a hook. -/
inductive HookOutcome where
  | continued (modified : Option String)
  | reject (reason : String)
  deriving DecidableEq

/-- Nothing is changed. -/
def HookOutcome.ok : HookOutcome :=
  .continued none

/-- The content is replaced. -/
def HookOutcome.modify (value : String) : HookOutcome :=
  .continued (some value)

/-- How execution failures are handled. -/
inductive HookFailureMode where
  | failOpen
  | failClosed
  deriving DecidableEq

/-- Errors of hooks and of the registry. -/
inductive HookError where
  | executionFailed (reason : String)
  | timeout (timeout : Nat)
  | rejected (reason : String)
  deriving DecidableEq

/-- The text of an error; how a duration is shown is left open. -/
def HookError.display (showDuration : Nat → String) : HookError → String
  | executionFailed reason => "Hook execution failed: " ++ reason
  | timeout limit => "Hook timed out after " ++ showDuration limit
  | rejected reason => "Hook rejected: " ++ reason

/-- What the registry reads of a hook. -/
structure Hook where
  name : String
  hookPoints : List HookPoint
  failureMode : HookFailureMode
  timeout : Nat
  deriving DecidableEq

/-- A hook finishes within its time, or the time elapses. -/
inductive Reply where
  | finished (result : Except HookError HookOutcome)
  | elapsed

end Axinite.Hooks
