import Axinite.Json

/-!
# Conversation messages

Roles, content parts, tool calls and chat messages as they are sent to a language
model provider, with the constructors the agent uses.

Main results:

- Theorem `assistantWithToolCalls_toolCalls_cons`: a nonempty batch is declared
  by its assistant message.
-/

namespace Axinite.Llm

open Json

/-- Speaker of a message. -/
inductive Role where
  | system
  | user
  | assistant
  | tool
  deriving DecidableEq, Repr

/-- Reference to an image. -/
structure ImageUrl where
  url : String
  detail : Option String
  deriving DecidableEq, Repr

/-- One part of a multimodal message. -/
inductive ContentPart where
  | text (text : String)
  | imageUrl (imageUrl : ImageUrl)
  deriving DecidableEq, Repr

/-- A tool call requested by the model. -/
structure ToolCall where
  id : String
  name : String
  arguments : Value
  deriving DecidableEq, Repr

/-- A message of a conversation. -/
structure ChatMessage where
  role : Role
  content : String
  contentParts : List ContentPart
  toolCallId : Option String
  name : Option String
  toolCalls : Option (List ToolCall)
  deriving DecidableEq, Repr

namespace ChatMessage

/-- A message with no parts and no tool linkage. -/
def plain (role : Role) (content : String) : ChatMessage where
  role := role
  content := content
  contentParts := []
  toolCallId := none
  name := none
  toolCalls := none

def system (content : String) : ChatMessage :=
  plain .system content

def user (content : String) : ChatMessage :=
  plain .user content

/-- A user message with image parts. -/
def userWithParts (content : String) (parts : List ContentPart) : ChatMessage :=
  { plain .user content with contentParts := parts }

/-- A plain assistant message. -/
def assistant (content : String) : ChatMessage :=
  plain .assistant content

/-- An assistant message that declares tool calls; an empty batch is not declared. -/
def assistantWithToolCalls (content : Option String) (toolCalls : List ToolCall) :
    ChatMessage :=
  { plain .assistant (content.getD "") with
    toolCalls := if toolCalls.isEmpty then none else some toolCalls }

/-- The message that carries the result of a tool call. -/
def toolResult (toolCallId name content : String) : ChatMessage :=
  { plain .tool content with toolCallId := some toolCallId, name := some name }

@[simp]
theorem user_role (content : String) : (user content).role = .user :=
  rfl

@[simp]
theorem assistant_role (content : String) : (assistant content).role = .assistant :=
  rfl

@[simp]
theorem assistantWithToolCalls_role (content : Option String) (calls : List ToolCall) :
    (assistantWithToolCalls content calls).role = .assistant :=
  rfl

@[simp]
theorem assistantWithToolCalls_toolCalls_cons (content : Option String) (call : ToolCall)
    (calls : List ToolCall) :
    (assistantWithToolCalls content (call :: calls)).toolCalls = some (call :: calls) :=
  rfl

@[simp]
theorem toolResult_role (id name content : String) : (toolResult id name content).role = .tool :=
  rfl

@[simp]
theorem toolResult_content (id name content : String) :
    (toolResult id name content).content = content :=
  rfl

@[simp]
theorem toolResult_toolCallId (id name content : String) :
    (toolResult id name content).toolCallId = some id :=
  rfl

end ChatMessage

end Axinite.Llm
