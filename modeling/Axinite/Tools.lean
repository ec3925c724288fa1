import Axinite.Llm.Messages

/-!
# Tools, hooks and the safety layer as the agent sees them

The agent consults a tool registry, a chain of hooks and a safety layer, and it
runs tools.  What these parties answer is not the agent's business, so their
answers are fields of two records: `Agent` holds what is fixed for a run, and
`Outside` holds what the outside world answers during one batch of tool calls.

Main results:

- Theorem `runBeforeToolCallHook_id`: a hook can only change the arguments of a call.
-/

namespace Axinite.Tools

open Json Llm

/-- Whether a call of a tool needs the approval of the user. -/
inductive ApprovalRequirement where
  | never
  | unlessAutoApproved
  | always
  deriving DecidableEq, Repr

/-- The call needs an approval that no automatic approval replaces. -/
def ApprovalRequirement.isRequired : ApprovalRequirement → Bool
  | never => false
  | _ => true

/-- What an autonomous job may run without a user: tools that always need an approval only
if they are listed. -/
inductive ApprovalContext where
  | autonomous (allowedTools : List String)

namespace ApprovalContext

/-- A call of a tool is blocked in this context. -/
def isBlocked (toolName : String) (requirement : ApprovalRequirement) : ApprovalContext → Bool
  | autonomous allowedTools =>
    match requirement with
    | .never => false
    | .unlessAutoApproved => false
    | .always => toolName ∉ allowedTools

/-- A call of a tool is blocked; without a context all calls that need an approval are. -/
def isBlockedOrDefault (context : Option ApprovalContext) (toolName : String)
    (requirement : ApprovalRequirement) : Bool :=
  match context with
  | some ctx => ctx.isBlocked toolName requirement
  | none => requirement.isRequired

end ApprovalContext

/-- Errors that a tool reports about its input. -/
inductive ToolError where
  | invalidParameters (message : String)
  | notAuthorized (message : String)
  deriving DecidableEq

/-- What the agent asks a registered tool about. -/
structure Tool where
  sensitiveParams : List String
  description : String
  requiresApproval : Value → ApprovalRequirement

/-- The output of a tool, or the text of the error it failed with. -/
abbrev ToolResult := Except String String

/-- Text of the error for a tool that failed. -/
def executionFailed (name reason : String) : String :=
  "Tool error: Tool " ++ name ++ " execution failed: " ++ reason

/-- Replace the values of sensitive keys. -/
def redactParams (params : Value) (sensitive : List String) : Value :=
  if sensitive.isEmpty then params
  else
    match params with
    | .object fields =>
      .object (sensitive.foldl
        (fun obj key =>
          if (Map.get key obj).isSome then Map.insert key (.string "[REDACTED]") obj else obj)
        fields)
    | other => other

/-! ## Hooks -/

/-- Events that are offered to the hooks. -/
inductive HookEvent where
  | toolCall (toolName : String) (parameters : Value) (userId context : String)
  | responseTransform (userId threadId response : String)

/-- A failed hook run. -/
inductive HookError where
  | executionFailed (reason : String)
  | timeout (limit : String)
  | rejected (reason : String)

/-- Text of a hook error. -/
def HookError.display : HookError → String
  | executionFailed reason => "Hook execution failed: " ++ reason
  | timeout limit => "Hook timed out after " ++ limit
  | rejected reason => "Hook rejected: " ++ reason

/-- A successful hook run. -/
inductive HookOutcome where
  | continue (modified : Option String)
  | reject (reason : String)

/-! ## The agent and the outside world -/

structure SanitizedOutput where
  content : String
  wasModified : Bool

/-- What is fixed for a run of the agent. -/
structure Agent where
  serde : SerdeJson
  sanitizeToolOutput : String → String → SanitizedOutput
  autoApproveTools : Bool
  userId : String
  userTz : String

/-- Answers of the outside world during one batch of tool calls.  Hooks and tools
may answer the same question differently at different positions of the batch. -/
structure Outside where
  tools : String → Option Tool
  runHooks : Nat → HookEvent → Except HookError HookOutcome
  execute : Nat → ToolCall → ToolResult
  panicked : Nat → Bool

/-- Replace every occurrence of a character. -/
def replaceChar (c : Char) (text : String) (s : String) : String :=
  String.ofList (s.toList.flatMap fun x => if x = c then text.toList else [x])

/-- Escape a text for an XML attribute. -/
def escapeXmlAttr (s : String) : String :=
  replaceChar '>' "&gt;"
    (replaceChar '<' "&lt;" (replaceChar '"' "&quot;" (replaceChar '&' "&amp;" s)))

namespace Agent

/-- Wrap an output in safety delimiters. -/
def wrapForLlm (toolName content : String) (sanitized : Bool) : String :=
  "<tool_output name=\"" ++ escapeXmlAttr toolName ++ "\" sanitized=\"" ++ toString sanitized ++
    "\">\n" ++ content ++ "\n</tool_output>"

/-- Sanitize an output and wrap it. -/
def sanitizeOutput (agent : Agent) (toolName output : String) : String :=
  let sanitized := agent.sanitizeToolOutput toolName output
  wrapForLlm toolName sanitized.content sanitized.wasModified

/-- The content and the message a tool result becomes. -/
def processToolResult (agent : Agent) (toolName toolCallId : String) (result : ToolResult) :
    String × ChatMessage :=
  let content :=
    match result with
    | .ok output => agent.sanitizeOutput toolName output
    | .error e => agent.sanitizeOutput toolName ("Error: " ++ e)
  (content, .toolResult toolCallId toolName content)

end Agent

/-! ## The hook before a tool call -/

/-- Put the original values of sensitive keys back into modified parameters. -/
def restoreSensitiveFields (originalArgs : Value) (sensitive : List String)
    (obj : List (String × Value)) : List (String × Value) :=
  sensitive.foldl
    (fun obj key =>
      match originalArgs.get key with
      | some origVal => Map.insert key origVal obj
      | none => obj)
    obj

/-- Apply the parameters a hook returned; text that is not JSON is ignored. -/
def applyHookParamModification (serde : SerdeJson) (originalTc : ToolCall)
    (sensitive : List String) (newParams : String) (tc : ToolCall) : ToolCall :=
  match serde.fromStr newParams with
  | some (.object obj) =>
    { tc with
      arguments := .object (restoreSensitiveFields originalTc.arguments sensitive obj) }
  | some parsed => { tc with arguments := parsed }
  | none => tc

/-- Offer a call to the hooks: a rejection message, or the call as it may run. -/
def runBeforeToolCallHook (agent : Agent) (out : Outside) (idx : Nat) (sensitive : List String)
    (tc : ToolCall) : Option String × ToolCall :=
  let event := HookEvent.toolCall tc.name (redactParams tc.arguments sensitive) agent.userId "chat"
  match out.runHooks idx event with
  | .error (.rejected reason) => (some ("Tool call rejected by hook: " ++ reason), tc)
  | .error err => (some ("Tool call blocked by hook policy: " ++ err.display), tc)
  | .ok (.continue (some newParams)) =>
    (none, applyHookParamModification agent.serde tc sensitive newParams tc)
  | .ok _ => (none, tc)

theorem applyHookParamModification_id (serde : SerdeJson) (originalTc : ToolCall)
    (sensitive : List String) (newParams : String) (tc : ToolCall) :
    (applyHookParamModification serde originalTc sensitive newParams tc).id = tc.id ∧
      (applyHookParamModification serde originalTc sensitive newParams tc).name = tc.name := by
  unfold applyHookParamModification
  split <;> exact ⟨rfl, rfl⟩

/-- A hook can change the arguments of a call, but not its identity. -/
theorem runBeforeToolCallHook_id (agent : Agent) (out : Outside) (idx : Nat)
    (sensitive : List String) (tc : ToolCall) :
    (runBeforeToolCallHook agent out idx sensitive tc).2.id = tc.id ∧
      (runBeforeToolCallHook agent out idx sensitive tc).2.name = tc.name := by
  simp only [runBeforeToolCallHook]
  split
  · exact ⟨rfl, rfl⟩
  · exact ⟨rfl, rfl⟩
  · exact applyHookParamModification_id _ _ _ _ _
  · exact ⟨rfl, rfl⟩

/-! ## Missing approvals -/

/-- The tool asks for an approval that the session has not given in advance. -/
def Tool.AsksApproval (autoApproved : List String) (tool : Tool) (tc : ToolCall) : Prop :=
  tool.requiresApproval tc.arguments = .always ∨
    tool.requiresApproval tc.arguments = .unlessAutoApproved ∧ tc.name ∉ autoApproved

/-- The hooks let the call pass, and its tool asks for an approval that is missing. -/
def NeedsApproval (agent : Agent) (out : Outside) (autoApproved : List String) (idx : Nat)
    (tc : ToolCall) : Prop :=
  ∃ checked tool,
    runBeforeToolCallHook agent out idx (((out.tools tc.name).map Tool.sensitiveParams).getD []) tc =
        (none, checked) ∧
      out.tools tc.name = some tool ∧ tool.AsksApproval autoApproved checked

/-! ## Sample worlds -/

/-- An agent whose sanitizer leaves all outputs alone. -/
def plainAgent : Agent where
  serde := nullSerde
  sanitizeToolOutput := fun _ output => ⟨output, false⟩
  autoApproveTools := false
  userId := "user"
  userTz := "UTC"

/-- A world without hooks, in which every tool answers `output`. -/
def answering (output : String) : Outside where
  tools := fun _ => none
  runHooks := fun _ _ => .ok (.continue none)
  execute := fun _ _ => .ok output
  panicked := fun _ => false

/-- A world in which one tool needs approval and every tool answers `output`. -/
def guarded (toolName output : String) : Outside :=
  { answering output with
    tools := fun name =>
      if name = toolName then
        some { sensitiveParams := [], description := "", requiresApproval := fun _ => .always }
      else none }

end Axinite.Tools
