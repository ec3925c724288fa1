import Axinite.Dispatcher.ToolExec
import Axinite.ThreadOps.Persistence

/-!
# Approval of a pending tool call

An approved call runs first.  The calls that the model made behind it were deferred
when the approval was requested; they run next, up to the first one that needs an
approval of its own.  Then the agentic loop continues with the collected context.

Main results:

- Theorem `parseAuthBarrier_agrees_iff`: the results that the loop and this flow read alike.
-/

namespace Axinite.Approval

open Json Llm Session Tools ThreadOps Dispatcher

inductive SubmissionResult where
  | response (content : String)
  | ok (message : Option String)
  | error (message : String)
  | needApproval (requestId : Uuid) (toolName description : String) (parameters : Value)
  | interrupted

/-- What the user decided about a pending call. -/
structure ApprovalParams where
  requestId : Option Uuid
  approved : Bool
  always : Bool

/-- Answers of the outside world to an approved call and to the deferred calls. -/
structure ApprovalEnv where
  primary : PendingApproval → ToolResult
  out : Outside

/-- Extension and instructions, if a tool result asks for an authentication. -/
def checkAuthRequired (serde : SerdeJson) (toolName : String) (result : ToolResult) :
    Option (String × String) :=
  if toolName ≠ "tool_auth" ∧ toolName ≠ "tool_activate" then none
  else
    match result with
    | .error _ => none
    | .ok output => do
      let parsed ← serde.fromStr output
      let awaitingToken : Bool := parsed.get "awaiting_token" = some (.bool true) ||
        (parsed.get "type").bind Value.asStr = some "awaiting_token"
      if !awaitingToken then none
      else
        some (((parsed.get "name").bind Value.asStr).getD toolName,
          ((parsed.get "instructions").bind Value.asStr).getD
            "Please provide your API token/key.")

/-- The URLs of an authentication request. -/
structure ParsedAuthData where
  authUrl : Option String
  setupUrl : Option String

def parseAuthResult (serde : SerdeJson) (result : ToolResult) : ParsedAuthData :=
  let parsed := result.toOption.bind serde.fromStr
  { authUrl := (parsed.bind (·.get "auth_url")).bind Value.asStr
    setupUrl := (parsed.bind (·.get "setup_url")).bind Value.asStr }

/-- A result that awaits a token says so in its flag, and names the extension. -/
def NamesExtension (serde : SerdeJson) (toolName : String) (result : ToolResult) : Prop :=
  isAuthBarrierTool toolName = true → ∀ parsed ∈ result.toOption.bind serde.fromStr,
    parsed.get "awaiting_token" = some (.bool true) ∨
      (parsed.get "type").bind Value.asStr = some "awaiting_token" →
    parsed.get "awaiting_token" = some (.bool true) ∧ (parsed.get "name").bind Value.asStr ≠ none

/-- The two readers of a tool result agree on whether it awaits a token and on what it says. -/
theorem parseAuthBarrier_agrees_iff (serde : SerdeJson) (toolName : String) (result : ToolResult) :
    parseAuthBarrier serde toolName result =
        (checkAuthRequired serde toolName result).map (fun required =>
          { extensionName := required.1
            instructions := required.2
            authUrl := (parseAuthResult serde result).authUrl
            setupUrl := (parseAuthResult serde result).setupUrl }) ↔
      NamesExtension serde toolName result := by
  have hnames : ¬(toolName ≠ "tool_auth" ∧ toolName ≠ "tool_activate") ↔
      isAuthBarrierTool toolName = true := by
    simp [isAuthBarrierTool, or_iff_not_imp_left]
  by_cases htool : isAuthBarrierTool toolName = true
  · unfold parseAuthBarrier checkAuthRequired NamesExtension
    rw [if_neg (hnames.2 htool), htool]
    cases result with
    | error e => simp [Except.toOption]
    | ok output =>
      cases hparsed : serde.fromStr output with
      | none => simp [hparsed, Except.toOption]
      | some parsed =>
        by_cases hflag : parsed.get "awaiting_token" = some (.bool true)
        · cases hvalue : parsed.get "name" with
          | none => simp [hparsed, hflag, hvalue, Except.toOption]
          | some value =>
            cases hname : value.asStr with
            | none => simp [hparsed, hflag, hvalue, hname, Except.toOption]
            | some name => simp [hparsed, hflag, hvalue, hname, parseAuthResult, Except.toOption]
        · by_cases htype : (parsed.get "type").bind Value.asStr = some "awaiting_token"
          · simp [hparsed, hflag, Except.toOption]
          · simp [hparsed, hflag, Except.toOption]
  · unfold parseAuthBarrier checkAuthRequired NamesExtension
    simp [if_pos (not_not.1 (mt hnames.1 _)), htool]

/-- The type `awaiting_token` is known to one of the readers only. -/
theorem awaiting_type_overlooked :
    let serde := SerdeJson.knowing (.object [("type", .string "awaiting_token")]) "t"
    parseAuthBarrier serde "tool_auth" (.ok "t") = none ∧
      checkAuthRequired serde "tool_auth" (.ok "t") =
        some ("tool_auth", "Please provide your API token/key.") :=
  ⟨rfl, rfl⟩

/-- Complete the turn with the instructions of an authentication request.  The tool
calls of the very first turn are not persisted here. -/
def handleAuthIntercept (serde : SerdeJson) (extName instructions : String)
    (pending : Option PendingApproval) : Handler Unit := do
  let turn ← perform (.interceptAuth instructions pending extName)
  if turn.1 ≠ 0 then persistToolCalls serde turn.1 turn.2
  persistAssistantResponse instructions

/-! ## Deferred calls: preflight -/

/-- Classification of one deferred call. -/
inductive DeferredPreflight where
  | rejected (tc : ToolCall) (msg : String)
  | needsApproval (idx : Nat) (tc : ToolCall) (tool : Tool)
  | runnable (tc : ToolCall)

/-- The hook before a deferred call is that before any other call. -/
def runBeforeToolCallHookForDeferred (agent : Agent) (out : Outside) (idx : Nat)
    (sensitive : List String) (tc : ToolCall) : Option String × ToolCall :=
  runBeforeToolCallHook agent out idx sensitive tc

/-- The tool of a deferred call, if the call needs approval. -/
def approvalRequiredDeferredTool (out : Outside) (autoApproved : List String) (tc : ToolCall) :
    Option Tool := do
  let tool ← out.tools tc.name
  let needsApproval :=
    match tool.requiresApproval tc.arguments with
    | .never => false
    | .unlessAutoApproved => !autoApproved.contains tc.name
    | .always => true
  if needsApproval then some tool else none

/-- Offer a deferred call to the hooks and decide whether it may run. -/
def classifyDeferredToolCall (agent : Agent) (out : Outside) (autoApproved : List String)
    (idx : Nat) (originalTc : ToolCall) : DeferredPreflight :=
  let toolOpt := out.tools originalTc.name
  let sensitive := (toolOpt.map Tool.sensitiveParams).getD []
  match runBeforeToolCallHookForDeferred agent out idx sensitive originalTc with
  | (some msg, tc) => .rejected tc msg
  | (none, tc) =>
    match approvalRequiredDeferredTool out autoApproved tc with
    | some tool => .needsApproval idx tc tool
    | none => .runnable tc

/-- Preflighted deferred calls, the runnable ones among them, and the call that needs
approval. -/
structure DeferredBatch where
  preflight : List (ToolCall × PreflightOutcome)
  runnable : List ToolCall
  approvalNeeded : Option (Nat × ToolCall × Tool)

/-- Preflight deferred calls from position `idx` on, up to the first one that needs
approval. -/
def preflightFrom (agent : Agent) (out : Outside) (autoApproved : List String) :
    Nat → List ToolCall → DeferredBatch
  | _, [] => { preflight := [], runnable := [], approvalNeeded := none }
  | idx, originalTc :: rest =>
    match classifyDeferredToolCall agent out autoApproved idx originalTc with
    | .rejected tc msg =>
      let batch := preflightFrom agent out autoApproved (idx + 1) rest
      { batch with preflight := (tc, .rejected msg) :: batch.preflight }
    | .needsApproval idx tc tool =>
      { preflight := [], runnable := [], approvalNeeded := some (idx, tc, tool) }
    | .runnable tc =>
      let batch := preflightFrom agent out autoApproved (idx + 1) rest
      { batch with
        preflight := (tc, .runnable) :: batch.preflight
        runnable := tc :: batch.runnable }

/-- Preflight the deferred calls; the automatic approvals are read once. -/
def preflightDeferredTools (agent : Agent) (out : Outside) (deferred : List ToolCall) :
    Handler DeferredBatch := do
  let autoApproved ← perform .readAutoApproved
  pure (preflightFrom agent out autoApproved 0 deferred)

/-! ## Deferred calls: execution -/

/-- Run deferred calls one after the other. -/
def runDeferredInline (out : Outside) (runnable : List ToolCall) : List (ToolCall × ToolResult) :=
  runnable.mapIdx fun i tc => (tc, out.execute i tc)

/-- Run deferred calls as parallel tasks; a task that panicked leaves an error. -/
def runDeferredParallel (out : Outside) (runnable : List ToolCall) :
    List (ToolCall × ToolResult) :=
  runnable.mapIdx fun i tc =>
    if out.panicked i then
      (tc, .error (executionFailed tc.name "Task failed during execution"))
    else (tc, out.execute i tc)

def executeRunnableDeferred (out : Outside) (runnable : List ToolCall) :
    List (ToolCall × ToolResult) :=
  if runnable.isEmpty then []
  else if runnable.length = 1 then runDeferredInline out runnable
  else runDeferredParallel out runnable

/-! ## Deferred calls: postflight -/

/-- The tool result is an error. -/
def isError : ToolResult → Bool
  | .error _ => true
  | .ok _ => false

/-- Record the rejection of a deferred call and push it onto the context. -/
def recordToolErrorAndPush (tc : ToolCall) (errorMsg : String) (contextMessages : List ChatMessage) :
    Handler (List ChatMessage) := do
  perform (.recordLastOutcome errorMsg true)
  pure (contextMessages ++ [.toolResult tc.id tc.name errorMsg])

/-- The approval that stands for a deferred call which asks for an authentication. -/
def freshPending (pending : PendingApproval) (tc : ToolCall)
    (contextMessages : List ChatMessage) : PendingApproval where
  requestId := pending.requestId
  toolName := tc.name
  parameters := tc.arguments
  displayParameters := redactParams tc.arguments []
  description := "Authenticate to continue with " ++ tc.name
  toolCallId := tc.id
  contextMessages := contextMessages
  deferredToolCalls := []
  userTimezone := pending.userTimezone

/-- Record the outcomes of the deferred calls.  The first authentication request is
answered when all outcomes are recorded. -/
def postflightRecordAndMaybeDeferredAuth (agent : Agent) (pending : PendingApproval) :
    List (ToolCall × PreflightOutcome) → List (ToolCall × ToolResult) → Option String →
      List ChatMessage → Handler (Option String × List ChatMessage)
  | [], _, deferredAuth, contextMessages => pure (deferredAuth, contextMessages)
  | (tc, .rejected errorMsg) :: rest, execResults, deferredAuth, contextMessages => do
    let contextMessages ← recordToolErrorAndPush tc errorMsg contextMessages
    postflightRecordAndMaybeDeferredAuth agent pending rest execResults deferredAuth
      contextMessages
  | (tc, .runnable) :: rest, execResults, deferredAuth, contextMessages => do
    let deferredResult := (execResults.head?.map Prod.snd).getD
      (.error (executionFailed tc.name "No result available"))
    let deferredContent := (agent.processToolResult tc.name tc.id deferredResult).1
    perform (.recordLastOutcome deferredContent (isError deferredResult))
    let deferredAuth ←
      match deferredAuth, checkAuthRequired agent.serde tc.name deferredResult with
      | none, some (extName, instructions) => do
        handleAuthIntercept agent.serde extName instructions
          (some (freshPending pending tc contextMessages))
        pure (some instructions)
      | deferredAuth, _ => pure deferredAuth
    postflightRecordAndMaybeDeferredAuth agent pending rest execResults.tail deferredAuth
      (contextMessages ++ [.toolResult tc.id tc.name deferredContent])

/-! ## The flow of an approval -/

/-- Ask for the approval of a deferred call. -/
def enterDeferredApproval (approvalIdx : Nat) (tc : ToolCall) (tool : Tool)
    (deferredToolCalls : List ToolCall) (contextMessages : List ChatMessage)
    (pending : PendingApproval) : Handler SubmissionResult := do
  let requestId ← perform .freshUuid
  let newPending : PendingApproval := {
    requestId := requestId
    toolName := tc.name
    parameters := tc.arguments
    displayParameters := redactParams tc.arguments tool.sensitiveParams
    description := tool.description
    toolCallId := tc.id
    contextMessages := contextMessages
    deferredToolCalls := deferredToolCalls.drop (approvalIdx + 1)
    userTimezone := pending.userTimezone }
  perform (.awaitApproval newPending)
  pure (.needApproval newPending.requestId newPending.toolName newPending.description
    newPending.displayParameters)

/-- What follows once the deferred calls are recorded: a token is asked for, a call waits for
its approval, or the context is complete. -/
def finishDeferredTools (pending : PendingApproval) (deferredToolCalls : List ToolCall)
    (approvalNeeded : Option (Nat × ToolCall × Tool)) :
    Option String × List ChatMessage → Handler (List ChatMessage × Option SubmissionResult)
  | (some instructions, contextMessages) => pure (contextMessages, some (.response instructions))
  | (none, contextMessages) =>
    match approvalNeeded with
    | some (idx, tc, tool) => do
      let result ← enterDeferredApproval idx tc tool deferredToolCalls contextMessages pending
      pure (contextMessages, some result)
    | none => pure (contextMessages, none)

/-- Preflight, run and record the deferred calls. -/
def handleDeferredToolsFlow (agent : Agent) (out : Outside) (pending : PendingApproval)
    (contextMessages : List ChatMessage) (deferredToolCalls : List ToolCall) :
    Handler (List ChatMessage × Option SubmissionResult) := do
  let batch ← preflightDeferredTools agent out deferredToolCalls
  let execResults := executeRunnableDeferred out batch.runnable
  let posted ← postflightRecordAndMaybeDeferredAuth agent pending batch.preflight execResults none
    contextMessages
  finishDeferredTools pending deferredToolCalls batch.approvalNeeded posted

/-- Put the approval back if the decision names another request. -/
def restageOnRequestIdMismatch (provided : Option Uuid) (pending : PendingApproval) :
    Handler (Option SubmissionResult) :=
  match provided with
  | some reqId =>
    if reqId ≠ pending.requestId then do
      perform (.awaitApproval pending)
      pure (some (.error "Request ID mismatch. Use the correct request ID."))
    else pure none
  | none => pure none

/-- The response to a rejection. -/
def rejectionText (pending : PendingApproval) : String :=
  "Tool '" ++ pending.toolName ++
    "' was rejected. The agent will not execute this tool.\n\n" ++
    "You can continue the conversation or try a different approach."

/-- Complete the turn of a rejected call. -/
def completeRejectionAndPersist (pending : PendingApproval) : Handler SubmissionResult := do
  let rejection := rejectionText pending
  perform (.completeRejection rejection)
  persistAssistantResponse rejection
  pure (.response rejection)

/-- Approve the tool for the rest of the session. -/
def autoApproveIfAlways (always : Bool) (toolName : String) : Handler Unit :=
  if always then perform (.autoApproveTool toolName) else pure ()

/-- Record the result of the approved call; answers the recorded content. -/
def recordSanitizedPrimaryResult (agent : Agent) (pending : PendingApproval)
    (toolResult : ToolResult) : Handler String := do
  let resultContent := (agent.processToolResult pending.toolName pending.toolCallId toolResult).1
  perform (.recordLastOutcome resultContent (isError toolResult))
  pure resultContent

/-- Enter auth mode if the approved call asks for it; the approval is kept. -/
def maybeAuthInterceptAfterPrimary (serde : SerdeJson) (pending : PendingApproval)
    (toolResult : ToolResult) : Handler (Option SubmissionResult) :=
  match checkAuthRequired serde pending.toolName toolResult with
  | some (extName, instructions) => do
    handleAuthIntercept serde extName instructions (some pending)
    pure (some (.response instructions))
  | none => pure none

/-- How far an approval got: it is settled, or the agentic loop continues with a context. -/
inductive ApprovalProgress where
  | finished (result : SubmissionResult)
  | continueLoop (contextMessages : List ChatMessage)

/-- The deferred calls have a result of their own, or the agentic loop continues. -/
def ApprovalProgress.ofFlow : List ChatMessage × Option SubmissionResult → ApprovalProgress
  | (_, some result) => .finished result
  | (contextMessages, none) => .continueLoop contextMessages

/-- Run an approved call and the calls deferred behind it. -/
def runApprovedTool (agent : Agent) (env : ApprovalEnv) (always : Bool)
    (pending : PendingApproval) : Handler ApprovalProgress := do
  autoApproveIfAlways always pending.toolName
  perform (.executePrimary pending.requestId)
  let toolResult := env.primary pending
  let resultContent ← recordSanitizedPrimaryResult agent pending toolResult
  let intercepted ← maybeAuthInterceptAfterPrimary agent.serde pending toolResult
  match intercepted with
  | some result => pure (.finished result)
  | none => do
    let contextMessages := pending.contextMessages ++
      [.toolResult pending.toolCallId pending.toolName resultContent]
    let flow ← handleDeferredToolsFlow agent env.out pending contextMessages
      pending.deferredToolCalls
    pure (.ofFlow flow)

/-- Process the decision about a pending call, up to the agentic loop. -/
def decideApproval (agent : Agent) (env : ApprovalEnv) (params : ApprovalParams) :
    Handler ApprovalProgress := do
  let taken ← perform .takePendingApprovalIfAwaiting
  match taken with
  | none => pure (.finished (.ok (some "")))
  | some pending => do
    let mismatch ← restageOnRequestIdMismatch params.requestId pending
    match mismatch with
    | some result => pure (.finished result)
    | none =>
      if !params.approved then do
        let result ← completeRejectionAndPersist pending
        pure (.finished result)
      else runApprovedTool agent env params.always pending

end Axinite.Approval
