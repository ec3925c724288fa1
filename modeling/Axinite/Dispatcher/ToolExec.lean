import Axinite.ThreadOps.World

/-!
# Tool execution of the chat delegate

One round of tool calls runs in three phases.  Preflight offers every call to the
hooks and stops at the first call that needs approval.  Execution runs the calls
that may run, in batches.  Postflight records one outcome for each preflighted call
in the current turn and in the reasoning context.

Main results:

- Theorem `groupToolCalls_reads`: preflight only reads the shared state.
- Theorem `runPostflight_run`: what postflight writes into the turn and the context.
- Theorem `executeToolCalls_run`: the effect of a whole round.
-/

namespace Axinite.Dispatcher

open Json Llm Session Tools ThreadOps List

/-- Outcome of the preflight check of one tool call. -/
inductive PreflightOutcome where
  | rejected (errorMsg : String)
  | runnable

/-- Preflighted calls, and the runnable ones with their positions among them. -/
structure ToolBatch where
  preflight : List (ToolCall × PreflightOutcome)
  runnable : List (Nat × ToolCall)

/-- A call that needs approval, with its position in the original sequence. -/
structure ApprovalCandidate where
  idx : Nat
  toolCall : ToolCall
  tool : Tool

/-- Classification of one tool call. -/
inductive ToolCallOutcome where
  | rejected (errorMsg : String)
  | needsApproval (candidate : ApprovalCandidate)
  | runnable

/-- Final outcome of the agentic loop. -/
inductive LoopOutcome where
  | response (text : String)
  | stopped
  | maxIterations
  | needApproval (pending : PendingApproval)

/-! ## Preflight -/

/-- The tool asks for an approval that the session has not given in advance. -/
def toolRequiresApproval (tool : Tool) (tc : ToolCall) : Handler Bool :=
  match tool.requiresApproval tc.arguments with
  | .never => pure false
  | .always => pure true
  | .unlessAutoApproved => do
    let autoApproved ← perform .readAutoApproved
    pure (!autoApproved.contains tc.name)

/-- The tool of the call, if the call needs approval. -/
def approvalRequiredTool (agent : Agent) (toolOpt : Option Tool) (tc : ToolCall) :
    Handler (Option Tool) :=
  if agent.autoApproveTools then pure none
  else
    match toolOpt with
    | none => pure none
    | some tool => do
      let required ← toolRequiresApproval tool tc
      pure (if required then some tool else none)

/-- Offer a call to the hooks and decide whether it may run. -/
def classifyToolCall (agent : Agent) (out : Outside) (idx : Nat) (originalTc : ToolCall) :
    Handler (ToolCallOutcome × ToolCall) :=
  let toolOpt := out.tools originalTc.name
  let sensitive := (toolOpt.map Tool.sensitiveParams).getD []
  match runBeforeToolCallHook agent out idx sensitive originalTc with
  | (some rejectionMsg, tc) => pure (.rejected rejectionMsg, tc)
  | (none, tc) => do
    let needed ← approvalRequiredTool agent toolOpt tc
    match needed with
    | some tool => pure (.needsApproval { idx := idx, toolCall := tc, tool := tool }, tc)
    | none => pure (.runnable, tc)

/-- Group the calls of a round, up to the first one that needs approval. -/
def groupToolCalls (agent : Agent) (out : Outside) :
    Nat → List ToolCall → ToolBatch → Handler (ToolBatch × Option ApprovalCandidate)
  | _, [], batch => pure (batch, none)
  | idx, originalTc :: rest, batch => do
    let classified ← classifyToolCall agent out idx originalTc
    match classified with
    | (.rejected msg, tc) =>
      groupToolCalls agent out (idx + 1) rest
        { batch with preflight := batch.preflight ++ [(tc, .rejected msg)] }
    | (.needsApproval candidate, _) => pure (batch, some candidate)
    | (.runnable, tc) =>
      groupToolCalls agent out (idx + 1) rest
        { preflight := batch.preflight ++ [(tc, .runnable)]
          runnable := batch.runnable ++ [(batch.preflight.length, tc)] }

/-! ## Execution -/

/-- Tools whose answer may stop the batch for an authentication. -/
def isAuthBarrierTool (toolName : String) : Bool :=
  toolName = "tool_auth" || toolName = "tool_activate"

/-- What an authentication request says. -/
structure AuthBarrierData where
  extensionName : String
  instructions : String
  authUrl : Option String
  setupUrl : Option String

/-- Read an authentication request out of a tool result. -/
def parseAuthBarrier (serde : SerdeJson) (toolName : String) (result : ToolResult) :
    Option AuthBarrierData :=
  if !isAuthBarrierTool toolName then none
  else
    match result with
    | .error _ => none
    | .ok output => do
      let parsed ← serde.fromStr output
      if parsed.get "awaiting_token" ≠ some (.bool true) then none
      else
        let extensionName ← (← parsed.get "name").asStr
        let instructions :=
          ((parsed.get "instructions").bind Value.asStr).getD "Please provide your API token/key."
        some { extensionName, instructions, authUrl := (parsed.get "auth_url").bind Value.asStr
               setupUrl := (parsed.get "setup_url").bind Value.asStr }

/-- Results of the batch, one slot for each preflighted call. -/
abbrev ExecResults := List (Option ToolResult)

/-- Run calls one after the other. -/
def runToolBatchInline (out : Outside) (runnable : List (Nat × ToolCall))
    (execResults : ExecResults) : ExecResults :=
  runnable.foldl (fun results call => results.set call.1 (some (out.execute call.1 call.2)))
    execResults

/-- Run calls as parallel tasks and fill the slots of tasks that panicked.  Every task
writes its own slot, so the order in which they end does not matter. -/
def runToolBatchParallel (out : Outside) (runnable : List (Nat × ToolCall))
    (execResults : ExecResults) : ExecResults :=
  let joined := runnable.foldl
    (fun results call =>
      if out.panicked call.1 then results
      else results.set call.1 (some (out.execute call.1 call.2)))
    execResults
  runnable.foldl
    (fun results call =>
      if results[call.1]? = some none then
        results.set call.1
          (some (.error (executionFailed call.2.name "Task failed during execution")))
      else results)
    joined

/-- Run all runnable calls: authentication tools alone, the calls between them as one
batch.  An answered authentication request stops the execution. -/
def runPhase2 (agent : Agent) (out : Outside) (runnable : List (Nat × ToolCall))
    (execResults : ExecResults) : ExecResults :=
  match runnable with
  | [] => execResults
  | call :: rest =>
    if isAuthBarrierTool call.2.name then
      let execResults := runToolBatchInline out [call] execResults
      match execResults[call.1]? with
      | some (some result) =>
        if (parseAuthBarrier agent.serde call.2.name result).isSome then execResults
        else runPhase2 agent out rest execResults
      | _ => runPhase2 agent out rest execResults
    else
      let batch := call :: rest.takeWhile fun next => !isAuthBarrierTool next.2.name
      let execResults :=
        if batch.length ≤ 1 then runToolBatchInline out batch execResults
        else runToolBatchParallel out batch execResults
      runPhase2 agent out (rest.dropWhile fun next => !isAuthBarrierTool next.2.name) execResults
termination_by runnable.length
decreasing_by
  · simp
  · simp
  · exact Nat.lt_succ_of_le (dropWhile_sublist _).length_le

/-! ## Postflight -/

/-- The output of an image tool stands for a generated image. -/
def isImageSentinel (serde : SerdeJson) (toolName output : String) : Bool :=
  (toolName = "image_generate" || toolName = "image_edit") &&
    ((serde.fromStr output).bind fun sentinel =>
      (sentinel.get "type").bind Value.asStr) = some "image_generated"

/-- A short text that replaces the output of an image tool. -/
def imageSentinelSummary (serde : SerdeJson) (output : String) : Option String := do
  let sentinel ← serde.fromStr output
  let field (key : String) : Option String := (sentinel.get key).bind Value.asStr
  if field "type" ≠ some "image_generated" then none
  else
    let location :=
      match field "path", field "source_path" with
      | some path, _ => ["path=" ++ path]
      | none, some sourcePath => ["source=" ++ sourcePath]
      | none, none => []
    some (" ".intercalate
      (["[Image generated]"] ++ ((field "media_type").map ("type=" ++ ·)).toList ++
        ((field "size").map ("size=" ++ ·)).toList ++ location))

/-- Record an outcome in the turn and push it onto the context. -/
def foldIntoContext (pfIdx : Nat) (tc : ToolCall) (resultContent : String) (isToolError : Bool)
    (messages : List ChatMessage) : Handler (List ChatMessage) := do
  perform (.recordToolOutcome pfIdx resultContent isToolError)
  pure (messages ++ [.toolResult tc.id tc.name resultContent])

/-- Record the rejection of a call. -/
def handleRejectedTool (pfIdx : Nat) (tc : ToolCall) (errorMsg : String)
    (messages : List ChatMessage) : Handler (List ChatMessage) :=
  foldIntoContext pfIdx tc errorMsg true messages

/-- Enter auth mode if the result asks for a token. -/
def handleAuthBarrier (agent : Agent) (tc : ToolCall) (toolResult : ToolResult) :
    Handler (Option String) :=
  match parseAuthBarrier agent.serde tc.name toolResult with
  | none => pure none
  | some authBarrier => do
    perform (.enterAuthMode authBarrier.extensionName)
    pure (some authBarrier.instructions)

/-- What is recorded for the result of a call: the content and whether it is an error. -/
def runnableOutcome (agent : Agent) (tc : ToolCall) (toolResult : ToolResult) : String × Bool :=
  match toolResult with
  | .error e => (agent.sanitizeOutput tc.name ("Tool '" ++ tc.name ++ "' failed: " ++ e), true)
  | .ok output =>
    if isImageSentinel agent.serde tc.name output then
      let summary := (imageSentinelSummary agent.serde output).getD "[Image generated]"
      (agent.sanitizeOutput tc.name summary, false)
    else (agent.sanitizeOutput tc.name output, false)

/-- Process the result of one runnable call; answers authentication instructions. -/
def processRunnableTool (agent : Agent) (pfIdx : Nat) (tc : ToolCall) (toolResult : ToolResult)
    (messages : List ChatMessage) : Handler (Option String × List ChatMessage) := do
  let authInstructions ← handleAuthBarrier agent tc toolResult
  let outcome := runnableOutcome agent tc toolResult
  let messages ← foldIntoContext pfIdx tc outcome.1 outcome.2 messages
  pure (authInstructions, messages)

/-- The result of the call in slot `pfIdx`. -/
def resultAt (execResults : ExecResults) (pfIdx : Nat) (tc : ToolCall) : ToolResult :=
  (execResults[pfIdx]?.join).getD (.error (executionFailed tc.name "No result available"))

/-- Fold the outcomes of the preflighted calls into turn and context, in order.  An
authentication request stops the loop. -/
def runPostflight (agent : Agent) (execResults : ExecResults) :
    Nat → List (ToolCall × PreflightOutcome) → List ChatMessage →
      Handler (Option String × List ChatMessage)
  | _, [], messages => pure (none, messages)
  | pfIdx, (tc, .rejected errorMsg) :: rest, messages => do
    let messages ← handleRejectedTool pfIdx tc errorMsg messages
    runPostflight agent execResults (pfIdx + 1) rest messages
  | pfIdx, (tc, .runnable) :: rest, messages => do
    let toolResult := resultAt execResults pfIdx tc
    let processed ← processRunnableTool agent pfIdx tc toolResult messages
    match processed with
    | (some instructions, messages) => pure (some instructions, messages)
    | (none, messages) => runPostflight agent execResults (pfIdx + 1) rest messages

/-! ## The round -/

/-- The arguments of a call as they are recorded. -/
def redactSingleToolCall (out : Outside) (tc : ToolCall) : Value :=
  match out.tools tc.name with
  | some tool => redactParams tc.arguments tool.sensitiveParams
  | none => tc.arguments

/-- The approval request for a call; the calls after it are deferred. -/
def buildPendingApproval (agent : Agent) (candidate : ApprovalCandidate)
    (toolCalls : List ToolCall) (messages : List ChatMessage) : Handler PendingApproval := do
  let requestId ← perform .freshUuid
  pure {
    requestId := requestId
    toolName := candidate.toolCall.name
    parameters := candidate.toolCall.arguments
    displayParameters := redactParams candidate.toolCall.arguments candidate.tool.sensitiveParams
    description := candidate.tool.description
    toolCallId := candidate.toolCall.id
    contextMessages := messages
    deferredToolCalls := toolCalls.drop (candidate.idx + 1)
    userTimezone := some agent.userTz }

/-- The calls of a round that are declared to the model and recorded in the turn. -/
def effectiveToolCalls (batch : ToolBatch) (approvalNeeded : Option ApprovalCandidate) :
    List ToolCall :=
  batch.preflight.map Prod.fst ++ (approvalNeeded.map ApprovalCandidate.toolCall).toList

/-- Execute the tool calls of one assistant message. -/
def executeToolCalls (agent : Agent) (out : Outside) (toolCalls : List ToolCall)
    (content : Option String) (messages : List ChatMessage) :
    Handler (Option LoopOutcome × List ChatMessage) := do
  let grouped ← groupToolCalls agent out 0 toolCalls { preflight := [], runnable := [] }
  let batch := grouped.1
  let approvalNeeded := grouped.2
  let effective := effectiveToolCalls batch approvalNeeded
  let messages := messages ++ [.assistantWithToolCalls content effective]
  perform (.writeToolCallsToThread
    (effective.map fun tc => (tc.name, redactSingleToolCall out tc)))
  let execResults :=
    runPhase2 agent out batch.runnable (replicate batch.preflight.length none)
  let posted ← runPostflight agent execResults 0 batch.preflight messages
  match posted with
  | (some instructions, messages) => pure (some (.response instructions), messages)
  | (none, messages) =>
    match approvalNeeded with
    | some candidate => do
      let pending ← buildPendingApproval agent candidate toolCalls messages
      pure (some (.needApproval pending), messages)
    | none => pure (none, messages)

/-! ## Effect of the phases -/

variable (serde : SerdeJson) (agent : Agent) (out : Outside) (idx : Nat) (toolCalls : List ToolCall)

/-- A handler that only reads which tools are approved lets time pass. -/
theorem later_of_only {α : Type} {handler : Handler α}
    (h : handler.Only (· = .readAutoApproved)) (w : World) :
    ∃ n, (runHandler serde handler w).2 = w.later n := by
  induction handler generalizing w with
  | ret a => exact ⟨0, rfl⟩
  | act op next ih =>
    obtain ⟨rfl, hnext⟩ := h
    obtain ⟨n, hn⟩ := ih _ (hnext _) w.tick
    exact ⟨1 + n, hn.trans (by simp [World.later, World.tick, Nat.add_assoc])⟩

section Preflight

open Foundation.Program (only_pure only_perform)

theorem classifyToolCall_reads (originalTc : ToolCall) :
    (classifyToolCall agent out idx originalTc).Only (· = .readAutoApproved) := by
  have hrequires : ∀ tool tc, (toolRequiresApproval tool tc).Only (· = .readAutoApproved) := by
    intro tool tc
    unfold toolRequiresApproval
    split
    · exact only_pure _ _
    · exact only_pure _ _
    · exact .act rfl fun _ => only_pure _ _
  have hneeded : ∀ toolOpt tc,
      (approvalRequiredTool agent toolOpt tc).Only (· = .readAutoApproved) := by
    intro toolOpt tc
    unfold approvalRequiredTool
    split
    · exact only_pure _ _
    · split
      · exact only_pure _ _
      · exact (hrequires _ _).bind fun _ => only_pure _ _
  simp only [classifyToolCall]
  split
  · exact only_pure _ _
  · refine (hneeded _ _).bind fun needed => ?_
    cases needed <;> exact only_pure _ _

/-- Preflight only reads which tools are approved. -/
theorem groupToolCalls_reads (batch : ToolBatch) :
    (groupToolCalls agent out idx toolCalls batch).Only (· = .readAutoApproved) := by
  induction toolCalls generalizing idx batch with
  | nil => exact only_pure _ _
  | cons originalTc rest ih =>
    refine (classifyToolCall_reads _ out idx _).bind fun classified => ?_
    rcases classified with ⟨msg | candidate | _, tc⟩
    · exact ih _ _
    · exact only_pure _ _
    · exact ih _ _

end Preflight

/-- The two fields of a recorded outcome. -/
abbrev StoredOutcome := Option Value × Option String

/-- How an outcome is stored. -/
def storedOutcome (serde : SerdeJson) (content : String) (isToolError : Bool) : StoredOutcome :=
  if isToolError then (none, some content)
  else (some (Turn.parseToolResult serde content), none)

/-- A recorded call with another outcome. -/
def withOutcome (outcome : StoredOutcome) (call : TurnToolCall) : TurnToolCall :=
  { call with result := outcome.1, error := outcome.2 }

theorem recordToolOutcome_eq (content : String) (isToolError : Bool) (thread : Thread) :
    recordToolOutcome serde idx content isToolError thread = thread.modifyLastTurn fun turn =>
        { turn with
          toolCalls := turn.toolCalls.modify idx
            (withOutcome (storedOutcome serde content isToolError)) } := by
  unfold recordToolOutcome
  congr 1
  funext turn
  have hset : ∀ outcome : StoredOutcome,
      (turn.setToolOutcomeAt idx outcome.1 outcome.2).toOption.getD turn =
        { turn with toolCalls := turn.toolCalls.modify idx (withOutcome outcome) } := by
    unfold Turn.setToolOutcomeAt
    cases hcall : turn.toolCalls[idx]? with
    | none =>
      have hlen : turn.toolCalls.length ≤ idx := getElem?_eq_none_iff.1 hcall
      simp [modify_eq_self hlen, Except.toOption]
    | some call =>
      simp [modify_eq_set_getElem?, hcall, withOutcome, Except.toOption]
  cases isToolError with
  | true => exact hset (none, some _)
  | false => exact hset (some _, none)

/-- A call with the content recorded for it and whether that is an error. -/
structure RecordedOutcome where
  toolCall : ToolCall
  content : String
  isToolError : Bool

/-- The message that tells the model about an outcome. -/
def RecordedOutcome.message (outcome : RecordedOutcome) : ChatMessage :=
  .toolResult outcome.toolCall.id outcome.toolCall.name outcome.content

/-- How the outcome of a call is stored in its slot. -/
def RecordedOutcome.stored (serde : SerdeJson) (outcome : RecordedOutcome) : StoredOutcome :=
  storedOutcome serde outcome.content outcome.isToolError

/-- The outcomes of the preflighted calls, up to an authentication request. -/
def postflightOutcomes (agent : Agent) (execResults : ExecResults) :
    Nat → List (ToolCall × PreflightOutcome) → List RecordedOutcome
  | _, [] => []
  | pfIdx, (tc, .rejected errorMsg) :: rest =>
    ⟨tc, errorMsg, true⟩ :: postflightOutcomes agent execResults (pfIdx + 1) rest
  | pfIdx, (tc, .runnable) :: rest =>
    let toolResult := resultAt execResults pfIdx tc
    let outcome := runnableOutcome agent tc toolResult
    ⟨tc, outcome.1, outcome.2⟩ ::
      (if (parseAuthBarrier agent.serde tc.name toolResult).isSome then []
      else postflightOutcomes agent execResults (pfIdx + 1) rest)

/-- Write outcomes into consecutive slots, starting at slot `idx`. -/
def writeOutcomes : Nat → List StoredOutcome → List TurnToolCall → List TurnToolCall
  | _, [], calls => calls
  | idx, outcome :: outcomes, calls =>
    writeOutcomes (idx + 1) outcomes (calls.modify idx (withOutcome outcome))

theorem foldIntoContext_run (pfIdx : Nat) (tc : ToolCall) (content : String) (isToolError : Bool)
    (messages : List ChatMessage) (w : World) :
    runHandler serde (foldIntoContext pfIdx tc content isToolError messages) w =
      (messages ++ [.toolResult tc.id tc.name content],
        w.tick.modifyThread (recordToolOutcome serde pfIdx content isToolError)) :=
  rfl

/-- Entering auth mode leaves the turns alone. -/
theorem handleAuthBarrier_run (tc : ToolCall) (toolResult : ToolResult) (w : World) :
    (runHandler serde (handleAuthBarrier agent tc toolResult) w).1 =
        (parseAuthBarrier agent.serde tc.name toolResult).map AuthBarrierData.instructions ∧
      (runHandler serde (handleAuthBarrier agent tc toolResult) w).2.thread.turns =
        w.thread.turns := by
  unfold handleAuthBarrier
  cases parseAuthBarrier agent.serde tc.name toolResult with
  | none | some _ => exact ⟨rfl, rfl⟩

theorem turns_recordToolOutcome (content : String) (isToolError : Bool) (thread : Thread) :
    (recordToolOutcome serde idx content isToolError thread).turns = modifyLastCalls
        (fun calls => calls.modify idx (withOutcome (storedOutcome serde content isToolError)))
        thread.turns := by
  rw [recordToolOutcome_eq]
  rfl

open RecordedOutcome

/-- Postflight writes the outcome of the call at position `k` into slot `pfIdx + k` of the
current turn and pushes one result message for each outcome. -/
theorem runPostflight_run (execResults : ExecResults) (pfIdx : Nat)
    (preflight : List (ToolCall × PreflightOutcome)) (messages : List ChatMessage) (w : World) :
    (runHandler serde (runPostflight agent execResults pfIdx preflight messages) w).1.2 =
        messages ++
          (postflightOutcomes agent execResults pfIdx preflight).map message ∧
      (runHandler serde (runPostflight agent execResults pfIdx preflight messages) w).2.thread.turns =
        modifyLastCalls (writeOutcomes pfIdx
            ((postflightOutcomes agent execResults pfIdx preflight).map
              (stored serde)))
          w.thread.turns := by
  induction preflight generalizing pfIdx messages w with
  | nil =>
    refine ⟨by simp [runPostflight, postflightOutcomes], ?_⟩
    exact (modifyLastCalls_id _).symm
  | cons call rest ih =>
    rcases call with ⟨tc, errorMsg | _⟩
    · -- a rejected call records the message of the hook
      simp only [runPostflight, handleRejectedTool, runHandler_bind, foldIntoContext_run,
        postflightOutcomes]
      refine ⟨by simp [(ih _ _ _).1, message], ?_⟩
      rw [(ih _ _ _).2]
      simp only [World.modifyThread, World.setThread, turns_recordToolOutcome,
        modifyLastCalls_modifyLastCalls]
      rfl
    · -- a runnable call records its result, and may stop the loop
      have hauth := handleAuthBarrier_run serde agent tc (resultAt execResults pfIdx tc) w
      generalize hb : runHandler serde
        (handleAuthBarrier agent tc (resultAt execResults pfIdx tc)) w = barrier at hauth
      rcases barrier with ⟨auth, w₁⟩
      simp only [runPostflight, processRunnableTool, runHandler_bind, hb, foldIntoContext_run,
        runHandler_pure, postflightOutcomes]
      have hturns : ∀ content isError,
          (w₁.tick.modifyThread (recordToolOutcome serde pfIdx content isError)).thread.turns =
            modifyLastCalls (fun calls => calls.modify pfIdx
              (withOutcome (storedOutcome serde content isError))) w.thread.turns := by
        intro content isError
        rw [← hauth.2]
        exact turns_recordToolOutcome _ _ _ _ _
      cases hparse : parseAuthBarrier agent.serde tc.name (resultAt execResults pfIdx tc) with
      | some authBarrier =>
        obtain rfl : auth = some authBarrier.instructions := by simpa [hparse] using hauth.1
        refine ⟨by simp [message], ?_⟩
        simp only [runHandler_pure, hturns]
        rfl
      | none =>
        obtain rfl : auth = none := by simpa [hparse] using hauth.1
        refine ⟨by simp [(ih _ _ _).1, message], ?_⟩
        rw [(ih _ _ _).2, hturns, modifyLastCalls_modifyLastCalls]
        rfl

/-! ## Effect of a round -/

/-- The batch that preflight forms in a given state. -/
def roundBatch (agent : Agent) (out : Outside) (toolCalls : List ToolCall) (w : World) :
    ToolBatch × Option ApprovalCandidate :=
  (runHandler agent.serde
    (groupToolCalls agent out 0 toolCalls { preflight := [], runnable := [] }) w).1

/-- The outcomes that a batch produces. -/
def roundOutcomes (agent : Agent) (out : Outside) (batch : ToolBatch) : List RecordedOutcome :=
  postflightOutcomes agent
    (runPhase2 agent out batch.runnable (replicate batch.preflight.length none)) 0
    batch.preflight

/-- The slots that a round appends, before there are outcomes. -/
def recordedCalls (out : Outside) (toolCalls : List ToolCall) : List TurnToolCall :=
  toolCalls.map fun tc => blankCall { tc with arguments := redactSingleToolCall out tc }

theorem turns_writeToolCallsToThread (thread : Thread) :
    (writeToolCallsToThread (toolCalls.map fun tc => (tc.name, redactSingleToolCall out tc))
        thread).turns =
      modifyLastCalls (fun calls => calls ++ recordedCalls out toolCalls) thread.turns := by
  have hfold : ∀ turn : Turn, (toolCalls.map fun tc => (tc.name, redactSingleToolCall out tc)).foldl
          (fun turn call => turn.recordToolCall call.1 call.2) turn =
        { turn with toolCalls := turn.toolCalls ++ recordedCalls out toolCalls } := by
    intro turn
    have h := foldl_recordToolCall
      (toolCalls.map fun tc => { tc with arguments := redactSingleToolCall out tc }) turn
    simpa [foldl_map, recordedCalls, Function.comp_def] using h
  simp [writeToolCallsToThread, Thread.modifyLastTurn, modifyLastCalls, hfold]

/-- The answer of postflight in a round, and the state it leaves. -/
def roundPostflight (agent : Agent) (out : Outside) (toolCalls : List ToolCall)
    (content : Option String) (messages : List ChatMessage) (w : World) :
    (Option String × List ChatMessage) × World :=
  let grouped := runHandler agent.serde
    (groupToolCalls agent out 0 toolCalls { preflight := [], runnable := [] }) w
  let batch := grouped.1.1
  let effective := effectiveToolCalls batch grouped.1.2
  runHandler agent.serde
    (runPostflight agent
      (runPhase2 agent out batch.runnable (replicate batch.preflight.length none)) 0
      batch.preflight (messages ++ [.assistantWithToolCalls content effective]))
    (grouped.2.tick.modifyThread (writeToolCallsToThread
      (effective.map fun tc => (tc.name, redactSingleToolCall out tc))))

section

variable (content : Option String) (messages : List ChatMessage) (w : World)

/-- Effect of a round up to postflight on the context and on the current turn. -/
theorem roundPostflight_run : let batch := roundBatch agent out toolCalls w
    let outcomes := roundOutcomes agent out batch.1
    let effective := effectiveToolCalls batch.1 batch.2
    let posted := roundPostflight agent out toolCalls content messages w
    posted.1.2 = messages ++ [.assistantWithToolCalls content effective] ++
          outcomes.map message ∧
      posted.2.thread.turns = modifyLastCalls (fun calls =>
            writeOutcomes 0 (outcomes.map (stored agent.serde))
              (calls ++ recordedCalls out effective))
          w.thread.turns := by
  intro batch outcomes effective posted
  obtain ⟨n, hn⟩ := later_of_only agent.serde
    (groupToolCalls_reads agent out 0 toolCalls { preflight := [], runnable := [] }) w
  -- the state after preflight and after the calls have been written
  let w₁ := ((w.later n).tick).modifyThread (writeToolCallsToThread
    (effective.map fun tc => (tc.name, redactSingleToolCall out tc)))
  have hpost := runPostflight_run agent.serde agent
    (runPhase2 agent out batch.1.runnable (replicate batch.1.preflight.length none)) 0
    batch.1.preflight (messages ++ [.assistantWithToolCalls content effective]) w₁
  have hwrite : w₁.thread.turns =
      modifyLastCalls (fun calls => calls ++ recordedCalls out effective) w.thread.turns :=
    turns_writeToolCallsToThread out _ _
  rw [hwrite, modifyLastCalls_modifyLastCalls] at hpost
  simp only [posted, roundPostflight, hn]
  exact hpost

/-- A round ends with postflight, or with an approval request behind it. -/
theorem executeToolCalls_eq : let posted := roundPostflight agent out toolCalls content messages w
    runHandler agent.serde (executeToolCalls agent out toolCalls content messages) w =
      match posted.1.1, (roundBatch agent out toolCalls w).2 with
      | some instructions, _ => ((some (.response instructions), posted.1.2), posted.2)
      | none, none => ((none, posted.1.2), posted.2)
      | none, some candidate =>
        let pending := runHandler agent.serde
          (buildPendingApproval agent candidate toolCalls posted.1.2) posted.2
        ((some (.needApproval pending.1), posted.1.2), pending.2) := by
  intro posted
  simp only [executeToolCalls, runHandler_bind]
  change runHandler _ (match posted.1 with | (some _, _) => _ | (none, _) => _) posted.2 = _
  rcases posted with ⟨⟨_ | instructions, messages⟩, w'⟩
  · unfold roundBatch
    cases (runHandler agent.serde (groupToolCalls ..) w).1.2 <;> rfl
  · rfl

/-- Effect of a round on the context and on the current turn. -/
theorem executeToolCalls_run : let batch := roundBatch agent out toolCalls w
    let outcomes := roundOutcomes agent out batch.1
    let effective := effectiveToolCalls batch.1 batch.2
    let done := runHandler agent.serde (executeToolCalls agent out toolCalls content messages) w
    done.1.2 = messages ++ [.assistantWithToolCalls content effective] ++
          outcomes.map message ∧
      done.2.thread.turns = modifyLastCalls (fun calls =>
            writeOutcomes 0 (outcomes.map (stored agent.serde))
              (calls ++ recordedCalls out effective))
          w.thread.turns := by
  intro batch outcomes effective done
  have hposted := roundPostflight_run agent out toolCalls content messages w
  have heq := executeToolCalls_eq agent out toolCalls content messages w
  -- an approval request is built behind postflight, and it leaves the thread alone
  simp only [done, heq]
  split <;> exact hposted

end

/-! ## Approval requests of a round -/

/-- The critical sections of a round. -/
def IsRoundOp : ThreadOp → Prop
  | .readAutoApproved | .writeToolCallsToThread _ | .recordToolOutcome _ _ _ => True
  | .enterAuthMode _ | .freshUuid => True
  | _ => False

theorem runHandler_keepsApproval {α : Type} {handler : Handler α}
    (h : handler.Only IsRoundOp) (serde : SerdeJson) (w : World) :
    (runHandler serde handler w).2.thread.pendingApproval = w.thread.pendingApproval := by
  refine Foundation.Program.run_frame _ (fun w => w.thread.pendingApproval)
    ?_ h w
  intro op s hop
  cases op <;> first | rfl | exact hop.elim

section RoundOps

open Foundation.Program (only_pure only_perform)

variable (agent : Agent) (out : Outside)

theorem groupToolCalls_roundOps (idx : Nat) (toolCalls : List ToolCall) (batch : ToolBatch) :
    (groupToolCalls agent out idx toolCalls batch).Only IsRoundOp :=
  (groupToolCalls_reads _ out idx _ _).mono (by rintro _ rfl; trivial)

theorem runPostflight_roundOps (execResults : ExecResults) (pfIdx : Nat)
    (preflight : List (ToolCall × PreflightOutcome)) (messages : List ChatMessage) :
    (runPostflight agent execResults pfIdx preflight messages).Only IsRoundOp := by
  have hfold : ∀ idx tc content isToolError messages,
      (foldIntoContext idx tc content isToolError messages).Only IsRoundOp :=
    fun _ _ _ _ _ => .act trivial fun _ => only_pure _ _
  have hauth : ∀ tc result, (handleAuthBarrier agent tc result).Only IsRoundOp := by
    intro tc result
    unfold handleAuthBarrier
    split
    · exact only_pure _ _
    · exact .act trivial fun _ => only_pure _ _
  induction preflight generalizing pfIdx messages with
  | nil => exact only_pure _ _
  | cons entry rest ih =>
    rcases entry with ⟨tc, errorMsg | _⟩
    · exact (hfold _ _ _ _ _).bind fun _ => ih _ _
    · have hrun : (processRunnableTool agent pfIdx tc (resultAt execResults pfIdx tc)
          messages).Only IsRoundOp :=
        (hauth _ _).bind fun _ => (hfold _ _ _ _ _).bind fun _ => only_pure _ _
      refine hrun.bind fun processed => ?_
      rcases processed with ⟨_ | instructions, messages⟩
      · exact ih _ _
      · exact only_pure _ _

/-- A round leaves the pending approval alone: its caller stores a request. -/
theorem executeToolCalls_roundOps (toolCalls : List ToolCall) (content : Option String)
    (messages : List ChatMessage) :
    (executeToolCalls agent out toolCalls content messages).Only IsRoundOp := by
  have hbuild : ∀ candidate messages,
      (buildPendingApproval agent candidate toolCalls messages).Only IsRoundOp :=
    fun _ _ => .act trivial fun _ => only_pure _ _
  refine (groupToolCalls_roundOps _ out _ _ _).bind fun grouped => ?_
  refine .act trivial fun _ => ?_
  refine (runPostflight_roundOps _ _ _ _ _).bind fun posted => ?_
  rcases posted with ⟨_ | instructions, messages⟩
  · rcases grouped with ⟨batch, _ | candidate⟩
    · exact only_pure _ _
    · exact (hbuild _ _).bind fun _ => only_pure _ _
  · exact only_pure _ _

end RoundOps

/-- The request of a round is for the call behind its preflighted ones, with the context
of the round. -/
theorem executeToolCalls_needApproval {agent : Agent} {out : Outside} {toolCalls : List ToolCall}
    {content : Option String} {messages : List ChatMessage} {w : World}
    {pending : PendingApproval}
    (h : (runHandler agent.serde
      (executeToolCalls agent out toolCalls content messages) w).1.1 = some (.needApproval pending)) :
    ∃ candidate, (roundBatch agent out toolCalls w).2 = some candidate ∧
      pending.toolName = candidate.toolCall.name ∧ pending.toolCallId = candidate.toolCall.id ∧
      pending.contextMessages =
        (runHandler agent.serde (executeToolCalls agent out toolCalls content messages) w).1.2 := by
  rw [executeToolCalls_eq] at h ⊢
  split at h
  · simp at h
  · simp at h
  · rename_i candidate _ hcandidate
    simp only [Option.some.injEq, LoopOutcome.needApproval.injEq] at h
    subst h
    exact ⟨candidate, hcandidate, rfl, rfl, rfl⟩

end Axinite.Dispatcher
