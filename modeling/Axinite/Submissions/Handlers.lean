import Axinite.Approval.Flow
import Axinite.Compaction
import Axinite.Dispatcher.AgenticLoop

/-!
# Submissions

A message is parsed into a submission, which one handler processes: user input, the
decision about a pending call, or one of the control commands.
-/

namespace Axinite.Submissions

open Json Llm Session Undo Tools ThreadOps Dispatcher Approval Compaction

/-- Answer of an extension to a token. -/
inductive AuthResult where
  | authenticated
  | rejected (instructions : Option String)

structure ExtensionManager where
  auth : String → String → Except String AuthResult
  activate : String → Except String (List String)

/-- A parsed submission.  Commands that do not touch the thread are `other`. -/
inductive Submission where
  | userInput (content : String)
  | undo
  | redo
  | interrupt
  | compact
  | clear
  | resume (checkpointId : Uuid)
  | approval (params : ApprovalParams)
  | other (result : SubmissionResult)
  | quit

/-- Answers of the outside world to one message. -/
structure MessageEnv where
  approval : ApprovalEnv
  loop : LoopEnv
  runHook : HookEvent → Except HookError HookOutcome
  /-- The hook on incoming messages rejects a submission or returns the one to process. -/
  applyInboundHook : Submission → Except String Submission
  monitor : ContextMonitor
  compactor : Compactor
  extensionManager : Option ExtensionManager
  /-- Safety checks refuse a text. -/
  validateSafety : String → Option String
  /-- The router answers explicit commands itself. -/
  routeCommand : String → Option SubmissionResult
  augmentWithAttachments : String → String × List ContentPart

/-- Outcome of a message: a text, a result to be rendered, or a shutdown. -/
inductive Reply where
  | text (content : String)
  | result (result : SubmissionResult)
  | shutdown

/-! ## End of a turn -/

section Turn

variable (agent : Agent) (env : MessageEnv)

/-- Offer a response to the hooks; a failing hook does not block it. -/
def applyResponseTransformHook (threadId : Uuid) (response : String) : String :=
  match env.runHook (.responseTransform agent.userId (toString threadId) response) with
  | .error (.rejected reason) => "[Response filtered: " ++ reason ++ "]"
  | .ok (.reject reason) => "[Response filtered: " ++ reason ++ "]"
  | .error _ => response
  | .ok (.continue (some newResponse)) => newResponse
  | .ok (.continue none) => response

/-- Store an approval request and report it. -/
def enterAwaitingApproval (pending : PendingApproval) : Handler SubmissionResult := do
  perform (.awaitApproval pending)
  pure (.needApproval pending.requestId pending.toolName pending.description
    pending.displayParameters)

/-- Fail the turn and persist the error as the response. -/
def failTurnAndError (error : String) : Handler SubmissionResult := do
  perform (.failTurn error)
  persistAssistantResponse error
  pure (.error error)

/-- Persist the end of a completed turn. -/
def persistCompletedTurn (turn : Nat × List TurnToolCall) (response : String) : Handler Unit := do
  persistToolCalls agent.serde turn.1 turn.2
  persistAssistantResponse response

/-- Handle the result of the agentic loop for user input. -/
def handleLoopResult (threadId : Uuid) (result : Except String AgenticLoopResult) :
    Handler SubmissionResult := do
  let thread ← perform .readThread
  if thread.state = .interrupted then pure .interrupted
  else
    match result with
    | .ok (.response response) => do
      let response := applyResponseTransformHook agent env threadId response
      let completion ← perform (.finalizeTurn response)
      match completion.join with
      | none => pure .interrupted
      | some turn => do
        persistCompletedTurn agent turn response
        pure (.response response)
    | .ok (.needApproval pending) => enterAwaitingApproval pending
    | .error e => failTurnAndError e

/-- Persist a turn unless it was interrupted. -/
def persistCompletion (response : String) : Option (Option (Nat × List TurnToolCall)) → Handler Unit
  | none => pure ()
  | some turn => persistCompletedTurn agent (turn.getD (0, [])) response

/-- Complete the turn after an approval, unless it was interrupted. -/
def finalizeTurnAndPersistResponse (response : String) : Handler Unit := do
  let completion ← perform (.finalizeTurn response)
  persistCompletion agent response completion

/-- Continue the agentic loop after the tools of an approval. -/
def continueLoopAfterTool (threadId : Uuid) (contextMessages : List ChatMessage) :
    Handler SubmissionResult := do
  let result ← runAgenticLoop agent env.loop threadId contextMessages
  match result with
  | .ok (.response response) => do
    let response := applyResponseTransformHook agent env threadId response
    finalizeTurnAndPersistResponse agent response
    pure (.response response)
  | .ok (.needApproval pending) => enterAwaitingApproval pending
  | .error e => failTurnAndError e

/-- Process an approval or rejection of a pending call. -/
def processApproval (threadId : Uuid) (params : ApprovalParams) : Handler SubmissionResult := do
  let progress ← decideApproval agent env.approval params
  match progress with
  | .finished result => pure result
  | .continueLoop contextMessages => continueLoopAfterTool agent env threadId contextMessages

/-! ## User input -/

/-- Remember the state before a turn. -/
def checkpointBeforeTurn : Handler Unit := do
  let thread ← perform .readThread
  perform (.checkpoint thread.turnNumber (thread.messages agent.serde)
    ("Before turn " ++ toString thread.turnNumber))

/-- Start the turn of a user input; answers the messages for the model. -/
def prepareTurn (content : String) : Handler (Except SubmissionResult (List ChatMessage)) := do
  let augmented := env.augmentWithAttachments content
  match env.validateSafety augmented.1 with
  | some rejected => pure (.error (.error rejected))
  | none => do
    let prepared ← perform (.prepareTurn augmented.1 augmented.2)
    match prepared with
    | .error rejected => pure (.error (.error rejected))
    | .ok turnMessages => do
      persistUserMessage augmented.1
      pure (.ok turnMessages)

def processUserInput (threadId : Uuid) (content : String) : Handler SubmissionResult := do
  let thread ← perform .readThread
  match threadStateSubmissionResult thread.state with
  | some rejected => pure (.error rejected)
  | none =>
    match env.validateSafety content with
    | some rejected => pure (.error rejected)
    | none =>
      match env.routeCommand content with
      | some result => pure result
      | none => do
        maybeCompactContext env.compactor agent.serde env.monitor
        checkpointBeforeTurn agent
        let prepared ← prepareTurn env content
        match prepared with
        | .error rejected => pure rejected
        | .ok turnMessages => do
          let result ← runAgenticLoop agent env.loop threadId turnMessages
          handleLoopResult agent env threadId result

end Turn

/-! ## Control commands -/

section Control

variable (agent : Agent) (env : MessageEnv)

/-- The message for a step through the history that failed. -/
def failureMsg : RewindOp → String
  | .undo => "Undo failed."
  | .redo => "Redo failed."

/-- The message for a step through the history. -/
def successMsg (op : RewindOp) (turn undoCount : Nat) : String :=
  match op with
  | .undo =>
    "Undone to turn " ++ toString turn ++ ".\n" ++ toString undoCount ++ " undo(s) remaining."
  | .redo => "Redone to turn " ++ toString turn ++ "."

/-- Undo or redo: exchange the current state for a remembered one. -/
def processRewind (op : RewindOp) : Handler SubmissionResult := do
  let thread ← perform .readThread
  let step ← perform (.rewind op thread.turnNumber (thread.messages agent.serde))
  match step with
  | .error msg => pure (.ok (some msg))
  | .ok (none, _) => pure (.error (failureMsg op))
  | .ok (some cp, undoCount) => do
    perform (.restoreFromMessages cp.messages)
    pure (.ok (some (successMsg op cp.turnNumber undoCount)))

/-- Undo the last turn. -/
def processUndo : Handler SubmissionResult :=
  processRewind agent .undo

/-- Redo an undone turn. -/
def processRedo : Handler SubmissionResult :=
  processRewind agent .redo

/-- Interrupt the current turn. -/
def processInterrupt : Handler SubmissionResult := do
  let interrupted ← perform .interruptActive
  pure (.ok (some (if interrupted then "Interrupted." else "Nothing to interrupt.")))

/-- Compact the thread on request. -/
def processCompact : Handler SubmissionResult := do
  let snapshot ← perform .readThread
  let messages := snapshot.messages agent.serde
  let strategy := (env.monitor.suggestCompaction messages).getD (.summarize 5)
  match env.compactor.compact agent.serde env.monitor strategy snapshot with
  | .error e => pure (.error ("Compaction failed: " ++ e))
  | .ok (result, compacted) => do
    let fresh ← perform
      (.compactIfFresh snapshot.updatedAt snapshot.turns.length compacted.turns)
    if !fresh then
      pure (.error "Thread changed while compaction was running. Please retry.")
    else
      let msg := "Compacted: " ++ toString result.turnsRemoved ++ " turns removed, " ++
        toString result.tokensBefore ++ " → " ++ toString result.tokensAfter ++
        " tokens (was " ++ env.monitor.usagePercent messages ++ "% full)"
      pure (.ok (some
        (if result.summaryWritten then msg ++ ", summary saved to workspace" else msg)))

/-- Clear the thread and its history. -/
def processClear : Handler SubmissionResult := do
  perform .clearThread
  perform .clearUndo
  pure (.ok (some "Thread cleared."))

def processResume (checkpointId : Uuid) : Handler SubmissionResult := do
  let thread ← perform .readThread
  let restored ← perform (.restoreCheckpoint checkpointId)
  match restored with
  | none => pure (.error "Checkpoint not found.")
  | some checkpoint => do
    let fresh ← perform
      (.restoreIfFresh thread.updatedAt thread.turns.length checkpoint.messages)
    if !fresh then pure (.error "Thread changed while resume was running. Please retry.")
    else pure (.ok (some ("Resumed from checkpoint: " ++ checkpoint.description)))

end Control

/-! ## Authentication -/

/-- Activate an extension after its authentication. -/
def activateExtension (mgr : ExtensionManager) (extName : String) : String :=
  match mgr.activate extName with
  | .ok toolsLoaded =>
    extName ++ " authenticated and activated (" ++ toString toolsLoaded.length ++
      " tools loaded)." ++
      (if toolsLoaded.isEmpty then "" else "\n\nTools: " ++ ", ".intercalate toolsLoaded)
  | .error e =>
    extName ++ " authenticated successfully, but activation failed: " ++ e ++
      ". Try activating manually."

/-- Hand a token to the extension that waits for it. -/
def processAuthToken (env : MessageEnv) (pending : PendingAuth) (token : String) :
    Handler (Option String) :=
  match env.extensionManager with
  | none => pure (some "Extension manager not available.")
  | some mgr =>
    match mgr.auth pending.extensionName token with
    | .ok .authenticated => do
      perform .authenticated
      pure (some (activateExtension mgr pending.extensionName))
    | .ok (.rejected _) => do
      perform (.enterAuthMode pending.extensionName)
      pure none
    | .error _ => do
      perform (.setPendingAuth pending)
      perform (.enterAuthMode pending.extensionName)
      pure none

/-- A thread in auth mode takes the next user input as a token; any other submission
leaves auth mode and is processed. -/
def checkAuthModeIntercept (env : MessageEnv) (submission : Submission) :
    Handler (Option Reply) := do
  let claimed ← perform .claimAuth
  match claimed with
  | none => pure none
  | some pending =>
    match submission with
    | .userInput content => do
      let result ← processAuthToken env pending content
      perform .releaseAuth
      pure (some (.text (result.getD "")))
    | _ => do
      perform .cancelAuth
      pure none

/-! ## Messages -/

def dispatchSubmission (agent : Agent) (env : MessageEnv) (threadId : Uuid) :
    Submission → Handler SubmissionResult
  | .userInput content => processUserInput agent env threadId content
  | .undo => processUndo agent
  | .redo => processRedo agent
  | .interrupt => processInterrupt
  | .compact => processCompact agent env
  | .clear => processClear
  | .resume checkpointId => processResume checkpointId
  | .approval params => processApproval agent env threadId params
  | .other result => pure result
  | .quit => pure (.ok none)

/-- Process a message on a thread. -/
def handleMessage (agent : Agent) (env : MessageEnv) (threadId : Uuid) (submission : Submission) :
    Handler Reply := do
  let intercepted ← checkAuthModeIntercept env submission
  match intercepted with
  | some reply => pure reply
  | none =>
    match env.applyInboundHook submission with
    | .error msg => pure (.text msg)
    | .ok .quit => pure .shutdown
    | .ok submission => do
      let result ← dispatchSubmission agent env threadId submission
      pure (.result result)

end Axinite.Submissions
