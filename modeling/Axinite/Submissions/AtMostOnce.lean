import Axinite.Submissions.Handlers
import Axinite.Submissions.Ledger

/-!
# Approvals execute their tools at most once

The handlers move the request identifier of an approval from place to place and never
copy it, with one exception: an approved call that asks for an authentication puts its
approval back after it has been executed.

Main results:

- Theorem `safe_handleMessage`: a message handler moves identifiers and does not copy them,
  unless an authentication request restages an approval.
- Theorem `executed_nodup`: without restaging, whatever handlers run in whatever
  interleaving, no approval executes its tool twice.
- Theorem `restaged_executed_twice`: with restaging one of them does.
-/

namespace Axinite.Submissions

open Json Llm Session Tools ThreadOps Dispatcher Approval Compaction Foundation

/-! ## Plain handlers -/

variable (agent : Agent) (env : MessageEnv)

section Plain

open Foundation.Program (only_pure only_perform)

theorem isPlain_of_isRoundOp {op : ThreadOp} (h : IsRoundOp op) : IsPlain op := by
  cases op <;> first | exact trivial | exact h.elim

theorem persistToolCalls_plain (serde : SerdeJson) (turnNumber : Nat)
    (toolCalls : List TurnToolCall) : (persistToolCalls serde turnNumber toolCalls).Only IsPlain := by
  unfold persistToolCalls
  split
  · exact only_pure _ _
  · exact only_perform trivial

theorem handleAuthIntercept_plain (serde : SerdeJson) (extName instructions : String)
    (pending : Option PendingApproval) :
    (handleAuthIntercept serde extName instructions pending).Only IsPlain := by
  refine .act trivial fun turn => ?_
  split
  · exact (persistToolCalls_plain _ _ _).bind fun _ => only_perform trivial
  · exact only_perform trivial

theorem postflight_plain (pending : PendingApproval)
    (preflight : List (ToolCall × PreflightOutcome)) (execResults : List (ToolCall × ToolResult))
    (deferredAuth : Option String) (contextMessages : List ChatMessage) :
    (postflightRecordAndMaybeDeferredAuth agent pending preflight execResults deferredAuth
      contextMessages).Only IsPlain := by
  induction preflight generalizing execResults deferredAuth contextMessages with
  | nil => exact only_pure _ _
  | cons entry rest ih =>
    rcases entry with ⟨tc, errorMsg | _⟩
    · have hpush : (recordToolErrorAndPush tc errorMsg contextMessages).Only IsPlain :=
        .act trivial fun _ => only_pure _ _
      exact hpush.bind fun _ => ih _ _ _
    · refine .act trivial fun _ => ?_
      split
      · exact (handleAuthIntercept_plain _ _ _ _).bind fun _ => ih _ _ _
      · exact ih _ _ _

theorem persistCompletedTurn_plain (turn : Nat × List TurnToolCall) (response : String) :
    (persistCompletedTurn agent turn response).Only IsPlain :=
  (persistToolCalls_plain _ _ _).bind fun _ => only_perform trivial

theorem failTurnAndError_plain (error : String) : (failTurnAndError error).Only IsPlain :=
  .act trivial fun _ => .act trivial fun _ => only_pure _ _

theorem finalizeTurnAndPersistResponse_plain (response : String) :
    (finalizeTurnAndPersistResponse agent response).Only IsPlain := by
  refine .act trivial fun completion => ?_
  cases completion with
  | none => exact only_pure _ _
  | some turn => exact persistCompletedTurn_plain _ _ _

theorem prepareTurn_plain (content : String) : (prepareTurn env content).Only IsPlain := by
  simp only [prepareTurn]
  split
  · exact only_pure _ _
  · refine .act trivial fun prepared => ?_
    split
    · exact only_pure _ _
    · exact .act trivial fun _ => only_pure _ _

theorem processRewind_plain (op : RewindOp) : (processRewind agent op).Only IsPlain := by
  refine .act trivial fun thread => ?_
  refine .act trivial fun step => ?_
  split
  · exact only_pure _ _
  · exact only_pure _ _
  · exact .act (by trivial) fun _ => only_pure _ _

theorem processCompact_plain : (processCompact agent env).Only IsPlain := by
  refine .act trivial fun snapshot => ?_
  simp only
  split
  · exact only_pure _ _
  · refine .act trivial fun fresh => ?_
    split <;> exact only_pure _ _

theorem processResume_plain (checkpointId : Uuid) : (processResume checkpointId).Only IsPlain := by
  refine .act trivial fun thread => ?_
  refine .act trivial fun restored => ?_
  split
  · exact only_pure _ _
  · refine .act trivial fun fresh => ?_
    split <;> exact only_pure _ _

theorem processAuthToken_plain (pending : PendingAuth) (token : String) :
    (processAuthToken env pending token).Only IsPlain := by
  unfold processAuthToken
  split
  · exact only_pure _ _
  · split
    · exact .act trivial fun _ => only_pure _ _
    · exact .act trivial fun _ => only_pure _ _
    · exact .act trivial fun _ =>
        .act trivial fun _ => only_pure _ _

theorem checkAuthModeIntercept_plain (submission : Submission) :
    (checkAuthModeIntercept env submission).Only IsPlain := by
  refine .act trivial fun claimed => ?_
  split
  · exact only_pure _ _
  · split
    · exact (processAuthToken_plain _ _ _).bind fun _ =>
        .act trivial fun _ => only_pure _ _
    · exact .act trivial fun _ => only_pure _ _

end Plain

open Program

/-! ## Handlers that move identifiers -/

section Handlers

variable (agent : Agent)

/-- What a handler holds after a round or a loop that may ask for an approval. -/
def heldByOutcome : LoopOutcome → Holdings
  | .needApproval pending => hold pending.requestId
  | _ => 0

/-- What a handler holds after the agentic loop. -/
def heldByResult : Except String AgenticLoopResult → Holdings
  | .ok (.needApproval pending) => hold pending.requestId
  | _ => 0

variable {α : Type} (serde : SerdeJson) (env : MessageEnv) (threadId : Uuid) (out : Outside)
  (pending : PendingApproval) (contextMessages : List ChatMessage)

theorem safe_buildPendingApproval (candidate : ApprovalCandidate) (toolCalls : List ToolCall)
    (messages : List ChatMessage) :
    LedgerSafe serde (buildPendingApproval agent candidate toolCalls messages) 0
      fun pending m' => m' = hold pending.requestId := by
  refine (safe_freshUuid serde).bind ?_
  rintro id _ rfl
  exact rfl

theorem safe_executeToolCalls (toolCalls : List ToolCall) (content : Option String)
    (messages : List ChatMessage) :
    LedgerSafe serde (executeToolCalls agent out toolCalls content messages) 0
      fun done m' => m' = done.1.elim 0 heldByOutcome := by
  have hgroup := (groupToolCalls_roundOps agent out 0 toolCalls
    { preflight := [], runnable := [] }).mono fun _ => isPlain_of_isRoundOp
  refine (safe_plain serde hgroup 0).bind ?_
  rintro grouped _ rfl
  refine Safe.bind (safe_plain serde (only_perform (by trivial)) 0) ?_
  rintro _ _ rfl
  refine (safe_plain serde ((runPostflight_roundOps agent _ _ _ _).mono
    fun _ => isPlain_of_isRoundOp) 0).bind ?_
  rintro ⟨_ | instructions, messages⟩ _ rfl
  · rcases grouped with ⟨batch, _ | candidate⟩
    · exact rfl
    · -- the identifier of the request goes to the caller
      refine (safe_buildPendingApproval agent serde candidate toolCalls messages).bind ?_
      rintro pending _ rfl
      exact rfl
  · exact rfl

theorem safe_loopFrom (env : LoopEnv) (remaining iteration nudges : Nat)
    (messages : List ChatMessage) :
    LedgerSafe serde (loopFrom agent env remaining iteration nudges messages) 0
      fun outcome m' => m' = outcome.toOption.elim 0 heldByOutcome := by
  induction remaining generalizing iteration nudges messages with
  | zero => exact rfl
  | succ remaining ih =>
    refine Safe.bind (safe_plain serde (only_perform (by trivial)) 0) ?_
    rintro thread _ rfl
    simp only
    split
    · exact rfl
    · split
      · exact rfl
      · split
        · exact ih _ _ _
        · exact rfl
      · refine (safe_executeToolCalls agent serde _ _ _ _).bind ?_
        rintro ⟨_ | outcome, messages⟩ _ rfl
        · exact ih _ _ _
        · exact rfl

theorem safe_runAgenticLoop (env : LoopEnv) (threadId : Uuid) (messages : List ChatMessage) :
    LedgerSafe serde (runAgenticLoop agent env threadId messages) 0
      fun result m' => m' = heldByResult result := by
  refine (safe_loopFrom agent serde env _ _ _ _).bind ?_
  rintro outcome _ rfl
  split <;> exact rfl

/-- Without an interest in what a handler ends with. -/
theorem safe_plain_end {handler : Handler α} (h : handler.Only IsPlain) (m : Holdings) :
    LedgerSafe serde handler m fun _ _ => True :=
  (safe_plain serde h m).mono fun _ _ _ => trivial

/-- A handler that needs nothing may hold anything. -/
theorem safe_of_nothing {handler : Handler α} (h : LedgerSafe serde handler 0 fun _ _ => True)
    (m : Holdings) : LedgerSafe serde handler m fun _ _ => True := by
  have hframe := h.frame m
  rw [zero_add] at hframe
  exact hframe.mono fun _ _ _ => trivial

theorem safe_enterAwaitingApproval :
    LedgerSafe serde (enterAwaitingApproval pending) (hold pending.requestId) fun _ _ => True :=
  (safe_awaitApproval serde pending).bind fun _ _ _ => trivial

theorem safe_handleLoopResult (result : Except String AgenticLoopResult) :
    LedgerSafe serde (handleLoopResult agent env threadId result) (heldByResult result)
      fun _ _ => True := by
  refine Safe.bind (safe_plain serde (only_perform (by trivial)) _) ?_
  rintro thread _ rfl
  split
  · exact trivial
  · split
    · refine safe_plain_end serde (.act (by trivial) ?_) _
      intro completion
      split
      · exact only_pure _ _
      · exact (persistCompletedTurn_plain _ _ _).bind fun _ => only_pure _ _
    · exact safe_enterAwaitingApproval serde _
    · exact safe_plain_end serde (failTurnAndError_plain _) _

theorem safe_continueLoopAfterTool :
    LedgerSafe serde (continueLoopAfterTool agent env threadId contextMessages) 0
      fun _ _ => True := by
  refine (safe_runAgenticLoop agent serde env.loop threadId contextMessages).bind ?_
  rintro result _ rfl
  split
  · exact safe_plain_end serde ((finalizeTurnAndPersistResponse_plain _ _).bind
      fun _ => only_pure _ _) _
  · exact safe_enterAwaitingApproval serde _
  · exact safe_plain_end serde (failTurnAndError_plain _) _

/-- A deferred call that needs an approval gets an identifier of its own. -/
theorem safe_enterDeferredApproval (approvalIdx : Nat) (tc : ToolCall) (tool : Tool)
    (deferredToolCalls : List ToolCall) (contextMessages : List ChatMessage)
    (pending : PendingApproval) :
    LedgerSafe serde (enterDeferredApproval approvalIdx tc tool deferredToolCalls contextMessages
      pending) 0 fun _ m' => m' = 0 := by
  refine (safe_freshUuid serde).bind ?_
  rintro requestId _ rfl
  refine (safe_awaitApproval serde _).bind ?_
  rintro _ _ rfl
  exact rfl

theorem safe_handleDeferredToolsFlow (deferredToolCalls : List ToolCall) :
    LedgerSafe serde (handleDeferredToolsFlow agent out pending contextMessages deferredToolCalls)
      0 fun _ m' => m' = 0 := by
  have hpreflight : (preflightDeferredTools agent out deferredToolCalls).Only IsPlain :=
    .act trivial fun _ => only_pure _ _
  refine (safe_plain serde hpreflight 0).bind ?_
  rintro batch _ rfl
  refine (safe_plain serde (postflight_plain agent pending _ _ _ _) 0).bind ?_
  rintro ⟨instructions, messages⟩ _ rfl
  cases instructions with
  | some instructions => exact rfl
  | none =>
    cases batch.approvalNeeded with
    | none => exact rfl
    | some candidate =>
      refine Safe.bind (safe_enterDeferredApproval serde _ _ _ _ _ _) ?_
      rintro result _ rfl
      exact rfl

/-- What remains of an approved call: nothing, if the loop continues. -/
theorem safe_runApprovedTool (env : ApprovalEnv) (always : Bool) (pending : PendingApproval) :
    LedgerSafe serde (runApprovedTool agent env always pending) (hold pending.requestId)
      fun _ m' => m' = 0 := by
  have halways : (autoApproveIfAlways always pending.toolName).Only IsPlain := by
    unfold autoApproveIfAlways
    split
    · exact only_perform trivial
    · exact only_pure _ _
  refine (safe_plain serde halways _).bind ?_
  rintro _ _ rfl
  refine (safe_executePrimary serde pending.requestId).bind ?_
  rintro _ _ rfl
  have hrecord : (recordSanitizedPrimaryResult agent pending (env.primary pending)).Only IsPlain :=
    .act trivial fun _ => only_pure _ _
  refine (safe_plain serde hrecord 0).bind ?_
  rintro resultContent _ rfl
  have hauth : (maybeAuthInterceptAfterPrimary agent.serde pending
      (env.primary pending)).Only IsPlain := by
    unfold maybeAuthInterceptAfterPrimary
    split
    · exact (handleAuthIntercept_plain _ _ _ _).bind fun _ => only_pure _ _
    · exact only_pure _ _
  refine (safe_plain serde hauth 0).bind ?_
  rintro intercepted _ rfl
  split
  · exact rfl
  · refine (safe_handleDeferredToolsFlow agent serde env.out pending _ _).bind ?_
    rintro flow _ rfl
    exact rfl

theorem safe_decideApproval (env : ApprovalEnv) (params : ApprovalParams) :
    LedgerSafe serde (decideApproval agent env params) 0
      fun progress m' => ∀ contextMessages, progress = .continueLoop contextMessages → m' = 0 := by
  refine (safe_takePendingApprovalIfAwaiting serde).bind ?_
  rintro (_ | pending) _ rfl
  · exact fun _ _ => rfl
  · by_cases hmismatch : ∃ reqId, params.requestId = some reqId ∧ reqId ≠ pending.requestId
    · -- the approval goes back to the thread
      obtain ⟨reqId, hprovided, hne⟩ := hmismatch
      simp only [restageOnRequestIdMismatch, hprovided, if_pos hne]
      refine (safe_awaitApproval serde pending).bind ?_
      rintro _ _ rfl
      exact fun _ _ => rfl
    · have hnone : restageOnRequestIdMismatch params.requestId pending = pure none := by
        unfold restageOnRequestIdMismatch
        split
        · rename_i reqId hprovided
          exact if_neg fun hne => hmismatch ⟨reqId, hprovided, hne⟩
        · rfl
      simp only [hnone]
      split
      · have hreject : (completeRejectionAndPersist pending).Only IsPlain :=
          .act trivial fun _ =>
            .act trivial fun _ => only_pure _ _
        refine (safe_plain serde hreject _).bind ?_
        rintro result _ rfl
        exact fun _ h => nomatch h
      · exact (safe_runApprovedTool agent serde env _ pending).mono fun _ _ h _ _ => h

theorem safe_processApproval (params : ApprovalParams) :
    LedgerSafe serde (processApproval agent env threadId params) 0 fun _ _ => True := by
  refine (safe_decideApproval agent serde env.approval params).bind ?_
  intro progress m' hm'
  cases progress with
  | finished result => exact trivial
  | continueLoop contextMessages =>
    rw [hm' contextMessages rfl]
    exact safe_continueLoopAfterTool agent serde env threadId contextMessages

/-- A compacted snapshot still holds the approval that was pending when it was taken. -/
theorem safe_maybeCompactContext (compactor : Compactor) (monitor : ContextMonitor) :
    LedgerSafe serde (maybeCompactContext compactor agent.serde monitor) 0 fun _ _ => True := by
  refine (safe_readThread serde).bind ?_
  rintro snapshot _ rfl
  unfold compactSnapshot
  split
  · exact trivial
  · split
    · exact trivial
    · rename_i strategy _ _ _ compacted hcompact
      have hframe := kept_frame compactor strategy snapshot
      have hsighting : sighting snapshot = sighting compacted := by
        rw [compact_eq_kept hcompact]
        simp [sighting, pendingId, hframe.1, hframe.2]
      rw [hsighting]
      exact (safe_applyCompactionIfFresh serde compacted).mono fun _ _ _ => trivial

theorem safe_processUserInput (content : String) :
    LedgerSafe serde (processUserInput agent env threadId content) 0 fun _ _ => True := by
  refine Safe.bind (safe_plain serde (only_perform (by trivial)) 0) ?_
  rintro thread _ rfl
  split
  · exact trivial
  · split
    · exact trivial
    · split
      · exact trivial
      · refine (safe_maybeCompactContext agent serde env.compactor env.monitor).bind ?_
        rintro _ m _
        -- what is left of the compaction is not needed any more
        refine safe_of_nothing serde ?_ m
        have hcheckpoint : (checkpointBeforeTurn agent).Only IsPlain :=
          .act trivial fun _ => only_perform trivial
        refine (safe_plain serde hcheckpoint 0).bind ?_
        rintro _ _ rfl
        refine (safe_plain serde (prepareTurn_plain env content) 0).bind ?_
        rintro (rejected | turnMessages) _ rfl
        · exact trivial
        · refine (safe_runAgenticLoop agent serde env.loop threadId turnMessages).bind ?_
          rintro result _ rfl
          exact safe_handleLoopResult agent serde env threadId result

theorem safe_dispatchSubmission (submission : Submission) :
    LedgerSafe serde (dispatchSubmission agent env threadId submission) 0 fun _ _ => True := by
  cases submission with
  | userInput content => exact safe_processUserInput agent serde env threadId content
  | approval params => exact safe_processApproval agent serde env threadId params
  | undo => exact safe_plain_end serde (processRewind_plain agent .undo) 0
  | redo => exact safe_plain_end serde (processRewind_plain agent .redo) 0
  | interrupt =>
    exact safe_plain_end serde (.act (by trivial) fun _ => only_pure _ _) 0
  | compact => exact safe_plain_end serde (processCompact_plain agent env) 0
  | clear =>
    exact safe_plain_end serde (.act (by trivial) fun _ =>
      .act (by trivial) fun _ => only_pure _ _) 0
  | resume checkpointId => exact safe_plain_end serde (processResume_plain checkpointId) 0
  | other _ | quit => exact trivial

/-- A message handler moves identifiers and does not copy them. -/
theorem safe_handleMessage (submission : Submission) :
    LedgerSafe serde (handleMessage agent env threadId submission) 0 fun _ _ => True := by
  refine (safe_plain serde (checkAuthModeIntercept_plain env submission) 0).bind ?_
  rintro intercepted _ rfl
  split
  · exact trivial
  · split
    · exact trivial
    · exact trivial
    · refine (safe_dispatchSubmission agent serde env threadId _).bind ?_
      intro _ _ _
      exact trivial

end Handlers

/-! ## Interleaved messages -/

/-- The handlers that messages start. -/
def MessageHandler (agent : Agent) (handler : Handler Unit) : Prop :=
  ∃ env threadId submission,
    handler = handleMessage agent env threadId submission >>= fun _ => pure ()

theorem onceInv_init : OnceInv World.init 0 where
  distinct := by decide
  issued := by decide
  seen := by simp
  past := le_rfl

open ThreadOp

/-- As long as no authentication request restages an approval, every approval executes its
tool at most once: over any messages, in any interleaving, with any answers. -/
theorem executed_nodup (agent : Agent) (c : Config ThreadOp ThreadOp.Resp World)
    (hc : Reachable (exec agent.serde) NoRestaging (MessageHandler agent) World.init c) :
    c.shared.executed.Nodup := by
  have hmay : ∀ handler, MessageHandler agent handler →
      LedgerSafe agent.serde handler 0 fun _ _ => True := by
    rintro _ ⟨env, threadId, submission, rfl⟩
    refine (safe_handleMessage agent agent.serde env threadId submission).bind ?_
    intro _ _ _
    exact trivial
  obtain ⟨ms, -, hinv⟩ := adequacy hmay onceInv_init hc
  have hle : (↑c.shared.executed : Multiset Uuid) ≤ ledger c.shared ms.sum.1 :=
    Multiset.le_add_left _ _
  exact Multiset.coe_nodup.1 (Multiset.nodup_of_le hle hinv.distinct)

/-- The text of a tool result that asks for a token. -/
def awaitingToken : String :=
  "\x7b\"awaiting_token\":true\x7d"

/-- An agent that reads the text of `awaitingToken`. -/
def readingAgent : Agent :=
  { plainAgent with
    serde := .knowing (.object [("awaiting_token", .bool true)]) awaitingToken }

/-- The model gives one answer; the tool needs approval and has the result `output`. -/
def guardedEnv (toolName output : String) (answer : RespondResult) : MessageEnv where
  approval := { primary := fun _ => .ok output, out := guarded toolName output }
  loop := {
    maxToolIterations := 5
    costLimit := fun _ => none
    respondWithTools := fun _ _ => .ok answer
    retryWithTools := fun _ _ => .ok answer
    toolsAvailable := fun _ => true
    llmSignalsToolIntent := fun _ => false
    stripInternalToolCallText := fun text => text
    out := fun _ => guarded toolName output }
  runHook := fun _ => .ok (.continue none)
  applyInboundHook := .ok
  monitor := {
    estimateTokens := fun _ => 0
    usagePercent := fun _ => "0.0"
    suggestCompaction := fun _ => none }
  compactor := { complete := fun _ => .error "offline", workspace := none, date := "", time := "" }
  extensionManager := none
  validateSafety := fun _ => none
  routeCommand := fun _ => none
  augmentWithAttachments := fun content => (content, [])

/-- The user asks for something that needs the tool. -/
def asksForTool (toolName output : String) : Handler Unit :=
  handleMessage readingAgent (guardedEnv toolName output (.toolCalls
    [{ id := "call_1", name := toolName, arguments := .null }] none)) 0 (.userInput "go")
    >>= fun _ => pure ()

/-- The user approves the first request. -/
def approvesTool (toolName output : String) : Handler Unit :=
  handleMessage readingAgent (guardedEnv toolName output (.text "done")) 0
    (.approval { requestId := some 1, approved := true, always := false })
    >>= fun _ => pure ()

/-- The user asks for the tool and approves its call twice. -/
def approvedTwice (toolName output : String) : List (Handler Unit) :=
  [asksForTool toolName output, approvesTool toolName output, approvesTool toolName output]

theorem approvedTwice_messageHandler (toolName output : String) :
    ∀ handler ∈ approvedTwice toolName output, MessageHandler readingAgent handler := by
  intro handler hmem
  simp only [approvedTwice, List.mem_cons, List.not_mem_nil, or_false] at hmem
  rcases hmem with rfl | rfl | rfl <;> exact ⟨_, _, _, rfl⟩

/-- Of two approvals of one request, the second one finds nothing to execute. -/
theorem executed_nodup_shell :
    ∃ c, Reachable (exec readingAgent.serde) NoRestaging (MessageHandler readingAgent)
        World.init c ∧ c.shared.executed = [1] ∧ c.shared.executed.Nodup := by
  have hstart : Reachable (exec readingAgent.serde) NoRestaging
      (MessageHandler readingAgent) World.init ⟨World.init, []⟩ := Relation.ReflTransGen.refl
  obtain ⟨ts, hend⟩ := hstart.run (approvedTwice_messageHandler "shell" "ok") (by decide +kernel)
  have hexecuted : ((approvedTwice "shell" "ok").foldl
      (fun w p => (run (exec readingAgent.serde) p w).2) World.init).executed =
        [1] := by
    decide +kernel
  exact ⟨_, hend, hexecuted, executed_nodup readingAgent _ hend⟩

/-- The approval of a call that asks for a token is put back after the execution, and the
same approval executes the call again. -/
theorem restaged_executed_twice :
    ∃ c, Reachable (exec readingAgent.serde) (fun _ _ => True)
        (MessageHandler readingAgent) World.init c ∧ c.shared.executed = [1, 1] := by
  have hstart : Reachable (exec readingAgent.serde) (fun _ _ => True)
      (MessageHandler readingAgent) World.init ⟨World.init, []⟩ := Relation.ReflTransGen.refl
  obtain ⟨ts, hend⟩ := hstart.run (approvedTwice_messageHandler "tool_auth" awaitingToken)
    (by decide +kernel)
  have hexecuted : ((approvedTwice "tool_auth" awaitingToken).foldl
      (fun w p => (run (exec readingAgent.serde) p w).2) World.init).executed =
        [1, 1] := by
    decide +kernel
  exact ⟨_, hend, hexecuted⟩

end Axinite.Submissions
