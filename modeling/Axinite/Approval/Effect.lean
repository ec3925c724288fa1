import Axinite.Approval.Flow
import Axinite.Dispatcher.Alignment
import Mathlib.Data.List.TakeWhile

/-!
# Effect of an approval

The effect of the approval flow on the recorded calls, on the pending approval and on
the context, in closed form.

Main results:

- Theorem `postflight_run`: the effect of recording the deferred calls.
- Theorem `runApprovedTool_run`: the effect of an approved call.
-/

namespace Axinite.Approval

open Json Llm Session Tools ThreadOps Dispatcher Foundation List

/-! ## Outcomes on the last call -/

/-- Write an outcome over the one a call has.  An error and a result do not replace
each other. -/
def recordInto (serde : SerdeJson) (outcome : RecordedOutcome) (call : TurnToolCall) :
    TurnToolCall :=
  if outcome.isToolError then { call with error := some outcome.content }
  else { call with result := some (Turn.parseToolResult serde outcome.content) }

/-- Write outcomes one after the other over the last call. -/
def recordAll (serde : SerdeJson) (outcomes : List RecordedOutcome) (calls : List TurnToolCall) :
    List TurnToolCall :=
  outcomes.foldl (fun calls outcome => calls.modifyLast (recordInto serde outcome)) calls

theorem currentCalls_recordLastOutcome (serde : SerdeJson) (outcome : RecordedOutcome) (w : World) :
    currentCalls
        (ThreadOp.exec serde (.recordLastOutcome outcome.content outcome.isToolError) w).2 =
      (currentCalls w).map (recordAll serde [outcome]) := by
  have hcalls : ∀ turn : Turn, (if outcome.isToolError then turn.recordToolError outcome.content
        else turn.recordToolResultContent serde outcome.content).toolCalls =
        recordAll serde [outcome] turn.toolCalls := by
    intro turn
    have hrec : recordInto serde outcome =
        if outcome.isToolError then fun call => { call with error := some outcome.content }
        else fun call =>
          { call with result := some (Turn.parseToolResult serde outcome.content) } := by
      funext call
      cases h : outcome.isToolError <;> simp [recordInto, h]
    simp only [recordAll, foldl_cons, hrec]
    cases outcome.isToolError <;> rfl
  simp only [currentCalls, Thread.lastTurn, ThreadOp.exec, ThreadOp.effect, World.modifyThread,
    World.setThread, recordLastOutcome, Thread.modifyLastTurn, getLast?_modifyLast,
    Option.map_map]
  congr 1
  funext turn
  exact hcalls turn

theorem length_recordAll (serde : SerdeJson) (outcomes : List RecordedOutcome)
    (calls : List TurnToolCall) : (recordAll serde outcomes calls).length = calls.length := by
  induction outcomes generalizing calls with
  | nil => rfl
  | cons outcome outcomes ih =>
    have hlast : (calls.modifyLast (recordInto serde outcome)).length = calls.length := by
      rcases eq_nil_or_concat calls with rfl | ⟨init, last, rfl⟩
      · rfl
      · simp [modifyLast_concat]
    rw [← hlast]
    exact ih _

/-- An authentication request keeps the approval and leaves the recorded calls alone. -/
theorem handleAuthIntercept_run (serde : SerdeJson) (extName instructions : String)
    (pending : PendingApproval) (w : World) :
    let done := runHandler serde (handleAuthIntercept serde extName instructions (some pending)) w
    done.2.thread.state = .awaitingApproval ∧
      done.2.thread.pendingApproval = some pending ∧ currentCalls done.2 = currentCalls w := by
  intro done
  have hthread : done.2.thread =
      (interceptAuth w.tick.now instructions (some pending) extName w.thread).2 := by
    simp only [done, handleAuthIntercept, persistToolCalls, runHandler_bind]
    split
    · split <;> rfl
    · rfl
  rw [currentCalls, hthread]
  refine ⟨rfl, rfl, ?_⟩
  simp only [interceptAuth, Thread.lastTurn, Thread.completeTurn, Thread.modifyLastTurn,
    Thread.awaitApproval, Thread.enterAuthMode, getLast?_modifyLast, Option.map_map]
  rfl

/-! ## Recording the deferred calls -/

/-- The outcome of a deferred call, and whether it asks for an authentication. -/
structure DeferredRecord where
  outcome : RecordedOutcome
  asksAuth : Bool

/-- What postflight records for the deferred calls, in order. -/
def deferredRecords (agent : Agent) :
    List (ToolCall × PreflightOutcome) → List (ToolCall × ToolResult) → List DeferredRecord
  | [], _ => []
  | (tc, .rejected errorMsg) :: rest, execResults =>
    ⟨⟨tc, errorMsg, true⟩, false⟩ :: deferredRecords agent rest execResults
  | (tc, .runnable) :: rest, execResults =>
    let deferredResult := (execResults.head?.map Prod.snd).getD
      (.error (executionFailed tc.name "No result available"))
    ⟨⟨tc, (agent.processToolResult tc.name tc.id deferredResult).1, isError deferredResult⟩,
      (checkAuthRequired agent.serde tc.name deferredResult).isSome⟩ ::
      deferredRecords agent rest execResults.tail

/-- The result messages of deferred calls. -/
def recordMessages (records : List DeferredRecord) : List ChatMessage :=
  records.map fun record => record.outcome.message

/-- The deferred calls before the first one that asks for an authentication. -/
def beforeAuth (records : List DeferredRecord) : List DeferredRecord :=
  records.takeWhile fun record => !record.asksAuth

open DeferredRecord

/-- The approval that an authentication request among the deferred calls leaves behind. -/
def authPending (pending : PendingApproval) (contextMessages : List ChatMessage)
    (records : List DeferredRecord) : Option PendingApproval :=
  (records.find? asksAuth).map fun record =>
    freshPending pending record.outcome.toolCall
      (contextMessages ++ recordMessages (beforeAuth records))

variable (pending : PendingApproval) (ctx : List ChatMessage) {records : List DeferredRecord}

variable {record : DeferredRecord}

theorem authPending_cons_of_asksAuth (h : record.asksAuth = true) (records : List DeferredRecord) :
    authPending pending ctx (record :: records) =
      some (freshPending pending record.outcome.toolCall ctx) := by
  simp [authPending, beforeAuth, recordMessages, h]

theorem authPending_cons_of_not (h : record.asksAuth = false) (records : List DeferredRecord) :
    authPending pending ctx (record :: records) =
      authPending pending (ctx ++ [record.outcome.message]) records := by
  simp [authPending, beforeAuth, recordMessages, h]

/-- What recording the deferred calls leads to. -/
structure PostflightEffect (serde : SerdeJson) (pending : PendingApproval)
    (records : List DeferredRecord) (deferredAuth : Option String)
    (contextMessages : List ChatMessage) (w : World)
    (done : (Option String × List ChatMessage) × World) : Prop where
  context : done.1.2 = contextMessages ++ recordMessages records
  auth : done.1.1.isSome = (deferredAuth.isSome || records.any asksAuth)
  calls : currentCalls done.2 =
    (currentCalls w).map (recordAll serde (records.map outcome))
  approval : done.2.thread.pendingApproval =
    if deferredAuth.isSome then w.thread.pendingApproval
    else (authPending pending contextMessages records).or w.thread.pendingApproval

/-- One outcome recorded before the rest. -/
theorem PostflightEffect.cons {serde : SerdeJson} {pending : PendingApproval}
    {records : List DeferredRecord} {auth auth' : Option String}
    {ctx : List ChatMessage} {w w' : World} {done : (Option String × List ChatMessage) × World}
    (h : PostflightEffect serde pending records auth' (ctx ++ [record.outcome.message]) w' done)
    (hauth : auth'.isSome = (auth.isSome || record.asksAuth))
    (hcalls : currentCalls w' = (currentCalls w).map (recordAll serde [record.outcome]))
    (hpending : w'.thread.pendingApproval =
      if auth.isSome || !record.asksAuth then w.thread.pendingApproval
      else some (freshPending pending record.outcome.toolCall ctx)) :
    PostflightEffect serde pending (record :: records) auth ctx w done where
  context := by
    rw [h.context]
    simp [recordMessages]
  auth := by
    rw [h.auth, hauth, any_cons, Bool.or_assoc]
  calls := by
    rw [h.calls, hcalls, Option.map_map]
    rfl
  approval := by
    rw [h.approval, hauth, hpending]
    cases hsome : auth.isSome with
    | true => simp
    | false =>
      cases hask : record.asksAuth with
      | true => simp [authPending_cons_of_asksAuth _ ctx hask]
      | false => simp [authPending_cons_of_not _ ctx hask]

open PostflightEffect

/-- Effect of recording the deferred calls. -/
theorem postflight_run (agent : Agent) (pending : PendingApproval)
    (preflight : List (ToolCall × PreflightOutcome)) (execResults : List (ToolCall × ToolResult))
    (deferredAuth : Option String) (contextMessages : List ChatMessage) (w : World) :
    PostflightEffect agent.serde pending (deferredRecords agent preflight execResults) deferredAuth
      contextMessages w
      (runHandler agent.serde (postflightRecordAndMaybeDeferredAuth agent pending preflight
        execResults deferredAuth contextMessages) w) := by
  induction preflight generalizing execResults deferredAuth contextMessages w with
  | nil =>
    refine ⟨by simp [postflightRecordAndMaybeDeferredAuth, deferredRecords, recordMessages],
      by simp [postflightRecordAndMaybeDeferredAuth, deferredRecords], ?_, ?_⟩
    · exact Option.map_id'.symm
    · cases deferredAuth <;> rfl
  | cons entry rest ih =>
    rcases entry with ⟨tc, errorMsg | _⟩
    · -- a rejected call records the message of the hook
      refine cons (ih _ _ _ _) (by simp) ?_ (by simp; rfl)
      exact currentCalls_recordLastOutcome _ ⟨tc, errorMsg, true⟩ w
    · -- a runnable call records its result, and may be the first to ask for a token
      simp only [postflightRecordAndMaybeDeferredAuth, deferredRecords]
      generalize (execResults.head?.map Prod.snd).getD
        (.error (executionFailed tc.name "No result available")) = result
      have hcalls := currentCalls_recordLastOutcome agent.serde
        ⟨tc, (agent.processToolResult tc.name tc.id result).1, isError result⟩ w
      cases hauth : deferredAuth with
      | some instructions =>
        refine cons (ih _ _ _ _) (by simp) hcalls (by rfl)
      | none =>
        cases hcheck : checkAuthRequired agent.serde tc.name result with
        | none => refine cons (ih _ _ _ _) (by simp) hcalls (by rfl)
        | some request =>
          rcases request with ⟨extName, instructions⟩
          have hrun := handleAuthIntercept_run agent.serde extName instructions
            (freshPending pending tc contextMessages)
            (ThreadOp.exec agent.serde (.recordLastOutcome
              (agent.processToolResult tc.name tc.id result).1 (isError result)) w).2
          simp only [runHandler_bind]
          refine cons (ih _ _ _ _) (by simp) ?_ ?_
          · exact hrun.2.2.trans hcalls
          · exact hrun.2.1

theorem beforeAuth_eq_self (h : records.any asksAuth = false) :
    beforeAuth records = records := by
  refine takeWhile_eq_self_iff.2 ?_
  intro record hrecord
  rw [any_eq_false] at h
  simpa using h _ hrecord

theorem authPending_eq_none (h : records.any asksAuth = false) :
    authPending pending ctx records = none := by
  rw [authPending, Option.map_eq_none_iff, find?_eq_none]
  exact any_eq_false.1 h

theorem authPending_isSome (h : records.any asksAuth = true) :
    ∃ fresh, authPending pending ctx records = some fresh ∧
      fresh.contextMessages = ctx ++ recordMessages (beforeAuth records) := by
  unfold authPending
  cases hfind : records.find? asksAuth with
  | none =>
    rw [find?_eq_none] at hfind
    rcases any_eq_true.1 h with ⟨record, hmem, hask⟩
    exact absurd hask (hfind _ hmem)
  | some record => exact ⟨_, rfl, rfl⟩

/-! ## The approved call -/

section Approved

variable (agent : Agent) (env : ApprovalEnv)

/-- The outcome of the approved call. -/
def primaryOutcome (pending : PendingApproval) : RecordedOutcome where
  toolCall :=
    { id := pending.toolCallId, name := pending.toolName, arguments := pending.parameters }
  content :=
    (agent.processToolResult pending.toolName pending.toolCallId (env.primary pending)).1
  isToolError := isError (env.primary pending)

/-- The approved call asks for an authentication. -/
def primaryAsksAuth (pending : PendingApproval) : Bool :=
  (checkAuthRequired agent.serde pending.toolName (env.primary pending)).isSome

/-- The tools approved for the session when the deferred calls are checked. -/
def approvedTools (always : Bool) (pending : PendingApproval) (w : World) : List String :=
  if always then w.autoApprovedTools.insert pending.toolName else w.autoApprovedTools

/-- What is recorded for the calls deferred behind the approved one. -/
def deferredOf (always : Bool) (pending : PendingApproval) (w : World) : List DeferredRecord :=
  let batch := preflightFrom agent env.out (approvedTools always pending w) 0
    pending.deferredToolCalls
  deferredRecords agent batch.preflight (executeRunnableDeferred env.out batch.runnable)

variable (always : Bool) (pending : PendingApproval) (w : World)
  (preflight : List (ToolCall × PreflightOutcome)) (execResults : List (ToolCall × ToolResult))
  (out : Outside) (autoApproved : List String)

/-- A deferred call stops the others exactly if it needs an approval. -/
theorem classifyDeferredToolCall_needsApproval_iff (idx : Nat) (tc : ToolCall) :
    (∃ idx' tc' tool, classifyDeferredToolCall agent out autoApproved idx tc =
        .needsApproval idx' tc' tool) ↔ NeedsApproval agent out autoApproved idx tc := by
  have hname := (runBeforeToolCallHook_id agent out idx
    (((out.tools tc.name).map Tool.sensitiveParams).getD []) tc).2
  simp only [classifyDeferredToolCall, NeedsApproval, runBeforeToolCallHookForDeferred]
  split
  · rename_i msg checked hhook
    simp [hhook]
  · rename_i checked hhook
    rw [hhook] at hname
    simp only at hname
    simp only [hhook, approvalRequiredDeferredTool, hname, Tool.AsksApproval]
    cases htool : out.tools tc.name with
    | none => simp
    | some tool =>
      cases hrequires : tool.requiresApproval checked.arguments with
      | never | always => simp [hrequires]
      | unlessAutoApproved => by_cases hauto : tc.name ∈ autoApproved <;>
          simp [hrequires, hauto, hname]

theorem deferredRecords_eq_nil_iff :
    deferredRecords agent preflight execResults = [] ↔ preflight = [] := by
  rcases preflight with _ | ⟨⟨tc, errorMsg | _⟩, rest⟩ <;> simp [deferredRecords]

/-- Nothing is recorded for deferred calls exactly if the first one stops them. -/
theorem deferredOf_eq_nil_iff : deferredOf agent env always pending w = [] ↔
      ∀ tc ∈ pending.deferredToolCalls.head?,
        NeedsApproval agent env.out (approvedTools always pending w) 0 tc := by
  rw [deferredOf, deferredRecords_eq_nil_iff]
  cases pending.deferredToolCalls with
  | nil => simp [preflightFrom]
  | cons tc rest =>
    have hiff := classifyDeferredToolCall_needsApproval_iff agent env.out
      (approvedTools always pending w) 0 tc
    simp only [preflightFrom, head?_cons, Option.mem_some_iff, forall_eq', ← hiff]
    cases classifyDeferredToolCall agent env.out (approvedTools always pending w) 0 tc <;> simp

/-- All outcomes that the approval records, in order. -/
def processedOutcomes (always : Bool) (pending : PendingApproval) (w : World) :
    List RecordedOutcome :=
  primaryOutcome agent env pending ::
    if primaryAsksAuth agent env pending then []
    else (deferredOf agent env always pending w).map outcome

/-- The number of deferred calls that are answered before one needs an approval or asks for
an authentication. -/
def answeredCount (always : Bool) (pending : PendingApproval) (w : World) : Nat :=
  (beforeAuth (deferredOf agent env always pending w)).length

/-- The call that was classified, as the hooks left it. -/
def DeferredPreflight.toolCall : DeferredPreflight → ToolCall
  | rejected tc _ => tc
  | needsApproval _ tc _ => tc
  | runnable tc => tc

theorem classifyDeferredToolCall_id (idx : Nat) (tc : ToolCall) :
    (classifyDeferredToolCall agent out autoApproved idx tc).toolCall.id = tc.id := by
  have hid := (runBeforeToolCallHook_id agent out idx
    (((out.tools tc.name).map Tool.sensitiveParams).getD []) tc).1
  simp only [classifyDeferredToolCall, runBeforeToolCallHookForDeferred]
  generalize runBeforeToolCallHook agent out idx
    (((out.tools tc.name).map Tool.sensitiveParams).getD []) tc = hooked at hid ⊢
  rcases hooked with ⟨_ | msg, checked⟩
  · simp only
    cases approvalRequiredDeferredTool out autoApproved checked <;> exact hid
  · exact hid

theorem preflightFrom_ids_isPrefix (idx : Nat) (deferred : List ToolCall) :
    (preflightFrom agent out autoApproved idx deferred).preflight.map (fun entry => entry.1.id) <+:
      deferred.map ToolCall.id := by
  induction deferred generalizing idx with
  | nil => exact prefix_rfl
  | cons tc rest ih =>
    have hid := classifyDeferredToolCall_id agent out autoApproved idx tc
    simp only [preflightFrom]
    cases hclass : classifyDeferredToolCall agent out autoApproved idx tc with
    | needsApproval idx' tc' tool => exact nil_prefix
    | rejected _ _ | runnable _ =>
      rw [hclass, DeferredPreflight.toolCall] at hid
      simpa [hid] using ih _

theorem deferredRecords_ids :
    (deferredRecords agent preflight execResults).map (fun record => record.outcome.toolCall.id) =
      preflight.map fun entry => entry.1.id := by
  induction preflight generalizing execResults with
  | nil => rfl
  | cons entry rest ih =>
    rcases entry with ⟨tc, errorMsg | _⟩ <;> simp [deferredRecords, ih]

/-- The answered calls are the first ones of the deferred calls. -/
theorem beforeAuth_ids : (beforeAuth (deferredOf agent env always pending w)).map
        (fun record => record.outcome.toolCall.id) =
      (pending.deferredToolCalls.take (answeredCount agent env always pending w)).map
        ToolCall.id := by
  have hprefix : (beforeAuth (deferredOf agent env always pending w)).map
      (fun record => record.outcome.toolCall.id) <+: pending.deferredToolCalls.map ToolCall.id := by
    refine (( takeWhile_prefix _).map _).trans ?_
    rw [deferredOf, deferredRecords_ids]
    exact preflightFrom_ids_isPrefix _ _ _ 0 _
  have htake := prefix_iff_eq_take.1 hprefix
  rw [htake, map_take, length_map, answeredCount]

/-- The outcomes in the context that the approval hands on. -/
def pushedOutcomes (always : Bool) (pending : PendingApproval) (w : World) :
    List RecordedOutcome :=
  if primaryAsksAuth agent env pending then []
  else
    primaryOutcome agent env pending ::
      (beforeAuth (deferredOf agent env always pending w)).map outcome

/-- The context handed to the agentic loop, if it continues. -/
def ApprovalProgress.handed : ApprovalProgress → Option (List ChatMessage)
  | finished _ => none
  | continueLoop contextMessages => some contextMessages

/-- The context went to the agentic loop, or into a new pending approval. -/
def HandsOn (contextMessages : List ChatMessage) (w : World)
    (done : ApprovalProgress × World) : Prop :=
  done.1.handed = some contextMessages ∧
      done.2.thread.pendingApproval = w.thread.pendingApproval ∨
    done.1.handed = none ∧ ∃ pending, done.2.thread.pendingApproval = some pending ∧
      pending.contextMessages = contextMessages

/-- Effect of the deferred calls. -/
theorem handleDeferredToolsFlow_run (ctx : List ChatMessage) (w : World) :
    let batch := preflightFrom agent env.out w.autoApprovedTools 0 pending.deferredToolCalls
    let records := deferredRecords agent batch.preflight
      (executeRunnableDeferred env.out batch.runnable)
    let done := runHandler agent.serde (handleDeferredToolsFlow agent env.out pending ctx
      pending.deferredToolCalls) w
    currentCalls done.2 = (currentCalls w).map
        (recordAll agent.serde (records.map outcome)) ∧
      (done.1.2 = none ∧ done.1.1 = ctx ++ recordMessages (beforeAuth records) ∧
          done.2.thread.pendingApproval = w.thread.pendingApproval ∨
        done.1.2.isSome = true ∧ ∃ fresh, done.2.thread.pendingApproval = some fresh ∧
          fresh.contextMessages = ctx ++ recordMessages (beforeAuth records)) := by
  intro batch records done
  have hpost := postflight_run agent pending batch.preflight
    (executeRunnableDeferred env.out batch.runnable) none ctx w.tick
  generalize hposted : runHandler agent.serde (postflightRecordAndMaybeDeferredAuth agent pending
    batch.preflight (executeRunnableDeferred env.out batch.runnable) none ctx) w.tick = posted
    at hpost
  rcases posted with ⟨⟨auth, messages⟩, w'⟩
  have hpreflight : runHandler agent.serde (preflightDeferredTools agent env.out
      pending.deferredToolCalls) w = (batch, w.tick) := rfl
  have hdone : done = runHandler agent.serde (finishDeferredTools pending
      pending.deferredToolCalls batch.approvalNeeded (auth, messages)) w' := by
    simp [done, handleDeferredToolsFlow, hpreflight, hposted]
  have hcalls : currentCalls w' = (currentCalls w).map
      (recordAll agent.serde (records.map outcome)) := hpost.calls
  have hcontext : messages = ctx ++ recordMessages records := hpost.context
  have happroval := hpost.approval
  have hauth : auth.isSome = records.any asksAuth := by
    simpa using hpost.auth
  rw [hdone]
  cases auth with
  | some instructions =>
    -- a deferred call asked for a token
    rcases authPending_isSome pending ctx hauth.symm with ⟨fresh, hfresh, hctx⟩
    refine ⟨hcalls, .inr ⟨rfl, fresh, ?_, hctx⟩⟩
    exact happroval.trans (by simp [records, hfresh])
  | none =>
    have hbefore := beforeAuth_eq_self hauth.symm
    cases batch.approvalNeeded with
    | some candidate =>
      refine ⟨hcalls, .inr ⟨rfl, _, rfl, ?_⟩⟩
      rw [hbefore]
      exact hcontext
    | none =>
      refine ⟨hcalls, .inl ⟨rfl, ?_, ?_⟩⟩
      · rw [hbefore]
        exact hcontext
      · have hnone := authPending_eq_none pending ctx hauth.symm
        exact happroval.trans (by simp [records, hnone]; rfl)

/-- What an approved call leads to. -/
structure ApprovedEffect (always : Bool) (pending : PendingApproval) (w : World)
    (done : ApprovalProgress × World) : Prop where
  calls : currentCalls done.2 =
    (currentCalls w).map (recordAll agent.serde (processedOutcomes agent env always pending w))
  restaged : primaryAsksAuth agent env pending = true →
    done.1.handed = none ∧ done.2.thread.pendingApproval = some pending
  resumed : primaryAsksAuth agent env pending = false →
    HandsOn (pending.contextMessages ++
      (pushedOutcomes agent env always pending w).map RecordedOutcome.message) w done

/-- Effect of an approved call and the calls deferred behind it. -/
theorem runApprovedTool_run : ApprovedEffect agent env always pending w
      (runHandler agent.serde (runApprovedTool agent env always pending) w) := by
  -- the state after the approved call has run and its outcome has been recorded
  let ran : World := (runHandler agent.serde (perform (.executePrimary pending.requestId))
    (runHandler agent.serde (autoApproveIfAlways always pending.toolName) w).2).2
  let recorded : World := (ThreadOp.exec agent.serde (.recordLastOutcome
    (primaryOutcome agent env pending).content (primaryOutcome agent env pending).isToolError)
    ran).2
  have hran : currentCalls ran = currentCalls w ∧
      ran.thread.pendingApproval = w.thread.pendingApproval ∧
      ran.autoApprovedTools = approvedTools always pending w := by
    cases always <;> exact ⟨rfl, rfl, rfl⟩
  have hrecorded := currentCalls_recordLastOutcome agent.serde (primaryOutcome agent env pending)
    ran
  rw [hran.1] at hrecorded
  have happroved : recorded.autoApprovedTools = approvedTools always pending w := hran.2.2
  have hpending : recorded.thread.pendingApproval = w.thread.pendingApproval := hran.2.1
  cases hask : checkAuthRequired agent.serde pending.toolName (env.primary pending) with
  | some request =>
    have hprimary : primaryAsksAuth agent env pending = true := by
      simp [primaryAsksAuth, hask]
    have hauth := handleAuthIntercept_run agent.serde request.1 request.2 pending recorded
    simp only [runApprovedTool, runHandler_bind, maybeAuthInterceptAfterPrimary, hask]
    refine ⟨?_, fun _ => ⟨rfl, hauth.2.1⟩, fun hfalse => by simp [hprimary] at hfalse⟩
    simp only [processedOutcomes, hprimary]
    exact hauth.2.2.trans hrecorded
  | none =>
    have hprimary : primaryAsksAuth agent env pending = false := by
      simp [primaryAsksAuth, hask]
    let ctx := pending.contextMessages ++ [(primaryOutcome agent env pending).message]
    have hflow := handleDeferredToolsFlow_run agent env pending ctx recorded
    simp only [happroved] at hflow
    generalize hf : runHandler agent.serde (handleDeferredToolsFlow agent env.out pending ctx
      pending.deferredToolCalls) recorded = flow at hflow
    rcases flow with ⟨⟨messages, result⟩, w'⟩
    have hdone : runHandler agent.serde (runApprovedTool agent env always pending) w =
        (.ofFlow (messages, result), w') := by
      simp only [runApprovedTool, runHandler_bind, maybeAuthInterceptAfterPrimary, hask,
        runHandler_pure]
      exact congrArg (fun flow : (List ChatMessage × Option SubmissionResult) × World =>
        (ApprovalProgress.ofFlow _, flow.2)) hf
    have hmessages : pending.contextMessages ++
        (pushedOutcomes agent env always pending w).map RecordedOutcome.message =
          ctx ++ recordMessages (beforeAuth (deferredOf agent env always pending w)) := by
      simp [pushedOutcomes, hprimary, ctx, recordMessages]
    rw [hdone]
    refine ⟨?_, fun htrue => by simp [hprimary] at htrue, fun _ => ?_⟩
    · have hcalls := hflow.1.trans (congrArg _ hrecorded)
      rw [Option.map_map] at hcalls
      simp only [processedOutcomes, hprimary]
      exact hcalls
    · rw [hmessages]
      rcases hflow.2 with ⟨hnone, hctx, happroval⟩ | ⟨hsome, fresh, hfresh, hctx⟩
      · subst hnone
        refine .inl ⟨congrArg some hctx, happroval.trans hpending⟩
      · rcases Option.isSome_iff_exists.1 hsome with ⟨value, rfl⟩
        exact .inr ⟨rfl, fresh, hfresh, hctx⟩

end Approved

end Axinite.Approval
