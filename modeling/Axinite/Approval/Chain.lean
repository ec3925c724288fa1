import Axinite.Approval.Effect
import Axinite.Llm.Protocol

/-!
# Chains of approvals

A batch of tool calls stops at the first call that needs approval.  Deciding about this
call may lead to the next request of the same batch, so a batch gives rise to a chain of
decisions.

Main results:

- Theorem `ownOutcomes_step_iff`: when a decision keeps every outcome on its own call.
- Theorem `contexts_step_iff`: when a decision keeps the tool protocol of the contexts.
- Theorem `approvals_ownOutcomes_iff`: the chains in which every outcome is recorded on
  its own call.
- Theorem `approvals_contexts_iff`: the chains in which all contexts keep the protocol.
-/

namespace Axinite.Approval

open Json Llm Session Tools ThreadOps Dispatcher Foundation List

/-! ## One decision -/

/-- A decision of the user and what the outside world answers to it. -/
structure Decision where
  env : ApprovalEnv
  params : ApprovalParams

/-- The decision is about this approval. -/
def Decision.concerns (decision : Decision) (pending : PendingApproval) : Bool :=
  decision.params.requestId.all fun reqId => reqId = pending.requestId

/-- The decision lets the call of this approval run. -/
def Decision.executes (decision : Decision) (pending : PendingApproval) : Bool :=
  decision.concerns pending && decision.params.approved

/-- The approval that a decision takes out of the thread. -/
def takenApproval (w : World) : Option PendingApproval :=
  if w.thread.state = .awaitingApproval then w.thread.pendingApproval else none

open Decision

variable {pending : PendingApproval}

section Decide

variable (agent : Agent) (decision : Decision) {w : World}

/-- Run the handler of a decision, up to the agentic loop. -/
def decided (w : World) : ApprovalProgress × World :=
  runHandler agent.serde (decideApproval agent decision.env decision.params) w

theorem takePending_eq (w : World) :
    (takePendingApprovalIfAwaiting w.tick.now w.thread).1 = takenApproval w := by
  unfold takePendingApprovalIfAwaiting takenApproval
  by_cases hstate : w.thread.state = .awaitingApproval
  · rw [if_neg (not_not.2 hstate), if_pos hstate]
    cases hp : w.thread.pendingApproval <;> simp [Thread.takePendingApproval, hp]
  · rw [if_pos hstate, if_neg hstate]

/-- A decision about nothing leaves the thread alone. -/
theorem decided_of_none (h : takenApproval w = none) : (decided agent decision w).1.handed = none ∧
      (decided agent decision w).2.thread = w.thread := by
  have hthread := takePendingApprovalIfAwaiting_eq_none (Prod.ext ((takePending_eq w).trans h) rfl)
  have hexec : runHandler agent.serde (perform .takePendingApprovalIfAwaiting) w = (none, _) :=
    Prod.ext ((takePending_eq w).trans h) rfl
  rw [decided, decideApproval, runHandler_bind, hexec]
  exact ⟨rfl, hthread⟩

/-- The state after an approval has been taken. -/
def afterTake (w : World) : World :=
  w.tick.setThread
    { w.thread with pendingApproval := none, state := .processing, updatedAt := w.tick.now }

/-- A decision about an approval takes it first. -/
theorem decided_of_some {pending : PendingApproval} (h : takenApproval w = some pending) :
    decided agent decision w =
      if decision.concerns pending then
        if decision.params.approved then
          runHandler agent.serde
            (runApprovedTool agent decision.env decision.params.always pending) (afterTake w)
        else
          let done := runHandler agent.serde (completeRejectionAndPersist pending) (afterTake w)
          (.finished done.1, done.2)
      else
        (.finished (.error "Request ID mismatch. Use the correct request ID."),
          (ThreadOp.exec agent.serde (.awaitApproval pending) (afterTake w)).2) := by
  have hthread := (takePendingApprovalIfAwaiting_eq_some
    (Prod.ext ((takePending_eq w).trans h) rfl)).2.2
  have hexec : runHandler agent.serde (perform .takePendingApprovalIfAwaiting) w =
      (some pending, afterTake w) :=
    Prod.ext ((takePending_eq w).trans h) (congrArg w.tick.setThread hthread)
  rw [decided, decideApproval, runHandler_bind, hexec]
  rcases hparams : decision.params with ⟨_ | reqId, approved, always⟩
  · cases approved <;> simp [restageOnRequestIdMismatch, concerns, hparams]
  · by_cases hid : reqId = pending.requestId
    · cases approved <;> simp [restageOnRequestIdMismatch, concerns, hparams, hid]
    · simp [restageOnRequestIdMismatch, concerns, hparams, hid]
      rfl

end Decide

/-! ## The chain -/

/-- The shared state along a chain of decisions.  `recorded` tells whether the pending call
is the call recorded last in the current turn, and `handed` is the context that the last
decision handed to the agentic loop. -/
structure Chain where
  world : World
  recorded : Bool
  handed : Option (List ChatMessage)

/-- Ask for the approvals of a batch of tool calls. -/
def requestApproval (agent : Agent) (out : Outside) (toolCalls : List ToolCall)
    (content : Option String) (messages : List ChatMessage) : Handler Unit := do
  let done ← executeToolCalls agent out toolCalls content messages
  match done.1 with
  | some (.needApproval pending) => perform (.awaitApproval pending)
  | _ => pure ()

def stoppedForApproval : Option LoopOutcome → Bool
  | some (.needApproval _) => true
  | _ => false

/-- The chain that a batch starts.  A request of the batch is for the call it recorded last;
an approval that was pending before belongs to another batch. -/
def Chain.start (agent : Agent) (out : Outside) (toolCalls : List ToolCall)
    (content : Option String) (messages : List ChatMessage) (w : World) : Chain where
  world := (runHandler agent.serde (requestApproval agent out toolCalls content messages) w).2
  recorded := stoppedForApproval
    (runHandler agent.serde (executeToolCalls agent out toolCalls content messages) w).1.1
  handed := none

/-- The decision leaves the same call pending. -/
def restages (agent : Agent) (decision : Decision) (pending : PendingApproval) : Bool :=
  !decision.concerns pending ||
    decision.params.approved && primaryAsksAuth agent decision.env pending

/-- Take a decision.  A request that follows is for a deferred call, and deferred calls
have not been recorded. -/
def Chain.step (agent : Agent) (s : Chain) (decision : Decision) : Chain where
  world := (decided agent decision s.world).2
  recorded := s.recorded && (takenApproval s.world).all (restages agent decision)
  handed := (decided agent decision s.world).1.handed

def Chain.processed (agent : Agent) (s : Chain) (decision : Decision) : List RecordedOutcome :=
  match takenApproval s.world with
  | some pending =>
    if decision.executes pending then
      processedOutcomes agent decision.env decision.params.always pending s.world
    else []
  | none => []

/-- The outcomes in the context that a decision hands on. -/
def Chain.pushed (agent : Agent) (s : Chain) (decision : Decision) : List RecordedOutcome :=
  match takenApproval s.world with
  | some pending =>
    if decision.executes pending then
      pushedOutcomes agent decision.env decision.params.always pending s.world
    else []
  | none => []

open RecordedOutcome

/-- What a decision does to the recorded calls and to the contexts. -/
structure StepEffect (agent : Agent) (s : Chain) (decision : Decision) : Prop where
  calls : currentCalls (s.step agent decision).world =
    (currentCalls s.world).map (recordAll agent.serde (s.processed agent decision))
  restaged : (takenApproval s.world).all (restages agent decision) = true →
    (s.step agent decision).world.thread.pendingApproval = s.world.thread.pendingApproval
  /-- Nothing is handed on, or the context with the results behind it. -/
  contexts : (s.pushed agent decision = [] ∧ (s.step agent decision).handed = none ∧
      ∀ pending, (s.step agent decision).world.thread.pendingApproval = some pending →
        s.world.thread.pendingApproval = some pending) ∨
    ∃ pending, takenApproval s.world = some pending ∧
      HandsOn (pending.contextMessages ++ (s.pushed agent decision).map message)
        (afterTake s.world) (decided agent decision s.world)

theorem takenApproval_eq_some {w : World}
    (h : takenApproval w = some pending) : w.thread.pendingApproval = some pending := by
  unfold takenApproval at h
  split at h
  · exact h
  · simp at h

/-- A rejection leaves the recorded calls alone. -/
theorem currentCalls_completeRejection (serde : SerdeJson) (pending : PendingApproval) (w : World) :
    currentCalls (runHandler serde (completeRejectionAndPersist pending) w).2 = currentCalls w := by
  obtain ⟨rejection, hthread⟩ : ∃ rejection,
      (runHandler serde (completeRejectionAndPersist pending) w).2.thread.turns =
        w.thread.turns.modifyLast (Turn.complete w.tick.now rejection) := ⟨_, rfl⟩
  rw [currentCalls, Thread.lastTurn, hthread, getLast?_modifyLast, Option.map_map]
  rfl

open Chain

variable (agent : Agent) (s : Chain) (decision : Decision)

section StepEffect

variable {s : Chain} (decision : Decision)

theorem stepEffect_of_none (htaken : takenApproval s.world = none) :
    StepEffect agent s decision := by
  have hdone := decided_of_none agent decision htaken
  have hkept := congrArg Thread.pendingApproval hdone.2
  refine ⟨?_, fun _ => hkept,
    .inl ⟨by simp [pushed, htaken], hdone.1, fun _ => hkept.symm.trans⟩⟩
  simp only [step, processed, htaken, currentCalls, hdone.2]
  exact Option.map_id'.symm

variable (htaken : takenApproval s.world = some pending)

include htaken

/-- The call runs. -/
theorem stepEffect_of_approved (hconcerns : decision.concerns pending = true)
    (happroved : decision.params.approved = true) : StepEffect agent s decision := by
  have hdone := decided_of_some agent decision htaken
  rw [if_pos hconcerns, if_pos happroved] at hdone
  have hrun := runApprovedTool_run agent decision.env decision.params.always pending
    (afterTake s.world)
  rw [← hdone] at hrun
  have hpending := takenApproval_eq_some htaken
  refine ⟨?_, fun hrestages => ?_, ?_⟩
  · have hcalls := hrun.calls
    simp only [processed, htaken, executes, hconcerns, happroved]
    exact hcalls
  · have hauth : primaryAsksAuth agent decision.env pending = true := by
      simpa [htaken, restages, hconcerns, happroved] using hrestages
    rw [hpending]
    exact (hrun.restaged hauth).2
  · have hpushed : s.pushed agent decision =
        pushedOutcomes agent decision.env decision.params.always pending s.world := by
      simp [pushed, htaken, executes, hconcerns, happroved]
    rw [hpushed]
    cases hauth : primaryAsksAuth agent decision.env pending with
    | true =>
      obtain ⟨hhanded, hkept⟩ := hrun.restaged hauth
      exact .inl ⟨by simp [pushedOutcomes, hauth], hhanded,
        fun _ hnow => hpending.trans (hkept.symm.trans hnow)⟩
    | false => exact .inr ⟨pending, htaken, hrun.resumed hauth⟩

/-- The call is rejected. -/
theorem stepEffect_of_rejected (hconcerns : decision.concerns pending = true)
    (hrejected : decision.params.approved = false) : StepEffect agent s decision := by
  have hdone := decided_of_some agent decision htaken
  rw [if_pos hconcerns, if_neg (by simp [hrejected])] at hdone
  refine ⟨?_, fun hrestages => ?_, .inl ⟨?_, ?_⟩⟩
  · have hcalls := currentCalls_completeRejection agent.serde pending (afterTake s.world)
    simp only [step, processed, htaken, executes, hrejected, hdone, Bool.and_false]
    exact hcalls.trans Option.map_id'.symm
  · simp [htaken, restages, hconcerns, hrejected] at hrestages
  · simp [pushed, htaken, executes, hrejected]
  · simp only [step, hdone]
    exact ⟨rfl, nofun⟩

/-- Another request was meant. -/
theorem stepEffect_of_other (hother : decision.concerns pending = false) :
    StepEffect agent s decision := by
  have hdone := decided_of_some agent decision htaken
  rw [if_neg (by simp [hother])] at hdone
  have hpending := takenApproval_eq_some htaken
  refine ⟨?_, fun _ => ?_, .inl ⟨?_, ?_⟩⟩
  · simp only [step, processed, htaken, executes, hother, hdone]
    exact Option.map_id'.symm
  · rw [hpending, step, hdone]
    rfl
  · simp [pushed, htaken, executes, hother]
  · rw [hpending, step, hdone]
    exact ⟨rfl, fun _ => id⟩

end StepEffect

/-- Effect of a decision. -/
theorem stepEffect : StepEffect agent s decision := by
  cases htaken : takenApproval s.world with
  | none => exact stepEffect_of_none _ _ htaken
  | some pending =>
    cases hconcerns : decision.concerns pending with
    | false => exact stepEffect_of_other _ _ htaken hconcerns
    | true =>
      cases happroved : decision.params.approved with
      | false => exact stepEffect_of_rejected _ _ htaken hconcerns happroved
      | true => exact stepEffect_of_approved _ _ htaken hconcerns happroved

/-! ## Outcomes on their own calls -/

/-- The outcome that readers of a recorded call see: an error hides a result. -/
def readOutcome (call : TurnToolCall) : StoredOutcome :=
  match call.error with
  | some error => (none, some error)
  | none => (call.result, none)

/-- Name and visible outcome of a recorded call. -/
def callView (call : TurnToolCall) : String × StoredOutcome :=
  (call.name, readOutcome call)

/-- Name and outcome that a slot of its own would show for a call. -/
def outcomeView (serde : SerdeJson) (outcome : RecordedOutcome) : String × StoredOutcome :=
  (outcome.toolCall.name, outcome.stored serde)

/-- What the turn should show after outcomes for the approved call and for deferred calls:
the approved call keeps its slot if it has been recorded, every other call gets a new one,
and all other slots stay as they were. -/
def ownView (serde : SerdeJson) (recorded : Bool) (before : List TurnToolCall) :
    List RecordedOutcome → List (String × StoredOutcome)
  | [] => before.map callView
  | outcomes =>
    (if recorded then before.dropLast else before).map callView ++
      outcomes.map (outcomeView serde)

/-- After the decision every call of the turn shows its own outcome. -/
def OwnOutcomes (agent : Agent) (s : Chain) (decision : Decision) : Prop :=
  (currentCalls (s.step agent decision).world).map (List.map callView) =
    (currentCalls s.world).map fun before =>
      ownView agent.serde s.recorded before (s.processed agent decision)

/-- A decision that lets a call run concerns a call that has been recorded, and either the
call asks for an authentication or nothing is deferred behind it but calls that wait for an
approval. -/
def OnlyRecordedCall (agent : Agent) (s : Chain) (decision : Decision) : Prop :=
  ∀ pending, takenApproval s.world = some pending → decision.executes pending = true →
    s.recorded = true ∧
      (primaryAsksAuth agent decision.env pending = true ∨
        ∀ tc ∈ pending.deferredToolCalls.head?, NeedsApproval agent decision.env.out
          (approvedTools decision.params.always pending s.world) 0 tc)

/-- There is a turn, and a recorded pending call stands last in it, without an error. -/
def Chain.Valid (s : Chain) : Prop :=
  ∃ calls, currentCalls s.world = some calls ∧
    (s.recorded = true → ∀ pending, s.world.thread.pendingApproval = some pending →
      ∃ init call, calls = init ++ [call] ∧ call.name = pending.toolName ∧ call.error = none)

theorem callView_recordInto (serde : SerdeJson) (outcome : RecordedOutcome) {call : TurnToolCall}
    (hname : call.name = outcome.toolCall.name) (herror : call.error = none) :
    callView (recordInto serde outcome call) = outcomeView serde outcome := by
  unfold callView outcomeView readOutcome recordInto stored storedOutcome
  cases outcome.isToolError <;> simp [hname, herror]

/-- A decision records at most the outcome of a recorded call. -/
theorem onlyRecordedCall_iff : OnlyRecordedCall agent s decision ↔ s.processed agent decision = [] ∨
      s.recorded = true ∧ (s.processed agent decision).length = 1 := by
  unfold OnlyRecordedCall processed
  cases htaken : takenApproval s.world with
  | none => simp
  | some pending =>
    by_cases hexecutes : decision.executes pending = true
    · have hdeferred := deferredOf_eq_nil_iff agent decision.env decision.params.always pending
        s.world
      cases hauth : primaryAsksAuth agent decision.env pending <;>
        simp [hexecutes, processedOutcomes, hauth, hdeferred]
    · simp [hexecutes]

theorem processed_eq_nil_or_cons : s.processed agent decision = [] ∨ ∃ pending deferred,
      s.world.thread.pendingApproval = some pending ∧
        s.processed agent decision = primaryOutcome agent decision.env pending :: deferred := by
  unfold processed
  cases htaken : takenApproval s.world with
  | none => exact .inl rfl
  | some pending =>
    by_cases hexecutes : decision.executes pending = true
    · simp only [hexecutes]
      exact .inr ⟨pending, _, takenApproval_eq_some htaken, rfl⟩
    · simp [hexecutes]

/-- A decision keeps every outcome on its own call exactly if it records at most one
outcome, that of a recorded call. -/
theorem ownOutcomes_step_iff (hs : s.Valid) :
    OwnOutcomes agent s decision ↔ OnlyRecordedCall agent s decision := by
  rcases hs with ⟨calls, hcalls, hlast⟩
  rw [OwnOutcomes, onlyRecordedCall_iff, (stepEffect _ s _).calls, hcalls]
  simp only [Option.map_some, Option.some.injEq]
  rcases processed_eq_nil_or_cons agent s decision with hnil | ⟨pending, deferred, hp, hcons⟩
  · simp [hnil, recordAll, ownView]
  · rw [hcons]
    constructor
    · intro heq
      -- the turn keeps its length, so there is no room for new slots
      have hlen := congrArg length heq
      simp only [length_map, length_recordAll, ownView, length_append, length_cons] at hlen
      cases hrec : s.recorded with
      | false => simp [hrec] at hlen
      | true =>
        simp only [hrec, if_true, length_dropLast] at hlen
        refine .inr ⟨rfl, ?_⟩
        rw [length_cons]
        omega
    · intro h
      rcases h with hnil | ⟨hrec, hlen⟩
      · simp at hnil
      · have hdeferred : deferred = [] := by simpa using hlen
        rcases hlast hrec pending hp with ⟨init, call, rfl, hname, herror⟩
        have hview := callView_recordInto agent.serde
          (primaryOutcome agent decision.env _) hname herror
        simp [hdeferred, recordAll, ownView, hrec, modifyLast_concat, hview]

/-- Only a successful result can ask for an authentication. -/
theorem primaryOutcome_of_asksAuth {agent : Agent} {env : ApprovalEnv}
    (h : primaryAsksAuth agent env pending = true) :
    (primaryOutcome agent env pending).isToolError = false := by
  unfold primaryAsksAuth checkAuthRequired at h
  unfold primaryOutcome
  cases hresult : env.primary pending with
  | ok output => rfl
  | error e =>
    rw [hresult] at h
    split at h <;> simp at h

/-- A decision that leaves the same call pending records nothing or one success. -/
theorem processed_of_restages {agent : Agent} {s : Chain} {decision : Decision}
    (h : (takenApproval s.world).all (restages agent decision) = true) :
    s.processed agent decision = [] ∨
      ∃ outcome, s.processed agent decision = [outcome] ∧ outcome.isToolError = false := by
  unfold processed
  cases htaken : takenApproval s.world with
  | none => exact .inl rfl
  | some pending =>
    by_cases hexecutes : decision.executes pending = true
    · have hboth := hexecutes
      rw [executes, Bool.and_eq_true] at hboth
      have hauth : primaryAsksAuth agent decision.env pending = true := by
        simpa [htaken, restages, hboth.1, hboth.2] using h
      refine .inr ⟨primaryOutcome _ _ _, ?_,
        primaryOutcome_of_asksAuth hauth⟩
      simp [hexecutes, processedOutcomes, hauth]
    · simp [hexecutes]

/-- Decisions keep the chain valid. -/
theorem valid_step (hs : s.Valid) : (s.step agent decision).Valid := by
  rcases hs with ⟨calls, hcalls, hlast⟩
  have heffect := stepEffect agent s decision
  refine ⟨recordAll agent.serde (s.processed agent decision) calls, ?_, ?_⟩
  · rw [heffect.calls, hcalls]
    rfl
  · intro hrec pending hpending
    have hsplit : s.recorded = true ∧
        (takenApproval s.world).all (restages agent decision) = true := by
      simpa [step] using hrec
    rw [heffect.restaged hsplit.2] at hpending
    rcases hlast hsplit.1 pending hpending with ⟨init, call, rfl, hname, herror⟩
    rcases processed_of_restages hsplit.2 with hnil | ⟨outcome, hone, hok⟩
    · exact ⟨init, call, by simp [hnil, recordAll], hname, herror⟩
    · refine ⟨init, recordInto agent.serde outcome call, ?_, ?_, ?_⟩
      · simp [hone, recordAll, modifyLast_concat]
      · simpa [recordInto, hok] using hname
      · simpa [recordInto, hok] using herror

/-! ## The start of a chain -/

section Start

variable (agent : Agent) (out : Outside) (toolCalls : List ToolCall) (content : Option String)
  (messages : List ChatMessage) {w : World}

theorem turns_start (w : World) :
    (start agent out toolCalls content messages w).world.thread.turns =
      (runHandler agent.serde
        (executeToolCalls agent out toolCalls content messages) w).2.thread.turns := by
  simp only [start, requestApproval, runHandler_bind]
  split <;> rfl

/-- At the start of a chain the request of the batch is pending, or what was pending before
it. -/
theorem pendingApproval_start
    (h : (start agent out toolCalls content messages w).world.thread.pendingApproval =
      some pending) :
    (runHandler agent.serde (executeToolCalls agent out toolCalls content messages) w).1.1 =
        some (.needApproval pending) ∨
      (start agent out toolCalls content messages w).recorded = false ∧
        w.thread.pendingApproval = some pending := by
  have hkeeps := runHandler_keepsApproval
    (executeToolCalls_roundOps agent out toolCalls content messages) agent.serde w
  simp only [start, requestApproval, runHandler_bind] at h ⊢
  split at h
  · rename_i p hp
    have hpending : some p = some pending := h
    rw [hp, Option.some.inj hpending]
    exact .inl rfl
  · rename_i hother
    refine .inr ⟨?_, hkeeps.symm.trans h⟩
    unfold stoppedForApproval
    split
    · rename_i p hp
      exact absurd hp (hother p)
    · rfl

theorem start_valid (hturn : (currentCalls w).isSome) :
    (start agent out toolCalls content messages w).Valid := by
  rcases Option.isSome_iff_exists.1 hturn with ⟨calls, hcalls⟩
  have hrun := (executeToolCalls_run agent out toolCalls content messages w).2
  have hnow := currentCalls_of_turns
    ((turns_start _ out _ _ _ w).trans hrun)
  rw [hcalls] at hnow
  refine ⟨_, hnow, fun hrecorded pending hpending => ?_⟩
  have hasked := (pendingApproval_start _ out _ _ _ hpending).resolve_right
    (fun hold => by simp [hold.1] at hrecorded)
  rcases executeToolCalls_needApproval hasked with ⟨candidate, hcandidate, hname, _, _⟩
  -- the candidate is recorded behind the preflighted calls, which get all the outcomes
  let batch := (roundBatch agent out toolCalls w).1
  have hprefix := (postflightOutcomes_toolCalls_isPrefix agent
    (runPhase2 agent out batch.runnable (replicate batch.preflight.length none)) 0
    batch.preflight).length_le
  have hsplit : calls ++ recordedCalls out (effectiveToolCalls batch (some candidate)) =
      (calls ++ recordedCalls out (batch.preflight.map Prod.fst)) ++
        [blankCall { candidate.toolCall with
          arguments := redactSingleToolCall out candidate.toolCall }] := by
    simp [recordedCalls, effectiveToolCalls]
  have hroom : 0 + ((roundOutcomes agent out batch).map
      (stored agent.serde)).length ≤
        (calls ++ recordedCalls out (batch.preflight.map Prod.fst)).length := by
    simp only [length_map, length_append, recordedCalls, roundOutcomes] at hprefix ⊢
    omega
  have hwritten := writeOutcomes_concat hroom (blankCall { candidate.toolCall with
    arguments := redactSingleToolCall out candidate.toolCall })
  rw [← hsplit] at hwritten
  refine ⟨_, _, .trans ?_ hwritten, hname.symm, rfl⟩
  rw [hcandidate]

end Start

/-- Along the chain of approvals of a batch, every outcome is recorded on its own call
exactly if each decision records at most the outcome of a call that has been recorded. -/
theorem approvals_ownOutcomes_iff (agent : Agent) (out : Outside) (toolCalls : List ToolCall)
    (content : Option String) (messages : List ChatMessage) (w : World)
    (hturn : (currentCalls w).isSome) (decisions : List Decision) :
    Runs.AllSteps (step agent) (OwnOutcomes agent)
        (start agent out toolCalls content messages w) decisions ↔
      Runs.AllSteps (step agent) (OnlyRecordedCall agent)
        (start agent out toolCalls content messages w) decisions :=
  Runs.allSteps_congr _ (ownOutcomes_step_iff _) (valid_step _)
    (start_valid _ out _ _ _ hturn) _

/-- A world in which the tool `shell` needs approval and every tool answers `ok`. -/
def guardedShell : Outside :=
  guarded "shell" "ok"

/-- The chain of a batch that starts with a call of `shell`. -/
def shellChain (deferred : List ToolCall) : Chain :=
  start plainAgent guardedShell
    ({ id := "call_1", name := "shell", arguments := .null } :: deferred) none [] turnStart

/-- Approve the pending call; it answers `done`. -/
def approveOnce : Decision where
  env := { primary := fun _ => .ok "done", out := guardedShell }
  params := { requestId := none, approved := true, always := false }

/-- Behind a single call nothing is deferred, and the call is declared. -/
theorem shellChain_pending (h : takenApproval (shellChain []).world = some pending) :
    pending.deferredToolCalls = [] ∧ pending.toolCallId ∈ declaredIds pending.contextMessages := by
  have hsample : (takenApproval (shellChain []).world).all (fun pending =>
      pending.deferredToolCalls = [] ∧
        pending.toolCallId ∈ declaredIds pending.contextMessages) = true := by
    decide +kernel
  rw [h] at hsample
  simpa using hsample

theorem approvals_ownOutcomes_shell :
    Runs.AllSteps (step plainAgent) (OwnOutcomes plainAgent) (shellChain []) [approveOnce] := by
  refine (approvals_ownOutcomes_iff plainAgent guardedShell _ none [] turnStart rfl
    [approveOnce]).2 ⟨?_, trivial⟩
  intro pending hpending _
  refine ⟨by decide +kernel, .inr ?_⟩
  rw [(shellChain_pending hpending).1]
  simp

/-- The outcome of a deferred call overwrites that of the approved call. -/
theorem approvals_deferred_overwrites :
    ¬ Runs.AllSteps (step plainAgent) (OwnOutcomes plainAgent)
        (shellChain [{ id := "call_2", name := "echo", arguments := .null }]) [approveOnce] := by
  intro h
  have hstep := h.1
  revert hstep
  unfold OwnOutcomes
  decide +kernel

/-! ## Contexts -/

/-- The contexts that are handed on or stored keep the tool protocol. -/
def Chain.ContextsOk (s : Chain) : Prop :=
  (∀ contextMessages, s.handed = some contextMessages → ToolProtocol contextMessages) ∧
    ∀ pending, s.world.thread.pendingApproval = some pending →
      ToolProtocol pending.contextMessages

/-- A decision that lets a call run finds this call and the deferred calls that are answered
behind it declared in the context of the approval. -/
def DeclaredCalls (agent : Agent) (s : Chain) (decision : Decision) : Prop :=
  ∀ pending, takenApproval s.world = some pending → decision.executes pending = true →
    primaryAsksAuth agent decision.env pending = false →
      pending.toolCallId ∈ declaredIds pending.contextMessages ∧
        ∀ tc ∈ pending.deferredToolCalls.take
            (answeredCount agent decision.env decision.params.always pending s.world),
          tc.id ∈ declaredIds pending.contextMessages

/-- The results that a decision pushes are those of declared calls. -/
theorem declaredCalls_iff : DeclaredCalls agent s decision ↔
      ∀ pending, takenApproval s.world = some pending → ∀ outcome ∈ s.pushed agent decision,
        outcome.toolCall.id ∈ declaredIds pending.contextMessages := by
  unfold DeclaredCalls pushed
  cases htaken : takenApproval s.world with
  | none => simp
  | some pending =>
    by_cases hexecutes : decision.executes pending = true
    · have hids := beforeAuth_ids agent decision.env decision.params.always pending s.world
      cases hauth : primaryAsksAuth agent decision.env pending with
      | true => simp [pushedOutcomes, hauth]
      | false =>
        have hiff : (∀ tc ∈ pending.deferredToolCalls.take
            (answeredCount agent decision.env decision.params.always pending s.world),
              tc.id ∈ declaredIds pending.contextMessages) ↔
            ∀ record ∈ beforeAuth (deferredOf agent decision.env decision.params.always pending
              s.world), record.outcome.toolCall.id ∈ declaredIds pending.contextMessages := by
          rw [← forall_mem_map (f := ToolCall.id)
            (P := fun id => id ∈ declaredIds _), ← hids,
            forall_mem_map]
        simp [hexecutes, pushedOutcomes, hauth, hiff, primaryOutcome]
    · simp [hexecutes]

theorem toolProtocol_append_outcomes (contextMessages : List ChatMessage)
    (outcomes : List RecordedOutcome) :
    ToolProtocol (contextMessages ++ outcomes.map message) ↔
      ToolProtocol contextMessages ∧
        ∀ outcome ∈ outcomes, outcome.toolCall.id ∈ declaredIds contextMessages :=
  toolProtocol_append_toolResults message (fun outcome => outcome.toolCall.id)
    (fun _ => ⟨rfl, rfl⟩) _ _

/-- A decision keeps the protocol of the contexts exactly if the calls it pushes results
for are declared. -/
theorem contexts_step_iff (hs : s.ContextsOk) :
    (s.step agent decision).ContextsOk ↔ DeclaredCalls agent s decision := by
  rw [declaredCalls_iff]
  rcases (stepEffect agent s decision).contexts with
    ⟨hpushed, hhanded, hkept⟩ | ⟨pending, htaken, hhands⟩
  · -- a step that hands nothing on and stores nothing new cannot break the protocol
    refine iff_of_true ⟨by simp [hhanded], fun pending hpending => ?_⟩ (by simp [hpushed])
    exact hs.2 _ (hkept _ hpending)
  · have hiff : (s.step agent decision).ContextsOk ↔ ToolProtocol (pending.contextMessages ++
          (s.pushed agent decision).map message) := by
      rcases hhands with ⟨hhanded, hstored⟩ | ⟨hhanded, fresh, hstored, hfresh⟩
      · have hnone : (afterTake s.world).thread.pendingApproval = none := rfl
        simp [ContextsOk, step, hhanded, hstored, hnone]
      · simp [ContextsOk, step, hhanded, hstored, hfresh]
    rw [hiff, toolProtocol_append_outcomes, htaken]
    simp [hs.2 _ (takenApproval_eq_some htaken)]

/-- The context in the request of a batch keeps the protocol. -/
theorem toolProtocol_needApproval {agent : Agent} {out : Outside} {toolCalls : List ToolCall}
    {content : Option String} {messages : List ChatMessage} {w : World}
    (hmessages : ToolProtocol messages)
    (h : (runHandler agent.serde
      (executeToolCalls agent out toolCalls content messages) w).1.1 = some (.needApproval pending)) :
    ToolProtocol pending.contextMessages := by
  rcases executeToolCalls_needApproval h with ⟨candidate, _, _, _, hcontext⟩
  rw [hcontext, (executeToolCalls_run _ out _ _ _ w).1,
    toolProtocol_append_outcomes, toolProtocol_concat]
  refine ⟨⟨hmessages, fun htool => by cases htool⟩, fun outcome houtcome => ?_⟩
  let batch := (roundBatch agent out toolCalls w).1
  have hmem : outcome.toolCall ∈ batch.preflight.map Prod.fst :=
    (postflightOutcomes_toolCalls_isPrefix _
      _ 0
      _).subset (mem_map_of_mem houtcome)
  rw [declaredIds_append, declaredIds_singleton, declaredCalls_assistantWithToolCalls]
  refine mem_append.2 (.inr (mem_map_of_mem ?_))
  exact mem_append.2 (.inl hmem)

/-- A batch starts its chain with a context that keeps the protocol. -/
theorem start_contextsOk (out : Outside) (toolCalls : List ToolCall) (content : Option String)
    {messages : List ChatMessage} {w : World} (hmessages : ToolProtocol messages)
    (hold : ∀ pending, w.thread.pendingApproval = some pending →
      ToolProtocol pending.contextMessages) :
    (start agent out toolCalls content messages w).ContextsOk := by
  refine ⟨by simp [start], fun pending hpending => ?_⟩
  rcases pendingApproval_start agent out toolCalls content messages hpending with
    hasked | ⟨_, hbefore⟩
  · exact toolProtocol_needApproval hmessages hasked
  · exact hold _ hbefore

end Axinite.Approval
