import Axinite.Dispatcher.ToolExec
import Mathlib.Logic.Function.Iterate

/-!
# The agentic loop of the chat dispatcher

The loop asks the model, runs the tool calls it makes and asks again, until the model
answers with text, a call needs approval, the thread is interrupted or the number of
iterations is used up.
-/

namespace Axinite.Dispatcher

open Json Llm Session Tools ThreadOps List
open Foundation.Program (run_bind)

/-- What the model answers. -/
inductive RespondResult where
  | text (text : String)
  | toolCalls (toolCalls : List ToolCall) (content : Option String)

/-- A failed call of the model. -/
inductive LlmError where
  | contextLengthExceeded (used limit : Nat)
  | other (display : String)

/-- Answers of the outside world during one run of the loop. -/
structure LoopEnv where
  maxToolIterations : Nat
  /-- The cost guard refuses the call in this iteration. -/
  costLimit : Nat → Option String
  /-- The answer to the first attempt and to the retry of an iteration. -/
  respondWithTools : Nat → List ChatMessage → Except LlmError RespondResult
  retryWithTools : Nat → List ChatMessage → Except LlmError RespondResult
  /-- Some tool is on offer in this iteration. -/
  toolsAvailable : Nat → Bool
  llmSignalsToolIntent : String → Bool
  stripInternalToolCallText : String → String
  out : Nat → Outside

/-- Thresholds that steer the loop away from endless tool calls. -/
structure LoopThresholds where
  nudgeAt : Nat
  forceTextAt : Nat
  hardCeiling : Nat

/-- Thresholds for a number of iterations; both ends of the range saturate. -/
def computeLoopThresholds (maxToolIterations : Nat) : LoopThresholds :=
  let maxToolIterations := max maxToolIterations 1
  { nudgeAt := maxToolIterations - 1
    forceTextAt := maxToolIterations
    hardCeiling := min (maxToolIterations + 1) (UInt64.size - 1) }

/-- The hint that the iterations are almost used up. -/
def nudgeMessage : ChatMessage :=
  .system ("You are approaching the tool call limit. " ++
    "Provide your best final answer on the next response " ++
    "using the information you have gathered so far. " ++
    "Do not call any more tools.")

/-- The hint for a model that announces a tool call instead of making it. -/
def toolIntentNudge : String :=
  "You said you would perform an action, but you did not include any tool calls.\n" ++
    "Do NOT describe what you intend to do — actually call the tool now.\n" ++
    "Use the tool_calls mechanism to invoke the appropriate tool."

/-! ## Calling the model -/

/-- Split a context before its last user message. -/
def splitAtLastUser (messages : List ChatMessage) : Option (List ChatMessage × List ChatMessage) :=
  let tail := messages.reverse.takeWhile fun m => m.role ≠ .user
  match (messages.reverse.dropWhile fun m => m.role ≠ .user) with
  | [] => none
  | user :: before => some (before.reverse, user :: tail.reverse)

/-- Shorten a context that the model refused: the system messages, a note, and the
messages from the last user message on. -/
def compactMessagesForRetry (messages : List ChatMessage) : List ChatMessage :=
  match splitAtLastUser messages with
  | some (before, current) =>
    (before.filter fun m => m.role = .system) ++
      (if before.isEmpty then []
        else
          [.system ("[Note: Earlier conversation history was automatically compacted " ++
            "to fit within the context window. The most recent exchange is preserved below.]")]) ++
      current
  | none =>
    (messages.filter fun m => m.role = .system) ++ messages.filter fun m => m.role ≠ .system

def LlmError.display : LlmError → String
  | contextLengthExceeded used limit =>
    "LLM error: Context length exceeded: " ++ toString used ++ " tokens used, " ++
      toString limit ++ " allowed"
  | other text => "LLM error: " ++ text

/-- Call the model; a context that is too long is shortened once. -/
def callLlm (env : LoopEnv) (iteration : Nat) (messages : List ChatMessage) :
    Except String (RespondResult × List ChatMessage) :=
  match env.costLimit iteration with
  | some limit => .error ("LLM error: Invalid response from agent: " ++ limit)
  | none =>
    match env.respondWithTools iteration messages with
    | .ok result => .ok (result, messages)
    | .error (.contextLengthExceeded _ _) =>
      let messages := compactMessagesForRetry messages
      match env.retryWithTools iteration messages with
      | .ok result => .ok (result, messages)
      | .error retryErr => .error retryErr.display
    | .error e => .error e.display

/-! ## The loop -/

/-- A text that announces a tool call is answered with a hint, at most twice in a row. -/
def shouldNudgeToolIntent (env : LoopEnv) (iteration : Nat) (forceText : Bool)
    (nudgesSoFar : Nat) (text : String) : Bool :=
  decide (nudgesSoFar < 2) && (env.toolsAvailable iteration && !forceText) &&
    env.llmSignalsToolIntent text

/-- The iterations from `iteration` on, as long as some remain. -/
def loopFrom (agent : Agent) (env : LoopEnv) :
    (remaining iteration nudges : Nat) → List ChatMessage → Handler (Except String LoopOutcome)
  | 0, _, _, _ => pure (.ok .maxIterations)
  | remaining + 1, iteration, nudges, messages => do
    let thread ← perform .readThread
    if thread.state = .interrupted then pure (.ok .stopped)
    else
      let thresholds := computeLoopThresholds env.maxToolIterations
      let messages :=
        if iteration = thresholds.nudgeAt then messages ++ [nudgeMessage] else messages
      let forceText : Bool := thresholds.forceTextAt ≤ iteration
      match callLlm env iteration messages with
      | .error e => pure (.error e)
      | .ok (.text text, messages) =>
        if shouldNudgeToolIntent env iteration forceText nudges text then
          loopFrom agent env remaining (iteration + 1) (nudges + 1)
            (messages ++ [.assistant text, .user toolIntentNudge])
        else pure (.ok (.response (env.stripInternalToolCallText text)))
      | .ok (.toolCalls toolCalls content, messages) => do
        let done ← executeToolCalls agent (env.out iteration) toolCalls content messages
        match done with
        | (some outcome, _) => pure (.ok outcome)
        | (none, messages) => loopFrom agent env remaining (iteration + 1) 0 messages

inductive AgenticLoopResult where
  | response (text : String)
  | needApproval (pending : PendingApproval)

/-- Run the agentic loop; an interruption and too many iterations are errors. -/
def runAgenticLoop (agent : Agent) (env : LoopEnv) (threadId : Uuid)
    (initialMessages : List ChatMessage) : Handler (Except String AgenticLoopResult) := do
  let outcome ← loopFrom agent env (computeLoopThresholds env.maxToolIterations).hardCeiling 1 0
    initialMessages
  match outcome with
  | .error e => pure (.error e)
  | .ok (.response text) => pure (.ok (.response text))
  | .ok .stopped =>
    pure (.error ("Job error: Job " ++ toString threadId ++ " context error: Interrupted"))
  | .ok .maxIterations =>
    pure (.error ("LLM error: Invalid response from agent: Exceeded maximum tool iterations (" ++
      toString env.maxToolIterations ++ ")"))
  | .ok (.needApproval pending) => pure (.ok (.needApproval pending))

/-! ## The hint and the forced text -/

/-- The iterations in which the model was asked, with the messages. -/
abbrev Trace := List (Nat × List ChatMessage)

/-- The loop, with its trace. -/
def tracedFrom (agent : Agent) (env : LoopEnv) :
    (remaining iteration nudges : Nat) → List ChatMessage → Trace →
      Handler (Except String LoopOutcome × Trace)
  | 0, _, _, _, trace => pure (.ok .maxIterations, trace)
  | remaining + 1, iteration, nudges, messages, trace => do
    let thread ← perform .readThread
    if thread.state = .interrupted then pure (.ok .stopped, trace)
    else
      let thresholds := computeLoopThresholds env.maxToolIterations
      let messages :=
        if iteration = thresholds.nudgeAt then messages ++ [nudgeMessage] else messages
      let trace := trace ++ [(iteration, messages)]
      match callLlm env iteration messages with
      | .error e => pure (.error e, trace)
      | .ok (.text text, messages) =>
        if shouldNudgeToolIntent env iteration (thresholds.forceTextAt ≤ iteration) nudges
            text then
          tracedFrom agent env remaining (iteration + 1) (nudges + 1)
            (messages ++ [.assistant text, .user toolIntentNudge]) trace
        else pure (.ok (.response (env.stripInternalToolCallText text)), trace)
      | .ok (.toolCalls toolCalls content, messages) => do
        let done ← executeToolCalls agent (env.out iteration) toolCalls content messages
        match done with
        | (some outcome, _) => pure (.ok outcome, trace)
        | (none, messages) => tracedFrom agent env remaining (iteration + 1) 0 messages trace

section Traced

variable {σ : Type} (exec : (op : ThreadOp) → σ → op.Resp × σ) (agent : Agent) (env : LoopEnv)

/-- The trace does not change what the loop does. -/
theorem run_tracedFrom (remaining iteration nudges : Nat) (messages : List ChatMessage)
    (trace : Trace) (s : σ) :
    (loopFrom agent env remaining iteration nudges messages).run exec s =
      let traced := (tracedFrom agent env remaining iteration nudges messages trace).run exec s
      (traced.1.1, traced.2) := by
  induction remaining generalizing iteration nudges messages trace s with
  | zero => rfl
  | succ remaining ih =>
    simp only [loopFrom, tracedFrom, run_bind]
    split
    · rfl
    · split
      · rfl
      · split
        · exact ih _ _ _ _ _
        · rfl
      · simp only [run_bind]
        split
        · rfl
        · exact ih _ _ _ _ _

/-- The hint was given in an earlier iteration. -/
def HintBefore (iteration : Nat) (trace : Trace) : Prop :=
  ∃ asked ∈ trace, asked.1 < iteration ∧ asked.2.getLast? = some nudgeMessage

/-- The hint was given before the text is forced. -/
def NudgedFirst (forceTextAt : Nat) (trace : Trace) : Prop :=
  ∀ asked ∈ trace, forceTextAt ≤ asked.1 → HintBefore asked.1 trace

theorem nudgedFirst_tracedFrom {remaining iteration nudges : Nat} {messages : List ChatMessage}
    {trace : Trace} (hmany : 2 ≤ env.maxToolIterations)
    (h : NudgedFirst env.maxToolIterations trace)
    (hhint : env.maxToolIterations ≤ iteration → HintBefore iteration trace) (s : σ) :
    NudgedFirst env.maxToolIterations
      ((tracedFrom agent env remaining iteration nudges messages trace).run exec s).1.2 := by
  induction remaining generalizing iteration nudges messages trace s with
  | zero => exact h
  | succ remaining ih =>
    have hmono : ∀ {n asked}, HintBefore n trace → HintBefore n (trace ++ [asked]) :=
      fun ⟨earlier, hmem, hgiven⟩ => ⟨earlier, mem_append_left _ hmem, hgiven⟩
    have hnext : ∀ messages, NudgedFirst env.maxToolIterations (trace ++ [(iteration, messages)]) :=
      fun _ => forall_mem_append.2 ⟨fun asked hasked hforced => hmono (h asked hasked hforced),
        forall_mem_singleton.2 fun hforced => hmono (hhint hforced)⟩
    have hgiven : env.maxToolIterations ≤ iteration + 1 → HintBefore (iteration + 1)
        (trace ++ [(iteration, if iteration = (computeLoopThresholds
          env.maxToolIterations).nudgeAt then messages ++ [nudgeMessage] else messages)]) := by
      intro hlate
      by_cases hnow : iteration = (computeLoopThresholds env.maxToolIterations).nudgeAt
      · exact ⟨_, mem_append_right _ (mem_singleton_self _), Nat.lt_succ_self _, by simp [hnow]⟩
      · simp only [computeLoopThresholds] at hnow
        obtain ⟨earlier, hmem, hlt, hlast⟩ := hhint (by omega)
        exact ⟨earlier, mem_append_left _ hmem, Nat.lt_succ_of_lt hlt, hlast⟩
    simp only [tracedFrom, run_bind]
    split
    · exact h
    · split
      · exact hnext _
      · split
        · exact ih (hnext _) hgiven _
        · exact hnext _
      · simp only [run_bind]
        split
        · exact hnext _
        · exact ih (hnext _) hgiven _

/-- The loop asks the model in no more iterations than it has left. -/
theorem length_tracedFrom (remaining iteration nudges : Nat) (messages : List ChatMessage)
    (trace : Trace) (s : σ) :
    ((tracedFrom agent env remaining iteration nudges messages trace).run exec s).1.2.length ≤
      trace.length + remaining := by
  induction remaining generalizing iteration nudges messages trace s with
  | zero => exact le_rfl
  | succ remaining ih =>
    have hasked (asked : Nat × List ChatMessage) :
        (trace ++ [asked]).length + remaining = trace.length + (remaining + 1) := by
      grind
    simp only [tracedFrom, run_bind]
    split
    · exact Nat.le_add_right ..
    · split
      · exact hasked _ ▸ Nat.le_add_right ..
      · split
        · exact hasked _ ▸ ih ..
        · exact hasked _ ▸ Nat.le_add_right ..
      · simp only [run_bind]
        split
        · exact hasked _ ▸ Nat.le_add_right ..
        · exact hasked _ ▸ ih ..

end Traced

def LoopThresholds.Ordered (t : LoopThresholds) : Prop :=
  0 < t.nudgeAt ∧ t.nudgeAt ≤ t.forceTextAt ∧ t.forceTextAt < t.hardCeiling

/-- The thresholds are in order, and in every run the hint comes before the forced text, exactly
if at least two iterations are allowed, and less than the largest number. -/
theorem nudge_before_forced_text_iff (agent : Agent) (maxToolIterations : Nat) :
    (let thresholds := computeLoopThresholds maxToolIterations
     thresholds.Ordered ∧ ∀ env : LoopEnv, env.maxToolIterations = maxToolIterations →
      ∀ (messages : List ChatMessage) (σ : Type) (exec : (op : ThreadOp) → σ → op.Resp × σ) (s : σ),
        NudgedFirst thresholds.forceTextAt
          ((tracedFrom agent env thresholds.hardCeiling 1 0 messages []).run exec s).1.2) ↔
      2 ≤ maxToolIterations ∧ maxToolIterations + 1 < UInt64.size := by
  have hordered : (computeLoopThresholds maxToolIterations).Ordered ↔
      2 ≤ maxToolIterations ∧ maxToolIterations + 1 < UInt64.size := by
    simp only [LoopThresholds.Ordered, computeLoopThresholds]
    omega
  simp only [hordered, and_iff_left_iff_imp]
  rintro ⟨hmany, -⟩ env rfl messages σ exec s
  rw [computeLoopThresholds, max_eq_left (by omega)]
  exact nudgedFirst_tracedFrom exec _ env hmany (by simp [NudgedFirst]) (fun hone => by omega) s

/-- A model that answers with a text. -/
def answeringModel : LoopEnv where
  maxToolIterations := 1
  costLimit := fun _ => none
  respondWithTools := fun _ _ => .ok (.text "done")
  retryWithTools := fun _ _ => .ok (.text "done")
  toolsAvailable := fun _ => false
  llmSignalsToolIntent := fun _ => false
  stripInternalToolCallText := id
  out := fun _ => answering ""

/-- If one iteration is allowed, its text is forced without a hint.  With the largest number the
text is forced at the ceiling only. -/
theorem forced_without_hint :
    ¬ NudgedFirst (computeLoopThresholds 1).forceTextAt (runHandler nullSerde
        (tracedFrom plainAgent answeringModel 2 1 0 [] []) World.init).1.2 ∧
      ¬ (computeLoopThresholds (UInt64.size - 1)).Ordered := by
  unfold NudgedFirst HintBefore LoopThresholds.Ordered
  decide

/-! ## Shortening again -/

/-- The note that stands for the messages that were dropped. -/
def compactionNote : ChatMessage :=
  .system ("[Note: Earlier conversation history was automatically compacted " ++
    "to fit within the context window. The most recent exchange is preserved below.]")

section Retry

variable {before after : List ChatMessage} {user : ChatMessage}

theorem compactMessagesForRetry_eq (huser : user.role = .user)
    (hafter : ∀ m ∈ after, m.role ≠ .user) :
    compactMessagesForRetry (before ++ user :: after) =
      (before.filter fun m => m.role = .system) ++ (if before.isEmpty then [] else [compactionNote]) ++
        user :: after := by
  have hsplit : splitAtLastUser (before ++ user :: after) = some (before, user :: after) := by
    have hrest : ∀ m ∈ after.reverse, decide (m.role ≠ .user) = true := by simpa using hafter
    simp only [splitAtLastUser, reverse_append, reverse_cons, append_assoc]
    rw [takeWhile_append_of_pos hrest, dropWhile_append_of_pos hrest]
    simp [huser]
  rw [compactMessagesForRetry, hsplit]
  rfl

/-- The note is a system message, so every further call keeps it and adds another one. -/
theorem iterate_compactMessagesForRetry (huser : user.role = .user)
    (hafter : ∀ m ∈ after, m.role ≠ .user) (hbefore : before ≠ []) (n : Nat) :
    compactMessagesForRetry^[n + 1] (before ++ user :: after) =
      (before.filter fun m => m.role = .system) ++ List.replicate (n + 1) compactionNote ++
        user :: after := by
  induction n with
  | zero => simp [compactMessagesForRetry_eq huser hafter, hbefore]
  | succ n ih =>
    have hnotes : (List.replicate (n + 1) compactionNote).filter (fun m => m.role = .system) =
        List.replicate (n + 1) compactionNote := by
      simp [compactionNote, ChatMessage.system, ChatMessage.plain]
    rw [Function.iterate_succ_apply', ih, compactMessagesForRetry_eq huser hafter, filter_append,
      hnotes, replicate_succ' (n := n + 1)]
    simp

/-- With an earlier message the context stays bounded exactly if it is shortened once. -/
theorem retry_compaction_iff (before after : List ChatMessage) (user : ChatMessage)
    (huser : user.role = .user) (hafter : ∀ m ∈ after, m.role ≠ .user) (n : Nat) (hn : 1 ≤ n) :
    (∃ notes ≤ 1, compactMessagesForRetry^[n] (before ++ user :: after) =
        (before.filter fun m => m.role = .system) ++ List.replicate notes compactionNote ++
          user :: after) ↔
      n = 1 ∨ before = [] := by
  obtain ⟨n, rfl⟩ : ∃ m, n = m + 1 := ⟨n - 1, by omega⟩
  by_cases hbefore : before = []
  · subst hbefore
    have hfixed : compactMessagesForRetry ([] ++ user :: after) = [] ++ user :: after :=
      compactMessagesForRetry_eq huser hafter
    exact iff_of_true ⟨0, Nat.zero_le _, Function.iterate_fixed hfixed _⟩ (.inr rfl)
  · rw [iterate_compactMessagesForRetry huser hafter hbefore]
    constructor
    · rintro ⟨notes, hnotes, heq⟩
      have hlen := congrArg length heq
      simp only [length_append, length_replicate] at hlen
      omega
    · intro hone
      exact ⟨n + 1, (hone.resolve_right hbefore).le, rfl⟩

end Retry

/-- A context that is shortened once. -/
theorem retry_compaction_once : ∃ notes ≤ 1,
    compactMessagesForRetry^[1] ([.assistant "Hello"] ++ ChatMessage.user "Hi" :: []) =
      [] ++ List.replicate notes compactionNote ++ [.user "Hi"] :=
  (retry_compaction_iff [.assistant "Hello"] [] (.user "Hi") rfl nofun 1 (Nat.le_refl 1)).2 (.inl rfl)

/-- The second time there are two notes. -/
theorem retry_compaction_repeated : compactMessagesForRetry^[2] [.assistant "Hello", .user "Hi"] =
      [compactionNote, compactionNote, .user "Hi"] :=
  rfl

end Axinite.Dispatcher
