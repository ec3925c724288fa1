import Axinite.Submissions.Handlers
import Axinite.ThreadOps.MessageRebuild

/-!
# Hydration of threads

A thread that is read back from its rows should show the model what the live thread
shows.  The rows and the live messages are written by different code, and they agree
only as long as a turn ends in one of the ways that store its tool calls, and as long as
the outcomes of these calls survive the storage.

Main results:

- Theorem `run_effect`: the turn and the rows that a turn leaves behind.
- Theorem `shown_block_iff`: what is shown of a turn determines its calls and its response.
- Theorem `hydrates_run_iff`: the runs in which hydration reproduces the live context.
- Theorem `hydratedContext_eq_stored`: what hydration reproduces when every turn is regular.
-/

namespace Axinite.Submissions

open Json Llm Session Tools ThreadOps Approval Preview Foundation MessageRebuild List

/-- Read a thread back from its rows. -/
def hydrateThread (serde : SerdeJson) (safety : String → String → String) (now : Timestamp)
    (sessionId threadUuid : Uuid) (dbMessages : List ConversationMessage) : Thread :=
  let chatMessages := rebuildChatMessagesFromDb serde safety dbMessages
  let thread := Thread.init now sessionId threadUuid
  if chatMessages.isEmpty then thread else thread.restoreFromMessages now chatMessages

/-! ## Turns -/

/-- A call of one of the recorders of a turn. -/
inductive Recorder where
  | toolCall (name : String) (params : Value)
  | toolResult (result : Value)
  | toolError (error : String)
  | toolResultAt (idx : Nat) (result : Value)
  | toolErrorAt (idx : Nat) (error : String)

/-- The turn after a recorder; an index out of bounds changes nothing. -/
def Recorder.apply (turn : Turn) : Recorder → Turn
  | toolCall name params => turn.recordToolCall name params
  | toolResult result => turn.recordToolResult result
  | toolError error => turn.recordToolError error
  | toolResultAt idx result => (turn.recordToolResultAt idx result).toOption.getD turn
  | toolErrorAt idx error => (turn.recordToolErrorAt idx error).toOption.getD turn

/-- How a turn ends. -/
inductive TurnEnding where
  | completed (response : String)
  | failed (error : String)
  | authIntercept (extName instructions : String) (pending : Option PendingApproval)

/-- The handler that ends the turn. -/
def TurnEnding.handler (agent : Agent) : TurnEnding → Handler Unit
  | completed response => finalizeTurnAndPersistResponse agent response
  | failed error => failTurnAndError error >>= fun _ => pure ()
  | authIntercept extName instructions pending =>
    handleAuthIntercept agent.serde extName instructions pending

/-- What happens in one turn. -/
structure TurnScript where
  userInput : String
  recorders : List Recorder
  ending : TurnEnding

/-- The turn after the recorders of the script. -/
def TurnScript.record (script : TurnScript) (turn : Turn) : Turn :=
  script.recorders.foldl Recorder.apply turn

/-- Start a turn, persist its input, record its calls and end it. -/
def TurnScript.run (agent : Agent) (w : World) (script : TurnScript) : World :=
  let started := w.tick.modifyThread (Thread.startTurn w.tick.now script.userInput)
  let persisted := (runHandler agent.serde (persistUserMessage script.userInput) started).2
  let recorded := persisted.modifyThread (Thread.modifyLastTurn script.record)
  (runHandler agent.serde (script.ending.handler agent) recorded).2

/-- The tool calls that the turn records. -/
def TurnScript.calls (script : TurnScript) (w : World) : List TurnToolCall :=
  (script.record (Turn.new w.tick.now w.thread.turns.length script.userInput)).toolCalls

/-- The response that the live turn keeps. -/
def TurnEnding.response : TurnEnding → Option String
  | completed response => some response
  | failed _ => none
  | authIntercept _ instructions _ => some instructions

/-- The error that the live turn keeps. -/
def TurnEnding.error : TurnEnding → Option String
  | failed error => some error
  | _ => none

/-- The text that is stored as the response of the turn. -/
def TurnEnding.storedResponse : TurnEnding → String
  | completed response => response
  | failed error => error
  | authIntercept _ instructions _ => instructions

/-- The ending stores the tool calls of the turn with this number. -/
def TurnEnding.storesCalls (turnNumber : Nat) : TurnEnding → Bool
  | completed _ => true
  | failed _ => false
  | authIntercept _ _ _ => turnNumber ≠ 0

/-! ## Effect of a turn -/

variable (agent : Agent) (serde : SerdeJson) (now : Timestamp) (sessionId threadUuid : Uuid)
  (w : World) (script : TurnScript) (turn : Turn)

theorem recorder_frame (recorder : Recorder) :
    recorder.apply turn = { turn with toolCalls := (recorder.apply turn).toolCalls } := by
  have hset : ∀ idx result error, (turn.setToolOutcomeAt idx result error).toOption.getD turn =
        { turn with
          toolCalls :=
            ((turn.setToolOutcomeAt idx result error).toOption.getD turn).toolCalls } := by
    intro idx result error
    unfold Turn.setToolOutcomeAt
    split <;> rfl
  cases recorder with
  | toolCall _ _ | toolResult _ | toolError _ => rfl
  | toolResultAt idx result => exact hset idx (some result) none
  | toolErrorAt idx error => exact hset idx none (some error)

theorem record_frame :
    script.record turn = { turn with toolCalls := (script.record turn).toolCalls } := by
  have hfold : ∀ (recorders : List Recorder) (turn : Turn), recorders.foldl Recorder.apply turn =
        { turn with toolCalls := (recorders.foldl Recorder.apply turn).toolCalls } := by
    intro recorders
    induction recorders with
    | nil =>
      intro turn
      rfl
    | cons recorder recorders ih =>
      intro turn
      rw [foldl_cons, ih, recorder_frame turn recorder]
  exact hfold script.recorders turn

/-- The rows that the end of a turn adds. -/
def TurnEnding.rows (serde : SerdeJson) (turnNumber : Nat) (calls : List TurnToolCall)
    (ending : TurnEnding) : List ConversationMessage :=
  (if ending.storesCalls turnNumber then toolCallsRows serde turnNumber calls else []) ++
    [{ role := .assistant, content := ending.storedResponse }]

/-- The end of a turn, for a thread whose last turn has no response yet. -/
structure EndEffect (serde : SerdeJson) (ending : TurnEnding) (turns : List Turn) (turn : Turn)
    (w w' : World) : Prop where
  turns : ∃ ended, w'.thread.turns = turns ++ [ended] ∧ ended.userInput = turn.userInput ∧
    ended.toolCalls = turn.toolCalls ∧ ended.response = ending.response ∧
    ended.error = ending.error ∧ ended.imageContentParts = []
  rows : w'.rows = w.rows ++ ending.rows serde turn.turnNumber turn.toolCalls

theorem persistCompletedTurn_run (turn : Nat × List TurnToolCall) (response : String) (w : World) :
    let done := runHandler agent.serde (persistCompletedTurn agent turn response) w
    done.2.thread = w.thread ∧ done.2.rows = w.rows ++
        (toolCallsRows agent.serde turn.1 turn.2 ++ [{ role := .assistant, content := response }]) := by
  intro done
  have hcalls := persistToolCalls_run agent.serde turn.1 turn.2 w
  simp only [done, persistCompletedTurn, runHandler_bind]
  refine ⟨hcalls.1, ?_⟩
  rw [← append_assoc, ← hcalls.2]
  rfl

variable {turns : List Turn} {turn : Turn}

theorem lastTurnCalls_concat {thread : Thread} (h : thread.turns = turns ++ [turn]) :
    lastTurnCalls thread = some (turn.turnNumber, turn.toolCalls) := by
  simp [lastTurnCalls, Thread.lastTurn, h]

theorem completeTurn_turns {thread : Thread}
    (h : thread.turns = turns ++ [turn]) (now : Timestamp) (response : String) :
    (thread.completeTurn now response).turns = turns ++ [turn.complete now response] := by
  simp [Thread.completeTurn, Thread.modifyLastTurn, h, modifyLast_concat]

open TurnEnding

theorem completed_effect (response : String) {w : World}
    (hturns : w.thread.turns = turns ++ [turn]) (hstate : w.thread.state ≠ .interrupted)
    (herror : turn.error = none) :
    EndEffect agent.serde (.completed response) turns turn w
      (runHandler agent.serde ((completed response).handler agent) w).2 := by
  have hended := completeTurn_turns hturns w.tick.now response
  have hexec : ThreadOp.exec agent.serde (.finalizeTurn response) w =
      (some (some (turn.turnNumber, turn.toolCalls)),
        w.tick.setThread (w.thread.completeTurn w.tick.now response)) := by
    have hthread : w.tick.thread = w.thread := rfl
    simp only [ThreadOp.exec, ThreadOp.effect, finalizeTurn, hthread, if_neg hstate,
      lastTurnCalls_concat hended]
    rfl
  rw [handler, finalizeTurnAndPersistResponse, runHandler_bind, runHandler_perform, hexec]
  refine ⟨⟨turn.complete w.tick.now response, ?_, rfl, rfl, rfl, herror, rfl⟩, ?_⟩
  · exact (congrArg Thread.turns (persistCompletedTurn_run agent _ _ _).1).trans hended
  · exact (persistCompletedTurn_run agent _ _ _).2

theorem failed_effect (error : String) {w : World}
    (hturns : w.thread.turns = turns ++ [turn]) (hresponse : turn.response = none) :
    EndEffect agent.serde (.failed error) turns turn w
      (runHandler agent.serde ((failed error).handler agent) w).2 := by
  refine ⟨⟨turn.fail w.tick.now error, ?_, rfl, rfl, hresponse, rfl, rfl⟩, rfl⟩
  change (w.thread.failTurn w.tick.now error).turns = _
  simp [Thread.failTurn, Thread.modifyLastTurn, hturns, modifyLast_concat]

theorem interceptAuth_turns {thread : Thread}
    (hturns : thread.turns = turns ++ [turn]) (now : Timestamp) (instructions : String)
    (pending : Option PendingApproval) (extName : String) :
    (interceptAuth now instructions pending extName thread).2.turns =
        turns ++ [turn.complete now instructions] ∧
      (interceptAuth now instructions pending extName thread).1 =
        (turn.turnNumber, turn.toolCalls) := by
  have hended := completeTurn_turns hturns now instructions
  have hthread : (interceptAuth now instructions pending extName thread).2.turns =
      turns ++ [turn.complete now instructions] := by
    cases pending <;> exact hended
  refine ⟨hthread, ?_⟩
  simp only [interceptAuth] at hthread ⊢
  rw [lastTurnCalls_concat hthread]
  rfl

theorem authIntercept_effect (extName instructions : String) (pending : Option PendingApproval)
    {w : World} (hturns : w.thread.turns = turns ++ [turn]) (herror : turn.error = none) :
    EndEffect agent.serde (.authIntercept extName instructions pending) turns turn w
      (runHandler agent.serde
        ((authIntercept extName instructions pending).handler agent) w).2 := by
  obtain ⟨hthread, hcalls⟩ :=
    interceptAuth_turns hturns w.tick.now instructions pending extName
  have hexec : ThreadOp.exec agent.serde (.interceptAuth instructions pending extName) w =
      ((turn.turnNumber, turn.toolCalls), w.tick.setThread
        (interceptAuth w.tick.now instructions pending extName w.thread).2) :=
    Prod.ext hcalls rfl
  rw [handler, handleAuthIntercept, runHandler_bind, runHandler_perform, hexec]
  -- the first turn of a thread has the number zero, and only its response is stored
  by_cases hfirst : turn.turnNumber ≠ 0
  · rw [if_pos hfirst]
    refine ⟨⟨turn.complete w.tick.now instructions, ?_, rfl, rfl, rfl, herror, rfl⟩, ?_⟩
    · exact (congrArg Thread.turns (persistCompletedTurn_run agent _ _ _).1).trans hthread
    · refine (persistCompletedTurn_run agent _ _ _).2.trans ?_
      rw [rows, storesCalls, decide_eq_true hfirst]
      rfl
  · rw [if_neg hfirst]
    refine ⟨⟨turn.complete w.tick.now instructions, hthread, rfl, rfl, rfl, herror, rfl⟩, ?_⟩
    rw [rows, storesCalls, decide_eq_false hfirst]
    rfl

theorem ending_effect (ending : TurnEnding) {w : World}
    (hturns : w.thread.turns = turns ++ [turn]) (hstate : w.thread.state ≠ .interrupted)
    (hresponse : turn.response = none) (herror : turn.error = none) :
    EndEffect agent.serde ending turns turn w
      (runHandler agent.serde (ending.handler agent) w).2 := by
  cases ending with
  | completed response => exact completed_effect agent response hturns hstate herror
  | failed error => exact failed_effect agent error hturns hresponse
  | authIntercept extName instructions pending =>
    exact authIntercept_effect agent extName instructions pending hturns herror

/-- The rows that a turn adds. -/
def TurnScript.rows (serde : SerdeJson) (w : World) (script : TurnScript) :
    List ConversationMessage :=
  { role := .user, content := script.userInput } ::
    script.ending.rows serde w.thread.turns.length (script.calls w)

/-- The turn that a script leaves behind. -/
structure TurnScript.Leaves (script : TurnScript) (w : World) (turn : Turn) : Prop where
  input : turn.userInput = script.userInput
  calls : turn.toolCalls = script.calls w
  response : turn.response = script.ending.response
  error : turn.error = script.ending.error
  images : turn.imageContentParts = []

/-- A turn appends itself to the thread and its rows to the store. -/
theorem run_effect : (∃ turn, (script.run agent w).thread.turns = w.thread.turns ++ [turn] ∧
      script.Leaves w turn) ∧
    (script.run agent w).rows = w.rows ++ script.rows agent.serde w := by
  have hframe := record_frame script (Turn.new w.tick.now w.thread.turns.length script.userInput)
  have hrecorded : ((runHandler agent.serde (persistUserMessage script.userInput)
      (w.tick.modifyThread (Thread.startTurn w.tick.now script.userInput))).2.modifyThread
        (Thread.modifyLastTurn script.record)).thread.turns =
      w.thread.turns ++
        [script.record (Turn.new w.tick.now w.thread.turns.length script.userInput)] :=
    modifyLast_concat _ _ _
  have hend := ending_effect agent script.ending hrecorded nofun
    (by rw [hframe]; rfl) (by rw [hframe]; rfl)
  obtain ⟨turn, hturns, hinput, hcalls, hresponse, herror, himages⟩ := hend.turns
  refine ⟨⟨turn, hturns, ?_, hcalls, hresponse, herror, himages⟩, ?_⟩
  · rw [hinput, hframe]
    rfl
  · have hnumber : (script.record
        (Turn.new w.tick.now w.thread.turns.length script.userInput)).turnNumber =
        w.thread.turns.length := by
      rw [hframe]
      rfl
    have hrows := hend.rows
    rw [hnumber] at hrows
    rw [TurnScript.run, hrows]
    exact append_assoc w.rows _ _

/-! ## What the model sees -/

/-- What a message shows the model: its role, its content, the name of its tool, and the
names and arguments of the calls it declares. -/
structure Shown where
  role : Role
  content : String
  toolName : Option String
  calls : Option (List (String × Value))
  deriving DecidableEq

/-- What a message shows the model. -/
def shown (message : ChatMessage) : Shown where
  role := message.role
  content := message.content
  toolName := message.name
  calls := message.toolCalls.map fun calls => calls.map fun tc => (tc.name, tc.arguments)

/-- What an outcome shows: the name and the arguments of its call, and its content. -/
def shownOutcome (outcome : ToolCall × String) : String × Value × String :=
  (outcome.1.name, outcome.1.arguments, outcome.2)

/-- What a turn shows: its input, its calls with their contents, and its response. -/
def shownBlock (input : String) (outcomes : List (String × Value × String))
    (response : Option String) : List Shown :=
  ⟨.user, input, none, none⟩ ::
    (if outcomes = [] then []
      else ⟨.assistant, "", none, some (outcomes.map fun outcome => (outcome.1, outcome.2.1))⟩ ::
        outcomes.map fun outcome => ⟨.tool, outcome.2.2, some outcome.1, none⟩) ++
    response.toList.map fun text => ⟨.assistant, text, none, none⟩

open ChatMessage

theorem map_shown_block (input : String) (outcomes : List (ToolCall × String))
    (response : Option String) : (blockMessages (.user input) outcomes response).map shown =
      shownBlock input (outcomes.map shownOutcome) response := by
  by_cases hne : outcomes = []
  · subst hne
    cases response <;> rfl
  · cases response <;> simp [blockMessages, shownBlock, shown, assistantWithToolCalls, toolResult,
      plain, user, assistant, shownOutcome, hne]

/-- The calls with their contents and the response can be read off. -/
theorem read_shownBlock (input : String) (outcomes : List (String × Value × String))
    (response : Option String) : let messages := shownBlock input outcomes response
    zipWith (fun call content => (call.1, call.2, content)) (messages.filterMap Shown.calls).flatten
        ((messages.filter (·.role = .tool)).map Shown.content) = outcomes ∧
      (messages.filter fun message => message.role = .assistant ∧ message.calls = none).head?.map
        Shown.content = response := by
  by_cases hne : outcomes = []
  · subst hne
    cases response <;> simp [shownBlock]
  · cases response <;> simp [shownBlock, hne, filter_map, Function.comp_def]

/-- What is shown of a turn determines its calls with their contents and its response. -/
theorem shown_block_iff (input : String) (as bs : List (ToolCall × String))
    (response response' : Option String) :
    (blockMessages (.user input) as response).map shown =
        (blockMessages (.user input) bs response').map shown ↔
      as.map shownOutcome = bs.map shownOutcome ∧ response = response' := by
  rw [map_shown_block, map_shown_block]
  constructor
  · intro h
    have hread := read_shownBlock input (as.map shownOutcome) response
    have hread' := read_shownBlock input (bs.map shownOutcome) response'
    rw [h] at hread
    exact ⟨hread.1.symm.trans hread'.1, hread.2.symm.trans hread'.2⟩
  · rintro ⟨houtcomes, rfl⟩
    rw [houtcomes]

/-! ## Outcomes that survive the storage -/

/-- The label of a stored error does not show, and the preview of a stored result that is
not a text is complete. -/
def ReadsBack (serde : SerdeJson) (tc : TurnToolCall) : Prop :=
  match tc.error, tc.result with
  | some error, _ => truncatePreview ("Error: " ++ error) 1000 = truncatePreview error 1000
  | none, some (.string _) => True
  | none, some result =>
    truncatePreview (serde.toString result) 500 = serde.toString result
  | none, none => True

instance (serde : SerdeJson) (tc : TurnToolCall) : Decidable (ReadsBack serde tc) := by
  unfold ReadsBack
  split <;> infer_instance

theorem readsBack_iff (tc : TurnToolCall) :
    truncatePreview (storedContent serde tc) 1000 = Session.toolResultContent serde tc ↔
      ReadsBack serde tc := by
  have hpreview : ∀ text : String,
      truncatePreview (truncatePreview text 500) 1000 = truncatePreview text 1000 ↔
        truncatePreview text 500 = text :=
    fun _ => truncatePreview_truncatePreview_iff (by decide)
  unfold storedContent Session.toolResultContent ReadsBack
  cases tc.error with
  | some error => exact Iff.rfl
  | none =>
    cases tc.result with
    | none =>
      have hok : truncatePreview "OK" 1000 = "OK" := truncatePreview_of_short (by decide)
      exact iff_of_true hok trivial
    | some result =>
      cases result with
      | string s => exact iff_of_true rfl trivial
      | null | bool _ | number _ | array _ | object _ => exact hpreview _

/-- The tool calls of a turn come back from the store: all of them have names, and their
outcomes survive the storage. -/
def CallsComeBack (serde : SerdeJson) (calls : List TurnToolCall) : Prop :=
  Named calls ∧ ∀ tc ∈ calls, ReadsBack serde tc

instance (serde : SerdeJson) (calls : List TurnToolCall) :
    Decidable (CallsComeBack serde calls) :=
  inferInstanceAs (Decidable (_ ∧ ∀ tc ∈ calls, _))

/-- The turn does not fail, and the way it ends stores its calls, if it has any, such that
they come back. -/
def Faithful (serde : SerdeJson) (w : World) (script : TurnScript) : Prop :=
  match script.ending with
  | .completed _ => CallsComeBack serde (script.calls w)
  | .failed _ => False
  | .authIntercept _ _ _ =>
    script.calls w = [] ∨ w.thread.turns ≠ [] ∧ CallsComeBack serde (script.calls w)

instance (serde : SerdeJson) (w : World) (script : TurnScript) :
    Decidable (Faithful serde w script) := by
  unfold Faithful
  split <;> infer_instance

/-- The outcomes that are rebuilt for a turn. -/
def rebuiltOutcomes (serde : SerdeJson) (w : World) (script : TurnScript) :
    List (ToolCall × String) :=
  if script.ending.storesCalls w.thread.turns.length ∧ Named (script.calls w) then
    storedOutcomes serde (fun _ content => content) w.thread.turns.length (script.calls w)
  else []

/-- The messages that are rebuilt from the tool calls of a turn. -/
theorem rebuild_toolCallsRows {serde : SerdeJson} {turnNumber : Nat} {calls : List TurnToolCall}
    (hread : RowReadsBack serde turnNumber calls) :
    (toolCallsRows serde turnNumber calls).flatMap
        (rebuildRow serde (fun _ content => content) []) =
      let outcomes :=
        if Named calls then storedOutcomes serde (fun _ content => content) turnNumber calls else []
      if outcomes.isEmpty then []
      else .assistantWithToolCalls none (outcomes.map Prod.fst) ::
        outcomes.map fun outcome => .toolResult outcome.1.id outcome.1.name outcome.2 := by
  by_cases hempty : calls = []
  · subst hempty
    rfl
  · have hstored := handleToolCallsRow_stored (fun _ content => content) hempty hread
    have hrows : toolCallsRows serde turnNumber calls =
        [{ role := .toolCalls, content := toolCallsContent serde turnNumber calls }] := by
      simp [toolCallsRows, hempty]
    rw [hrows, flatMap_singleton]
    simp only [rebuildRow, hstored]
    by_cases hnamed : Named calls
    · have hne : storedOutcomes serde (fun _ content => content) turnNumber calls ≠ [] := by
        simpa [storedOutcomes] using hempty
      simp [hnamed, hne]
    · simp [hnamed]

/-- The rows of a turn are rebuilt into the messages of one turn. -/
theorem rebuild_rows {serde : SerdeJson} {w : World} {script : TurnScript}
    (hread : RowReadsBack serde w.thread.turns.length (script.calls w)) :
    rebuildChatMessagesFromDb serde (fun _ content => content) (script.rows serde w) =
      blockMessages (.user script.userInput) (rebuiltOutcomes serde w script)
        (some script.ending.storedResponse) := by
  rw [rebuildChatMessagesFromDb_eq_flatMap, TurnScript.rows, rows, flatMap_cons, flatMap_append]
  by_cases hstores : script.ending.storesCalls w.thread.turns.length = true
  · rw [if_pos hstores, rebuild_toolCallsRows hread]
    simp only [rebuiltOutcomes, hstores, true_and]
    rfl
  · simp only [rebuiltOutcomes, hstores]
    rfl

/-! ## One turn -/

/-- What is shown of a call. -/
def shownCall (tc : TurnToolCall) : String × Value × String :=
  (tc.name, tc.parameters, Session.toolResultContent serde tc)

/-- What is shown of a call that was stored. -/
def shownStored (tc : TurnToolCall) : String × Value × String :=
  (tc.name, tc.parameters, truncatePreview (storedContent serde tc) 1000)

/-- What is shown of a turn that was rebuilt. -/
def shownRebuilt (w : World) (script : TurnScript) : List Shown :=
  (blockMessages (.user script.userInput)
    ((rebuiltOutcomes serde w script).map (Prod.map id fun text => truncatePreview text 1000))
    (some script.ending.storedResponse)).map shown

theorem turnMessages_eq_user_block (himages : turn.imageContentParts = []) :
    turnMessages serde turn =
      blockMessages (.user turn.userInput) (turnOutcomes serde turn) turn.response := by
  rw [turnMessages_eq_block]
  simp [turnUserMessage, himages]

theorem map_shownOutcome_turnOutcomes : (turnOutcomes serde turn).map shownOutcome =
      turn.toolCalls.map (shownCall serde) := by
  rw [turnOutcomes, map_mapIdx]
  apply mapIdx_eq_map_of
  intro i x
  rfl

/-- What is rebuilt into a turn is shown with its contents cut. -/
theorem map_shown_restoredTurn (n : Nat) (input : String) (outcomes : List (ToolCall × String))
    (response : Option String) :
    (turnMessages serde (restoredTurn now n input outcomes response)).map shown =
      (blockMessages (.user input)
        (outcomes.map (Prod.map id fun text => truncatePreview text 1000)) response).map shown := by
  rw [turnMessages_eq_user_block serde (restoredTurn_imageContentParts _ _ _ _ _),
    restoredTurn_userInput, restoredTurn_response, shown_block_iff, turnOutcomes_restoredTurn,
    map_mapIdx, map_map]
  refine ⟨?_, rfl⟩
  apply mapIdx_eq_map_of
  intro i x
  rfl

/-- What is shown of the calls that are rebuilt for a turn. -/
theorem map_shownOutcome_rebuilt : ((rebuiltOutcomes serde w script).map
        (Prod.map id fun text => truncatePreview text 1000)).map shownOutcome =
      if script.ending.storesCalls w.thread.turns.length ∧ Named (script.calls w) then
        (script.calls w).map (shownStored serde)
      else [] := by
  unfold rebuiltOutcomes
  split
  · rw [storedOutcomes, map_mapIdx, map_mapIdx]
    apply mapIdx_eq_map_of
    intro i x
    rfl
  · rfl

/-- The calls of a turn whose ending stores them are shown as they are exactly if they come
back. -/
theorem shown_stored_iff {serde : SerdeJson} {calls : List TurnToolCall} :
    (if Named calls then calls.map (shownStored serde) else []) = calls.map (shownCall serde) ↔
      CallsComeBack serde calls := by
  by_cases hnamed : Named calls
  · rw [if_pos hnamed, map_inj_left, CallsComeBack, and_iff_right hnamed]
    refine forall₂_congr fun tc _ => ?_
    rw [← readsBack_iff]
    simp [shownStored, shownCall]
  · rw [if_neg hnamed]
    refine iff_of_false ?_ fun h => hnamed h.1
    intro h
    have hempty : calls = [] := map_eq_nil_iff.1 h.symm
    exact hnamed (by simp [hempty, Named])

/-- What is rebuilt of a turn shows what the live turn shows exactly if the turn is
faithful. -/
theorem shown_turn_iff (hturn : script.Leaves w turn) :
    shownRebuilt serde w script = (turnMessages serde turn).map shown ↔
      Faithful serde w script := by
  rw [shownRebuilt, turnMessages_eq_user_block serde hturn.images, hturn.input, hturn.response,
    shown_block_iff, map_shownOutcome_rebuilt, map_shownOutcome_turnOutcomes, hturn.calls]
  unfold Faithful
  cases hending : script.ending with
  | completed response =>
    simp only [storesCalls, true_and, shown_stored_iff]
    exact and_iff_left rfl
  | failed error =>
    -- the live turn has no response, and the stored error becomes one
    exact iff_of_false (fun h => nomatch h.2) id
  | authIntercept extName instructions pending =>
    simp only [storedResponse, response, and_true]
    by_cases hfirst : w.thread.turns = []
    · simp [storesCalls, hfirst]
    · have hstores : storesCalls w.thread.turns.length
          (.authIntercept extName instructions pending) = true := by
        simpa [storesCalls] using hfirst
      simp only [hstores, true_and, shown_stored_iff]
      constructor
      · intro hcome
        exact Or.inr ⟨hfirst, hcome⟩
      · rintro (hnone | ⟨-, hcome⟩)
        · simp [hnone, CallsComeBack, Named]
        · exact hcome

/-! ## Turns as the store keeps them -/

/-- A recorded call whose error carries the label of stored errors. -/
def labelError (tc : TurnToolCall) : TurnToolCall :=
  { tc with error := tc.error.map fun error => "Error: " ++ error }

/-- A turn as the store keeps it.  A failed turn keeps its error as the response and none of
its calls; other turns keep their calls, with labelled errors, if all of them have names. -/
def storedTurn (turn : Turn) : Turn :=
  match turn.error with
  | some error => { turn with toolCalls := [], response := some error }
  | none =>
    { turn with
      toolCalls := if Named turn.toolCalls then turn.toolCalls.map labelError else [] }

/-- A thread as the store keeps it. -/
def storedThread (thread : Thread) : Thread :=
  { thread with turns := thread.turns.map storedTurn }

/-- The preview of a result that is not a text is complete. -/
def PreviewComplete (serde : SerdeJson) (tc : TurnToolCall) : Prop :=
  match tc.error, tc.result with
  | some _, _ => True
  | none, some (.string _) => True
  | none, some result =>
    truncatePreview (serde.toString result) 500 = serde.toString result
  | none, none => True

instance (serde : SerdeJson) (tc : TurnToolCall) : Decidable (PreviewComplete serde tc) := by
  unfold PreviewComplete
  split <;> infer_instance

/-- The calls of the turn have complete previews, and if an authentication request ends the
first turn of the thread, the turn has no calls. -/
def Regular (serde : SerdeJson) (w : World) (script : TurnScript) : Prop :=
  (∀ tc ∈ script.calls w, PreviewComplete serde tc) ∧
    match script.ending with
    | .authIntercept _ _ _ => script.calls w = [] ∨ w.thread.turns ≠ []
    | _ => True

instance (serde : SerdeJson) (w : World) (script : TurnScript) :
    Decidable (Regular serde w script) := by
  unfold Regular
  split <;> infer_instance

theorem toolResultContent_labelError {serde : SerdeJson} {tc : TurnToolCall}
    (h : PreviewComplete serde tc) :
    Session.toolResultContent serde (labelError tc) =
      truncatePreview (storedContent serde tc) 1000 := by
  unfold PreviewComplete at h
  unfold Session.toolResultContent labelError storedContent
  cases herror : tc.error with
  | some error => rfl
  | none =>
    rw [herror] at h
    cases hresult : tc.result with
    | none =>
      have hok : truncatePreview "OK" 1000 = "OK" := truncatePreview_of_short (by decide)
      exact hok.symm
    | some result =>
      rw [hresult] at h
      cases result with
      | string s => rfl
      | null | bool _ | number _ | array _ | object _ => exact congrArg (truncatePreview · 1000) h.symm

theorem map_labelError {serde : SerdeJson} {calls : List TurnToolCall}
    (h : ∀ tc ∈ calls, PreviewComplete serde tc) :
    (calls.map labelError).map (shownCall serde) = calls.map (shownStored serde) := by
  rw [map_map, map_inj_left]
  intro tc htc
  rw [Function.comp_apply, shownCall, toolResultContent_labelError (h tc htc)]
  rfl

/-- What the store keeps of a turn has its input. -/
theorem storedTurn_input : (storedTurn turn).imageContentParts = turn.imageContentParts ∧
      (storedTurn turn).userInput = turn.userInput := by
  unfold storedTurn
  split <;> exact ⟨rfl, rfl⟩

/-- What is rebuilt of a regular turn shows the turn as the store keeps it. -/
theorem shown_storedTurn (hleft : script.Leaves w turn) (hregular : Regular serde w script) :
    shownRebuilt serde w script = (turnMessages serde (storedTurn turn)).map shown := by
  have himages := storedTurn_input.1.trans hleft.images
  rw [shownRebuilt, turnMessages_eq_user_block serde himages, storedTurn_input.2,
    hleft.input, shown_block_iff, map_shownOutcome_rebuilt, map_shownOutcome_turnOutcomes]
  have hkept : turn.error = none →
      (if Named (script.calls w) then (script.calls w).map (shownStored serde) else []) =
        (storedTurn turn).toolCalls.map (shownCall serde) := by
    intro hnone
    rw [← map_labelError hregular.1]
    simp only [storedTurn, hnone, hleft.calls]
    split <;> rfl
  have hrespond : turn.error = none → (storedTurn turn).response = turn.response := by
    intro hnone
    simp [storedTurn, hnone]
  cases hending : script.ending with
  | completed response =>
    have hnone : turn.error = none := by rw [hleft.error, hending]; rfl
    rw [hrespond hnone, hleft.response, hending]
    refine ⟨?_, rfl⟩
    simp only [storesCalls, true_and]
    exact hkept hnone
  | failed error =>
    have hfailed : turn.error = some error := by rw [hleft.error, hending]; rfl
    have hturn : storedTurn turn = { turn with toolCalls := [], response := some error } := by
      simp [storedTurn, hfailed]
    rw [hturn]
    exact ⟨rfl, rfl⟩
  | authIntercept extName instructions pending =>
    have hnone : turn.error = none := by rw [hleft.error, hending]; rfl
    have hcase := hregular.2
    rw [hending] at hcase
    rw [hrespond hnone, hleft.response, hending]
    refine ⟨?_, rfl⟩
    rw [← hkept hnone]
    rcases hcase with hempty | hlater
    · simp [hempty]
    · have hstores : storesCalls w.thread.turns.length
          (.authIntercept extName instructions pending) = true := by
        simpa [storesCalls] using hlater
      simp [hstores]

/-! ## Whole runs -/

theorem messages_hydrateThread (safety : String → String → String) (now : Timestamp)
    (sessionId threadUuid : Uuid) (rows : List ConversationMessage) :
    (hydrateThread serde safety now sessionId threadUuid rows).messages serde =
      (restoreTurns now 0 (rebuildChatMessagesFromDb serde safety rows)).flatMap
        (turnMessages serde) := by
  rw [Thread.messages_eq_flatMap]
  simp only [hydrateThread]
  by_cases hempty : rebuildChatMessagesFromDb serde safety rows = []
  · rw [hempty, restoreTurns]
    rfl
  · rw [if_neg (by simpa using hempty)]
    rfl

/-- What hydration shows the model, with a safety layer that changes nothing. -/
def hydratedContext (serde : SerdeJson) (now : Timestamp) (sessionId threadUuid : Uuid)
    (rows : List ConversationMessage) : List Shown :=
  ((hydrateThread serde (fun _ content => content) now sessionId threadUuid rows).messages
    serde).map shown

/-- Hydration shows the rows of another turn behind what it showed before. -/
theorem hydratedContext_run {w : World} {script : TurnScript}
    (hread : RowReadsBack agent.serde w.thread.turns.length (script.calls w)) :
    hydratedContext agent.serde now sessionId threadUuid (script.run agent w).rows =
      hydratedContext agent.serde now sessionId threadUuid w.rows ++
        shownRebuilt agent.serde w script := by
  unfold hydratedContext shownRebuilt
  rw [messages_hydrateThread, messages_hydrateThread, (run_effect agent w script).2,
    rebuildChatMessagesFromDb_append, rebuild_rows hread]
  generalize rebuiltOutcomes agent.serde w script = outcomes
  generalize some script.ending.storedResponse = response
  have hstart : AtTurnStart (blockMessages (.user script.userInput) outcomes response) := rfl
  rw [restoreTurns_append hstart, restoreTurns_block now _ (user_role _), flatMap_append,
    map_append, flatMap_singleton, map_shown_restoredTurn]
  rfl

/-- Hydration shows the model what the live thread shows it. -/
def Hydrates (serde : SerdeJson) (now : Timestamp) (sessionId threadUuid : Uuid) (w : World) :
    Prop :=
  hydratedContext serde now sessionId threadUuid w.rows = (w.thread.messages serde).map shown

theorem hydrates_step_iff (hread : RowReadsBack agent.serde w.thread.turns.length (script.calls w))
    (hw : Hydrates agent.serde now sessionId threadUuid w) :
    Hydrates agent.serde now sessionId threadUuid (script.run agent w) ↔
      Faithful agent.serde w script := by
  obtain ⟨⟨turn, hturns, hleft⟩, -⟩ := run_effect agent w script
  unfold Hydrates at hw ⊢
  rw [hydratedContext_run agent now sessionId threadUuid hread, hw, Thread.messages_eq_flatMap,
    Thread.messages_eq_flatMap, hturns, flatMap_append, map_append,
    append_right_inj, flatMap_singleton]
  exact shown_turn_iff agent.serde w script hleft

open World

theorem hydratedContext_init :
    hydratedContext serde now sessionId threadUuid init.rows = [] := by
  rw [hydratedContext, messages_hydrateThread]
  simp [init, rebuildChatMessagesFromDb, restoreTurns]

open TurnScript

/-- Hydration reproduces the live context after every turn of a run exactly if every turn of
the run is faithful, provided that stored rows can be read back as they were printed. -/
theorem hydrates_run_iff (scripts : List TurnScript) (hread : Runs.AllSteps (run agent)
      (fun w script => RowReadsBack agent.serde w.thread.turns.length (script.calls w))
      init scripts) :
    (∀ w ∈ Runs.visited (run agent) init scripts,
        Hydrates agent.serde now sessionId threadUuid w) ↔
      Runs.AllSteps (run agent) (Faithful agent.serde) init scripts :=
  Runs.forall_mem_visited_iff_of (hydrates_step_iff agent now sessionId threadUuid)
    (hydratedContext_init agent.serde now sessionId threadUuid) hread

/-- Hydration shows the model the live thread as the store keeps it, after every turn of a
run of regular turns, provided that stored rows can be read back as they were printed. -/
theorem hydratedContext_eq_stored (agent : Agent) (now : Timestamp) (sessionId threadUuid : Uuid)
    (scripts : List TurnScript)
    (hread : Runs.AllSteps (run agent)
      (fun w script => RowReadsBack agent.serde w.thread.turns.length (script.calls w))
      init scripts)
    (hregular : Runs.AllSteps (run agent) (Regular agent.serde) init scripts) :
    ∀ w ∈ Runs.visited (run agent) init scripts,
      hydratedContext agent.serde now sessionId threadUuid w.rows =
        ((storedThread w.thread).messages agent.serde).map shown := by
  refine Runs.forall_mem_visited ?_ ?_ (hread.and hregular)
  · intro w script hside hw
    obtain ⟨⟨turn, hturns, hleft⟩, -⟩ := run_effect agent w script
    have hturn := shown_storedTurn agent.serde w script hleft hside.2
    rw [hydratedContext_run agent now sessionId threadUuid hside.1, hw, hturn,
      Thread.messages_eq_flatMap, Thread.messages_eq_flatMap]
    simp [storedThread, hturns]
  · rfl

/-- A turn that calls the tool `echo` once. -/
def echoScript : TurnScript where
  userInput := "hi"
  recorders := [.toolCall "echo" .null, .toolResult (.string "ok")]
  ending := .completed "done"

/-- The row of that turn. -/
def echoRow : Value :=
  .array [.object [("call_id", .string "turn0_0"), ("name", .string "echo"),
    ("parameters", .null), ("result", .string "ok"), ("result_preview", .string "ok")]]

/-- The text of that row. -/
def echoRowText : String :=
  "[\x7b\"call_id\":\"turn0_0\",\"name\":\"echo\",\"parameters\":null," ++
    "\"result\":\"ok\",\"result_preview\":\"ok\"\x7d]"

/-- An agent that prints and reads one row. -/
def rowAgent (row : Value) (text : String) : Agent :=
  { plainAgent with serde := .knowing row text }

/-- An agent that prints and reads the row of the turn. -/
def echoAgent : Agent :=
  rowAgent echoRow echoRowText

theorem hydratedContext_echo :
    Runs.AllSteps (run echoAgent) (Regular echoAgent.serde) init [echoScript] ∧
      ∀ w ∈ Runs.visited (run echoAgent) init [echoScript],
        hydratedContext echoAgent.serde 9 0 0 w.rows =
          ((storedThread w.thread).messages echoAgent.serde).map shown := by
  have hregular : Runs.AllSteps (run echoAgent) (Regular echoAgent.serde) init
      [echoScript] := by
    decide +kernel
  refine ⟨hregular, ?_⟩
  exact hydratedContext_eq_stored echoAgent 9 0 0 [echoScript] (by decide +kernel) hregular

theorem hydrates_echo : (∀ w ∈ Runs.visited (run echoAgent) init [echoScript],
        Hydrates echoAgent.serde 9 0 0 w) ↔
      Runs.AllSteps (run echoAgent) (Faithful echoAgent.serde) init [echoScript] :=
  hydrates_run_iff echoAgent 9 0 0 [echoScript] (by decide +kernel)

/-- A turn whose only tool call has an error. -/
def errorScript : TurnScript where
  userInput := "hi"
  recorders := [.toolCall "echo" .null, .toolError "boom"]
  ending := .completed "done"

/-- An agent that prints and reads the row of that turn. -/
def errorAgent : Agent :=
  rowAgent
    (.array [.object [("call_id", .string "turn0_0"), ("error", .string "boom"),
      ("name", .string "echo"), ("parameters", .null)]])
    ("[\x7b\"call_id\":\"turn0_0\",\"error\":\"boom\"," ++
      "\"name\":\"echo\",\"parameters\":null\x7d]")

/-- A turn whose only tool call has no name. -/
def namelessScript : TurnScript where
  userInput := "hi"
  recorders := [.toolCall "" .null]
  ending := .completed "done"

/-- An agent that prints and reads the row of that turn. -/
def namelessAgent : Agent :=
  rowAgent
    (.array [.object [("call_id", .string "turn0_0"), ("name", .string ""),
      ("parameters", .null)]])
    "[\x7b\"call_id\":\"turn0_0\",\"name\":\"\",\"parameters\":null\x7d]"

/-- The error of a failed turn comes back as a response, a tool error comes back with a
label, and a tool call without a name does not come back. -/
theorem hydratedContext_ne_live :
    ¬ Hydrates plainAgent.serde 9 0 0 (run plainAgent init
        { userInput := "hi", recorders := [], ending := .failed "boom" }) ∧
      ¬ Hydrates errorAgent.serde 9 0 0 (errorScript.run errorAgent init) ∧
      ¬ Hydrates namelessAgent.serde 9 0 0 (namelessScript.run namelessAgent init) := by
  unfold Hydrates
  decide +kernel

end Axinite.Submissions
