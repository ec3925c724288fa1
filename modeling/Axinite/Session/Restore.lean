import Axinite.Session.Thread

/-!
# Restoring a thread from a checkpoint

`restoreFromMessages` rebuilds the turns of a thread from the messages of a
checkpoint.  A user message opens a turn, the tool-call rounds and the final
response that follow are attached to it, and anything else is skipped.

Main results:

- Theorem `Thread.Built.wellNumbered`: threads number their turns by position.
- Theorem `restoreTurns_flatMap`: the turns rebuilt from the messages of a thread.
- Theorem `messages_roundTrips_iff`: a checkpoint round trip keeps the
  messages exactly when every recorded outcome survives being cut twice.
-/

namespace Axinite.Session

open Json Llm Preview List

/-- The next message opens a tool-call round. -/
def nextOpensToolCallRound : List ChatMessage → Bool
  | [] => false
  | next :: _ => next.role = .assistant && next.toolCalls.isSome

/-- Consume the assistant message of a round and record the calls it made. -/
def recordRoundToolCalls : List ChatMessage → Turn → List ChatMessage × Turn
  | [], turn => ([], turn)
  | msg :: iter, turn =>
    (iter, (msg.toolCalls.getD []).foldl
      (fun turn tc => turn.recordToolCall tc.name tc.arguments) turn)

/-- Store the content of a result message on the call in slot `idx`, if there is one. -/
def recordRestoredResult (turn : Turn) (idx : Nat) (toolMsg : ChatMessage) : Turn :=
  if idx ≥ turn.toolCalls.length then turn
  else
    { turn with
      toolCalls := turn.toolCalls.modify idx fun call =>
        { call with result := some (.string toolMsg.content) } }

/-- Consume the result messages of one round; `pos` counts them. -/
def consumeToolResults (callBaseIdx : Nat) :
    Nat → List ChatMessage → Turn → List ChatMessage × Turn
  | _, [], turn => ([], turn)
  | pos, msg :: iter, turn =>
    if msg.role = .tool then
      consumeToolResults callBaseIdx (pos + 1) iter
        (recordRestoredResult turn (callBaseIdx + pos) msg)
    else (msg :: iter, turn)

variable (serde : SerdeJson) (now : Timestamp) (outcomes : List (ToolCall × String))
  (base pos : Nat) (iter : List ChatMessage) (turn : Turn)

/-- Messages are consumed, and the turn keeps its number. -/
def Consumes (iter : List ChatMessage) (turn : Turn) (r : List ChatMessage × Turn) : Prop :=
  r.1.length ≤ iter.length ∧ r.2.turnNumber = turn.turnNumber

open Nat

theorem consumeToolResults_consumes :
    Consumes iter turn (consumeToolResults base pos iter turn) := by
  induction iter generalizing pos turn with
  | nil => exact ⟨le_refl _, rfl⟩
  | cons msg iter ih =>
    unfold consumeToolResults
    split
    · refine ⟨le_succ_of_le (ih _ _).1, (ih _ _).2.trans ?_⟩
      unfold recordRestoredResult
      split <;> rfl
    · exact ⟨le_refl _, rfl⟩

/-- A call that has been recorded and has no outcome yet. -/
def blankCall (call : ToolCall) : TurnToolCall :=
  { name := call.name, parameters := call.arguments, result := none, error := none }

theorem foldl_recordToolCall (calls : List ToolCall) (turn : Turn) :
    calls.foldl (fun turn tc => turn.recordToolCall tc.name tc.arguments) turn =
      { turn with toolCalls := turn.toolCalls ++ calls.map blankCall } := by
  induction calls generalizing turn with
  | nil => simp
  | cons call calls ih =>
    rw [foldl_cons, ih]
    simp [Turn.recordToolCall, blankCall]

theorem recordRoundToolCalls_length_lt {iter : List ChatMessage}
    (h : nextOpensToolCallRound iter = true) (turn : Turn) :
    (recordRoundToolCalls iter turn).1.length < iter.length := by
  cases iter with
  | nil => simp [nextOpensToolCallRound] at h
  | cons msg iter => simp [recordRoundToolCalls]

/-- Consume all tool-call rounds of the turn that is being rebuilt. -/
def consumeToolCallRounds (iter : List ChatMessage) (turn : Turn) : List ChatMessage × Turn :=
  if _h : nextOpensToolCallRound iter = true then
    let callBaseIdx := turn.toolCalls.length
    let round := recordRoundToolCalls iter turn
    let results := consumeToolResults callBaseIdx 0 round.1 round.2
    consumeToolCallRounds results.1 results.2
  else (iter, turn)
termination_by iter.length
decreasing_by
  exact lt_of_le_of_lt (consumeToolResults_consumes _ _ _ _).1
    (recordRoundToolCalls_length_lt _h turn)

/-- Complete the turn with the next message if it is a plain assistant message. -/
def consumeFinalResponse (now : Timestamp) :
    List ChatMessage → Turn → List ChatMessage × Turn
  | [], turn => ([], turn)
  | next :: iter, turn =>
    if next.role = .assistant && next.toolCalls.isNone then
      (iter, turn.complete now next.content)
    else (next :: iter, turn)

theorem consumeToolCallRounds_consumes : Consumes iter turn (consumeToolCallRounds iter turn) := by
  fun_induction consumeToolCallRounds iter turn with
  | case1 iter turn h base round results ih =>
    have hresults : Consumes round.1 round.2 results := consumeToolResults_consumes _ _ _ _
    have hround : round.1.length ≤ iter.length :=
      le_of_lt (recordRoundToolCalls_length_lt h turn)
    have hnumber : round.2.turnNumber = turn.turnNumber := by
      cases iter with
      | nil => rfl
      | cons msg iter => simp [round, recordRoundToolCalls, foldl_recordToolCall]
    exact ⟨le_trans ih.1 (le_trans hresults.1 hround),
      ih.2.trans (hresults.2.trans hnumber)⟩
  | case2 iter turn h => exact ⟨le_refl _, rfl⟩

theorem consumeFinalResponse_consumes :
    Consumes iter turn (consumeFinalResponse now iter turn) := by
  cases iter with
  | nil => exact ⟨le_refl _, rfl⟩
  | cons next iter =>
    simp only [consumeFinalResponse]
    split
    · exact ⟨le_succ _, rfl⟩
    · exact ⟨le_refl _, rfl⟩

/-- Rebuild turns from a message sequence, numbering them from `turnNumber`. -/
def restoreTurns (now : Timestamp) (turnNumber : Nat) : List ChatMessage → List Turn
  | [] => []
  | msg :: iter =>
    if msg.role ≠ .user then restoreTurns now turnNumber iter
    else
      let rounds := consumeToolCallRounds iter (Turn.new now turnNumber msg.content)
      let final := consumeFinalResponse now rounds.1 rounds.2
      final.2 :: restoreTurns now (turnNumber + 1) final.1
termination_by iter => iter.length
decreasing_by
  · simp
  · exact lt_succ_of_le (le_trans (consumeFinalResponse_consumes _ _ _).1
      (consumeToolCallRounds_consumes _ _).1)

/-- Restore the turns of a thread from the messages of a checkpoint. -/
def Thread.restoreFromMessages (now : Timestamp) (messages : List ChatMessage)
    (thread : Thread) : Thread :=
  { thread with
    turns := restoreTurns now 0 messages
    state := .idle
    updatedAt := now }

/-! ## Numbers of restored turns -/

theorem restoreTurns_numberedFrom (turnNumber : Nat) (messages : List ChatMessage) :
    NumberedFrom turnNumber (restoreTurns now turnNumber messages) := by
  fun_induction restoreTurns now turnNumber messages with
  | case1 turnNumber => exact trivial
  | case2 turnNumber msg iter h ih => exact ih
  | case3 turnNumber msg iter h rounds final ih =>
    refine ⟨?_, ih⟩
    rw [(consumeFinalResponse_consumes _ _ _).2, (consumeToolCallRounds_consumes _ _).2]
    rfl

/-- Threads that are built by the methods of threads, as far as these touch the turns. -/
inductive Thread.Built : Thread → Prop where
  | init (now : Timestamp) (sessionId threadId : Uuid) : Built (Thread.init now sessionId threadId)
  | startTurn {thread} (now : Timestamp) (userInput : String) :
      Built thread → Built (thread.startTurn now userInput)
  | modifyLastTurn {thread} (f : Turn → Turn) (hf : ∀ turn, (f turn).turnNumber = turn.turnNumber) :
      Built thread → Built (thread.modifyLastTurn f)
  | truncateTurns {thread} (keep : Nat) : Built thread → Built (thread.truncateTurns keep)
  | restoreFromMessages {thread} (now : Timestamp) (messages : List ChatMessage) :
      Built thread → Built (thread.restoreFromMessages now messages)
  | sameTurns {thread thread'} : Built thread → thread'.turns = thread.turns → Built thread'

/-- Threads that are built by the methods of threads number their turns by position. -/
theorem Thread.Built.wellNumbered {thread : Thread} (h : thread.Built) : thread.WellNumbered := by
  induction h with
  | init now sessionId threadId => exact trivial
  | startTurn now userInput _ ih => exact startTurn_wellNumbered ih now userInput
  | modifyLastTurn f hf _ ih => exact modifyLastTurn_wellNumbered ih hf
  | truncateTurns keep _ ih => exact truncateTurns_wellNumbered ih keep
  | restoreFromMessages now messages _ _ => exact restoreTurns_numberedFrom now 0 messages
  | sameTurns _ hturns ih =>
    rw [WellNumbered, hturns]
    exact ih

/-! ## Restoring the messages of one turn -/

open ChatMessage

/-- The messages of a turn, from its input, its calls with the contents of their
results, and its response. -/
def blockMessages (input : ChatMessage) (outcomes : List (ToolCall × String))
    (response : Option String) : List ChatMessage :=
  let round :=
    if outcomes.isEmpty then []
    else .assistantWithToolCalls none (outcomes.map Prod.fst) ::
      outcomes.map fun outcome => .toolResult outcome.1.id outcome.1.name outcome.2
  input :: round ++ response.toList.map assistant

/-- A call whose outcome has been restored from a message. -/
def restoredCall (outcome : ToolCall × String) : TurnToolCall :=
  { blankCall outcome.1 with result := some (.string outcome.2) }

/-- The turn that is rebuilt from the messages of a block. -/
def restoredTurn (now : Timestamp) (turnNumber : Nat) (input : String)
    (outcomes : List (ToolCall × String)) (response : Option String) : Turn :=
  let turn := { Turn.new now turnNumber input with toolCalls := outcomes.map restoredCall }
  match response with
  | some response => turn.complete now response
  | none => turn

section RestoredTurn

variable (now : Timestamp) (turnNumber : Nat) (input : String)
  (outcomes : List (ToolCall × String)) (response : Option String)

@[simp]
theorem restoredTurn_turnNumber :
    (restoredTurn now turnNumber input outcomes response).turnNumber = turnNumber := by
  cases response <;> rfl

@[simp]
theorem restoredTurn_userInput :
    (restoredTurn now turnNumber input outcomes response).userInput = input := by
  cases response <;> rfl

@[simp]
theorem restoredTurn_response :
    (restoredTurn now turnNumber input outcomes response).response = response := by
  cases response <;> rfl

@[simp]
theorem restoredTurn_toolCalls : (restoredTurn now turnNumber input outcomes response).toolCalls =
      outcomes.map restoredCall := by
  cases response <;> rfl

@[simp]
theorem restoredTurn_imageContentParts :
    (restoredTurn now turnNumber input outcomes response).imageContentParts = [] := by
  cases response <;> rfl

end RestoredTurn

/-- The sequence is at its end or at the start of the next turn. -/
def AtTurnStart : List ChatMessage → Prop
  | [] => True
  | msg :: _ => msg.role = .user

variable {iter : List ChatMessage}

theorem consumeToolResults_of_not_tool
    (h : ∀ msg, iter.head? = some msg → msg.role ≠ .tool) (turn : Turn) :
    consumeToolResults base pos iter turn = (iter, turn) := by
  cases iter with
  | nil => rfl
  | cons msg iter => simp [consumeToolResults, h msg rfl]

theorem modify_append_length (f : TurnToolCall → TurnToolCall) (before : List TurnToolCall)
    (call : TurnToolCall) (after : List TurnToolCall) :
    (before ++ call :: after).modify before.length f = before ++ f call :: after := by
  induction before with
  | nil => rfl
  | cons first before ih => simpa using ih

/-- The results of a round land in the slots of their calls. -/
theorem consumeToolResults_outcomes
    (hiter : ∀ msg, iter.head? = some msg → msg.role ≠ .tool) (turn : Turn)
    (done : List TurnToolCall) (hdone : done.length = base + pos)
    (hcalls : turn.toolCalls = done ++ outcomes.map fun outcome => blankCall outcome.1) :
    consumeToolResults base pos ((outcomes.map fun outcome =>
          toolResult outcome.1.id outcome.1.name outcome.2) ++ iter) turn =
      (iter, { turn with toolCalls := done ++ outcomes.map restoredCall }) := by
  induction outcomes generalizing pos turn done with
  | nil =>
    rw [map_nil, nil_append, consumeToolResults_of_not_tool base pos hiter]
    rw [map_nil] at hcalls ⊢
    rw [← hcalls]
  | cons outcome outcomes ih =>
    have hlt : base + pos < turn.toolCalls.length := by
      rw [hcalls, ← hdone]
      simp
    have hstep : recordRestoredResult turn (base + pos)
          (.toolResult outcome.1.id outcome.1.name outcome.2) =
        { turn with
          toolCalls := (done ++ [restoredCall outcome]) ++
            outcomes.map fun outcome => blankCall outcome.1 } := by
      rw [recordRestoredResult, if_neg (Nat.not_le.2 hlt), hcalls, ← hdone]
      simp [modify_append_length, restoredCall]
    rw [map_cons, cons_append, consumeToolResults,
      hstep,
      ih (pos + 1) _ (done ++ [restoredCall outcome]) (by simp [hdone, Nat.add_assoc]) rfl]
    simp

theorem consumeToolCallRounds_of_not_round (h : nextOpensToolCallRound iter = false) (turn : Turn) :
    consumeToolCallRounds iter turn = (iter, turn) := by
  rw [consumeToolCallRounds, dif_neg (by simp [h])]

theorem AtTurnStart.role (h : AtTurnStart iter) {msg : ChatMessage}
    (hmsg : iter.head? = some msg) : msg.role = .user := by
  cases iter with
  | nil => cases hmsg
  | cons first iter =>
    cases hmsg
    exact h

theorem nextOpensToolCallRound_append (h : AtTurnStart iter) (xs : List ChatMessage) :
    nextOpensToolCallRound (xs ++ iter) = nextOpensToolCallRound xs := by
  cases xs with
  | cons msg xs => rfl
  | nil =>
    cases iter with
    | nil => rfl
    | cons msg iter => simp [nextOpensToolCallRound, h.role rfl]

/-- The round of a block records its calls with their results. -/
theorem consumeToolCallRounds_round {outcomes : List (ToolCall × String)} (hne : outcomes ≠ [])
    (hnot : nextOpensToolCallRound iter = false)
    (hhead : ∀ msg, iter.head? = some msg → msg.role ≠ .tool) {turn : Turn}
    (hturn : turn.toolCalls = []) :
    consumeToolCallRounds (.assistantWithToolCalls none (outcomes.map Prod.fst) ::
          ((outcomes.map fun outcome =>
            toolResult outcome.1.id outcome.1.name outcome.2) ++ iter)) turn =
      (iter, { turn with toolCalls := outcomes.map restoredCall }) := by
  have hdeclared : (assistantWithToolCalls none (outcomes.map Prod.fst)).toolCalls =
      some (outcomes.map Prod.fst) := by
    cases outcomes with
    | nil => exact absurd rfl hne
    | cons outcome outcomes => rfl
  rw [consumeToolCallRounds, dif_pos (by simp [nextOpensToolCallRound, hdeclared])]
  simp only [recordRoundToolCalls, hdeclared, foldl_recordToolCall, hturn,
    length_nil]
  rw [consumeToolResults_outcomes outcomes 0 0 hhead _ [] rfl (by simp),
    consumeToolCallRounds_of_not_round hnot]
  rfl

/-- A block of messages is rebuilt into one turn. -/
theorem restoreTurns_block (turnNumber : Nat) {input : ChatMessage} (hinput : input.role = .user)
    (outcomes : List (ToolCall × String)) (response : Option String) :
    restoreTurns now turnNumber (blockMessages input outcomes response) =
      [restoredTurn now turnNumber input.content outcomes response] := by
  -- after the rounds of a block comes its response
  have hnot : nextOpensToolCallRound (response.toList.map assistant) = false := by
    cases response <;> rfl
  have hhead : ∀ msg, (response.toList.map assistant).head? = some msg →
      msg.role ≠ .tool := by
    cases response <;> simp
  have hfinal : ∀ turn, consumeFinalResponse now (response.toList.map assistant) turn =
      ([], response.elim turn (turn.complete now)) := by
    cases response <;> exact fun _ => rfl
  rw [blockMessages, cons_append, restoreTurns, if_neg (by simp [hinput])]
  by_cases hne : outcomes = []
  · subst hne
    simp only [isEmpty_nil, if_true, nil_append, consumeToolCallRounds_of_not_round hnot, hfinal,
      restoreTurns]
    cases response <;> rfl
  · rw [if_neg (by simpa using hne)]
    have hnew : (Turn.new now turnNumber input.content).toolCalls = [] := rfl
    simp only [cons_append, consumeToolCallRounds_round hne hnot hhead hnew, hfinal, restoreTurns]
    cases response <;> rfl

/-! ## Turns one after the other -/

section Append

variable {ys : List ChatMessage} (h : AtTurnStart ys)

include h

theorem consumeToolResults_append (base pos : Nat) (xs : List ChatMessage) (turn : Turn) :
    consumeToolResults base pos (xs ++ ys) turn =
      ((consumeToolResults base pos xs turn).1 ++ ys, (consumeToolResults base pos xs turn).2) := by
  induction xs generalizing pos turn with
  | nil =>
    apply consumeToolResults_of_not_tool
    intro msg hmsg
    simp [h.role hmsg]
  | cons msg xs ih =>
    rw [cons_append, consumeToolResults, consumeToolResults]
    by_cases hrole : msg.role = .tool
    · rw [if_pos hrole, if_pos hrole]
      exact ih _ _
    · rw [if_neg hrole, if_neg hrole]
      rfl

omit h in
theorem recordRoundToolCalls_append {xs : List ChatMessage}
    (hround : nextOpensToolCallRound xs = true) (turn : Turn) :
    recordRoundToolCalls (xs ++ ys) turn =
      ((recordRoundToolCalls xs turn).1 ++ ys, (recordRoundToolCalls xs turn).2) := by
  cases xs with
  | nil => simp [nextOpensToolCallRound] at hround
  | cons msg xs => rfl

theorem consumeToolCallRounds_append (xs : List ChatMessage) (turn : Turn) :
    consumeToolCallRounds (xs ++ ys) turn =
      ((consumeToolCallRounds xs turn).1 ++ ys, (consumeToolCallRounds xs turn).2) := by
  fun_induction consumeToolCallRounds xs turn with
  | case1 xs turn hround base round results ih =>
    rw [consumeToolCallRounds, dif_pos (by rwa [nextOpensToolCallRound_append h])]
    simp only [recordRoundToolCalls_append hround, consumeToolResults_append h]
    exact ih
  | case2 xs turn hround =>
    rw [consumeToolCallRounds, dif_neg (by rwa [nextOpensToolCallRound_append h])]

theorem consumeFinalResponse_append (now : Timestamp) (xs : List ChatMessage) (turn : Turn) :
    consumeFinalResponse now (xs ++ ys) turn =
      ((consumeFinalResponse now xs turn).1 ++ ys, (consumeFinalResponse now xs turn).2) := by
  cases xs with
  | nil =>
    cases ys with
    | nil => rfl
    | cons msg ys => simp [consumeFinalResponse, h.role rfl]
  | cons next xs =>
    simp only [cons_append, consumeFinalResponse]
    split <;> rfl

/-- The next user message opens a new turn, whatever stands before it. -/
theorem restoreTurns_append (now : Timestamp) (n : Nat) (xs : List ChatMessage) :
    restoreTurns now n (xs ++ ys) =
      restoreTurns now n xs ++ restoreTurns now (n + (restoreTurns now n xs).length) ys := by
  fun_induction restoreTurns now n xs with
  | case1 n => rfl
  | case2 n msg iter hrole ih =>
    rw [cons_append, restoreTurns, if_pos hrole, ih]
  | case3 n msg iter hrole rounds final ih =>
    rw [cons_append, restoreTurns, if_neg hrole]
    simp only [consumeToolCallRounds_append h, consumeFinalResponse_append h]
    have hnext : n + ((restoreTurns now (n + 1) final.1).length + 1) =
        n + 1 + (restoreTurns now (n + 1) final.1).length := by omega
    rw [length_cons, hnext]
    exact congrArg _ ih

end Append

/-! ## Checkpoint round trips -/

theorem map_mapIdx {α β γ : Type} (g : β → γ) (f : Nat → α → β) (xs : List α) :
    (xs.mapIdx f).map g = xs.mapIdx fun i x => g (f i x) := by
  apply ext_getElem?
  simp [Function.comp_def]

theorem mapIdx_map {α β γ : Type} (g : Nat → β → γ) (f : α → β) (xs : List α) :
    (xs.map f).mapIdx g = xs.mapIdx fun i x => g i (f x) := by
  apply ext_getElem?
  simp [Function.comp_def]

theorem mapIdx_eq_map_of {α β : Type} {f : Nat → α → β} {g : α → β}
    (h : ∀ i x, f i x = g x) (xs : List α) : xs.mapIdx f = xs.map g := by
  apply ext_getElem?
  intro i
  rw [List.getElem?_mapIdx, List.getElem?_map, funext (h i)]

/-- The calls of a turn with the contents of their results. -/
def turnOutcomes (serde : SerdeJson) (turn : Turn) : List (ToolCall × String) :=
  turn.toolCalls.mapIdx fun i tc =>
    ({ id := turnCallId turn i, name := tc.name, arguments := tc.parameters },
      toolResultContent serde tc)

theorem turnMessages_eq_block : turnMessages serde turn =
      blockMessages (turnUserMessage turn) (turnOutcomes serde turn) turn.response := by
  unfold turnMessages blockMessages roundMessages appendToolCallMessages turnOutcomes
  by_cases hcalls : turn.toolCalls = []
  · simp [hcalls]
  · simp [map_mapIdx]

@[simp]
theorem turnUserMessage_role : (turnUserMessage turn).role = .user := by
  unfold turnUserMessage
  split <;> rfl

@[simp]
theorem turnUserMessage_content : (turnUserMessage turn).content = turn.userInput := by
  unfold turnUserMessage
  split <;> rfl

/-- The turns that are rebuilt from the messages of a list of turns. -/
def restoredTurns (serde : SerdeJson) (now : Timestamp) : Nat → List Turn → List Turn
  | _, [] => []
  | n, turn :: turns =>
    restoredTurn now n turn.userInput (turnOutcomes serde turn) turn.response ::
      restoredTurns serde now (n + 1) turns

theorem atTurnStart_flatMap (turns : List Turn) :
    AtTurnStart (turns.flatMap (turnMessages serde)) := by
  cases turns with
  | nil => exact trivial
  | cons turn turns => exact turnUserMessage_role turn

/-- Restoring the messages of some turns rebuilds each of them. -/
theorem restoreTurns_flatMap (n : Nat) (turns : List Turn) :
    restoreTurns now n (turns.flatMap (turnMessages serde)) = restoredTurns serde now n turns := by
  induction turns generalizing n with
  | nil => simp [restoreTurns, restoredTurns]
  | cons turn turns ih =>
    rw [flatMap_cons, restoreTurns_append (atTurnStart_flatMap serde turns), turnMessages_eq_block,
      restoreTurns_block now n (turnUserMessage_role turn), ih, turnUserMessage_content]
    rfl

/-- The text of a recorded outcome before it is cut for the model. -/
def outcomeText (serde : SerdeJson) (tc : TurnToolCall) : Option String :=
  tc.error <|> tc.result.map (rawResult serde)

/-- The content that the model sees for the call survives another cut. -/
def OutcomeStable (serde : SerdeJson) (tc : TurnToolCall) : Prop :=
  ∀ text ∈ outcomeText serde tc, TruncationStable text 1000

theorem toolResultContent_eq (tc : TurnToolCall) : toolResultContent serde tc =
      match outcomeText serde tc with
      | some text => truncatePreview text 1000
      | none => "OK" := by
  unfold toolResultContent outcomeText
  cases tc.error with
  | some err => rfl
  | none =>
    cases tc.result with
    | some _ | none => rfl

theorem truncatePreview_toolResultContent_iff (tc : TurnToolCall) :
    truncatePreview (toolResultContent serde tc) 1000 = toolResultContent serde tc ↔
      OutcomeStable serde tc := by
  rw [toolResultContent_eq, OutcomeStable]
  cases outcomeText serde tc with
  | some text => simpa using truncatePreview_idem_iff (s := text) (by decide)
  | none => simpa using truncatePreview_of_short (by decide)

/-- A rebuilt turn shows the model the restored contents, cut once more. -/
theorem turnOutcomes_restoredTurn (n : Nat) (input : String) (outcomes : List (ToolCall × String))
    (response : Option String) :
    turnOutcomes serde (restoredTurn now n input outcomes response) =
      outcomes.mapIdx fun i outcome =>
        ({ outcome.1 with id := "turn" ++ toString n ++ "_" ++ toString i },
          truncatePreview outcome.2 1000) := by
  simp only [turnOutcomes, turnCallId, restoredTurn_toolCalls, restoredTurn_turnNumber, mapIdx_map]
  rfl

theorem turnMessages_restoredTurn {turn : Turn} (himages : turn.imageContentParts = []) :
    turnMessages serde (restoredTurn now turn.turnNumber turn.userInput
        (turnOutcomes serde turn) turn.response) =
      blockMessages (turnUserMessage turn)
        ((turnOutcomes serde turn).map (Prod.map id fun text => truncatePreview text 1000))
        turn.response := by
  rw [turnMessages_eq_block, turnOutcomes_restoredTurn, restoredTurn_response]
  congr 1
  · simp [turnUserMessage, himages]
  · simp [turnOutcomes, turnCallId, map_mapIdx, Function.comp_def]

theorem blockMessages_map_iff (input : ChatMessage) (outcomes : List (ToolCall × String))
    (response : Option String) (g : String → String) :
    blockMessages input (outcomes.map (Prod.map id g)) response =
        blockMessages input outcomes response ↔
      ∀ outcome ∈ outcomes, g outcome.2 = outcome.2 := by
  by_cases hne : outcomes = []
  · simp [hne]
  · simp [blockMessages, hne, Function.comp_def, toolResult, plain]

theorem length_blockMessages_map (input : ChatMessage) (outcomes : List (ToolCall × String))
    (response : Option String) (g : String → String) :
    (blockMessages input (outcomes.map (Prod.map id g)) response).length =
      (blockMessages input outcomes response).length := by
  by_cases hne : outcomes = []
  · simp [hne]
  · simp [blockMessages, hne]

/-- A rebuilt turn has the messages of the original one exactly when all its
outcomes are stable. -/
theorem turnMessages_restoredTurn_iff {turn : Turn} (himages : turn.imageContentParts = []) :
    turnMessages serde (restoredTurn now turn.turnNumber turn.userInput
        (turnOutcomes serde turn) turn.response) = turnMessages serde turn ↔
      ∀ tc ∈ turn.toolCalls, OutcomeStable serde tc := by
  rw [turnMessages_restoredTurn serde now himages, turnMessages_eq_block, blockMessages_map_iff]
  simp only [turnOutcomes, forall_mem_iff_forall_getElem, length_mapIdx,
    getElem_mapIdx, truncatePreview_toolResultContent_iff]

/-- Restoring a list of turns keeps their messages exactly when all recorded
outcomes are stable. -/
theorem flatMap_restoredTurns_iff {n : Nat} {turns : List Turn} (hnum : NumberedFrom n turns)
    (himages : ∀ turn ∈ turns, turn.imageContentParts = []) :
    (restoredTurns serde now n turns).flatMap (turnMessages serde) =
        turns.flatMap (turnMessages serde) ↔
      ∀ turn ∈ turns, ∀ tc ∈ turn.toolCalls, OutcomeStable serde tc := by
  induction turns generalizing n with
  | nil => simp [restoredTurns]
  | cons turn turns ih =>
    rcases hnum with ⟨rfl, hnum⟩
    have hturn := himages turn (by simp)
    have hrest := ih hnum fun t ht => himages t (by simp [ht])
    have hlength : (turnMessages serde (restoredTurn now turn.turnNumber turn.userInput
        (turnOutcomes serde turn) turn.response)).length =
        (turnMessages serde turn).length := by
      rw [turnMessages_restoredTurn serde now hturn, length_blockMessages_map,
        ← turnMessages_eq_block]
    rw [restoredTurns, flatMap_cons, flatMap_cons, forall_mem_cons,
      ← turnMessages_restoredTurn_iff serde now hturn, ← hrest]
    constructor
    · intro h
      exact append_inj h hlength
    · intro h
      rw [h.1, h.2]

/-- A checkpoint round trip keeps the messages of a thread exactly when every
recorded outcome survives being cut twice. -/
theorem messages_restore_iff (thread target : Thread) (hnum : thread.WellNumbered)
    (himages : ∀ turn ∈ thread.turns, turn.imageContentParts = []) :
    (target.restoreFromMessages now (thread.messages serde)).messages serde =
        thread.messages serde ↔
      ∀ turn ∈ thread.turns, ∀ tc ∈ turn.toolCalls, OutcomeStable serde tc := by
  simp only [Thread.messages_eq_flatMap, Thread.restoreFromMessages, restoreTurns_flatMap]
  exact flatMap_restoredTurns_iff serde now hnum himages

/-- What the model sees after messages were restored into threads, one after the other, each
time at some point in time. -/
def roundTrips (serde : SerdeJson) (messages : List ChatMessage)
    (trips : List (Timestamp × Thread)) : List ChatMessage :=
  trips.foldl (fun messages trip =>
    (trip.2.restoreFromMessages trip.1 messages).messages serde) messages

/-- Checkpoint round trips, in any number and into any threads, keep the messages of a thread
exactly when every recorded outcome survives being cut twice. -/
theorem messages_roundTrips_iff (serde : SerdeJson) (thread : Thread) (hbuilt : thread.Built)
    (himages : ∀ turn ∈ thread.turns, turn.imageContentParts = []) :
    (∀ trips, roundTrips serde (thread.messages serde) trips = thread.messages serde) ↔
      ∀ turn ∈ thread.turns, ∀ tc ∈ turn.toolCalls, OutcomeStable serde tc := by
  have hnum := hbuilt.wellNumbered
  constructor
  · intro h
    exact (messages_restore_iff serde 0 thread thread hnum himages).1 (h [(0, thread)])
  · intro hstable trips
    -- the messages are a fixed point of every single trip
    have hstep : ∀ trip : Timestamp × Thread,
        (trip.2.restoreFromMessages trip.1 (thread.messages serde)).messages serde =
          thread.messages serde := by
      intro trip
      exact (messages_restore_iff serde trip.1 thread trip.2 hnum himages).2 hstable
    induction trips with
    | nil => rfl
    | cons trip trips ih =>
      rw [roundTrips, foldl_cons, hstep trip]
      exact ih

/-- A thread with one turn that made one call of the tool `echo`. -/
def echoThread (result : String) : Thread :=
  ((Thread.init 0 0 0).startTurn 1 "hi").modifyLastTurn fun turn =>
    (turn.recordToolCall "echo" .null).recordToolResult (.string result)

theorem echoThread_turns (result : String) : (echoThread result).turns =
      [{ Turn.new 1 0 "hi" with
        toolCalls := [restoredCall ({ id := "", name := "echo", arguments := .null }, result)] }] :=
  rfl

theorem echoThread_built (result : String) : (echoThread result).Built :=
  .modifyLastTurn _ (fun _ => rfl) (.startTurn 1 "hi" (.init 0 0 0))

theorem messages_roundTrips_echo : (echoThread "ok").Built ∧
      ∀ trips, roundTrips nullSerde ((echoThread "ok").messages nullSerde) trips =
        (echoThread "ok").messages nullSerde := by
  refine ⟨echoThread_built "ok", ?_⟩
  refine (messages_roundTrips_iff _ _ (echoThread_built _) ?_).2 ?_
  · simp [echoThread_turns, Turn.new]
  · simp [echoThread_turns, OutcomeStable, outcomeText, restoredCall, blankCall, rawResult]
    decide

/-- A text of `n` one-byte characters and a character of two bytes. -/
def crossingText (n : Nat) : String :=
  String.ofList (List.replicate n 'a' ++ ['é'])

open Foundation.Utf8

theorem not_truncationStable_crossingText (n : Nat) :
    ¬ TruncationStable (crossingText n) (n + 1) := by
  have hbytes : byteLen (List.replicate n 'a') = n := by
    rw [byteLen_replicate, show 'a'.utf8Size = 1 from rfl, Nat.mul_one]
  have hlast : 'é'.utf8Size = 2 := by decide
  have hlen : len (crossingText n) = n + 2 := by
    rw [len, crossingText, String.toList_ofList, byteLen_append, hbytes]
    simp [hlast]
  have hfloor : floorCharBoundary (crossingText n).toList (n + 1) = n := by
    rw [crossingText, String.toList_ofList,
      floorCharBoundary_eq_of_split (by omega) (by omega), hbytes]
  rw [TruncationStable]
  omega

/-- A result of 999 letters and a character of two bytes is shown as the letters and an
ellipsis, and the next cut changes it again. -/
theorem messages_roundTrips_crossingText :
    roundTrips nullSerde ((echoThread (crossingText 999)).messages nullSerde)
        [(2, echoThread (crossingText 999))] ≠
      (echoThread (crossingText 999)).messages nullSerde := by
  intro h
  have hstable := (messages_restore_iff nullSerde 2 _ (echoThread (crossingText 999))
    (echoThread_built _).wellNumbered (by simp [echoThread_turns, Turn.new])).1 h
  simp only [echoThread_turns, forall_mem_singleton] at hstable
  exact not_truncationStable_crossingText 999 (hstable _ rfl)

end Axinite.Session
