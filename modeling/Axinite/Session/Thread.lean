import Axinite.Session.Turn
import Axinite.Preview

/-!
# Threads

A thread is a list of turns with a state, an optional pending approval and an
optional pending authentication.  Every operation that reads the clock takes the
current time as a parameter.

Main results:

- Theorem `messages_eq_flatMap`: the message list of a thread is the
  concatenation of the message lists of its turns.
- Theorem `startTurn_wellNumbered`, `truncateTurns_wellNumbered`: turns are numbered by position.
-/

namespace Axinite.Session

open Json Llm Preview List

inductive ThreadState where
  | idle
  | processing
  | awaitingApproval
  | completed
  | interrupted
  deriving DecidableEq, Repr

/-- Pending request for an authentication token. -/
structure PendingAuth where
  extensionName : String
  deriving DecidableEq, Repr

/-- Pending tool approval stored on a thread. -/
structure PendingApproval where
  requestId : Uuid
  toolName : String
  parameters : Value
  displayParameters : Value
  description : String
  toolCallId : String
  contextMessages : List ChatMessage
  deferredToolCalls : List ToolCall
  userTimezone : Option String
  deriving DecidableEq, Repr

/-- A conversation thread of a session. -/
structure Thread where
  id : Uuid
  sessionId : Uuid
  state : ThreadState
  turns : List Turn
  createdAt : Timestamp
  updatedAt : Timestamp
  pendingApproval : Option PendingApproval
  pendingAuth : Option PendingAuth
  inFlightAuth : Bool
  deriving DecidableEq, Repr

/-- The user message of a turn, with its images when there are any. -/
def turnUserMessage (turn : Turn) : ChatMessage :=
  if turn.imageContentParts.isEmpty then .user turn.userInput
  else .userWithParts turn.userInput turn.imageContentParts

/-- Synthetic identifier of the tool call in slot `index` of a turn. -/
def turnCallId (turn : Turn) (index : Nat) : String :=
  "turn" ++ toString turn.turnNumber ++ "_" ++ toString index

/-- The text of a result before it is cut. -/
def rawResult (serde : SerdeJson) : Value → String
  | .string s => s
  | other => serde.toString other

/-- The outcome of a recorded tool call as the model sees it. -/
def toolResultContent (serde : SerdeJson) (tc : TurnToolCall) : String :=
  match tc.error, tc.result with
  | some err, _ => truncatePreview err 1000
  | none, some res => truncatePreview (rawResult serde res) 1000
  | none, none => "OK"

/-- Append the assistant message that declares the calls of a turn and one result
message for each of them. -/
def appendToolCallMessages (serde : SerdeJson) (messages : List ChatMessage) (turn : Turn) :
    List ChatMessage :=
  if turn.toolCalls.isEmpty then messages
  else
    let toolCalls := turn.toolCalls.mapIdx fun i tc =>
      { id := turnCallId turn i, name := tc.name, arguments := tc.parameters : ToolCall }
    messages ++ [.assistantWithToolCalls none toolCalls] ++
      turn.toolCalls.mapIdx fun i tc =>
        .toolResult (turnCallId turn i) tc.name (toolResultContent serde tc)

/-- Append the messages of one turn: its input, its tool calls and its response. -/
def appendTurnMessages (serde : SerdeJson) (messages : List ChatMessage) (turn : Turn) :
    List ChatMessage :=
  let messages := appendToolCallMessages serde (messages ++ [turnUserMessage turn]) turn
  match turn.response with
  | some response => messages ++ [.assistant response]
  | none => messages

namespace Thread

/-- A thread with no turns. -/
def init (now : Timestamp) (sessionId threadId : Uuid) : Thread where
  id := threadId
  sessionId := sessionId
  state := .idle
  turns := []
  createdAt := now
  updatedAt := now
  pendingApproval := none
  pendingAuth := none
  inFlightAuth := false

/-- The current turn number, counted from one. -/
def turnNumber (thread : Thread) : Nat :=
  thread.turns.length + 1

def lastTurn (thread : Thread) : Option Turn :=
  thread.turns.getLast?

/-- Change the last turn, if there is one. -/
def modifyLastTurn (f : Turn → Turn) (thread : Thread) : Thread :=
  { thread with turns := thread.turns.modifyLast f }

/-- Start a new turn with the input of the user. -/
def startTurn (now : Timestamp) (userInput : String) (thread : Thread) : Thread :=
  { thread with
    turns := thread.turns ++ [Turn.new now thread.turns.length userInput]
    state := .processing
    updatedAt := now }

/-- Complete the current turn with a response. -/
def completeTurn (now : Timestamp) (response : String) (thread : Thread) : Thread :=
  { thread.modifyLastTurn (Turn.complete now response) with
    state := .idle
    updatedAt := now }

/-- Fail the current turn with an error. -/
def failTurn (now : Timestamp) (error : String) (thread : Thread) : Thread :=
  { thread.modifyLastTurn (Turn.fail now error) with
    state := .idle
    updatedAt := now }

/-- Wait for the approval of a tool call. -/
def awaitApproval (now : Timestamp) (pending : PendingApproval) (thread : Thread) : Thread :=
  { thread with
    state := .awaitingApproval
    pendingApproval := some pending
    updatedAt := now }

/-- Take the pending approval out of the thread. -/
def takePendingApproval (thread : Thread) : Option PendingApproval × Thread :=
  (thread.pendingApproval, { thread with pendingApproval := none })

/-- Drop the pending approval and return to the idle state. -/
def clearPendingApproval (now : Timestamp) (thread : Thread) : Thread :=
  { thread with
    pendingApproval := none
    state := .idle
    updatedAt := now }

/-- Enter auth mode: the next user message goes to the credential store. -/
def enterAuthMode (now : Timestamp) (extensionName : String) (thread : Thread) : Thread :=
  { thread with
    pendingAuth := some { extensionName := extensionName }
    updatedAt := now }

/-- Take the pending authentication out of the thread. -/
def takePendingAuth (thread : Thread) : Option PendingAuth × Thread :=
  (thread.pendingAuth, { thread with pendingAuth := none })

/-- Interrupt the current turn. -/
def interrupt (now : Timestamp) (thread : Thread) : Thread :=
  { thread.modifyLastTurn (Turn.interrupt now) with
    state := .interrupted
    updatedAt := now }

/-- Resume after an interruption. -/
def resume (now : Timestamp) (thread : Thread) : Thread :=
  if thread.state = .interrupted then { thread with state := .idle, updatedAt := now }
  else thread

/-- All messages for context building, tool call history included. -/
def messages (serde : SerdeJson) (thread : Thread) : List ChatMessage :=
  thread.turns.foldl (appendTurnMessages serde) []

/-- Number turns by their position, starting at `n`. -/
def renumber : Nat → List Turn → List Turn
  | _, [] => []
  | n, turn :: turns => { turn with turnNumber := n } :: renumber (n + 1) turns

/-- Keep the most recent turns and number them again. -/
def truncateTurns (keep : Nat) (thread : Thread) : Thread :=
  if thread.turns.length > keep then
    { thread with turns := renumber 0 (thread.turns.drop (thread.turns.length - keep)) }
  else thread

end Thread

/-- Change the tool calls of the last turn. -/
def modifyLastCalls (f : List TurnToolCall → List TurnToolCall) (turns : List Turn) :
    List Turn :=
  turns.modifyLast fun turn => { turn with toolCalls := f turn.toolCalls }

theorem modifyLast_modifyLast {α : Type} (f g : α → α) (xs : List α) :
    (xs.modifyLast f).modifyLast g = xs.modifyLast fun x => g (f x) := by
  rcases eq_nil_or_concat xs with rfl | ⟨init, last, rfl⟩
  · rfl
  · simp [modifyLast_concat]

theorem getLast?_modifyLast {α : Type} (f : α → α) (xs : List α) :
    (xs.modifyLast f).getLast? = xs.getLast?.map f := by
  rcases eq_nil_or_concat xs with rfl | ⟨init, last, rfl⟩
  · rfl
  · simp [modifyLast_concat]

@[simp]
theorem modifyLastCalls_concat (f : List TurnToolCall → List TurnToolCall) (turns : List Turn)
    (turn : Turn) :
    modifyLastCalls f (turns ++ [turn]) = turns ++ [{ turn with toolCalls := f turn.toolCalls }] := by
  simp [modifyLastCalls, modifyLast_concat]

theorem modifyLastCalls_id (turns : List Turn) : modifyLastCalls (fun calls => calls) turns = turns := by
  rcases eq_nil_or_concat turns with rfl | ⟨init, last, rfl⟩
  · rfl
  · rw [concat_eq_append, modifyLastCalls_concat]

theorem modifyLastCalls_modifyLastCalls (f g : List TurnToolCall → List TurnToolCall)
    (turns : List Turn) :
    modifyLastCalls g (modifyLastCalls f turns) = modifyLastCalls (fun calls => g (f calls)) turns := by
  simp [modifyLastCalls, modifyLast_modifyLast]

/-! ## The messages of a turn -/

/-- The messages of the tool calls of one turn. -/
def roundMessages (serde : SerdeJson) (turn : Turn) : List ChatMessage :=
  appendToolCallMessages serde [] turn

def turnMessages (serde : SerdeJson) (turn : Turn) : List ChatMessage :=
  turnUserMessage turn :: roundMessages serde turn ++
    turn.response.toList.map ChatMessage.assistant

theorem appendToolCallMessages_eq (serde : SerdeJson) (messages : List ChatMessage) (turn : Turn) :
    appendToolCallMessages serde messages turn = messages ++ roundMessages serde turn := by
  unfold roundMessages appendToolCallMessages
  split
  · simp
  · simp

theorem appendTurnMessages_eq (serde : SerdeJson) (messages : List ChatMessage) (turn : Turn) :
    appendTurnMessages serde messages turn = messages ++ turnMessages serde turn := by
  unfold appendTurnMessages turnMessages
  cases turn.response with
  | none | some _ => simp [appendToolCallMessages_eq]

/-- The messages of a thread are those of its turns, in order. -/
theorem Thread.messages_eq_flatMap (serde : SerdeJson) (thread : Thread) :
    thread.messages serde = thread.turns.flatMap (turnMessages serde) := by
  have hfold : ∀ (turns : List Turn) (acc : List ChatMessage),
      turns.foldl (appendTurnMessages serde) acc = acc ++ turns.flatMap (turnMessages serde) := by
    intro turns
    induction turns with
    | nil => simp
    | cons turn turns ih =>
      intro acc
      rw [foldl_cons, ih, appendTurnMessages_eq, flatMap_cons, append_assoc]
  simpa [messages] using hfold thread.turns []

/-! ## Numbering of turns -/

/-- The turns are numbered by position, starting at `n`. -/
def NumberedFrom : Nat → List Turn → Prop
  | _, [] => True
  | n, turn :: turns => turn.turnNumber = n ∧ NumberedFrom (n + 1) turns

instance : ∀ n turns, Decidable (NumberedFrom n turns)
  | _, [] => .isTrue trivial
  | n, turn :: turns =>
    have := instDecidableNumberedFrom (n + 1) turns
    inferInstanceAs (Decidable (turn.turnNumber = n ∧ NumberedFrom (n + 1) turns))

/-- The turns of the thread are numbered by position. -/
def Thread.WellNumbered (thread : Thread) : Prop :=
  NumberedFrom 0 thread.turns

theorem numberedFrom_append {n : Nat} {turns : List Turn} {turn : Turn} :
    NumberedFrom n (turns ++ [turn]) ↔
      NumberedFrom n turns ∧ turn.turnNumber = n + turns.length := by
  induction turns generalizing n with
  | nil => simp [NumberedFrom]
  | cons first rest ih =>
    simp only [cons_append, NumberedFrom, ih, length_cons, and_assoc]
    rw [Nat.add_assoc, Nat.add_comm 1 rest.length]

theorem renumber_numberedFrom (n : Nat) (turns : List Turn) :
    NumberedFrom n (Thread.renumber n turns) := by
  induction turns generalizing n with
  | nil => exact trivial
  | cons turn turns ih => exact ⟨rfl, ih (n + 1)⟩

namespace Thread

variable {thread : Thread}

theorem startTurn_wellNumbered (h : thread.WellNumbered) (now : Timestamp)
    (userInput : String) : (thread.startTurn now userInput).WellNumbered := by
  apply numberedFrom_append.2
  exact ⟨h, by simp [Turn.new]⟩

/-- Changing the last turn keeps the numbering if its number is kept. -/
theorem modifyLastTurn_wellNumbered (h : thread.WellNumbered)
    {f : Turn → Turn} (hf : ∀ turn, (f turn).turnNumber = turn.turnNumber) :
    (thread.modifyLastTurn f).WellNumbered := by
  unfold WellNumbered modifyLastTurn at *
  rcases eq_nil_or_concat thread.turns with hnil | ⟨turns, turn, hturns⟩
  · rw [hnil]
    exact trivial
  · rw [concat_eq_append] at hturns
    simp only [hturns, modifyLast_concat, numberedFrom_append] at h ⊢
    exact ⟨h.1, (hf turn).trans h.2⟩

theorem truncateTurns_wellNumbered (h : thread.WellNumbered) (keep : Nat) :
    (thread.truncateTurns keep).WellNumbered := by
  unfold truncateTurns
  split
  · exact renumber_numberedFrom 0 _
  · exact h

end Thread

end Axinite.Session
