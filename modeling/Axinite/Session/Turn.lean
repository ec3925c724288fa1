import Axinite.Llm.Messages
import Axinite.Foundation.Utf8
import Mathlib.Data.List.ModifyLast

/-!
# Turns

A turn is one request of the user with the tool calls made for it and its
response.  The recorders come in two forms: the indexed ones write a given slot of
`toolCalls`, the others write the slot that was appended last.
-/

namespace Axinite

/-- A point in time, in ticks of the clock. -/
abbrev Timestamp := Nat

/-- An identifier. -/
abbrev Uuid := Nat

namespace Session

open Json Llm

/-- Errors of indexed tool-call mutations. -/
inductive ToolCallIndexError where
  | outOfBounds (idx len : Nat)
  deriving DecidableEq, Repr

inductive TurnState where
  | processing
  | completed
  | failed
  | interrupted
  deriving DecidableEq, Repr

/-- Record of a tool call made during a turn. -/
structure TurnToolCall where
  name : String
  parameters : Value
  result : Option Value
  error : Option String
  deriving DecidableEq, Repr

/-- A single request/response pair of a thread. -/
structure Turn where
  turnNumber : Nat
  userInput : String
  response : Option String
  toolCalls : List TurnToolCall
  state : TurnState
  startedAt : Timestamp
  completedAt : Option Timestamp
  error : Option String
  imageContentParts : List ContentPart
  deriving DecidableEq, Repr

namespace Turn

/-- A new turn, started at `now`. -/
def new (now : Timestamp) (turnNumber : Nat) (userInput : String) : Turn where
  turnNumber := turnNumber
  userInput := userInput
  response := none
  toolCalls := []
  state := .processing
  startedAt := now
  completedAt := none
  error := none
  imageContentParts := []

/-- Write the outcome of the tool call in slot `idx`. -/
def setToolOutcomeAt (turn : Turn) (idx : Nat) (result : Option Value)
    (error : Option String) : Except ToolCallIndexError Turn :=
  match turn.toolCalls[idx]? with
  | none => .error (.outOfBounds idx turn.toolCalls.length)
  | some call =>
    .ok { turn with
      toolCalls := turn.toolCalls.set idx { call with result := result, error := error } }

def complete (now : Timestamp) (response : String) (turn : Turn) : Turn :=
  { turn with
    response := some response
    state := .completed
    completedAt := some now
    imageContentParts := [] }

def fail (now : Timestamp) (error : String) (turn : Turn) : Turn :=
  { turn with
    error := some error
    state := .failed
    completedAt := some now
    imageContentParts := [] }

def interrupt (now : Timestamp) (turn : Turn) : Turn :=
  { turn with
    state := .interrupted
    completedAt := some now
    imageContentParts := [] }

/-- Append a tool call that has no outcome yet. -/
def recordToolCall (name : String) (params : Value) (turn : Turn) : Turn :=
  { turn with
    toolCalls := turn.toolCalls ++
      [{ name := name, parameters := params, result := none, error := none }] }

/-- Record a result on the last tool call. -/
def recordToolResult (result : Value) (turn : Turn) : Turn :=
  { turn with
    toolCalls := turn.toolCalls.modifyLast fun call => { call with result := some result } }

/-- Record an error on the last tool call. -/
def recordToolError (error : String) (turn : Turn) : Turn :=
  { turn with
    toolCalls := turn.toolCalls.modifyLast fun call => { call with error := some error } }

/-- Record a result on the tool call in slot `idx`. -/
def recordToolResultAt (turn : Turn) (idx : Nat) (result : Value) :
    Except ToolCallIndexError Turn :=
  turn.setToolOutcomeAt idx (some result) none

/-- Record an error on the tool call in slot `idx`. -/
def recordToolErrorAt (turn : Turn) (idx : Nat) (error : String) :
    Except ToolCallIndexError Turn :=
  turn.setToolOutcomeAt idx none (some error)

/-- Parse an output that looks like a JSON object or array; keep the text otherwise. -/
def parseToolResult (serde : SerdeJson) (resultContent : String) : Value :=
  match (Foundation.Utf8.trimStart resultContent.toList).head? with
  | some c =>
    -- the source compares the first byte with an opening brace or bracket
    if c = '\x7b' ∨ c = '[' then (serde.fromStr resultContent).getD (.string resultContent)
    else .string resultContent
  | none => .string resultContent

/-- Record an output on the last tool call. -/
def recordToolResultContent (serde : SerdeJson) (resultContent : String) (turn : Turn) : Turn :=
  turn.recordToolResult (parseToolResult serde resultContent)

/-- Record an output on the tool call in slot `idx`. -/
def recordToolResultContentAt (serde : SerdeJson) (turn : Turn) (idx : Nat)
    (resultContent : String) : Except ToolCallIndexError Turn :=
  turn.recordToolResultAt idx (parseToolResult serde resultContent)

/-! ## What the recorders change -/

end Turn
end Session
end Axinite
