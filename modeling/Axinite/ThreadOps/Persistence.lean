import Axinite.ThreadOps.World

/-!
# Persistence of turns

The user message of a turn is stored when the turn starts.  When it ends, a summary
of its tool calls and the response are stored behind it.

Main results:

- Theorem `persistToolCalls_run`: the rows that persisting tool calls adds.
-/

namespace Axinite.ThreadOps

open Json Session Preview

/-- A value as text, cut to a byte limit. -/
def valueToPreview (serde : SerdeJson) (v : Value) (limit : Nat) : String :=
  match v with
  | .string s => truncatePreview s limit
  | other => truncatePreview (serde.toString other) limit

/-- Fields of the summary of the call in slot `i` of a turn. -/
def summaryFields (serde : SerdeJson) (turnNumber i : Nat) (tc : TurnToolCall) :
    List (String × Value) :=
  let obj := Map.insert "parameters" tc.parameters
    (Map.insert "call_id"
      (.string ("turn" ++ toString turnNumber ++ "_" ++ toString i))
      (Map.insert "name" (.string tc.name) []))
  let obj :=
    match tc.result with
    | some result =>
      Map.insert "result" result
        (Map.insert "result_preview" (.string (valueToPreview serde result 500)) obj)
    | none => obj
  match tc.error with
  | some error => Map.insert "error" (.string error) obj
  | none => obj

/-- Summarize a tool call into a JSON object. -/
def summarizeToolCall (serde : SerdeJson) (turnNumber i : Nat) (tc : TurnToolCall) : Value :=
  .object (summaryFields serde turnNumber i tc)

/-- Content of the row for the tool calls of a turn. -/
def toolCallsContent (serde : SerdeJson) (turnNumber : Nat) (toolCalls : List TurnToolCall) :
    String :=
  serde.toString (.array (toolCalls.mapIdx fun i tc => summarizeToolCall serde turnNumber i tc))

/-- Persist the message of the user at the start of a turn. -/
def persistUserMessage (userInput : String) : Handler Unit :=
  perform (.persist { role := .user, content := userInput })

/-- Persist the response at the end of a turn. -/
def persistAssistantResponse (response : String) : Handler Unit :=
  perform (.persist { role := .assistant, content := response })

/-- Persist the tool calls of a turn, if there are any. -/
def persistToolCalls (serde : SerdeJson) (turnNumber : Nat) (toolCalls : List TurnToolCall) :
    Handler Unit :=
  if toolCalls.isEmpty then pure ()
  else
    perform (.persist
      { role := .toolCalls, content := toolCallsContent serde turnNumber toolCalls })

/-- The rows that persisting the tool calls of a turn adds. -/
def toolCallsRows (serde : SerdeJson) (turnNumber : Nat) (toolCalls : List TurnToolCall) :
    List ConversationMessage :=
  if toolCalls.isEmpty then []
  else [{ role := .toolCalls, content := toolCallsContent serde turnNumber toolCalls }]

theorem persistToolCalls_run (serde : SerdeJson) (turnNumber : Nat)
    (toolCalls : List TurnToolCall) (w : World) :
    let done := runHandler serde (persistToolCalls serde turnNumber toolCalls) w
    done.2.thread = w.thread ∧ done.2.rows = w.rows ++ toolCallsRows serde turnNumber toolCalls := by
  intro done
  by_cases hempty : toolCalls.isEmpty = true
  · simp [done, persistToolCalls, toolCallsRows, hempty]
  · simp only [done, persistToolCalls, toolCallsRows, if_neg hempty]
    exact ⟨rfl, rfl⟩

end Axinite.ThreadOps
