import Axinite.ThreadOps.Persistence

/-!
# Rebuilding messages from stored rows

A thread that is not in memory is read back from the rows stored for it.  Rows of user
and assistant messages become such messages again; a row of tool calls becomes the
message that declares the calls and one result message for each of them.

Main results:

- Theorem `rebuildChatMessagesFromDb_append`: rows are rebuilt one after the other.
- Theorem `handleToolCallsRow_stored`: what is rebuilt from a row that was stored for the
  tool calls of a turn.
-/

namespace Axinite.ThreadOps.MessageRebuild

open Json Llm Session Preview Foundation List

/-- A parsed tool call entry with its raw JSON. -/
structure ParsedCall where
  callId : String
  name : String
  arguments : Value
  rawEntry : Value

/-- What an entry says about the outcome of its call. -/
inductive ToolResultKind where
  | error (error : String)
  | result (result : String)
  | resultPreview (preview : String)
  | ok

/-- The text of a field, unless it is missing or blank. -/
def textField (key : String) (call : Value) : Option String :=
  ((call.get key).bind Value.asStr).filter fun s => !Utf8.isBlank s.toList

/-- Parse one entry; both its identifier and its name are needed. -/
def parseToolCallEntry (call : Value) : Option ParsedCall :=
  match textField "call_id" call, textField "name" call with
  | some callId, some name =>
    some {
      callId := callId
      name := name
      arguments := (call.get "parameters").getD (.object [])
      rawEntry := call }
  | _, _ => none

/-- Parsed entries and the indices of the malformed ones, from index `idx` on. -/
def collectEntries : Nat → List Value → List ParsedCall × List Nat
  | _, [] => ([], [])
  | idx, call :: rest =>
    let collected := collectEntries (idx + 1) rest
    match parseToolCallEntry call with
    | some parsed => (parsed :: collected.1, collected.2)
    | none => (collected.1, idx :: collected.2)

/-- Parse all entries of a row, or name the malformed ones. -/
def parseToolCallEntries (calls : List Value) : Except (List Nat) (List ParsedCall) :=
  let collected := collectEntries 0 calls
  if collected.2.isEmpty then .ok collected.1 else .error collected.2

/-- Parse the array of a row; an empty array is skipped. -/
def parseCallsJson (serde : SerdeJson) (content : String) : Option (List Value) :=
  ((serde.fromStr content).bind Value.asArray).filter fun calls => !calls.isEmpty

/-- The tool calls that parsed entries declare. -/
def buildToolCalls (parsedCalls : List ParsedCall) : List ToolCall :=
  parsedCalls.map fun pc => { id := pc.callId, name := pc.name, arguments := pc.arguments }

/-- Classify the outcome of an entry: an error counts first, then the result, then its
preview. -/
def classifyResultContent (entry : Value) : ToolResultKind :=
  match (entry.get "error").bind Value.asStr with
  | some error => .error error
  | none =>
    match (entry.get "result").bind Value.asStr with
    | some result => .result result
    | none =>
      match (entry.get "result_preview").bind Value.asStr with
      | some preview => .resultPreview preview
      | none => .ok

/-- The outcome of an entry as text. -/
def rawContent (entry : Value) : String :=
  match classifyResultContent entry with
  | .error error => "Error: " ++ error
  | .result result => result
  | .resultPreview preview => preview
  | .ok => "OK"

/-- The outcome of an entry for the model; `safety` cleans and wraps the text of a tool. -/
def toolResultContent (safety : String → String → String) (entry : Value) (toolName : String) :
    String :=
  safety toolName (rawContent entry)

/-- Append the messages of a row of tool calls.  A row with a malformed entry is skipped. -/
def handleToolCallsRow (serde : SerdeJson) (safety : String → String → String)
    (out : List ChatMessage) (content : String) : List ChatMessage :=
  match parseCallsJson serde content with
  | none => out
  | some calls =>
    match parseToolCallEntries calls with
    | .error _ => out
    | .ok parsedCalls =>
      out ++ .assistantWithToolCalls none (buildToolCalls parsedCalls) ::
        parsedCalls.map fun pc =>
          .toolResult pc.callId pc.name (toolResultContent safety pc.rawEntry pc.name)

/-- Append the messages of one row; rows of other roles are skipped. -/
def rebuildRow (serde : SerdeJson) (safety : String → String → String)
    (result : List ChatMessage) (msg : ConversationMessage) : List ChatMessage :=
  match msg.role with
  | .user => result ++ [.user msg.content]
  | .assistant => result ++ [.assistant msg.content]
  | .toolCalls => handleToolCallsRow serde safety result msg.content
  | .other _ => result

/-- Rebuild the messages of a thread from its rows. -/
def rebuildChatMessagesFromDb (serde : SerdeJson) (safety : String → String → String)
    (dbMessages : List ConversationMessage) : List ChatMessage :=
  dbMessages.foldl (rebuildRow serde safety) []

/-! ## Rows one after the other -/

section Rows

variable (serde : SerdeJson) (safety : String → String → String)

theorem handleToolCallsRow_eq (out : List ChatMessage) (content : String) :
    handleToolCallsRow serde safety out content =
      out ++ handleToolCallsRow serde safety [] content := by
  unfold handleToolCallsRow
  split
  · simp
  · split
    · simp
    · simp

theorem rebuildRow_eq (result : List ChatMessage) (msg : ConversationMessage) :
    rebuildRow serde safety result msg = result ++ rebuildRow serde safety [] msg := by
  unfold rebuildRow
  split
  · simp
  · simp
  · exact handleToolCallsRow_eq serde safety result msg.content
  · simp

theorem rebuildChatMessagesFromDb_eq_flatMap (rows : List ConversationMessage) :
    rebuildChatMessagesFromDb serde safety rows = rows.flatMap (rebuildRow serde safety []) := by
  have hfold : ∀ (rows : List ConversationMessage) (acc : List ChatMessage),
      rows.foldl (rebuildRow serde safety) acc = acc ++ rows.flatMap (rebuildRow serde safety []) := by
    intro rows
    induction rows with
    | nil => simp
    | cons row rows ih =>
      intro acc
      rw [foldl_cons, ih, rebuildRow_eq, flatMap_cons, append_assoc]
  simpa [rebuildChatMessagesFromDb] using hfold rows []

/-- Rows are rebuilt one after the other. -/
theorem rebuildChatMessagesFromDb_append (rows more : List ConversationMessage) :
    rebuildChatMessagesFromDb serde safety (rows ++ more) =
      rebuildChatMessagesFromDb serde safety rows ++
        rebuildChatMessagesFromDb serde safety more := by
  simp [rebuildChatMessagesFromDb_eq_flatMap]

end Rows

/-! ## Rows stored for the tool calls of a turn -/

section Stored

variable (serde : SerdeJson) (turnNumber i : Nat) (tc : TurnToolCall)

/-- The fields of a stored call. -/
theorem get_summary : let entry := summarizeToolCall serde turnNumber i tc
    entry.get "call_id" = some (.string ("turn" ++ toString turnNumber ++ "_" ++ toString i)) ∧
      entry.get "name" = some (.string tc.name) ∧ entry.get "parameters" = some tc.parameters ∧
      entry.get "error" = tc.error.map Value.string ∧ entry.get "result" = tc.result ∧
      entry.get "result_preview" =
        tc.result.map fun result => .string (valueToPreview serde result 500) := by
  simp only [summarizeToolCall, summaryFields]
  cases tc.result <;> cases tc.error <;> simp [Map.get_insert_of_ne, Map.get]

/-- The outcome of a recorded call as it comes back from the database: an error with its
label, a text in full, anything else as its preview. -/
def storedContent : String :=
  match tc.error, tc.result with
  | some error, _ => "Error: " ++ error
  | none, some (.string s) => s
  | none, some result => truncatePreview (serde.toString result) 500
  | none, none => "OK"

theorem rawContent_summary :
    rawContent (summarizeToolCall serde turnNumber i tc) = storedContent serde tc := by
  obtain ⟨-, -, -, herror, hresult, hpreview⟩ := get_summary serde turnNumber i tc
  unfold rawContent classifyResultContent storedContent
  rw [herror, hresult, hpreview]
  cases tc.error with
  | some error => rfl
  | none =>
    cases tc.result with
    | none => rfl
    | some result => cases result <;> rfl

/-- A row can be read back if the names of all its calls are not blank. -/
def Named (calls : List TurnToolCall) : Prop :=
  ∀ tc ∈ calls, Utf8.isBlank tc.name.toList = false
  deriving Decidable

theorem textField_eq {key text : String} {call : Value} (h : call.get key = some (.string text)) :
    textField key call = if Utf8.isBlank text.toList then none else some text := by
  rw [textField, h]
  by_cases hblank : Utf8.isBlank text.toList = true
  · simp [hblank]
  · simp [hblank]

theorem isBlank_callId :
    Utf8.isBlank ("turn" ++ toString turnNumber ++ "_" ++ toString i).toList = false := by
  rw [String.append_assoc, String.append_assoc, String.toList_append]
  rfl

theorem parseToolCallEntry_summary : parseToolCallEntry (summarizeToolCall serde turnNumber i tc) =
      if Utf8.isBlank tc.name.toList then none
      else some {
        callId := "turn" ++ toString turnNumber ++ "_" ++ toString i
        name := tc.name
        arguments := tc.parameters
        rawEntry := summarizeToolCall serde turnNumber i tc } := by
  obtain ⟨hid, hstored, hparameters, -⟩ := get_summary serde turnNumber i tc
  rw [parseToolCallEntry, textField_eq hid, textField_eq hstored, isBlank_callId, hparameters]
  by_cases hname : Utf8.isBlank tc.name.toList = true
  · rw [if_pos hname, if_pos hname]
    rfl
  · rw [if_neg hname, if_neg hname]
    rfl

end Stored

/-- Entries that are read back one by one are collected, unless one of them has no name. -/
theorem collectEntries_mapIdx {entry : Nat → TurnToolCall → Value}
    {parsed : Nat → TurnToolCall → ParsedCall}
    (h : ∀ i tc, parseToolCallEntry (entry i tc) =
      if Utf8.isBlank tc.name.toList then none else some (parsed i tc))
    (idx : Nat) (calls : List TurnToolCall) :
    if Named calls then collectEntries idx (calls.mapIdx entry) = (calls.mapIdx parsed, [])
    else (collectEntries idx (calls.mapIdx entry)).2 ≠ [] := by
  induction calls generalizing idx entry parsed with
  | nil => rfl
  | cons tc rest ih =>
    have hrest := ih (fun i tc => h (i + 1) tc) (idx + 1)
    rw [mapIdx_cons, collectEntries, h 0 tc, mapIdx_cons]
    by_cases hname : Utf8.isBlank tc.name.toList = true
    · rw [if_pos hname, if_neg fun hnamed => by simp [hnamed tc mem_cons_self] at hname]
      exact cons_ne_nil _ _
    · have hnamed : Named (tc :: rest) ↔ Named rest := by simp [Named, hname]
      rw [if_neg hname]
      simp only [hnamed]
      split at hrest <;> rename_i hif
      · rw [if_pos hif, hrest]
      · rwa [if_neg hif]

/-- The calls of a turn with their outcomes as they come back from the database. -/
def storedOutcomes (serde : SerdeJson) (safety : String → String → String) (turnNumber : Nat)
    (calls : List TurnToolCall) : List (ToolCall × String) :=
  calls.mapIdx fun i tc =>
    ({ id := "turn" ++ toString turnNumber ++ "_" ++ toString i
       name := tc.name
       arguments := tc.parameters },
      safety tc.name (storedContent serde tc))

/-- The row of a turn with tool calls reads back as the array that was printed. -/
def RowReadsBack (serde : SerdeJson) (turnNumber : Nat) (calls : List TurnToolCall) : Prop :=
  calls ≠ [] → serde.fromStr (toolCallsContent serde turnNumber calls) =
    some (.array (calls.mapIdx fun i tc => summarizeToolCall serde turnNumber i tc))

instance (serde : SerdeJson) (turnNumber : Nat) (calls : List TurnToolCall) :
    Decidable (RowReadsBack serde turnNumber calls) :=
  inferInstanceAs (Decidable (_ → _ = _))

/-- What is rebuilt from the row of a turn: all its calls, or nothing if one has no name. -/
theorem handleToolCallsRow_stored {serde : SerdeJson} (safety : String → String → String)
    {turnNumber : Nat} {calls : List TurnToolCall} (hne : calls ≠ [])
    (hread : RowReadsBack serde turnNumber calls) :
    handleToolCallsRow serde safety [] (toolCallsContent serde turnNumber calls) =
      if Named calls then
        let outcomes := storedOutcomes serde safety turnNumber calls
        .assistantWithToolCalls none (outcomes.map Prod.fst) ::
          outcomes.map fun outcome => .toolResult outcome.1.id outcome.1.name outcome.2
      else [] := by
  have hcalls : parseCallsJson serde (toolCallsContent serde turnNumber calls) =
      some (calls.mapIdx (summarizeToolCall serde turnNumber)) := by
    rw [parseCallsJson, hread hne]
    simp [Value.asArray, hne]
  have hentry := (parseToolCallEntry_summary serde turnNumber)
  simp only [handleToolCallsRow, hcalls, parseToolCallEntries]
  have hcollected := collectEntries_mapIdx hentry 0 calls
  split at hcollected <;> rename_i hnamed
  · rw [if_pos hnamed, hcollected]
    simp [buildToolCalls, storedOutcomes,
      map_mapIdx, toolResultContent, rawContent_summary]
  · rw [if_neg hnamed, if_neg (by simpa using hcollected)]

end Axinite.ThreadOps.MessageRebuild
