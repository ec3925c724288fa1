import Axinite.Llm.Protocol
import Mathlib.Data.List.Forall2

/-!
# Repair of orphaned tool results

Before a request is sent, tool results whose call is not declared become messages of the user.
The declared calls are collected over the whole list, so a result that stands before the message
which declares its call is left as it is.

Main results:

- Theorem `sanitizeToolMessages_sanitizeToolMessages`: a repaired list is not changed again.
- Theorem `toolProtocol_sanitizeToolMessages_iff`: the lists whose repair keeps the tool protocol.
- Theorem `orphans_repaired_iff`: the lists whose repair is complete.
-/

namespace Axinite.Llm

open List

/-! ## The repair -/

namespace ChatMessage

def isOrphanedToolResult (message : ChatMessage) (knownIds : List String) : Bool :=
  message.toolCallId.all fun id => id ∉ knownIds

def rewriteAsUserMessage (message : ChatMessage) : ChatMessage :=
  { message with
    content := "[Tool `" ++ message.name.getD "unknown" ++ "` returned: " ++ message.content ++ "]"
    role := .user
    toolCallId := none
    name := none }

def repair (knownIds : List String) (message : ChatMessage) : ChatMessage :=
  if message.role = .tool ∧ message.isOrphanedToolResult knownIds then
    message.rewriteAsUserMessage
  else message

end ChatMessage

/-- Rewrite the tool results that no assistant message of the list declares. -/
def sanitizeToolMessages (messages : List ChatMessage) : List ChatMessage :=
  messages.map (ChatMessage.repair (declaredIds messages))

/-! ## What it does to a message -/

namespace ChatMessage

variable (knownIds : List String) (message : ChatMessage)

/-- Only messages that declare nothing are rewritten, and they declare nothing afterwards. -/
theorem declaredCalls_repair : (message.repair knownIds).declaredCalls = message.declaredCalls := by
  unfold repair
  split
  · next h => simp [declaredCalls, rewriteAsUserMessage, h.1]
  · rfl

/-- A tool result that is left answers a known call. -/
theorem repair_role_eq_tool_iff : (message.repair knownIds).role = .tool ↔
      message.role = .tool ∧ ∃ id, message.toolCallId = some id ∧ id ∈ knownIds := by
  unfold repair
  split
  · next h =>
    refine iff_of_false (by simp [rewriteAsUserMessage]) ?_
    rintro ⟨-, id, hid, hknown⟩
    simp [isOrphanedToolResult, hid, hknown] at h
  · next h =>
    refine ⟨fun htool => ⟨htool, ?_⟩, And.left⟩
    cases hid : message.toolCallId with
    | none => simp [htool, isOrphanedToolResult, hid] at h
    | some id => exact ⟨id, rfl, by simpa [htool, isOrphanedToolResult, hid] using h⟩

theorem repair_eq_self (h : (message.repair knownIds).role = .tool) :
    message.repair knownIds = message := by
  unfold repair at h ⊢
  split
  · next horphan =>
    rw [if_pos horphan] at h
    cases h
  · rfl

theorem repair_repair : (message.repair knownIds).repair knownIds = message.repair knownIds := by
  by_cases htool : (message.repair knownIds).role = .tool
  · rw [repair_eq_self _ _ htool]
    exact repair_eq_self _ _ htool
  · exact if_neg fun h => htool h.1

end ChatMessage

/-! ## What it does to a list -/

theorem declaredIds_sanitizeToolMessages (messages : List ChatMessage) :
    declaredIds (sanitizeToolMessages messages) = declaredIds messages := by
  unfold declaredIds sanitizeToolMessages
  rw [flatMap_map]
  congr 1
  ext1 message
  exact message.declaredCalls_repair _

/-- A repaired list is not changed again. -/
theorem sanitizeToolMessages_sanitizeToolMessages (messages : List ChatMessage) :
    sanitizeToolMessages (sanitizeToolMessages messages) = sanitizeToolMessages messages := by
  rw [sanitizeToolMessages, declaredIds_sanitizeToolMessages, sanitizeToolMessages, map_map]
  exact map_congr_left fun message _ => message.repair_repair _

/-- A tool result whose call is declared in the list comes after such a declaration. -/
def ResultsFollowCalls (messages : List ChatMessage) : Prop :=
  ∀ before message after, messages = before ++ message :: after → message.role = .tool →
    ∀ id, message.toolCallId = some id → id ∈ declaredIds messages → id ∈ declaredIds before

theorem toolProtocol_sanitizeToolMessages_iff (messages : List ChatMessage) :
    ToolProtocol (sanitizeToolMessages messages) ↔ ResultsFollowCalls messages := by
  have hdeclared : ∀ before : List ChatMessage,
      declaredIds (before.map (ChatMessage.repair (declaredIds messages))) =
        declaredIds before := by
    simp [declaredIds, flatMap_map, ChatMessage.declaredCalls_repair]
  constructor
  · intro h before message after hsplit htool id hid hknown
    have hleft : (message.repair (declaredIds messages)).role = .tool :=
      (message.repair_role_eq_tool_iff _).2 ⟨htool, id, hid, hknown⟩
    have hrepaired : sanitizeToolMessages messages =
        before.map (ChatMessage.repair (declaredIds messages)) ++
          message.repair (declaredIds messages) ::
            after.map (ChatMessage.repair (declaredIds messages)) := by
      conv_lhs => rw [sanitizeToolMessages, hsplit, map_append, map_cons, ← hsplit]
    obtain ⟨id', hid', hbefore⟩ := h _ _ _ hrepaired hleft
    rw [message.repair_eq_self _ hleft, hid, Option.some.injEq] at hid'
    rwa [hid', ← hdeclared]
  · intro h before repaired after hsplit htool
    obtain ⟨before, rest, hmessages, rfl, hrest⟩ := map_eq_append_iff.1 hsplit
    obtain ⟨message, after, rfl, rfl, rfl⟩ := map_eq_cons_iff.1 hrest
    obtain ⟨hrole, id, hid, hknown⟩ := (message.repair_role_eq_tool_iff _).1 htool
    refine ⟨id, ?_, ?_⟩
    · rw [message.repair_eq_self _ htool, hid]
    · rw [hdeclared]
      exact h _ _ _ hmessages hrole id hid hknown

/-- A message is kept, or rewritten with its text inside. -/
def KeptOrRewritten (message repaired : ChatMessage) : Prop :=
  repaired = message ∨
    message.role = .tool ∧ message.content.toList <:+: repaired.content.toList

/-- The repair is complete: what is left of the tool results follows the protocol, the messages
stand where they were with their texts, and nothing is left to repair. -/
structure OrphansRepaired (messages : List ChatMessage) : Prop where
  protocol : ToolProtocol (sanitizeToolMessages messages)
  kept : List.Forall₂ KeptOrRewritten messages (sanitizeToolMessages messages)
  stable : sanitizeToolMessages (sanitizeToolMessages messages) = sanitizeToolMessages messages

theorem ChatMessage.keptOrRewritten_repair (knownIds : List String) (message : ChatMessage) :
    KeptOrRewritten message (message.repair knownIds) := by
  unfold repair
  split
  · next h =>
    refine .inr ⟨h.1, ?_⟩
    simp only [rewriteAsUserMessage, String.toList_append]
    exact ⟨_, _, rfl⟩
  · exact .inl rfl

/-- The repair is complete exactly if no tool result stands before all declarations of its
call. -/
theorem orphans_repaired_iff (messages : List ChatMessage) :
    OrphansRepaired messages ↔ ResultsFollowCalls messages := by
  refine ⟨fun h => (toolProtocol_sanitizeToolMessages_iff _).1 h.protocol, fun h => ?_⟩
  refine ⟨(toolProtocol_sanitizeToolMessages_iff _).2 h, ?_,
    sanitizeToolMessages_sanitizeToolMessages _⟩
  rw [sanitizeToolMessages, forall₂_map_right_iff, forall₂_same]
  exact fun message _ => message.keptOrRewritten_repair _

/-- A result before its call. -/
def resultFirst : List ChatMessage :=
  [.toolResult "call_1" "echo" "ok", .assistantWithToolCalls none [⟨"call_1", "echo", .null⟩]]

theorem resultFirst_not_repaired :
    sanitizeToolMessages resultFirst = resultFirst ∧ ¬ OrphansRepaired resultFirst := by
  have hsame : sanitizeToolMessages resultFirst = resultFirst := by decide
  refine ⟨hsame, fun h => ?_⟩
  have hprotocol := h.protocol
  rw [hsame] at hprotocol
  obtain ⟨id, -, hid⟩ := hprotocol [] _ _ rfl rfl
  cases hid

end Axinite.Llm
