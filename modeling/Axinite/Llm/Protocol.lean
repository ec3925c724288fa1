import Axinite.Llm.Messages
import Mathlib.Data.List.Induction

/-!
# The tool protocol of a message list

A provider accepts a tool message only if an earlier assistant message of the same list
declares its call.

Main results:

- Theorem `toolProtocol_concat`: the protocol of a list with one more message.
- Theorem `toolProtocol_append_toolResults`: when results may be appended to a list.
-/

namespace Axinite.Llm

open List

/-- Identifiers of the calls that a message declares. -/
def ChatMessage.declaredCalls (message : ChatMessage) : List String :=
  if message.role = .assistant then (message.toolCalls.getD []).map ToolCall.id else []

/-- Identifiers of the calls that the assistant messages of a list declare. -/
def declaredIds (messages : List ChatMessage) : List String :=
  messages.flatMap ChatMessage.declaredCalls

/-- Every tool message answers a call that an earlier assistant message declares. -/
def ToolProtocol (messages : List ChatMessage) : Prop :=
  ∀ before message after, messages = before ++ message :: after → message.role = .tool →
    ∃ id, message.toolCallId = some id ∧ id ∈ declaredIds before

@[simp]
theorem declaredIds_append (xs ys : List ChatMessage) :
    declaredIds (xs ++ ys) = declaredIds xs ++ declaredIds ys :=
  flatMap_append

@[simp]
theorem declaredIds_singleton (message : ChatMessage) :
    declaredIds [message] = message.declaredCalls :=
  flatMap_singleton _ _

@[simp]
theorem declaredCalls_assistantWithToolCalls (content : Option String) (toolCalls : List ToolCall) :
    (ChatMessage.assistantWithToolCalls content toolCalls).declaredCalls =
      toolCalls.map ToolCall.id := by
  cases toolCalls <;> rfl

theorem toolProtocol_nil : ToolProtocol [] := by
  intro before message after h
  simp at h

/-- One more message has to answer a call declared before it. -/
theorem toolProtocol_concat (messages : List ChatMessage) (last : ChatMessage) :
    ToolProtocol (messages ++ [last]) ↔ ToolProtocol messages ∧
        (last.role = .tool → ∃ id, last.toolCallId = some id ∧ id ∈ declaredIds messages) := by
  constructor
  · intro h
    refine ⟨?_, h _ last [] rfl⟩
    intro before message after heq
    refine h _ _ (after ++ [last]) ?_
    simp [heq]
  · intro h before message after heq
    rcases eq_nil_or_concat after with rfl | ⟨init, z, rfl⟩
    · rcases append_inj' heq rfl with ⟨rfl, hlast⟩
      obtain rfl : last = message := by simpa using hlast
      exact h.2
    · rw [concat_eq_append, ← cons_append, ← append_assoc] at heq
      rcases append_inj' heq rfl with ⟨rfl, _⟩
      exact h.1 _ _ init rfl

/-- Tool results appended to a list have to answer calls that the list declares. -/
theorem toolProtocol_append_toolResults {α : Type} (f : α → ChatMessage) (callId : α → String)
    (hf : ∀ a, (f a).role = .tool ∧ (f a).toolCallId = some (callId a))
    (messages : List ChatMessage) (results : List α) :
    ToolProtocol (messages ++ results.map f) ↔
      ToolProtocol messages ∧ ∀ a ∈ results, callId a ∈ declaredIds messages := by
  have hdeclared : ∀ as : List α, declaredIds (messages ++ as.map f) = declaredIds messages := by
    intro as
    have hnone : declaredIds (as.map f) = [] := by
      simp [declaredIds, ChatMessage.declaredCalls, (hf _).1]
    rw [declaredIds_append, hnone, append_nil]
  induction results using List.reverseRecOn with
  | nil => simp
  | append_singleton results a ih =>
    have hinit : ToolProtocol (messages ++ results.map f) ↔
        ToolProtocol messages ∧ ∀ a ∈ results, callId a ∈ declaredIds messages := ih
    rw [map_append, ← append_assoc, map_singleton, toolProtocol_concat, hinit, hdeclared]
    simp only [mem_append, mem_singleton, (hf a).1, (hf a).2, forall_const,
      Option.some.injEq, exists_eq_left']
    constructor
    · intro h
      refine ⟨h.1.1, fun b hb => ?_⟩
      rcases hb with hb | rfl
      · exact h.1.2 b hb
      · exact h.2
    · intro h
      exact ⟨⟨h.1, fun b hb => h.2 b (.inl hb)⟩, h.2 a (.inr rfl)⟩

end Axinite.Llm
