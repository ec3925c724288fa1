import Axinite.Session.Restore
import Axinite.Llm.Protocol
import Mathlib.Data.List.Nodup

/-!
# The ids of the calls of a thread

The calls of a thread get their ids when its messages are built, from the number of the turn and
the slot of the call.  The ids tell the calls apart because the turns are numbered by position.

Main results:

- Theorem `turnCallId_inj`: the format of the ids can be read back.
- Theorem `toolProtocol_messages`: the messages of a thread keep the tool protocol.
- Theorem `calls_told_apart`: the ids in the messages of a thread are distinct, and every result
  follows the message that declares its call.
-/

namespace Axinite.Session

open Json Llm List

/-! ## Ids -/

def callIds (turn : Turn) : List String :=
  turn.toolCalls.mapIdx fun i _ => turnCallId turn i

theorem turnCallId_inj {turn other : Turn} {i j : Nat}
    (h : turnCallId turn i = turnCallId other j) : turn.turnNumber = other.turnNumber ∧ i = j := by
  have hlist := congrArg String.toList h
  simp only [turnCallId, Nat.toString_eq_repr, String.toList_append, Nat.toList_repr,
    append_assoc, append_cancel_left_eq] at hlist
  -- the first underscore ends the number of the turn
  have hsplit := (append_cons_inj_of_notMem Nat.underscore_not_in_toDigits
    Nat.underscore_not_in_toDigits).1 hlist
  have hread : ∀ {m n : Nat}, Nat.toDigits 10 m = Nat.toDigits 10 n → m = n := by
    intro m n heq
    have hvalue := congrArg (fun digits => Nat.ofDigitChars 10 digits 0) heq
    simpa using hvalue
  exact ⟨hread hsplit.1, hread hsplit.2.2⟩

theorem nodup_callIds (turn : Turn) : (callIds turn).Nodup := by
  apply pairwise_iff_getElem.2
  intro i j hi hj hlt heq
  simp only [callIds, getElem_mapIdx] at heq
  exact Nat.ne_of_lt hlt (turnCallId_inj heq).2

theorem numberedFrom_iff {n : Nat} {turns : List Turn} :
    NumberedFrom n turns ↔ turns.map Turn.turnNumber = List.range' n turns.length := by
  induction turns generalizing n with
  | nil => simp [NumberedFrom]
  | cons turn turns ih => simp [NumberedFrom, ih, List.range'_succ]

theorem nodup_flatMap_callIds {n : Nat} {turns : List Turn} (h : NumberedFrom n turns) :
    (turns.flatMap callIds).Nodup := by
  refine nodup_flatMap.2 ⟨fun turn _ => nodup_callIds turn, ?_⟩
  have hnumbers : (turns.map Turn.turnNumber).Nodup := by
    rw [numberedFrom_iff.1 h]
    exact nodup_range'
  apply (pairwise_map.1 hnumbers).imp
  intro turn other hne id hid hother
  obtain ⟨i, hi, rfl⟩ := mem_mapIdx.1 hid
  obtain ⟨j, hj, heq⟩ := mem_mapIdx.1 hother
  exact hne (turnCallId_inj heq).1.symm

/-! ## Messages -/

/-- The ids of the calls that the messages answer. -/
def answeredIds (messages : List ChatMessage) : List String :=
  messages.filterMap ChatMessage.toolCallId

/-- Every tool message answers a call that the nearest assistant message before it declares. -/
def AnswersNearest (messages : List ChatMessage) : Prop :=
  ∀ before message after, messages = before ++ message :: after → message.role = .tool →
    ∃ earlier caller between id, before = earlier ++ caller :: between ∧
      caller.role = .assistant ∧ (∀ other ∈ between, other.role ≠ .assistant) ∧
        message.toolCallId = some id ∧ id ∈ caller.declaredCalls

/-- The messages declare the calls with the given ids and answer them in order. -/
structure Answered (messages : List ChatMessage) (ids : List String) : Prop where
  declared : declaredIds messages = ids
  answered : answeredIds messages = ids
  nearest : AnswersNearest messages

theorem answered_singleton {message : ChatMessage} (hrole : message.role ≠ .tool)
    (hcalls : message.toolCalls = none) (hid : message.toolCallId = none) :
    Answered [message] [] where
  declared := by simp [ChatMessage.declaredCalls, hcalls]
  answered := by simp [answeredIds, hid]
  nearest := by
    intro before other after heq htool
    have hmem : other ∈ [message] := by simp [heq]
    exact absurd htool (mem_singleton.1 hmem ▸ hrole)

theorem Answered.append {xs ys : List ChatMessage} {ids ids' : List String}
    (hxs : Answered xs ids) (hys : Answered ys ids') : Answered (xs ++ ys) (ids ++ ids') where
  declared := by rw [declaredIds_append, hxs.declared, hys.declared]
  answered := by
    rw [← hxs.answered, ← hys.answered]
    exact filterMap_append
  nearest := by
    intro before message after heq htool
    -- the nearest assistant message is in the same list
    rcases append_eq_append_iff.1 heq with ⟨more, rfl, hrest⟩ | ⟨more, rfl, hrest⟩
    · obtain ⟨earlier, caller, between, id, rfl, hcaller⟩ :=
        hys.nearest more message after hrest htool
      exact ⟨xs ++ earlier, caller, between, id, by simp, hcaller⟩
    · cases more with
      | nil =>
        obtain ⟨_, _, _, _, hbefore, _⟩ := hys.nearest [] message after hrest.symm htool
        simp at hbefore
      | cons first more =>
        obtain ⟨rfl, rfl⟩ := List.cons.inj hrest
        exact hxs.nearest before message more rfl htool

theorem answered_nil : Answered [] [] :=
  ⟨rfl, rfl, fun before _ _ heq => by simp at heq⟩

/-- A message with calls is answered by the results that follow it. -/
theorem answered_round {caller : ChatMessage} {results : List ChatMessage} {ids : List String}
    (hcaller : caller.role = .assistant) (hnone : caller.toolCallId = none)
    (hdeclared : caller.declaredCalls = ids) (htools : ∀ result ∈ results, result.role = .tool)
    (hids : results.map ChatMessage.toolCallId = ids.map some) :
    Answered (caller :: results) ids where
  declared := by
    have hresults : ∀ result ∈ results, result.declaredCalls = [] := by
      intro result hresult
      simp [ChatMessage.declaredCalls, htools result hresult]
    rw [declaredIds, flatMap_cons, hdeclared, flatMap_eq_nil_iff.2 hresults, append_nil]
  answered := by
    have hall := congrArg (List.filterMap id) hids
    simpa [answeredIds, hnone] using hall
  nearest := by
    intro before message after heq htool
    cases before with
    | nil =>
      obtain ⟨rfl, _⟩ := List.cons.inj heq
      rw [hcaller] at htool
      cases htool
    | cons first between =>
      obtain ⟨rfl, rfl⟩ := List.cons.inj heq
      have hid : message.toolCallId ∈ ids.map some := by
        rw [← hids]
        exact mem_map_of_mem (by simp)
      obtain ⟨id, hmem, heq⟩ := mem_map.1 hid
      refine ⟨[], caller, between, id, rfl, hcaller, fun other hother => ?_, heq.symm, ?_⟩
      · simp [htools other (by simp [hother])]
      · rwa [hdeclared]

theorem answered_turn (serde : SerdeJson) (turn : Turn) :
    Answered (turnMessages serde turn) (callIds turn) := by
  have huser : Answered [turnUserMessage turn] [] := by
    unfold turnUserMessage
    split <;> exact answered_singleton nofun rfl rfl
  have hround : Answered (roundMessages serde turn) (callIds turn) := by
    unfold roundMessages appendToolCallMessages
    split
    · next hnone => simpa [callIds, List.isEmpty_iff.1 hnone] using answered_nil
    · refine answered_round rfl rfl ?_ (fun result hresult => ?_) ?_
      · simp [callIds, mapIdx_eq_zipIdx_map]
      · obtain ⟨i, hi, rfl⟩ := mem_mapIdx.1 hresult
        rfl
      · simp [callIds, mapIdx_eq_zipIdx_map]
  have hresponse : Answered (turn.response.toList.map ChatMessage.assistant) [] := by
    cases turn.response with
    | none => exact answered_nil
    | some response => exact answered_singleton nofun rfl rfl
  simpa [turnMessages] using (huser.append hround).append hresponse

/-- The messages of turns answer the calls of the turns in order. -/
theorem answered_turns (serde : SerdeJson) (turns : List Turn) :
    Answered (turns.flatMap (turnMessages serde)) (turns.flatMap callIds) := by
  induction turns with
  | nil => exact answered_nil
  | cons turn turns ih => exact (answered_turn serde turn).append ih

/-- The messages of a thread keep the tool protocol, so a turn starts with a good context. -/
theorem toolProtocol_messages (serde : SerdeJson) (thread : Thread) :
    ToolProtocol (thread.messages serde) := by
  rw [Thread.messages_eq_flatMap]
  intro before message after hsplit htool
  obtain ⟨earlier, caller, between, id, rfl, -, -, hid, hmem⟩ :=
    (answered_turns serde thread.turns).nearest before message after hsplit htool
  exact ⟨id, hid, by simp [declaredIds, hmem]⟩

/-- In a thread that is built by the methods of threads, turns are numbered by position, no id of
a call occurs twice in its messages, and every result follows the message with its call. -/
theorem calls_told_apart (serde : SerdeJson) {thread : Thread} (h : thread.Built) :
    (∀ (i : Nat) (turn : Turn), thread.turns[i]? = some turn → turn.turnNumber = i) ∧
      (declaredIds (thread.messages serde)).Nodup ∧
      (answeredIds (thread.messages serde)).Nodup ∧ AnswersNearest (thread.messages serde) := by
  have hnumbered : NumberedFrom 0 thread.turns := h.wellNumbered
  obtain ⟨hdeclared, hanswered, hnearest⟩ := answered_turns serde thread.turns
  rw [Thread.messages_eq_flatMap, hdeclared, hanswered]
  refine ⟨?_, nodup_flatMap_callIds hnumbered, nodup_flatMap_callIds hnumbered, hnearest⟩
  intro i turn hturn
  obtain ⟨hi, rfl⟩ := List.getElem?_eq_some_iff.1 hturn
  have hget := congrArg (fun numbers : List Nat => numbers[i]?) (numberedFrom_iff.1 hnumbered)
  simpa [hi] using hget

/-- A thread in which a turn has called a tool twice. -/
def twoCallsThread : Thread :=
  ((Thread.init 0 1 2).startTurn 1 "hello").modifyLastTurn fun turn =>
    (turn.recordToolCall "echo" .null).recordToolCall "echo" .null

theorem twoCallsThread_told_apart :
    answeredIds (twoCallsThread.messages nullSerde) = ["turn0_0", "turn0_1"] ∧
      (answeredIds (twoCallsThread.messages nullSerde)).Nodup := by
  have hbuilt : twoCallsThread.Built :=
    .modifyLastTurn _ (fun _ => rfl) (.startTurn 1 "hello" (.init 0 1 2))
  exact ⟨by decide, (calls_told_apart nullSerde hbuilt).2.2.1⟩

end Axinite.Session
