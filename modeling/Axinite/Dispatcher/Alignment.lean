import Axinite.Dispatcher.ToolExec

/-!
# Alignment of tool calls and outcomes over a turn

A turn collects the tool calls of all its rounds in one list, while postflight
numbers the outcomes of a round from zero.  The outcomes of a round therefore land
in the slots of its own calls only if the list was empty when the round started.

Main results:

- Theorem `writeOutcomes_append_iff`: when outcomes written from slot zero reach the
  slots of the calls appended last.
- Theorem `rounds_aligned_iff`: the runs of rounds in which every slot holds the
  outcome of its own call.
-/

namespace Axinite.Dispatcher

open Json Llm Session Tools ThreadOps Foundation List

/-! ## Writing outcomes into a list of calls -/

/-- Put outcomes into the first slots of a list of calls. -/
def fillOutcomes : List StoredOutcome → List TurnToolCall → List TurnToolCall
  | [], calls => calls
  | _ :: _, [] => []
  | outcome :: outcomes, call :: calls => withOutcome outcome call :: fillOutcomes outcomes calls

variable {calls : List TurnToolCall}

/-- Outcomes for slots past the end are dropped. -/
theorem writeOutcomes_of_length_le {idx : Nat}
    (h : calls.length ≤ idx) (outcomes : List StoredOutcome) :
    writeOutcomes idx outcomes calls = calls := by
  induction outcomes generalizing idx with
  | nil => rfl
  | cons outcome outcomes ih =>
    rw [writeOutcomes, modify_eq_self h]
    exact ih (by omega)

/-- Outcomes written from the end of a list on fill the calls appended to it. -/
theorem writeOutcomes_append (before : List TurnToolCall) (outcomes : List StoredOutcome)
    (calls : List TurnToolCall) :
    writeOutcomes before.length outcomes (before ++ calls) = before ++ fillOutcomes outcomes calls := by
  induction outcomes generalizing before calls with
  | nil => rfl
  | cons outcome outcomes ih =>
    cases calls with
    | nil => rw [writeOutcomes_of_length_le (by simp), fillOutcomes]
    | cons call calls =>
      have hmod : (before ++ call :: calls).modify before.length (withOutcome outcome) =
          (before ++ [withOutcome outcome call]) ++ calls := by
        rw [modify_eq_take_cons_drop (by simp)]
        simp
      have h := ih (before ++ [withOutcome outcome call]) calls
      rw [writeOutcomes, hmod]
      simpa [fillOutcomes] using h

variable {outcomes : List StoredOutcome}

/-- Slots behind the written ones keep their contents. -/
theorem getElem?_writeOutcomes {idx k : Nat}
    (h : idx + outcomes.length ≤ k) (calls : List TurnToolCall) :
    (writeOutcomes idx outcomes calls)[k]? = calls[k]? := by
  induction outcomes generalizing idx calls with
  | nil => rfl
  | cons outcome outcomes ih =>
    rw [length_cons] at h
    have hne : idx ≠ k := by omega
    rw [writeOutcomes, ih (by omega)]
    simp [hne]

/-- A last slot that no outcome reaches keeps its contents. -/
theorem writeOutcomes_concat {idx : Nat}
    (h : idx + outcomes.length ≤ calls.length) (call : TurnToolCall) :
    writeOutcomes idx outcomes (calls ++ [call]) = writeOutcomes idx outcomes calls ++ [call] := by
  induction outcomes generalizing idx calls with
  | nil => rfl
  | cons outcome outcomes ih =>
    rw [length_cons] at h
    have hlt : idx < calls.length := by omega
    have hmod : (calls ++ [call]).modify idx (withOutcome outcome) =
        calls.modify idx (withOutcome outcome) ++ [call] := by
      rw [modify_eq_set_getElem?, modify_eq_set_getElem?,
        getElem?_append_left hlt, getElem?_eq_getElem hlt]
      simp [set_append_left _ _ hlt]
    rw [writeOutcomes, hmod, ih (by rw [length_modify]; omega), writeOutcomes]

theorem getElem?_fillOutcomes_concat {outcome : StoredOutcome}
    (h : outcomes.length < calls.length) :
    (fillOutcomes (outcomes ++ [outcome]) calls)[outcomes.length]? =
      (calls[outcomes.length]?).map (withOutcome outcome) := by
  induction outcomes generalizing calls with
  | nil =>
    cases calls with
    | nil => simp at h
    | cons call calls => rfl
  | cons first outcomes ih =>
    cases calls with
    | nil => simp at h
    | cons call calls =>
      simp only [length_cons, Nat.add_lt_add_iff_right] at h
      simpa [fillOutcomes] using ih h

/-- The call has no outcome yet. -/
def Blank (call : TurnToolCall) : Prop :=
  call.result = none ∧ call.error = none

/-- Outcomes written from slot zero reach the calls appended last only if nothing
stands before those calls, or if there is no outcome at all. -/
theorem writeOutcomes_append_iff {before calls : List TurnToolCall}
    (hlen : outcomes.length ≤ calls.length)
    (hblank : ∀ call ∈ calls, Blank call) (hout : ∀ outcome ∈ outcomes, outcome ≠ (none, none)) :
    writeOutcomes 0 outcomes (before ++ calls) = before ++ fillOutcomes outcomes calls ↔
      outcomes = [] ∨ before = [] := by
  constructor
  · intro heq
    by_contra hne
    rw [not_or] at hne
    rcases eq_nil_or_concat outcomes with hnil | ⟨init, last, rfl⟩
    · exact hne.1 hnil
    rw [concat_eq_append] at heq hlen hout
    have hpos : 0 < before.length := length_pos_of_ne_nil hne.2
    have hroom : init.length < calls.length := by
      rw [length_append] at hlen
      exact hlen
    -- compare the slot of the last outcome
    have hslot := congrArg (fun l => l[before.length + init.length]?) heq
    rw [getElem?_writeOutcomes (by simp; omega), getElem?_append_right (by omega),
      getElem?_append_right (by omega), Nat.add_sub_cancel_left,
      getElem?_fillOutcomes_concat hroom, getElem?_eq_getElem hroom, Option.map_some,
      Option.some.injEq] at hslot
    have hb := hblank _ (getElem_mem hroom)
    apply hout last (by simp)
    rw [hslot] at hb
    exact Prod.ext hb.1 hb.2
  · intro h
    rcases h with rfl | rfl
    · rfl
    · simpa using writeOutcomes_append [] _ _

/-! ## Runs of rounds -/

/-- One assistant message with tool calls, and what hooks and tools answer to it. -/
structure Round where
  out : Outside
  toolCalls : List ToolCall
  content : Option String
  messages : List ChatMessage

/-- The calls recorded in the current turn. -/
def currentCalls (w : World) : Option (List TurnToolCall) :=
  w.thread.lastTurn.map Turn.toolCalls

/-- The calls that a round appends, each with its own outcome. -/
def Round.ownCalls (agent : Agent) (round : Round) (w : World) : List TurnToolCall :=
  let batch := roundBatch agent round.out round.toolCalls w
  fillOutcomes
    ((roundOutcomes agent round.out batch.1).map (RecordedOutcome.stored agent.serde))
    (recordedCalls round.out (effectiveToolCalls batch.1 batch.2))

/-- The shared state during a turn, with the list of all calls appended so far and their
own outcomes. -/
structure TurnRun where
  world : World
  owned : List TurnToolCall

def TurnRun.step (agent : Agent) (s : TurnRun) (round : Round) : TurnRun where
  world := (runHandler agent.serde
    (executeToolCalls agent round.out round.toolCalls round.content round.messages) s.world).2
  owned := s.owned ++ round.ownCalls agent s.world

/-- Every slot of the current turn holds the outcome of its own call. -/
def TurnRun.Aligned (s : TurnRun) : Prop :=
  currentCalls s.world = some s.owned

/-- The first call of the round stops it, or no call has been recorded in the turn. -/
def FirstRound (agent : Agent) (s : TurnRun) (round : Round) : Prop :=
  (∀ tc ∈ round.toolCalls.head?, agent.autoApproveTools = false ∧
      NeedsApproval agent round.out s.world.autoApprovedTools 0 tc) ∨
    currentCalls s.world = some []

variable (serde : SerdeJson) (agent : Agent) (out : Outside)

theorem toolRequiresApproval_iff (tool : Tool) (tc : ToolCall) (w : World) :
    (runHandler serde (toolRequiresApproval tool tc) w).1 = true ↔
      tool.AsksApproval w.autoApprovedTools tc := by
  unfold toolRequiresApproval Tool.AsksApproval
  cases tool.requiresApproval tc.arguments with
  | never | always => simp
  | unlessAutoApproved =>
    have hrun : (runHandler serde (perform .readAutoApproved) w).1 = w.autoApprovedTools := rfl
    simp [hrun]

/-- A call stops the round exactly if it needs an approval and not all tools are approved. -/
theorem classifyToolCall_needsApproval_iff (idx : Nat) (tc : ToolCall) (w : World) :
    (∃ candidate, (runHandler serde (classifyToolCall agent out idx tc) w).1.1 =
        .needsApproval candidate) ↔
      agent.autoApproveTools = false ∧ NeedsApproval agent out w.autoApprovedTools idx tc := by
  simp only [classifyToolCall, NeedsApproval]
  split
  · rename_i msg checked hhook
    simp [hhook]
  · rename_i checked hhook
    simp only [hhook, approvalRequiredTool]
    by_cases hauto : agent.autoApproveTools = true
    · simp [hauto]
    · cases htool : out.tools tc.name with
      | none => simp
      | some tool =>
        have hiff := toolRequiresApproval_iff serde tool checked w
        by_cases hasks : tool.AsksApproval w.autoApprovedTools checked
        · simp [hauto, hiff.2 _, hasks]
        · have hno : (runHandler serde (toolRequiresApproval tool checked) w).1 = false := by
            simpa using mt hiff.1 hasks
          simp [hauto, hno, hasks]

/-- A call is runnable exactly if the hooks let it pass and it needs no approval. -/
theorem classifyToolCall_runnable_iff (idx : Nat) (tc : ToolCall) (w : World) (checked : ToolCall) :
    (runHandler serde (classifyToolCall agent out idx tc) w).1 = (.runnable, checked) ↔
      runBeforeToolCallHook agent out idx
          (((out.tools tc.name).map Tool.sensitiveParams).getD []) tc = (none, checked) ∧
        ¬ (agent.autoApproveTools = false ∧ NeedsApproval agent out w.autoApprovedTools idx tc) := by
  rw [← classifyToolCall_needsApproval_iff serde]
  simp only [classifyToolCall]
  split
  · rename_i msg tc' hhook
    simp [hhook]
  · rename_i tc' hhook
    simp only [hhook, runHandler_bind]
    split
    · simp
    · simp

theorem groupToolCalls_preflight_ne_nil (idx : Nat) (toolCalls : List ToolCall) {batch : ToolBatch}
    (h : batch.preflight ≠ []) (w : World) :
    (runHandler serde (groupToolCalls agent out idx toolCalls batch) w).1.1.preflight ≠ [] := by
  induction toolCalls generalizing idx batch w with
  | nil => exact h
  | cons tc rest ih =>
    simp only [groupToolCalls, runHandler_bind]
    split
    · exact ih _ (by simp) _
    · exact h
    · exact ih _ (by simp) _

/-- A round preflights no call exactly if its first call stops it. -/
theorem roundBatch_preflight_eq_nil_iff (toolCalls : List ToolCall) (w : World) :
    (roundBatch agent out toolCalls w).1.preflight = [] ↔
      ∀ tc ∈ toolCalls.head?, agent.autoApproveTools = false ∧
        NeedsApproval agent out w.autoApprovedTools 0 tc := by
  cases toolCalls with
  | nil => simp [roundBatch, groupToolCalls]
  | cons tc rest =>
    have hiff := classifyToolCall_needsApproval_iff agent.serde agent out 0 tc w
    simp only [roundBatch, groupToolCalls, runHandler_bind, head?_cons,
      Option.mem_some_iff, forall_eq', ← hiff]
    split
    · rename_i msg checked hclass
      refine iff_of_false ?_ (by simp [hclass])
      exact groupToolCalls_preflight_ne_nil _ _ out 1 rest (by simp) _
    · rename_i candidate checked hclass
      simp [hclass]
    · rename_i checked hclass
      refine iff_of_false ?_ (by simp [hclass])
      exact groupToolCalls_preflight_ne_nil _ _ out 1 rest (by simp) _

theorem postflightOutcomes_toolCalls_isPrefix (execResults : ExecResults) (pfIdx : Nat)
    (preflight : List (ToolCall × PreflightOutcome)) :
    (postflightOutcomes agent execResults pfIdx preflight).map RecordedOutcome.toolCall <+:
      preflight.map Prod.fst := by
  induction preflight generalizing pfIdx with
  | nil => exact prefix_rfl
  | cons entry rest ih =>
    rcases entry with ⟨tc, errorMsg | _⟩
    · simpa [postflightOutcomes] using ih _
    · simp only [postflightOutcomes, map_cons, cons_prefix_cons, true_and]
      split
      · exact nil_prefix
      · exact ih _

theorem roundOutcomes_eq_nil_iff (batch : ToolBatch) :
    roundOutcomes agent out batch = [] ↔ batch.preflight = [] := by
  unfold roundOutcomes
  rcases batch.preflight with _ | ⟨⟨tc, errorMsg | _⟩, rest⟩ <;> simp [postflightOutcomes]

theorem storedOutcome_ne_none (content : String) (isToolError : Bool) :
    storedOutcome serde content isToolError ≠ (none, none) := by
  cases isToolError <;> simp [storedOutcome]

theorem currentCalls_of_turns {w w' : World} {f : List TurnToolCall → List TurnToolCall}
    (h : w'.thread.turns = modifyLastCalls f w.thread.turns) :
    currentCalls w' = (currentCalls w).map f := by
  unfold currentCalls Thread.lastTurn
  rw [h, modifyLastCalls, getLast?_modifyLast]
  cases w.thread.turns.getLast? <;> rfl

/-- One round keeps the turn aligned exactly if it is a first round. -/
theorem aligned_step_iff (s : TurnRun) (round : Round) (hs : s.Aligned) :
    (s.step agent round).Aligned ↔ FirstRound agent s round := by
  have hrun := (executeToolCalls_run agent round.out round.toolCalls round.content
    round.messages s.world).2
  have hcalls := currentCalls_of_turns hrun
  rw [TurnRun.Aligned, FirstRound, hs, ← roundBatch_preflight_eq_nil_iff]
  rw [hs, Option.map_some] at hcalls
  simp only [TurnRun.step, hcalls, Option.some.injEq, Round.ownCalls]
  generalize roundBatch agent round.out round.toolCalls s.world = batch
  have hprefix := (postflightOutcomes_toolCalls_isPrefix agent
    (runPhase2 agent round.out batch.1.runnable (replicate batch.1.preflight.length none)) 0
    batch.1.preflight).length_le
  rw [writeOutcomes_append_iff, map_eq_nil_iff, roundOutcomes_eq_nil_iff]
  · simp only [length_map] at hprefix
    simp only [recordedCalls, effectiveToolCalls, roundOutcomes, length_map, length_append]
    omega
  · intro call hcall
    rcases mem_map.1 hcall with ⟨tc, _, rfl⟩
    exact ⟨rfl, rfl⟩
  · intro outcome houtcome
    rcases mem_map.1 houtcome with ⟨recorded, _, rfl⟩
    exact storedOutcome_ne_none _ _ _

/-- A run of rounds keeps every slot aligned with its call exactly if only the first
round that records calls has outcomes to record. -/
theorem rounds_aligned_iff (agent : Agent) (w : World) (owned : List TurnToolCall)
    (h : currentCalls w = some owned) (rounds : List Round) :
    (∀ s ∈ Runs.visited (TurnRun.step agent) ⟨w, owned⟩ rounds, s.Aligned) ↔
      Runs.AllSteps (TurnRun.step agent) (FirstRound agent) ⟨w, owned⟩ rounds := by
  have hstart : TurnRun.Aligned ⟨w, owned⟩ := h
  exact Runs.forall_mem_visited_iff (aligned_step_iff _) hstart _

/-- A round with one call of the tool `echo`. -/
def echoRound (output : String) : Round where
  out := answering output
  toolCalls := [{ id := "call_1", name := "echo", arguments := .null }]
  content := none
  messages := []

/-- A thread at the start of its first turn. -/
def turnStart : World :=
  World.init.modifyThread fun thread => thread.startTurn 0 "hi"

theorem rounds_aligned_echoRound : currentCalls turnStart = some [] ∧
      ∀ s ∈ Runs.visited (TurnRun.step plainAgent) ⟨turnStart, []⟩ [echoRound "a"], s.Aligned := by
  refine ⟨rfl, ?_⟩
  exact (rounds_aligned_iff plainAgent turnStart [] rfl [echoRound "a"]).2 ⟨Or.inr rfl, trivial⟩

/-- The outcome of the second round lands in the slot of the first one. -/
theorem second_round_misaligned : ¬ ∀ s ∈ Runs.visited (TurnRun.step plainAgent) ⟨turnStart, []⟩
        [echoRound "a", echoRound "b"], s.Aligned := by
  intro h
  have hlast := h _ (Runs.foldl_mem_visited _ _ _)
  revert hlast
  unfold TurnRun.Aligned
  decide +kernel

end Axinite.Dispatcher
