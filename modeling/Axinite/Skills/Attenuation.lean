import Axinite.Dispatcher.Alignment

/-!
# The tool ceiling of active skills

An installed skill restricts the tools that are offered to the model to a fixed list of
read-only ones.  The calls in the answer of the model are then looked up in the registry of
all tools.  The ceiling is a filter of what is offered, and not of what is executed: a call
that names a tool which was not offered is held up by the approval of that tool only.

Main results:

- Theorem `readOnly_of_attenuated`: an installed skill leaves read-only tools only.
- Theorem `runPhase2_congr`: phase two executes no other calls than `phase2Calls`.
- Theorem `ceiling_enforced_iff`: the registries for which no answer of the model gets a tool
  beyond the ceiling executed.
-/

namespace Axinite.Skills

open Json Llm Session Tools ThreadOps Dispatcher List

/-! ## Attenuation -/

/-- Trust in a skill; an installed skill is trusted less. -/
inductive SkillTrust where
  | installed
  | trusted
  deriving DecidableEq

instance : Min SkillTrust where
  min
    | .installed, _ => .installed
    | .trusted, trust => trust

/-- What the attenuation reads of a skill. -/
structure LoadedSkill where
  trust : SkillTrust

/-- A tool as it is offered to the model. -/
structure ToolDefinition where
  name : String
  description : String
  parameters : Value

/-- The tools that are offered, and what has been removed. -/
structure AttenuationResult where
  tools : List ToolDefinition
  minTrust : SkillTrust
  explanation : String
  removedTools : List String

/-- Tools without side effects. -/
def readOnlyTools : List String :=
  ["memory_search", "memory_read", "memory_tree", "time", "echo", "json", "skill_list",
    "skill_search", "skill_read_file"]

/-- Filter tool definitions by the trust in the active skills. -/
def attenuateTools (tools : List ToolDefinition) (activeSkills : List LoadedSkill) :
    AttenuationResult :=
  if activeSkills.isEmpty then
    { tools := tools
      minTrust := .trusted
      explanation := "No skills active, all tools available"
      removedTools := [] }
  else
    match (activeSkills.map LoadedSkill.trust).min?.getD .trusted with
    | .trusted =>
      { tools := tools
        minTrust := .trusted
        explanation := "All active skills are trusted (full trust), all tools available"
        removedTools := [] }
    | .installed =>
      let kept := tools.filter fun tool => readOnlyTools.contains tool.name
      let removed := (tools.filter fun tool => !readOnlyTools.contains tool.name).map
        ToolDefinition.name
      { tools := kept
        minTrust := .installed
        explanation := "Installed skill present: restricted to read-only tools, removed " ++
          toString removed.length ++ " tool(s): " ++ String.intercalate ", " removed
        removedTools := removed }

/-- One installed skill makes the minimum of the trusts `installed`. -/
theorem foldl_min_of_installed (trusts : List SkillTrust) {start : SkillTrust}
    (h : start = .installed ∨ SkillTrust.installed ∈ trusts) :
    trusts.foldl min start = .installed := by
  induction trusts generalizing start with
  | nil => simpa using h
  | cons trust trusts ih =>
    refine ih ?_
    rcases h with rfl | h
    · exact .inl rfl
    · rcases mem_cons.1 h with rfl | hrest
      · cases start <;> exact .inl rfl
      · exact .inr hrest

/-- With an installed skill only read-only tools are offered. -/
theorem readOnly_of_attenuated {tools : List ToolDefinition} {activeSkills : List LoadedSkill}
    (h : ∃ skill ∈ activeSkills, skill.trust = .installed) :
    ∀ tool ∈ (attenuateTools tools activeSkills).tools, tool.name ∈ readOnlyTools := by
  obtain ⟨skill, hskill, htrust⟩ := h
  have hmin : (activeSkills.map LoadedSkill.trust).min?.getD .trusted = .installed := by
    have hmem : SkillTrust.installed ∈ activeSkills.map LoadedSkill.trust :=
      mem_map.2 ⟨skill, hskill, htrust⟩
    cases htrusts : activeSkills.map LoadedSkill.trust with
    | nil => rw [htrusts] at hmem; cases hmem
    | cons first rest =>
      rw [htrusts] at hmem
      refine foldl_min_of_installed rest ?_
      rcases mem_cons.1 hmem with hfirst | hrest
      · exact .inl hfirst.symm
      · exact .inr hrest
  have hsome : activeSkills.isEmpty = false := by
    cases activeSkills with
    | nil => cases hskill
    | cons _ _ => rfl
  intro tool htool
  simp only [attenuateTools, hsome, hmin] at htool
  exact contains_iff_mem.1 (mem_filter.1 htool).2

/-! ## Executed calls -/

section Phase2

variable (agent : Agent) (out : Outside)

/-- The call asks the user for an authentication, which ends the execution. -/
def stopsPhase2 (call : Nat × ToolCall) : Bool :=
  isAuthBarrierTool call.2.name &&
    (parseAuthBarrier agent.serde call.2.name (out.execute call.1 call.2)).isSome

/-- The calls that phase two executes. -/
def phase2Calls : List (Nat × ToolCall) → List (Nat × ToolCall)
  | [] => []
  | call :: rest => if stopsPhase2 agent out call then [call] else call :: phase2Calls rest

/-- The calls of an assistant message that are executed at once, without asking the user. -/
def executedCalls (toolCalls : List ToolCall) (w : World) : List (Nat × ToolCall) :=
  phase2Calls agent out (roundBatch agent out toolCalls w).1.runnable

variable {agent out} {call : Nat × ToolCall}

theorem mem_of_mem_phase2Calls {runnable : List (Nat × ToolCall)}
    (h : call ∈ phase2Calls agent out runnable) : call ∈ runnable := by
  induction runnable with
  | nil => cases h
  | cons first rest ih =>
    unfold phase2Calls at h
    split at h
    · exact mem_cons.2 (.inl (mem_singleton.1 h))
    · rcases mem_cons.1 h with rfl | hrest
      · exact mem_cons_self
      · exact mem_cons_of_mem first (ih hrest)

theorem head_mem_phase2Calls (call : Nat × ToolCall) (rest : List (Nat × ToolCall)) :
    call ∈ phase2Calls agent out (call :: rest) := by
  unfold phase2Calls
  split
  · exact mem_cons_self
  · exact mem_cons_self

/-- Calls of ordinary tools do not stop phase two. -/
theorem phase2Calls_append {batch rest : List (Nat × ToolCall)}
    (h : ∀ call ∈ batch, isAuthBarrierTool call.2.name = false) :
    phase2Calls agent out (batch ++ rest) = batch ++ phase2Calls agent out rest := by
  induction batch with
  | nil => rfl
  | cons call batch ih =>
    have hcall : stopsPhase2 agent out call = false := by
      simp [stopsPhase2, h call mem_cons_self]
    rw [cons_append, phase2Calls, hcall, ih fun next hnext => h next (mem_cons_of_mem call hnext)]
    rfl

theorem phase2Calls_takeWhile (rest : List (Nat × ToolCall)) : phase2Calls agent out rest =
      rest.takeWhile (fun next => !isAuthBarrierTool next.2.name) ++
        phase2Calls agent out (rest.dropWhile fun next => !isAuthBarrierTool next.2.name) := by
  conv_lhs => rw [← takeWhile_append_dropWhile (l := rest)
    (p := fun next => !isAuthBarrierTool next.2.name)]
  refine phase2Calls_append fun call hcall => ?_
  simpa using all_eq_true.1 all_takeWhile call hcall

/-- Two worlds in which the calls of a batch are executed alike. -/
def SameExecution (out' out : Outside) (batch : List (Nat × ToolCall)) : Prop :=
  ∀ call ∈ batch, out'.execute call.1 call.2 = out.execute call.1 call.2

theorem SameExecution.head {out' : Outside} {rest : List (Nat × ToolCall)}
    (h : SameExecution out' out (phase2Calls agent out (call :: rest))) :
    SameExecution out' out [call] := by
  intro next hnext
  rw [mem_singleton.1 hnext]
  exact h call (head_mem_phase2Calls call rest)

variable {out' : Outside}

theorem runToolBatchInline_congr {batch : List (Nat × ToolCall)}
    (h : SameExecution out' out batch) (execResults : ExecResults) :
    runToolBatchInline out' batch execResults = runToolBatchInline out batch execResults := by
  refine foldl_ext _ _ _ fun results call hcall => ?_
  rw [h call hcall]

theorem runToolBatchParallel_congr (hpanicked : out'.panicked = out.panicked)
    {batch : List (Nat × ToolCall)} (h : SameExecution out' out batch) (execResults : ExecResults) :
    runToolBatchParallel out' batch execResults = runToolBatchParallel out batch execResults := by
  have hjoined : ∀ results : ExecResults, ∀ call ∈ batch, (if out'.panicked call.1 then results
        else results.set call.1 (some (out'.execute call.1 call.2))) =
      if out.panicked call.1 then results
        else results.set call.1 (some (out.execute call.1 call.2)) := by
    intro results call hcall
    rw [h call hcall, hpanicked]
  unfold runToolBatchParallel
  rw [foldl_ext _ _ _ hjoined]

theorem length_foldl_of_length {step : ExecResults → Nat × ToolCall → ExecResults}
    (hstep : ∀ results call, (step results call).length = results.length)
    (batch : List (Nat × ToolCall)) (execResults : ExecResults) :
    (batch.foldl step execResults).length = execResults.length := by
  induction batch generalizing execResults with
  | nil => rfl
  | cons call batch ih => rw [foldl_cons, ih, hstep]

theorem length_runToolBatchInline (batch : List (Nat × ToolCall)) (execResults : ExecResults) :
    (runToolBatchInline out batch execResults).length = execResults.length :=
  length_foldl_of_length (fun _ _ => length_set) batch execResults

theorem length_runToolBatchParallel (batch : List (Nat × ToolCall)) (execResults : ExecResults) :
    (runToolBatchParallel out batch execResults).length = execResults.length := by
  unfold runToolBatchParallel
  rw [length_foldl_of_length, length_foldl_of_length]
  · intro results call
    split
    · rfl
    · exact length_set
  · intro results call
    split
    · exact length_set
    · rfl

/-- A call that is run alone leaves its result in its slot. -/
theorem inline_getElem? {execResults : ExecResults} (h : call.1 < execResults.length) :
    (runToolBatchInline out [call] execResults)[call.1]? =
      some (some (out.execute call.1 call.2)) := by
  simp [runToolBatchInline, h]

end Phase2

/-! ## The ceiling -/

section Ceiling

variable (agent : Agent) (out : Outside)

/-- All calls of a tool that are executed are calls of a read-only tool. -/
def CeilingKept (toolCalls : List ToolCall) (w : World) : Prop :=
  ∀ call ∈ executedCalls agent out toolCalls w,
    (out.tools call.2.name).isSome → call.2.name ∈ readOnlyTools

/-- Every call of the tool waits for the user. -/
def AlwaysAsks (autoApproved : List String) (name : String) (tool : Tool) : Prop :=
  agent.autoApproveTools = false ∧
    ∀ id arguments, tool.AsksApproval autoApproved { id, name, arguments }

variable {agent out}

/-- A runnable call is not one that waits for the user. -/
theorem groupToolCalls_runnable (serde : SerdeJson) (autoApproved : List String) (idx : Nat)
    (toolCalls : List ToolCall) (batch : ToolBatch) {w : World}
    (hw : w.autoApprovedTools = autoApproved)
    (h : ∀ call ∈ batch.runnable, ∀ tool, out.tools call.2.name = some tool →
      ¬ AlwaysAsks agent autoApproved call.2.name tool) :
    ∀ call ∈ (runHandler serde (groupToolCalls agent out idx toolCalls batch) w).1.1.runnable,
      ∀ tool, out.tools call.2.name = some tool →
        ¬ AlwaysAsks agent autoApproved call.2.name tool := by
  induction toolCalls generalizing idx batch w with
  | nil => exact h
  | cons originalTc rest ih =>
    obtain ⟨n, hn⟩ := later_of_only serde (classifyToolCall_reads agent out idx originalTc) w
    have hlater : (w.later n).autoApprovedTools = autoApproved := hw
    simp only [groupToolCalls, runHandler_bind, hn]
    split
    · exact ih (idx + 1) _ hlater h
    · exact h
    · rename_i tc hclassified
      refine ih (idx + 1) _ hlater ?_
      intro call hcall tool htool hasks
      rcases mem_append.1 hcall with hold | hnew
      · exact h call hold tool htool hasks
      · rw [mem_singleton.1 hnew] at htool hasks
        have hrunnable := (classifyToolCall_runnable_iff serde agent out idx originalTc w tc).1
          hclassified
        have hname : tc.name = originalTc.name := by
          have hid := (runBeforeToolCallHook_id agent out idx
            (((out.tools originalTc.name).map Tool.sensitiveParams).getD []) originalTc).2
          rwa [hrunnable.1] at hid
        refine hrunnable.2 ⟨hasks.1, tc, tool, hrunnable.1, hname ▸ htool, ?_⟩
        rw [hw]
        exact hasks.2 tc.id tc.arguments

/-- A single call that does not wait for the user is executed. -/
theorem mem_executedCalls_of_not_asks {tc : ToolCall} {tool : Tool} {w : World}
    (hhook : ∀ event, out.runHooks 0 event = .ok (.continue none))
    (htool : out.tools tc.name = some tool)
    (h : ¬ (agent.autoApproveTools = false ∧ tool.AsksApproval w.autoApprovedTools tc)) :
    (0, tc) ∈ executedCalls agent out [tc] w := by
  have hpasses : ∀ sensitive, runBeforeToolCallHook agent out 0 sensitive tc = (none, tc) := by
    simp [runBeforeToolCallHook, hhook]
  have hclassified : (runHandler agent.serde (classifyToolCall agent out 0 tc) w).1 =
      (.runnable, tc) := by
    refine (classifyToolCall_runnable_iff agent.serde agent out 0 tc w tc).2 ⟨hpasses _, ?_⟩
    rintro ⟨hauto, checked, asked, hchecked, hasked, hasks⟩
    rw [hpasses] at hchecked
    cases hchecked
    rw [htool] at hasked
    cases hasked
    exact h ⟨hauto, hasks⟩
  have hrunnable : (roundBatch agent out [tc] w).1.runnable = [(0, tc)] := by
    simp only [roundBatch, groupToolCalls, runHandler_bind, hclassified]
    rfl
  unfold executedCalls
  rw [hrunnable]
  exact head_mem_phase2Calls (0, tc) []

/-- The ceiling of an installed skill on what is offered always holds.  What is executed
keeps to it, for every answer of the model, exactly if every call of any other registered tool
waits for the user. -/
theorem ceiling_enforced_iff (agent : Agent) (tools : String → Option Tool)
    (definitions : List ToolDefinition) (activeSkills : List LoadedSkill)
    (hskill : ∃ skill ∈ activeSkills, skill.trust = .installed) (w : World) :
    (∀ tool ∈ (attenuateTools definitions activeSkills).tools, tool.name ∈ readOnlyTools) ∧
      ((∀ out : Outside, out.tools = tools → ∀ toolCalls, CeilingKept agent out toolCalls w) ↔
        ∀ name tool, tools name = some tool →
          name ∈ readOnlyTools ∨ AlwaysAsks agent w.autoApprovedTools name tool) := by
  refine ⟨readOnly_of_attenuated hskill, ?_, ?_⟩
  · intro h name tool htool
    by_cases hread : name ∈ readOnlyTools
    · exact .inl hread
    · refine .inr (by_contra fun hasks => hread ?_)
      -- the model may call the tool with arguments for which it does not ask
      obtain ⟨id, arguments, hcall⟩ : ∃ id arguments, ¬ (agent.autoApproveTools = false ∧
          tool.AsksApproval w.autoApprovedTools { id, name, arguments }) := by
        by_contra hall
        push Not at hall
        exact hasks ⟨(hall "" .null).1, fun id arguments => (hall id arguments).2⟩
      let out : Outside := { answering "" with tools := tools }
      have hexecuted : (0, { id, name, arguments }) ∈
          executedCalls agent out [{ id, name, arguments }] w :=
        mem_executedCalls_of_not_asks (fun _ => rfl) htool hcall
      have hregistered : (out.tools name).isSome := Option.isSome_iff_exists.2 ⟨tool, htool⟩
      exact h out rfl _ _ hexecuted hregistered
  · intro h out htools toolCalls call hcall hregistered
    obtain ⟨tool, htool⟩ := Option.isSome_iff_exists.1 hregistered
    have hrunnable := groupToolCalls_runnable agent.serde w.autoApprovedTools 0 toolCalls
      { preflight := [], runnable := [] } rfl (by simp) call (mem_of_mem_phase2Calls hcall) tool
      htool
    exact (h call.2.name tool (htools ▸ htool)).resolve_right hrunnable

/-- A registry with `memory_read`, which never asks, and `shell`, which always does. -/
def readAndShell (name : String) : Option Tool :=
  if name = "memory_read" then
    some { sensitiveParams := [], description := "", requiresApproval := fun _ => .never }
  else (guarded "shell" "").tools name

/-- A world with these two tools. -/
def readAndShellWorld : Outside :=
  { answering "Read." with tools := readAndShell }

theorem readAndShell_ceiling : CeilingKept plainAgent readAndShellWorld
      [⟨"call_1", "memory_read", .null⟩, ⟨"call_2", "shell", .null⟩] turnStart := by
  refine (ceiling_enforced_iff plainAgent readAndShell [] [⟨.installed⟩]
    ⟨_, mem_singleton.2 rfl, rfl⟩ turnStart).2.2 ?_ readAndShellWorld rfl _
  intro name tool htool
  by_cases hread : name = "memory_read"
  · subst hread
    exact .inl (by decide)
  · refine .inr ⟨rfl, fun id arguments => .inl ?_⟩
    simp only [readAndShell, guarded, if_neg hread] at htool
    split at htool
    · cases htool
      rfl
    · cases htool

/-- A world with the tool `memory_write`, which needs no approval. -/
def writableMemory : Outside :=
  { answering "Stored." with
    tools := fun name =>
      if name = "memory_write" then
        some { sensitiveParams := [], description := "", requiresApproval := fun _ => .never }
      else none }

/-- With an installed skill `memory_write` is not offered, and it is executed all the same. -/
theorem unoffered_tool_executed :
    (attenuateTools [⟨"memory_write", "", .null⟩] [⟨.installed⟩]).tools = [] ∧
      ¬ CeilingKept plainAgent writableMemory [⟨"call_1", "memory_write", .null⟩] turnStart ∧
      (runHandler plainAgent.serde
        (executeToolCalls plainAgent writableMemory [⟨"call_1", "memory_write", .null⟩] none [])
        turnStart).1.2.getLast? = some (.toolResult "call_1" "memory_write"
          (plainAgent.sanitizeOutput "memory_write" "Stored.")) := by
  refine ⟨rfl, ?_, by decide +kernel⟩
  intro h
  have hread := h (0, ⟨"call_1", "memory_write", .null⟩)
    (mem_executedCalls_of_not_asks (fun _ => rfl) rfl (by simp [Tool.AsksApproval])) rfl
  revert hread
  decide

end Ceiling

end Axinite.Skills
