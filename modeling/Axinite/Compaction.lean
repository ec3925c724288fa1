import Axinite.ThreadOps.World

/-!
# Context compaction

Compaction removes old turns from a snapshot of a thread.  The snapshot is then put in
place of the live thread, unless the live thread changed in the meantime.

Main results:

- Theorem `compact_eq_kept`: a compaction leaves the turns that its strategy keeps.
- Theorem `autoCompaction_iff`: when the result of an automatic compaction reaches an
  unchanged thread and leaves a changed one alone.
-/

namespace Axinite.Compaction

open Json Llm Session ThreadOps

inductive CompactionStrategy where
  | summarize (keepRecent : Nat)
  | truncate (keepRecent : Nat)
  | moveToWorkspace
  deriving DecidableEq, Repr

/-- Monitor of the context size.  Its estimates use floating-point arithmetic and are
left open here. -/
structure ContextMonitor where
  estimateTokens : List ChatMessage → Nat
  usagePercent : List ChatMessage → String
  suggestCompaction : List ChatMessage → Option CompactionStrategy

/-- The model and the workspace that a compaction uses, and the date and time it writes. -/
structure Compactor where
  complete : List ChatMessage → Except String String
  workspace : Option (String → String → Except String Unit)
  date : String
  time : String

/-- Partial result of a compaction. -/
structure CompactionPartial where
  turnsRemoved : Nat
  summaryWritten : Bool
  summary : Option String

structure CompactionResult where
  turnsRemoved : Nat
  tokensBefore : Nat
  tokensAfter : Nat
  summaryWritten : Bool
  summary : Option String

/-- Partial result of a compaction that had nothing to do. -/
def CompactionPartial.empty : CompactionPartial where
  turnsRemoved := 0
  summaryWritten := false
  summary := none

/-- The input and the response of turns, without their tool calls. -/
def turnsToSummarize (oldTurns : List Turn) : List ChatMessage :=
  oldTurns.flatMap fun turn =>
    .user turn.userInput :: turn.response.toList.map ChatMessage.assistant

/-- Format turns for storage in the workspace. -/
def formatTurnsForStorage (turns : List Turn) : String :=
  "\n".intercalate (turns.map fun turn =>
    "**Turn " ++ toString (turn.turnNumber + 1) ++ "**\n" ++
      "User: " ++ turn.userInput ++ "\n" ++
      (match turn.response with
        | some response => "Agent: " ++ response ++ "\n"
        | none => "") ++
      (if turn.toolCalls.isEmpty then ""
        else "Tools: " ++ ", ".intercalate (turn.toolCalls.map TurnToolCall.name) ++ "\n"))

namespace Compactor

variable (compactor : Compactor)

/-- One line of the transcript that is summarized. -/
def transcriptLine (message : ChatMessage) : String :=
  match message.role with
  | .user => "User: " ++ message.content
  | .assistant => "Assistant: " ++ message.content
  | .system => "System: " ++ message.content
  | .tool => "Tool " ++ message.name.getD "unknown" ++ ": " ++ message.content

/-- Ask the model for a summary. -/
def generateSummary (messages : List ChatMessage) : Except String String :=
  compactor.complete
    [.system ("Summarize the following conversation concisely. Focus on:\n" ++
        "- Key decisions made\n- Important information exchanged\n- Actions taken\n" ++
        "- Outcomes achieved\n\n" ++
        "Be brief but capture all important details. Use bullet points."),
      .user ("Please summarize this conversation:\n\n" ++
        "\n\n".intercalate (messages.map transcriptLine))]

/-- Append an entry to the daily log. -/
def writeEntry (append : String → String → Except String Unit) (title content : String) :
    Except String Unit :=
  append ("daily/" ++ compactor.date ++ ".md")
    ("\n## " ++ title ++ " (" ++ compactor.time ++ ")\n\n" ++ content ++ "\n")

/-- Write a summary to the daily log. -/
def writeSummaryToWorkspace (append : String → String → Except String Unit) (summary : String) :
    Except String Unit :=
  compactor.writeEntry append "Context Summary" summary

/-- Write turns to the daily log. -/
def writeContextToWorkspace (append : String → String → Except String Unit) (content : String) :
    Except String Unit :=
  compactor.writeEntry append "Archived Context" content

/-- Compact by summarizing old turns.  If the summary cannot be stored, the turns stay. -/
def compactWithSummary (keepRecent : Nat) (thread : Thread) :
    Except String (CompactionPartial × Thread) :=
  if thread.turns.length ≤ keepRecent then .ok (.empty, thread)
  else do
    let turnsToRemove := thread.turns.length - keepRecent
    let summary ← compactor.generateSummary (turnsToSummarize (thread.turns.take turnsToRemove))
    match compactor.workspace with
    | some append =>
      match compactor.writeSummaryToWorkspace append summary with
      | .ok () =>
        .ok ({ turnsRemoved := turnsToRemove, summaryWritten := true, summary := some summary },
          thread.truncateTurns keepRecent)
      | .error _ =>
        .ok ({ turnsRemoved := 0, summaryWritten := false, summary := some summary }, thread)
    | none =>
      .ok ({ turnsRemoved := turnsToRemove, summaryWritten := false, summary := some summary },
        thread.truncateTurns keepRecent)

/-- Compact by dropping old turns. -/
def compactTruncate (keepRecent : Nat) (thread : Thread) : CompactionPartial × Thread :=
  let truncated := thread.truncateTurns keepRecent
  ({ turnsRemoved := thread.turns.length - truncated.turns.length
     summaryWritten := false
     summary := none }, truncated)

/-- Compact by moving old turns to the workspace.  If they cannot be stored, they stay. -/
def compactToWorkspace (thread : Thread) : CompactionPartial × Thread :=
  match compactor.workspace with
  | none => compactTruncate 5 thread
  | some append =>
    let keepRecent := 10
    if thread.turns.length ≤ keepRecent then (.empty, thread)
    else
      let turnsToRemove := thread.turns.length - keepRecent
      let content := formatTurnsForStorage (thread.turns.take turnsToRemove)
      match compactor.writeContextToWorkspace append content with
      | .ok () =>
        ({ turnsRemoved := turnsToRemove, summaryWritten := true, summary := none },
          thread.truncateTurns keepRecent)
      | .error _ => ({ turnsRemoved := 0, summaryWritten := false, summary := none }, thread)

/-- Compact a thread with one of the strategies. -/
def compactPartial (strategy : CompactionStrategy) (thread : Thread) :
    Except String (CompactionPartial × Thread) :=
  match strategy with
  | .summarize keepRecent => compactor.compactWithSummary keepRecent thread
  | .truncate keepRecent => .ok (compactTruncate keepRecent thread)
  | .moveToWorkspace => .ok (compactor.compactToWorkspace thread)

/-- Compact a thread and count its tokens before and after. -/
def compact (serde : SerdeJson) (monitor : ContextMonitor) (strategy : CompactionStrategy)
    (thread : Thread) : Except String (CompactionResult × Thread) := do
  let tokensBefore := monitor.estimateTokens (thread.messages serde)
  let (result, compacted) ← compactor.compactPartial strategy thread
  .ok ({ turnsRemoved := result.turnsRemoved
         tokensBefore := tokensBefore
         tokensAfter := monitor.estimateTokens (compacted.messages serde)
         summaryWritten := result.summaryWritten
         summary := result.summary }, compacted)

end Compactor

/-! ## Turns that are left -/

theorem length_renumber (n : Nat) (turns : List Turn) :
    (Thread.renumber n turns).length = turns.length := by
  induction turns generalizing n with
  | nil => rfl
  | cons turn turns ih => simp [Thread.renumber, ih]

theorem length_truncateTurns (keep : Nat) (thread : Thread) :
    (thread.truncateTurns keep).turns.length = min thread.turns.length keep := by
  unfold Thread.truncateTurns
  split
  · rw [length_renumber, List.length_drop]
    omega
  · omega

namespace Compactor

variable (compactor : Compactor)

/-- The number of turns that a strategy keeps. -/
def keepRecent : CompactionStrategy → Nat
  | .summarize keepRecent => keepRecent
  | .truncate keepRecent => keepRecent
  | .moveToWorkspace => if compactor.workspace.isSome then 10 else 5

/-- The workspace does not take what the strategy writes to it. -/
def storageFails (strategy : CompactionStrategy) (thread : Thread) : Bool :=
  let oldTurns := thread.turns.take (thread.turns.length - compactor.keepRecent strategy)
  match compactor.workspace, strategy with
  | some append, .summarize _ =>
    match compactor.generateSummary (turnsToSummarize oldTurns) with
    | .ok summary => !(compactor.writeSummaryToWorkspace append summary).toBool
    | .error _ => false
  | some append, .moveToWorkspace =>
    !(compactor.writeContextToWorkspace append (formatTurnsForStorage oldTurns)).toBool
  | _, _ => false

/-- The thread is short enough, or its old turns cannot be stored. -/
def KeepsAllTurns (strategy : CompactionStrategy) (thread : Thread) : Prop :=
  thread.turns.length ≤ compactor.keepRecent strategy ∨
    compactor.storageFails strategy thread = true

instance (strategy : CompactionStrategy) (thread : Thread) :
    Decidable (compactor.KeepsAllTurns strategy thread) :=
  inferInstanceAs (Decidable (_ ∨ _))

/-- A thread with the turns that the strategy keeps. -/
def kept (strategy : CompactionStrategy) (thread : Thread) : Thread :=
  if compactor.KeepsAllTurns strategy thread then thread
  else thread.truncateTurns (compactor.keepRecent strategy)

end Compactor

theorem truncateTurns_frame (keep : Nat) (thread : Thread) :
    (thread.truncateTurns keep).updatedAt = thread.updatedAt ∧
      (thread.truncateTurns keep).pendingApproval = thread.pendingApproval := by
  unfold Thread.truncateTurns
  split <;> exact ⟨rfl, rfl⟩

open Compactor

theorem truncateTurns_of_le {keep : Nat} {thread : Thread} (h : thread.turns.length ≤ keep) :
    thread.truncateTurns keep = thread := by
  unfold Thread.truncateTurns
  rw [if_neg (not_lt.2 h)]

section Kept

variable {compactor : Compactor} {strategy : CompactionStrategy} {thread : Thread}

/-- Old turns stay only if they cannot be stored. -/
theorem kept_eq : compactor.kept strategy thread =
      if compactor.storageFails strategy thread then thread
      else thread.truncateTurns (compactor.keepRecent strategy) := by
  unfold kept
  by_cases hle : thread.turns.length ≤ compactor.keepRecent strategy
  · rw [truncateTurns_of_le hle, ite_self, ite_self]
  · exact if_congr (or_iff_right hle) rfl rfl

theorem kept_truncate (compactor : Compactor) (keep : Nat) (thread : Thread) :
    compactor.kept (.truncate keep) thread = thread.truncateTurns keep := by
  rw [kept_eq]
  unfold storageFails
  cases compactor.workspace <;> rfl

theorem kept_summarize {keep : Nat} {result : CompactionPartial} {compacted : Thread}
    (h : compactor.compactWithSummary keep thread = .ok (result, compacted)) :
    compacted = compactor.kept (.summarize keep) thread := by
  have hkeep : compactor.keepRecent (.summarize keep) = keep := rfl
  unfold compactWithSummary at h
  rw [kept_eq, hkeep]
  by_cases hle : thread.turns.length ≤ keep
  · rw [if_pos hle] at h
    cases h
    rw [truncateTurns_of_le hle, ite_self]
  · rw [if_neg hle] at h
    unfold storageFails
    cases hsummary : compactor.generateSummary
      (turnsToSummarize (thread.turns.take (thread.turns.length - keep))) with
    | error e =>
      simp only [hsummary] at h
      cases h
    | ok summary =>
      simp only [hsummary, bind, Except.bind] at h
      cases hworkspace : compactor.workspace with
      | none =>
        simp only [hworkspace] at h
        cases h
        rfl
      | some append =>
        simp only [hworkspace] at h
        cases hwrite : compactor.writeSummaryToWorkspace append summary with
        | ok stored =>
          simp only [hwrite] at h
          cases h
          simp [hkeep, hsummary, hwrite, Except.toBool]
        | error e =>
          simp only [hwrite] at h
          cases h
          simp [hkeep, hsummary, hwrite, Except.toBool]

theorem kept_moveToWorkspace (compactor : Compactor) (thread : Thread) :
    (compactor.compactToWorkspace thread).2 = compactor.kept .moveToWorkspace thread := by
  unfold compactToWorkspace
  rw [kept_eq]
  split
  · rename_i hworkspace
    simp [storageFails, keepRecent, hworkspace, compactTruncate]
  · rename_i append hworkspace
    have hkeep : compactor.keepRecent .moveToWorkspace = 10 := by
      simp [keepRecent, hworkspace]
    simp only [hkeep]
    split
    · rename_i hle
      rw [truncateTurns_of_le hle, ite_self]
    · split
      · rename_i hwrite
        simp [storageFails, hworkspace, hkeep, hwrite, Except.toBool]
      · rename_i e hwrite
        simp [storageFails, hworkspace, hkeep, hwrite, Except.toBool]

/-- A compaction does not stamp the thread and leaves its approval alone. -/
theorem kept_frame (compactor : Compactor) (strategy : CompactionStrategy) (thread : Thread) :
    (compactor.kept strategy thread).updatedAt = thread.updatedAt ∧
      (compactor.kept strategy thread).pendingApproval = thread.pendingApproval := by
  unfold kept
  split
  · exact ⟨rfl, rfl⟩
  · exact truncateTurns_frame _ _

end Kept

/-- A compaction leaves the turns that its strategy keeps. -/
theorem compact_eq_kept {compactor : Compactor} {serde : SerdeJson}
    {monitor : ContextMonitor} {strategy : CompactionStrategy} {thread compacted : Thread}
    {result : CompactionResult}
    (h : compactor.compact serde monitor strategy thread = .ok (result, compacted)) :
    compacted = compactor.kept strategy thread := by
  unfold compact at h
  cases hstrategy : compactor.compactPartial strategy thread with
  | error e =>
    simp only [hstrategy] at h
    cases h
  | ok done =>
    rcases done with ⟨part, after⟩
    simp only [hstrategy] at h
    have hafter : after = compactor.kept strategy thread := by
      cases strategy with
      | summarize keep => exact kept_summarize hstrategy
      | truncate keep =>
        cases hstrategy
        exact (kept_truncate _ keep _).symm
      | moveToWorkspace =>
        rw [← kept_moveToWorkspace]
        rw [compactPartial, Except.ok.injEq] at hstrategy
        rw [hstrategy]
    cases h
    exact hafter

/-- No turn is lost exactly if the strategy keeps all of them. -/
theorem length_kept_iff (compactor : Compactor) (strategy : CompactionStrategy) (thread : Thread) :
    (compactor.kept strategy thread).turns.length = thread.turns.length ↔
      compactor.KeepsAllTurns strategy thread := by
  unfold kept
  by_cases hkeeps : compactor.KeepsAllTurns strategy thread
  · rw [if_pos hkeeps]
    exact iff_of_true rfl hkeeps
  · rw [if_neg hkeeps, length_truncateTurns]
    have hlong : ¬ thread.turns.length ≤ compactor.keepRecent strategy := fun h => hkeeps (.inl h)
    exact iff_of_false (by omega) hkeeps

/-! ## Automatic compaction -/

section Auto

variable (compactor : Compactor) (serde : SerdeJson) (monitor : ContextMonitor)

/-- Compact a snapshot and put it in place of the thread. -/
def compactSnapshot (snapshot : Thread) : Handler Unit :=
  match monitor.suggestCompaction (snapshot.messages serde) with
  | none => pure ()
  | some strategy =>
    match compactor.compact serde monitor strategy snapshot with
    | .error _ => pure ()
    | .ok (_, compacted) => perform (.applyCompactionIfFresh compacted)

/-- Compact the context of a thread if it has grown too large. -/
def maybeCompactContext : Handler Unit := do
  let snapshot ← perform .readThread
  compactSnapshot compactor serde monitor snapshot

end Auto

/-- The thread is as it was when the snapshot was taken. -/
def Untouched (snapshot live : Thread) : Prop :=
  live.updatedAt = snapshot.updatedAt ∧ live.turns = snapshot.turns

/-- The compacted turns reach a thread that has not been touched, and a thread that has
been touched stays exactly as it was. -/
def TakesEffect (snapshot compacted live after : Thread) : Prop :=
  (Untouched snapshot live → after.turns = compacted.turns) ∧
    (¬ Untouched snapshot live → after = live)

/-- The run of an automatic compaction of a snapshot, in a state `w` that other handlers may
have reached since the snapshot was taken, takes effect exactly if an untouched thread keeps
all its turns, and a touched thread can be told from the compacted snapshot. -/
theorem autoCompaction_iff (compactor : Compactor) (serde : SerdeJson) (monitor : ContextMonitor)
    (snapshot : Thread) (w : World) {strategy : CompactionStrategy} {result : CompactionResult}
    {compacted : Thread}
    (hsuggest : monitor.suggestCompaction (snapshot.messages serde) = some strategy)
    (hcompact : compactor.compact serde monitor strategy snapshot = .ok (result, compacted)) :
    TakesEffect snapshot compacted w.thread
        (runHandler serde (compactSnapshot compactor serde monitor snapshot) w).2.thread ↔
      (Untouched snapshot w.thread → compactor.KeepsAllTurns strategy snapshot) ∧
        (¬ Untouched snapshot w.thread → w.thread.updatedAt ≠ snapshot.updatedAt ∨
            w.thread.turns.length ≠ (compactor.kept strategy snapshot).turns.length ∨
              w.thread = compactor.kept strategy snapshot) := by
  have hafter : (runHandler serde (compactSnapshot compactor serde monitor snapshot) w).2.thread =
      applyCompactionIfFresh compacted w.thread := by
    simp only [compactSnapshot, hsuggest, hcompact]
    rfl
  have hupdated := (kept_frame compactor strategy snapshot).1
  rw [← compact_eq_kept hcompact] at hupdated
  rw [hafter, applyCompactionIfFresh, hupdated, ← length_kept_iff,
    ← compact_eq_kept hcompact]
  refine and_congr ?_ ?_
  · refine forall_congr' fun huntouched => ?_
    rw [huntouched.1, huntouched.2]
    by_cases hlen : snapshot.turns.length = compacted.turns.length
    · rw [if_pos ⟨rfl, hlen⟩]
      exact iff_of_true rfl hlen.symm
    · rw [if_neg fun h => hlen h.2, huntouched.2]
      have hne : snapshot.turns ≠ compacted.turns := fun h => hlen (congrArg _ h)
      exact iff_of_false hne fun h => hlen h.symm
  · refine forall_congr' fun _ => ?_
    by_cases hfresh : w.thread.updatedAt = snapshot.updatedAt ∧
        w.thread.turns.length = compacted.turns.length
    · rw [if_pos hfresh]
      constructor
      · intro h
        exact .inr (.inr h.symm)
      · intro h
        rcases h with hne | hne | h
        · exact absurd hfresh.1 hne
        · exact absurd hfresh.2 hne
        · exact h.symm
    · rw [if_neg hfresh]
      refine iff_of_true rfl ?_
      by_cases hupd : w.thread.updatedAt = snapshot.updatedAt
      · exact .inr (.inl fun hlen => hfresh ⟨hupd, hlen⟩)
      · exact .inl hupd

/-- A monitor for a full context. -/
def fullMonitor : ContextMonitor where
  estimateTokens := fun _ => 100000
  usagePercent := fun _ => "100.0"
  suggestCompaction := fun _ => some (.truncate 3)

/-- A compactor without workspace and without model. -/
def offlineCompactor : Compactor where
  complete := fun _ => .error "offline"
  workspace := none
  date := "2026-01-01"
  time := "00:00 UTC"

/-- A thread with one turn for each input. -/
def threadOf (inputs : List String) : Thread :=
  inputs.foldl (fun thread input => (thread.startTurn 1 input).completeTurn 1 "ok")
    (Thread.init 0 0 0)

theorem autoCompaction_two_turns :
    TakesEffect (threadOf ["a", "b"]) (threadOf ["a", "b"]) (threadOf ["a", "b"])
      (runHandler nullSerde (compactSnapshot offlineCompactor nullSerde fullMonitor
          (threadOf ["a", "b"])) (World.init.setThread (threadOf ["a", "b"]))).2.thread :=
  (autoCompaction_iff offlineCompactor nullSerde fullMonitor
    (threadOf ["a", "b"]) (World.init.setThread (threadOf ["a", "b"])) rfl rfl).2
    ⟨fun _ => by decide, fun h => absurd ⟨rfl, rfl⟩ h⟩

/-- A full context of four turns is cut to three, and the thread keeps all four. -/
theorem autoCompaction_four_turns :
    offlineCompactor.compactPartial (.truncate 3) (threadOf ["a", "b", "c", "d"]) =
        .ok (compactTruncate 3 (threadOf ["a", "b", "c", "d"])) ∧
      ¬ TakesEffect (threadOf ["a", "b", "c", "d"])
        (compactTruncate 3 (threadOf ["a", "b", "c", "d"])).2
        (threadOf ["a", "b", "c", "d"])
        (runHandler nullSerde (compactSnapshot offlineCompactor nullSerde fullMonitor
            (threadOf ["a", "b", "c", "d"]))
          (World.init.setThread (threadOf ["a", "b", "c", "d"]))).2.thread := by
  refine ⟨rfl, fun h => ?_⟩
  have hturns := h.1 ⟨rfl, rfl⟩
  revert hturns
  decide

end Axinite.Compaction
