import Axinite.Submissions.Handlers

/-!
# Resuming amid changes

Resuming takes the checkpoint from the history before it looks whether the thread has changed, so
a resume that is refused for a changed thread has lost the checkpoint and all that came after it.

Main results:

- Theorem `resumeAmid_undoManager`: what is left of the history.
- Theorem `refused_resume_atomic_iff`: when a refusal leaves the history alone.
-/

namespace Axinite.Submissions

open Foundation Json Session Undo ThreadOps Approval List

/-- Run a handler while others change the thread between its critical sections. -/
def runAmid {α : Type} (serde : SerdeJson) : Handler α → List (Thread → Thread) → World → α × World
  | .ret a, _, w => (a, w)
  | .act op next, changes, w =>
    let done := op.exec serde w
    runAmid serde (next done.1) changes.tail (done.2.modifyThread (changes.headD id))

/-- Resume while others change the thread, before the history is looked at and after. -/
def resumeAmid (serde : SerdeJson) (checkpointId : Uuid) (before after : Thread → Thread)
    (w : World) : SubmissionResult × World :=
  runAmid serde (processResume checkpointId) [before, after] w

theorem runAmid_bind {α : Type} (serde : SerdeJson) (op : ThreadOp) (next : op.Resp → Handler α)
    (changes : List (Thread → Thread)) (w : World) :
    runAmid serde (perform op >>= next) changes w =
      runAmid serde (next (op.exec serde w).1) changes.tail
        ((op.exec serde w).2.modifyThread (changes.headD id)) :=
  rfl

/-- The thread is not restored. -/
def refused : SubmissionResult → Bool
  | .error _ => true
  | _ => false

/-- The checkpoint is in the history. -/
def Known (checkpointId : Uuid) (mgr : UndoManager) : Prop :=
  ∃ checkpoint ∈ mgr.undoStack, checkpoint.id = checkpointId

/-- A checkpoint that is found is taken from the history. -/
theorem restore_cases (checkpointId : Uuid) (mgr : UndoManager) :
    (¬ Known checkpointId mgr ∧ mgr.restore checkpointId = (none, mgr)) ∨
      Known checkpointId mgr ∧ ∃ checkpoint mgr', mgr' ≠ mgr ∧
        mgr.restore checkpointId = (some checkpoint, mgr') := by
  unfold UndoManager.restore
  cases hpos : mgr.undoStack.findIdx? fun c => c.id = checkpointId with
  | none =>
    refine Or.inl ⟨?_, rfl⟩
    rintro ⟨checkpoint, hmem, hid⟩
    simpa [hid] using findIdx?_eq_none_iff.1 hpos checkpoint hmem
  | some pos =>
    obtain ⟨hlt, hfound, -⟩ := findIdx?_eq_some_iff_getElem.1 hpos
    have hlast : (mgr.undoStack.take (pos + 1)).getLast? = some mgr.undoStack[pos] := by
      rw [take_succ_eq_append_getElem hlt, getLast?_concat]
    refine Or.inr ⟨⟨_, getElem_mem hlt, of_decide_eq_true hfound⟩, _, _, ?_,
      Prod.ext hlast rfl⟩
    intro hsame
    have hlength := congrArg (fun mgr => mgr.undoStack.length) hsame
    simp only [length_dropLast, length_take] at hlength
    omega

open World

theorem restoreIfFresh_fst (now updatedAt : Timestamp) (turnsLen : Nat)
    (messages : List Llm.ChatMessage) (thread : Thread) :
    (restoreIfFresh now updatedAt turnsLen messages thread).1 =
      decide (thread.updatedAt = updatedAt ∧ thread.turns.length = turnsLen) := by
  unfold restoreIfFresh
  split
  · next hchanged => exact (decide_eq_false fun h => hchanged.elim (· h.1) (· h.2)).symm
  · next hsame => exact (decide_eq_true (by simpa [not_or] using hsame)).symm

section Resume

variable (serde : SerdeJson) (checkpointId : Uuid) (before after : Thread → Thread) (w : World)

/-- The thread is as it was read, as far as the final check looks. -/
def Unchanged : Prop :=
  (after (before w.thread)).updatedAt = w.thread.updatedAt ∧
    (after (before w.thread)).turns.length = w.thread.turns.length

/-- Whatever happens to the thread, the history is the one after the restoration. -/
theorem resumeAmid_undoManager : (resumeAmid serde checkpointId before after w).2.undoManager =
      (w.undoManager.restore checkpointId).2 := by
  rw [resumeAmid, processResume, runAmid_bind, runAmid_bind]
  cases hrestored : (w.undoManager.restore checkpointId).1 with
  | none =>
    simp only [ThreadOp.exec, ThreadOp.effect, tick, modifyThread, setThread, hrestored]
    rfl
  | some checkpoint =>
    simp only [ThreadOp.exec, ThreadOp.effect, tick, modifyThread, setThread, hrestored]
    rw [runAmid_bind]
    split <;> rfl

theorem refused_resumeAmid_iff (h : Known checkpointId w.undoManager) :
    refused (resumeAmid serde checkpointId before after w).1 = true ↔
      ¬ Unchanged before after w := by
  rcases restore_cases checkpointId w.undoManager with
    ⟨hunknown, -⟩ | ⟨-, checkpoint, mgr, -, hrestored⟩
  · exact absurd h hunknown
  rw [resumeAmid, processResume, runAmid_bind, runAmid_bind]
  simp only [ThreadOp.exec, ThreadOp.effect, tick, modifyThread, setThread, hrestored]
  rw [runAmid_bind]
  have hfresh := restoreIfFresh_fst (w.now + 1 + 1 + 1) w.thread.updatedAt w.thread.turns.length
    checkpoint.messages (after (before w.thread))
  simp only [ThreadOp.exec, ThreadOp.effect, tick, tail_cons, headD_cons, hfresh]
  by_cases hsame : (after (before w.thread)).updatedAt = w.thread.updatedAt ∧
      (after (before w.thread)).turns.length = w.thread.turns.length
  · rw [decide_eq_true hsame]
    exact iff_of_false Bool.false_ne_true (not_not.2 hsame)
  · rw [decide_eq_false hsame]
    exact iff_of_true rfl hsame

/-- A refusal leaves both stacks as they were exactly if the checkpoint is not in the history, or
the thread is not changed meanwhile. -/
theorem refused_resume_atomic_iff :
    (refused (resumeAmid serde checkpointId before after w).1 = true →
        (resumeAmid serde checkpointId before after w).2.undoManager = w.undoManager) ↔
      (Known checkpointId w.undoManager → Unchanged before after w) := by
  rw [resumeAmid_undoManager]
  rcases restore_cases checkpointId w.undoManager with
    ⟨hunknown, hrestored⟩ | ⟨hknown, checkpoint, mgr, hne, hrestored⟩
  · rw [hrestored]
    exact iff_of_true (fun _ => rfl) fun hknown => absurd hknown hunknown
  · rw [refused_resumeAmid_iff serde checkpointId before after w hknown, hrestored]
    constructor
    · intro h _
      by_contra hchanged
      exact hne (h hchanged)
    · intro h hchanged
      exact absurd (h hknown) hchanged

end Resume

/-- A history with one checkpoint. -/
def oneCheckpoint : World :=
  { init with undoManager := UndoManager.new.checkpoint 7 0 [] "Turn 0" }

/-- A message that comes in while the resume runs costs the checkpoint. -/
theorem refused_resume_loses_checkpoint :
    refused (resumeAmid nullSerde 7 id (fun t => { t with updatedAt := 1 }) oneCheckpoint).1 = true ∧
      (resumeAmid nullSerde 7 id (fun t => { t with updatedAt := 1 })
        oneCheckpoint).2.undoManager.undoStack = [] ∧
      oneCheckpoint.undoManager.undoStack ≠ [] := by
  decide

end Axinite.Submissions
