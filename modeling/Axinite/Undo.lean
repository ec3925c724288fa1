import Axinite.Foundation.History
import Axinite.Foundation.Runs
import Axinite.Session.Turn

/-!
# Undo and redo of conversation checkpoints

The undo manager keeps two stacks of checkpoints.  Undo moves the current state to
the redo stack and pops the undo stack; redo does the opposite through the same
trimming push as a new checkpoint.  Redo is lossless only because both stacks
together never exceed the limit.

Main results:

- Theorem `apply_bounded`: every operation keeps both stacks within the limit.
- Theorem `undo_history`, `redo_history`: undo and redo are the moves of a linear
  history.
- Theorem `reachable_undo_redo`: bounds, losslessness and round trips of every
  manager reached by any sequence of operations.
-/

namespace Axinite.Undo

open Llm Foundation List

/-- Number of checkpoints that are kept by default. -/
def defaultMaxCheckpoints : Nat := 20

/-- A snapshot of the conversation. -/
structure Checkpoint where
  id : Uuid
  turnNumber : Nat
  messages : List ChatMessage
  description : String
  deriving DecidableEq, Repr

/-- Past and future checkpoints, the most recent one last. -/
structure UndoManager where
  undoStack : List Checkpoint
  redoStack : List Checkpoint
  maxCheckpoints : Nat
  deriving DecidableEq, Repr

/-- Drop the oldest checkpoints until the limit is met. -/
def trimOldest (maxCheckpoints : Nat) : List Checkpoint → List Checkpoint
  | [] => []
  | oldest :: rest =>
    if (oldest :: rest).length > maxCheckpoints then trimOldest maxCheckpoints rest
    else oldest :: rest

namespace UndoManager

/-- An empty manager. -/
def new : UndoManager where
  undoStack := []
  redoStack := []
  maxCheckpoints := defaultMaxCheckpoints

/-- The same manager with another limit. -/
def withMaxCheckpoints (max : Nat) (mgr : UndoManager) : UndoManager :=
  { mgr with maxCheckpoints := max }

/-- Push a checkpoint onto the undo stack and trim it to the limit. -/
def pushUndo (checkpoint : Checkpoint) (mgr : UndoManager) : UndoManager :=
  { mgr with undoStack := trimOldest mgr.maxCheckpoints (mgr.undoStack ++ [checkpoint]) }

/-- Create a checkpoint at the current state; the redo stack is dropped. -/
def checkpoint (id : Uuid) (turnNumber : Nat) (messages : List ChatMessage)
    (description : String) (mgr : UndoManager) : UndoManager :=
  let mgr := { mgr with redoStack := [] }
  mgr.pushUndo { id, turnNumber, messages, description }

/-- The checkpoint that saves the current state before a move. -/
def current (id : Uuid) (turn : Nat) (messages : List ChatMessage) : Checkpoint where
  id := id
  turnNumber := turn
  messages := messages
  description := "Turn " ++ toString turn

/-- Pop the last checkpoint and save the current state for redo. -/
def undo (id : Uuid) (currentTurn : Nat) (currentMessages : List ChatMessage)
    (mgr : UndoManager) : Option Checkpoint × UndoManager :=
  match mgr.undoStack.getLast? with
  | none => (none, mgr)
  | some checkpoint =>
    (some checkpoint,
      { mgr with
        undoStack := mgr.undoStack.dropLast
        redoStack := mgr.redoStack ++ [current id currentTurn currentMessages] })

/-- Pop the last undone state and save the current state for undo. -/
def redo (id : Uuid) (currentTurn : Nat) (currentMessages : List ChatMessage)
    (mgr : UndoManager) : Option Checkpoint × UndoManager :=
  match mgr.redoStack.getLast? with
  | none => (none, mgr)
  | some checkpoint =>
    let mgr := mgr.pushUndo (current id currentTurn currentMessages)
    (some checkpoint, { mgr with redoStack := mgr.redoStack.dropLast })

/-- An undo step is available. -/
def canUndo (mgr : UndoManager) : Bool :=
  !mgr.undoStack.isEmpty

/-- A redo step is available. -/
def canRedo (mgr : UndoManager) : Bool :=
  !mgr.redoStack.isEmpty

/-- Number of undo steps. -/
def undoCount (mgr : UndoManager) : Nat :=
  mgr.undoStack.length

/-- Number of redo steps. -/
def redoCount (mgr : UndoManager) : Nat :=
  mgr.redoStack.length

/-- Drop all checkpoints. -/
def clear (mgr : UndoManager) : UndoManager :=
  { mgr with undoStack := [], redoStack := [] }

/-- Go back to a checkpoint and drop everything after it. -/
def restore (checkpointId : Uuid) (mgr : UndoManager) : Option Checkpoint × UndoManager :=
  match mgr.undoStack.findIdx? fun c => c.id = checkpointId with
  | none => (none, mgr)
  | some pos =>
    let kept := mgr.undoStack.take (pos + 1)
    (kept.getLast?, { mgr with undoStack := kept.dropLast, redoStack := [] })

end UndoManager

open UndoManager

/-! ## Operations and the bound on both stacks -/

/-- The operations of an undo manager. -/
inductive UndoOp where
  | checkpoint (id : Uuid) (turnNumber : Nat) (messages : List ChatMessage)
      (description : String)
  | undo (id : Uuid) (currentTurn : Nat) (currentMessages : List ChatMessage)
  | redo (id : Uuid) (currentTurn : Nat) (currentMessages : List ChatMessage)
  | restore (checkpointId : Uuid)
  | clear

/-- The manager after one operation. -/
def UndoManager.apply (mgr : UndoManager) : UndoOp → UndoManager
  | .checkpoint id turn messages description => mgr.checkpoint id turn messages description
  | .undo id turn messages => (mgr.undo id turn messages).2
  | .redo id turn messages => (mgr.redo id turn messages).2
  | .restore checkpointId => (mgr.restore checkpointId).2
  | .clear => mgr.clear

/-- Both stacks together respect the limit. -/
def UndoManager.Bounded (mgr : UndoManager) : Prop :=
  mgr.undoCount + mgr.redoCount ≤ mgr.maxCheckpoints

theorem trimOldest_of_le {max : Nat} {stack : List Checkpoint} (h : stack.length ≤ max) :
    trimOldest max stack = stack := by
  cases stack with
  | nil => rfl
  | cons oldest rest => rw [trimOldest, if_neg (Nat.not_lt.2 h)]

theorem length_trimOldest_le (max : Nat) (stack : List Checkpoint) :
    (trimOldest max stack).length ≤ max := by
  induction stack with
  | nil => exact Nat.zero_le max
  | cons oldest rest ih =>
    unfold trimOldest
    split <;> rename_i h
    · exact ih
    · exact Nat.not_lt.1 h

variable {mgr mgr' : UndoManager} {id : Uuid} {turn : Nat} {messages : List ChatMessage}

/-- A move between two stacks loses nothing: the popped checkpoint is returned and
the current state is saved, or nothing happens at all. -/
def Lossless (source target source' target' : List Checkpoint) (saved : Checkpoint) :
    Option Checkpoint → Prop
  | none => source' = source ∧ target' = target
  | some cp => source = source' ++ [cp] ∧ target' = target ++ [saved]

theorem Lossless.length_eq {source target source' target' : List Checkpoint} {saved : Checkpoint}
    {cp : Option Checkpoint} (h : Lossless source target source' target' saved cp) :
    source'.length + target'.length = source.length + target.length := by
  cases cp with
  | none => rw [h.1, h.2]
  | some cp =>
    rw [h.1, h.2, length_append, length_append, length_singleton, length_singleton]
    omega

theorem undo_lossless (mgr : UndoManager) (id : Uuid) (turn : Nat) (messages : List ChatMessage) :
    Lossless mgr.undoStack mgr.redoStack (mgr.undo id turn messages).2.undoStack
      (mgr.undo id turn messages).2.redoStack (current id turn messages)
      (mgr.undo id turn messages).1 := by
  unfold undo
  cases hlast : mgr.undoStack.getLast? with
  | none => exact ⟨rfl, rfl⟩
  | some last => exact ⟨(dropLast_append_getLast? last hlast).symm, rfl⟩

variable {mgr : UndoManager}

theorem redo_lossless (hb : mgr.Bounded) (id : Uuid) (turn : Nat) (messages : List ChatMessage) :
    Lossless mgr.redoStack mgr.undoStack (mgr.redo id turn messages).2.redoStack
      (mgr.redo id turn messages).2.undoStack (current id turn messages)
      (mgr.redo id turn messages).1 := by
  unfold redo
  cases hlast : mgr.redoStack.getLast? with
  | none => exact ⟨rfl, rfl⟩
  | some last =>
    have hsplit := dropLast_append_getLast? last hlast
    refine ⟨hsplit.symm, trimOldest_of_le ?_⟩
    -- the redo stack holds an entry, so the push stays within the limit
    have hlen := congrArg List.length hsplit
    unfold Bounded undoCount redoCount at hb
    simp only [length_append, length_singleton] at hlen ⊢
    omega

open UndoManager

theorem apply_maxCheckpoints (mgr : UndoManager) (op : UndoOp) :
    (mgr.apply op).maxCheckpoints = mgr.maxCheckpoints := by
  cases op with
  | checkpoint _ _ _ _ | clear => rfl
  | undo _ _ _ | redo _ _ _ | restore _ =>
    simp only [apply, undo, redo, restore]
    split <;> rfl

theorem checkpoint_bounded (mgr : UndoManager) (id : Uuid) (turn : Nat)
    (messages : List ChatMessage) (description : String) :
    (mgr.checkpoint id turn messages description).Bounded := by
  exact length_trimOldest_le _ _

theorem restore_bounded (hb : mgr.Bounded) (checkpointId : Uuid) :
    (mgr.restore checkpointId).2.Bounded := by
  unfold Bounded undoCount redoCount at hb
  unfold restore
  split
  · exact hb
  · simp only [Bounded, undoCount, redoCount, length_dropLast, length_take, length_nil]
    omega

/-- Every operation keeps both stacks within the limit. -/
theorem apply_bounded (hb : mgr.Bounded) (op : UndoOp) : (mgr.apply op).Bounded := by
  have hmax := apply_maxCheckpoints mgr op
  cases op with
  | checkpoint id turn messages description => exact checkpoint_bounded mgr id turn messages _
  | undo id turn messages =>
    have hlength := (undo_lossless mgr id turn messages).length_eq
    unfold Bounded undoCount redoCount at *
    simp only [apply] at hmax ⊢
    omega
  | redo id turn messages =>
    have hlength := (redo_lossless hb id turn messages).length_eq
    unfold Bounded undoCount redoCount at *
    simp only [apply] at hmax ⊢
    omega
  | restore checkpointId => exact restore_bounded hb checkpointId
  | clear => exact Nat.zero_le _

/-- Managers reached from an empty one keep its limit and respect it. -/
theorem foldl_apply_bounded (max : Nat) (ops : List UndoOp) :
    (ops.foldl apply (new.withMaxCheckpoints max)).Bounded ∧
      (ops.foldl apply (new.withMaxCheckpoints max)).maxCheckpoints = max := by
  apply Runs.invariant_run fun mgr : UndoManager => mgr.Bounded ∧ mgr.maxCheckpoints = max
  · intro mgr op h
    exact ⟨apply_bounded h.1 op, (apply_maxCheckpoints mgr op).trans h.2⟩
  · exact ⟨Nat.zero_le _, rfl⟩

/-! ## Walks through the history -/

/-- The manager together with the conversation state it is fed. -/
structure Cursor where
  mgr : UndoManager
  turn : Nat
  messages : List ChatMessage

/-- The state a checkpoint stands for. -/
def entry (checkpoint : Checkpoint) : Nat × List ChatMessage :=
  (checkpoint.turnNumber, checkpoint.messages)

/-- The linear history a cursor walks through. -/
def Cursor.history (c : Cursor) : History (Nat × List ChatMessage) where
  past := (c.mgr.undoStack.map entry).reverse
  present := (c.turn, c.messages)
  future := (c.mgr.redoStack.map entry).reverse

/-- Undo once and continue from the state that was returned. -/
def Cursor.undo (id : Uuid) (c : Cursor) : Option Cursor :=
  match c.mgr.undo id c.turn c.messages with
  | (some cp, mgr) => some ⟨mgr, cp.turnNumber, cp.messages⟩
  | (none, _) => none

/-- Redo once and continue from the state that was returned. -/
def Cursor.redo (id : Uuid) (c : Cursor) : Option Cursor :=
  match c.mgr.redo id c.turn c.messages with
  | (some cp, mgr) => some ⟨mgr, cp.turnNumber, cp.messages⟩
  | (none, _) => none

/-- One undo for each identifier of the list. -/
def Cursor.undoAll : List Uuid → Cursor → Option Cursor
  | [], c => some c
  | id :: ids, c => (c.undo id).bind (undoAll ids)

/-- One redo for each identifier of the list. -/
def Cursor.redoAll : List Uuid → Cursor → Option Cursor
  | [], c => some c
  | id :: ids, c => (c.redo id).bind (redoAll ids)

variable {c c' : Cursor}

theorem Cursor.undo_eq_some {id : Uuid} (h : c.undo id = some c') :
    ∃ cp, c.mgr.undo id c.turn c.messages = (some cp, c'.mgr) ∧
      c'.turn = cp.turnNumber ∧ c'.messages = cp.messages := by
  unfold Cursor.undo at h
  rcases hundo : c.mgr.undo id c.turn c.messages with ⟨_ | cp, mgr⟩
  · simp [hundo] at h
  · obtain rfl : (⟨mgr, cp.turnNumber, cp.messages⟩ : Cursor) = c' := by simpa [hundo] using h
    exact ⟨cp, rfl, rfl, rfl⟩

open History

/-- Undo steps back in the history and keeps the bound. -/
theorem undo_history {id : Uuid} (h : c.undo id = some c') :
    c.history.back = some c'.history ∧ (c.mgr.Bounded → c'.mgr.Bounded) := by
  rcases Cursor.undo_eq_some h with ⟨cp, hundo, hturn, hmessages⟩
  have hmoved := undo_lossless c.mgr id c.turn c.messages
  rw [hundo] at hmoved
  obtain ⟨hpast, hfuture : c'.mgr.redoStack = _⟩ := hmoved
  constructor
  · simp [Cursor.history, back, hpast, hfuture, hturn, hmessages, entry, current]
  · intro hb
    have hbounded := apply_bounded hb (.undo id c.turn c.messages)
    rwa [apply, hundo] at hbounded

variable {c : Cursor}

/-- Redo of a bounded manager takes every step forward that the history has. -/
theorem redo_history (hb : c.mgr.Bounded) (id : Uuid)
    {h : History (Nat × List ChatMessage)} (hforward : c.history.forward = some h) :
    ∃ c', c.redo id = some c' ∧ c'.history = h ∧ c'.mgr.Bounded := by
  rcases hredo : c.mgr.redo id c.turn c.messages with ⟨_ | cp, mgr⟩
  · -- an empty redo stack has no step forward
    have hempty : c.mgr.redoStack = [] := by
      unfold redo at hredo
      cases hlast : c.mgr.redoStack.getLast? with
      | none => simpa using hlast
      | some last => simp [hlast] at hredo
    simp [Cursor.history, hempty, forward] at hforward
  · have hmoved := redo_lossless hb id c.turn c.messages
    have hbounded := apply_bounded hb (.redo id c.turn c.messages)
    rw [apply, hredo] at hbounded
    rw [hredo] at hmoved
    obtain ⟨hfuture, hpast : mgr.undoStack = _⟩ := hmoved
    refine ⟨⟨mgr, cp.turnNumber, cp.messages⟩, by simp [Cursor.redo, hredo], ?_, hbounded⟩
    simp only [Cursor.history, hfuture, map_append, reverse_append, map_cons, map_nil,
      reverse_singleton, singleton_append, forward, Option.some.injEq] at hforward
    rw [← hforward]
    simp [Cursor.history, hpast, entry, current]

theorem undoAll_history {ids : List Uuid} (h : Cursor.undoAll ids c = some c') :
    History.iterate History.back ids.length c.history = some c'.history ∧
      (c.mgr.Bounded → c'.mgr.Bounded) := by
  induction ids generalizing c with
  | nil =>
    obtain rfl : c = c' := by simpa [Cursor.undoAll] using h
    exact ⟨rfl, id⟩
  | cons id ids ih =>
    rw [Cursor.undoAll, Option.bind_eq_some_iff] at h
    rcases h with ⟨c₁, hstep, hrest⟩
    rcases undo_history hstep with ⟨hback, hkeep⟩
    rcases ih hrest with ⟨hiter, hkeep'⟩
    refine ⟨?_, fun hb => hkeep' (hkeep hb)⟩
    rw [length_cons, History.iterate, hback]
    exact hiter

theorem redoAll_history {ids : List Uuid} (hb : c.mgr.Bounded)
    {h : History (Nat × List ChatMessage)}
    (hiter : History.iterate History.forward ids.length c.history = some h) :
    ∃ c', Cursor.redoAll ids c = some c' ∧ c'.history = h := by
  induction ids generalizing c with
  | nil => exact ⟨c, rfl, by simpa [History.iterate] using hiter⟩
  | cons id ids ih =>
    rw [length_cons, History.iterate, Option.bind_eq_some_iff] at hiter
    rcases hiter with ⟨h₁, hforward, hrest⟩
    rcases redo_history hb id hforward with ⟨c₁, hstep, rfl, hb₁⟩
    rcases ih hb₁ hrest with ⟨c', hredo, hhist⟩
    exact ⟨c', by rw [Cursor.redoAll, hstep]; exact hredo, hhist⟩

/-! ## Reachable managers -/

/-- As many redos as undos return to the starting state and to the same entries on
both stacks. -/
theorem undoAll_redoAll (hb : mgr.Bounded) {turn : Nat}
    {messages : List ChatMessage} {ids ids' : List Uuid} (hlen : ids'.length = ids.length)
    (hundo : Cursor.undoAll ids ⟨mgr, turn, messages⟩ = some c) :
    ∃ c', Cursor.redoAll ids' c = some c' ∧ c'.turn = turn ∧ c'.messages = messages ∧
      c'.mgr.undoStack.map entry = mgr.undoStack.map entry ∧
      c'.mgr.redoStack.map entry = mgr.redoStack.map entry := by
  rcases undoAll_history hundo with ⟨hback, hkeep⟩
  have hforward := iterate_forward_of_iterate_back hback
  rw [← hlen] at hforward
  rcases redoAll_history (hkeep hb) hforward with ⟨c', hredo, hhist⟩
  have hpresent := congrArg present hhist
  have hpast := congrArg past hhist
  have hfuture := congrArg future hhist
  simp only [Cursor.history, Prod.mk.injEq, reverse_inj] at hpresent hpast hfuture
  exact ⟨c', hredo, hpresent.1, hpresent.2, hpast, hfuture⟩

/-- The undo history of every reachable manager: the limit holds for both stacks
together, undo and redo keep the number of checkpoints and lose none of them, and
redos take back undos. -/
theorem reachable_undo_redo (max : Nat) (ops : List UndoOp) :
    let mgr := ops.foldl apply (new.withMaxCheckpoints max)
    mgr.undoCount + mgr.redoCount ≤ max ∧
    (∀ id turn messages,
      (mgr.undo id turn messages).2.undoCount + (mgr.undo id turn messages).2.redoCount =
          mgr.undoCount + mgr.redoCount ∧
        Lossless mgr.undoStack mgr.redoStack (mgr.undo id turn messages).2.undoStack
          (mgr.undo id turn messages).2.redoStack (current id turn messages)
          (mgr.undo id turn messages).1) ∧
    (∀ id turn messages,
      (mgr.redo id turn messages).2.undoCount + (mgr.redo id turn messages).2.redoCount =
          mgr.undoCount + mgr.redoCount ∧
        Lossless mgr.redoStack mgr.undoStack (mgr.redo id turn messages).2.redoStack
          (mgr.redo id turn messages).2.undoStack (current id turn messages)
          (mgr.redo id turn messages).1) ∧
    (∀ turn messages ids ids' c, ids'.length = ids.length →
      Cursor.undoAll ids ⟨mgr, turn, messages⟩ = some c →
      ∃ c', Cursor.redoAll ids' c = some c' ∧ c'.turn = turn ∧ c'.messages = messages ∧
        c'.mgr.undoStack.map entry = mgr.undoStack.map entry ∧
        c'.mgr.redoStack.map entry = mgr.redoStack.map entry) := by
  intro mgr
  have hb : mgr.Bounded := (foldl_apply_bounded max ops).1
  have hmax : mgr.maxCheckpoints = max := (foldl_apply_bounded max ops).2
  refine ⟨hmax ▸ hb, ?_, ?_, ?_⟩
  · intro id turn messages
    have hlossless := undo_lossless mgr id turn messages
    exact ⟨hlossless.length_eq, hlossless⟩
  · intro id turn messages
    have hlossless := redo_lossless hb id turn messages
    have hlength := hlossless.length_eq
    exact ⟨by simp only [undoCount, redoCount]; omega, hlossless⟩
  · intro turn messages ids ids' c hlen hundo
    exact undoAll_redoAll hb hlen hundo

end Axinite.Undo
