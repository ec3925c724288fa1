import Axinite.Foundation.Program
import Axinite.ThreadOps.Scopes

/-!
# The shared state of the thread handlers

The handlers of one thread share the thread itself, the set of auto-approved tools
of its session, its undo manager and the rows stored for it.  `ThreadOp` lists the
critical sections of the handlers, and `exec` says what each of them does.

The clock and the supply of identifiers belong to the state.  Every critical
section sees a later time than the one before it, and identifiers are never
handed out twice.  `executed` records which approvals have had their tool run.

Main results:

- Theorem `exec_now`: time passes with every critical section.
-/

namespace Axinite.ThreadOps

open Json Llm Session Undo Foundation

/-- Role of a stored conversation message. -/
inductive RowRole where
  | user
  | assistant
  | toolCalls
  | other (name : String)
  deriving DecidableEq, Repr

/-- A stored conversation message. -/
structure ConversationMessage where
  role : RowRole
  content : String
  deriving DecidableEq, Repr

/-- Direction of a step through the undo history. -/
inductive RewindOp where
  | undo
  | redo
  deriving DecidableEq, Repr

/-- Shared state of the handlers of one thread. -/
structure World where
  thread : Thread
  autoApprovedTools : List String
  undoManager : UndoManager
  rows : List ConversationMessage
  now : Timestamp
  nextUuid : Uuid
  executed : List Uuid
  deriving DecidableEq, Repr

/-- The state around a new thread. -/
def World.init : World where
  thread := Thread.init 0 0 0
  autoApprovedTools := []
  undoManager := UndoManager.new
  rows := []
  now := 0
  nextUuid := 0
  executed := []

/-- The critical sections of the thread handlers. -/
inductive ThreadOp where
  | freshUuid
  | readThread
  | readAutoApproved
  | autoApproveTool (toolName : String)
  | takePendingApprovalIfAwaiting
  | awaitApproval (pending : PendingApproval)
  | executePrimary (requestId : Uuid)
  | writeToolCallsToThread (calls : List (String × Value))
  | recordToolOutcome (idx : Nat) (content : String) (isToolError : Bool)
  | recordLastOutcome (content : String) (isToolError : Bool)
  | enterAuthMode (extensionName : String)
  | interceptAuth (instructions : String) (pending : Option PendingApproval) (extName : String)
  | completeRejection (rejection : String)
  | finalizeTurn (response : String)
  | failTurn (error : String)
  | interruptActive
  | prepareTurn (content : String) (imageParts : List ContentPart)
  | applyCompactionIfFresh (snapshot : Thread)
  | compactIfFresh (originalUpdatedAt : Timestamp) (originalTurnsLen : Nat) (turns : List Turn)
  | restoreFromMessages (messages : List ChatMessage)
  | restoreIfFresh (originalUpdatedAt : Timestamp) (originalTurnsLen : Nat)
      (messages : List ChatMessage)
  | clearThread
  | rewind (op : RewindOp) (turn : Nat) (messages : List ChatMessage)
  | checkpoint (turn : Nat) (messages : List ChatMessage) (description : String)
  | clearUndo
  | restoreCheckpoint (checkpointId : Uuid)
  | claimAuth
  | authenticated
  | setPendingAuth (pending : PendingAuth)
  | releaseAuth
  | cancelAuth
  | persist (row : ConversationMessage)

namespace ThreadOp

/-- What a handler learns from a critical section. -/
@[reducible]
def Resp : ThreadOp → Type
  | freshUuid => Uuid
  | readThread => Thread
  | readAutoApproved => List String
  | takePendingApprovalIfAwaiting => Option PendingApproval
  | interceptAuth _ _ _ => Nat × List TurnToolCall
  | finalizeTurn _ => Option (Option (Nat × List TurnToolCall))
  | interruptActive => Bool
  | prepareTurn _ _ => Except String (List ChatMessage)
  | compactIfFresh _ _ _ => Bool
  | restoreIfFresh _ _ _ => Bool
  | rewind _ _ _ => Except String (Option Checkpoint × Nat)
  | restoreCheckpoint _ => Option Checkpoint
  | claimAuth => Option PendingAuth
  | _ => Unit

end ThreadOp

namespace World

/-- Let time pass. -/
def tick (w : World) : World :=
  { w with now := w.now + 1 }

/-- The same state `n` ticks later. -/
def later (w : World) (n : Nat) : World :=
  { w with now := w.now + n }

/-- Replace the thread. -/
def setThread (w : World) (thread : Thread) : World :=
  { w with thread := thread }

/-- Change the thread. -/
def modifyThread (w : World) (f : Thread → Thread) : World :=
  w.setThread (f w.thread)

/-- Hand out an identifier. -/
def takeUuid (w : World) : Uuid × World :=
  (w.nextUuid, { w with nextUuid := w.nextUuid + 1 })

end World

/-- The message for a step through the history that is not available. -/
def availabilityMessage (mgr : UndoManager) : RewindOp → Option String
  | .undo => if mgr.canUndo then none else some "Nothing to undo."
  | .redo => if mgr.canRedo then none else some "Nothing to redo."

/-- A step of the undo manager. -/
def performRewind (op : RewindOp) (id : Uuid) (turn : Nat) (messages : List ChatMessage)
    (mgr : UndoManager) : Option Checkpoint × UndoManager :=
  match op with
  | .undo => mgr.undo id turn messages
  | .redo => mgr.redo id turn messages

/-- Take a step that is available; answers the number of undo steps that remain. -/
def rewindIfAvailable (op : RewindOp) (id : Uuid) (turn : Nat) (messages : List ChatMessage)
    (mgr : UndoManager) : Except String (Option Checkpoint × Nat) × UndoManager :=
  match availabilityMessage mgr op with
  | some msg => (.error msg, mgr)
  | none =>
    let step := performRewind op id turn messages mgr
    (.ok (step.1, step.2.undoCount), step.2)

namespace ThreadOp

/-- Effect of a critical section at the time `w.now`. -/
def effect (serde : SerdeJson) : (op : ThreadOp) → (w : World) → op.Resp × World
  | freshUuid, w => w.takeUuid
  | readThread, w => (w.thread, w)
  | readAutoApproved, w => (w.autoApprovedTools, w)
  | autoApproveTool name, w =>
    ((), { w with autoApprovedTools := w.autoApprovedTools.insert name })
  | takePendingApprovalIfAwaiting, w =>
    let taken := ThreadOps.takePendingApprovalIfAwaiting w.now w.thread
    (taken.1, w.setThread taken.2)
  | awaitApproval pending, w => ((), w.modifyThread (Thread.awaitApproval w.now pending))
  | executePrimary requestId, w => ((), { w with executed := requestId :: w.executed })
  | writeToolCallsToThread calls, w =>
    ((), w.modifyThread (ThreadOps.writeToolCallsToThread calls))
  | recordToolOutcome idx content isToolError, w =>
    ((), w.modifyThread (ThreadOps.recordToolOutcome serde idx content isToolError))
  | recordLastOutcome content isToolError, w =>
    ((), w.modifyThread (ThreadOps.recordLastOutcome serde content isToolError))
  | enterAuthMode extensionName, w => ((), w.modifyThread (Thread.enterAuthMode w.now extensionName))
  | interceptAuth instructions pending extName, w =>
    let done := ThreadOps.interceptAuth w.now instructions pending extName w.thread
    (done.1, w.setThread done.2)
  | completeRejection rejection, w =>
    ((), w.modifyThread (ThreadOps.completeRejection w.now rejection))
  | finalizeTurn response, w =>
    let done := ThreadOps.finalizeTurn w.now response w.thread
    (done.1, w.setThread done.2)
  | failTurn error, w => ((), w.modifyThread (Thread.failTurn w.now error))
  | interruptActive, w =>
    let done := ThreadOps.interruptActive w.now w.thread
    (done.1, w.setThread done.2)
  | prepareTurn content imageParts, w =>
    let done := ThreadOps.prepareTurn serde w.now content imageParts w.thread
    (done.1, w.setThread done.2)
  | applyCompactionIfFresh snapshot, w =>
    ((), w.modifyThread (ThreadOps.applyCompactionIfFresh snapshot))
  | compactIfFresh updatedAt turnsLen turns, w =>
    let done := ThreadOps.compactIfFresh w.now updatedAt turnsLen turns w.thread
    (done.1, w.setThread done.2)
  | restoreFromMessages messages, w =>
    ((), w.modifyThread (Thread.restoreFromMessages w.now messages))
  | restoreIfFresh updatedAt turnsLen messages, w =>
    let done := ThreadOps.restoreIfFresh w.now updatedAt turnsLen messages w.thread
    (done.1, w.setThread done.2)
  | clearThread, w => ((), w.modifyThread (ThreadOps.clearThread w.now))
  | rewind op turn messages, w =>
    let step := rewindIfAvailable op w.nextUuid turn messages w.undoManager
    (step.1, { w with undoManager := step.2, nextUuid := w.nextUuid + 1 })
  | checkpoint turn messages description, w =>
    ((), { w with
      undoManager := w.undoManager.checkpoint w.nextUuid turn messages description
      nextUuid := w.nextUuid + 1 })
  | clearUndo, w => ((), { w with undoManager := w.undoManager.clear })
  | restoreCheckpoint checkpointId, w =>
    let step := w.undoManager.restore checkpointId
    (step.1, { w with undoManager := step.2 })
  | claimAuth, w =>
    let claimed := ThreadOps.claimAuth w.thread
    (claimed.1, w.setThread claimed.2)
  | authenticated, w =>
    ((), w.modifyThread fun thread =>
      Thread.clearPendingApproval w.now { thread with pendingAuth := none })
  | setPendingAuth pending, w =>
    ((), w.modifyThread fun thread => { thread with pendingAuth := some pending })
  | releaseAuth, w => ((), w.modifyThread fun thread => { thread with inFlightAuth := false })
  | cancelAuth, w =>
    ((), w.modifyThread fun thread => { thread with inFlightAuth := false, pendingAuth := none })
  | persist row, w => ((), { w with rows := w.rows ++ [row] })

/-- A critical section takes place at a new point in time. -/
def exec (serde : SerdeJson) (op : ThreadOp) (w : World) : op.Resp × World :=
  op.effect serde w.tick

theorem exec_now (serde : SerdeJson) (op : ThreadOp) (w : World) :
    (op.exec serde w).2.now = w.now + 1 := by
  cases op <;> rfl

end ThreadOp

/-- A handler: a program over critical sections. -/
abbrev Handler := Program ThreadOp ThreadOp.Resp

/-- Perform one critical section. -/
abbrev perform (op : ThreadOp) : Handler op.Resp :=
  Program.perform op

/-- Run a handler without interference. -/
def runHandler {α : Type} (serde : SerdeJson) (handler : Handler α) (w : World) : α × World :=
  Program.run (ThreadOp.exec serde) handler w

section RunHandler

variable {α β : Type} (serde : SerdeJson)

@[simp]
theorem runHandler_pure (a : α) (w : World) : runHandler serde (pure a : Handler α) w = (a, w) :=
  rfl

@[simp]
theorem runHandler_perform (op : ThreadOp) (w : World) :
    runHandler serde (perform op) w = op.exec serde w :=
  rfl

@[simp]
theorem runHandler_bind (handler : Handler α) (f : α → Handler β) (w : World) :
    runHandler serde (handler >>= f) w =
      runHandler serde (f (runHandler serde handler w).1) (runHandler serde handler w).2 :=
  Program.run_bind _ _ _ _

end RunHandler

end Axinite.ThreadOps
