import Axinite.Session.Restore
import Axinite.Tools
import Axinite.Undo

/-!
# Lock scopes of the thread handlers

The handlers of a thread take the session lock several times.  Between two scopes
any other handler may run, so a scope is the unit in which a thread changes.  This
module gives the change of the thread in each scope that is more than one call of a
thread method.

Main results:

- Theorem `takePendingApprovalIfAwaiting_eq_some`: what a consumed approval implies.
-/

namespace Axinite.ThreadOps

open Json Llm Session

/-- Take the pending approval and start processing, if the thread waits for one. -/
def takePendingApprovalIfAwaiting (now : Timestamp) (thread : Thread) :
    Option PendingApproval × Thread :=
  if thread.state ≠ .awaitingApproval then (none, thread)
  else
    match thread.takePendingApproval with
    | (none, thread) => (none, thread)
    | (some pending, thread) => (some pending, { thread with state := .processing, updatedAt := now })

/-- Append redacted tool calls to the current turn. -/
def writeToolCallsToThread (calls : List (String × Value)) (thread : Thread) : Thread :=
  thread.modifyLastTurn fun turn =>
    calls.foldl (fun turn call => turn.recordToolCall call.1 call.2) turn

/-- Write an outcome into slot `idx` of the current turn; a bad index is only logged. -/
def recordToolOutcome (serde : SerdeJson) (idx : Nat) (content : String) (isToolError : Bool)
    (thread : Thread) : Thread :=
  thread.modifyLastTurn fun turn =>
    let recorded :=
      if isToolError then turn.recordToolErrorAt idx content
      else turn.recordToolResultContentAt serde idx content
    recorded.toOption.getD turn

/-- Write an outcome into the last slot of the current turn. -/
def recordLastOutcome (serde : SerdeJson) (content : String) (isToolError : Bool)
    (thread : Thread) : Thread :=
  thread.modifyLastTurn fun turn =>
    if isToolError then turn.recordToolError content
    else turn.recordToolResultContent serde content

/-- Number and tool calls of the last turn. -/
def lastTurnCalls (thread : Thread) : Option (Nat × List TurnToolCall) :=
  thread.lastTurn.map fun turn => (turn.turnNumber, turn.toolCalls)

/-- Complete the turn with the instructions, keep the approval for later and enter
auth mode. -/
def interceptAuth (now : Timestamp) (instructions : String) (pending : Option PendingApproval)
    (extName : String) (thread : Thread) : (Nat × List TurnToolCall) × Thread :=
  let thread := thread.completeTurn now instructions
  let thread :=
    match pending with
    | some pending => thread.awaitApproval now pending
    | none => thread
  let thread := thread.enterAuthMode now extName
  ((lastTurnCalls thread).getD (0, []), thread)

/-- Drop the rejected approval and complete the turn with the rejection. -/
def completeRejection (now : Timestamp) (rejection : String) (thread : Thread) : Thread :=
  (thread.clearPendingApproval now).completeTurn now rejection

/-- Complete the turn unless it was interrupted; answers what has to be persisted. -/
def finalizeTurn (now : Timestamp) (response : String) (thread : Thread) :
    Option (Option (Nat × List TurnToolCall)) × Thread :=
  if thread.state = .interrupted then (none, thread)
  else
    let thread := thread.completeTurn now response
    (some (lastTurnCalls thread), thread)

/-- Interrupt a turn that is running or waits for approval. -/
def interruptActive (now : Timestamp) (thread : Thread) : Bool × Thread :=
  match thread.state with
  | .processing | .awaitingApproval => (true, thread.interrupt now)
  | .idle | .completed | .interrupted => (false, thread)

/-- The error for input that arrives in a state that does not accept it. -/
def threadStateSubmissionResult : ThreadState → Option String
  | .processing => some "Turn in progress. Use /interrupt to cancel."
  | .awaitingApproval => some "Waiting for approval. Use /interrupt to cancel."
  | .completed => some "Thread completed. Use /thread new."
  | .idle | .interrupted => none

/-- Start a turn if the state allows it; answers the messages of the thread. -/
def prepareTurn (serde : SerdeJson) (now : Timestamp) (content : String)
    (imageParts : List ContentPart) (thread : Thread) :
    Except String (List ChatMessage) × Thread :=
  match threadStateSubmissionResult thread.state with
  | some rejected => (.error rejected, thread)
  | none =>
    let thread := (thread.startTurn now content).modifyLastTurn fun turn =>
      { turn with imageContentParts := imageParts }
    (.ok (thread.messages serde), thread)

/-- Replace the thread by a compacted snapshot, unless the thread looks changed. -/
def applyCompactionIfFresh (snapshot : Thread) (thread : Thread) : Thread :=
  if thread.updatedAt = snapshot.updatedAt ∧ thread.turns.length = snapshot.turns.length then
    snapshot
  else thread

/-- Write compacted turns back, unless the thread changed since it was read. -/
def compactIfFresh (now originalUpdatedAt : Timestamp) (originalTurnsLen : Nat)
    (turns : List Turn) (thread : Thread) : Bool × Thread :=
  if thread.updatedAt ≠ originalUpdatedAt ∨ thread.turns.length ≠ originalTurnsLen then
    (false, thread)
  else (true, { thread with turns := turns, updatedAt := now })

/-- Restore a checkpoint, unless the thread changed since it was read. -/
def restoreIfFresh (now originalUpdatedAt : Timestamp) (originalTurnsLen : Nat)
    (messages : List ChatMessage) (thread : Thread) : Bool × Thread :=
  if thread.updatedAt ≠ originalUpdatedAt ∨ thread.turns.length ≠ originalTurnsLen then
    (false, thread)
  else (true, thread.restoreFromMessages now messages)

/-- Remove all turns and everything that is pending. -/
def clearThread (now : Timestamp) (thread : Thread) : Thread :=
  { thread with
    turns := []
    state := .idle
    updatedAt := now
    pendingApproval := none
    pendingAuth := none
    inFlightAuth := false }

/-- Claim the pending authentication, if there is one that nobody has claimed. -/
def claimAuth (thread : Thread) : Option PendingAuth × Thread :=
  if thread.inFlightAuth ∨ thread.pendingAuth = none then (none, thread)
  else (thread.pendingAuth, { thread with inFlightAuth := true })

/-- A consumed approval was pending on a thread that waited for it. -/
theorem takePendingApprovalIfAwaiting_eq_some {now : Timestamp} {thread thread' : Thread}
    {pending : PendingApproval}
    (h : takePendingApprovalIfAwaiting now thread = (some pending, thread')) :
    thread.state = .awaitingApproval ∧ thread.pendingApproval = some pending ∧
      thread' = { thread with pendingApproval := none, state := .processing, updatedAt := now } := by
  unfold takePendingApprovalIfAwaiting at h
  split at h
  · simp at h
  · rename_i hstate
    simp only [Thread.takePendingApproval] at h
    cases hp : thread.pendingApproval with
    | none => simp [hp] at h
    | some p =>
      simp only [hp] at h
      rcases h with ⟨rfl, rfl⟩
      exact ⟨not_not.1 hstate, rfl, rfl⟩

/-- Without a consumed approval the thread is left as it was, up to a slot that was empty. -/
theorem takePendingApprovalIfAwaiting_eq_none {now : Timestamp} {thread thread' : Thread}
    (h : takePendingApprovalIfAwaiting now thread = (none, thread')) : thread' = thread := by
  unfold takePendingApprovalIfAwaiting at h
  split at h
  · simpa using h.symm
  · simp only [Thread.takePendingApproval] at h
    cases hp : thread.pendingApproval with
    | none =>
      obtain rfl : { thread with pendingApproval := none } = thread' := by simpa [hp] using h
      rw [← hp]
    | some p => simp [hp] at h

end Axinite.ThreadOps
