import Axinite.Foundation.Runs
import Axinite.Foundation.Trail
import Axinite.Session.Turn

/-!
# Job state machine

A job moves between eight states along the edges of a fixed table and keeps the history of
its transitions.  The history is cut at its old end when it grows too long, and a rollback
takes the newest transition back without consulting the table.

Main results:

- Theorem `transitionTo_cases`: a transition is refused, or it is permitted and recorded.
- Theorem `historyOk_step`: every operation keeps the history in order.
- Theorem `history_run`: the history of every job that the operations can produce.
- Theorem `rollback_undoes_iff`: the transitions that a rollback undoes.
-/

namespace Axinite.Context

open Json Foundation List

/-! ## States -/

inductive JobState where
  | pending
  | inProgress
  | completed
  | submitted
  | accepted
  | failed
  | stuck
  | cancelled
  deriving DecidableEq, Repr

namespace JobState

/-- The state allows a transition to another state. -/
def canTransitionTo : JobState → JobState → Bool
  | pending, inProgress | pending, cancelled => true
  | inProgress, completed | inProgress, failed | inProgress, stuck | inProgress, cancelled => true
  | completed, submitted | completed, failed => true
  | submitted, accepted | submitted, failed => true
  | stuck, inProgress | stuck, failed | stuck, cancelled => true
  | _, _ => false

/-- No work is left for a job in this state. -/
def isTerminal : JobState → Bool
  | accepted | failed | cancelled => true
  | _ => false

/-- The job counts as active. -/
def isActive (state : JobState) : Bool :=
  !state.isTerminal

/-- Name of the state. -/
def display : JobState → String
  | pending => "pending"
  | inProgress => "in_progress"
  | completed => "completed"
  | submitted => "submitted"
  | accepted => "accepted"
  | failed => "failed"
  | stuck => "stuck"
  | cancelled => "cancelled"

/-- The states that carry the time at which work on the job ended. -/
def endsWork : JobState → Bool
  | completed | accepted | failed | cancelled => true
  | _ => false

/-- A terminal state allows no transition. -/
theorem canTransitionTo_of_isTerminal {state : JobState} (h : state.isTerminal = true)
    (target : JobState) : state.canTransitionTo target = false := by
  cases state <;> first | rfl | cases h

/-- Only a job that is neither ended nor submitted gets back to work. -/
theorem canTransitionTo_running {state target : JobState}
    (hcan : state.canTransitionTo target = true) (hends : target.endsWork = false)
    (hsubmitted : target ≠ .submitted) : state.endsWork = false ∧ state ≠ .submitted := by
  cases target with
  | pending | inProgress | stuck =>
    cases state <;> first | exact ⟨rfl, by decide⟩ | cases hcan
  | submitted => exact absurd rfl hsubmitted
  | _ => cases hends

end JobState

/-! ## Contexts -/

/-- A state transition event. -/
structure StateTransition where
  fromState : JobState
  toState : JobState
  timestamp : Timestamp
  reason : Option String
  deriving DecidableEq

inductive JobRecoveryError where
  | notStuck
  | invariantViolation (reason : String)
  deriving DecidableEq

def JobRecoveryError.display : JobRecoveryError → String
  | notStuck => "Job is not stuck"
  | invariantViolation reason => "Recovery invariant violated: " ++ reason

/-- Context of a job. -/
structure JobContext where
  jobId : Uuid
  state : JobState
  userId : String
  title : String
  description : String
  totalTokensUsed : Nat
  maxTokens : Nat
  createdAt : Timestamp
  startedAt : Option Timestamp
  completedAt : Option Timestamp
  repairAttempts : Nat
  transitions : List StateTransition
  metadata : Value
  deriving DecidableEq

open StateTransition

variable (now : Timestamp) {ctx : JobContext}

namespace JobContext

/-- Create the context of a new job of a user. -/
def withUser (now : Timestamp) (jobId : Uuid) (userId title description : String) :
    JobContext where
  jobId := jobId
  state := .pending
  userId := userId
  title := title
  description := description
  totalTokensUsed := 0
  maxTokens := 0
  createdAt := now
  startedAt := none
  completedAt := none
  repairAttempts := 0
  transitions := []
  metadata := .null

/-- Number of transitions that are kept. -/
def maxTransitions : Nat :=
  200

/-- Append a transition and drop the oldest ones beyond the limit. -/
def recordTransition (transition : StateTransition) (transitions : List StateTransition) :
    List StateTransition :=
  let pushed := transitions ++ [transition]
  if pushed.length > maxTransitions then pushed.drop (pushed.length - maxTransitions) else pushed

def transitionTo (now : Timestamp) (newState : JobState) (reason : Option String)
    (ctx : JobContext) : Except String Unit × JobContext :=
  if ctx.state.canTransitionTo newState then
    let transition : StateTransition :=
      { fromState := ctx.state, toState := newState, timestamp := now, reason := reason }
    (.ok (),
      { ctx with
        transitions := recordTransition transition ctx.transitions
        state := newState
        startedAt :=
          if newState = .inProgress then some (ctx.startedAt.getD now) else ctx.startedAt
        completedAt := if newState.endsWork then some now else ctx.completedAt })
  else
    (.error ("Cannot transition from " ++ ctx.state.display ++ " to " ++ newState.display), ctx)

/-- The newest transition led from `previous` to the current state. -/
def lastTransitionMatchesRollback (previous : JobState) (ctx : JobContext) : Bool :=
  ctx.transitions.getLast?.any fun t => t.fromState = previous ∧ t.toState = ctx.state

/-- Set the state back after a failed persistence, without consulting the table. -/
def setStateRollback (previous : JobState) (ctx : JobContext) : JobContext :=
  if ctx.lastTransitionMatchesRollback previous then
    { ctx with
      transitions := ctx.transitions.dropLast
      state := previous
      completedAt :=
        if previous.endsWork then
          (ctx.transitions.dropLast.reverse.find? fun t => t.toState.endsWork).map
            timestamp
        else none }
  else ctx

/-- Record token usage of a model call; the counter has 64 bits. -/
def addTokens (tokens : Nat) (ctx : JobContext) : Except String Unit × JobContext :=
  let used := (ctx.totalTokensUsed + tokens) % UInt64.size
  (if ctx.maxTokens > 0 ∧ used > ctx.maxTokens then
      .error ("Token budget exceeded: used " ++ toString used ++ " of " ++
        toString ctx.maxTokens ++ " allowed tokens")
    else .ok (),
    { ctx with totalTokensUsed := used })

def markStuck (now : Timestamp) (reason : String) (ctx : JobContext) :
    Except String Unit × JobContext :=
  ctx.transitionTo now .stuck (some reason)

/-- Attempt to recover from the stuck state. -/
def attemptRecovery (now : Timestamp) (ctx : JobContext) :
    Except JobRecoveryError Unit × JobContext :=
  if ctx.state ≠ .stuck then (.error .notStuck, ctx)
  else
    let attempted := { ctx with repairAttempts := ctx.repairAttempts + 1 }
    let done := attempted.transitionTo now .inProgress (some "Recovery attempt")
    (done.1.mapError .invariantViolation, done.2)

/-- A transition is refused and changes nothing, or it is permitted and recorded. -/
theorem transitionTo_cases (newState : JobState) (reason : Option String) (ctx : JobContext) :
    (ctx.state.canTransitionTo newState = false ∧ (ctx.transitionTo now newState reason).2 = ctx) ∨
      ctx.state.canTransitionTo newState = true ∧
        (ctx.transitionTo now newState reason).2.state = newState ∧
        (ctx.transitionTo now newState reason).2.transitions =
          recordTransition ⟨ctx.state, newState, now, reason⟩ ctx.transitions := by
  unfold transitionTo
  cases h : ctx.state.canTransitionTo newState with
  | false => exact .inl ⟨rfl, rfl⟩
  | true => exact .inr ⟨rfl, rfl, rfl⟩

end JobContext

/-! ## Operations -/

/-- An operation on a context, with the time at which it happens. -/
inductive JobOp where
  | transitionTo (now : Timestamp) (newState : JobState) (reason : Option String)
  | markStuck (now : Timestamp) (reason : String)
  | attemptRecovery (now : Timestamp)
  | setStateRollback (previous : JobState)

/-- The context after an operation. -/
def JobOp.apply (ctx : JobContext) : JobOp → JobContext
  | transitionTo now newState reason => (ctx.transitionTo now newState reason).2
  | markStuck now reason => (ctx.markStuck now reason).2
  | attemptRecovery now => (ctx.attemptRecovery now).2
  | setStateRollback previous => ctx.setStateRollback previous

/-! ## The history of a job -/

open JobContext

/-- The recorded transitions are linked and lead to the current state, the table permits
each of them, and there are not too many of them. -/
structure JobContext.HistoryOk (ctx : JobContext) : Prop where
  trail : EndsAt fromState toState ctx.transitions ctx.state
  permitted : ∀ t ∈ ctx.transitions, t.fromState.canTransitionTo t.toState = true
  capped : ctx.transitions.length ≤ maxTransitions

/-- Recording a transition forgets old ones only. -/
theorem recordTransition_eq_drop (transition : StateTransition)
    (transitions : List StateTransition) :
    recordTransition transition transitions =
      (transitions ++ [transition]).drop (transitions.length + 1 - maxTransitions) := by
  unfold recordTransition
  simp only [length_append, length_singleton]
  split
  · rfl
  · rw [Nat.sub_eq_zero_of_le (by omega), drop_zero]

/-- A permitted transition from the current state keeps the history in order. -/
theorem historyOk_record {ctx next : JobContext} {transition : StateTransition}
    (h : ctx.HistoryOk) (hfrom : transition.fromState = ctx.state)
    (hpermitted : transition.fromState.canTransitionTo transition.toState = true)
    (hstate : next.state = transition.toState)
    (htransitions : next.transitions =
      recordTransition transition ctx.transitions) : next.HistoryOk := by
  rw [recordTransition_eq_drop] at htransitions
  refine ⟨?_, ?_, ?_⟩
  · rw [htransitions, hstate]
    exact (h.trail.concat hfrom).drop _
  · intro t ht
    rw [htransitions] at ht
    rcases mem_append.1 (mem_of_mem_drop ht) with hold | hnew
    · exact h.permitted t hold
    · rw [mem_singleton.1 hnew]
      exact hpermitted
  · rw [htransitions, length_drop, length_append, length_singleton]
    omega

theorem historyOk_transitionTo (h : ctx.HistoryOk) (now : Timestamp) (newState : JobState)
    (reason : Option String) : (ctx.transitionTo now newState reason).2.HistoryOk := by
  rcases ctx.transitionTo_cases now newState reason with ⟨-, hsame⟩ | ⟨hcan, hstate, hrecorded⟩
  · rw [hsame]
    exact h
  · exact historyOk_record h rfl hcan hstate hrecorded

theorem historyOk_attemptRecovery (h : ctx.HistoryOk) (now : Timestamp) :
    (ctx.attemptRecovery now).2.HistoryOk := by
  unfold attemptRecovery
  split
  · exact h
  · have hattempted : { ctx with repairAttempts := ctx.repairAttempts + 1 }.HistoryOk :=
      ⟨h.trail, h.permitted, h.capped⟩
    exact historyOk_transitionTo hattempted now _ _

/-- A rollback takes the newest transition back, so it leads to where this one started. -/
theorem historyOk_setStateRollback (h : ctx.HistoryOk) (previous : JobState) :
    (ctx.setStateRollback previous).HistoryOk := by
  unfold setStateRollback
  split
  · rename_i hmatches
    obtain ⟨t, hlast, hfrom, -⟩ : ∃ t, ctx.transitions.getLast? = some t ∧
        t.fromState = previous ∧ t.toState = ctx.state := by
      simpa [lastTransitionMatchesRollback, Option.any_eq_true] using hmatches
    have hsplit : ctx.transitions = ctx.transitions.dropLast ++ [t] :=
      (dropLast_append_getLast? t hlast).symm
    have htrail := h.trail
    rw [hsplit] at htrail
    refine ⟨?_, ?_, ?_⟩
    · rw [← hfrom]
      exact htrail.back
    · exact fun t ht => h.permitted t (dropLast_subset _ ht)
    · exact (dropLast_sublist _).length_le.trans h.capped
  · exact h

/-- Every operation keeps the history in order. -/
theorem historyOk_step (ctx : JobContext) (op : JobOp) (h : ctx.HistoryOk) :
    (op.apply ctx).HistoryOk := by
  cases op with
  | transitionTo now newState reason => exact historyOk_transitionTo h now _ _
  | markStuck now reason => exact historyOk_transitionTo h now _ _
  | attemptRecovery now => exact historyOk_attemptRecovery h now
  | setStateRollback previous => exact historyOk_setStateRollback h _

theorem historyOk_withUser (jobId : Uuid) (userId title description : String) :
    (withUser now jobId userId title description).HistoryOk :=
  ⟨endsAt_nil _ _ _, by simp [withUser], by simp [withUser]⟩

/-- After any sequence of operations on a new context the history is in order, and a terminal
state refuses every transition. -/
theorem history_run (now : Timestamp) (jobId : Uuid) (userId title description : String)
    (ops : List JobOp) :
    let ctx := ops.foldl JobOp.apply (withUser now jobId userId title description)
    ctx.HistoryOk ∧ (ctx.state = .accepted ∨ ctx.state = .failed ∨ ctx.state = .cancelled →
        ∀ later newState reason, ctx.transitionTo later newState reason =
            (.error ("Cannot transition from " ++ ctx.state.display ++ " to " ++
              newState.display), ctx)) := by
  intro ctx
  refine ⟨Runs.invariant_run _ historyOk_step
    (historyOk_withUser now _ _ _ _) ops, ?_⟩
  intro hstate later newState reason
  have hterminal : ctx.state.isTerminal = true := by
    rcases hstate with h | h | h <;> rw [h] <;> rfl
  have hrefused := JobState.canTransitionTo_of_isTerminal hterminal newState
  simp [transitionTo, hrefused]

/-! ## Undoing a transition -/

/-- The instant at which the history says that work on the job ended. -/
def lastEnd (transitions : List StateTransition) : Option Timestamp :=
  (transitions.reverse.find? fun t => t.toState.endsWork).map timestamp

/-- A job whose work has ended has the instant from its history, and a job that is not even
submitted has none. -/
structure JobContext.EndRecorded (ctx : JobContext) : Prop where
  ended : ctx.state.endsWork = true → ctx.completedAt = lastEnd ctx.transitions
  running : ctx.state.endsWork = false → ctx.state ≠ .submitted → ctx.completedAt = none

/-- The newest transition is kept when old ones are forgotten. -/
theorem lastEnd_recordTransition {transition : StateTransition}
    (h : transition.toState.endsWork = true) (transitions : List StateTransition) :
    lastEnd (recordTransition transition transitions) = some transition.timestamp := by
  have hdrop : transitions.length + 1 - maxTransitions ≤ transitions.length := by
    simp only [maxTransitions]
    omega
  rw [recordTransition_eq_drop, drop_append_of_le_length hdrop]
  simp [lastEnd, h]

theorem endRecorded_transitionTo (h : ctx.EndRecorded) (now : Timestamp) (newState : JobState)
    (reason : Option String) : (ctx.transitionTo now newState reason).2.EndRecorded := by
  unfold transitionTo
  split
  · next hcan =>
    refine ⟨fun hends => ?_, fun hends hsubmitted => ?_⟩
    · rw [lastEnd_recordTransition hends]
      exact if_pos hends
    · rw [hends]
      obtain ⟨hbefore, hunsubmitted⟩ := JobState.canTransitionTo_running hcan hends hsubmitted
      exact h.running hbefore hunsubmitted
  · exact h

theorem endRecorded_step (ctx : JobContext) (op : JobOp) (h : ctx.EndRecorded) :
    (op.apply ctx).EndRecorded := by
  cases op with
  | transitionTo now newState reason => exact endRecorded_transitionTo h now _ _
  | markStuck now reason => exact endRecorded_transitionTo h now _ _
  | attemptRecovery now =>
    simp only [JobOp.apply, attemptRecovery]
    split
    · exact h
    · have hattempted : { ctx with repairAttempts := ctx.repairAttempts + 1 }.EndRecorded :=
        ⟨h.ended, h.running⟩
      exact endRecorded_transitionTo hattempted now _ _
  | setStateRollback previous =>
    simp only [JobOp.apply, setStateRollback]
    split
    · exact ⟨fun hends => if_pos hends, fun hends _ => if_neg (by simp [hends])⟩
    · exact h

/-- What a rollback should give back of the context before the transition. -/
def JobContext.Undone (now : Timestamp) (newState : JobState) (reason : Option String)
    (ctx : JobContext) : Prop :=
  let back := (ctx.transitionTo now newState reason).2.setStateRollback ctx.state
  back.state = ctx.state ∧ back.transitions = ctx.transitions ∧
    back.startedAt.isSome = ctx.startedAt.isSome ∧ back.completedAt = ctx.completedAt

instance (now : Timestamp) (newState : JobState) (reason : Option String) (ctx : JobContext) :
    Decidable (ctx.Undone now newState reason) :=
  inferInstanceAs (Decidable (_ ∧ _ ∧ _ ∧ _))

/-- With room in the history, the rollback takes the transition back and recomputes the end. -/
theorem setStateRollback_transitionTo {newState : JobState}
    (hroom : ctx.transitions.length < maxTransitions)
    (hcan : ctx.state.canTransitionTo newState = true) (now : Timestamp) (reason : Option String) :
    (ctx.transitionTo now newState reason).2.setStateRollback ctx.state =
      { ctx with
        startedAt :=
          if newState = .inProgress then some (ctx.startedAt.getD now) else ctx.startedAt
        completedAt := if ctx.state.endsWork then lastEnd ctx.transitions else none } := by
  have hrecord : ∀ transition, recordTransition transition ctx.transitions =
      ctx.transitions ++ [transition] := by
    intro transition
    rw [recordTransition_eq_drop, Nat.sub_eq_zero_of_le (by omega), drop_zero]
  simp [transitionTo, hcan, setStateRollback, lastTransitionMatchesRollback, hrecord, lastEnd]

/-- A rollback undoes a transition exactly if the transition does not start the job, and does not
leave a submitted job that has a completion instant. -/
theorem rollback_undoes_iff (created : Timestamp) (jobId : Uuid)
    (userId title description : String) (ops : List JobOp) (now : Timestamp) (newState : JobState)
    (reason : Option String) :
    let ctx := ops.foldl JobOp.apply (withUser created jobId userId title description)
    ctx.transitions.length < maxTransitions → ctx.state.canTransitionTo newState = true →
        (ctx.Undone now newState reason ↔ (newState = .inProgress → ctx.startedAt ≠ none) ∧
            (ctx.state = .submitted → ctx.completedAt = none)) := by
  intro ctx hroom hcan
  have hrecorded : ctx.EndRecorded :=
    Runs.invariant_run _ endRecorded_step
      ⟨Bool.noConfusion, fun _ _ => rfl⟩ ops
  unfold Undone
  rw [setStateRollback_transitionTo hroom hcan]
  simp only [true_and]
  apply and_congr
  · by_cases hstarts : newState = .inProgress
    · cases ctx.startedAt <;> simp
    · simp [hstarts]
  · cases hends : ctx.state.endsWork with
    | true =>
      refine iff_of_true (hrecorded.ended hends).symm fun hsubmitted => ?_
      rw [hsubmitted] at hends
      cases hends
    | false =>
      refine ⟨fun h _ => h.symm, fun h => ?_⟩
      by_cases hsubmitted : ctx.state = .submitted
      · exact (h hsubmitted).symm
      · exact (hrecorded.running hends hsubmitted).symm

/-- A job that has been submitted. -/
def submittedOps : List JobOp :=
  [.transitionTo 1 .inProgress none, .transitionTo 2 .completed none,
    .transitionTo 3 .submitted none]

/-- A completed job that fails is rolled back as it was. -/
theorem completed_rolled_back : ((submittedOps.take 2).foldl JobOp.apply
      (withUser 0 1 "user123" "" "")).Undone 4 .failed none :=
  (rollback_undoes_iff 0 1 "user123" "" "" (submittedOps.take 2) 4 .failed none
    (by decide) (by decide)).2 (by decide)

/-- A job stays started after the rollback of its start, and the rollback of the acceptance of a
submitted job forgets when its work ended. -/
theorem rollback_leaves_traces :
    ¬ (withUser 0 1 "user123" "" "").Undone 1 .inProgress none ∧
      ¬ (submittedOps.foldl JobOp.apply
        (withUser 0 1 "user123" "" "")).Undone 4 .accepted none := by
  decide

end Axinite.Context
