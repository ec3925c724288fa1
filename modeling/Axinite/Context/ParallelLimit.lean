import Axinite.Context.Manager
import Axinite.Foundation.Schedule

/-!
# The limit on parallel jobs

The manager creates a job only while fewer than `maxJobs` contexts are active, and no
permitted transition makes an ended job active again.  A worker that ends a job persists the
result afterwards, and takes the transition back when that fails.  Between the two the job
does not count, so another job may be created in its place.

Main results:

- Theorem `activeCount_replace`: how replacing one context changes the number of active jobs.
- Theorem `inLimit_exec_iff`: what one critical section may do to the limit.
- Theorem `parallel_limit_iff`: an interleaving keeps the limit exactly if a rollback makes a
  job active again only while there is room for it.
-/

namespace Axinite.Context

open Json Foundation Program List

/-! ## Critical sections -/

/-- A terminal event that is persisted together with the status of the job. -/
structure TerminalEvent where
  status : JobState
  failureReason : Option String
  eventType : String
  data : Value

/-- The critical sections that change the states of jobs, and the answer of the database to
a terminal event. -/
inductive StateOp where
  | createContext (now : Timestamp) (userId title description : String)
  | insertMemory (jobId : Uuid)
  | transitionTo (jobId : Uuid) (now : Timestamp) (newState : JobState) (reason : Option String)
  | attemptRecovery (jobId : Uuid) (now : Timestamp)
  | transitionTerminalState (jobId : Uuid) (now : Timestamp) (newState : JobState)
      (reason : Option String)
  | persist (jobId : Uuid) (event : TerminalEvent) (answer : Except String Unit)
  | setStateRollback (jobId : Uuid) (previous : JobState)

/-- The states that a worker does not leave. -/
def JobState.endsWorker : JobState → Bool
  | .completed | .failed | .stuck | .cancelled => true
  | _ => false

/-- The transition of a worker at its end, together with the state before it. -/
def JobContext.transitionTerminal (now : Timestamp) (newState : JobState)
    (reason : Option String) (ctx : JobContext) :
    (JobState × Except String Unit) × JobContext :=
  if ctx.state.endsWorker then
    ((ctx.state, .error ("Cannot transition from terminal worker state " ++ ctx.state.display)),
      ctx)
  else
    let done := ctx.transitionTo now newState reason
    ((ctx.state, done.1), done.2)

namespace StateOp

/-- What a critical section answers. -/
abbrev Resp : StateOp → Type
  | createContext _ _ _ _ => Except JobError Uuid
  | insertMemory _ => Unit
  | transitionTo _ _ _ _ => Except JobError (Except String Unit)
  | attemptRecovery _ _ => Except JobError (Except JobRecoveryError Unit)
  | transitionTerminalState _ _ _ _ => Except JobError (JobState × Except String Unit)
  | persist _ _ _ => Except String Unit
  | setStateRollback _ _ => Except JobError Unit

/-- Effect of a critical section. -/
def exec : (op : StateOp) → ContextManager → op.Resp × ContextManager
  | createContext now userId title description, m => m.createContext now userId title description
  | insertMemory jobId, m =>
    ((), { m with memories := m.memories.insert jobId (Memory.new jobId) })
  | transitionTo jobId now newState reason, m =>
    m.updateContext jobId (JobContext.transitionTo now newState reason)
  | attemptRecovery jobId now, m => m.updateContext jobId (JobContext.attemptRecovery now)
  | transitionTerminalState jobId now newState reason, m =>
    m.updateContext jobId (JobContext.transitionTerminal now newState reason)
  | persist _ _ answer, m => (answer, m)
  | setStateRollback jobId previous, m =>
    m.updateContext jobId fun ctx => ((), ctx.setStateRollback previous)

end StateOp

open JobContext

/-! ## Calls -/

/-- A program over the critical sections. -/
abbrev StateProgram := Program StateOp StateOp.Resp

/-- Perform one critical section. -/
abbrev atomically (op : StateOp) : StateProgram op.Resp :=
  perform op

/-- What a worker reports at its end. -/
structure TerminalOutcome where
  status : JobState
  reason : String
  statusStr : String
  message : String

namespace TerminalOutcome

/-- The outcome of `mark_completed`. -/
def completed : TerminalOutcome where
  status := .completed
  reason := "Job completed successfully"
  statusStr := "completed"
  message := "Job completed successfully"

/-- The outcome of `mark_failed`. -/
def failed (reason : String) : TerminalOutcome where
  status := .failed
  reason := reason
  statusStr := "failed"
  message := "Execution failed: " ++ reason

/-- The outcome of `mark_stuck`. -/
def stuck (reason : String) : TerminalOutcome where
  status := .stuck
  reason := reason
  statusStr := "stuck"
  message := "Job stuck: " ++ reason

/-- The event that is persisted for an outcome. -/
def event (outcome : TerminalOutcome) : TerminalEvent where
  status := outcome.status
  failureReason := some outcome.reason
  eventType := "result"
  data := .object [("status", .string outcome.statusStr),
    ("success", .bool (outcome.status = .completed)), ("message", .string outcome.message)]

end TerminalOutcome

/-- End a job: change its state, persist the result, and take the change back if that
fails. -/
def applyTerminalTransition (jobId : Uuid) (now : Timestamp) (outcome : TerminalOutcome)
    (persisted : Except String Unit) : StateProgram (Except JobError Unit) := do
  match ← atomically (.transitionTerminalState jobId now outcome.status (some outcome.reason)) with
  | .error e => pure (.error e)
  | .ok (_, .error reason) => pure (.error (.contextError jobId reason))
  | .ok (previous, .ok ()) =>
    match ← atomically (.persist jobId outcome.event persisted) with
    | .ok () => pure (.ok ())
    | .error reason =>
      let _ ← atomically (.setStateRollback jobId previous)
      pure (.error (.persistenceError jobId reason))

/-- A call that changes the states of jobs. -/
inductive StateCall where
  | createJobForUser (now : Timestamp) (userId title description : String)
  | transitionTo (jobId : Uuid) (now : Timestamp) (newState : JobState) (reason : Option String)
  | attemptRecovery (jobId : Uuid) (now : Timestamp)
  | applyTerminalTransition (jobId : Uuid) (now : Timestamp) (outcome : TerminalOutcome)
      (persisted : Except String Unit)

/-- The program of a call; its answer is dropped. -/
def StateCall.program : StateCall → StateProgram Unit
  | createJobForUser now userId title description => do
    match ← atomically (.createContext now userId title description) with
    | .error _ => pure ()
    | .ok jobId => atomically (.insertMemory jobId)
  | transitionTo jobId now newState reason => do
    let _ ← atomically (.transitionTo jobId now newState reason)
    pure ()
  | attemptRecovery jobId now => do
    let _ ← atomically (.attemptRecovery jobId now)
    pure ()
  | applyTerminalTransition jobId now outcome persisted => do
    let _ ← Context.applyTerminalTransition jobId now outcome persisted
    pure ()

/-! ## The number of active jobs -/

/-- The contribution of one job to the number of active jobs. -/
def JobContext.weight (ctx : JobContext) : Nat :=
  if ctx.state.isActive then 1 else 0

section Counting

variable {m : ContextManager} {jobId : Uuid}

/-- The manager with another context for the job. -/
def ContextManager.replace (m : ContextManager) (jobId : Uuid) (ctx : JobContext) :
    ContextManager :=
  { m with contexts := m.contexts.insert jobId ctx }

/-- Replacing a context changes the number of active jobs by the difference of the two. -/
theorem activeCount_replace {old : JobContext} (hold : m.contexts.lookup jobId = some old)
    (new : JobContext) :
    (m.replace jobId new).activeCount + old.weight = m.activeCount + new.weight := by
  have hmem : jobId ∈ m.contexts.entries.keys :=
    AList.mem_keys.1 (AList.lookup_isSome.1 (by rw [hold]; rfl))
  obtain ⟨found, before, after, hbefore, hentries, herase⟩ := exists_of_kerase hmem
  have hfound : found = old := by
    have hlookup : m.contexts.entries.dlookup jobId = some old := hold
    rw [hentries, dlookup_append, dlookup_eq_none.2 hbefore] at hlookup
    simpa using hlookup
  subst hfound
  have hnew : (m.replace jobId new).contexts.entries = ⟨jobId, new⟩ :: (before ++ after) := by
    rw [← herase]
    rfl
  unfold ContextManager.activeCount weight
  rw [hnew, hentries]
  simp only [filter_cons, filter_append]
  cases found.state.isActive <;> cases new.state.isActive <;> simp <;> omega

/-- A new context adds at most one active job. -/
theorem activeCount_replace_le (ctx : JobContext) :
    (m.replace jobId ctx).activeCount ≤ m.activeCount + 1 := by
  have hkept : ((m.contexts.entries.kerase jobId).filter
      fun entry => entry.2.state.isActive).length ≤ m.activeCount :=
    ((kerase_sublist _ _).filter _).length_le
  have hentries : (m.replace jobId ctx).contexts.entries =
      ⟨jobId, ctx⟩ :: m.contexts.entries.kerase jobId := rfl
  unfold ContextManager.activeCount at hkept ⊢
  rw [hentries, filter_cons]
  split
  · simpa using hkept
  · exact hkept.trans (Nat.le_succ _)

end Counting

open ContextManager

/-! ## One critical section -/

/-- At most `maxJobs` jobs are active. -/
def ContextManager.InLimit (m : ContextManager) : Prop :=
  m.activeCount ≤ m.maxJobs

instance (m : ContextManager) : Decidable m.InLimit :=
  inferInstanceAs (Decidable (m.activeCount ≤ m.maxJobs))

/-- A rollback makes an ended job active again only while there is room for it. -/
def HasRoom : StateOp → ContextManager → Prop
  | .setStateRollback jobId previous, m =>
    ∀ ctx ∈ m.contexts.lookup jobId, ctx.state.isActive = false →
      (ctx.setStateRollback previous).state.isActive = true → m.activeCount < m.maxJobs
  | _, _ => True

instance (op : StateOp) (m : ContextManager) : Decidable (HasRoom op m) := by
  cases op with
  | setStateRollback jobId previous =>
    exact match h : m.contexts.lookup jobId with
    | none => .isTrue (by simp [HasRoom, h])
    | some ctx => decidable_of_iff (ctx.state.isActive = false →
        (ctx.setStateRollback previous).state.isActive = true → m.activeCount < m.maxJobs)
        (by simp [HasRoom, h])
  | _ => exact .isTrue trivial

/-- The two contexts differ as permitted transitions may differ: the second one is active
only if the first one is. -/
def NotReactivated (ctx ctx' : JobContext) : Prop :=
  ctx'.state.isActive = true → ctx.state.isActive = true

theorem weight_le_of_notReactivated {ctx ctx' : JobContext} (h : NotReactivated ctx ctx') :
    ctx'.weight ≤ ctx.weight := by
  unfold weight
  cases hactive : ctx'.state.isActive with
  | false => exact Nat.zero_le _
  | true => rw [h hactive]

theorem notReactivated_transitionTo (now : Timestamp) (newState : JobState)
    (reason : Option String) (ctx : JobContext) :
    NotReactivated ctx (ctx.transitionTo now newState reason).2 := by
  intro hactive
  rcases ctx.transitionTo_cases now newState reason with ⟨-, hsame⟩ | ⟨hcan, -, -⟩
  · rwa [hsame] at hactive
  · -- a state with a permitted transition is not terminal
    cases hterminal : ctx.state.isTerminal with
    | false => simp [JobState.isActive, hterminal]
    | true => rw [JobState.canTransitionTo_of_isTerminal hterminal] at hcan; cases hcan

theorem notReactivated_attemptRecovery (now : Timestamp) (ctx : JobContext) :
    NotReactivated ctx (ctx.attemptRecovery now).2 := by
  unfold attemptRecovery
  split
  · exact fun h => h
  · exact notReactivated_transitionTo now _ _
      _

theorem notReactivated_transitionTerminal (now : Timestamp) (newState : JobState)
    (reason : Option String) (ctx : JobContext) :
    NotReactivated ctx (ctx.transitionTerminal now newState reason).2 := by
  unfold transitionTerminal
  split
  · exact fun h => h
  · exact notReactivated_transitionTo now _ _ ctx

section Updates

variable {m : ContextManager} (hlimit : m.InLimit)
include hlimit

/-- An update that makes no ended job active keeps the limit. -/
theorem inLimit_updateContext {R : Type} {jobId : Uuid} {f : JobContext → R × JobContext}
    (h : ∀ ctx, NotReactivated ctx (f ctx).2) : (m.updateContext jobId f).2.InLimit := by
  cases hctx : m.contexts.lookup jobId with
  | none =>
    rw [updateContext_of_lookup_eq_none hctx]
    exact hlimit
  | some ctx =>
    rw [updateContext_of_lookup hctx]
    have hcount := activeCount_replace hctx (f ctx).2
    have hweight := weight_le_of_notReactivated (h ctx)
    have hmax : (m.replace jobId (f ctx).2).activeCount ≤ m.maxJobs := by
      unfold InLimit at hlimit
      omega
    exact hmax

theorem inLimit_createContext (now : Timestamp) (userId title description : String) :
    (m.createContext now userId title description).2.InLimit := by
  unfold createContext
  split
  · exact hlimit
  · rename_i hroom
    have hcount : (m.replace m.nextUuid (withUser now m.nextUuid userId title
        description)).activeCount ≤ m.activeCount + 1 := activeCount_replace_le _
    exact hcount.trans (Nat.lt_of_not_le hroom)

/-- A rollback keeps the limit exactly if there is room for a job that it makes active. -/
theorem inLimit_rollback_iff (jobId : Uuid) (previous : JobState) :
    (m.updateContext jobId fun ctx => ((), ctx.setStateRollback previous)).2.InLimit ↔
      HasRoom (.setStateRollback jobId previous) m := by
  unfold HasRoom
  cases hctx : m.contexts.lookup jobId with
  | none =>
    rw [updateContext_of_lookup_eq_none hctx]
    exact iff_of_true hlimit (by simp [hctx])
  | some ctx =>
    rw [updateContext_of_lookup hctx]
    simp only [hctx, Option.mem_def, Option.some.injEq, forall_eq']
    show (m.replace jobId (ctx.setStateRollback previous)).activeCount ≤ m.maxJobs ↔ _
    have hcount := activeCount_replace hctx (ctx.setStateRollback previous)
    unfold InLimit at hlimit
    by_cases hback : ctx.state.isActive = false ∧
        (ctx.setStateRollback previous).state.isActive = true
    · simp only [weight, hback.1, hback.2, Bool.false_eq_true, if_false, if_true] at hcount
      simp only [hback.1, hback.2, forall_const]
      omega
    · refine iff_of_true ?_ fun hended hactive => absurd ⟨hended, hactive⟩ hback
      have hkept : NotReactivated ctx (ctx.setStateRollback previous) := fun hactive =>
        by_contra fun hended => hback ⟨eq_false_of_ne_true hended, hactive⟩
      have hweight := weight_le_of_notReactivated hkept
      omega

/-- A critical section keeps the limit exactly if it has room for what it makes active. -/
theorem inLimit_exec_iff (op : StateOp) : (op.exec m).2.InLimit ↔ HasRoom op m := by
  cases op with
  | createContext now userId title description =>
    exact iff_of_true (inLimit_createContext hlimit now _ _ _) trivial
  | insertMemory jobId => exact iff_of_true hlimit trivial
  | transitionTo jobId now newState reason =>
    exact iff_of_true
      (inLimit_updateContext hlimit (notReactivated_transitionTo now _ _)) trivial
  | attemptRecovery jobId now =>
    exact iff_of_true (inLimit_updateContext hlimit (notReactivated_attemptRecovery now)) trivial
  | transitionTerminalState jobId now newState reason =>
    exact iff_of_true
      (inLimit_updateContext hlimit (notReactivated_transitionTerminal now _ _))
      trivial
  | persist jobId event answer => exact iff_of_true hlimit trivial
  | setStateRollback jobId previous => exact inLimit_rollback_iff hlimit _ _

end Updates

/-! ## Interleavings -/

/-- The configuration after one choice of the scheduler. -/
abbrev stateMove : Config StateOp StateOp.Resp ContextManager → Move StateCall →
    Config StateOp StateOp.Resp ContextManager :=
  Config.move StateOp.exec StateCall.program

theorem inLimit_move_iff (c : Config StateOp StateOp.Resp ContextManager) (move : Move StateCall)
    (hlimit : c.shared.InLimit) :
    (stateMove c move).shared.InLimit ↔ c.MoveOk HasRoom move := by
  cases move with
  | spawn call => exact iff_of_true hlimit trivial
  | advance i =>
    simp only [Config.move, Config.MoveOk]
    cases c.tasks[i]?.getD (ret ()) with
    | ret a => exact iff_of_true hlimit trivial
    | act op next => exact inLimit_exec_iff hlimit op

/-- In an interleaving of calls at most `maxJobs` jobs are active at all times exactly if every
rollback that makes an ended job active again has room for it. -/
theorem parallel_limit_iff (maxJobs : Nat) (moves : List (Move StateCall)) :
    (∀ c ∈ Runs.visited stateMove ⟨new maxJobs, []⟩ moves, c.shared.InLimit) ↔
      Runs.AllSteps stateMove (Config.MoveOk HasRoom) ⟨new maxJobs, []⟩ moves := by
  have hstart : (new maxJobs).InLimit := Nat.zero_le _
  exact Runs.forall_mem_visited_iff inLimit_move_iff hstart _

/-- One job is created and scheduled, a worker fails it, and a second job takes its place
before the database has refused the failure. -/
def replacedJob : List (Move StateCall) :=
  [.spawn (.createJobForUser 0 "user" "first" ""), .advance 0, .advance 0,
    .spawn (.transitionTo 0 1 .inProgress none), .advance 1,
    .spawn (.applyTerminalTransition 0 2 (.failed "timeout") (.error "disk full")), .advance 2,
    .spawn (.createJobForUser 3 "user" "second" ""), .advance 3, .advance 3,
    .advance 2, .advance 2]

/-- A manager for one job ends up with two active ones. -/
theorem two_active_jobs :
    (replacedJob.foldl stateMove ⟨new 1, []⟩).shared.maxJobs = 1 ∧
      (replacedJob.foldl stateMove ⟨new 1, []⟩).shared.activeCount = 2 := by
  decide +kernel

end Axinite.Context
