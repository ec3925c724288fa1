import Axinite.Context.Pairing
import Axinite.Tools

/-!
# Dispatching jobs

Dispatching creates the context of a job, stores it and hands it to the scheduler, which
starts a worker for it.  Each of these components can refuse the job after the ones before
have accepted it.  A stuck job is put back to work by a recovery, which moves it to the
state that the scheduler moves it to as well.

Main results:

- Theorem `scheduleWithContext_cases`: what scheduling a job does.
- Theorem `recoverAndSchedule_runs_iff`: the jobs that a recovery puts back to work.
- Theorem `dispatch_atomic_iff`: the requests whose failure leaves no context behind.
-/

namespace Axinite.Scheduler

open Json Context Tools Foundation

/-! ## State -/

/-- A scheduled job: its worker and whether its cancellation has to be persisted. -/
structure ScheduledJob where
  finished : Bool
  aborted : Bool
  pendingCancelPersist : Bool
  approvalContext : Option ApprovalContext

/-- The entry of a job whose worker has just been started. -/
def ScheduledJob.started (approvalContext : Option ApprovalContext) : ScheduledJob where
  finished := false
  aborted := false
  pendingCancelPersist := false
  approvalContext := approvalContext

/-- The limits of the configuration; no limit on tokens is written as zero. -/
structure SchedulerConfig where
  maxParallelJobs : Nat
  maxTokensPerJob : Nat

/-- The scheduler with the contexts of its jobs. -/
structure SchedulerState where
  config : SchedulerConfig
  contextManager : ContextManager
  jobs : AList fun _ : Uuid => ScheduledJob
  hasStore : Bool

open JobContext

/-! ## Scheduling -/

section Schedule

variable (now : Timestamp) (jobId : Uuid) (approvalContext : Option ApprovalContext)
  (s : SchedulerState)

/-- Move the job to the state in which it is worked on. -/
def startContext : Except JobError (Except String Unit) × ContextManager :=
  s.contextManager.updateContext jobId
    (transitionTo now .inProgress (some "Scheduled for execution"))

/-- Schedule a job, under the lock of the job map. -/
def scheduleWithContext : Except JobError Unit × SchedulerState :=
  if jobId ∈ s.jobs then (.ok (), s)
  else if s.jobs.entries.length ≥ s.config.maxParallelJobs then
    (.error (.maxJobsExceeded s.config.maxParallelJobs), s)
  else
    let started := startContext now jobId s
    match started.1 with
    | .error e => (.error e, { s with contextManager := started.2 })
    | .ok (.error reason) =>
      (.error (.contextError jobId reason), { s with contextManager := started.2 })
    | .ok (.ok ()) =>
      (.ok (), { s with
        contextManager := started.2
        jobs := s.jobs.insert jobId (ScheduledJob.started approvalContext) })

/-- Schedule a job without an approval context. -/
def schedule : Except JobError Unit × SchedulerState :=
  scheduleWithContext now jobId none s

end Schedule

/-- Attempt to recover a stuck job and schedule it again. -/
def recoverAndSchedule (now later : Timestamp) (jobId : Uuid) (s : SchedulerState) :
    Except JobError Unit × SchedulerState :=
  let recovered := s.contextManager.updateContext jobId (attemptRecovery now)
  let s' := { s with contextManager := recovered.2 }
  match recovered.1 with
  | .error e => (.error e, s')
  | .ok (.error e) => (.error (.contextError jobId e.display), s')
  | .ok (.ok ()) => schedule later jobId s'

/-! ## Dispatching -/

/-- A request for a new job. -/
structure JobRequest where
  userId : String
  title : String
  description : String
  metadata : Option Value

/-- The times of the steps of a dispatch, and the answer of the database. -/
structure DispatchEnv where
  createdAt : Timestamp
  scheduledAt : Timestamp
  saveJob : Except String Unit

/-- The token budget of a request, capped by the configuration. -/
def requestMaxTokens (config : SchedulerConfig) (metadata : Option Value) : Nat :=
  match (metadata.bind (Value.get "max_tokens")).bind Value.asU64 with
  | some userVal => if config.maxTokensPerJob = 0 then userVal else min userVal config.maxTokensPerJob
  | none => config.maxTokensPerJob

/-- Apply metadata and token budget to a context. -/
def applyRequest (maxTokens : Nat) (metadata : Option Value) (ctx : JobContext) : JobContext :=
  match metadata with
  | some newMetadata =>
    { ctx with
      metadata := newMetadata
      maxTokens := if maxTokens > 0 then maxTokens else ctx.maxTokens }
  | none => { ctx with maxTokens := if maxTokens > 0 then maxTokens else ctx.maxTokens }

/-- Store a job, if there is a database. -/
def saveCreated (env : DispatchEnv) (jobId : Uuid) (s : SchedulerState) : Except JobError Unit :=
  if s.hasStore then
    match s.contextManager.getContext jobId with
    | .error e => .error e
    | .ok _ => env.saveJob.mapError fun e => .failed jobId ("failed to persist job: " ++ e)
  else .ok ()

/-- Store a job, so that rows may refer to it, and schedule it. -/
def storeAndSchedule (env : DispatchEnv) (approvalContext : Option ApprovalContext)
    (jobId : Uuid) (s : SchedulerState) : Except JobError Uuid × SchedulerState :=
  match saveCreated env jobId s with
  | .error e => (.error e, s)
  | .ok () =>
    let scheduled := scheduleWithContext env.scheduledAt jobId approvalContext s
    (scheduled.1.map fun _ => jobId, scheduled.2)

/-- The part of a dispatch after the context has been created: metadata and token budget are
applied in one update. -/
def dispatchCreated (env : DispatchEnv) (request : JobRequest)
    (approvalContext : Option ApprovalContext) (jobId : Uuid) (s : SchedulerState) :
    Except JobError Uuid × SchedulerState :=
  let maxTokens := requestMaxTokens s.config request.metadata
  let applied :=
    if request.metadata.isSome ∨ maxTokens > 0 then
      s.contextManager.updateContext jobId fun ctx =>
        ((), applyRequest maxTokens request.metadata ctx)
    else (.ok (), s.contextManager)
  let s' := { s with contextManager := applied.2 }
  match applied.1 with
  | .error e => (.error e, s')
  | .ok () => storeAndSchedule env approvalContext jobId s'

open Program

/-- Create, store and schedule a job. -/
def dispatchJobInner (env : DispatchEnv) (request : JobRequest)
    (approvalContext : Option ApprovalContext) (s : SchedulerState) :
    Except JobError Uuid × SchedulerState :=
  let created := run ContextOp.exec
    (createJobForUser env.createdAt request.userId request.title request.description)
    s.contextManager
  let s' := { s with contextManager := created.2 }
  match created.1 with
  | .error e => (.error e, s')
  | .ok jobId => dispatchCreated env request approvalContext jobId s'

def dispatchJob (env : DispatchEnv) (request : JobRequest) (s : SchedulerState) :
    Except JobError Uuid × SchedulerState :=
  dispatchJobInner env request none s

/-- Dispatch a job with an approval context. -/
def dispatchJobWithContext (env : DispatchEnv) (request : JobRequest)
    (approvalContext : ApprovalContext) (s : SchedulerState) :
    Except JobError Uuid × SchedulerState :=
  dispatchJobInner env request (some approvalContext) s

/-! ## What scheduling does -/

variable (env : DispatchEnv) (now : Timestamp) {jobId : Uuid}
  (approvalContext : Option ApprovalContext) {s : SchedulerState}

/-- A job that is already scheduled stays as it is. -/
theorem scheduleWithContext_of_mem (h : jobId ∈ s.jobs) :
    scheduleWithContext now jobId approvalContext s = (.ok (), s) := by
  simp [scheduleWithContext, if_pos h]

/-- A full scheduler refuses further jobs. -/
theorem scheduleWithContext_of_full (h : jobId ∉ s.jobs)
    (hfull : s.config.maxParallelJobs ≤ s.jobs.entries.length) :
    scheduleWithContext now jobId approvalContext s =
      (.error (.maxJobsExceeded s.config.maxParallelJobs), s) := by
  simp [scheduleWithContext, if_neg h, if_pos hfull]

variable {ctx : JobContext}

/-- A job that may start is given a worker. -/
theorem scheduleWithContext_of_canStart (h : jobId ∉ s.jobs)
    (hfree : s.jobs.entries.length < s.config.maxParallelJobs)
    (hctx : s.contextManager.contexts.lookup jobId = some ctx)
    (hcan : ctx.state.canTransitionTo .inProgress = true) :
    (scheduleWithContext now jobId approvalContext s).1 = .ok () := by
  simp [scheduleWithContext, if_neg h, if_neg (Nat.not_le.2 hfree), startContext,
    updateContext_of_lookup hctx, transitionTo, hcan]

/-- A job that may not start is refused. -/
theorem scheduleWithContext_of_not_canStart (h : jobId ∉ s.jobs)
    (hfree : s.jobs.entries.length < s.config.maxParallelJobs)
    (hctx : s.contextManager.contexts.lookup jobId = some ctx)
    (hcan : ctx.state.canTransitionTo .inProgress = false) :
    ∃ reason, (scheduleWithContext now jobId approvalContext s).1 =
      .error (.contextError jobId reason) := by
  simp [scheduleWithContext, if_neg h, if_neg (Nat.not_le.2 hfree), startContext,
    updateContext_of_lookup hctx, transitionTo, hcan]

/-- Scheduling leaves the job map alone or adds one entry below the limit. -/
theorem scheduleWithContext_cases (jobId : Uuid) (approvalContext : Option ApprovalContext)
    (s : SchedulerState) :
    (scheduleWithContext now jobId approvalContext s).2.config = s.config ∧
      ((scheduleWithContext now jobId approvalContext s).2.jobs = s.jobs ∨
        jobId ∉ s.jobs ∧ s.jobs.entries.length < s.config.maxParallelJobs ∧
          (scheduleWithContext now jobId approvalContext s).2.jobs =
            s.jobs.insert jobId (ScheduledJob.started approvalContext)) := by
  by_cases hmem : jobId ∈ s.jobs
  · rw [scheduleWithContext_of_mem now approvalContext hmem]
    exact ⟨rfl, .inl rfl⟩
  by_cases hfull : s.config.maxParallelJobs ≤ s.jobs.entries.length
  · rw [scheduleWithContext_of_full now approvalContext hmem hfull]
    exact ⟨rfl, .inl rfl⟩
  simp only [scheduleWithContext, if_neg hmem, if_neg hfull]
  -- only the last branch, where the context has been started, inserts the entry
  split
  · exact ⟨rfl, .inl rfl⟩
  · exact ⟨rfl, .inl rfl⟩
  · exact ⟨rfl, .inr ⟨hmem, Nat.lt_of_not_le hfull, rfl⟩⟩

/-! ## Recovered jobs -/

/-- The call succeeded, and the job is in progress with a worker that has not finished. -/
def RunsAgain (jobId : Uuid) (done : Except JobError Unit × SchedulerState) : Prop :=
  done.1 = .ok () ∧
    (∃ ctx, done.2.contextManager.contexts.lookup jobId = some ctx ∧ ctx.state = .inProgress) ∧
    ∃ job, done.2.jobs.lookup jobId = some job ∧ job.finished = false

/-- A recovery moves a stuck job to the state in which it is worked on. -/
theorem attemptRecovery_of_stuck (h : ctx.state = .stuck) :
    (ctx.attemptRecovery now).1 = .ok () ∧ (ctx.attemptRecovery now).2.state = .inProgress := by
  simp [attemptRecovery, transitionTo, h, JobState.canTransitionTo, Except.mapError]

/-- The scheduler with another context of the job. -/
def SchedulerState.insertContext (jobId : Uuid) (ctx : JobContext) (s : SchedulerState) :
    SchedulerState :=
  { s with
    contextManager := { s.contextManager with
      contexts := s.contextManager.contexts.insert jobId ctx } }

variable {s : SchedulerState} {jobId : Uuid}

theorem recoverAndSchedule_of_stuck (now later : Timestamp)
    (hctx : s.contextManager.contexts.lookup jobId = some ctx) (hstuck : ctx.state = .stuck) :
    recoverAndSchedule now later jobId s =
      schedule later jobId (s.insertContext jobId (ctx.attemptRecovery now).2) := by
  simp only [recoverAndSchedule, updateContext_of_lookup hctx,
    (attemptRecovery_of_stuck now hstuck).1]
  rfl

/-- A job in progress that has no worker cannot be scheduled. -/
theorem not_runsAgain_of_inProgress {now : Timestamp}
    (hctx : s.contextManager.contexts.lookup jobId = some ctx)
    (hstate : ctx.state = .inProgress) (hmem : jobId ∉ s.jobs) :
    ¬ RunsAgain jobId (schedule now jobId s) := by
  rintro ⟨hok, -⟩
  rcases Nat.lt_or_ge s.jobs.entries.length s.config.maxParallelJobs with hfree | hfull
  · obtain ⟨reason, herror⟩ := scheduleWithContext_of_not_canStart now none hmem hfree hctx (by rw [hstate]; rfl)
    rw [schedule, herror] at hok
    cases hok
  · rw [schedule, scheduleWithContext_of_full now none hmem hfull] at hok
    cases hok

/-- A recovery followed by scheduling succeeds and leaves the job in progress with a running
worker exactly if the job was stuck and its worker was still running. -/
theorem recoverAndSchedule_runs_iff (now later : Timestamp) (jobId : Uuid) (s : SchedulerState) :
    RunsAgain jobId (recoverAndSchedule now later jobId s) ↔
      (∃ ctx, s.contextManager.contexts.lookup jobId = some ctx ∧ ctx.state = .stuck) ∧
        ∃ job, s.jobs.lookup jobId = some job ∧ job.finished = false := by
  cases hctx : s.contextManager.contexts.lookup jobId with
  | none =>
    simp [RunsAgain, recoverAndSchedule, updateContext_of_lookup_eq_none hctx]
  | some ctx =>
    by_cases hstuck : ctx.state = .stuck
    · have hstate := (attemptRecovery_of_stuck now hstuck).2
      have hlookup : (s.insertContext jobId
          (ctx.attemptRecovery now).2).contextManager.contexts.lookup jobId =
          some (ctx.attemptRecovery now).2 := AList.lookup_insert _
      rw [recoverAndSchedule_of_stuck now later hctx hstuck]
      by_cases hmem : jobId ∈ s.jobs
      · have hsame := scheduleWithContext_of_mem later none
          (s := s.insertContext jobId (ctx.attemptRecovery now).2) hmem
        rw [schedule, hsame]
        simp [RunsAgain, hstate, hstuck, SchedulerState.insertContext]
      · -- the recovery has moved the job already, and the scheduler may not move it again
        refine iff_of_false (not_runsAgain_of_inProgress hlookup hstate hmem) ?_
        rintro ⟨-, job, hjob, -⟩
        rw [AList.lookup_eq_none.2 hmem] at hjob
        cases hjob
    · have herror : (ctx.attemptRecovery now).1 = .error .notStuck := by
        simp [attemptRecovery, hstuck]
      simp [RunsAgain, recoverAndSchedule, updateContext_of_lookup hctx, herror, hstuck]

open ContextManager

/-- A scheduler for two jobs that knows one stuck job. -/
def stuckScheduler : SchedulerState where
  config := { maxParallelJobs := 2, maxTokensPerJob := 0 }
  contextManager := { new 2 with
    contexts := AList.singleton 0
      ([JobOp.transitionTo 1 .inProgress none, .markStuck 2 "timeout"].foldl JobOp.apply
        (withUser 0 0 "user" "title" "description"))
    nextUuid := 1 }
  jobs := ∅
  hasStore := false

/-- The scheduler is empty and the job is stuck, but it cannot be put back to work. -/
theorem stuck_job_not_rescheduled :
    ((stuckScheduler.contextManager.contexts.lookup 0).map state = some .stuck ∧
        (0 : Uuid) ∉ stuckScheduler.jobs ∧
        stuckScheduler.jobs.entries.length < stuckScheduler.config.maxParallelJobs) ∧
      ¬ RunsAgain 0 (recoverAndSchedule 3 4 0 stuckScheduler) := by
  refine ⟨by decide +kernel, fun hruns => ?_⟩
  have hok := hruns.1
  revert hok
  decide +kernel

/-! ## Failed dispatches -/

/-- The identifier of the next job is new. -/
def SchedulerState.Fresh (s : SchedulerState) : Prop :=
  s.contextManager.nextUuid ∉ s.contextManager.contexts ∧ s.contextManager.nextUuid ∉ s.jobs

/-- A failed call leaves the jobs that have a context and the number of active jobs as they
were. -/
def Atomic (s : SchedulerState) (done : Except JobError Uuid × SchedulerState) : Prop :=
  ∀ e, done.1 = .error e →
    (∀ id, id ∈ done.2.contextManager.contexts ↔ id ∈ s.contextManager.contexts) ∧
      done.2.contextManager.activeCount = s.contextManager.activeCount

/-- The manager is full, so that no context is created, or the database stores the job and
the scheduler has room for it. -/
def RefusedOrAccepted (env : DispatchEnv) (s : SchedulerState) : Prop :=
  s.contextManager.maxJobs ≤ s.contextManager.activeCount ∨
    (s.hasStore = true → env.saveJob = .ok ()) ∧
      s.jobs.entries.length < s.config.maxParallelJobs

/-- A call that fails after it has created a context is not atomic. -/
theorem not_atomic_of_leak {done : Except JobError Uuid × SchedulerState} {e : JobError} (id : Uuid)
    (herror : done.1 = .error e) (hleak : id ∈ done.2.contextManager.contexts)
    (hnew : id ∉ s.contextManager.contexts) : ¬ Atomic s done := fun hatomic =>
  hnew (((hatomic e herror).1 id).1 hleak)

/-- The state after a context has been created and the request has been applied to it. -/
structure Created (s s' : SchedulerState) (jobId : Uuid) : Prop where
  context : ∃ ctx, s'.contextManager.contexts.lookup jobId = some ctx ∧ ctx.state = .pending
  jobs : s'.jobs = s.jobs
  config : s'.config = s.config
  hasStore : s'.hasStore = s.hasStore

section

variable (request : JobRequest) (approvalContext : Option ApprovalContext) {s s' : SchedulerState}
  {jobId : Uuid}

theorem saveCreated_eq_ok_iff (h : Created s s' jobId) :
    saveCreated env jobId s' = .ok () ↔ (s.hasStore = true → env.saveJob = .ok ()) := by
  obtain ⟨ctx, hctx, -⟩ := h.context
  simp only [saveCreated, getContext, hctx, h.hasStore]
  cases hstore : s.hasStore with
  | false => simp
  | true => cases env.saveJob <;> simp [Except.mapError]

/-- Scheduling keeps the contexts of all jobs. -/
theorem mem_contexts_scheduleWithContext {now : Timestamp}
    {approvalContext : Option ApprovalContext} {id : Uuid} (h : id ∈ s.contextManager.contexts) :
    id ∈ (scheduleWithContext now jobId approvalContext s).2.contextManager.contexts := by
  have hstarted : id ∈ (startContext now jobId s).2.contexts := (mem_updateContext _ _ _ _).2 h
  unfold scheduleWithContext
  split
  · exact h
  · split
    · exact h
    · simp only
      split <;> exact hstarted

/-- Once a context has been created, a dispatch is atomic exactly if it does not fail any
more. -/
theorem storeAndSchedule_atomic_iff (h : Created s s' jobId)
    (hcontext : jobId ∉ s.contextManager.contexts) (hjob : jobId ∉ s.jobs) :
    Atomic s (storeAndSchedule env approvalContext jobId s') ↔
      (s.hasStore = true → env.saveJob = .ok ()) ∧
        s.jobs.entries.length < s.config.maxParallelJobs := by
  obtain ⟨ctx, hctx, hpending⟩ := h.context
  have hleak : jobId ∈ s'.contextManager.contexts := AList.lookup_isSome.1 (by rw [hctx]; rfl)
  have hjob' : jobId ∉ s'.jobs := by rwa [h.jobs]
  rw [← saveCreated_eq_ok_iff env h]
  unfold storeAndSchedule
  cases hsaved : saveCreated env jobId s' with
  | error e => exact iff_of_false (not_atomic_of_leak jobId rfl hleak hcontext) (by simp)
  | ok done =>
    rcases Nat.lt_or_ge s.jobs.entries.length s.config.maxParallelJobs with hfree | hfull
    · have hok := scheduleWithContext_of_canStart env.scheduledAt approvalContext hjob'
        (by rwa [h.jobs, h.config]) hctx
        (by rw [hpending]; rfl)
      refine iff_of_true (fun e herror => ?_) ⟨rfl, hfree⟩
      simp only [hok] at herror
      cases herror
    · have hrefused := scheduleWithContext_of_full env.scheduledAt approvalContext hjob'
        (by rwa [h.jobs, h.config])
      refine iff_of_false (not_atomic_of_leak (e := .maxJobsExceeded s'.config.maxParallelJobs)
        jobId ?_ ?_ hcontext) fun hboth => absurd hboth.2 (Nat.not_lt.2 hfull)
      · simp [hrefused, Except.map]
      · exact mem_contexts_scheduleWithContext hleak

/-- Applying a request keeps the new context pending. -/
theorem applyRequest_state (maxTokens : Nat) (metadata : Option Value) (ctx : JobContext) :
    (applyRequest maxTokens metadata ctx).state = ctx.state := by
  unfold applyRequest
  split <;> rfl

theorem dispatchCreated_eq (h : Created s s' jobId) :
    ∃ s'', Created s s'' jobId ∧ dispatchCreated env request approvalContext jobId s' =
      storeAndSchedule env approvalContext jobId s'' := by
  obtain ⟨ctx, hctx, hpending⟩ := h.context
  by_cases hupdate : request.metadata.isSome ∨ requestMaxTokens s'.config request.metadata > 0
  · refine ⟨s'.insertContext jobId
      (applyRequest (requestMaxTokens s'.config request.metadata) request.metadata ctx),
      ⟨⟨_, AList.lookup_insert _, ?_⟩, h.jobs, h.config, h.hasStore⟩, ?_⟩
    · rw [applyRequest_state, hpending]
    · simp only [dispatchCreated, if_pos hupdate, updateContext_of_lookup hctx]
      rfl
  · refine ⟨s', h, ?_⟩
    simp [dispatchCreated, if_neg hupdate]

/-- A dispatch is atomic exactly if the manager refuses it before a context is created, or no
later component refuses it. -/
theorem dispatchJobInner_atomic_iff (hfresh : s.Fresh) :
    Atomic s (dispatchJobInner env request approvalContext s) ↔ RefusedOrAccepted env s := by
  by_cases hfull : s.contextManager.maxJobs ≤ s.contextManager.activeCount
  · refine iff_of_true (fun e _ => ?_) (.inl hfull)
    simp only [dispatchJobInner, createJobForUser, run_bind, run_perform,
      ContextOp.exec, createContext, if_pos hfull, run_pure]
    exact ⟨fun _ => trivial, trivial⟩
  · have hcreated : Created s { s with contextManager := (run ContextOp.exec
        (createJobForUser env.createdAt request.userId request.title request.description)
        s.contextManager).2 } s.contextManager.nextUuid := by
      simp only [createJobForUser, run_bind, run_perform, ContextOp.exec,
        createContext, if_neg hfull]
      exact ⟨⟨_, AList.lookup_insert _, rfl⟩, rfl, rfl, rfl⟩
    obtain ⟨s'', hcreated', heq⟩ := dispatchCreated_eq env request approvalContext hcreated
    have hinner : dispatchJobInner env request approvalContext s =
        storeAndSchedule env approvalContext s.contextManager.nextUuid s'' := by
      rw [← heq]
      simp [dispatchJobInner, createJobForUser, ContextOp.exec, createContext, if_neg hfull]
    rw [hinner, storeAndSchedule_atomic_iff env approvalContext hcreated' hfresh.1 hfresh.2,
      RefusedOrAccepted, or_iff_right hfull]

end

/-- A failed dispatch leaves the contexts as they were exactly if the manager refuses the job
before a context is created, or no later component refuses it. -/
theorem dispatch_atomic_iff (env : DispatchEnv) (request : JobRequest) (s : SchedulerState)
    (hfresh : s.Fresh) :
    (Atomic s (dispatchJob env request s) ↔ RefusedOrAccepted env s) ∧ ∀ approvalContext,
        Atomic s (dispatchJobWithContext env request approvalContext s) ↔ RefusedOrAccepted env s :=
  ⟨dispatchJobInner_atomic_iff env request none hfresh,
    fun approvalContext => dispatchJobInner_atomic_iff env request (some approvalContext) hfresh⟩

/-- A request for a job without metadata. -/
def plainRequest : JobRequest where
  userId := "user"
  title := "title"
  description := "description"
  metadata := none

/-- The database stores every job. -/
def storingEnv : DispatchEnv where
  createdAt := 1
  scheduledAt := 2
  saveJob := .ok ()

/-- A scheduler without jobs that runs at most `maxParallelJobs` of them. -/
def emptyScheduler (maxParallelJobs : Nat) : SchedulerState where
  config := { maxParallelJobs := maxParallelJobs, maxTokensPerJob := 0 }
  contextManager := new 2
  jobs := ∅
  hasStore := true

theorem dispatch_atomic_empty : (emptyScheduler 1).Fresh ∧
      Atomic (emptyScheduler 1) (dispatchJob storingEnv plainRequest (emptyScheduler 1)) := by
  have hfresh : (emptyScheduler 1).Fresh := ⟨by decide, by decide⟩
  exact ⟨hfresh, (dispatch_atomic_iff storingEnv plainRequest (emptyScheduler 1) hfresh).1.2
    (.inr ⟨fun _ => rfl, by decide⟩)⟩

/-- The scheduler has no room for the job, and its context stays behind. -/
theorem dispatch_leaks_context : (emptyScheduler 0).Fresh ∧
      ¬ Atomic (emptyScheduler 0) (dispatchJob storingEnv plainRequest (emptyScheduler 0)) := by
  refine ⟨⟨by decide, by decide⟩, ?_⟩
  exact not_atomic_of_leak (e := .maxJobsExceeded 0) 0 (by decide +kernel)
    (by decide +kernel) (by decide)

end Axinite.Scheduler
