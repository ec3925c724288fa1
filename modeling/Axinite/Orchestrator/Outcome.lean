import Axinite.Foundation.Observation
import Axinite.Orchestrator.Sandbox

/-!
# The outcome of a waiting call

A call that waits for its sandbox job reads the handle of the job again and again.  A handle
that is missing, or that is stopped without a result of the worker, counts as a success.  The
worker need not have said so: a cancelled or reaped job is stopped, too.

Main results:

- Theorem `recorded_exec`: results in handles have been reported by a worker.
- Theorem `safe_executeSandbox`: a call whose polls are backed by reports knows the report that
  is behind a completed output.
- Theorem `completed_on_workers_word_iff`: completed outputs have a successful report behind them
  in the runs whose polls are backed, and a poll that is not backed leads to an output without.
-/

namespace Axinite.Orchestrator

open Foundation Program List

/-! ## Operations that neither poll nor bring results -/

/-- The handle that the operation inserts. -/
def HostOp.inserted? : HostOp → Option ContainerHandle
  | insertHandle handle => some handle
  | _ => none

/-- The job whose handle the operation reads. -/
def HostOp.polled? : HostOp → Option Uuid
  | getHandle jobId => some jobId
  | _ => none

/-- The operation does not read a handle, and a handle that it inserts has no result. -/
def HostOp.Quiet (op : HostOp) : Prop :=
  (∀ handle ∈ op.inserted?, handle.completionResult = none) ∧ op.polled? = none

variable (jobId : Uuid) (now : Timestamp) (tool : CreateJobTool) {op : HostOp} {host : Host}

theorem only_on (hinserted : op.inserted? = none) (hpolled : op.polled? = none) :
    (on op).Only HostOp.Quiet := by
  refine only_perform ⟨fun handle hhandle => ?_, hpolled⟩
  rw [hinserted] at hhandle
  cases hhandle

theorem revoke_quiet : (revoke jobId).Only HostOp.Quiet :=
  (only_on rfl rfl).bind fun _ => only_on rfl rfl

theorem stopAndRemove_quiet (id : ContainerId) (answers : StopAnswers) :
    (stopAndRemove id answers).Only HostOp.Quiet :=
  (only_on rfl rfl).bind fun _ => (only_on rfl rfl).bind fun _ => trivial

theorem createAndStartContainer_quiet (answers : CreateAnswers) :
    (createAndStartContainer jobId now answers).Only HostOp.Quiet := by
  refine (only_on rfl rfl).bind_except (fun _ => trivial) fun id => ?_
  refine (only_on rfl rfl).bind_except (fun e => ?_) fun _ => trivial
  exact (only_on rfl rfl).bind fun _ => trivial

theorem createJobInner_quiet (answers : CreateAnswers) :
    (createJobInner jobId now answers).Only HostOp.Quiet := by
  refine (only_on rfl rfl).bind_except (fun _ => trivial) fun _ => ?_
  dsimp only
  split
  · exact trivial
  · refine (createAndStartContainer_quiet _ now _).bind_except (fun _ => trivial) ?_
    exact fun id => (only_on rfl rfl).bind fun _ => trivial

theorem createJob_quiet (params : CreateJobParams) (answers : CreateAnswers) :
    (createJob params answers).Only HostOp.Quiet := by
  refine (only_on rfl rfl).bind fun _ => (only_on rfl rfl).bind fun _ => ?_
  have hinsert : (on (.insertHandle params.handle)).Only HostOp.Quiet := by
    refine only_perform ⟨fun handle hhandle => ?_, rfl⟩
    cases hhandle
    rfl
  refine hinsert.bind fun _ => ?_
  refine (createJobInner_quiet _ _ _).bind_except (fun e => ?_)
    fun _ => trivial
  refine ((revoke_quiet _).bind fun _ => ?_).bind fun _ => trivial
  exact (only_on rfl rfl).bind fun _ => trivial

theorem stopJob_quiet (answers : StopAnswers) : (stopJob jobId answers).Only HostOp.Quiet := by
  refine (only_on rfl rfl).bind fun found => ?_
  cases found with
  | none => exact trivial
  | some id =>
    refine (only_on rfl rfl).bind_except (fun _ => trivial) fun _ => ?_
    refine (stopAndRemove_quiet id _).bind fun _ => (only_on rfl rfl).bind fun _ => ?_
    exact (revoke_quiet _).bind fun _ => trivial

theorem cleanupJob_quiet : (cleanupJob jobId).Only HostOp.Quiet :=
  (only_on rfl rfl).bind fun _ => trivial

theorem reportComplete_quiet (result : CompletionResult) (answers : StopAnswers) :
    (reportComplete jobId result answers).Only HostOp.Quiet := by
  refine (only_on rfl rfl).bind fun _ => .bind ?_ fun _ => revoke_quiet _
  refine (only_on rfl rfl).bind fun found => ?_
  cases found with
  | none => exact trivial
  | some id =>
    exact (only_on rfl rfl).bind_except (fun _ => trivial) fun _ => stopAndRemove_quiet id _

theorem reapWithDocker_quiet (id : ContainerId) (jobId : Uuid) (answers : ReapAnswers) :
    (reapWithDocker id jobId answers).Only HostOp.Quiet := by
  refine (stopJob_quiet _ _).bind_except (fun e => ?_) fun _ => trivial
  refine (only_on rfl rfl).bind fun _ => (only_on rfl rfl).bind_except (fun _ => trivial) ?_
  exact fun _ => (only_on rfl rfl).bind fun _ => revoke_quiet _

theorem reapOrphans_quiet (config : ReaperConfig) (now : Timestamp)
    (answers : ContainerId → ReapAnswers) (containers : List ReaperContainer) :
    (reapOrphans config now answers containers).Only HostOp.Quiet := by
  induction containers with
  | nil => exact trivial
  | cons container rest ih =>
    rw [reapOrphans]
    split
    · exact ih
    · refine (only_on rfl rfl).bind fun found => ?_
      split
      · exact ih
      · exact (reapWithDocker_quiet _ _ _).bind fun _ => ih

theorem scanAndReap_quiet (config : ReaperConfig) (now : Timestamp) (listed : Answer)
    (answers : ContainerId → ReapAnswers) :
    (scanAndReap config now listed answers).Only HostOp.Quiet :=
  (only_on rfl rfl).bind_except (fun _ => trivial) fun _ =>
    reapOrphans_quiet _ now _ _

theorem failRestart_quiet (inputs : RestartInputs) (message : String) :
    (failRestart inputs message).Only HostOp.Quiet :=
  (only_on rfl rfl).bind_except (fun _ => trivial) fun _ => trivial

theorem startRestarted_quiet (old : SandboxJobRecord) (mode : JobMode) (inputs : RestartInputs) :
    (startRestarted old mode inputs).Only HostOp.Quiet := by
  refine (createJob_quiet _ _).bind_except (fun _ => failRestart_quiet _ _) fun _ => ?_
  refine (only_on rfl rfl).bind_except (fun e => ?_) fun _ => trivial
  exact (stopJob_quiet _ _).bind_except (fun _ => trivial) fun _ => failRestart_quiet _ _

theorem restartSandboxJob_quiet (sandboxEnabled : Bool) (old : SandboxJobRecord)
    (inputs : RestartInputs) :
    (restartSandboxJob sandboxEnabled old inputs).Only HostOp.Quiet := by
  rw [restartSandboxJob]
  split
  · exact trivial
  split
  · exact trivial
  split
  · exact trivial
  · refine (only_on rfl rfl).bind_except (fun _ => trivial) fun _ => ?_
    dsimp only
    split
    · exact (only_on rfl rfl).bind_except (fun _ => failRestart_quiet _ _)
        fun _ => startRestarted_quiet old _ _
    · exact startRestarted_quiet old _ _

theorem cancelSandboxJob_quiet (sandboxEnabled : Bool) (jobId : Uuid) (finishedAt : Timestamp)
    (stop : StopAnswers) (update : Answer) :
    (cancelSandboxJob sandboxEnabled jobId finishedAt stop update).Only HostOp.Quiet := by
  rw [cancelSandboxJob]
  split
  · exact trivial
  · refine (stopJob_quiet _ stop).bind_except (fun _ => trivial) fun _ => ?_
    exact (only_on rfl rfl).bind_except (fun _ => trivial) fun _ => trivial

theorem updateStatus_quiet (transition : StatusTransition) :
    (updateStatus tool transition).Only HostOp.Quiet := by
  rw [updateStatus]
  split
  · exact only_on rfl rfl
  · exact trivial

theorem updateStatusSync_quiet (transition : StatusTransition) (answer : Answer) :
    (updateStatusSync tool transition answer).Only HostOp.Quiet := by
  rw [updateStatusSync]
  split
  · exact (only_on rfl rfl).bind fun _ => trivial
  · exact trivial

theorem persistSandboxJob_quiet (record : SandboxJobRecord) (mode : JobMode)
    (finishedAt : Timestamp) (answers : SandboxAnswers) :
    (persistSandboxJob tool record mode finishedAt answers).Only HostOp.Quiet := by
  rw [persistSandboxJob]
  split
  · exact trivial
  · refine (only_on rfl rfl).bind_except (fun _ => trivial) fun _ => ?_
    dsimp only
    split
    · refine (only_on rfl rfl).bind_except (fun e => ?_) fun _ => trivial
      exact (only_on rfl rfl).bind fun _ => trivial
    · exact trivial

section Handlers

variable (tool : CreateJobTool) (view : ContainerJobView) (finishedAt : Timestamp)
  (answers : SandboxAnswers)

theorem handleMissingContainer_quiet :
    (handleMissingContainer tool view finishedAt answers).Only HostOp.Quiet :=
  (updateStatusSync_quiet _ _ _).bind fun _ => trivial

theorem handleStoppedContainer_quiet (handle : ContainerHandle) :
    (handleStoppedContainer tool view finishedAt answers handle).Only HostOp.Quiet := by
  refine (cleanupJob_quiet _).bind fun _ => ?_
  split
  · exact (updateStatusSync_quiet _ _ _).bind fun _ => trivial
  · exact (updateStatusSync_quiet _ _ _).bind fun _ => trivial

theorem handleFailedContainer_quiet (handle : ContainerHandle) :
    (handleFailedContainer tool view finishedAt answers handle).Only HostOp.Quiet :=
  (cleanupJob_quiet _).bind fun _ => (updateStatusSync_quiet _ _ _).bind fun _ => trivial

theorem handleTimedOutContainer_quiet :
    (handleTimedOutContainer tool view finishedAt answers).Only HostOp.Quiet :=
  (stopJob_quiet _ _).bind fun _ => (cleanupJob_quiet _).bind fun _ =>
    (updateStatusSync_quiet _ _ _).bind fun _ => trivial

end Handlers

/-! ## What a report says -/

/-- The results in the handles have been reported. -/
def Recorded (host : Host) : Prop :=
  ∀ jobId handle result, host.registry jobId = some handle →
    handle.completionResult = some result → (jobId, result) ∈ host.completions

/-- A worker has reported the success of the job. -/
def Vouched (jobId : Uuid) (host : Host) : Prop :=
  ∃ result, (jobId, result) ∈ host.completions ∧ result.success = true

open HostOp

theorem completions_subset_exec (op : HostOp) (host : Host) :
    host.completions ⊆ (op.exec host).2.completions := by
  cases op with
  | setCompletion jobId result => exact subset_cons_self _ _
  | createContainer _ _ answer | startContainer _ answer | stopContainer _ answer
  | removeContainer _ answer | saveSandboxJob _ answer | updateSandboxJobStatus _ answer =>
    cases answer <;> exact .refl _
  | runStatusUpdate i answer =>
    simp only [exec]
    split <;> exact .refl _
  | _ => exact .refl _

variable {jobId : Uuid}

theorem Vouched.exec {host : Host} (h : Vouched jobId host) (op : HostOp) :
    Vouched jobId (op.exec host).2 := by
  obtain ⟨result, hresult, hsuccess⟩ := h
  exact ⟨result, completions_subset_exec op host hresult, hsuccess⟩

variable {handle : ContainerHandle}

theorem registry_modifyHandle {changed jobId : Uuid} {f : ContainerHandle → ContainerHandle}
    (h : (host.modifyHandle changed f).registry jobId = some handle) :
    ∃ old, host.registry jobId = some old ∧ (handle = old ∨ jobId = changed ∧ handle = f old) := by
  rw [Host.modifyHandle_registry, Function.update_apply] at h
  split at h
  · next hjob =>
    subst hjob
    obtain ⟨old, hold, rfl⟩ := Option.map_eq_some_iff.1 h
    exact ⟨old, hold, .inr ⟨rfl, rfl⟩⟩
  · exact ⟨handle, h, .inl rfl⟩

/-- Where the result in a handle comes from: it was there before, the handle is new, or it has
just been reported. -/
theorem result_exec (h : (op.exec host).2.registry jobId = some handle) :
    (∃ old, host.registry jobId = some old ∧ handle.completionResult = old.completionResult) ∨
      op.inserted? = some handle ∨
      ∃ result, op.report? = some (jobId, result) ∧ handle.completionResult = some result := by
  cases op with
  | insertHandle new =>
    simp only [exec, Function.update_apply] at h
    split at h
    · cases h
      exact .inr (.inl rfl)
    · exact .inl ⟨handle, h, rfl⟩
  | removeHandle removed =>
    simp only [exec, Function.update_apply] at h
    split at h
    · cases h
    · exact .inl ⟨handle, h, rfl⟩
  | setContainerId _ _ | setState _ _ | updateWorkerStatus _ _ _ =>
    obtain ⟨old, hold, rfl | ⟨_, rfl⟩⟩ := registry_modifyHandle h
    · exact .inl ⟨_, hold, rfl⟩
    · exact .inl ⟨old, hold, rfl⟩
  | setCompletion changed result =>
    have hmodified : (host.modifyHandle changed (ContainerHandle.complete result)).registry jobId =
        some handle := h
    obtain ⟨old, hold, rfl | ⟨rfl, rfl⟩⟩ := registry_modifyHandle hmodified
    · exact .inl ⟨_, hold, rfl⟩
    · exact .inr (.inr ⟨result, rfl, rfl⟩)
  | createContainer _ _ answer | startContainer _ answer | stopContainer _ answer
  | removeContainer _ answer | saveSandboxJob _ answer | updateSandboxJobStatus _ answer =>
    cases answer <;> exact .inl ⟨handle, h, rfl⟩
  | runStatusUpdate i answer =>
    simp only [exec] at h
    split at h <;> exact .inl ⟨handle, h, rfl⟩
  | _ => exact .inl ⟨handle, h, rfl⟩

theorem recorded_exec (h : Recorded host)
    (hinserted : ∀ handle ∈ op.inserted?, handle.completionResult = none) :
    Recorded (op.exec host).2 := by
  intro jobId handle result hhandle hresult
  rcases result_exec hhandle with ⟨old, hold, hsame⟩ | hnew | ⟨reported, hreport, hreported⟩
  · exact completions_subset_exec op host (h _ old _ hold (hsame ▸ hresult))
  · rw [hinserted _ hnew] at hresult
    cases hresult
  · rw [hreported] at hresult
    cases hresult
    cases op with
    | setCompletion changed completion =>
      cases hreport
      exact mem_cons_self
    | _ => cases hreport

/-! ## Calls that wait -/

/-- What is read makes a waiting call assume that the job has completed. -/
def presumed : Option ContainerHandle → Bool
  | none => true
  | some handle => handle.state = .stopped && handle.completionResult = none

/-- A handle that lets a waiting call assume the completion is backed by a report. -/
def PollBacked (op : HostOp) (host : Host) : Prop :=
  ∀ jobId ∈ op.polled?, presumed (host.registry jobId) = true → Vouched jobId host

/-- A waiting call that reads this reports a completed job. -/
def completes : Option ContainerHandle → Bool
  | none => true
  | some handle =>
    handle.state = .stopped &&
      (handle.completionResult.map CompletionResult.success).getD true

variable {known : Multiset Uuid}

section Safety

variable {α : Type}

/-- Safety of a program that knows whose success has been reported. -/
abbrev SafeWord (program : HostProgram α) (known : Multiset Uuid)
    (post : α → Multiset Uuid → Prop) : Prop :=
  Safe exec PollBacked (Known Recorded Vouched) program known post

theorem safeWord_quiet {program : HostProgram α} (h : program.Only HostOp.Quiet)
    (known : Multiset Uuid) : SafeWord program known fun _ known' => known' = known := by
  refine .of_only (fun op host facts hquiet _ hknown => ⟨?_, ?_⟩) h _
  · exact recorded_exec hknown.1 hquiet.1
  · exact fun jobId hjob => (hknown.2 jobId hjob).exec op

/-- What a poll teaches. -/
def learned (jobId : Uuid) (read : Option ContainerHandle) : Multiset Uuid :=
  if completes read then {jobId} else 0

theorem vouched_of_completes {host : Host} (hrecorded : Recorded host)
    (hok : PollBacked (.getHandle jobId) host) (h : completes (host.registry jobId) = true) :
    Vouched jobId host := by
  cases hread : host.registry jobId with
  | none => exact hok _ rfl (by rw [hread]; rfl)
  | some handle =>
    rw [hread, completes, Bool.and_eq_true] at h
    cases hresult : handle.completionResult with
    | none => exact hok _ rfl (by rw [hread]; simp [presumed, h.1, hresult])
    | some result =>
      rw [hresult] at h
      exact ⟨result, hrecorded _ _ _ hread hresult, h.2⟩

theorem safeWord_poll
    {next : Option ContainerHandle → HostProgram α} {post : α → Multiset Uuid → Prop}
    (hnext : ∀ read, SafeWord (next read) (learned jobId read + known) post) :
    SafeWord (act (.getHandle jobId) next) known post := by
  refine .learn _ ?_ ?_ hnext
  · exact fun host _ hknown => ⟨hknown.1, fun _ hfact => hfact⟩
  · intro host hok hknown fact hfact
    have hread : fact ∈ learned jobId (host.registry jobId) := hfact
    rw [learned] at hread
    split at hread
    · next hcompletes =>
      rw [mem_singleton.1 hread]
      exact vouched_of_completes hknown.1 hok hcompletes
    · exact absurd hread (Multiset.notMem_zero _)

end Safety

/-- The call knows the report behind a completed output. -/
def OutputKnown (result : Except String JobOutput) (known : Multiset Uuid) : Prop :=
  ∀ output, result = .ok output → output.status = .completed → output.jobId ∈ known

theorem outputKnown_error (e : String) (known : Multiset Uuid) : OutputKnown (.error e) known :=
  nofun

section Waiting

variable (tool : CreateJobTool) (view : ContainerJobView) (finishedAt : Timestamp)
  (answers : SandboxAnswers)

/-- The status is stored before the output is returned. -/
theorem safe_report (transition : StatusTransition)
    {result : Except String JobOutput} (h : OutputKnown result known) :
    SafeWord (do updateStatusSync tool transition answers.update; pure result) known
      OutputKnown :=
  (safeWord_quiet (updateStatusSync_quiet tool _ _) _).bind
    fun _ _ hknown => hknown ▸ h

theorem safe_handleMissingContainer (h : view.jobId ∈ known) :
    SafeWord (handleMissingContainer tool view finishedAt answers) known OutputKnown := by
  refine safe_report tool _ _ fun output houtput _ => ?_
  cases houtput
  exact h

theorem safe_handleStoppedContainer (handle : ContainerHandle)
    (h : (handle.completionResult.map CompletionResult.success).getD true = true →
      view.jobId ∈ known) :
    SafeWord (handleStoppedContainer tool view finishedAt answers handle) known OutputKnown := by
  refine (safeWord_quiet (cleanupJob_quiet _) _).bind fun _ known' hknown => ?_
  subst hknown
  split
  · next hsuccess =>
    refine safe_report tool _ _ fun output houtput _ => ?_
    cases houtput
    exact h hsuccess
  · exact safe_report tool _ _ (outputKnown_error _ _)

theorem safe_handleFailedContainer (known : Multiset Uuid) (handle : ContainerHandle) :
    SafeWord (handleFailedContainer tool view finishedAt answers handle) known OutputKnown :=
  (safeWord_quiet (cleanupJob_quiet _) _).bind fun _ _ _ =>
    safe_report tool _ _ (outputKnown_error _ _)

theorem safe_handleTimedOutContainer (known : Multiset Uuid) :
    SafeWord (handleTimedOutContainer tool view finishedAt answers) known OutputKnown :=
  (safeWord_quiet (stopJob_quiet _ _) _).bind fun _ _ _ =>
    (safeWord_quiet (cleanupJob_quiet _) _).bind fun _ _ _ =>
      safe_report tool _ _ (outputKnown_error _ _)

/-- The outcome that is inferred from the handle is backed by the handle or by a report. -/
theorem safe_awaitContainerCompletion (polls : Nat) (known : Multiset Uuid) :
    SafeWord (awaitContainerCompletion tool view finishedAt answers polls) known OutputKnown := by
  induction polls generalizing known with
  | zero =>
    exact (safeWord_quiet (only_on rfl rfl) _).bind fun _ _ _ =>
      safe_handleTimedOutContainer tool view _ _ _
  | succ polls ih =>
    refine safeWord_poll fun read => ?_
    cases read with
    | none =>
      refine safe_handleMissingContainer tool view _ _ ?_
      simp [learned, completes]
    | some handle =>
      -- the state decides how the call goes on
      obtain ⟨jobId, containerId, state, rest⟩ := handle
      cases state with
      | creating | running => exact ih _
      | stopped =>
        refine safe_handleStoppedContainer tool view _ _ _ fun hsuccess => ?_
        simp [learned, completes, hsuccess]
      | failed => exact safe_handleFailedContainer tool view _ _ _ _

end Waiting

/-- A call whose polls are backed knows the report behind a completed output. -/
theorem safe_executeSandbox (exec : SandboxExecution) (answers : SandboxAnswers)
    (known : Multiset Uuid) : SafeWord (executeSandbox tool exec answers) known OutputKnown := by
  rw [executeSandbox]
  split
  · exact outputKnown_error _ _
  split
  · exact outputKnown_error _ _
  · refine (safeWord_quiet (persistSandboxJob_quiet ..) _).bind fun saved known' _ => ?_
    cases saved with
    | error e => exact outputKnown_error _ _
    | ok _ =>
      refine (safeWord_quiet (createJob_quiet ..) _).bind fun created known'' _ => ?_
      cases created with
      | error e =>
        exact (safeWord_quiet (updateStatus_quiet ..) _).bind fun _ _ _ =>
          outputKnown_error _ _
      | ok _ =>
        refine (safeWord_quiet (updateStatus_quiet ..) _).bind fun _ _ _ => ?_
        split
        · intro output houtput hcompleted
          cases houtput
          cases hcompleted
        · exact safe_awaitContainerCompletion ..

/-! ## What follows an assumed completion -/

/-- If the program reads a handle that lets it assume the completion, it goes on to answer with
a completed output, and it does not report anything itself. -/
def Assumes : (op : HostOp) → (op.Resp → HostProgram (Except String JobOutput)) → Prop
  | .getHandle jobId, next => ∀ read, presumed read = true → ∀ host, ∃ output,
      (run exec (next read) host).1 = .ok output ∧ output.status = .completed ∧
        output.jobId = jobId ∧
        (run exec (next read) host).2.completions = host.completions
  | _, _ => True

theorem assumes_of_quiet (next : op.Resp → HostProgram (Except String JobOutput)) (h : op.Quiet) :
    Assumes op next := by
  cases op with
  | getHandle jobId => cases h.2
  | _ => exact trivial

section Waiting

variable (tool : CreateJobTool) (view : ContainerJobView) (finishedAt : Timestamp)
  (answers : SandboxAnswers)

theorem completions_updateStatusSync (transition : StatusTransition) (answer : Answer)
    (host : Host) :
    (run exec (updateStatusSync tool transition answer) host).2.completions =
      host.completions := by
  rw [updateStatusSync]
  split
  · cases answer <;> rfl
  · rfl

theorem run_handleMissingContainer (host : Host) :
    (run exec (handleMissingContainer tool view finishedAt answers) host).1 =
        .ok (view.completedOutput "Container job completed") ∧
      (run exec (handleMissingContainer tool view finishedAt answers) host).2.completions =
        host.completions := by
  rw [handleMissingContainer, run_bind]
  exact ⟨rfl, completions_updateStatusSync tool _ _ host⟩

theorem run_handleStoppedContainer (h : handle.completionResult = none) (host : Host) :
    (run exec (handleStoppedContainer tool view finishedAt answers handle) host).1 =
        .ok (view.completedOutput "Container job completed") ∧
      (run exec (handleStoppedContainer tool view finishedAt answers handle)
        host).2.completions = host.completions := by
  simp only [handleStoppedContainer, h, Option.map_none, Option.getD_none, if_true,
    run_bind]
  exact ⟨rfl, completions_updateStatusSync tool _ _ _⟩

theorem awaitContainerCompletion_assumes (polls : Nat) :
    (awaitContainerCompletion tool view finishedAt answers polls).Always Assumes := by
  induction polls with
  | zero =>
    refine (only_on rfl rfl).bind_always (fun _ next => assumes_of_quiet next) fun _ => ?_
    exact (handleTimedOutContainer_quiet ..).always fun _ next => assumes_of_quiet next
  | succ polls ih =>
    refine ⟨fun read hread host => ?_, fun read => ?_⟩
    · refine ⟨view.completedOutput "Container job completed", ?_⟩
      cases read with
      | none =>
        have hrun := run_handleMissingContainer tool view finishedAt answers host
        exact ⟨hrun.1, rfl, rfl, hrun.2⟩
      | some handle =>
        rw [presumed, Bool.and_eq_true, decide_eq_true_eq, decide_eq_true_eq] at hread
        have hrun := run_handleStoppedContainer tool view finishedAt answers hread.2 host
        obtain ⟨jobId, containerId, state, rest⟩ := handle
        cases hread.1
        exact ⟨hrun.1, rfl, rfl, hrun.2⟩
    · cases read with
      | none =>
        exact (handleMissingContainer_quiet ..).always fun _ next => assumes_of_quiet next
      | some handle =>
        obtain ⟨jobId, containerId, state, rest⟩ := handle
        cases state with
        | creating | running => exact ih
        | stopped =>
          exact (handleStoppedContainer_quiet ..).always fun _ next => assumes_of_quiet next
        | failed =>
          exact (handleFailedContainer_quiet ..).always fun _ next => assumes_of_quiet next

end Waiting

theorem executeSandbox_assumes (exec : SandboxExecution) (answers : SandboxAnswers) :
    (executeSandbox tool exec answers).Always Assumes := by
  rw [executeSandbox]
  split
  · exact trivial
  split
  · exact trivial
  · refine (persistSandboxJob_quiet ..).bind_always (fun _ next => assumes_of_quiet next)
      fun saved => ?_
    cases saved with
    | error e => exact trivial
    | ok _ =>
      refine (createJob_quiet ..).bind_always (fun _ next => assumes_of_quiet next)
        fun created => ?_
      cases created with
      | error e =>
        exact (updateStatus_quiet ..).bind_always (fun _ next => assumes_of_quiet next)
          fun _ => trivial
      | ok _ =>
        refine (updateStatus_quiet ..).bind_always (fun _ next => assumes_of_quiet next) fun _ => ?_
        split
        · exact trivial
        · exact awaitContainerCompletion_assumes ..

/-! ## Interleavings -/

/-- The calls of the host.  What is not a call of its own is any operation that neither reads a
handle for an outcome nor inserts one. -/
inductive HostCall where
  | executeSandbox (tool : CreateJobTool) (exec : SandboxExecution) (answers : SandboxAnswers)
  | restartSandboxJob (sandboxEnabled : Bool) (old : SandboxJobRecord) (inputs : RestartInputs)
  | reportComplete (jobId : Uuid) (result : CompletionResult) (answers : StopAnswers)
  | cancelSandboxJob (sandboxEnabled : Bool) (jobId : Uuid) (finishedAt : Timestamp)
      (stop : StopAnswers) (update : Answer)
  | stopJob (jobId : Uuid) (answers : StopAnswers)
  | cleanupJob (jobId : Uuid)
  | scanAndReap (config : ReaperConfig) (now : Timestamp) (listed : Answer)
      (answers : ContainerId → ReapAnswers)
  | other (op : HostOp) (hinserted : op.inserted? = none) (hpolled : op.polled? = none)

/-- A program of the host whose outputs are recorded. -/
abbrev ObservedHostProgram :=
  Program (Observed HostOp JobOutput) (Observed.Answer HostOp.Resp) Unit

/-- The program of a call; the output of a sandbox job is recorded. -/
def HostCall.observed : HostCall → ObservedHostProgram
  | executeSandbox tool exec answers =>
    (Orchestrator.executeSandbox tool exec answers).observe Except.toOption
  | restartSandboxJob sandboxEnabled old inputs =>
    (Orchestrator.restartSandboxJob sandboxEnabled old inputs).observe fun _ => none
  | reportComplete jobId result answers =>
    (Orchestrator.reportComplete jobId result answers).observe fun _ => none
  | cancelSandboxJob sandboxEnabled jobId finishedAt stop update =>
    (Orchestrator.cancelSandboxJob sandboxEnabled jobId finishedAt stop update).observe
      fun _ => none
  | stopJob jobId answers => (Orchestrator.stopJob jobId answers).observe fun _ => none
  | cleanupJob jobId => (Orchestrator.cleanupJob jobId).observe fun _ => none
  | scanAndReap config now listed answers =>
    (Orchestrator.scanAndReap config now listed answers).observe fun _ => none
  | other op _ _ => (on op).observe fun _ => none

/-- The programs that may start. -/
def IsHostCall (calls : Set HostCall) (program : ObservedHostProgram) : Prop :=
  ∃ call ∈ calls, program = call.observed

/-- A call waits for its job, or it is quiet. -/
theorem observed_cases (call : HostCall) : (∃ tool exec answers, call.observed =
      (executeSandbox tool exec answers).observe Except.toOption) ∨
      ∃ (α : Type) (program : HostProgram α), program.Only HostOp.Quiet ∧
        call.observed = program.observe fun _ => none := by
  cases call with
  | executeSandbox tool exec answers => exact .inl ⟨tool, exec, answers, rfl⟩
  | restartSandboxJob sandboxEnabled old inputs =>
    exact .inr ⟨_, _, restartSandboxJob_quiet _ old _, rfl⟩
  | reportComplete jobId result answers =>
    exact .inr ⟨_, _, reportComplete_quiet _ _ _, rfl⟩
  | cancelSandboxJob sandboxEnabled jobId finishedAt stop update =>
    exact .inr ⟨_, _, cancelSandboxJob_quiet _ _ _ stop _, rfl⟩
  | stopJob jobId answers => exact .inr ⟨_, _, stopJob_quiet _ _, rfl⟩
  | cleanupJob jobId => exact .inr ⟨_, _, cleanupJob_quiet _, rfl⟩
  | scanAndReap config now listed answers =>
    exact .inr ⟨_, _, scanAndReap_quiet _ now _ _, rfl⟩
  | other op hinserted hpolled => exact .inr ⟨_, _, only_on hinserted hpolled, rfl⟩

/-- The report that a recorded output stands for. -/
def behind (output : JobOutput) : Multiset Uuid :=
  if output.status = .completed then {output.jobId} else 0

theorem safe_hostCall (calls : Set HostCall) (program : ObservedHostProgram)
    (h : IsHostCall calls program) :
    Safe (Observed.exec exec) (Observed.Guard PollBacked)
      (ObservedInv behind (Known Recorded Vouched)) program 0 fun _ _ => True := by
  obtain ⟨call, _, rfl⟩ := h
  rcases observed_cases call with ⟨tool, exec, answers, hcall⟩ | ⟨α, program, hquiet, hcall⟩
  · rw [hcall]
    refine .observe ((safe_executeSandbox tool exec _ 0).mono ?_)
    intro result known hknown output houtput
    cases result with
    | error e => cases houtput
    | ok answered =>
      cases houtput
      rw [behind]
      split
      · next hcompleted =>
        obtain ⟨rest, hrest⟩ := Multiset.exists_cons_of_mem (hknown output rfl hcompleted)
        exact ⟨rest, by rw [hrest, add_comm, Multiset.singleton_add]⟩
      · exact ⟨known, (add_zero _).symm⟩
  · rw [hcall]
    exact .observe ((safeWord_quiet hquiet 0).mono fun _ _ _ _ he => nomatch he)

/-- Completed outputs have a successful report of the worker behind them. -/
def WordKept (s : Host × List JobOutput) : Prop :=
  ∀ output ∈ s.2, output.status = .completed → Vouched output.jobId s.1

/-- An observed program that assumes a completion goes on to record it. -/
def RecordsAssumed : (o : Observed HostOp JobOutput) →
    (Observed.Answer HostOp.Resp o → ObservedHostProgram) → Prop
  | .op (.getHandle jobId), next => ∀ read, presumed read = true → ∀ s,
      ¬ Vouched jobId s.1 → ¬ WordKept (run (Observed.exec exec) (next read) s).2
  | _, _ => True

theorem recordsAssumed_observe {next : op.Resp → HostProgram (Except String JobOutput)}
    (h : Assumes op next) : RecordsAssumed (.op op) fun r => (next r).observe Except.toOption := by
  cases op with
  | getHandle jobId =>
    intro read hread s hvouched hkept
    obtain ⟨output, houtput, hcompleted, rfl, hsame⟩ := h read hread s.1
    rw [run_observe, houtput] at hkept
    obtain ⟨result, hresult, hsuccess⟩ := hkept output mem_cons_self hcompleted
    exact hvouched ⟨result, hsame ▸ hresult, hsuccess⟩
  | _ => exact trivial

theorem recordsAssumed_of_unpolled (h : op.polled? = none) (next : op.Resp → ObservedHostProgram) :
    RecordsAssumed (.op op) next := by
  cases op with
  | getHandle jobId => cases h
  | _ => exact trivial

theorem hostCall_recordsAssumed (calls : Set HostCall) (program : ObservedHostProgram)
    (h : IsHostCall calls program) : program.Always RecordsAssumed := by
  obtain ⟨call, _, rfl⟩ := h
  rcases observed_cases call with ⟨tool, exec, answers, hcall⟩ | ⟨α, program, hquiet, hcall⟩
  · rw [hcall]
    exact (executeSandbox_assumes tool exec _).observe
      (fun _ _ => recordsAssumed_observe) fun _ _ => trivial
  · rw [hcall]
    have hpolled : program.Always fun op _ => op.polled? = none :=
      hquiet.always fun _ _ hop => hop.2
    exact hpolled.observe (fun _ _ hop => recordsAssumed_of_unpolled hop _) fun _ _ => trivial

section Interleavings

/-- A configuration of the host with the recorded outputs. -/
abbrev ObservedHostConfig :=
  Config (Observed HostOp JobOutput) (Observed.Answer HostOp.Resp) (Host × List JobOutput)

variable (calls : Set HostCall) (maxJobs : Nat)

/-- Configurations that the calls reach while their operations meet the guard. -/
abbrev HostReachable (ok : HostOp → Host → Prop) (c : ObservedHostConfig) : Prop :=
  Reachable (Observed.exec exec) (Observed.Guard ok) (IsHostCall calls)
    (.init maxJobs, []) c

/-- What a waiting call reads next does not let it assume a completion without a report. -/
def Backed (c : ObservedHostConfig) : Prop :=
  ∀ op next, act (.op op) next ∈ c.tasks → PollBacked op c.shared.1

variable {calls maxJobs} {c : ObservedHostConfig}

theorem wordKept_of_reachable (hc : HostReachable calls maxJobs PollBacked c) :
    WordKept c.shared := by
  have hstart : Known Recorded Vouched (Host.init maxJobs) 0 :=
    ⟨nofun, fun _ hfact => absurd hfact (Multiset.notMem_zero _)⟩
  obtain ⟨known, _, hfacts⟩ := observed_adequacy (safe_hostCall calls) hstart hc
  intro output houtput hcompleted
  have hbehind : output.jobId ∈ behind output := by
    rw [behind, if_pos hcompleted]
    exact mem_singleton_self _
  exact hfacts _ (Multiset.mem_add.2 (.inr (mem_deposits houtput hbehind)))

theorem guard_true (o : Observed HostOp JobOutput) (s : Host × List JobOutput) :
    Observed.Guard (fun _ _ => True) o s := by
  cases o with
  | op _ | emit _ => exact trivial

/-- After a poll that is not backed, the call can return a completed output without a report. -/
theorem exists_unkept (hc : HostReachable calls maxJobs (fun _ _ => True) c)
    (hbacked : ¬ Backed c) :
    ∃ c', HostReachable calls maxJobs (fun _ _ => True) c' ∧ ¬ WordKept c'.shared := by
  rw [Backed] at hbacked
  push Not at hbacked
  obtain ⟨op, next, hmem, hpoll⟩ := hbacked
  have hassumed := (Reachable.always (hostCall_recordsAssumed _) hc _ hmem).1
  obtain ⟨s, tasks⟩ := c
  obtain ⟨before, after, rfl⟩ := append_of_mem hmem
  rw [PollBacked] at hpoll
  push Not at hpoll
  obtain ⟨jobId, hpolled, hpresumed, hvouched⟩ := hpoll
  cases op with
  | getHandle polled =>
    cases hpolled
    have hread := hc.tail (.advance (guard_true _ s))
    have hend := Reachable.advance_run hread (allowed_of_forall _ guard_true _ _)
    exact ⟨_, hend, hassumed _ hpresumed _ hvouched⟩
  | _ => cases hpolled

/-- In every interleaving of any calls, completed outputs have a successful report behind them
as long as no waiting call reads a missing handle, or a stopped one without a result, before the
success has been reported.  If some interleaving has such a poll, some interleaving has a
completed output without a report. -/
theorem completed_on_workers_word_iff (calls : Set HostCall) (maxJobs : Nat) :
    (∀ c, HostReachable calls maxJobs PollBacked c → WordKept c.shared) ∧
      ((∀ c, HostReachable calls maxJobs (fun _ _ => True) c → WordKept c.shared) ↔
        ∀ c, HostReachable calls maxJobs (fun _ _ => True) c → Backed c) := by
  refine ⟨fun c hc => wordKept_of_reachable hc, fun hkept c hc => ?_, fun hbacked c hc => ?_⟩
  · by_contra hpoll
    obtain ⟨c', hc', hunkept⟩ := exists_unkept hc hpoll
    exact hunkept (hkept c' hc')
  · refine wordKept_of_reachable (.strengthen (fun c' hc' o next hmem => ?_) hc)
    cases o with
    | op op => exact hbacked c' hc' op next hmem
    | emit event => exact trivial

/-- A worker job that is waited for. -/
def waitedJob : SandboxExecution where
  task := "build"
  wait := true
  mode := .worker
  credentialGrants := []
  userId := "user"
  jobId := 1
  token := "t".toList
  projectDir := .ok ("/p", "p")
  recordedAt := 0
  createdAt := 0
  startedAt := 0
  finishedAt := 9

def promptAnswers : SandboxAnswers where
  save := .ok ()
  saveMode := .ok ()
  update := .ok ()
  create := .succeeding
  polls := 5
  stop := .succeeding

/-- The user cancels the job while the call waits. -/
def cancelledWhileWaiting : List (Move HostCall) :=
  .spawn (.executeSandbox ⟨true, true⟩ waitedJob promptAnswers) :: replicate 10 (.advance 0) ++
    .spawn (.cancelSandboxJob true 1 5 .succeeding (.ok ())) :: replicate 8 (.advance 1) ++
      replicate 4 (.advance 0)

def cancelledRun : ObservedHostConfig :=
  cancelledWhileWaiting.foldl (Config.move (Observed.exec exec) HostCall.observed)
    ⟨(.init 1, []), []⟩

/-- The worker of the cancelled job has not reported anything, and the job is completed. -/
theorem cancelled_job_completed : cancelledRun.Quiescent ∧ cancelledRun.shared.1.completions = [] ∧
      (cancelledRun.shared.1.jobs 1).map SandboxJobRecord.status = some .completed ∧
      cancelledRun.shared.2 =
        [(ContainerJobView.mk 1 "/p" "p").completedOutput "Container job completed"] ∧
      ¬ WordKept cancelledRun.shared := by
  have hnone : cancelledRun.shared.1.completions = [] := by decide +kernel
  have hlog : cancelledRun.shared.2 =
      [(ContainerJobView.mk 1 "/p" "p").completedOutput "Container job completed"] := by
    decide +kernel
  refine ⟨quiescent_of_allDone (by decide +kernel), hnone, by decide +kernel, hlog, fun hkept => ?_⟩
  obtain ⟨result, hresult, _⟩ := hkept _ (by rw [hlog]; exact mem_cons_self) rfl
  rw [hnone] at hresult
  cases hresult

end Interleavings

end Axinite.Orchestrator
