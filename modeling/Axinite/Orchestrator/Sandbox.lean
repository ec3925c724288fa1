import Axinite.Foundation.Replacing
import Axinite.Foundation.Runs
import Axinite.Orchestrator.Reaper

/-!
# Sandbox jobs

The calls around a sandbox job as programs over the operations of the host: the tool that starts
a job and may wait for it, the restart and the cancellation from the web interface, and the
report of the worker.  A waiting call polls the handle of its job and infers the outcome from
what it reads.

The times, the identifiers that are drawn, the resolved project directory and all answers of the
daemon and of the database are inputs of a call.  So is the number of polls before the deadline.

Main results:

- Theorem `retryLabel_restarts_iff`: the failure reasons for which restarts keep the title.
-/

namespace Axinite.Orchestrator

open Foundation Program

/-! ## The tool -/

/-- What the tool has been given. -/
structure CreateJobTool where
  jobManager : Bool
  store : Bool

/-- Text of an error. -/
def OrchestratorError.display : OrchestratorError → String
  | containerCreationFailed jobId reason =>
    "Container creation failed for job " ++ toString jobId ++ ": " ++ reason
  | containerNotFound jobId => "Container not found for job " ++ toString jobId
  | docker reason => "Docker error: " ++ reason

/-- What the output of the tool says about the job. -/
inductive OutputStatus where
  | started
  | completed
  deriving DecidableEq

/-- Output of the tool. -/
structure JobOutput where
  jobId : Uuid
  status : OutputStatus
  output : String
  projectDir : String
  browseUrl : String
  deriving DecidableEq

/-- Coordinates of one container job. -/
structure ContainerJobView where
  jobId : Uuid
  projectDir : String
  browseId : String

/-- Success output for a completed container job. -/
def ContainerJobView.completedOutput (view : ContainerJobView) (output : String) : JobOutput where
  jobId := view.jobId
  status := .completed
  output := output
  projectDir := view.projectDir
  browseUrl := "/projects/" ++ view.browseId

/-- Inputs for launching a sandboxed job. -/
structure SandboxExecution where
  task : String
  wait : Bool
  mode : JobMode
  credentialGrants : List CredentialGrant
  userId : String
  jobId : Uuid
  token : Token
  /-- Directory and browse identifier, or the error of their resolution. -/
  projectDir : Except String (String × String)
  recordedAt : Timestamp
  createdAt : Timestamp
  startedAt : Timestamp
  finishedAt : Timestamp

/-- What the daemon and the database answer, and how often the call polls. -/
structure SandboxAnswers where
  save : Answer
  saveMode : Answer
  update : Answer
  create : CreateAnswers
  polls : Nat
  stop : StopAnswers

/-- Update the stored status in a task of its own. -/
def updateStatus (tool : CreateJobTool) (transition : StatusTransition) : HostProgram Unit :=
  if tool.store then on (.spawnStatusUpdate transition) else pure ()

/-- Update the stored status now; failures are only logged. -/
def updateStatusSync (tool : CreateJobTool) (transition : StatusTransition) (answer : Answer) :
    HostProgram Unit :=
  if tool.store then do
    let _ ← on (.updateSandboxJobStatus transition answer)
    pure ()
  else pure ()

def SandboxExecution.record (exec : SandboxExecution) (projectDir : String) :
    SandboxJobRecord where
  id := exec.jobId
  task := exec.task
  status := .creating
  userId := exec.userId
  projectDir := projectDir
  success := none
  failureReason := none
  createdAt := exec.recordedAt
  startedAt := none
  completedAt := none
  credentialGrants := exec.credentialGrants

/-- Store a job and its mode. -/
def persistSandboxJob (tool : CreateJobTool) (record : SandboxJobRecord) (mode : JobMode)
    (finishedAt : Timestamp) (answers : SandboxAnswers) : HostProgram (Except String Unit) :=
  if !tool.store then pure (.ok ())
  else do
    match ← on (.saveSandboxJob record answers.save) with
    | .error e => pure (.error ("failed to persist job: " ++ e))
    | .ok () =>
      if mode = .claudeCode then
        match ← on (.updateSandboxJobMode record.id answers.saveMode) with
        | .ok () => pure (.ok ())
        | .error e =>
          let _ ← on (.updateSandboxJobStatus (.failed record.id e finishedAt) answers.update)
          pure (.error ("failed to persist job mode: " ++ e))
      else pure (.ok ())

/-! ## Waiting for the container -/

section Waiting

variable (tool : CreateJobTool) (view : ContainerJobView) (finishedAt : Timestamp)
  (answers : SandboxAnswers)

/-- A stopped container: without a result of the worker, the job counts as completed. -/
def handleStoppedContainer (handle : ContainerHandle) :
    HostProgram (Except String JobOutput) := do
  let message :=
    (handle.completionResult.bind CompletionResult.message).getD "Container job completed"
  let success := (handle.completionResult.map CompletionResult.success).getD true
  cleanupJob view.jobId
  if success then
    updateStatusSync tool (.completed view.jobId finishedAt) answers.update
    pure (.ok (view.completedOutput message))
  else
    updateStatusSync tool (.failed view.jobId message finishedAt) answers.update
    pure (.error ("container job failed: " ++ message))

def handleFailedContainer (handle : ContainerHandle) :
    HostProgram (Except String JobOutput) := do
  let message := (handle.completionResult.bind CompletionResult.message).getD "unknown failure"
  cleanupJob view.jobId
  updateStatusSync tool (.failed view.jobId message finishedAt) answers.update
  pure (.error ("container job failed: " ++ message))

/-- A handle that is not there any more counts as a successful completion. -/
def handleMissingContainer : HostProgram (Except String JobOutput) := do
  updateStatusSync tool (.completed view.jobId finishedAt) answers.update
  pure (.ok (view.completedOutput "Container job completed"))

def handleTimedOutContainer : HostProgram (Except String JobOutput) := do
  let _ ← stopJob view.jobId answers.stop
  cleanupJob view.jobId
  updateStatusSync tool (.failed view.jobId "Timed out (10 minutes)" finishedAt) answers.update
  pure (.error "container execution timed out (10 minutes)")

/-- Poll the handle until the container has ended; the deadline passes after the given number
of polls. -/
def awaitContainerCompletion : Nat → HostProgram (Except String JobOutput)
  | 0 => do
    on (.deadlinePassed view.jobId)
    handleTimedOutContainer tool view finishedAt answers
  | polls + 1 => do
    match ← on (.getHandle view.jobId) with
    | none => handleMissingContainer tool view finishedAt answers
    | some handle =>
      match handle.state with
      | .creating => awaitContainerCompletion polls
      | .running => awaitContainerCompletion polls
      | .stopped => handleStoppedContainer tool view finishedAt answers handle
      | .failed => handleFailedContainer tool view finishedAt answers handle

end Waiting

/-- The job that the container manager is asked to create. -/
def SandboxExecution.params (exec : SandboxExecution) (projectDir : String) :
    CreateJobParams where
  jobId := exec.jobId
  token := exec.token
  task := exec.task
  projectDir := some projectDir
  mode := exec.mode
  credentialGrants := exec.credentialGrants
  now := exec.createdAt

/-- Output for a job that nobody waits for. -/
def ContainerJobView.startedOutput (view : ContainerJobView) : JobOutput where
  jobId := view.jobId
  status := .started
  output := "Container started. Use job_events to check status or job_prompt to send follow-up instructions."
  projectDir := view.projectDir
  browseUrl := "/projects/" ++ view.browseId

/-- Run a job in a container. -/
def executeSandbox (tool : CreateJobTool) (exec : SandboxExecution) (answers : SandboxAnswers) :
    HostProgram (Except String JobOutput) :=
  if !tool.jobManager then pure (.error "sandbox deps required")
  else
    match exec.projectDir with
    | .error e => pure (.error e)
    | .ok (projectDir, browseId) => do
      match ← persistSandboxJob tool (exec.record projectDir) exec.mode exec.finishedAt
          answers with
      | .error e => pure (.error e)
      | .ok () =>
        match ← createJob (exec.params projectDir) answers.create with
        | .error e =>
          updateStatus tool (.failed exec.jobId e.display exec.finishedAt)
          pure (.error ("failed to create container: " ++ e.display))
        | .ok _ =>
          updateStatus tool (.running exec.jobId exec.startedAt)
          if !exec.wait then
            pure (.ok (ContainerJobView.mk exec.jobId projectDir browseId).startedOutput)
          else
            awaitContainerCompletion tool ⟨exec.jobId, projectDir, browseId⟩
              exec.finishedAt answers answers.polls

/-! ## The web interface -/

/-- Status code and text of a failed request. -/
abbrev HttpError := Nat × String

/-- An error whose details are only logged. -/
def internalError (context : String) : HttpError :=
  (500, context)

def SandboxJobStatus.asStr : SandboxJobStatus → String
  | creating => "creating"
  | running => "running"
  | completed => "completed"
  | failed => "failed"
  | interrupted => "interrupted"

/-- The texts before and after the first separator. -/
def splitOnce (separator : List Char) : List Char → Option (List Char × List Char)
  | [] => if separator = [] then some ([], []) else none
  | c :: rest =>
    if separator.isPrefixOf (c :: rest) then some ([], (c :: rest).drop separator.length)
    else (splitOnce separator rest).map fun parts => (c :: parts.1, parts.2)

def stripRetryPrefix (value : String) : String :=
  let label := "Previous attempt failed: ".toList
  if label.isPrefixOf value.toList then
    match splitOnce ". Retry: ".toList (value.toList.drop label.length) with
    | some parts => .ofList parts.2
    | none => value
  else value

def retryLabel (base failureReason : String) : String :=
  let base := stripRetryPrefix base
  if failureReason.isEmpty then base
  else "Previous attempt failed: " ++ failureReason ++ ". Retry: " ++ base

section Labels

open List

/-- A separator whose first character does not come again splits a text behind `front` exactly if
`front` does not contain it. -/
theorem splitOnce_append {a : Char} {rest : List Char} (ha : a ∉ rest) (front back : List Char) :
    ∃ parts, splitOnce (a :: rest) (front ++ (a :: rest ++ back)) = some parts ∧
      (parts.2 = back ↔ ¬ a :: rest <:+: front) := by
  induction front with
  | nil => exact ⟨([], back), by simp [splitOnce], by simp⟩
  | cons c front ih =>
    rw [cons_append, splitOnce, infix_cons_iff]
    by_cases hstart : a :: rest <+: c :: front
    · have hlonger := hstart.trans (prefix_append _ (a :: rest ++ back))
      refine ⟨_, if_pos ( isPrefixOf_iff_prefix.2 hlonger), iff_of_false (fun h => ?_)
        (by simp [hstart])⟩
      have := congrArg length h
      simp at this
      omega
    · obtain ⟨parts, hparts, hback⟩ := ih
      have hnot : ¬ (a :: rest).isPrefixOf (c :: (front ++ (a :: rest ++ back))) = true := by
        intro h
        obtain ⟨rfl, hrest⟩ := cons_prefix_cons.1 ( isPrefixOf_iff_prefix.1 h)
        exact hstart (cons_prefix_cons.2 ⟨rfl, Replacing.prefix_of_prefix_append_cons ha hrest⟩)
      exact ⟨_, by rw [if_neg hnot, hparts]; rfl, by simp [hstart, hback]⟩

/-- The title is found again in its label exactly if the reason does not contain the separator. -/
theorem stripRetryPrefix_retryLabel {title base : String} (reason : String)
    (htitle : stripRetryPrefix title = base) (hbase : stripRetryPrefix base = base) :
    stripRetryPrefix (retryLabel title reason) = base ↔ ¬ ". Retry: ".toList <:+: reason.toList := by
  rw [retryLabel, htitle]
  split
  · next hempty =>
    obtain rfl : reason = "" := by simpa using hempty
    simp [hbase]
  · obtain ⟨parts, hparts, hback⟩ := @splitOnce_append '.' " Retry: ".toList (by decide)
      reason.toList base.toList
    have hseparator : ". Retry: ".toList = '.' :: " Retry: ".toList := rfl
    have hlabel : ("Previous attempt failed: " ++ reason ++ ". Retry: " ++ base).toList =
        "Previous attempt failed: ".toList ++
          (reason.toList ++ (". Retry: ".toList ++ base.toList)) := by simp
    rw [stripRetryPrefix, hlabel, if_pos ( isPrefixOf_iff_prefix.2 (prefix_append _ _)), drop_left,
      hseparator, hparts, ← hback]
    rw [← String.toList_inj, String.toList_ofList]

/-- Successive restarts label the job as the first restart would exactly if no reason but the last
contains the separator. -/
theorem retryLabel_restarts_iff (base : String)
    (hbase : ¬ "Previous attempt failed: ".toList <+: base.toList) (reasons : List String) :
    Runs.AllSteps retryLabel (fun title reason => retryLabel title reason = retryLabel base reason)
        base reasons ↔
      ∀ reason ∈ reasons.dropLast, ¬ ". Retry: ".toList <:+: reason.toList := by
  have hstrip : stripRetryPrefix base = base := by
    simp only [stripRetryPrefix, isPrefixOf_iff_prefix, if_neg hbase]
  suffices ∀ title, stripRetryPrefix title = base → (Runs.AllSteps retryLabel
      (fun title reason => retryLabel title reason = retryLabel base reason) title reasons ↔
        ∀ reason ∈ reasons.dropLast, ¬ ". Retry: ".toList <:+: reason.toList) from this base hstrip
  induction reasons with
  | nil => simp [Runs.AllSteps]
  | cons reason reasons ih =>
    intro title htitle
    have hsame : retryLabel title reason = retryLabel base reason := by
      rw [retryLabel, retryLabel, htitle, hstrip]
    rw [Runs.AllSteps, and_iff_right hsame]
    cases reasons with
    | nil => simp [Runs.AllSteps]
    | cons next reasons =>
      have hlabel := stripRetryPrefix_retryLabel reason htitle hstrip
      rw [dropLast_cons_cons, forall_mem_cons, ← hlabel]
      by_cases hclean : stripRetryPrefix (retryLabel title reason) = base
      · rw [ih _ hclean, and_iff_right hclean]
      · refine iff_of_false (fun h => hclean ?_) (fun h => hclean h.1)
        have hnext := h.1
        simp only [retryLabel] at hnext
        split at hnext
        · exact hnext.trans hstrip
        · simpa [hstrip, retryLabel] using hnext

theorem retryLabel_restarts_plain : Runs.AllSteps retryLabel (fun title reason =>
    retryLabel title reason = retryLabel "Build" reason) "Build" ["timeout", "", "exit 1"] :=
  (retryLabel_restarts_iff _ (by decide) _).2 (by decide)

/-- A separator in a reason leaves a part of the reason in the title. -/
theorem reason_in_title : ["a. Retry: b", "c"].foldl retryLabel "Build" =
      "Previous attempt failed: c. Retry: b. Retry: Build" ∧
    retryLabel "Build" "c" = "Previous attempt failed: c. Retry: Build" := by
  decide

end Labels

structure RestartInputs where
  jobId : Uuid
  token : Token
  now : Timestamp
  createdAt : Timestamp
  finishedAt : Timestamp
  loadMode : Except String (Option JobMode)
  save : Answer
  saveMode : Answer
  create : CreateAnswers
  running : Answer
  stop : StopAnswers
  failed : Answer

def buildRestartRecord (old : SandboxJobRecord) (inputs : RestartInputs) : SandboxJobRecord where
  id := inputs.jobId
  task := stripRetryPrefix old.task
  status := .creating
  userId := old.userId
  projectDir := old.projectDir
  success := none
  failureReason := none
  createdAt := inputs.now
  startedAt := none
  completedAt := none
  credentialGrants := old.credentialGrants

/-- Mark a restarted job as failed, and answer with the error. -/
def failRestart (inputs : RestartInputs) (message : String) :
    HostProgram (Except HttpError (Uuid × Uuid)) := do
  match ← on (.updateSandboxJobStatus (.failed inputs.jobId message inputs.finishedAt)
      inputs.failed) with
  | .error _ => pure (.error (internalError "Failed to update sandbox job status"))
  | .ok () => pure (.error (internalError message))

/-- Create the container of a restarted job and mark the job as running. -/
def startRestarted (old : SandboxJobRecord) (mode : JobMode) (inputs : RestartInputs) :
    HostProgram (Except HttpError (Uuid × Uuid)) := do
  let params : CreateJobParams :=
    { jobId := inputs.jobId, token := inputs.token,
      task := retryLabel (stripRetryPrefix old.task) (old.failureReason.getD ""),
      projectDir := some old.projectDir, mode := mode,
      credentialGrants := old.credentialGrants, now := inputs.createdAt }
  match ← createJob params inputs.create with
  | .error _ => failRestart inputs "Failed to create container"
  | .ok _ =>
    match ← on (.updateSandboxJobStatus (.running inputs.jobId inputs.now) inputs.running) with
    | .ok () => pure (.ok (old.id, inputs.jobId))
    | .error _ =>
      match ← stopJob inputs.jobId inputs.stop with
      | .error _ => pure (.error (500, "Failed to persist running sandbox state"))
      | .ok () => failRestart inputs "Failed to persist running sandbox state"

/-- Start a failed or interrupted job once more, as a new job. -/
def restartSandboxJob (sandboxEnabled : Bool) (old : SandboxJobRecord) (inputs : RestartInputs) :
    HostProgram (Except HttpError (Uuid × Uuid)) :=
  if old.status ≠ .interrupted ∧ old.status ≠ .failed then
    pure (.error (409, "Cannot restart job in state '" ++ old.status.asStr ++ "'"))
  else if !sandboxEnabled then pure (.error (503, "Sandbox not enabled"))
  else
    match inputs.loadMode with
    | .error _ => pure (.error (internalError "Failed to load sandbox job mode"))
    | .ok stored => do
      let mode := if stored = some .claudeCode then JobMode.claudeCode else .worker
      match ← on (.saveSandboxJob (buildRestartRecord old inputs) inputs.save) with
      | .error _ => pure (.error (internalError "Failed to save restarted sandbox job"))
      | .ok () =>
        if mode = .claudeCode then
          match ← on (.updateSandboxJobMode inputs.jobId inputs.saveMode) with
          | .error _ => failRestart inputs "Failed to persist restarted sandbox job mode"
          | .ok () => startRestarted old mode inputs
        else startRestarted old mode inputs

/-- Cancel a job on behalf of the user. -/
def cancelSandboxJob (sandboxEnabled : Bool) (jobId : Uuid) (finishedAt : Timestamp)
    (stop : StopAnswers) (update : Answer) : HostProgram (Except HttpError Unit) :=
  if !sandboxEnabled then pure (.error (503, "Sandbox job manager not available"))
  else do
    match ← stopJob jobId stop with
    | .error _ => pure (.error (internalError "Failed to stop sandbox job"))
    | .ok () =>
      match ← on (.updateSandboxJobStatus (.failed jobId "Cancelled by user" finishedAt)
          update) with
      | .error _ => pure (.error (internalError "Failed to update sandbox job status"))
      | .ok () => pure (.ok ())

/-- The report of a worker; a failed clean-up is only logged. -/
def reportComplete (jobId : Uuid) (result : CompletionResult) (answers : StopAnswers) :
    HostProgram Unit :=
  completeJob jobId result answers

end Axinite.Orchestrator
