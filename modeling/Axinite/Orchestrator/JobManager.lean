import Axinite.Orchestrator.World

/-!
# Container jobs

The calls of the container job manager as programs over the operations of the host.  Creating a
job takes a token, a handle and a container, in this order, and stores the identifier of the
container in the handle at last.  Stopping and completing a job go the other way round, from the
identifier in the handle to the container.
-/

namespace Axinite.Orchestrator

open Foundation

/-- What the daemon answers to a call that stops and removes a container. -/
structure StopAnswers where
  connect : Answer
  stop : Answer
  remove : Answer

/-- Answers without an error. -/
def StopAnswers.succeeding : StopAnswers where
  connect := .ok ()
  stop := .ok ()
  remove := .ok ()

/-- What the daemon answers to a call that creates a container, and whether the workspace can
be bound. -/
structure CreateAnswers where
  connect : Answer
  binds : Except OrchestratorError Unit
  create : Answer
  start : Answer
  remove : Answer

/-- Answers without an error. -/
def CreateAnswers.succeeding : CreateAnswers where
  connect := .ok ()
  binds := .ok ()
  create := .ok ()
  start := .ok ()
  remove := .ok ()

/-- Inputs of a new job. -/
structure CreateJobParams where
  jobId : Uuid
  token : Token
  task : String
  projectDir : Option String
  mode : JobMode
  credentialGrants : List CredentialGrant
  now : Timestamp

/-- Remove the token and the grants of a job. -/
def revoke (jobId : Uuid) : HostProgram Unit := do
  on (.removeToken jobId)
  on (.removeGrants jobId)

/-- Stop and remove a container; failures are only logged. -/
def stopAndRemove (id : ContainerId) (answers : StopAnswers) : HostProgram Unit := do
  let _ ← on (.stopContainer id answers.stop)
  let _ ← on (.removeContainer id answers.remove)
  pure ()

/-- Create and start a container, and remove it again if it does not start. -/
def createAndStartContainer (jobId : Uuid) (now : Timestamp) (answers : CreateAnswers) :
    HostProgram (Except OrchestratorError ContainerId) := do
  match ← on (.createContainer jobId now answers.create) with
  | .error e => pure (.error (.containerCreationFailed jobId e))
  | .ok id =>
    match ← on (.startContainer id answers.start) with
    | .ok () => pure (.ok id)
    | .error e =>
      let _ ← on (.removeContainer id answers.remove)
      pure (.error (.containerCreationFailed jobId ("failed to start container: " ++ e)))

/-- Create the container of a job and store its identifier in the handle. -/
def createJobInner (jobId : Uuid) (now : Timestamp) (answers : CreateAnswers) :
    HostProgram (Except OrchestratorError Unit) := do
  match ← on (.connect answers.connect) with
  | .error e => pure (.error (.docker e))
  | .ok () =>
    match answers.binds with
    | .error e => pure (.error e)
    | .ok () =>
      match ← createAndStartContainer jobId now answers with
      | .error e => pure (.error e)
      | .ok id =>
        on (.setContainerId jobId id)
        pure (.ok ())

/-- The handle of a job that has no container yet. -/
def CreateJobParams.handle (params : CreateJobParams) : ContainerHandle where
  jobId := params.jobId
  containerId := none
  state := .creating
  mode := params.mode
  createdAt := params.now
  projectDir := params.projectDir
  taskDescription := params.task
  lastWorkerStatus := none
  workerIteration := 0
  completionResult := none

/-- Take everything back after a failure. -/
def abandonJob (jobId : Uuid) : HostProgram Unit := do
  revoke jobId
  let _ ← on (.removeHandle jobId)
  pure ()

/-- Create and start a container for a job; the answer is the token of its worker. -/
def createJob (params : CreateJobParams) (answers : CreateAnswers) :
    HostProgram (Except OrchestratorError Token) := do
  on (.createToken params.jobId params.token)
  on (.storeGrants params.jobId params.credentialGrants)
  on (.insertHandle params.handle)
  match ← createJobInner params.jobId params.now answers with
  | .ok () => pure (.ok params.token)
  | .error e =>
    abandonJob params.jobId
    pure (.error e)

/-- Stop and remove the container of a job. -/
def stopJob (jobId : Uuid) (answers : StopAnswers) : HostProgram (Except OrchestratorError Unit) := do
  match ← on (.containerId jobId) with
  | none => pure (.error (.containerNotFound jobId))
  | some id =>
    match ← on (.connect answers.connect) with
    | .error e => pure (.error (.docker e))
    | .ok () =>
      stopAndRemove id answers
      on (.setState jobId .stopped)
      revoke jobId
      pure (.ok ())

/-- Stop and remove the container of a completed job, if the handle knows it. -/
def cleanContainer (jobId : Uuid) (answers : StopAnswers) : HostProgram Unit := do
  match ← on (.containerId jobId) with
  | none => pure ()
  | some id =>
    match ← on (.connect answers.connect) with
    | .ok () => stopAndRemove id answers
    | .error _ => pure ()

/-- Record the result of a job and stop its container. -/
def completeJob (jobId : Uuid) (result : CompletionResult) (answers : StopAnswers) :
    HostProgram Unit := do
  on (.setCompletion jobId result)
  cleanContainer jobId answers
  revoke jobId

/-- Remove the handle of a job. -/
def cleanupJob (jobId : Uuid) : HostProgram Unit := do
  let _ ← on (.removeHandle jobId)
  pure ()

end Axinite.Orchestrator
