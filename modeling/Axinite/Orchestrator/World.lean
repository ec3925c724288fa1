import Axinite.Context.Manager
import Axinite.Orchestrator.TokenStore

/-!
# The host of the container jobs

A container job is spread over several stores, each behind its own lock: the registry of the
handles, the tokens and grants, the Docker daemon, the contexts of the agent jobs and the
database.  An operation takes one of these locks, or is one call of the daemon or of the
database; the answers of the daemon and of the database are inputs of the operation.

Two fields are bookkeeping: `started` and `completions` say whose container has been started
and what the workers have reported.  No program reads them.

Main results:

- Definition `HostOp.exec`: effect and answer of every operation.
-/

namespace Axinite.Orchestrator

open Context Foundation

/-! ## Containers and handles -/

/-- What a container runs. -/
inductive JobMode where
  | worker
  | claudeCode
  deriving DecidableEq

inductive ContainerState where
  | creating
  | running
  | stopped
  | failed
  deriving DecidableEq

/-- Identifier that the daemon gave to a container. -/
abbrev ContainerId := Nat

/-- Result reported by a worker on completion. -/
structure CompletionResult where
  success : Bool
  message : Option String
  deriving DecidableEq

/-- Handle of a container job. -/
structure ContainerHandle where
  jobId : Uuid
  containerId : Option ContainerId
  state : ContainerState
  mode : JobMode
  createdAt : Timestamp
  projectDir : Option String
  taskDescription : String
  lastWorkerStatus : Option String
  workerIteration : Nat
  completionResult : Option CompletionResult
  deriving DecidableEq

/-- The handle with the identifier of its started container. -/
def ContainerHandle.assign (id : ContainerId) (handle : ContainerHandle) : ContainerHandle :=
  { handle with containerId := some id, state := .running }

/-- The handle with the result of its worker. -/
def ContainerHandle.complete (result : CompletionResult) (handle : ContainerHandle) :
    ContainerHandle :=
  { handle with completionResult := some result, state := .stopped }

inductive OrchestratorError where
  | containerCreationFailed (jobId : Uuid) (reason : String)
  | containerNotFound (jobId : Uuid)
  | docker (reason : String)
  deriving DecidableEq

/-- A container of the daemon, with what its labels say. -/
structure Container where
  id : ContainerId
  jobId : Option Uuid
  createdAt : Option Timestamp
  running : Bool
  deriving DecidableEq

/-! ## Stored jobs -/

/-- Status of a stored sandbox job. -/
inductive SandboxJobStatus where
  | creating
  | running
  | completed
  | failed
  | interrupted
  deriving DecidableEq

/-- A sandbox job as it is stored; the grants are what their JSON text stands for. -/
structure SandboxJobRecord where
  id : Uuid
  task : String
  status : SandboxJobStatus
  userId : String
  projectDir : String
  success : Option Bool
  failureReason : Option String
  createdAt : Timestamp
  startedAt : Option Timestamp
  completedAt : Option Timestamp
  credentialGrants : List CredentialGrant

/-- A change of the stored status. -/
structure StatusTransition where
  jobId : Uuid
  status : SandboxJobStatus
  success : Option Bool
  message : Option String
  startedAt : Option Timestamp
  completedAt : Option Timestamp

namespace StatusTransition

def base (jobId : Uuid) (status : SandboxJobStatus) : StatusTransition where
  jobId := jobId
  status := status
  success := none
  message := none
  startedAt := none
  completedAt := none

def running (jobId : Uuid) (startedAt : Timestamp) : StatusTransition :=
  { base jobId .running with startedAt := some startedAt }

def completed (jobId : Uuid) (completedAt : Timestamp) : StatusTransition :=
  { base jobId .completed with success := some true, completedAt := some completedAt }

def failed (jobId : Uuid) (message : String) (completedAt : Timestamp) : StatusTransition :=
  { base jobId .failed with
    success := some false, message := some message, completedAt := some completedAt }

/-- The update of a stored record; absent values leave the stored ones. -/
def apply (transition : StatusTransition) (record : SandboxJobRecord) : SandboxJobRecord :=
  { record with
    status := transition.status
    success := transition.success.or record.success
    failureReason := transition.message.or record.failureReason
    startedAt := transition.startedAt.or record.startedAt
    completedAt := transition.completedAt.or record.completedAt }

end StatusTransition

/-! ## The host -/

/-- The stores of the host. -/
structure Host where
  registry : Uuid → Option ContainerHandle
  tokenStore : TokenStore
  containers : List Container
  nextContainer : ContainerId
  contexts : ContextManager
  jobs : Uuid → Option SandboxJobRecord
  spawned : List StatusTransition
  started : List Uuid
  completions : List (Uuid × CompletionResult)

namespace Host

/-- A host on which nothing has happened. -/
def init (maxJobs : Nat) : Host where
  registry := fun _ => none
  tokenStore := .new
  containers := []
  nextContainer := 0
  contexts := .new maxJobs
  jobs := fun _ => none
  spawned := []
  started := []
  completions := []

/-- Change the handle of a job, if there is one. -/
@[simps]
def modifyHandle (host : Host) (jobId : Uuid) (f : ContainerHandle → ContainerHandle) : Host :=
  { host with registry := Function.update host.registry jobId ((host.registry jobId).map f) }

/-- Change a container of the daemon. -/
@[simps]
def modifyContainer (host : Host) (id : ContainerId) (f : Container → Container) : Host :=
  { host with
    containers := host.containers.map fun container =>
      if container.id = id then f container else container }

/-- The jobs that a container belongs to. -/
def jobsOf (host : Host) (id : ContainerId) : List Uuid :=
  (host.containers.filter fun container => container.id = id).filterMap Container.jobId

/-- Apply a status update to the stored job, if there is one. -/
@[simps]
def updateStatus (host : Host) (transition : StatusTransition) : Host :=
  { host with
    jobs := Function.update host.jobs transition.jobId
      ((host.jobs transition.jobId).map transition.apply) }

end Host

/-! ## Operations -/

/-- An answer of the daemon or of the database: nothing, or the text of an error. -/
abbrev Answer := Except String Unit

/-- Operations on the host. -/
inductive HostOp where
  -- tokens and grants
  | createToken (jobId : Uuid) (token : Token)
  | storeGrants (jobId : Uuid) (grants : List CredentialGrant)
  | removeToken (jobId : Uuid)
  | removeGrants (jobId : Uuid)
  -- the registry
  | insertHandle (handle : ContainerHandle)
  | removeHandle (jobId : Uuid)
  | getHandle (jobId : Uuid)
  | containerId (jobId : Uuid)
  | setContainerId (jobId : Uuid) (containerId : ContainerId)
  | setCompletion (jobId : Uuid) (result : CompletionResult)
  | setState (jobId : Uuid) (state : ContainerState)
  | updateWorkerStatus (jobId : Uuid) (message : Option String) (iteration : Nat)
  -- the Docker daemon
  | connect (answer : Answer)
  | createContainer (jobId : Uuid) (createdAt : Timestamp) (answer : Answer)
  | startContainer (id : ContainerId) (answer : Answer)
  | stopContainer (id : ContainerId) (answer : Answer)
  | removeContainer (id : ContainerId) (answer : Answer)
  | listContainers (answer : Answer)
  -- the contexts of the agent jobs
  | context (op : ContextOp)
  | getContext (jobId : Uuid)
  -- the database
  | saveSandboxJob (record : SandboxJobRecord) (answer : Answer)
  | updateSandboxJobMode (jobId : Uuid) (answer : Answer)
  | updateSandboxJobStatus (transition : StatusTransition) (answer : Answer)
  -- the runtime: tasks that are spawned and run later, and the deadline of a poller
  | spawnStatusUpdate (transition : StatusTransition)
  | runStatusUpdate (i : Nat) (answer : Answer)
  | deadlinePassed (jobId : Uuid)

namespace HostOp

/-- What an operation answers. -/
abbrev Resp : HostOp → Type
  | removeHandle _ => Option ContainerHandle
  | getHandle _ => Option ContainerHandle
  | containerId _ => Option ContainerId
  | connect _ => Answer
  | createContainer _ _ _ => Except String ContainerId
  | startContainer _ _ => Answer
  | stopContainer _ _ => Answer
  | removeContainer _ _ => Answer
  | listContainers _ => Except String (List Container)
  | context op => op.Resp
  | getContext _ => Except JobError JobContext
  | saveSandboxJob _ _ => Answer
  | updateSandboxJobMode _ _ => Answer
  | updateSandboxJobStatus _ _ => Answer
  | _ => Unit

/-- Effect of an operation. -/
def exec : (op : HostOp) → Host → op.Resp × Host
  | createToken jobId token, host =>
    ((), { host with tokenStore := host.tokenStore.createToken jobId token })
  | storeGrants jobId grants, host =>
    ((), { host with tokenStore := host.tokenStore.storeGrants jobId grants })
  | removeToken jobId, host => ((), { host with tokenStore := host.tokenStore.removeToken jobId })
  | removeGrants jobId, host =>
    ((), { host with tokenStore := host.tokenStore.removeGrants jobId })
  | insertHandle handle, host =>
    ((), { host with registry := Function.update host.registry handle.jobId (some handle) })
  | removeHandle jobId, host =>
    (host.registry jobId, { host with registry := Function.update host.registry jobId none })
  | getHandle jobId, host => (host.registry jobId, host)
  | containerId jobId, host => ((host.registry jobId).bind ContainerHandle.containerId, host)
  | setContainerId jobId id, host =>
    ((), host.modifyHandle jobId (ContainerHandle.assign id))
  | setCompletion jobId result, host =>
    ((), { host.modifyHandle jobId (ContainerHandle.complete result) with
          completions := (jobId, result) :: host.completions })
  | setState jobId state, host =>
    ((), host.modifyHandle jobId fun handle => { handle with state := state })
  | updateWorkerStatus jobId message iteration, host =>
    ((), host.modifyHandle jobId fun handle =>
      { handle with lastWorkerStatus := message, workerIteration := iteration })
  | connect answer, host => (answer, host)
  | createContainer jobId createdAt answer, host =>
    match answer with
    | .error e => (.error e, host)
    | .ok () =>
      (.ok host.nextContainer,
        { host with
          containers := host.containers ++
            [{ id := host.nextContainer, jobId := some jobId, createdAt := some createdAt,
               running := false }]
          nextContainer := host.nextContainer + 1 })
  | startContainer id answer, host =>
    match answer with
    | .error e => (.error e, host)
    | .ok () =>
      (.ok (), { host.modifyContainer id fun container => { container with running := true } with
        started := host.jobsOf id ++ host.started })
  | stopContainer id answer, host =>
    match answer with
    | .error e => (.error e, host)
    | .ok () =>
      (.ok (), host.modifyContainer id fun container => { container with running := false })
  | removeContainer id answer, host =>
    match answer with
    | .error e => (.error e, host)
    | .ok () =>
      (.ok (), { host with containers := host.containers.filter fun container =>
        container.id ≠ id })
  | listContainers answer, host => (answer.map fun _ => host.containers, host)
  | context op, host => ((op.exec host.contexts).1, { host with contexts := (op.exec host.contexts).2 })
  | getContext jobId, host => (host.contexts.getContext jobId, host)
  | saveSandboxJob record answer, host =>
    match answer with
    | .error e => (.error e, host)
    | .ok () => (.ok (), { host with jobs := Function.update host.jobs record.id (some record) })
  | updateSandboxJobMode _ answer, host => (answer, host)
  | updateSandboxJobStatus transition answer, host =>
    match answer with
    | .error e => (.error e, host)
    | .ok () => (.ok (), host.updateStatus transition)
  | spawnStatusUpdate transition, host =>
    ((), { host with spawned := host.spawned ++ [transition] })
  | runStatusUpdate i answer, host =>
    match host.spawned[i]?, answer with
    | some transition, .ok () =>
      ((), { host.updateStatus transition with spawned := host.spawned.eraseIdx i })
    | _, _ => ((), { host with spawned := host.spawned.eraseIdx i })
  | deadlinePassed _, host => ((), host)

end HostOp

/-- A program over the operations of the host. -/
abbrev HostProgram := Program HostOp HostOp.Resp

/-- Perform one operation. -/
abbrev on (op : HostOp) : HostProgram op.Resp :=
  Program.perform op

end Axinite.Orchestrator
