import Axinite.Context.State
import Axinite.Foundation.Program
import Mathlib.Data.List.AList

/-!
# Context manager

The manager keeps the context and the memory of every job, in two maps with a lock each.
Creating and removing a job touch both maps, one after the other; so each of these calls is
a program of two critical sections.
-/

namespace Axinite.Context

open Json Foundation

/-! ## Memories -/

/-- Record of an action taken by a job. -/
structure ActionRecord where
  sequence : Nat
  toolName : String
  input : Value
  outputRaw : Option String
  outputSanitized : Option Value
  success : Bool
  error : Option String

/-- Mark the action as successful. -/
def ActionRecord.succeed (outputRaw : Option String) (outputSanitized : Value)
    (action : ActionRecord) : ActionRecord :=
  { action with success := true, outputRaw := outputRaw, outputSanitized := some outputSanitized }

/-- Mark the action as failed. -/
def ActionRecord.fail (error : String) (action : ActionRecord) : ActionRecord :=
  { action with success := false, error := some error }

/-- Memory of a job. -/
structure Memory where
  jobId : Uuid
  actions : List ActionRecord
  nextSequence : Nat

namespace Memory

def new (jobId : Uuid) : Memory where
  jobId := jobId
  actions := []
  nextSequence := 0

/-- Create an action record with the next sequence number. -/
def createAction (toolName : String) (input : Value) (memory : Memory) : ActionRecord × Memory :=
  ({ sequence := memory.nextSequence
     toolName := toolName
     input := input
     outputRaw := none
     outputSanitized := none
     success := false
     error := none },
    { memory with nextSequence := memory.nextSequence + 1 })

/-- Record a completed action. -/
def recordAction (action : ActionRecord) (memory : Memory) : Memory :=
  { memory with actions := memory.actions ++ [action] }

end Memory

/-! ## The manager -/

/-- Errors about jobs. -/
inductive JobError where
  | notFound (id : Uuid)
  | invalidTransition (id : Uuid) (fromState target : JobState)
  | failed (id : Uuid) (reason : String)
  | maxJobsExceeded (max : Nat)
  | contextError (id : Uuid) (reason : String)
  | persistenceError (id : Uuid) (reason : String)
  deriving DecidableEq

/-- Contexts and memories of all jobs, and the identifier of the next job. -/
structure ContextManager where
  contexts : AList fun _ : Uuid => JobContext
  memories : AList fun _ : Uuid => Memory
  maxJobs : Nat
  nextUuid : Uuid

namespace ContextManager

/-- A manager without jobs. -/
def new (maxJobs : Nat) : ContextManager where
  contexts := ∅
  memories := ∅
  maxJobs := maxJobs
  nextUuid := 0

/-- The number of active jobs. -/
def activeCount (m : ContextManager) : Nat :=
  (m.contexts.entries.filter fun entry => entry.2.state.isActive).length

def getContext (jobId : Uuid) (m : ContextManager) : Except JobError JobContext :=
  match m.contexts.lookup jobId with
  | some ctx => .ok ctx
  | none => .error (.notFound jobId)

/-- Update the context of a job and answer what the update answers. -/
def updateContext {R : Type} (jobId : Uuid) (f : JobContext → R × JobContext)
    (m : ContextManager) : Except JobError R × ContextManager :=
  match m.contexts.lookup jobId with
  | some ctx => (.ok (f ctx).1, { m with contexts := m.contexts.insert jobId (f ctx).2 })
  | none => (.error (.notFound jobId), m)

/-- Update the memory of a job and answer what the update answers. -/
def updateMemory {R : Type} (jobId : Uuid) (f : Memory → R × Memory)
    (m : ContextManager) : Except JobError R × ContextManager :=
  match m.memories.lookup jobId with
  | some memory => (.ok (f memory).1, { m with memories := m.memories.insert jobId (f memory).2 })
  | none => (.error (.notFound jobId), m)

/-- Count the active jobs and insert the context of a new one, under one lock. -/
def createContext (now : Timestamp) (userId title description : String) (m : ContextManager) :
    Except JobError Uuid × ContextManager :=
  if m.activeCount ≥ m.maxJobs then (.error (.maxJobsExceeded m.maxJobs), m)
  else
    (.ok m.nextUuid,
      { m with
        contexts := m.contexts.insert m.nextUuid
          (JobContext.withUser now m.nextUuid userId title description)
        nextUuid := m.nextUuid + 1 })

end ContextManager

/-- The context of a job after an update that found it. -/
theorem updateContext_of_lookup {R : Type} {jobId : Uuid} {m : ContextManager} {ctx : JobContext}
    (h : m.contexts.lookup jobId = some ctx) (f : JobContext → R × JobContext) :
    m.updateContext jobId f =
      (.ok (f ctx).1, { m with contexts := m.contexts.insert jobId (f ctx).2 }) := by
  simp [ContextManager.updateContext, h]

theorem updateContext_of_lookup_eq_none {R : Type} {jobId : Uuid} {m : ContextManager}
    (h : m.contexts.lookup jobId = none) (f : JobContext → R × JobContext) :
    m.updateContext jobId f = (.error (.notFound jobId), m) := by
  simp [ContextManager.updateContext, h]

/-! ## Critical sections -/

/-- The critical sections of the manager. -/
inductive ContextOp where
  | createContext (now : Timestamp) (userId title description : String)
  | insertMemory (jobId : Uuid)
  | removeContext (jobId : Uuid)
  | removeMemory (jobId : Uuid)
  | updateContext (jobId : Uuid) (f : JobContext → JobContext)
  | updateMemory (jobId : Uuid) (f : Memory → Memory)

namespace ContextOp

/-- What a critical section answers. -/
abbrev Resp : ContextOp → Type
  | createContext _ _ _ _ => Except JobError Uuid
  | insertMemory _ => Unit
  | removeContext _ => Option JobContext
  | removeMemory _ => Option Memory
  | updateContext _ _ => Except JobError Unit
  | updateMemory _ _ => Except JobError Unit

/-- Effect of a critical section. -/
def exec : (op : ContextOp) → ContextManager → op.Resp × ContextManager
  | createContext now userId title description, m => m.createContext now userId title description
  | insertMemory jobId, m =>
    ((), { m with memories := m.memories.insert jobId (Memory.new jobId) })
  | removeContext jobId, m =>
    (m.contexts.lookup jobId, { m with contexts := m.contexts.erase jobId })
  | removeMemory jobId, m =>
    (m.memories.lookup jobId, { m with memories := m.memories.erase jobId })
  | updateContext jobId f, m => m.updateContext jobId fun ctx => ((), f ctx)
  | updateMemory jobId f, m => m.updateMemory jobId fun memory => ((), f memory)

end ContextOp

/-! ## Calls -/

/-- A program over the critical sections of the manager. -/
abbrev ContextProgram := Program ContextOp ContextOp.Resp

/-- Perform one critical section of the manager. -/
abbrev locked (op : ContextOp) : ContextProgram op.Resp :=
  Program.perform op

def createJobForUser (now : Timestamp) (userId title description : String) :
    ContextProgram (Except JobError Uuid) := do
  match ← locked (.createContext now userId title description) with
  | .error e => pure (.error e)
  | .ok jobId =>
    locked (.insertMemory jobId)
    pure (.ok jobId)

def removeJob (jobId : Uuid) : ContextProgram (Except JobError (JobContext × Memory)) := do
  match ← locked (.removeContext jobId) with
  | none => pure (.error (.notFound jobId))
  | some context =>
    match ← locked (.removeMemory jobId) with
    | none => pure (.error (.notFound jobId))
    | some memory => pure (.ok (context, memory))

/-- A call of the manager. -/
inductive ContextCall where
  | createJobForUser (now : Timestamp) (userId title description : String)
  | removeJob (jobId : Uuid)
  | updateContext (jobId : Uuid) (f : JobContext → JobContext)
  | updateMemory (jobId : Uuid) (f : Memory → Memory)

/-- The program of a call; its answer is dropped. -/
def ContextCall.program : ContextCall → ContextProgram Unit
  | createJobForUser now userId title description => do
    let _ ← Context.createJobForUser now userId title description
    pure ()
  | removeJob jobId => do
    let _ ← Context.removeJob jobId
    pure ()
  | updateContext jobId f => do
    let _ ← locked (.updateContext jobId f)
    pure ()
  | updateMemory jobId f => do
    let _ ← locked (.updateMemory jobId f)
    pure ()

end Axinite.Context
