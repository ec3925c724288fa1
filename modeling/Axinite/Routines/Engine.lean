import Axinite.Foundation.Pool
import Axinite.Foundation.Runs
import Axinite.Session.Turn

/-!
# The routine engine

Routines are fired by messages, system events, cron ticks and by hand.  Events are judged by the
copies of the routines in a cache, a cron tick by the copies that it claims, and a manual fire by
one that it loads.  An automatic trigger checks the cooldown of its copy, asks the database how
many runs of the routine are recorded as running, and reserves one of the slots of the engine.
The task of a run records the run, acts, completes the record, writes the runtime state of the
routine, and releases its slot at the end.

The engine is a pool of tasks.  A task takes one step for each access to the database, to the
counter of running tasks and to the clock, and a run of the engine is a list of moves: triggers
that come in, time that passes, and steps of tasks.  Accesses to the database succeed.
-/

namespace Axinite.Routines

open Foundation Json List

/-! ## Routines -/

/-- When a routine fires. -/
inductive Trigger where
  | cron (schedule : String) (timezone : Option String)
  | event (channel : Option String) (pattern : String)
  | systemEvent (source eventType : String) (filters : List (String × String))
  | manual

/-- Limits on how often the routine runs and how many runs may overlap. -/
structure RoutineGuardrails where
  cooldown : Nat
  maxConcurrent : Nat

/-- A routine, with its runtime state. -/
structure Routine where
  id : Uuid
  name : String
  userId : String
  enabled : Bool
  trigger : Trigger
  guardrails : RoutineGuardrails
  lastRunAt : Option Timestamp
  nextFireAt : Option Timestamp
  runCount : Nat
  consecutiveFailures : Nat
  state : Value

inductive RunStatus where
  | running
  | ok
  | attention
  | failed
  deriving DecidableEq

/-- How the action of a run ends. -/
inductive Outcome where
  | ok
  | attention
  | failed
  deriving DecidableEq

/-- The status that the record of the run gets. -/
def Outcome.status : Outcome → RunStatus
  | ok => .ok
  | attention => .attention
  | failed => .failed

/-- What has fired a run. -/
inductive TriggerType where
  | event
  | systemEvent
  | cron
  | manual
  deriving DecidableEq

/-- The record of a run; its id is its position among the records. -/
structure RoutineRun where
  routineId : Uuid
  triggerType : TriggerType
  status : RunStatus
  deriving DecidableEq

/-- A runtime update that has been stored, for the record. -/
structure StoredUpdate where
  id : Uuid
  lastRunAt : Timestamp
  outcome : Outcome

/-- Settings of the engine, and what it takes from other crates: regular expressions, cron
schedules, and how a number is printed. -/
structure Env where
  maxConcurrentRoutines : Nat
  regex : String → Option (String → Bool)
  nextCronFire : String → Option String → Timestamp → Option Timestamp
  showNumber : Number → String

/-! ## The database -/

/-- A cached routine that is fired by messages or by system events. -/
inductive EventMatcher where
  | message (routine : Routine) (regex : String → Bool)
  | system (routine : Routine)

/-- The tables of routines and runs, the slots in use, the cache, and the clock in milliseconds.
The updates that were stored are kept with the last one first. -/
structure Shared where
  routines : List Routine
  runs : List RoutineRun
  runningCount : Nat
  eventCache : List EventMatcher
  now : Timestamp
  updates : List StoredUpdate

namespace Shared

variable (s : Shared)

def getRoutine (id : Uuid) : Option Routine :=
  s.routines.find? fun routine => routine.id = id

/-- The enabled routines that are fired by events. -/
def listEventRoutines : List Routine :=
  s.routines.filter fun routine =>
    routine.enabled && match routine.trigger with
      | .event .. | .systemEvent .. => true
      | .cron .. | .manual => false

/-- The cron routine is enabled, and its time has come. -/
def isDue (routine : Routine) : Bool :=
  routine.enabled &&
    (match routine.trigger with
      | .cron .. => true
      | .event .. | .systemEvent .. | .manual => false) &&
    routine.nextFireAt.any fun next => next ≤ s.now

/-- Claim the routines that are due: they are not due again for a minute. -/
def listDueCronRoutines : List Routine × Shared :=
  (s.routines.filter s.isDue,
    { s with
      routines := s.routines.map fun routine =>
        if s.isDue routine then { routine with nextFireAt := some (s.now + 60000) }
        else routine })

def countRunningRoutineRuns (id : Uuid) : Nat :=
  s.runs.countP fun run => run.routineId = id && run.status = .running

def createRoutineRun (run : RoutineRun) : Shared :=
  { s with runs := s.runs ++ [run] }

def completeRoutineRun (run : Nat) (status : RunStatus) : Shared :=
  { s with runs := s.runs.modify run fun record => { record with status := status } }

/-- Overwrite the runtime state of a routine. -/
def updateRoutineRuntime (id : Uuid) (lastRunAt : Timestamp) (nextFireAt : Option Timestamp)
    (runCount consecutiveFailures : Nat) (state : Value) : Shared :=
  { s with
    routines := s.routines.map fun routine =>
      if routine.id = id then
        { routine with
          lastRunAt := some lastRunAt, nextFireAt := nextFireAt, runCount := runCount,
          consecutiveFailures := consecutiveFailures, state := state }
      else routine }

end Shared

/-! ## Guardrails -/

/-- The longest duration, in milliseconds, that the calendar library can represent. -/
def maxDuration : Nat :=
  9223372036854775807

/-- The cooldown that the check uses: one that cannot be represented becomes five minutes. -/
def Routine.checkedCooldown (routine : Routine) : Nat :=
  if routine.guardrails.cooldown ≤ maxDuration then routine.guardrails.cooldown else 300000

/-- The cooldown of the copy at hand has passed. -/
def checkCooldown (now : Timestamp) (routine : Routine) : Bool :=
  match routine.lastRunAt with
  | some lastRun => !decide ((now : Int) - lastRun < routine.checkedCooldown)
  | none => true

/-- Fewer runs are recorded as running than the routine allows. -/
def checkConcurrent (s : Shared) (routine : Routine) : Bool :=
  s.countRunningRoutineRuns routine.id < routine.guardrails.maxConcurrent

/-- Take a slot if one is free. -/
def tryReserveRunningSlot (env : Env) (s : Shared) : Option Shared :=
  if s.runningCount ≥ env.maxConcurrentRoutines then none
  else some { s with runningCount := s.runningCount + 1 }

/-- Give a slot back. -/
def Shared.release (s : Shared) : Shared :=
  { s with runningCount := s.runningCount - 1 }

/-! ## Triggers -/

/-- A message of a channel. -/
structure IncomingMessage where
  channel : String
  content : String

/-- An emitted system event. -/
structure SystemEventRef where
  source : String
  eventType : String
  payload : Value
  userId : Option String

/-- The cache that is made of the stored routines; one with an invalid pattern is left out. -/
def eventMatchers (env : Env) (routines : List Routine) : List EventMatcher :=
  routines.filterMap fun routine =>
    match routine.trigger with
    | .event _ pattern => (env.regex pattern).map (EventMatcher.message routine)
    | .systemEvent .. => some (.system routine)
    | .cron .. | .manual => none

/-- The message is on the channel of the routine and matches its pattern. -/
def messageMatches (routine : Routine) (regex : String → Bool) (message : IncomingMessage) :
    Bool :=
  match routine.trigger with
  | .event (some channel) _ => channel = message.channel && regex message.content
  | _ => regex message.content

/-- The text of a payload field that a filter is compared with. -/
def jsonValueAsFilterString (env : Env) : Value → Option String
  | .string s => some s
  | .number n => some (env.showNumber n)
  | .bool b => some (if b then "true" else "false")
  | _ => none

/-- Equality up to the case of ASCII letters. -/
def eqIgnoreAsciiCase (a b : String) : Bool :=
  a.toLower = b.toLower

/-- The payload has the fields that the filters ask for. -/
def filtersMatch (env : Env) (filters : List (String × String)) (payload : Value) : Bool :=
  filters.all fun (key, expected) =>
    match payload with
    | .object fields =>
      ((Map.get key fields).bind (jsonValueAsFilterString env)).any fun actual =>
        eqIgnoreAsciiCase actual expected
    | _ => false

/-- The event is of the source and type of the routine, for its user, and passes the filters. -/
def matchesSystemEvent (env : Env) (routine : Routine) (event : SystemEventRef) : Bool :=
  match routine.trigger with
  | .systemEvent source eventType filters =>
    eqIgnoreAsciiCase source event.source && eqIgnoreAsciiCase eventType event.eventType &&
      event.userId.all (fun userId => routine.userId = userId) &&
      filtersMatch env filters event.payload
  | _ => false

/-! ## Tasks -/

/-- The tasks of the engine, by the step they take next.  A trigger goes through the routines it
has found; `record` and the constructors after it are the stages of a run. -/
inductive Task where
  | events (trigger : TriggerType) (todo : List Routine)
  | eventConcurrent (trigger : TriggerType) (routine : Routine) (todo : List Routine)
  | eventReserve (trigger : TriggerType) (routine : Routine) (todo : List Routine)
  | cron (todo : List Routine)
  | cronCooldown (routine : Routine) (todo : List Routine)
  | cronConcurrent (routine : Routine) (todo : List Routine)
  | manual (routine : Routine)
  | manualReserve (routine : Routine)
  | refresh (cache : List EventMatcher)
  | done
  | record (routine : Routine) (trigger : TriggerType)
  | act (routine : Routine) (run : Nat)
  | complete (routine : Routine) (run : Nat) (outcome : Outcome)
  | stamp (routine : Routine) (outcome : Outcome)
  | update (routine : Routine) (outcome : Outcome) (now : Timestamp)
  | finalize (routine : Routine)
  | finished (routine : Routine)

/-- The task goes through the cache, and holds its lock for reading. -/
def Task.readsCache : Task → Bool
  | events .. | eventConcurrent .. | eventReserve .. => true
  | _ => false

/-- The shared state after the runtime update of a run, which was computed from the copy of the
routine that the run was fired with. -/
def updateRuntimeState (env : Env) (s : Shared) (routine : Routine) (outcome : Outcome)
    (now : Timestamp) : Shared :=
  let nextFire :=
    match routine.trigger with
    | .cron schedule timezone => env.nextCronFire schedule timezone now
    | _ => none
  let newFailures := if outcome = .failed then routine.consecutiveFailures + 1 else 0
  { s.updateRoutineRuntime routine.id now nextFire (routine.runCount + 1) newFailures
      routine.state with
    updates := ⟨routine.id, now, outcome⟩ :: s.updates }

/-- A step that only changes the task. -/
def goOn (s : Shared) (task : Task) : Effect Shared Task :=
  ⟨s, task, []⟩

/-- The step of a task.  The outcome is that of the action, if the action ends in this step. -/
def Task.step (env : Env) (outcome : Outcome) (p : Pool Shared Task) : Task → Effect Shared Task
  | events _ [] => goOn p.shared done
  | events trigger (routine :: todo) =>
    if checkCooldown p.shared.now routine then
      goOn p.shared (eventConcurrent trigger routine todo)
    else goOn p.shared (events trigger todo)
  | eventConcurrent trigger routine todo =>
    if checkConcurrent p.shared routine then
      goOn p.shared (eventReserve trigger routine todo)
    else goOn p.shared (events trigger todo)
  | eventReserve trigger routine todo =>
    match tryReserveRunningSlot env p.shared with
    | some s => ⟨s, events trigger todo, [record routine trigger]⟩
    | none => goOn p.shared (events trigger todo)
  | cron [] => goOn p.shared done
  | cron (routine :: todo) =>
    match tryReserveRunningSlot env p.shared with
    | some s => goOn s (cronCooldown routine todo)
    | none => goOn p.shared done
  | cronCooldown routine todo =>
    if checkCooldown p.shared.now routine then goOn p.shared (cronConcurrent routine todo)
    else goOn p.shared.release (cron todo)
  | cronConcurrent routine todo =>
    if checkConcurrent p.shared routine then ⟨p.shared, cron todo, [record routine .cron]⟩
    else goOn p.shared.release (cron todo)
  | manual routine =>
    if checkConcurrent p.shared routine then goOn p.shared (manualReserve routine)
    else goOn p.shared done
  | manualReserve routine =>
    goOn { p.shared with runningCount := p.shared.runningCount + 1 } (record routine .manual)
  | refresh cache =>
    if p.tasks.any readsCache then goOn p.shared (refresh cache)
    else goOn { p.shared with eventCache := cache } done
  | done => goOn p.shared done
  | record routine trigger =>
    goOn (p.shared.createRoutineRun ⟨routine.id, trigger, .running⟩)
      (act routine p.shared.runs.length)
  | act routine run => goOn p.shared (complete routine run outcome)
  | complete routine run outcome =>
    goOn (p.shared.completeRoutineRun run outcome.status) (stamp routine outcome)
  | stamp routine outcome => goOn p.shared (update routine outcome p.shared.now)
  | update routine outcome now =>
    goOn (updateRuntimeState env p.shared routine outcome now) (finalize routine)
  | finalize routine => goOn p.shared.release (finished routine)
  | finished routine => goOn p.shared (finished routine)

/-! ## The engine -/

/-- The engine with its database. -/
abbrev Engine := Pool Shared Task

/-- The engine at the start, with the routines of the database. -/
def Engine.start (routines : List Routine) (now : Timestamp) : Engine where
  shared :=
    { routines := routines, runs := [], runningCount := 0, eventCache := [], now := now,
      updates := [] }
  tasks := []

/-- Triggers, the passing of time, and steps of tasks. -/
inductive Move where
  | message (message : IncomingMessage)
  | systemEvent (event : SystemEventRef)
  | cronTick
  | fireManual (id : Uuid) (userId : Option String)
  | refreshEventCache
  | wait (milliseconds : Nat)
  | advance (i : Nat) (outcome : Outcome)

/-- The task that a trigger starts, with the state after its first access. -/
def Move.started (env : Env) (s : Shared) : Move → Option (Shared × Task)
  | .message incoming =>
    let todo := s.eventCache.filterMap fun matcher =>
      match matcher with
      | .message routine regex =>
        if messageMatches routine regex incoming then some routine else none
      | .system _ => none
    some (s, .events .event todo)
  | .systemEvent event =>
    let todo := s.eventCache.filterMap fun matcher =>
      match matcher with
      | .system routine => if matchesSystemEvent env routine event then some routine else none
      | .message .. => none
    some (s, .events .systemEvent todo)
  | .cronTick => some (s.listDueCronRoutines.2, .cron s.listDueCronRoutines.1)
  | .fireManual id userId =>
    match s.getRoutine id with
    | some routine =>
      if userId.all (fun uid => routine.userId = uid) && routine.enabled then
        some (s, .manual routine)
      else none
    | none => none
  | .refreshEventCache => some (s, .refresh (eventMatchers env s.listEventRoutines))
  | .wait _ | .advance .. => none

/-- Add the task of a trigger, if it starts one. -/
def Engine.spawn (p : Engine) : Option (Shared × Task) → Engine
  | some (s, task) => Pool.start { p with shared := s } task
  | none => p

def Engine.step (env : Env) (p : Engine) : Move → Engine
  | .advance i outcome => p.advance (Task.step env outcome) i
  | .wait milliseconds => { p with shared.now := p.shared.now + milliseconds }
  | trigger => p.spawn (trigger.started env p.shared)

/-! ## Automatic fires -/

/-- The copy of the routine that an automatic trigger fires in a move. -/
def Engine.firing (env : Env) (p : Engine) : Move → Option Routine
  | .advance i _ =>
    match p.tasks[i]? with
    | some (.eventReserve _ routine _) =>
      if p.shared.runningCount < env.maxConcurrentRoutines then some routine else none
    | some (.cronConcurrent routine _) =>
      if checkConcurrent p.shared routine then some routine else none
    | _ => none
  | _ => none

/-! ## What a step can do -/

/-- The transitions of a task, with what they require and what they do to the shared state. -/
inductive Task.Steps (env : Env) (p : Engine) : Task → Effect Shared Task → Prop where
  | eventsOver (trigger) : Steps env p (events trigger []) (goOn p.shared done)
  | eventCooled (trigger routine todo) (h : checkCooldown p.shared.now routine = true) :
      Steps env p (events trigger (routine :: todo))
        (goOn p.shared (eventConcurrent trigger routine todo))
  | eventCooling (trigger routine todo) :
      Steps env p (events trigger (routine :: todo)) (goOn p.shared (events trigger todo))
  | eventAdmitted (trigger routine todo) (h : checkConcurrent p.shared routine = true) :
      Steps env p (eventConcurrent trigger routine todo)
        (goOn p.shared (eventReserve trigger routine todo))
  | eventCrowded (trigger routine todo) :
      Steps env p (eventConcurrent trigger routine todo) (goOn p.shared (events trigger todo))
  | eventFired (trigger routine todo)
      (h : p.shared.runningCount < env.maxConcurrentRoutines) :
      Steps env p (eventReserve trigger routine todo)
        ⟨{ p.shared with runningCount := p.shared.runningCount + 1 }, events trigger todo,
          [record routine trigger]⟩
  | eventFull (trigger routine todo) :
      Steps env p (eventReserve trigger routine todo) (goOn p.shared (events trigger todo))
  | cronOver : Steps env p (cron []) (goOn p.shared done)
  | cronReserved (routine todo) (h : p.shared.runningCount < env.maxConcurrentRoutines) :
      Steps env p (cron (routine :: todo))
        (goOn { p.shared with runningCount := p.shared.runningCount + 1 }
          (cronCooldown routine todo))
  | cronFull (routine todo) : Steps env p (cron (routine :: todo)) (goOn p.shared done)
  | cronCooled (routine todo) (h : checkCooldown p.shared.now routine = true) :
      Steps env p (cronCooldown routine todo) (goOn p.shared (cronConcurrent routine todo))
  | cronCooling (routine todo) :
      Steps env p (cronCooldown routine todo) (goOn p.shared.release (cron todo))
  | cronFired (routine todo) (h : checkConcurrent p.shared routine = true) :
      Steps env p (cronConcurrent routine todo) ⟨p.shared, cron todo, [record routine .cron]⟩
  | cronCrowded (routine todo) :
      Steps env p (cronConcurrent routine todo) (goOn p.shared.release (cron todo))
  | manualAdmitted (routine) (h : checkConcurrent p.shared routine = true) :
      Steps env p (manual routine) (goOn p.shared (manualReserve routine))
  | manualCrowded (routine) : Steps env p (manual routine) (goOn p.shared done)
  | manualFired (routine) :
      Steps env p (manualReserve routine)
        (goOn { p.shared with runningCount := p.shared.runningCount + 1 }
          (record routine .manual))
  | refreshed (cache) (h : p.tasks.any readsCache = false) :
      Steps env p (refresh cache) (goOn { p.shared with eventCache := cache } done)
  | recorded (routine trigger) :
      Steps env p (record routine trigger)
        (goOn (p.shared.createRoutineRun ⟨routine.id, trigger, .running⟩)
          (act routine p.shared.runs.length))
  | acted (routine run outcome) :
      Steps env p (act routine run) (goOn p.shared (complete routine run outcome))
  | completed (routine run) (outcome : Outcome) :
      Steps env p (complete routine run outcome)
        (goOn (p.shared.completeRoutineRun run outcome.status) (stamp routine outcome))
  | stamped (routine outcome) :
      Steps env p (stamp routine outcome) (goOn p.shared (update routine outcome p.shared.now))
  | updated (routine outcome now) :
      Steps env p (update routine outcome now)
        (goOn (updateRuntimeState env p.shared routine outcome now) (finalize routine))
  | finalized (routine) : Steps env p (finalize routine) (goOn p.shared.release (finished routine))
  | waited (task) : Steps env p task (goOn p.shared task)

theorem tryReserveRunningSlot_eq_some {env : Env} {s s' : Shared}
    (h : tryReserveRunningSlot env s = some s') :
    s.runningCount < env.maxConcurrentRoutines ∧
      s' = { s with runningCount := s.runningCount + 1 } := by
  rw [tryReserveRunningSlot] at h
  split at h
  · cases h
  · next hfree => exact ⟨by omega, (Option.some.inj h).symm⟩

/-- Every step is one of the transitions. -/
theorem Task.steps_step (env : Env) (outcome : Outcome) (p : Engine) (task : Task) :
    Task.Steps env p task (task.step env outcome p) := by
  cases task with
  | events trigger todo =>
    cases todo with
    | nil => exact .eventsOver _
    | cons routine todo =>
      simp only [step]
      split
      · next h => exact .eventCooled _ _ todo h
      · exact .eventCooling _ _ todo
  | eventConcurrent trigger routine todo =>
    simp only [step]
    split
    · next h => exact .eventAdmitted _ _ todo h
    · exact .eventCrowded _ _ todo
  | eventReserve trigger routine todo =>
    simp only [step]
    split
    · next s h =>
      obtain ⟨hfree, rfl⟩ := tryReserveRunningSlot_eq_some h
      exact .eventFired _ _ todo hfree
    · exact .eventFull _ _ todo
  | cron todo =>
    cases todo with
    | nil => exact .cronOver
    | cons routine todo =>
      simp only [step]
      split
      · next s h =>
        obtain ⟨hfree, rfl⟩ := tryReserveRunningSlot_eq_some h
        exact .cronReserved _ todo hfree
      · exact .cronFull _ todo
  | cronCooldown routine todo =>
    simp only [step]
    split
    · next h => exact .cronCooled _ todo h
    · exact .cronCooling _ todo
  | cronConcurrent routine todo =>
    simp only [step]
    split
    · next h => exact .cronFired _ todo h
    · exact .cronCrowded _ todo
  | manual routine =>
    simp only [step]
    split
    · next h => exact .manualAdmitted _ h
    · exact .manualCrowded _
  | manualReserve routine => exact .manualFired _
  | refresh cache =>
    simp only [step]
    split
    · exact .waited _
    · next h => exact .refreshed _ (Bool.eq_false_iff.2 h)
  | done => exact .waited done
  | record routine trigger => exact .recorded _ _
  | act routine run => exact .acted _ run _
  | complete routine run outcome => exact .completed _ run _
  | stamp routine outcome => exact .stamped _ _
  | update routine outcome now => exact .updated _ _ now
  | finalize routine => exact .finalized _
  | finished routine => exact .waited _

/-- A move lets a task take a transition, starts the task of a trigger, or lets time pass. -/
theorem Engine.step_cases (env : Env) (p : Engine) (move : Move) : p.step env move = p ∨
      (∃ i outcome task, move = .advance i outcome ∧ p.tasks[i]? = some task ∧
        Task.Steps env p task (task.step env outcome p) ∧
        p.step env move = p.apply i (task.step env outcome p)) ∨
      (∃ s task, move.started env p.shared = some (s, task) ∧
        p.step env move = Pool.start { p with shared := s } task) ∨
      ∃ milliseconds, p.step env move = { p with shared.now := p.shared.now + milliseconds } := by
  have hkinds : (∃ i outcome, move = .advance i outcome) ∨
      (∃ milliseconds, move = .wait milliseconds) ∨
      p.step env move = p.spawn (move.started env p.shared) := by
    cases move <;> simp [step]
  rcases hkinds with ⟨i, outcome, rfl⟩ | ⟨milliseconds, rfl⟩ | htrigger
  · rcases p.advance_cases (Task.step env outcome) i with hsame | ⟨task, htask, hstep⟩
    · exact .inl hsame
    · exact .inr (.inl ⟨i, outcome, task, rfl, htask,
        Task.steps_step env _ p task, hstep⟩)
  · exact .inr (.inr (.inr ⟨milliseconds, rfl⟩))
  · cases hstarted : move.started env p.shared with
    | none =>
      rw [hstarted] at htrigger
      exact .inl htrigger
    | some started =>
      rw [hstarted] at htrigger
      exact .inr (.inr (.inl ⟨started.1, started.2, rfl, htrigger⟩))

/-! ## Copies of routines -/

def EventMatcher.routine : EventMatcher → Routine
  | message routine _ => routine
  | system routine => routine

/-- The copies of routines that a task works with. -/
def Task.copies : Task → List Routine
  | events _ todo | cron todo => todo
  | eventConcurrent _ routine todo | eventReserve _ routine todo | cronCooldown routine todo
  | cronConcurrent routine todo => routine :: todo
  | refresh cache => cache.map EventMatcher.routine
  | done => []
  | manual routine | manualReserve routine | record routine _ | act routine _
  | complete routine _ _ | stamp routine _ | update routine _ _ | finalize routine
  | finished routine => [routine]

/-- The stored routines have one property, and all copies of them another. -/
structure Everywhere (Row Copy : Routine → Prop) (p : Engine) : Prop where
  stored : ∀ routine ∈ p.shared.routines, Row routine
  cached : ∀ matcher ∈ p.shared.eventCache, Copy matcher.routine
  held : ∀ task ∈ p.tasks, ∀ routine ∈ task.copies, Copy routine

section Everywhere

variable {env : Env} {p : Engine} {Row Copy : Routine → Prop} {e : Effect Shared Task} {task : Task}

/-- A task hands on copies that it had. -/
theorem Task.Steps.copies_subset (h : Task.Steps env p task e) :
    e.task.copies ⊆ task.copies ∧ ∀ spawned ∈ e.spawned, spawned.copies ⊆ task.copies := by
  cases h <;> simp [goOn, copies]

/-- A transition leaves the table of the routines alone, or it is the update of a run. -/
theorem Task.Steps.routines_eq (h : Task.Steps env p task e) :
    (e.shared.routines = p.shared.routines ∧ e.shared.updates = p.shared.updates) ∨
      ∃ routine outcome now, task = .update routine outcome now ∧
        e.shared = updateRuntimeState env p.shared routine outcome now := by
  cases h with
  | updated routine outcome now => exact .inr ⟨routine, outcome, now, rfl, rfl⟩
  | _ => exact .inl ⟨rfl, rfl⟩

/-- What is in the cache was there before, or it is a copy of the task. -/
theorem Task.Steps.mem_eventCache
    (h : Task.Steps env p task e) {matcher : EventMatcher} (hmem : matcher ∈ e.shared.eventCache) :
    matcher ∈ p.shared.eventCache ∨ matcher.routine ∈ task.copies := by
  cases h with
  | refreshed cache _ => exact .inr (mem_map_of_mem hmem)
  | _ => exact .inl hmem

/-- The tasks that triggers start. -/
def Task.isTrigger : Task → Bool
  | events .. | cron _ | manual _ | refresh _ => true
  | _ => false

variable {s : Shared}

/-- A new task is that of a trigger, and its copies were read from the table or from the cache. -/
theorem Move.started_cases {move : Move} (h : move.started env p.shared = some (s, task)) :
    task.isTrigger = true ∧ (s = p.shared ∨ s = p.shared.listDueCronRoutines.2) ∧
      ∀ routine ∈ task.copies, routine ∈ p.shared.routines ∨
        ∃ matcher ∈ p.shared.eventCache, matcher.routine = routine := by
  cases move with
  | message _ | systemEvent _ =>
    obtain ⟨rfl, rfl⟩ := Prod.mk.inj (Option.some.inj h)
    refine ⟨rfl, .inl rfl, fun routine hroutine => .inr ?_⟩
    obtain ⟨matcher, hmem, hsome⟩ := mem_filterMap.1 hroutine
    refine ⟨matcher, hmem, ?_⟩
    -- matchers of the other kind select nothing
    cases matcher <;>
      first | cases hsome | exact Option.some.inj (Option.ite_none_right_eq_some.1 hsome).2
  | cronTick =>
    obtain ⟨rfl, rfl⟩ := Prod.mk.inj (Option.some.inj h)
    exact ⟨rfl, .inr rfl, fun routine hroutine => .inl (mem_filter.1 hroutine).1⟩
  | fireManual id userId =>
    simp only [started] at h
    split at h
    · next found hfound =>
      obtain ⟨rfl, rfl⟩ := Prod.mk.inj (Option.some.inj (Option.ite_none_right_eq_some.1 h).2)
      refine ⟨rfl, .inl rfl, fun routine hroutine => .inl ?_⟩
      rw [mem_singleton.1 hroutine]
      exact mem_of_find?_eq_some hfound
    · cases h
  | refreshEventCache =>
    obtain ⟨rfl, rfl⟩ := Prod.mk.inj (Option.some.inj h)
    refine ⟨rfl, .inl rfl, fun routine hroutine => .inl ?_⟩
    obtain ⟨matcher, hmatcher, rfl⟩ := mem_map.1 hroutine
    obtain ⟨listed, hlisted, hmade⟩ := mem_filterMap.1 hmatcher
    have hsame : matcher.routine = listed := by
      split at hmade
      · obtain ⟨regex, _, rfl⟩ := Option.map_eq_some_iff.1 hmade
        rfl
      · exact (congrArg _ (Option.some.inj hmade)).symm
      · cases hmade
      · cases hmade
    rw [hsame]
    exact (mem_filter.1 hlisted).1
  | wait _ | advance _ _ => cases h

/-- A trigger has come, or time has passed. -/
structure Later (p p' : Engine) : Prop where
  runs : p'.shared.runs = p.shared.runs
  runningCount : p'.shared.runningCount = p.shared.runningCount
  updates : p'.shared.updates = p.shared.updates
  now : p.shared.now ≤ p'.shared.now
  tasks : ∃ new, p'.tasks = p.tasks ++ new ∧ ∀ task ∈ new, task.isTrigger = true

theorem Later.count {p p' : Engine} (h : Later p p') {kind : Task → Bool}
    (hkind : ∀ task : Task, task.isTrigger = true → kind task = false) :
    p'.count kind = p.count kind := by
  obtain ⟨new, htasks, hnew⟩ := h.tasks
  have hnone : new.countP kind = 0 :=
    countP_eq_zero.2 fun task hmem => by simp [hkind task (hnew task hmem)]
  rw [Pool.count, htasks, countP_append, hnone]
  rfl

/-- A move lets a task take a transition, or it starts the task of a trigger at most. -/
theorem Engine.later_or_apply (env : Env) (p : Engine) (move : Move) : Later p (p.step env move) ∨
      ∃ i outcome task, move = .advance i outcome ∧ p.tasks[i]? = some task ∧
        Task.Steps env p task (task.step env outcome p) ∧
        p.step env move = p.apply i (task.step env outcome p) := by
  rcases p.step_cases env move with hsame | happly | ⟨s, task, hstarted, hstep⟩ |
    ⟨milliseconds, hstep⟩
  · rw [hsame]
    exact .inl ⟨rfl, rfl, rfl, Nat.le_refl _, [], by simp, nofun⟩
  · exact .inr happly
  · rw [hstep]
    obtain ⟨htask, hs, -⟩ := Move.started_cases hstarted
    have htasks : ∃ new, p.tasks ++ [task] = p.tasks ++ new ∧ ∀ task ∈ new, task.isTrigger = true :=
      ⟨_, rfl, by simpa using htask⟩
    rcases hs with rfl | rfl
    · exact .inl ⟨rfl, rfl, rfl, Nat.le_refl _, htasks⟩
    · exact .inl ⟨rfl, rfl, rfl, Nat.le_refl _, htasks⟩
  · rw [hstep]
    exact .inl ⟨rfl, rfl, rfl, Nat.le_add_right _ _, [], by simp, nofun⟩

/-- Claiming the due routines changes nothing but the time they are due next. -/
theorem mem_listDueCronRoutines {routine : Routine}
    (h : routine ∈ s.listDueCronRoutines.2.routines) :
    ∃ stored ∈ s.routines, ∃ next, routine = { stored with nextFireAt := next } := by
  obtain ⟨stored, hstored, rfl⟩ := mem_map.1 h
  refine ⟨stored, hstored, ?_⟩
  split
  · exact ⟨_, rfl⟩
  · exact ⟨stored.nextFireAt, rfl⟩

/-- Routines are neither added nor removed. -/
theorem Engine.ids_step (env : Env) (p : Engine) (move : Move) :
    (p.step env move).shared.routines.map Routine.id = p.shared.routines.map Routine.id := by
  rcases p.step_cases env move with hsame | ⟨i, outcome, task, rfl, _, hsteps, hstep⟩ |
    ⟨s, task, hstarted, hstep⟩ | ⟨milliseconds, hstep⟩
  · rw [hsame]
  · rw [hstep, Pool.apply]
    rcases hsteps.routines_eq with ⟨hroutines, _⟩ | ⟨routine, result, now, _, hshared⟩
    · exact congrArg (List.map Routine.id) hroutines
    · simp only [hshared, updateRuntimeState, Shared.updateRoutineRuntime, map_map]
      refine map_congr_left fun row _ => ?_
      simp only [Function.comp_apply]
      split <;> rfl
  · rw [hstep]
    rcases (Move.started_cases hstarted).2.1 with rfl | rfl
    · rfl
    · simp only [Pool.start, Shared.listDueCronRoutines, map_map]
      refine map_congr_left fun row _ => ?_
      simp only [Function.comp_apply]
      split <;> rfl
  · rw [hstep]

/-- A move is the runtime update of a run, or it leaves the updates alone and every property of
rows and copies that does not depend on the time when the routine is due. -/
theorem Engine.quiet_or_update (env : Env) (p : Engine) (move : Move) :
    (((p.step env move).shared.updates = p.shared.updates) ∧
      ∀ Row Copy : Routine → Prop, (∀ routine, Row routine → Copy routine) →
        (∀ routine next, Row routine → Row { routine with nextFireAt := next }) →
        Everywhere Row Copy p → Everywhere Row Copy (p.step env move)) ∨
      ∃ i outcome routine result now, move = .advance i outcome ∧
        p.tasks[i]? = some (.update routine result now) ∧
        p.step env move = p.apply i (goOn (updateRuntimeState env p.shared routine result now)
            (.finalize routine)) := by
  rcases p.step_cases env move with hsame | ⟨i, outcome, task, rfl, htask, hsteps, hstep⟩ |
    ⟨s, task, hstarted, hstep⟩ | ⟨milliseconds, hstep⟩
  · rw [hsame]
    exact .inl ⟨rfl, fun _ _ _ _ h => h⟩
  · rcases hsteps.routines_eq with ⟨hroutines, hupdates⟩ | ⟨routine, result, now, rfl, _⟩
    · rw [hstep]
      refine .inl ⟨hupdates, fun Row Copy hread hclaim h => ⟨?_, ?_, ?_⟩⟩
      · intro routine hroutine
        exact h.stored routine (hroutines ▸ hroutine)
      · intro matcher hmatcher
        rcases hsteps.mem_eventCache hmatcher with hcached | hheld
        · exact h.cached matcher hcached
        · exact h.held task (mem_of_getElem? htask) _ hheld
      · have hheld := h.held task (mem_of_getElem? htask)
        exact Pool.forall_mem_apply h.held (fun _ hcopies => hcopies)
          (fun routine hroutine => hheld routine (hsteps.copies_subset.1 hroutine))
          fun spawned hspawned routine hroutine =>
            hheld routine (hsteps.copies_subset.2 spawned hspawned hroutine)
    · exact .inr ⟨i, outcome, routine, result, now, rfl, htask, hstep⟩
  · obtain ⟨-, hs, hcopies⟩ := Move.started_cases hstarted
    rw [hstep]
    have hupdates : s.updates = p.shared.updates := by rcases hs with rfl | rfl <;> rfl
    have hcache : s.eventCache = p.shared.eventCache := by rcases hs with rfl | rfl <;> rfl
    refine .inl ⟨hupdates, fun Row Copy hread hclaim h => ⟨?_, ?_, ?_⟩⟩
    · intro routine hroutine
      rcases hs with rfl | rfl
      · exact h.stored routine hroutine
      · obtain ⟨stored, hstored, next, rfl⟩ := mem_listDueCronRoutines hroutine
        exact hclaim stored next (h.stored stored hstored)
    · intro matcher hmatcher
      exact h.cached matcher (hcache ▸ hmatcher)
    · refine Pool.forall_mem_start h.held fun routine hroutine => ?_
      rcases hcopies routine hroutine with hstored | ⟨matcher, hmatcher, rfl⟩
      · exact hread routine (h.stored routine hstored)
      · exact h.cached matcher hmatcher
  · rw [hstep]
    exact .inl ⟨rfl, fun _ _ _ _ h => ⟨h.stored, h.cached, h.held⟩⟩

/-- The rows after an update: those of the routine have the values of the update. -/
theorem mem_updateRuntimeState {routine row : Routine} {outcome : Outcome}
    {now : Timestamp} (h : row ∈ (updateRuntimeState env s routine outcome now).routines) :
    ∃ stored ∈ s.routines, row.id = stored.id ∧ row.guardrails = stored.guardrails ∧
      (stored.id ≠ routine.id ∧ row = stored ∨
        stored.id = routine.id ∧ row.runCount = routine.runCount + 1 ∧ row.consecutiveFailures =
            if outcome = .failed then routine.consecutiveFailures + 1 else 0) := by
  obtain ⟨stored, hstored, rfl⟩ := mem_map.1 h
  refine ⟨stored, hstored, ?_⟩
  by_cases hid : stored.id = routine.id
  · simp [hid]
  · simp [hid]

/-- An update changes the rows, and keeps the copies. -/
theorem everywhere_update {i : Nat} {routine : Routine} {outcome : Outcome} {now : Timestamp}
    {Row Copy : Routine → Prop} {Row' Copy' : Routine → Prop} (h : Everywhere Row Copy p)
    (hcopy : ∀ copy, Copy copy → Copy' copy)
    (hroutine : p.tasks[i]? = some (.update routine outcome now))
    (hrow : ∀ row ∈ (updateRuntimeState env p.shared routine outcome now).routines, Row' row) :
    Everywhere Row' Copy' (p.apply i (goOn (updateRuntimeState env p.shared routine outcome now)
      (.finalize routine))) where
  stored := hrow
  cached := fun matcher hmatcher => hcopy _ (h.cached matcher hmatcher)
  held := by
    have hheld := h.held _ (mem_of_getElem? hroutine)
    exact Pool.forall_mem_apply h.held (fun _ hcopies copy hmem => hcopy copy (hcopies copy hmem))
      (fun copy hmem => hcopy copy (hheld copy hmem)) (fun _ hnone => by cases hnone)

end Everywhere

/-! ## Samples -/

/-- Up to ten routines at a time; every message matches every pattern. -/
def sampleEnv : Env where
  maxConcurrentRoutines := 10
  regex := fun _ => some fun _ => true
  nextCronFire := fun _ _ _ => none
  showNumber := fun _ => ""

/-- A routine that has never run, and may run once at a time. -/
def sampleRoutine (trigger : Trigger) (cooldown : Nat) : Routine where
  id := 1
  name := "triage"
  userId := "user123"
  enabled := true
  trigger := trigger
  guardrails := { cooldown := cooldown, maxConcurrent := 1 }
  lastRunAt := none
  nextFireAt := none
  runCount := 0
  consecutiveFailures := 0
  state := .null

/-- Steps of a task. -/
def steps (n i : Nat) (outcome : Outcome) : List Move :=
  List.replicate n (.advance i outcome)

end Axinite.Routines
