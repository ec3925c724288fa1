import Axinite.Routines.Engine

/-!
# The cooldown of routines

The cooldown is judged by the copy of the routine that the trigger has found.  For events this is
the copy in the cache, which is refreshed only when routines are edited, so a trigger may know
nothing of the runs that have completed since.  The cooldown is kept for those completions that
the copy has seen.

Main results:

- Theorem `cooled_step`: a routine that has passed the check has cooled down by its copy.
- Theorem `cooldown_respected_iff`: the histories in which no routine fires too early.
-/

namespace Axinite.Routines

open Foundation

/-! ## The check -/

/-- The routine whose cooldown has been checked. -/
def Task.cooled : Task → Option Routine
  | eventConcurrent _ routine _ | eventReserve _ routine _ | cronConcurrent routine _ =>
    some routine
  | _ => none

variable {env : Env} {p : Engine}

/-- A fired routine has passed the check. -/
theorem cooled_of_firing {move : Move} {routine : Routine} (h : p.firing env move = some routine) :
    ∃ task ∈ p.tasks, task.cooled = some routine := by
  cases move with
  | advance i outcome =>
    simp only [Engine.firing] at h
    split at h
    · next htask =>
      exact ⟨_, List.mem_of_getElem? htask, (Option.ite_none_right_eq_some.1 h).2⟩
    · next htask =>
      exact ⟨_, List.mem_of_getElem? htask, (Option.ite_none_right_eq_some.1 h).2⟩
    · cases h
  | _ => cases h

/-- The last run that the copy knows of is a cooldown ago. -/
def Routine.CooledAt (routine : Routine) (now : Timestamp) : Prop :=
  ∀ last ∈ routine.lastRunAt, last + routine.checkedCooldown ≤ now

theorem cooledAt_of_checkCooldown {now : Timestamp} {routine : Routine}
    (h : checkCooldown now routine = true) : routine.CooledAt now := by
  intro last hlast
  rw [checkCooldown, Option.mem_def.1 hlast] at h
  simp only [Bool.not_eq_true', decide_eq_false_iff_not] at h
  have hle : (last : Int) + routine.checkedCooldown ≤ now := by omega
  exact_mod_cast hle

/-- Every routine that has passed the check has cooled down, by its copy. -/
def Cooled (p : Engine) : Prop :=
  ∀ task ∈ p.tasks, ∀ routine ∈ task.cooled, routine.CooledAt p.shared.now

theorem Task.Steps.now_eq {task : Task} {e : Effect Shared Task} (h : Task.Steps env p task e) :
    e.shared.now = p.shared.now := by
  cases h <;> rfl

/-- A transition leads to a checked routine by the check, or from one that was checked. -/
theorem Task.Steps.cooled {task : Task} {e : Effect Shared Task} (h : Task.Steps env p task e) :
    (∀ routine ∈ e.task.cooled,
      task.cooled = some routine ∨ checkCooldown p.shared.now routine = true) ∧
      ∀ spawned ∈ e.spawned, spawned.cooled = none := by
  cases h <;> simp_all [goOn, Task.cooled]

theorem cooled_step (move : Move) (h : Cooled p) : Cooled (p.step env move) := by
  rcases p.later_or_apply env move with hlater | ⟨i, outcome, task, rfl, htask, hsteps, hstep⟩
  · obtain ⟨new, htasks, hnew⟩ := hlater.tasks
    intro task hmem routine hroutine last hlast
    rw [htasks] at hmem
    rcases List.mem_append.1 hmem with hold | hmem
    · exact (h task hold _ hroutine last hlast).trans hlater.now
    · have htrigger := hnew task hmem
      cases task <;> simp_all [Task.isTrigger, Task.cooled]
  · rw [hstep, Cooled]
    have hnow : (p.apply i (task.step env outcome p)).shared.now = p.shared.now := hsteps.now_eq
    rw [hnow]
    refine Pool.forall_mem_apply h (fun _ hcooled => hcooled) (fun routine hroutine => ?_)
      fun spawned hspawned routine hroutine => ?_
    · rcases hsteps.cooled.1 routine hroutine with hbefore | hchecked
      · exact h task (List.mem_of_getElem? htask) _ hbefore
      · exact cooledAt_of_checkCooldown hchecked
    · rw [hsteps.cooled.2 _ hspawned] at hroutine
      cases hroutine

/-! ## Whole histories -/

variable (env)

/-- No automatic trigger fires a routine before a cooldown has passed since a completed run. -/
def CooldownRespected (p : Engine) (move : Move) : Prop :=
  ∀ routine ∈ p.firing env move, ∀ update ∈ p.shared.updates, update.id = routine.id →
    update.lastRunAt + routine.guardrails.cooldown ≤ p.shared.now
  deriving Decidable

/-- The copy was read after the completed run, and its cooldown can be represented. -/
def Routine.Sees (routine : Routine) (update : StoredUpdate) : Prop :=
  routine.guardrails.cooldown ≤ maxDuration ∧
    ∃ last ∈ routine.lastRunAt, update.lastRunAt ≤ last

/-- The copy with which a routine is fired has seen every completed run that is not a cooldown
ago. -/
def FiresInformed (p : Engine) (move : Move) : Prop :=
  ∀ routine ∈ p.firing env move, ∀ update ∈ p.shared.updates, update.id = routine.id →
    ¬ routine.Sees update → update.lastRunAt + routine.guardrails.cooldown ≤ p.shared.now

variable {env}

/-- The cooldown is kept for the completed runs that the copy has seen. -/
theorem cooldownRespected_iff (h : Cooled p) (move : Move) :
    CooldownRespected env p move ↔ FiresInformed env p move := by
  refine ⟨fun hrespected routine hfiring update hupdate hid _ =>
    hrespected routine hfiring update hupdate hid, ?_⟩
  intro hinformed routine hfiring update hupdate hid
  by_cases hsees : routine.Sees update
  · obtain ⟨hshort, last, hlast, hle⟩ := hsees
    obtain ⟨task, htask, hcooled⟩ := cooled_of_firing hfiring
    have hpassed := h task htask _ hcooled last hlast
    rw [Routine.checkedCooldown, if_pos hshort] at hpassed
    exact (Nat.add_le_add_right hle _).trans hpassed
  · exact hinformed _ hfiring _ hupdate hid hsees

/-- In a history no routine is fired before a cooldown has passed since its last completed runs,
exactly if every copy with which one is fired has seen the completed runs that are not a cooldown
ago. -/
theorem cooldown_respected_iff (env : Env) (routines : List Routine) (now : Timestamp)
    (moves : List Move) :
    Runs.AllSteps (Engine.step env) (CooldownRespected env) (Engine.start routines now) moves ↔
      Runs.AllSteps (Engine.step env) (FiresInformed env) (Engine.start routines now) moves := by
  refine Runs.allSteps_congr Cooled (fun p move h => cooldownRespected_iff h move)
    (fun p move h => cooled_step move h) ?_ _
  intro task htask
  cases htask

/-- The routine completes a run at once, and a second message comes. -/
def messageAfterRun : List Move :=
  .refreshEventCache :: steps 1 0 .ok ++
    .message ⟨"telegram", "hello"⟩ :: steps 4 1 .ok ++ steps 6 2 .ok ++
    .message ⟨"telegram", "hello"⟩ :: steps 2 3 .ok

/-- The copy in the cache has not seen the run, so the routine is fired again without any
cooldown. -/
theorem cached_copy_ignores_cooldown :
    let start := Engine.start [sampleRoutine (.event none "hello") 300000] 0
    let p := messageAfterRun.foldl (Engine.step sampleEnv) start
    (p.firing sampleEnv (.advance 3 .ok)).map Routine.id = some 1 ∧
      p.shared.updates.map (fun update => (update.id, update.lastRunAt)) = [(1, 0)] ∧
      p.shared.now = 0 ∧
      ¬ Runs.AllSteps (Engine.step sampleEnv) (CooldownRespected sampleEnv) start
        (messageAfterRun ++ [.advance 3 .ok]) := by
  refine ⟨?_, ?_, ?_, ?_⟩ <;> decide +kernel

end Axinite.Routines
