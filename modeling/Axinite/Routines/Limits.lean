import Axinite.Routines.Engine
import Mathlib.Data.List.Nodup

/-!
# Limits on routines

A trigger asks the database how many runs of the routine are recorded as running, and the record
of a run that it fires is written later.  The limit of a routine is kept if no trigger asks while
another fire of the routine is on the way.  The slots of the engine are counted by a cron tick
before it has decided to fire, and a manual fire takes a slot without asking.

Main results:

- Theorem `slots_step`: the slots in use are the runs in flight and the undecided cron routines.
- Theorem `recordsKept_step`: the records that are running are those of the runs not completed.
- Theorem `routine_limits_hold`: the histories that keep the limits.
-/

namespace Axinite.Routines

open Foundation List

/-! ## Kinds of tasks -/

namespace Task

/-- The routine of a run whose record has been written and not been completed. -/
def recorded : Task → Option (Routine × Nat)
  | act routine run | complete routine run _ => some (routine, run)
  | _ => none

/-- The routine of a run whose record has not been completed. -/
def active : Task → Option Routine
  | record routine _ | act routine _ | complete routine _ _ => some routine
  | _ => none

/-- The routine that was found below its limit, or fired, and is not recorded. -/
def unsettled : Task → Option Routine
  | eventReserve _ routine _ | manualReserve routine | record routine _ => some routine
  | _ => none

/-- The routine that counts against its limit: found below it, or fired and not completed. -/
def claimed (task : Task) : Option Routine :=
  task.unsettled.or (task.recorded.map Prod.fst)

/-- The routine whose running records the task counts next. -/
def checking : Task → Option Routine
  | eventConcurrent _ routine _ | cronConcurrent routine _ | manual routine => some routine
  | _ => none

/-- The run of a task that has not released its slot. -/
def inFlight : Task → Bool
  | record .. | act .. | complete .. | stamp .. | update .. | finalize .. => true
  | _ => false

/-- A cron tick has taken a slot for a routine that it has not decided on. -/
def undecided : Task → Bool
  | cronCooldown .. | cronConcurrent .. => true
  | _ => false

end Task

namespace Engine

/-- The number of runs of a routine that have been fired and not been completed. -/
def active (id : Uuid) (p : Engine) : Nat :=
  p.count fun task => task.active.any fun routine => routine.id = id

/-- The number of fires of a routine that are on the way: from the check to the record. -/
def unsettled (id : Uuid) (p : Engine) : Nat :=
  p.count fun task => task.unsettled.any fun routine => routine.id = id

/-- The number of runs with a record that is not completed. -/
def recorded (id : Uuid) (p : Engine) : Nat :=
  p.count fun task => task.recorded.any fun run => run.1.id = id

/-- The number of tasks that count against the limit of a routine. -/
def claimed (id : Uuid) (p : Engine) : Nat :=
  p.count fun task => task.claimed.any fun routine => routine.id = id

/-- The number of runs in flight. -/
def inFlight (p : Engine) : Nat :=
  p.count Task.inFlight

/-- The number of slots that cron ticks have taken and not decided on. -/
def undecided (p : Engine) : Nat :=
  p.count Task.undecided

end Engine

variable {env : Env} {p : Engine}

/-! ## Slots -/

/-- The slots in use are the runs in flight and the undecided cron routines. -/
def SlotsCounted (p : Engine) : Prop :=
  p.shared.runningCount = p.inFlight + p.undecided

variable {i : Nat} {task : Task} {e : Effect Shared Task} (move : Move)

/-- A transition of a task changes the slots in use as it changes what the task holds. -/
theorem Task.Steps.slots (h : Task.Steps env p task e)
    (hused : task.inFlight = true ∨ task.undecided = true → 0 < p.shared.runningCount) :
    e.shared.runningCount + ((if task.inFlight then 1 else 0) +
        if task.undecided then 1 else 0) =
      p.shared.runningCount + ((if e.task.inFlight then 1 else 0) +
        if e.task.undecided then 1 else 0) + e.spawned.countP Task.inFlight ∧
      e.spawned.countP Task.undecided = 0 := by
  cases h with
  | cronCooling | cronCrowded | finalized =>
    have hpos : 0 < p.shared.runningCount := by simpa [inFlight, undecided] using hused
    refine ⟨?_, rfl⟩
    simp only [goOn, Shared.release, inFlight, undecided, Bool.false_eq_true, if_true,
      if_false, countP_nil]
    omega
  | _ => exact ⟨rfl, rfl⟩

theorem slots_step (h : SlotsCounted p) : SlotsCounted (p.step env move) := by
  rcases p.later_or_apply env move with hlater | ⟨i, outcome, task, rfl, htask, hsteps, hstep⟩
  · rw [SlotsCounted, Engine.inFlight, Engine.undecided, hlater.runningCount,
      hlater.count (by rintro ⟨⟩ ⟨⟩ <;> rfl), hlater.count (by rintro ⟨⟩ ⟨⟩ <;> rfl)]
    exact h
  · rw [hstep]
    have hflight := Pool.count_apply htask (task.step env outcome p) Task.inFlight
    have hundecided := Pool.count_apply htask (task.step env outcome p) Task.undecided
    have hmem := mem_of_getElem? htask
    have hused : task.inFlight = true ∨ task.undecided = true → 0 < p.shared.runningCount := by
      rw [h]
      rintro (hkind | hkind)
      · have : 0 < p.inFlight := countP_pos_iff.2 ⟨task, hmem, hkind⟩
        omega
      · have : 0 < p.undecided := countP_pos_iff.2 ⟨task, hmem, hkind⟩
        omega
    obtain ⟨hslots, hspawned⟩ := hsteps.slots hused
    have hshared : (p.apply i (task.step env outcome p)).shared.runningCount =
        (task.step env outcome p).shared.runningCount := rfl
    simp only [SlotsCounted, Engine.inFlight, Engine.undecided] at h ⊢
    omega

/-! ## Records -/

/-- The running records with their positions. -/
def runningRecords (runs : List RoutineRun) : List (Uuid × Nat) :=
  (runs.zipIdx.filter fun entry => entry.1.status = .running).map
    fun entry => (entry.1.routineId, entry.2)

/-- The records that the tasks are at work on. -/
def Engine.records (p : Engine) : List (Uuid × Nat) :=
  (p.tasks.filterMap Task.recorded).map fun run => (run.1.id, run.2)

open Engine

/-- A record is running exactly while one task is at work on it, and it is of the routine of that
task. -/
def RecordsKept (p : Engine) : Prop :=
  p.records ~ runningRecords p.shared.runs

theorem RecordsKept.total (h : RecordsKept p) (id : Uuid) :
    p.shared.countRunningRoutineRuns id = p.recorded id := by
  have hcount := h.countP_eq fun entry => entry.1 = id
  rw [records, runningRecords, countP_map, countP_map, countP_filter] at hcount
  rw [recorded, Pool.count_any, Shared.countRunningRoutineRuns, ← zipIdx_map_fst 0
    p.shared.runs, countP_map]
  exact hcount.symm

/-- A transition leaves the records alone, writes one, or completes one. -/
theorem Task.Steps.records_cases (h : Task.Steps env p task e) : (e.shared.runs = p.shared.runs ∧
        (e.task :: e.spawned).filterMap Task.recorded = task.recorded.toList) ∨
      (∃ routine trigger, task.recorded = none ∧
        (e.task :: e.spawned).filterMap Task.recorded = [(routine, p.shared.runs.length)] ∧
        e.shared.runs = p.shared.runs ++ [⟨routine.id, trigger, .running⟩]) ∨
      ∃ (routine : Routine) (run : Nat) (outcome : Outcome), task.recorded = some (routine, run) ∧
        (e.task :: e.spawned).filterMap Task.recorded = [] ∧
        e.shared.runs =
          p.shared.runs.modify run fun record => { record with status := outcome.status } := by
  cases h with
  | recorded routine trigger => exact .inr (.inl ⟨routine, trigger, rfl, rfl, rfl⟩)
  | completed routine run outcome =>
    exact .inr (.inr ⟨routine, run, outcome, rfl, rfl, rfl⟩)
  | waited task =>
    cases hrun : task.recorded <;> simp [goOn, hrun]
  | _ => exact .inl ⟨rfl, rfl⟩

/-- A record that is completed is not running any more. -/
theorem runningRecords_modify {runs : List RoutineRun} {id : Uuid} {run : Nat}
    (h : (id, run) ∈ runningRecords runs) (outcome : Outcome) :
    runningRecords (runs.modify run fun record => { record with status := outcome.status }) ++
      [(id, run)] ~ runningRecords runs := by
  have hended : outcome.status ≠ .running := by cases outcome <;> exact nofun
  obtain ⟨⟨record, run⟩, hmem, ⟨⟩⟩ := mem_map.1 h
  obtain ⟨hrecord, hrunning⟩ := mem_filter.1 hmem
  have hrecord := mem_zipIdx_iff_getElem?.1 hrecord
  obtain ⟨front, found, back, hruns, hlength, hmodify⟩ := exists_of_modify
    (fun record : RoutineRun => { record with status := outcome.status })
    (List.getElem?_eq_some_iff.1 hrecord).1
  subst hlength
  obtain rfl : found = record := by simpa [hruns] using hrecord
  rw [hmodify, hruns]
  simp only [runningRecords, zipIdx_append, zipIdx_cons, filter_append, filter_cons, map_append,
    hrunning, hended, append_assoc,
    Nat.zero_add]
  exact (perm_append_singleton _ _).append_left _

theorem recordsKept_step (h : RecordsKept p) : RecordsKept (p.step env move) := by
  rcases p.later_or_apply env move with hlater | ⟨i, outcome, task, rfl, htask, hsteps, hstep⟩
  · obtain ⟨new, htasks, hnew⟩ := hlater.tasks
    have hnone : new.filterMap Task.recorded = [] := by
      refine filterMap_eq_nil_iff.2 fun task hmem => ?_
      have htrigger := hnew task hmem
      cases task <;> first | rfl | cases htrigger
    rw [RecordsKept, records, htasks, filterMap_append, hnone, append_nil, hlater.runs]
    exact h
  · have hperm := (Pool.perm_apply htask (task.step env outcome p) Task.recorded).map
      fun run => (run.1.id, run.2)
    rw [map_append, map_append] at hperm
    have hperm := hperm.trans (h.append_right _)
    rw [hstep]
    show _ ~ runningRecords (task.step env outcome p).shared.runs
    rcases hsteps.records_cases with ⟨hruns, hsame⟩ | ⟨routine, trigger, hnone, hnew, hruns⟩ |
      ⟨routine, run, result, hold, hnew, hruns⟩
    · rw [hsame] at hperm
      rw [hruns]
      exact (perm_append_right_iff _).1 hperm
    · rw [hnone, hnew] at hperm
      simpa [hruns, runningRecords, zipIdx_append, records] using hperm
    · rw [hold, hnew] at hperm
      simp at hperm
      have hmem : (routine.id, run) ∈ runningRecords p.shared.runs := hperm.mem_iff.1 (by simp)
      rw [hruns]
      exact (perm_append_right_iff _).1 (hperm.trans (runningRecords_modify hmem _).symm)

/-! ## The limit of a routine -/

theorem claimed_eq (id : Uuid) (p : Engine) : p.claimed id = p.unsettled id + p.recorded id := by
  refine p.count_eq_add fun task => ?_
  cases task <;> simp [Task.claimed, Task.unsettled, Task.recorded]

theorem active_le_claimed (id : Uuid) (p : Engine) : p.active id ≤ p.claimed id := by
  refine countP_mono_left fun task _ h => ?_
  cases task <;> simp_all [Task.claimed, Task.unsettled, Task.recorded, Task.active]

/-- A task comes to count against the limit of a routine only by finding it below the limit. -/
theorem Task.Steps.claimed_cases (h : Task.Steps env p task e) :
    ((e.task :: e.spawned).filterMap Task.claimed).Sublist task.claimed.toList ∨
      ∃ routine, task.checking = some routine ∧ task.claimed = none ∧
        (e.task :: e.spawned).filterMap Task.claimed = [routine] ∧
        checkConcurrent p.shared routine = true := by
  cases h with
  | eventAdmitted _ routine _ h | cronFired routine _ h | manualAdmitted routine h =>
    exact .inr ⟨routine, rfl, rfl, rfl, h⟩
  | eventFull | completed => exact .inl (nil_sublist _)
  | waited task =>
    cases hclaimed : task.claimed <;> simp [goOn, hclaimed]
  | _ => exact .inl (.refl _)

/-- The routine whose running records are counted in a move. -/
def Engine.checking (p : Engine) : Move → Option Routine
  | .advance i _ => (p.tasks[i]?).bind Task.checking
  | _ => none

/-- A manual fire takes its slot in the move. -/
def Engine.firesByHand (p : Engine) : Move → Bool
  | .advance i _ =>
    match p.tasks[i]? with
    | some (.manualReserve _) => true
    | _ => false
  | _ => false

/-- The running records of a routine are counted only when no other fire of it is on the way,
and a manual fire takes its slot only when all cron routines with a slot are decided. -/
structure Undisturbed (p : Engine) (move : Move) : Prop where
  alone : ∀ routine ∈ p.checking move, p.unsettled routine.id = 0
  decided : p.firesByHand move = true → p.undecided = 0

instance (p : Engine) (move : Move) : Decidable (Undisturbed p move) :=
  decidable_of_iff ((∀ routine ∈ p.checking move, p.unsettled routine.id = 0) ∧
    (p.firesByHand move = true → p.undecided = 0)) ⟨fun h => ⟨h.1, h.2⟩, fun h => ⟨h.1, h.2⟩⟩

/-- All rows and copies of a routine have the same limit. -/
def Limited (id : Uuid) (limit : Nat) (p : Engine) : Prop :=
  Everywhere (fun stored => stored.id = id → stored.guardrails.maxConcurrent = limit)
    (fun copy => copy.id = id → copy.guardrails.maxConcurrent = limit) p

variable {id : Uuid} {limit : Nat}

theorem limited_step (h : Limited id limit p) : Limited id limit (p.step env move) := by
  rcases p.quiet_or_update env move with ⟨_, hkept⟩ |
    ⟨i, outcome, routine, result, now, rfl, htask, hstep⟩
  · exact hkept _ _ (fun _ hstored => hstored) (fun _ _ hstored => hstored) h
  · rw [hstep]
    refine everywhere_update h (fun _ hcopy => hcopy) htask fun row hrow hid => ?_
    obtain ⟨stored, hstored, hsame, hguardrails, _⟩ := mem_updateRuntimeState hrow
    rw [hguardrails]
    exact h.stored _ hstored (hsame.symm.trans hid)

/-- The limit is kept, since a routine is found below it when nothing else is on the way. -/
theorem claimed_step (hrecords : RecordsKept p) (hlimited : Limited id limit p)
    (hundisturbed : Undisturbed p move) (h : p.claimed id ≤ limit) :
    (p.step env move).claimed id ≤ limit := by
  rcases p.later_or_apply env move with hlater | ⟨i, outcome, task, rfl, htask, hsteps, hstep⟩
  · rw [claimed, hlater.count (by rintro ⟨⟩ ⟨⟩ <;> rfl)]
    exact h
  · rw [hstep]
    have hcount := Pool.count_any_apply htask (task.step env outcome p) Task.claimed
      fun routine => routine.id = id
    rw [claimed] at h ⊢
    rcases hsteps.claimed_cases with hsub | ⟨routine, hchecking, hnone, hnew, hbelow⟩
    · have := hsub.countP_le (p := fun routine => decide (routine.id = id))
      omega
    · rw [hnew] at hcount
      simp only [countP_singleton, decide_eq_true_eq] at hcount
      by_cases hid : routine.id = id
      · have hcopy : routine ∈ task.copies := by
          cases task <;> simp_all [Task.checking, Task.copies]
        have hmax := hlimited.held task (mem_of_getElem? htask) _ hcopy hid
        have halone := hundisturbed.alone routine (by simp [checking, htask, hchecking])
        have hclaimed := claimed_eq id p
        rw [checkConcurrent, decide_eq_true_eq, hrecords.total, hid] at hbelow
        rw [hid] at halone
        rw [claimed] at hclaimed
        rw [if_pos hid] at hcount
        omega
      · rw [if_neg hid] at hcount
        omega

/-! ## The limit of the engine -/

/-- While a cron tick holds a slot, no more slots are in use than there are. -/
def SlotsLimited (env : Env) (p : Engine) : Prop :=
  0 < p.undecided → p.shared.runningCount ≤ env.maxConcurrentRoutines

/-- A transition takes a slot below the limit, or by hand, or it takes none. -/
theorem Task.Steps.slots_cases (h : Task.Steps env p task e) :
    e.shared.runningCount ≤ env.maxConcurrentRoutines ∨
      (e.shared.runningCount ≤ p.shared.runningCount ∧
        (e.task.undecided = true → task.undecided = true) ∧ e.spawned.countP Task.undecided = 0) ∨
      ∃ routine, task = .manualReserve routine ∧ e.task.undecided = false ∧ e.spawned = [] := by
  cases h with
  | eventFired _ _ _ hfree | cronReserved _ _ hfree => exact .inl hfree
  | manualFired routine => exact .inr (.inr ⟨routine, rfl, rfl, rfl⟩)
  | cronCooling | cronCrowded | finalized =>
    exact .inr (.inl ⟨Nat.sub_le _ _, nofun, rfl⟩)
  | cronCooled => exact .inr (.inl ⟨le_refl _, fun _ => rfl, rfl⟩)
  | waited task => exact .inr (.inl ⟨le_refl _, id, rfl⟩)
  | _ => exact .inr (.inl ⟨le_refl _, nofun, rfl⟩)

theorem slotsLimited_step (hundisturbed : Undisturbed p move) (h : SlotsLimited env p) :
    SlotsLimited env (p.step env move) := by
  rcases p.later_or_apply env move with hlater | ⟨i, outcome, task, rfl, htask, hsteps, hstep⟩
  · rw [SlotsLimited, undecided, hlater.runningCount, hlater.count (by rintro ⟨⟩ ⟨⟩ <;> rfl)]
    exact h
  · rw [hstep]
    have hcount := Pool.count_apply htask (task.step env outcome p) Task.undecided
    intro hpos
    rcases hsteps.slots_cases with hfree | ⟨hle, hkind, hspawned⟩ | ⟨routine, rfl, hnew, hspawned⟩
    · exact hfree
    · refine hle.trans (h ?_)
      have himp : (if (task.step env outcome p).task.undecided then 1 else 0) ≤
          if task.undecided then 1 else 0 := by
        by_cases hnow : (task.step env outcome p).task.undecided = true
        · simp [hnow, hkind hnow]
        · simp [hnow]
      rw [undecided] at hpos ⊢
      omega
    · -- a slot taken by hand: there is no undecided cron routine, before or after
      have hnone := hundisturbed.decided (by simp [firesByHand, htask])
      rw [hnew, hspawned] at hcount
      rw [undecided] at hpos hnone
      simp only [Task.undecided, Bool.false_eq_true, countP_nil] at hcount
      omega

/-- An automatic fire does not raise the runs in flight above the limit. -/
theorem inFlight_of_firing (hslots : SlotsCounted p) (hlimited : SlotsLimited env p)
    {routine : Routine} (h : p.firing env move = some routine) :
    (p.step env move).inFlight ≤ env.maxConcurrentRoutines := by
  have hnext : SlotsCounted (p.step env move) := slots_step move hslots
  cases move with
  | advance i outcome =>
    simp only [firing] at h
    split at h
    · next trigger fired todo htask =>
      have hfree := (Option.ite_none_right_eq_some.1 h).1
      have hstep : (p.step env (.advance i outcome)).shared.runningCount =
          p.shared.runningCount + 1 := by
        simp only [step, Pool.advance, htask, Task.step, tryReserveRunningSlot,
          not_le.2 hfree]
        rfl
      rw [SlotsCounted] at hnext
      omega
    · next fired todo htask =>
      have hbelow := (Option.ite_none_right_eq_some.1 h).1
      have hstep : (p.step env (.advance i outcome)).shared.runningCount =
          p.shared.runningCount := by
        simp only [step, Pool.advance, htask, Task.step, hbelow]
        rfl
      have hpos : 0 < p.undecided :=
        countP_pos_iff.2 ⟨_, mem_of_getElem? htask, rfl⟩
      have := hlimited hpos
      rw [SlotsCounted] at hnext
      omega
    · cases h
  | _ => cases h

/-! ## Whole histories -/

/-- What holds of the engine along an undisturbed history. -/
structure WithinLimits (env : Env) (routines : List Routine) (p : Engine) : Prop where
  slots : SlotsCounted p
  records : RecordsKept p
  slotsLimited : SlotsLimited env p
  limited : ∀ routine ∈ routines, Limited routine.id routine.guardrails.maxConcurrent p
  claimed : ∀ routine ∈ routines, p.claimed routine.id ≤ routine.guardrails.maxConcurrent

variable {routines : List Routine}

theorem withinLimits_start (env : Env) (now : Timestamp) (hkey : (routines.map Routine.id).Nodup) :
    WithinLimits env routines (start routines now) where
  slots := rfl
  records := .nil
  slotsLimited := nofun
  limited := by
    intro routine hroutine
    refine ⟨fun stored hstored hid => ?_, fun _ hmatcher => (by cases hmatcher),
      fun _ htask => (by cases htask)⟩
    rw [inj_on_of_nodup_map hkey hstored hroutine hid]
  claimed := fun routine _ => Nat.zero_le _

theorem withinLimits_step (hundisturbed : Undisturbed p move) (h : WithinLimits env routines p) :
    WithinLimits env routines (p.step env move) where
  slots := slots_step move h.slots
  records := recordsKept_step move h.records
  slotsLimited := slotsLimited_step move hundisturbed h.slotsLimited
  limited := fun routine hroutine => limited_step move (h.limited routine hroutine)
  claimed := fun routine hroutine =>
    claimed_step move h.records (h.limited routine hroutine) hundisturbed
      (h.claimed routine hroutine)

/-- In an undisturbed history the limits of the routines and of the engine are kept, and the
slots in use are the runs in flight whenever every cron routine with a slot is decided. -/
theorem routine_limits_hold (env : Env) (routines : List Routine) (now : Timestamp)
    (hkey : (routines.map Routine.id).Nodup) (moves : List Move)
    (hmoves : Runs.AllSteps (step env) Undisturbed (start routines now) moves) :
    (∀ p ∈ Runs.visited (step env) (start routines now) moves,
      (∀ routine ∈ routines, p.active routine.id ≤ routine.guardrails.maxConcurrent) ∧
        (p.shared.runningCount = p.inFlight ↔ p.undecided = 0)) ∧
    Runs.AllSteps (step env) (fun p move => (p.firing env move).isSome →
        (p.step env move).inFlight ≤ env.maxConcurrentRoutines)
      (start routines now) moves := by
  have hstart := withinLimits_start env now hkey
  have hstep : ∀ (p : Engine) move, Undisturbed p move → WithinLimits env routines p →
      WithinLimits env routines (p.step env move) :=
    fun p move hundisturbed h => withinLimits_step move hundisturbed h
  constructor
  · intro p hp
    have h := Runs.forall_mem_visited hstep hstart hmoves p hp
    refine ⟨fun routine hroutine => ?_, ?_⟩
    · exact (active_le_claimed _ p).trans (h.claimed _ hroutine)
    · have hslots := h.slots
      rw [SlotsCounted] at hslots
      omega
  · refine Runs.allSteps_of_inv (fun p move _ h hsome => ?_) hstep hstart hmoves
    obtain ⟨routine, hfiring⟩ := Option.isSome_iff_exists.1 hsome
    exact inFlight_of_firing move h.slots h.slotsLimited hfiring

/-- In every history the slots in use are those of the runs in flight and of the cron routines that
are not decided yet, and a routine has as many running records as runs that are recorded and not
completed.  So an engine at rest holds no slot and no running record. -/
theorem slots_and_records_exact (env : Env) (routines : List Routine) (now : Timestamp)
    (moves : List Move) :
    let p := moves.foldl (step env) (start routines now)
    p.shared.runningCount = p.inFlight + p.undecided ∧
      ∀ id, p.shared.countRunningRoutineRuns id = p.recorded id := by
  intro p
  have hinv : SlotsCounted p ∧ RecordsKept p := by
    refine Runs.invariant_run (fun q => SlotsCounted q ∧ RecordsKept q) ?_ ?_ moves
    · exact fun q move h => ⟨slots_step move h.1, recordsKept_step move h.2⟩
    · exact ⟨rfl, .nil⟩
  exact ⟨hinv.1, hinv.2.total⟩

/-- A cron tick and a manual fire, one after the other. -/
def cronThenManual : List Move :=
  .cronTick :: steps 4 0 .ok ++ steps 6 1 .ok ++ .fireManual 1 none :: steps 8 2 .ok

/-- A routine that is due. -/
def dueRoutine : Routine :=
  { sampleRoutine (.cron "0 9 * * *" none) 0 with nextFireAt := some 0 }

/-- Fires that do not overlap keep the limit of one run. -/
theorem cronThenManual_limited :
    (∀ p ∈ Runs.visited (step sampleEnv) (start [dueRoutine] 0) cronThenManual,
      (∀ routine ∈ [dueRoutine], p.active routine.id ≤ routine.guardrails.maxConcurrent) ∧
        (p.shared.runningCount = p.inFlight ↔ p.undecided = 0)) ∧
    Runs.AllSteps (step sampleEnv) (fun p move => (p.firing sampleEnv move).isSome →
        (p.step sampleEnv move).inFlight ≤ sampleEnv.maxConcurrentRoutines)
      (start [dueRoutine] 0) cronThenManual :=
  routine_limits_hold sampleEnv [dueRoutine] 0 (nodup_singleton _) cronThenManual (by decide)

/-- A cron tick finds the routine below its limit and fires it, and before the run is recorded a
manual fire finds it below its limit as well. -/
def overlappingFires : List Move :=
  .cronTick :: steps 3 0 .ok ++ .fireManual 1 none :: steps 2 2 .ok

/-- There are two runs of a routine that may run once at a time.  The cron tick has raised the
slots in use before there is a run.  If there is one slot, a manual fire takes it while the cron
tick still checks, and the cron tick raises the runs in flight to two. -/
theorem limits_exceeded :
    (let p := overlappingFires.foldl (step sampleEnv) (start [dueRoutine] 0)
     p.active 1 = 2 ∧ dueRoutine.guardrails.maxConcurrent = 1) ∧
    (let p := (.cronTick :: steps 1 0 .ok).foldl (step sampleEnv)
        (start [dueRoutine] 0)
     p.shared.runningCount = 1 ∧ p.inFlight = 0) ∧
    (let env := { sampleEnv with maxConcurrentRoutines := 1 }
     let p := (.cronTick :: steps 2 0 .ok ++ .fireManual 1 none :: steps 2 1 .ok).foldl
        (step env) (start [dueRoutine] 0)
     (p.firing env (.advance 0 .ok)).isSome = true ∧
      (p.step env (.advance 0 .ok)).inFlight = 2) := by
  refine ⟨⟨?_, ?_⟩, ⟨?_, ?_⟩, ?_, ?_⟩ <;> decide +kernel

end Axinite.Routines
