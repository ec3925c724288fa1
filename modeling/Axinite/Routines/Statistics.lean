import Axinite.Routines.Engine
import Mathlib.Data.List.Nodup

/-!
# Statistics of routines

A run writes the counters of its routine back as absolute values: one more than in the copy with
which it was fired.  The copy of an event comes from the cache, and the copies of overlapping
runs may be the same, so an update may overwrite others.  Once it has done so, the count stays
behind for good.

Main results:

- Theorem `stored_step`: every stored update is that of a run.
- Theorem `exact_step`: an update that was computed from the last stored values counts its run.
- Theorem `behind_step`: a count that has fallen behind never catches up.
- Theorem `statistics_exact_iff`: the histories after which the counters are right.
-/

namespace Axinite.Routines

open Foundation List

/-! ## Runs and updates -/

/-- The routine of a run whose runtime update has not been stored. -/
def Task.unfinished : Task → Option Routine
  | record routine _ | act routine _ | complete routine _ _ | stamp routine _
  | update routine _ _ => some routine
  | _ => none

/-- The routine of a run. -/
def Task.run : Task → Option Routine
  | finalize routine | finished routine => some routine
  | task => task.unfinished

/-- The number of runs that have been started. -/
def Engine.runs (id : Uuid) (p : Engine) : Nat :=
  p.count fun task => task.run.any fun routine => routine.id = id

/-- The number of runs whose update has not been stored. -/
def Engine.unfinished (id : Uuid) (p : Engine) : Nat :=
  p.count fun task => task.unfinished.any fun routine => routine.id = id

/-- The outcomes of the updates of a routine, the last one first. -/
def Engine.outcomes (id : Uuid) (p : Engine) : List Outcome :=
  (p.shared.updates.filter fun update => update.id = id).map StoredUpdate.outcome

/-- The number of failed runs since the last one that did not fail; if there is none, earlier
failures count as well. -/
def failuresSince (earlier : Nat) (outcomes : List Outcome) : Nat :=
  (outcomes.takeWhile (· = .failed)).length +
    if outcomes.all (· = .failed) then earlier else 0

theorem failuresSince_cons (earlier : Nat) (outcome : Outcome) (outcomes : List Outcome) :
    failuresSince earlier (outcome :: outcomes) =
      if outcome = .failed then failuresSince earlier outcomes + 1 else 0 := by
  by_cases hfailed : outcome = .failed
  · simp [failuresSince, hfailed]
    omega
  · simp [failuresSince, hfailed]

variable {env : Env} {p : Engine} {id : Uuid}

open Engine

theorem outcomes_apply_update (i : Nat) (routine : Routine) (outcome : Outcome) (now : Timestamp) :
    outcomes id (p.apply i (goOn (updateRuntimeState env p.shared routine outcome now)
      (.finalize routine))) =
      if routine.id = id then outcome :: p.outcomes id else p.outcomes id := by
  by_cases hid : routine.id = id
  · simp [outcomes, Pool.apply, goOn, updateRuntimeState, hid]
  · simp [outcomes, Pool.apply, goOn, updateRuntimeState, hid]

/-- The routine of a run whose update has been stored. -/
def Task.stored : Task → Option Routine
  | finalize routine | finished routine => some routine
  | _ => none

/-- A transition stores the update of a run, or leaves the stored updates alone. -/
theorem Task.Steps.stored_cases {task : Task} {e : Effect Shared Task}
    (h : Task.Steps env p task e) :
    (e.shared.updates = p.shared.updates ∧
        (e.task :: e.spawned).filterMap Task.stored = task.stored.toList) ∨
      ∃ routine outcome now, task = .update routine outcome now ∧
        e = goOn (updateRuntimeState env p.shared routine outcome now) (.finalize routine) := by
  cases h with
  | updated routine outcome now => exact .inr ⟨routine, outcome, now, rfl, rfl⟩
  | waited task =>
    cases hstored : task.stored <;> simp [goOn, hstored]
  | _ => exact .inl ⟨rfl, rfl⟩

theorem outcomes_of_updates_eq {p' : Engine} (h : p'.shared.updates = p.shared.updates) :
    p'.outcomes id = p.outcomes id := by
  simp [outcomes, h]

/-- The number of runs whose update has been stored. -/
def Engine.stored (id : Uuid) (p : Engine) : Nat :=
  p.count fun task => task.stored.any fun routine => routine.id = id

/-- Every stored update is that of a run. -/
theorem stored_step (move : Move) (h : p.stored id = (p.outcomes id).length) :
    (p.step env move).stored id = ((p.step env move).outcomes id).length := by
  rw [stored] at h ⊢
  rcases p.later_or_apply env move with hlater | ⟨i, outcome, task, rfl, htask, hsteps, hstep⟩
  · rw [hlater.count (by rintro ⟨⟩ ⟨⟩ <;> rfl), outcomes_of_updates_eq hlater.updates]
    exact h
  · have hcount := Pool.count_any_apply htask (task.step env outcome p) Task.stored
      fun routine => routine.id = id
    rw [h] at hcount
    rw [hstep]
    rcases hsteps.stored_cases with ⟨hupdates, hsame⟩ | ⟨routine, result, now, rfl, heq⟩
    · have hquiet : outcomes id (p.apply i (task.step env outcome p)) = p.outcomes id :=
        outcomes_of_updates_eq hupdates
      rw [hsame] at hcount
      rw [hquiet]
      omega
    · rw [heq] at hcount ⊢
      rw [outcomes_apply_update]
      by_cases hid : routine.id = id
      · simpa [goOn, Task.stored, hid] using hcount
      · simpa [goOn, Task.stored, hid] using hcount

/-- Every run of a routine has stored its update, or has it still to do. -/
theorem runs_eq (id : Uuid) (p : Engine) : p.runs id = p.unfinished id + p.stored id := by
  refine p.count_eq_add fun task => ?_
  cases task <;> simp [Task.run, Task.unfinished, Task.stored]

/-! ## Counting -/

/-- The copy from which the update that a move stores was computed. -/
def Engine.updating (p : Engine) : Move → Option Routine
  | .advance i _ =>
    match p.tasks[i]? with
    | some (.update routine _ _) => some routine
    | _ => none
  | _ => none

/-- If the move stores an update of the routine, it was computed from the values that are stored
now. -/
def ReadsLast (id : Uuid) (p : Engine) (move : Move) : Prop :=
  ∀ routine ∈ p.updating move, routine.id = id →
    ∀ stored ∈ p.shared.routines, stored.id = id → routine.runCount = stored.runCount
  deriving Decidable

/-- The stored counters are right, and a copy that is not behind has the right failures. -/
def Exact (id : Uuid) (count earlier : Nat) (p : Engine) : Prop :=
  Everywhere
    (fun stored => stored.id = id →
      stored.runCount = count + (p.outcomes id).length ∧
        stored.consecutiveFailures = failuresSince earlier (p.outcomes id))
    (fun copy => copy.id = id →
      copy.runCount ≤ count + (p.outcomes id).length ∧
        (copy.runCount = count + (p.outcomes id).length →
          copy.consecutiveFailures = failuresSince earlier (p.outcomes id)))
    p

/-- The stored count and all copies are behind. -/
def Behind (id : Uuid) (count : Nat) (p : Engine) : Prop :=
  Everywhere
    (fun stored => stored.id = id → stored.runCount < count + (p.outcomes id).length)
    (fun copy => copy.id = id → copy.runCount < count + (p.outcomes id).length)
    p

variable {count earlier : Nat} {routine : Routine}

theorem updating_eq_some {move : Move} (h : p.updating move = some routine) :
    ∃ i outcome result now, move = .advance i outcome ∧
      p.tasks[i]? = some (.update routine result now) := by
  cases move with
  | advance i outcome =>
    simp only [updating] at h
    split at h
    · next found result now htask =>
      cases h
      exact ⟨i, outcome, result, now, rfl, htask⟩
    · cases h
  | _ => cases h

/-- An update that was computed from the last stored values counts its run. -/
theorem exact_step (move : Move) (h : Exact id count earlier p) (hlast : ReadsLast id p move) :
    Exact id count earlier (p.step env move) := by
  rcases p.quiet_or_update env move with ⟨hupdates, hkept⟩ |
    ⟨i, outcome, routine, result, now, rfl, htask, hstep⟩
  · rw [Exact, outcomes_of_updates_eq hupdates]
    refine hkept _ _ (fun stored hstored hid => ?_) (fun stored next hstored => hstored) h
    exact ⟨(hstored hid).1.le, fun _ => (hstored hid).2⟩
  · have hcopy := h.held _ (mem_of_getElem? htask) _ (mem_singleton_self _)
    rw [hstep, Exact, outcomes_apply_update]
    by_cases hid : routine.id = id
    · simp only [hid, if_true, length_cons]
      refine everywhere_update h (fun copy hold hcid => ?_) htask fun row hrow hrid => ?_
      · have := hold hcid
        exact ⟨by omega, fun heq => by omega⟩
      · obtain ⟨stored, hstored, hsame, _, ⟨hne, _⟩ | ⟨_, hcount, hfailures⟩⟩ :=
          mem_updateRuntimeState hrow
        · exact absurd (hsame.symm.trans (hrid.trans hid.symm)) hne
        · have hnow := h.stored _ hstored (hsame.symm.trans hrid)
          have hread := hlast _ (by simp [updating, htask]) hid _ hstored
            (hsame.symm.trans hrid)
          rw [hfailures, failuresSince_cons, (hcopy hid).2 (hread.trans hnow.1)]
          exact ⟨by omega, rfl⟩
    · simp only [hid]
      refine everywhere_update h (fun copy hold => hold) htask fun row hrow hrid => ?_
      obtain ⟨stored, hstored, hsame, _, ⟨_, rfl⟩ | ⟨hother, _⟩⟩ := mem_updateRuntimeState hrow
      · exact h.stored row hstored hrid
      · exact absurd (hother.symm.trans (hsame.symm.trans hrid)) hid

/-- An update that was computed from older values leaves the count behind. -/
theorem behind_of_exact (move : Move) (h : Exact id count earlier p)
    (hlast : ¬ ReadsLast id p move) : Behind id count (p.step env move) := by
  simp only [ReadsLast, not_forall] at hlast
  obtain ⟨routine, hupdating, hid, stored, hstored, hsid, hne⟩ := hlast
  obtain ⟨i, outcome, result, now, rfl, htask⟩ := updating_eq_some hupdating
  have hstep : p.step env (.advance i outcome) =
      p.apply i (goOn (updateRuntimeState env p.shared routine result now) (.finalize routine)) := by
    simp only [step, Pool.advance, htask]
    rfl
  have hcopy := h.held _ (mem_of_getElem? htask) _ (mem_singleton_self _) hid
  have hcount := (h.stored _ hstored hsid).1
  rw [hstep, Behind, outcomes_apply_update]
  simp only [hid, if_true, length_cons]
  refine everywhere_update h (fun copy hold hcid => ?_) htask fun row hrow hrid => ?_
  · have := (hold hcid).1
    omega
  · obtain ⟨other, _, hsame, _, ⟨hother, _⟩ | ⟨_, hnew, _⟩⟩ := mem_updateRuntimeState hrow
    · exact absurd (hsame.symm.trans (hrid.trans hid.symm)) hother
    · omega

/-- A count that is behind never catches up: each run adds one at most. -/
theorem behind_step (move : Move) (h : Behind id count p) : Behind id count (p.step env move) := by
  rcases p.quiet_or_update env move with ⟨hupdates, hkept⟩ |
    ⟨i, outcome, routine, result, now, rfl, htask, hstep⟩
  · rw [Behind, outcomes_of_updates_eq hupdates]
    exact hkept _ _ (fun stored hstored => hstored) (fun stored next hstored => hstored) h
  · have hcopy := h.held _ (mem_of_getElem? htask) _ (mem_singleton_self _)
    rw [hstep, Behind, outcomes_apply_update]
    by_cases hid : routine.id = id
    · simp only [hid, if_true, length_cons]
      refine everywhere_update h (fun copy hold hcid => ?_) htask fun row hrow hrid => ?_
      · have := hold hcid
        omega
      · obtain ⟨other, _, hsame, _, ⟨hother, _⟩ | ⟨_, hnew, _⟩⟩ := mem_updateRuntimeState hrow
        · exact absurd (hsame.symm.trans (hrid.trans hid.symm)) hother
        · have := hcopy hid
          omega
    · simp only [hid]
      refine everywhere_update h (fun copy hold => hold) htask fun row hrow hrid => ?_
      obtain ⟨stored, hstored, hsame, _, ⟨_, rfl⟩ | ⟨hother, _⟩⟩ := mem_updateRuntimeState hrow
      · exact h.stored row hstored hrid
      · exact absurd (hother.symm.trans (hsame.symm.trans hrid)) hid

/-! ## Whole histories -/

/-- At the end of the history the count has grown by the number of runs and, if the runs did not
overlap, the failures are those since the last run that did not fail. -/
def CountsEveryRun (env : Env) (routine : Routine) (start : Engine) (moves : List Move) : Prop :=
  let p := moves.foldl (step env) start
  (p.shared.getRoutine routine.id).map Routine.runCount =
      some (routine.runCount + p.runs routine.id) ∧
    ((∀ q ∈ Runs.visited (step env) start moves, q.unfinished routine.id ≤ 1) →
      (p.shared.getRoutine routine.id).map Routine.consecutiveFailures =
        some (failuresSince routine.consecutiveFailures (p.outcomes routine.id)))

theorem exact_start {routines : List Routine} (now : Timestamp)
    (hroutine : routine ∈ routines) (hkey : (routines.map Routine.id).Nodup) :
    Exact routine.id routine.runCount routine.consecutiveFailures (start routines now) where
  stored := by
    intro stored hstored hid
    rw [inj_on_of_nodup_map hkey hstored hroutine hid]
    exact ⟨rfl, by simp [failuresSince, outcomes, start]⟩
  cached := by
    intro matcher hmatcher
    cases hmatcher
  held := by
    intro task htask
    cases htask

/-- The row of a routine that was there at the start is found in every later state. -/
theorem getRoutine_run (env : Env) {routines : List Routine} (now : Timestamp)
    (hroutine : routine ∈ routines) (moves : List Move) :
    ∃ row, (moves.foldl (step env) (start routines now)).shared.getRoutine
        routine.id = some row ∧
      row ∈ (moves.foldl (step env) (start routines now)).shared.routines ∧
      row.id = routine.id := by
  have hids : (moves.foldl (step env)
      (start routines now)).shared.routines.map Routine.id = routines.map Routine.id := by
    refine Runs.invariant_run
      (fun p : Engine => p.shared.routines.map _ = routines.map _) ?_ rfl _
    intro p move h
    exact (p.ids_step env move).trans h
  have hmem : routine.id ∈ (moves.foldl (step env)
      (start routines now)).shared.routines.map Routine.id := by
    rw [hids]
    exact mem_map_of_mem hroutine
  obtain ⟨row, hrow, hid⟩ := mem_map.1 hmem
  cases hfound : (moves.foldl (step env)
      (start routines now)).shared.getRoutine routine.id with
  | none => exact absurd hid (by simpa using find?_eq_none.1 hfound row hrow)
  | some found =>
    exact ⟨found, rfl, mem_of_find?_eq_some hfound, by simpa using find?_some hfound⟩

/-- Once all runs of a routine have stored their updates, the statistics count every run exactly
if each update was computed from the values that were stored when it was made. -/
theorem statistics_exact_iff (env : Env) (routines : List Routine) (now : Timestamp)
    (routine : Routine) (hroutine : routine ∈ routines) (hkey : (routines.map Routine.id).Nodup)
    (moves : List Move)
    (hover : (moves.foldl (step env) (start routines now)).unfinished
      routine.id = 0) :
    CountsEveryRun env routine (start routines now) moves ↔
      Runs.AllSteps (step env) (ReadsLast routine.id) (start routines now)
        moves := by
  have hside : Runs.AllSteps (step env) (fun _ _ => True) (start routines now)
      moves := Runs.allSteps_of_forall (fun _ _ => trivial) _ _
  obtain ⟨hgood, hbad⟩ := Runs.good_or_bad_run (ReadsLast routine.id)
    (Exact routine.id routine.runCount routine.consecutiveFailures)
    (Behind routine.id routine.runCount) hside (exact_start now hroutine hkey)
    (fun _ move _ h hlast => exact_step move h hlast)
    (fun _ move _ h hlast => behind_of_exact move h hlast)
    (fun _ move h => behind_step move h)
  obtain ⟨row, hrow, hmem, hid⟩ := getRoutine_run env now hroutine moves
  have hstored := Runs.invariant_run _ (fun p move h => @stored_step env p routine.id move h)
    (s := start routines now) rfl moves
  have hruns := runs_eq routine.id (moves.foldl (step env) (start routines now))
  rw [hover, Nat.zero_add, hstored] at hruns
  simp only [CountsEveryRun, hrow, Option.map_some, Option.some.injEq, hruns]
  constructor
  · rintro ⟨hcount, _⟩
    by_contra hnot
    have := (hbad hnot).stored row hmem hid
    omega
  · intro hall
    have := (hgood hall).stored row hmem hid
    exact ⟨this.1, fun _ => this.2⟩

/-- Whatever overlaps and whatever copies the updates start from, the stored count never exceeds
the number of runs that were fired. -/
theorem runCount_le_runs (env : Env) {routines : List Routine} (now : Timestamp)
    (hroutine : routine ∈ routines) (hkey : (routines.map Routine.id).Nodup) (moves : List Move) :
    let p := moves.foldl (step env) (start routines now)
    ∀ row ∈ p.shared.routines, row.id = routine.id →
      row.runCount ≤ routine.runCount + p.runs routine.id := by
  intro p row hrow hid
  have hinv : Exact routine.id routine.runCount routine.consecutiveFailures p ∨
      Behind routine.id routine.runCount p := by
    refine Runs.invariant_run (fun q : Engine => Exact _ _ _ q ∨ Behind _ _ q) (fun q move h => ?_)
      (.inl (exact_start now hroutine hkey)) moves
    rcases h with hexact | hbehind
    · by_cases hlast : ReadsLast routine.id q move
      · exact .inl (exact_step move hexact hlast)
      · exact .inr (behind_of_exact move hexact hlast)
    · exact .inr (behind_step move hbehind)
  have hcount : row.runCount ≤ routine.runCount + (p.outcomes routine.id).length :=
    hinv.elim (fun h => (h.stored row hrow hid).1.le) fun h => (h.stored row hrow hid).le
  have hstored : p.stored routine.id = (p.outcomes routine.id).length :=
    Runs.invariant_run _ (fun q move h => @stored_step env q routine.id move h) rfl moves
  have hruns := runs_eq routine.id p
  omega

/-! ## Sample histories -/

/-- Two manual runs, one after the other. -/
def twoManualRuns : List Move :=
  .fireManual 1 none :: steps 8 0 .failed ++ .fireManual 1 none :: steps 8 1 .failed

/-- Manual runs that do not overlap are counted. -/
theorem twoManualRuns_counted :
    CountsEveryRun sampleEnv (sampleRoutine .manual 0) (start [sampleRoutine .manual 0] 0)
      twoManualRuns := by
  exact (statistics_exact_iff sampleEnv [sampleRoutine .manual 0] 0 (sampleRoutine .manual 0)
    (mem_singleton_self _) (nodup_singleton _) twoManualRuns (by decide)).2 (by decide)

theorem runCount_le_runs_manual :
    let p := twoManualRuns.foldl (step sampleEnv) (start [sampleRoutine .manual 0] 0)
    p.runs 1 = 2 ∧ ∀ row ∈ p.shared.routines, row.id = 1 → row.runCount ≤ 0 + p.runs 1 :=
  ⟨by decide +kernel, runCount_le_runs sampleEnv 0 (mem_singleton_self (sampleRoutine .manual 0))
    (nodup_singleton _) twoManualRuns⟩

/-- A message fires the routine twice, with the copy of it that is in the cache. -/
def twoMessages : List Move :=
  .refreshEventCache :: steps 1 0 .failed ++
    .message ⟨"telegram", "hello"⟩ :: steps 4 1 .failed ++ steps 6 2 .failed ++
    .message ⟨"telegram", "hello"⟩ :: steps 4 3 .failed ++ steps 6 4 .failed

/-- Both runs fail, one after the other, and one run with one failure is stored. -/
theorem cached_copy_loses_run :
    let routine := sampleRoutine (.event none "hello") 0
    let p := twoMessages.foldl (step sampleEnv) (start [routine] 0)
    p.unfinished 1 = 0 ∧ p.runs 1 = 2 ∧ (p.shared.getRoutine 1).map Routine.runCount = some 1 ∧
      (p.shared.getRoutine 1).map Routine.consecutiveFailures = some 1 ∧
      (∀ q ∈ Runs.visited (step sampleEnv) (start [routine] 0) twoMessages,
        q.unfinished 1 ≤ 1) ∧
      ¬ CountsEveryRun sampleEnv routine (start [routine] 0) twoMessages := by
  intro routine p
  have hcount : (p.shared.getRoutine 1).map Routine.runCount = some 1 := by decide +kernel
  have hruns : p.runs 1 = 2 := by decide +kernel
  refine ⟨by decide +kernel, hruns, hcount, by decide +kernel, by decide +kernel, fun h => ?_⟩
  have hright : (p.shared.getRoutine 1).map Routine.runCount = some (0 + p.runs 1) := h.1
  rw [hcount, hruns] at hright
  cases hright

end Axinite.Routines
