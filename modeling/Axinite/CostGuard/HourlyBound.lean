import Axinite.CostGuard

/-!
# The hourly bound

A call is made after a check that lets it pass, and is recorded before the next one is checked.
The check drops the expired actions at the front of the window and compares the rest with the
limit, so in any hour no more actions are recorded than the limit allows.

Main results:

- Theorem `kept_recentActions`: the actions that are dropped are more than an hour old.
- Theorem `hourly_actions_bounded`: the actions of the last hour are in the window, and their
  number is within the limit.
-/

namespace Axinite.Costs

open Foundation List

/-- Number of actions in the current hourly window. -/
def CostGuard.actionsThisHour (now : Timestamp) (g : CostGuard) : Nat × CostGuard :=
  let window := g.recentActions now
  (window.length, { g with actionWindow := window })

/-! ## Runs -/

/-- A guard with a clock, all actions that were recorded, the oldest first, and whether a call
has been let pass that is not recorded. -/
structure HourRun where
  guard : CostGuard
  now : Timestamp
  recorded : List Timestamp
  passed : Bool

inductive HourEvent where
  | tick (elapsed : Nat)
  | check
  | record (call : LlmCall)
  | actionsThisHour

namespace HourRun

def new (config : CostGuardConfig) (start : Timestamp) : HourRun where
  guard := CostGuard.new config start
  now := start
  recorded := []
  passed := false

def step (modelCost : String → Option (ℚ × ℚ)) (r : HourRun) : HourEvent → HourRun
  | .tick elapsed => { r with now := r.now + elapsed }
  | .check =>
    let done := r.guard.checkAllowed r.now
    { r with guard := done.2, passed := r.passed || done.1.isOk }
  | .record call =>
    -- only a call that a check of its own has let pass is made and recorded
    if r.passed then
      { r with
        guard := (r.guard.recordLlmCall modelCost r.now call).2
        recorded := r.recorded ++ [r.now]
        passed := false }
    else r
  | .actionsThisHour => { r with guard := (r.guard.actionsThisHour r.now).2 }

end HourRun

/-- The actions of the hour that ends now. -/
def lastHour (now : Timestamp) (actions : List Timestamp) : List Timestamp :=
  actions.filter fun action => now < action + nanosPerHour

/-! ## The window -/

/-- The window is what was recorded without some of the actions more than an hour old. -/
def Kept (now : Timestamp) (recorded window : List Timestamp) : Prop :=
  ∃ dropped, recorded = dropped ++ window ∧ ∀ action ∈ dropped, action + nanosPerHour < now

namespace Kept

variable {now : Timestamp} {recorded window : List Timestamp}

/-- All actions of the last hour are in the window. -/
theorem lastHour_eq (h : Kept now recorded window) : lastHour now recorded = lastHour now window := by
  obtain ⟨dropped, rfl, hold⟩ := h
  have hnone : lastHour now dropped = [] := by
    refine filter_eq_nil_iff.2 fun action haction hrecent => ?_
    exact lt_asymm (hold _ haction) (of_decide_eq_true hrecent)
  rw [lastHour, filter_append]
  exact congrArg (· ++ lastHour now _) hnone

theorem trans {rest : List Timestamp} (h : Kept now recorded window) (hrest : Kept now window rest) :
    Kept now recorded rest := by
  obtain ⟨before, rfl, hbefore⟩ := h
  obtain ⟨dropped, rfl, hdropped⟩ := hrest
  refine ⟨before ++ dropped, (append_assoc ..).symm, fun action haction => ?_⟩
  rcases mem_append.1 haction with haction | haction
  · exact hbefore _ haction
  · exact hdropped _ haction

theorem later (h : Kept now recorded window) (elapsed : Nat) :
    Kept (now + elapsed) recorded window := by
  obtain ⟨dropped, hrecorded, hold⟩ := h
  exact ⟨dropped, hrecorded, fun action haction =>
    lt_of_lt_of_le (hold action haction) (Nat.le_add_right _ _)⟩

end Kept

/-- What is dropped is more than an hour old. -/
theorem kept_recentActions (now : Timestamp) (g : CostGuard) :
    Kept now g.actionWindow (g.recentActions now) := by
  unfold CostGuard.recentActions
  split
  · refine ⟨_, takeWhile_append_dropWhile.symm, fun action haction => ?_⟩
    have hold : action < now - nanosPerHour := by
      simpa using mem_takeWhile_imp haction
    exact Nat.add_lt_of_lt_sub hold
  · exact ⟨[], rfl, by simp⟩

theorem kept_self (now : Timestamp) (window : List Timestamp) : Kept now window window :=
  ⟨[], rfl, by simp⟩

/-- A check that lets a call pass leaves a window below the limit. -/
theorem checkHourlyRate_window (now : Timestamp) (g : CostGuard) :
    Kept now g.actionWindow (g.checkHourlyRate now).2.actionWindow ∧
      ((g.checkHourlyRate now).1.isOk = true → ∀ limit, g.config.maxActionsPerHour = some limit →
        (g.checkHourlyRate now).2.actionWindow.length < limit) := by
  unfold CostGuard.checkHourlyRate
  cases hlimit : g.config.maxActionsPerHour with
  | none => exact ⟨kept_self now _, fun _ _ => nofun⟩
  | some limit =>
    refine ⟨kept_recentActions now g, fun hok limit' heq => ?_⟩
    cases heq
    by_contra hreached
    simp [not_lt.1 hreached, Except.toBool] at hok

theorem checkAllowed_window (now : Timestamp) (g : CostGuard) :
    Kept now g.actionWindow (g.checkAllowed now).2.actionWindow ∧
      ((g.checkAllowed now).1.isOk = true → ∀ limit, g.config.maxActionsPerHour = some limit →
        (g.checkAllowed now).2.actionWindow.length < limit) := by
  simp only [CostGuard.checkAllowed]
  split
  · exact ⟨kept_self now _, fun hok => absurd hok Bool.false_ne_true⟩
  · split
    · exact checkHourlyRate_window now g
    · split
      · exact ⟨kept_self now _, fun hok => absurd hok Bool.false_ne_true⟩
      · exact checkHourlyRate_window now g

/-- The last hour gets shorter at its old end. -/
theorem length_lastHour_later (now : Timestamp) (elapsed : Nat) (actions : List Timestamp) :
    (lastHour (now + elapsed) actions).length ≤ (lastHour now actions).length := by
  refine (monotone_filter_right _ fun action hrecent => ?_).length_le
  exact decide_eq_true (lt_of_le_of_lt (Nat.le_add_right _ _) (of_decide_eq_true hrecent))

section Invariant

variable {config : CostGuardConfig} {r : HourRun}

/-- The window is kept, and the limit, with room for a call that has been let pass. -/
structure WindowOk (config : CostGuardConfig) (r : HourRun) : Prop where
  config_eq : r.guard.config = config
  kept : Kept r.now r.recorded r.guard.actionWindow
  bounded : ∀ limit, config.maxActionsPerHour = some limit →
    (lastHour r.now r.recorded).length + r.passed.toNat ≤ limit

variable (modelCost : String → Option (ℚ × ℚ))

theorem WindowOk.check (h : WindowOk config r) : WindowOk config (r.step modelCost .check) := by
  obtain ⟨hwindow, hroom⟩ := checkAllowed_window r.now r.guard
  have hkept := h.kept.trans hwindow
  refine ⟨(checkAllowed_dailyCost _ _).2.trans h.config_eq, hkept, fun limit hlimit => ?_⟩
  simp only [HourRun.step]
  cases hok : (r.guard.checkAllowed r.now).1.isOk with
  | false =>
    rw [Bool.or_false]
    exact h.bounded _ hlimit
  | true =>
    -- the last hour is part of a window that is below the limit
    rw [Bool.or_true, hkept.lastHour_eq]
    rw [← h.config_eq] at hlimit
    exact lt_of_le_of_lt (length_filter_le _ _) (hroom hok _ hlimit)

theorem WindowOk.record (h : WindowOk config r) (call : LlmCall) :
    WindowOk config (r.step modelCost (.record call)) := by
  simp only [HourRun.step]
  split
  · next hpassed =>
    refine ⟨?_, ?_, fun limit hlimit => ?_⟩
    · exact (config_step _ ⟨r.guard, r.now, [], []⟩ (.record call)).trans h.config_eq
    · obtain ⟨dropped, hrecorded, hold⟩ := h.kept
      exact ⟨dropped, by simp [hrecorded, CostGuard.recordLlmCall], hold⟩
    · have hbounded := h.bounded _ hlimit
      simpa [hpassed, lastHour, nanosPerHour] using hbounded
  · exact h

theorem WindowOk.step (h : WindowOk config r) (event : HourEvent) :
    WindowOk config (r.step modelCost event) := by
  cases event with
  | tick elapsed =>
    refine ⟨h.config_eq, h.kept.later _, fun limit hlimit => ?_⟩
    have hlater := length_lastHour_later r.now elapsed r.recorded
    exact (Nat.add_le_add_right hlater _).trans (h.bounded _ hlimit)
  | check => exact h.check _
  | record call => exact h.record _ call
  | actionsThisHour =>
    exact ⟨h.config_eq, h.kept.trans (kept_recentActions _ _), h.bounded⟩

end Invariant

/-- At any time in a run, the actions recorded in the last hour are in the window, and there are
no more of them than the limit allows. -/
theorem hourly_actions_bounded (modelCost : String → Option (ℚ × ℚ)) (config : CostGuardConfig)
    (start : Timestamp) (events : List HourEvent) :
    ∀ r ∈ Runs.visited (HourRun.step modelCost) (HourRun.new config start) events,
      lastHour r.now r.guard.actionWindow = lastHour r.now r.recorded ∧
        ∀ limit, config.maxActionsPerHour = some limit →
          (lastHour r.now r.recorded).length ≤ limit := by
  intro r hr
  have hstart : WindowOk config (HourRun.new config start) :=
    ⟨rfl, kept_self _ _, fun _ _ => Nat.zero_le _⟩
  have hwindow : WindowOk config r :=
    Runs.forall_mem_visited (fun _ event _ h => h.step _ event) hstart
      (Runs.allSteps_of_forall (fun _ _ => trivial) _ _) r hr
  refine ⟨hwindow.kept.lastHour_eq.symm, fun limit hlimit => ?_⟩
  exact (Nat.le_add_right _ _).trans (hwindow.bounded _ hlimit)

/-- Two calls are tried at once, with one action an hour. -/
def twoCalls : List HourEvent :=
  [.check, .record dollarCall, .check, .record dollarCall]

def afterTwoCalls : HourRun :=
  twoCalls.foldl (HourRun.step fun _ => none) (HourRun.new ⟨none, some 1⟩ nanosPerHour)

theorem one_action_an_hour : afterTwoCalls.recorded = [nanosPerHour] ∧
      (lastHour afterTwoCalls.now afterTwoCalls.recorded).length ≤ 1 :=
  ⟨by decide +kernel, (hourly_actions_bounded (fun _ => none) ⟨none, some 1⟩ nanosPerHour twoCalls
    afterTwoCalls (Runs.foldl_mem_visited _ _ _)).2 1 rfl⟩

end Axinite.Costs
