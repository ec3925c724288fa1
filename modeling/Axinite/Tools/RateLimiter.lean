import Mathlib.Algebra.Group.Nat.Defs
import Mathlib.Data.List.Basic
import Mathlib.Logic.Function.Basic
import Mathlib.Tactic.Common

/-!
# Rate limits of tools

Two tumbling windows per user and tool count the recorded calls (`tools/rate_limiter.rs`); a call
resets those it finds expired.  Times are nanoseconds, and a call reads the clock once.

Main results:

- Theorem `rate_limited`: the budgets of the windows, the promise of a refusal, and the
  independence of the keys, over all runs.
-/

namespace Axinite.Tools.RateLimiter

open List

inductive LimitType where
  | perMinute
  | perHour

/-- The requests per minute and per hour. -/
abbrev ToolRateLimitConfig := LimitType → Nat

inductive RateLimitResult where
  | allowed (remainingMinute remainingHour : Nat)
  | limited (retryAfter : Nat) (limitType : LimitType)

structure WindowState where
  windowStart : Nat
  count : Nat

/-- Check if the window has expired and reset if needed. -/
def WindowState.maybeReset (window : WindowState) (windowDuration now : Nat) : WindowState :=
  if now - window.windowStart ≥ windowDuration then ⟨now, 0⟩ else window

/-- Time until window resets. -/
def WindowState.timeUntilReset (window : WindowState) (windowDuration now : Nat) : Nat :=
  let elapsed := now - window.windowStart
  if elapsed ≥ windowDuration then 0 else windowDuration - elapsed

/-- The windows of a key. -/
abbrev ToolRateLimitState := LimitType → WindowState

def ToolRateLimitState.new (now : Nat) : ToolRateLimitState :=
  fun _ => ⟨now, 0⟩

def fromSecs (secs : Nat) : Nat :=
  secs * 10 ^ 9

def LimitType.duration : LimitType → Nat
  | perMinute => fromSecs 60
  | perHour => fromSecs 3600

/-- Reset windows if expired. -/
def ToolRateLimitState.maybeReset (state : ToolRateLimitState) (now : Nat) : ToolRateLimitState :=
  fun limit => (state limit).maybeReset limit.duration now

/-- A subtraction of unsigned numbers, `none` if it underflows. -/
def checkedSub (a b : Nat) : Option Nat :=
  if b ≤ a then some (a - b) else none

open ToolRateLimitState

/-- The answer for a key, and the state left for it; no answer if a subtraction underflows. -/
def checkInternal (entry : Option ToolRateLimitState) (config : ToolRateLimitConfig)
    (record : Bool) (now : Nat) : Option RateLimitResult × ToolRateLimitState :=
  let toolState := maybeReset (entry.getD (.new now)) now
  let limited (limit : LimitType) : RateLimitResult :=
    .limited ((toolState limit).timeUntilReset limit.duration now) limit
  if (toolState .perMinute).count ≥ config .perMinute then (some (limited .perMinute), toolState)
  else if (toolState .perHour).count ≥ config .perHour then (some (limited .perHour), toolState)
  else
    let toolState : ToolRateLimitState := fun limit =>
      ⟨(toolState limit).windowStart, (toolState limit).count + record.toNat⟩
    (do
      let remainingMinute ← checkedSub (config .perMinute) (toolState .perMinute).count
      let remainingHour ← checkedSub (config .perHour) (toolState .perHour).count
      return .allowed remainingMinute remainingHour, toolState)

/-! ## Runs -/

/-- A user and a tool. -/
abbrev Key := String × String

/-- A call of `check`, or of `check_and_record` if it is to be recorded. -/
structure Call where
  key : Key
  record : Bool
  now : Nat

/-- A call, its answer, and the windows it leaves. -/
structure Event extends Call where
  answer : Option RateLimitResult
  windows : ToolRateLimitState

def Call.event (call : Call) (config : ToolRateLimitConfig) (entry : Option ToolRateLimitState) :
    Event :=
  let (answer, windows) := checkInternal entry config call.record call.now
  ⟨call, answer, windows⟩

/-- The events of a run; the limits depend on the tool. -/
def run (limits : String → ToolRateLimitConfig) (state : Key → Option ToolRateLimitState) :
    List Call → List Event
  | [] => []
  | call :: calls =>
    let event := call.event (limits call.key.2) (state call.key)
    event :: run limits (Function.update state call.key (some event.windows)) calls

/-- The events of the calls of one key. -/
def runKey (config : ToolRateLimitConfig) (entry : Option ToolRateLimitState) :
    List Call → List Event
  | [] => []
  | call :: calls =>
    let event := call.event config entry
    event :: runKey config (some event.windows) calls

/-- The calls of a key run as if there were no others. -/
theorem filter_run (limits : String → ToolRateLimitConfig) (key : Key) (calls : List Call)
    (state : Key → Option ToolRateLimitState) :
    (run limits state calls).filter (·.key = key) =
      runKey (limits key.2) (state key) (calls.filter (·.key = key)) := by
  induction calls generalizing state with
  | nil => rfl
  | cons call calls ih =>
    by_cases hkey : call.key = key
    · subst hkey
      simp [run, runKey, Call.event, ih]
    · simp [run, Call.event, ih, hkey, Function.update_of_ne (Ne.symm hkey)]

/-! ## Fairness -/

def Event.IsLimited (event : Event) : Prop :=
  ∃ retryAfter limit, event.answer = some (.limited retryAfter limit)

/-- The call was allowed and is to be recorded. -/
def Event.recorded (event : Event) : Bool :=
  match event.answer with
  | some (.allowed ..) => event.record
  | _ => false

/-- The call is recorded in the window that starts at a time. -/
def Event.fallsIn (limit : LimitType) (start : Nat) (event : Event) : Bool :=
  event.recorded && decide (start ≤ event.now ∧ event.now < start + limit.duration)

open Event

/-- What the calls of a key can rely on. -/
structure Fair (config : ToolRateLimitConfig) (events : List Event) : Prop where
  answered : ∀ event ∈ events, event.answer ≠ none
  budget : ∀ event ∈ events, ∀ limit,
    events.countP (fallsIn limit (event.windows limit).windowStart) ≤ config limit
  retry : events.Pairwise fun event later => ∀ retryAfter limit,
    event.answer = some (.limited retryAfter limit) → later.now < event.now + retryAfter →
      later.IsLimited

/-- What a call does: a window goes on or starts anew, counts what is recorded, and limits the
call if it is full. -/
structure Answered (config : ToolRateLimitConfig) (limit : LimitType) (window : WindowState)
    (event : Event) : Prop where
  answer : event.answer ≠ none
  window : event.now < window.windowStart + limit.duration ∧
      (event.windows limit).windowStart = window.windowStart ∧
      (event.windows limit).count = window.count + event.recorded.toNat ∨
    window.windowStart + limit.duration ≤ event.now ∧
      (event.windows limit).windowStart = event.now ∧
      (event.windows limit).count = event.recorded.toNat
  within : event.recorded.toNat = 0 ∨ (event.windows limit).count ≤ config limit
  full : event.recorded.toNat = 1 ∨ (event.windows limit).count < config limit ∨ event.IsLimited
  retry : ∀ retryAfter, event.answer = some (.limited retryAfter limit) →
    config limit ≤ (event.windows limit).count ∧
      event.now + retryAfter ≤ (event.windows limit).windowStart + limit.duration

variable (config : ToolRateLimitConfig) (windows : ToolRateLimitState) (call : Call)
  (limit : LimitType)

/-- A window that is not over is kept. -/
theorem maybeReset_cases (now : Nat) :
    let window := windows limit
    let reset := maybeReset windows now limit
    (now < window.windowStart + limit.duration ∧ reset = window ∨
      window.windowStart + limit.duration ≤ now ∧ reset = ⟨now, 0⟩) ∧
    now + reset.timeUntilReset limit.duration now ≤
      reset.windowStart + limit.duration := by
  have hpos : 0 < limit.duration := by cases limit <;> decide
  simp only [maybeReset, WindowState.maybeReset, WindowState.timeUntilReset]
  split
  · exact ⟨.inr ⟨by omega, rfl⟩, by simp; split <;> omega⟩
  · exact ⟨.inl ⟨by omega, rfl⟩, by omega⟩

theorem answered :
    Answered config limit (windows limit) (call.event config (some windows)) := by
  obtain ⟨key, record, now⟩ := call
  obtain ⟨hreset, hretry⟩ := maybeReset_cases windows limit now
  simp only [Call.event, checkInternal, Option.getD_some]
  generalize maybeReset windows now = found at hreset hretry ⊢
  have hlimited : ∀ limit', config limit' ≤ (found limit').count →
      Answered config limit (windows limit) ⟨⟨key, record, now⟩,
        some (.limited ((found limit').timeUntilReset limit'.duration now) limit'), found⟩ := by
    intro limit' hfull
    refine ⟨by simp, ?_, .inl rfl, .inr (.inr ⟨_, _, rfl⟩), ?_⟩
    · rcases hreset with ⟨hlt, heq⟩ | ⟨hle, heq⟩
      · simp [heq, hlt, recorded]
      · simp [heq, hle, recorded]
    · rintro _ ⟨⟩
      exact ⟨hfull, hretry⟩
  split
  · next hfull => exact hlimited _ hfull
  split
  · next hfull => exact hlimited _ hfull
  next hminute hhour =>
  have hroom : (found limit).count < config limit := by
    cases limit with
    | perMinute => exact Nat.lt_of_not_le hminute
    | perHour => exact Nat.lt_of_not_le hhour
  have hone := record.toNat_le
  have hsub : ∀ a b, ¬ b ≥ a → checkedSub a (b + record.toNat) = some (a - (b + record.toNat)) :=
    fun a b hlt => if_pos (by omega)
  simp only [hsub _ _ hminute, hsub _ _ hhour]
  refine ⟨by simp, ?_, ?_, ?_, by simp⟩
  · rcases hreset with ⟨hlt, heq⟩ | ⟨hle, heq⟩
    · simp [heq, hlt, recorded]
    · simp [heq, hle, recorded]
  · exact .inr (by dsimp only; omega)
  · show record.toNat = 1 ∨ (found limit).count + record.toNat < config limit ∨ _
    omega

/-! ## The calls of a key -/

/-- The rest of a window takes what is left of its budget, and windows do not overlap. -/
structure Served (config : ToolRateLimitConfig) (limit : LimitType) (window : WindowState)
    (events : List Event) : Prop where
  count : events.countP (fallsIn limit window.windowStart) ≤ config limit - window.count
  start : ∀ event ∈ events, (event.windows limit).windowStart = window.windowStart ∨
    window.windowStart + limit.duration ≤ (event.windows limit).windowStart
  full : config limit ≤ window.count → ∀ event ∈ events,
    event.now < window.windowStart + limit.duration → event.IsLimited

theorem fallsIn_le (start : Nat) (event : Event) :
    (if event.fallsIn limit start then 1 else 0) ≤ event.recorded.toNat ∧
      (start + limit.duration ≤ event.now ∨ event.now < start →
        ¬ event.fallsIn limit start) := by
  simp only [fallsIn, Bool.and_eq_true, decide_eq_true_eq]
  refine ⟨?_, by omega⟩
  split
  · next h => simp [h.1]
  · exact Nat.zero_le _

section

variable {config windows} {calls : List Call}
  (hclock : (runKey config (some windows) calls).Pairwise fun a b => a.now ≤ b.now)

include hclock

theorem served : Served config limit (windows limit) (runKey config (some windows) calls) := by
  induction calls generalizing windows with
  | nil => exact ⟨Nat.zero_le _, by simp [runKey], by simp [runKey]⟩
  | cons call calls ih =>
    rw [runKey] at hclock ⊢
    obtain ⟨-, hwindow, hwithin, hfull, -⟩ :=
      answered config windows call limit
    generalize call.event config (some windows) = event at *
    obtain ⟨hlater, hclock⟩ := pairwise_cons.1 hclock
    obtain ⟨hcount, hstart, hrest⟩ := ih hclock
    refine ⟨?_, fun e he => ?_, fun hbudget e he hnow => ?_⟩
    · have hhead := fallsIn_le limit (windows limit).windowStart event
      rw [countP_cons]
      rcases hwindow with ⟨hlt, heq, hsum⟩ | ⟨hle, -⟩
      · rw [heq] at hcount
        omega
      · have hnone : (runKey config (some event.windows) calls).countP
            (fallsIn limit (windows limit).windowStart) = 0 :=
          countP_eq_zero.2 fun e he =>
            (fallsIn_le _ _ e).2 (.inl (Nat.le_trans hle (hlater e he)))
        simp [hnone, hhead.2 (.inl hle)]
    · rcases mem_cons.1 he with rfl | he
      · omega
      · have := hstart e he
        omega
    · rcases mem_cons.1 he with rfl | he
      · exact (hfull.resolve_left (by omega)).resolve_left (by omega)
      · have := hlater e he
        exact hrest (by omega) e he (by omega)

theorem fair : Fair config (runKey config (some windows) calls) := by
  induction calls generalizing windows with
  | nil => exact ⟨by simp [runKey], by simp [runKey], List.Pairwise.nil⟩
  | cons call calls ih =>
    rw [runKey] at hclock ⊢
    have hevent := answered config windows call
    generalize call.event config (some windows) = event at *
    obtain ⟨hlater, hclock⟩ := pairwise_cons.1 hclock
    have hserved := fun limit => served limit hclock
    obtain ⟨hanswer, hbudget, hretry⟩ := ih hclock
    refine ⟨forall_mem_cons.2 ⟨(hevent .perMinute).answer, hanswer⟩, fun e he limit => ?_,
      pairwise_cons.2 ⟨fun later hmem retryAfter limit hlimited hnow => ?_, hretry⟩⟩
    · have hhead := fallsIn_le limit (e.windows limit).windowStart event
      obtain ⟨hcount, hstart, -⟩ := hserved limit
      obtain ⟨-, hwindow, hwithin, -, -⟩ := hevent limit
      rw [countP_cons]
      rcases mem_cons.1 he with rfl | he
      · omega
      · rcases hstart e he with heq | hle
        · rw [← heq] at hcount
          omega
        · have := hbudget e he limit
          simp [hhead.2 (by omega)]
          omega
    · obtain ⟨hfull, hle⟩ := (hevent limit).retry retryAfter hlimited
      exact (hserved limit).full hfull later hmem (Nat.lt_of_lt_of_le hnow hle)

end

/-- The events of a key in a run of a new limiter. -/
def eventsOf (limits : String → ToolRateLimitConfig) (key : Key) (calls : List Call) : List Event :=
  (run limits (fun _ => none) calls).filter (·.key = key)

theorem map_runKey (config : ToolRateLimitConfig) (entry : Option ToolRateLimitState)
    (calls : List Call) : (runKey config entry calls).map toCall = calls := by
  induction calls generalizing entry with
  | nil => rfl
  | cons call calls ih => exact congrArg (call :: ·) (ih _)

/-- While the clock does not go back, every key is treated fairly, whatever the calls of other
keys are. -/
theorem rate_limited (limits : String → ToolRateLimitConfig) (key : Key)
    {calls : List Call} (hclock : calls.Pairwise fun a b => a.now ≤ b.now) :
    Fair (limits key.2) (eventsOf limits key calls) ∧
      ∀ others : List Call, others.filter (·.key = key) = calls.filter (·.key = key) →
        eventsOf limits key others = eventsOf limits key calls := by
  constructor
  · rw [eventsOf, filter_run]
    have hown := hclock.filter (·.key = key)
    cases hcalls : calls.filter (·.key = key) with
    | nil => exact ⟨by simp [runKey], by simp [runKey], List.Pairwise.nil⟩
    | cons call own =>
      -- the first call finds new windows
      rw [hcalls, ← map_runKey (limits key.2) (some (.new call.now)) (call :: own),
        pairwise_map] at hown
      exact fair hown
  · intro others hsame
    rw [eventsOf, eventsOf, filter_run, filter_run, hsame]

theorem rate_limited_twice : let key : Key := ("u", "shell")
    let calls : List Call := [⟨key, true, 0⟩, ⟨key, true, 1⟩]
    Fair (fun _ => 1) (eventsOf (fun _ _ => 1) key calls) ∧
      ∀ others : List Call, others.filter (·.key = key) = calls.filter (·.key = key) →
        eventsOf (fun _ _ => 1) key others = eventsOf (fun _ _ => 1) key calls :=
  rate_limited (fun _ _ => 1) ("u", "shell") (by simp)

end Axinite.Tools.RateLimiter
