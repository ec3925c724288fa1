import Axinite.Foundation.Schedule
import Axinite.Llm.Provider
import Axinite.Session.Turn

/-!
# Circuit breaker of a provider

The breaker counts consecutive transient failures and opens the circuit when there are too
many.  An open circuit refuses all calls until the recovery timeout has passed; then probe
calls are let through, and the circuit closes again when enough of them have succeeded.

A call takes the lock twice, before and after the inner provider works.  Between the two,
other calls open and close the circuit, so a call may record its outcome in a state that it
was not admitted in.  The outcome of a call that was admitted while the circuit was closed
is not a probe, but `recordSuccess` cannot tell.

The breaker carries a record that the code does not keep: when calls were admitted, when the
circuit opened and closed, and in which state a successful call had been admitted.

Main results:

- Theorem `BreakerInv.exec`: every operation keeps the invariant, as long as successes are
  recorded by probes only, or while the circuit is closed.
- Theorem `open_circuit_stays_open`: in every run with that condition nothing is admitted
  before the timeout, and the circuit closes only after enough successful probes.
- Theorem `counters_below_limits`: in every run no counter passes its limit.
- Theorem `late_success_closes_circuit`: runs without the condition in which both fail.
-/

namespace Axinite.Llm.CircuitBreaker

open Foundation Foundation.Program Session

/-! ## State -/

/-- Configuration of the breaker; durations are in nanoseconds. -/
structure CircuitBreakerConfig where
  failureThreshold : Nat
  recoveryTimeout : Nat
  halfOpenSuccessesNeeded : Nat

def CircuitBreakerConfig.default : CircuitBreakerConfig where
  failureThreshold := 5
  recoveryTimeout := 30000000000
  halfOpenSuccessesNeeded := 2

inductive CircuitState where
  | closed
  | opened
  | halfOpen
  deriving DecidableEq, Repr

/-- What the breaker keeps under its lock. -/
structure BreakerState where
  state : CircuitState
  consecutiveFailures : Nat
  openedAt : Option Timestamp
  halfOpenSuccesses : Nat

/-- What happens to the circuit in a run. -/
inductive Event where
  /-- A call is admitted to the inner provider, in this state of the circuit. -/
  | admitted (time : Timestamp) (state : CircuitState)
  /-- A call that was admitted in this state has succeeded. -/
  | succeeded (admittedIn : CircuitState)
  | opened (time : Timestamp)
  | closed
  deriving DecidableEq, Repr

/-- The breaker, the clock, and the record of the run with the latest event first. -/
structure Breaker where
  inner : BreakerState
  now : Timestamp
  log : List Event

namespace Breaker

/-- A new breaker is closed. -/
def new (start : Timestamp) : Breaker where
  inner :=
    { state := .closed
      consecutiveFailures := 0
      openedAt := none
      halfOpenSuccesses := 0 }
  now := start
  log := []

end Breaker

/-- The provider inside the breaker, as far as error texts depend on it: its name, and the
printed form of a duration in whole seconds. -/
structure ProviderNames where
  modelName : String
  formatSecs : Nat → String

/-! ## Operations -/

/-- The error means that the provider is in trouble. -/
def isTransient : LlmError → Bool
  | .requestFailed _ _ => true
  | .rateLimited _ _ => true
  | .invalidResponse _ _ => true
  | .sessionExpired _ => true
  | .sessionRenewalFailed _ _ => true
  | .http _ => true
  | .io _ => true
  | .contextLengthExceeded _ _ => false
  | .modelNotAvailable _ _ => false
  | .authFailed _ => false
  | .json _ => false

/-- The error of a call that meets an open circuit. -/
def circuitOpen (names : ProviderNames) (failures remaining : Nat) : LlmError :=
  .requestFailed names.modelName
    ("Circuit breaker open (" ++ toString failures ++ " consecutive failures, recovery in " ++
      names.formatSecs remaining ++ "s)")

/-- Let a call through in the state `b`. -/
def letThrough (b : Breaker) : Except LlmError CircuitState × Breaker :=
  (.ok b.inner.state, { b with log := .admitted b.now b.inner.state :: b.log })

/-- Whether a call is allowed right now.  The code answers with the unit value; here the
answer tells in which state the call was admitted. -/
def checkAllowed (names : ProviderNames) (config : CircuitBreakerConfig) (b : Breaker) :
    Except LlmError CircuitState × Breaker :=
  match b.inner.state with
  | .closed => letThrough b
  | .halfOpen => letThrough b
  | .opened =>
    match b.inner.openedAt with
    | some openedAt =>
      if config.recoveryTimeout ≤ b.now - openedAt then
        letThrough { b with inner := { b.inner with state := .halfOpen, halfOpenSuccesses := 0 } }
      else
        (.error (circuitOpen names b.inner.consecutiveFailures
          (config.recoveryTimeout - (b.now - openedAt))), b)
    | none =>
      letThrough { b with inner := { b.inner with state := .closed }, log := .closed :: b.log }

/-- Record a successful call. -/
def recordSuccess (config : CircuitBreakerConfig) (admittedIn : CircuitState) (b : Breaker) :
    Breaker :=
  let log := .succeeded admittedIn :: b.log
  match b.inner.state with
  | .closed => { b with inner := { b.inner with consecutiveFailures := 0 }, log := log }
  | .halfOpen =>
    let halfOpenSuccesses := b.inner.halfOpenSuccesses + 1
    if config.halfOpenSuccessesNeeded ≤ halfOpenSuccesses then
      { b with
        inner :=
          { state := .closed
            consecutiveFailures := 0
            openedAt := none
            halfOpenSuccesses := halfOpenSuccesses }
        log := .closed :: log }
    else { b with inner := { b.inner with halfOpenSuccesses := halfOpenSuccesses }, log := log }
  | .opened =>
    { b with
      inner :=
        { b.inner with state := .closed, consecutiveFailures := 0, openedAt := none }
      log := .closed :: log }

/-- Record a failed call; only transient errors count. -/
def recordFailure (config : CircuitBreakerConfig) (err : LlmError) (b : Breaker) : Breaker :=
  if isTransient err then
    match b.inner.state with
    | .closed =>
      let consecutiveFailures := b.inner.consecutiveFailures + 1
      if config.failureThreshold ≤ consecutiveFailures then
        { b with
          inner :=
            { b.inner with
              state := .opened
              consecutiveFailures := consecutiveFailures
              openedAt := some b.now }
          log := .opened b.now :: b.log }
      else
        { b with inner := { b.inner with consecutiveFailures := consecutiveFailures } }
    | .halfOpen =>
      { b with
        inner :=
          { b.inner with state := .opened, openedAt := some b.now, halfOpenSuccesses := 0 }
        log := .opened b.now :: b.log }
    | .opened => b
  else b

/-- The critical sections of a call, and the clock. -/
inductive BreakerOp where
  | checkAllowed
  | recordSuccess (admittedIn : CircuitState)
  | recordFailure (err : LlmError)
  | tick (elapsed : Nat)

/-- What a critical section answers. -/
abbrev BreakerOp.Resp : BreakerOp → Type
  | checkAllowed => Except LlmError CircuitState
  | recordSuccess _ => Unit
  | recordFailure _ => Unit
  | tick _ => Unit

/-- Effect of a critical section. -/
def BreakerOp.exec (names : ProviderNames) (config : CircuitBreakerConfig) :
    (op : BreakerOp) → Breaker → op.Resp × Breaker
  | checkAllowed, b => CircuitBreaker.checkAllowed names config b
  | recordSuccess admittedIn, b => ((), CircuitBreaker.recordSuccess config admittedIn b)
  | recordFailure err, b => ((), CircuitBreaker.recordFailure config err b)
  | tick elapsed, b => ((), { b with now := b.now + elapsed })

abbrev BreakerProgram := Program BreakerOp BreakerOp.Resp

/-! ## Calls -/

/-- A call through the breaker, if the inner provider answers `inner`. -/
def callThrough {ρ : Type} (inner : Except LlmError ρ) : BreakerProgram (Except LlmError ρ) := do
  let allowed : Except LlmError CircuitState ← perform BreakerOp.checkAllowed
  match allowed with
  | .error err => return .error err
  | .ok admittedIn =>
    match inner with
    | .ok resp =>
      perform (BreakerOp.recordSuccess admittedIn)
      return .ok resp
    | .error err =>
      perform (BreakerOp.recordFailure err)
      return .error err

def complete (inner : Except LlmError CompletionResponse) :
    BreakerProgram (Except LlmError CompletionResponse) :=
  callThrough inner

def completeWithTools (inner : Except LlmError ToolCompletionResponse) :
    BreakerProgram (Except LlmError ToolCompletionResponse) :=
  callThrough inner

/-- What runs concurrently: calls with the answer that the inner provider will give, and the
clock. -/
inductive BreakerCall where
  | complete (inner : Except LlmError CompletionResponse)
  | completeWithTools (inner : Except LlmError ToolCompletionResponse)
  | tick (elapsed : Nat)

def BreakerCall.program : BreakerCall → BreakerProgram Unit
  | complete inner => CircuitBreaker.complete inner >>= fun _ => pure ()
  | completeWithTools inner => CircuitBreaker.completeWithTools inner >>= fun _ => pure ()
  | tick elapsed => perform (BreakerOp.tick elapsed)

/-- The programs that may start. -/
def IsBreakerCall (p : BreakerProgram Unit) : Prop :=
  ∃ call : BreakerCall, p = call.program

/-! ## What is expected of a run -/

/-- A call is not admitted within the recovery timeout of an earlier opening. -/
def Respects (config : CircuitBreakerConfig) : Event → Event → Prop
  | .admitted time _, .opened openedAt => openedAt + config.recoveryTimeout ≤ time
  | _, _ => True

instance (config : CircuitBreakerConfig) : DecidableRel (Respects config)
  | .admitted _ _, .opened _ => inferInstanceAs (Decidable (_ ≤ _))
  | .admitted _ _, .admitted _ _ => .isTrue trivial
  | .admitted _ _, .succeeded _ => .isTrue trivial
  | .admitted _ _, .closed => .isTrue trivial
  | .succeeded _, _ => .isTrue trivial
  | .opened _, _ => .isTrue trivial
  | .closed, _ => .isTrue trivial

/-- No call was admitted within the recovery timeout of an opening before it. -/
def Breaker.StaysOpen (config : CircuitBreakerConfig) (b : Breaker) : Prop :=
  b.log.Pairwise (Respects config)

/-- The successes of calls that were admitted as probes, since the circuit last opened. -/
def probes : List Event → Nat
  | [] => 0
  | .opened _ :: _ => 0
  | .succeeded .halfOpen :: log => probes log + 1
  | _ :: log => probes log

/-- Whenever the circuit closed, enough probes had succeeded since it opened. -/
def ClosesAfterProbes (config : CircuitBreakerConfig) : List Event → Prop
  | [] => True
  | .closed :: log => config.halfOpenSuccessesNeeded ≤ probes log ∧ ClosesAfterProbes config log
  | _ :: log => ClosesAfterProbes config log

instance (config : CircuitBreakerConfig) : DecidablePred (ClosesAfterProbes config) := by
  intro log
  induction log with
  | nil => exact .isTrue trivial
  | cons event log ih =>
    cases event with
    | closed => exact inferInstanceAs (Decidable (_ ∧ _))
    | admitted _ _ => exact ih
    | succeeded _ => exact ih
    | opened _ => exact ih

/-- Successes are recorded while the circuit is closed, or half open by a call that was
admitted half open. -/
def SuccessInTurn : BreakerOp → Breaker → Prop
  | .recordSuccess admittedIn, b =>
    b.inner.state = .closed ∨ b.inner.state = .halfOpen ∧ admittedIn = .halfOpen
  | _, _ => True

instance (op : BreakerOp) (b : Breaker) : Decidable (SuccessInTurn op b) := by
  cases op with
  | recordSuccess admittedIn => exact inferInstanceAs (Decidable (_ ∨ _ ∧ _))
  | checkAllowed => exact .isTrue trivial
  | recordFailure err => exact .isTrue trivial
  | tick elapsed => exact .isTrue trivial

/-! ## The invariant -/

/-- The record and the state of the circuit agree. -/
structure BreakerInv (config : CircuitBreakerConfig) (b : Breaker) : Prop where
  staysOpen : b.StaysOpen config
  closesAfterProbes : ClosesAfterProbes config b.log
  past : ∀ time, Event.opened time ∈ b.log → time ≤ b.now
  /-- An open circuit remembers when it was opened last. -/
  openedAt : b.inner.state = .opened → ∃ openedAt, b.inner.openedAt = some openedAt ∧
    openedAt ≤ b.now ∧ ∀ time, Event.opened time ∈ b.log → time ≤ openedAt
  /-- A circuit that is not open has waited for the timeout of all openings. -/
  recovered : b.inner.state ≠ .opened → ∀ time, Event.opened time ∈ b.log →
    time + config.recoveryTimeout ≤ b.now
  successes : b.inner.state = .halfOpen → b.inner.halfOpenSuccesses ≤ probes b.log

variable {config : CircuitBreakerConfig} {b : Breaker}

open List.Pairwise

theorem BreakerInv.new (config : CircuitBreakerConfig) (start : Timestamp) :
    BreakerInv config (Breaker.new start) where
  staysOpen := nil
  closesAfterProbes := trivial
  past := by simp [Breaker.new]
  openedAt := by simp [Breaker.new]
  recovered := by simp [Breaker.new]
  successes := by simp [Breaker.new]

/-- A call may be admitted whenever the circuit is not open. -/
theorem BreakerInv.letThrough (h : BreakerInv config b) (hstate : b.inner.state ≠ .opened) :
    BreakerInv config (letThrough b).2 where
  staysOpen := by
    refine cons ?_ h.staysOpen
    intro earlier hearlier
    cases earlier with
    | opened time => exact h.recovered hstate time hearlier
    | admitted _ _ | succeeded _ | closed => exact trivial
  closesAfterProbes := h.closesAfterProbes
  past := fun time htime => h.past time (by simpa [CircuitBreaker.letThrough] using htime)
  openedAt := fun hopened => absurd hopened hstate
  recovered := fun _ time htime =>
    h.recovered hstate time (by simpa [CircuitBreaker.letThrough] using htime)
  successes := h.successes

/-- An open circuit whose timeout has passed becomes half open. -/
theorem BreakerInv.toHalfOpen (h : BreakerInv config b) {openedAt : Timestamp}
    (hstate : b.inner.state = .opened) (hopenedAt : b.inner.openedAt = some openedAt)
    (helapsed : config.recoveryTimeout ≤ b.now - openedAt) :
    BreakerInv config
      { b with inner := { b.inner with state := .halfOpen, halfOpenSuccesses := 0 } } := by
  obtain ⟨latest, hlatest, hpast, hall⟩ := h.openedAt hstate
  obtain rfl : openedAt = latest := Option.some.inj (hopenedAt.symm.trans hlatest)
  refine ⟨h.staysOpen, h.closesAfterProbes, h.past, nofun, ?_, fun _ => Nat.zero_le _⟩
  intro _ time htime
  calc time + config.recoveryTimeout ≤ openedAt + config.recoveryTimeout :=
        Nat.add_le_add_right (hall time htime) _
    _ ≤ b.now := Nat.add_le_of_le_sub' hpast helapsed

theorem BreakerInv.checkAllowed (h : BreakerInv config b) (names : ProviderNames) :
    BreakerInv config (checkAllowed names config b).2 := by
  unfold CircuitBreaker.checkAllowed
  split <;> rename_i hstate
  · exact h.letThrough (by simp [hstate])
  · exact h.letThrough (by simp [hstate])
  · split <;> rename_i hopenedAt
    · split <;> rename_i helapsed
      · exact (h.toHalfOpen hstate hopenedAt helapsed).letThrough nofun
      · exact h
    · -- an open circuit knows when it was opened
      obtain ⟨_, hsome, -⟩ := h.openedAt hstate
      rw [hopenedAt] at hsome
      cases hsome

/-- A success in turn only adds to the record of the run. -/
theorem BreakerInv.logSuccess (h : BreakerInv config b) (admittedIn : CircuitState) :
    BreakerInv config { b with log := .succeeded admittedIn :: b.log } where
  staysOpen := cons (fun _ _ => trivial) h.staysOpen
  closesAfterProbes := h.closesAfterProbes
  past := fun time htime => h.past time (by simpa using htime)
  openedAt := by
    intro hstate
    obtain ⟨openedAt, hsome, hnow, hall⟩ := h.openedAt hstate
    exact ⟨openedAt, hsome, hnow, fun time htime => hall time (by simpa using htime)⟩
  recovered := fun hstate time htime => h.recovered hstate time (by simpa using htime)
  successes := by
    intro hstate
    have hsuccesses := h.successes hstate
    cases admittedIn with
    | halfOpen => exact Nat.le_succ_of_le hsuccesses
    | closed | opened => exact hsuccesses

theorem BreakerInv.recordSuccess (h : BreakerInv config b) {admittedIn : CircuitState}
    (hturn : SuccessInTurn (.recordSuccess admittedIn) b) :
    BreakerInv config (recordSuccess config admittedIn b) := by
  have hlogged := h.logSuccess admittedIn
  unfold CircuitBreaker.recordSuccess
  rcases hturn with hclosed | ⟨hhalf, rfl⟩
  · have hnotOpen : b.inner.state ≠ .opened := by simp [hclosed]
    simp only [hclosed]
    exact ⟨hlogged.staysOpen, hlogged.closesAfterProbes, hlogged.past, nofun,
      fun _ => hlogged.recovered hnotOpen, nofun⟩
  · have hsuccesses : b.inner.halfOpenSuccesses + 1 ≤ probes b.log + 1 :=
      Nat.succ_le_succ (h.successes hhalf)
    have hnotOpen : b.inner.state ≠ .opened := by simp [hhalf]
    simp only [hhalf]
    split <;> rename_i hneeded
    · exact
        { staysOpen := cons (fun _ _ => trivial) hlogged.staysOpen
          closesAfterProbes := ⟨le_trans hneeded hsuccesses, hlogged.closesAfterProbes⟩
          past := fun time htime => hlogged.past time (by simpa using htime)
          openedAt := nofun
          recovered := fun _ time htime => hlogged.recovered hnotOpen time (by simpa using htime)
          successes := nofun }
    · exact ⟨hlogged.staysOpen, hlogged.closesAfterProbes, hlogged.past, nofun,
        fun _ => hlogged.recovered hnotOpen, fun _ => hsuccesses⟩

/-- The circuit may open at any time. -/
theorem BreakerInv.toOpened (h : BreakerInv config b) (inner : BreakerState)
    (hstate : inner.state = .opened) (hopenedAt : inner.openedAt = some b.now) :
    BreakerInv config { b with inner := inner, log := .opened b.now :: b.log } := by
  have hpast : ∀ time, Event.opened time ∈ Event.opened b.now :: b.log → time ≤ b.now := by
    intro time htime
    rcases List.mem_cons.1 htime with heq | hold
    · exact le_of_eq (Event.opened.inj heq)
    · exact h.past time hold
  exact
    { staysOpen := cons (fun _ _ => trivial) h.staysOpen
      closesAfterProbes := h.closesAfterProbes
      past := hpast
      openedAt := fun _ => ⟨b.now, hopenedAt, le_refl _, hpast⟩
      recovered := absurd hstate
      successes := fun hhalf => by simp [hstate] at hhalf }

theorem BreakerInv.recordFailure (h : BreakerInv config b) (err : LlmError) :
    BreakerInv config (recordFailure config err b) := by
  unfold CircuitBreaker.recordFailure
  split
  · split <;> rename_i hstate
    · dsimp only
      split
      · exact h.toOpened _ rfl rfl
      · exact ⟨h.staysOpen, h.closesAfterProbes, h.past, h.openedAt, h.recovered, h.successes⟩
    · exact h.toOpened _ rfl rfl
    · exact h
  · exact h

theorem BreakerInv.tick (h : BreakerInv config b) (elapsed : Nat) :
    BreakerInv config { b with now := b.now + elapsed } where
  staysOpen := h.staysOpen
  closesAfterProbes := h.closesAfterProbes
  past := fun time htime => Nat.le_add_right_of_le (h.past time htime)
  openedAt := by
    intro hstate
    obtain ⟨openedAt, hsome, hnow, hall⟩ := h.openedAt hstate
    exact ⟨openedAt, hsome, Nat.le_add_right_of_le hnow, hall⟩
  recovered := fun hstate time htime => Nat.le_add_right_of_le (h.recovered hstate time htime)
  successes := h.successes

/-- Every operation keeps the invariant, if successes are recorded in turn. -/
theorem BreakerInv.exec (h : BreakerInv config b) (names : ProviderNames) {op : BreakerOp}
    (hturn : SuccessInTurn op b) : BreakerInv config (op.exec names config b).2 := by
  cases op with
  | checkAllowed => exact h.checkAllowed _
  | recordSuccess admittedIn => exact h.recordSuccess hturn
  | recordFailure err => exact h.recordFailure err
  | tick elapsed => exact h.tick _

/-- An open circuit stays open for the recovery timeout, and it closes only after enough
probes have succeeded, in every interleaving in which no call that was admitted earlier
records a success in an open or half open circuit. -/
theorem open_circuit_stays_open (names : ProviderNames) (config : CircuitBreakerConfig)
    (start : Timestamp) {c : Config BreakerOp BreakerOp.Resp Breaker}
    (hc : Reachable (BreakerOp.exec names config) SuccessInTurn IsBreakerCall (Breaker.new start)
      c) :
    c.shared.StaysOpen config ∧ ClosesAfterProbes config c.shared.log := by
  have hinv := hc.invariant (fun _ _ hturn h => h.exec _ hturn) (BreakerInv.new _ _)
  exact ⟨hinv.staysOpen, hinv.closesAfterProbes⟩

/-- The counter of the state has not reached its limit, and an open circuit knows since when. -/
def BreakerState.Settled (config : CircuitBreakerConfig) (inner : BreakerState) : Prop :=
  match inner.state with
  | .closed => inner.consecutiveFailures < config.failureThreshold
  | .halfOpen => inner.halfOpenSuccesses < config.halfOpenSuccessesNeeded
  | .opened => inner.openedAt.isSome = true

/-- In every interleaving of calls, late successes included, a circuit that is closed or half open
has counted fewer failures or successes than it takes to leave the state. -/
theorem counters_below_limits (names : ProviderNames) (config : CircuitBreakerConfig)
    (start : Timestamp) (hfailures : 1 ≤ config.failureThreshold)
    (hsuccesses : 1 ≤ config.halfOpenSuccessesNeeded)
    {c : Config BreakerOp BreakerOp.Resp Breaker}
    (hc : Reachable (BreakerOp.exec names config) (fun _ _ => True) IsBreakerCall
      (Breaker.new start) c) :
    c.shared.inner.Settled config := by
  refine hc.invariant (I := fun b => b.inner.Settled config) ?_ hfailures
  intro op b _ h
  cases op with
  | checkAllowed => grind [BreakerState.Settled, BreakerOp.exec, checkAllowed, letThrough]
  | recordSuccess admittedIn => grind [BreakerState.Settled, BreakerOp.exec, recordSuccess]
  | recordFailure err => grind [BreakerState.Settled, BreakerOp.exec, recordFailure]
  | tick elapsed => exact h

/-! ## Sample runs -/

/-- Choices of a scheduler for calls through a new breaker. -/
abbrev Schedule := List (Move BreakerCall)

/-- The configuration that the choices lead to. -/
def afterMoves (moves : Schedule) : Config BreakerOp BreakerOp.Resp Breaker :=
  moves.foldl (Config.move (BreakerOp.exec ⟨"model", fun _ => "30"⟩ .default) BreakerCall.program)
    ⟨Breaker.new 0, []⟩

/-- A call that the inner provider answers. -/
def answered : BreakerCall :=
  .complete (.ok ⟨"hello", 1, 1, .stop, 0, 0⟩)

/-- A call that fails. -/
def failed : BreakerCall :=
  .complete (.error (.http "503 Service Unavailable"))

/-- A call that runs from its start to its end, at the place `i` of the pool. -/
def undisturbed (call : BreakerCall) (i : Nat) : Schedule :=
  [.spawn call, .advance i, .advance i]

/-- Five failures in a row, at the places from `i` on. -/
def fiveFailures (i : Nat) : Schedule :=
  (List.range' i 5).flatMap (undisturbed failed)

/-- The circuit opens, half a minute passes, and two probes close it. -/
def recoveryRun : Schedule :=
  fiveFailures 0 ++ [.spawn (.tick 30000000000), .advance 5] ++ undisturbed answered 6 ++
    undisturbed answered 7

theorem recoveryRun_stays_open : (afterMoves recoveryRun).shared.StaysOpen .default ∧
      ClosesAfterProbes .default (afterMoves recoveryRun).shared.log ∧
      Event.closed ∈ (afterMoves recoveryRun).shared.log := by
  have hc : Reachable (BreakerOp.exec ⟨"model", fun _ => "30"⟩ .default) SuccessInTurn
      IsBreakerCall (Breaker.new 0) (afterMoves recoveryRun) :=
    .of_moves (by decide +kernel)
  obtain ⟨hstays, hcloses⟩ := open_circuit_stays_open _ _ _ hc
  exact ⟨hstays, hcloses, by decide +kernel⟩

/-- A call is admitted before the circuit opens and succeeds afterwards; the next call does
not have to wait. -/
def lateRun : Schedule :=
  [.spawn answered, .advance 0] ++ fiveFailures 1 ++
    [.advance 0, .spawn answered, .advance 6]

theorem lateRun_below_limits : (afterMoves lateRun).shared.inner.Settled .default :=
  counters_below_limits _ .default 0 (by decide) (by decide)
    (.of_moves (by decide +kernel) : Reachable _ (fun _ _ => True) _ _ (afterMoves lateRun))

/-- Two calls are admitted before the circuit opens and succeed when it is half open; they
close it before the probe has an answer. -/
def staleRun : Schedule :=
  [.spawn answered, .advance 0, .spawn answered, .advance 1] ++ fiveFailures 2 ++
    [.spawn (.tick 30000000000), .advance 7, .spawn failed, .advance 8, .advance 0, .advance 1]

/-- A success of a call that was admitted earlier closes an open circuit, so that calls are
admitted within the timeout, and it counts as a probe of a half open circuit. -/
theorem late_success_closes_circuit :
    (∃ c, Reachable (BreakerOp.exec ⟨"model", fun _ => "30"⟩ .default) (fun _ _ => True)
        IsBreakerCall (Breaker.new 0) c ∧
      ¬ c.shared.StaysOpen .default ∧ ¬ ClosesAfterProbes .default c.shared.log) ∧
    ∃ c, Reachable (BreakerOp.exec ⟨"model", fun _ => "30"⟩ .default) (fun _ _ => True)
        IsBreakerCall (Breaker.new 0) c ∧
      c.shared.StaysOpen .default ∧ ¬ ClosesAfterProbes .default c.shared.log := by
  constructor
  · refine ⟨afterMoves lateRun, .of_moves (by decide +kernel), ?_, ?_⟩
    · unfold Breaker.StaysOpen
      decide +kernel
    · decide +kernel
  · refine ⟨afterMoves staleRun, .of_moves (by decide +kernel), ?_, ?_⟩
    · unfold Breaker.StaysOpen
      decide +kernel
    · decide +kernel

end Axinite.Llm.CircuitBreaker
