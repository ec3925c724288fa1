import Axinite.Foundation.Runs

/-!
# Rate limits of emissions

Two windows count the messages that a channel emits (`channels/wasm/host/store.rs`).  A call is
recorded in each window that has room, also if the other one refuses it.

Main results:

- Theorem `refusals_free_iff`: the runs in which refused calls cost nothing.
-/

namespace Axinite.Channels.EmitRateLimiter

open Foundation

structure RateWindow where
  count : Nat
  windowStart : Nat
  windowDurationMs : Nat

namespace RateWindow

variable (window : RateWindow) (nowMs : Nat)

def new (durationMs : Nat) : RateWindow :=
  ⟨0, 0, durationMs⟩

def expired : Bool :=
  nowMs - window.windowStart > window.windowDurationMs

/-- Reset window if expired. -/
def current : RateWindow :=
  if window.expired nowMs then { window with count := 0, windowStart := nowMs } else window

def checkAndRecord (limit : Nat) : Bool × RateWindow :=
  let window := window.current nowMs
  if window.count ≥ limit then (false, window)
  else (true, { window with count := window.count + 1 })

end RateWindow

structure EmitRateLimitConfig where
  messagesPerMinute : Nat
  messagesPerHour : Nat

structure ChannelEmitRateLimiter where
  config : EmitRateLimitConfig
  minuteWindow : RateWindow
  hourWindow : RateWindow

def new (config : EmitRateLimitConfig) : ChannelEmitRateLimiter :=
  ⟨config, .new 60000, .new 3600000⟩

/-- Check if an emit is allowed and record it if so. -/
def checkAndRecord (limiter : ChannelEmitRateLimiter) (now : Nat) :
    Bool × ChannelEmitRateLimiter :=
  let minute := limiter.minuteWindow.checkAndRecord now limiter.config.messagesPerMinute
  let hour := limiter.hourWindow.checkAndRecord now limiter.config.messagesPerHour
  (minute.1 && hour.1, ⟨limiter.config, minute.2, hour.2⟩)

/-! ## Runs -/

/-- The limiter, and how many calls have been accepted in its windows. -/
structure Emissions where
  limiter : ChannelEmitRateLimiter
  minute : Nat
  hour : Nat

def Emissions.init (config : EmitRateLimitConfig) : Emissions :=
  ⟨new config, 0, 0⟩

def step (s : Emissions) (now : Nat) : Emissions :=
  let (accepted, limiter) := checkAndRecord s.limiter now
  ⟨limiter, (if s.limiter.minuteWindow.expired now then 0 else s.minute) + accepted.toNat,
    (if s.limiter.hourWindow.expired now then 0 else s.hour) + accepted.toNat⟩

/-- A refused call finds a window filled by accepted calls and is recorded in none, and an hour
has no more accepted calls than its limit. -/
def RefusesFree (s : Emissions) (now : Nat) : Prop :=
  let ⟨config, minute, hour⟩ := s.limiter
  let after := step s now
  ((checkAndRecord s.limiter now).1 = false →
    (config.messagesPerMinute ≤ after.minute ∨ config.messagesPerHour ≤ after.hour) ∧
    after.limiter.minuteWindow.count = (minute.current now).count ∧
    after.limiter.hourWindow.count = (hour.current now).count) ∧
  after.hour ≤ config.messagesPerHour

/-- The windows refuse a call together or not at all. -/
def RefuseTogether (s : Emissions) (now : Nat) : Prop :=
  let ⟨config, minute, hour⟩ := s.limiter
  config.messagesPerMinute ≤ (minute.current now).count ↔
    config.messagesPerHour ≤ (hour.current now).count

/-- The windows count the accepted calls. -/
def Exact (s : Emissions) : Prop :=
  s.minute = s.limiter.minuteWindow.count ∧ s.hour = s.limiter.hourWindow.count ∧
    s.hour ≤ s.limiter.config.messagesPerHour

variable {s : Emissions} {now : Nat}

theorem count_current (window : RateWindow) (now : Nat) :
    (window.current now).count = if window.expired now then 0 else window.count := by
  unfold RateWindow.current
  split <;> rfl

theorem refuseTogether_of_refusesFree (h : RefusesFree s now) : RefuseTogether s now := by
  obtain ⟨⟨config, minute, hour⟩, accepted⟩ := s
  have hrefused := h.1
  simp only [step, checkAndRecord, RateWindow.checkAndRecord] at hrefused
  by_cases hminute : config.messagesPerMinute ≤ (minute.current now).count <;>
    by_cases hhour : config.messagesPerHour ≤ (hour.current now).count <;>
    simp [RefuseTogether, hminute, hhour] at hrefused ⊢

theorem refusesFree_and_exact (h : RefuseTogether s now) (hexact : Exact s) :
    RefusesFree s now ∧ Exact (step s now) := by
  obtain ⟨⟨config, minute, hour⟩, accepted⟩ := s
  simp only [Exact] at hexact
  obtain ⟨rfl, rfl, hle⟩ := hexact
  have hcurrent := count_current hour now
  simp only [RefusesFree, Exact, step, checkAndRecord, RateWindow.checkAndRecord, ← count_current]
  by_cases hfull : config.messagesPerHour ≤ (hour.current now).count
  · simp [hfull, h.2 _]
    split at hcurrent <;> omega
  · simp [hfull, mt h.1 _]
    omega

/-- Refused calls cost nothing exactly in the runs in which no call is refused by one window and
recorded in the other. -/
theorem refusals_free_iff (config : EmitRateLimitConfig) (calls : List Nat) :
    Runs.AllSteps step RefusesFree (.init config) calls ↔
      Runs.AllSteps step RefuseTogether (.init config) calls := by
  have hinit : Exact (.init config) := ⟨rfl, rfl, Nat.zero_le _⟩
  constructor
  · exact Runs.allSteps_of_inv (fun _ _ h _ => refuseTogether_of_refusesFree h)
      (fun _ _ h hexact =>
        (refusesFree_and_exact (refuseTogether_of_refusesFree h) hexact).2) hinit
  · exact Runs.allSteps_of_inv (fun _ _ h hexact => (refusesFree_and_exact h hexact).1)
      (fun _ _ h hexact => (refusesFree_and_exact h hexact).2) hinit

/-- A call that the minute refuses uses up the hour, which then refuses a call with one accepted
call where two are allowed. -/
theorem refusal_spends_hour :
    let s := [100000000, 100000001].foldl step (.init ⟨1, 2⟩)
    s.hour = 1 ∧ s.limiter.hourWindow.count = 2 ∧
      (checkAndRecord s.limiter 100060001).1 = false ∧ (step s 100060001).minute = 0 := by
  decide

end Axinite.Channels.EmitRateLimiter
