import Axinite.Foundation.Broadcast
import Axinite.Foundation.Runs
import Axinite.Session.Turn

/-!
# The monitor of a background job

A background job is announced by a task that listens to the events of all jobs.  The task is
started when the container has been created, so it knows nothing of the events before, and the
channel of the events is bounded, so events that come too fast are lost to it.  The task injects
the messages of the job's assistant and, at the end, a notice that the container has finished.

Main results:

- Theorem `watched_step`: the monitor has read no result of the job before it ends.
- Theorem `announced_once_iff`: the runs at whose end the job has been announced once.
-/

namespace Axinite.JobMonitor

open Foundation Broadcast List

/-! ## Events and notices -/

/-- Events of jobs, as far as the monitor tells them apart. -/
inductive SseEvent where
  | jobMessage (role content : String)
  | jobResult (status : String)
  | other
  deriving DecidableEq

/-- A message for the agent loop. -/
structure IncomingMessage where
  channel : String
  userId : String
  content : String
  deriving DecidableEq

/-- What the monitor injects. -/
inductive Notice where
  | assistant (content : String)
  | finished (status : String)
  deriving DecidableEq

def Notice.message (shortId : String) : Notice → IncomingMessage
  | assistant content =>
    ⟨"job_monitor", "system", "[Job " ++ shortId ++ "] Claude Code: " ++ content⟩
  | finished status =>
    ⟨"job_monitor", "system",
      "[Job " ++ shortId ++ "] Container finished (status: " ++ status ++ ")"⟩

/-- The notice is one of completion. -/
def Notice.isFinished : Notice → Bool
  | finished _ => true
  | assistant _ => false

/-! ## The monitor -/

/-- What the monitor does next. -/
inductive Phase where
  | receiving
  | sending (notice : Notice)
  | ended
  deriving DecidableEq

/-- The monitor task. -/
structure Monitor where
  receiver : Receiver
  phase : Phase
  deriving DecidableEq

/-- The stages of the tool call that starts the job in the background. -/
inductive Launch where
  | persisting
  | creating
  | created
  | returned
  deriving DecidableEq

/-- The tool call, the channel of the events, the monitor, and the notices that the agent loop has
got, the last one first. -/
structure State where
  launch : Launch
  log : List (Uuid × SseEvent)
  closed : Bool
  agentReads : Bool
  monitor : Option Monitor
  injected : List Notice

/-- Nothing has happened. -/
def State.start : State where
  launch := .persisting
  log := []
  closed := false
  agentReads := true
  monitor := none
  injected := []

/-- The job, the capacity of the event channel, and whether the tool has both channels. -/
structure Setup where
  job : Uuid
  capacity : Nat
  hasChannels : Bool

/-- Steps of the tool call, of the workers, of the agent loop, and of the monitor. -/
inductive Move where
  | launch (succeeds : Bool)
  | publish (job : Uuid) (event : SseEvent)
  | closeEvents
  | agentStops
  | monitor

variable (setup : Setup)

/-- What the monitor does with an event. -/
def phaseAfter (id : Uuid) (event : SseEvent) : Phase :=
  if id ≠ setup.job then .receiving
  else
    match event with
    | .jobMessage role content =>
      if role = "assistant" then .sending (.assistant content) else .receiving
    | .jobResult status => .sending (.finished status)
    | .other => .receiving

def State.stepMonitor (s : State) (m : Monitor) : State :=
  match m.phase with
  | .receiving =>
    match m.receiver.recv setup.capacity s.log with
    | (.value (id, event), r) => { s with monitor := some ⟨r, phaseAfter setup id event⟩ }
    | (.lagged _, r) => { s with monitor := some ⟨r, .receiving⟩ }
    | (.empty, r) => { s with monitor := some ⟨r, if s.closed then .ended else .receiving⟩ }
  | .sending notice =>
    if s.agentReads then
      { s with
        injected := notice :: s.injected
        monitor := some
          { m with phase := if notice.isFinished then .ended else .receiving } }
    else { s with monitor := some { m with phase := .ended } }
  | .ended => s

/-- A step of the tool call; the monitor subscribes when the container has been created. -/
def State.stepLaunch (s : State) (succeeds : Bool) : State :=
  match s.launch with
  | .persisting => { s with launch := if succeeds then .creating else .returned }
  | .creating => { s with launch := if succeeds then .created else .returned }
  | .created =>
    { s with
      launch := .returned
      monitor := if setup.hasChannels then some ⟨subscribe s.log, .receiving⟩ else none }
  | .returned => s

/-- A move; a container publishes events only after its creation has begun. -/
def State.step (s : State) : Move → State
  | .launch succeeds => s.stepLaunch setup succeeds
  | .publish job event =>
    if s.closed ∨ job = setup.job ∧ s.launch = .persisting then s
    else { s with log := s.log ++ [(job, event)] }
  | .closeEvents => { s with closed := true }
  | .agentStops => { s with agentReads := false }
  | .monitor =>
    match s.monitor with
    | some m => s.stepMonitor setup m
    | none => s

/-! ## What the monitor has read -/

/-- The event is the result of the job. -/
def IsResult (event : Uuid × SseEvent) : Prop :=
  ∃ status, event = (setup.job, .jobResult status)

/-- A result of the job has been published to the monitor and was not missed by it. -/
def Delivered (log : List (Uuid × SseEvent)) (r : Receiver) : Prop :=
  ∃ i status, r.first ≤ i ∧ i ∉ r.missed ∧ log[i]? = some (setup.job, .jobResult status)

/-- The number of completion notices. -/
def State.notices (s : State) : Nat :=
  s.injected.countP Notice.isFinished

/-- What the phase of the monitor says about the events that it has read. -/
def Monitor.Watches (s : State) (m : Monitor) : Prop :=
  m.receiver.next ≤ s.log.length ∧
    match m.phase with
    | .receiving | .sending (.assistant _) =>
      Caught (IsResult setup) s.log m.receiver ∧ s.notices = 0
    | .sending (.finished _) => Delivered setup s.log m.receiver ∧ s.notices = 0
    | .ended => Delivered setup s.log m.receiver ∧ s.notices = 1 ∨
        Caught (IsResult setup) s.log m.receiver ∧ s.log.length ≤ m.receiver.next ∧
          s.closed = true ∧ s.notices = 0

/-- As long as the agent reads: there is no monitor before the tool call returns, nothing is
injected without one, and the monitor tells what it has read. -/
structure Watched (s : State) : Prop where
  launched : s.launch ≠ .returned → s.monitor = none
  silent : s.monitor = none → s.injected = []
  watches : s.agentReads = true → ∀ m ∈ s.monitor, m.Watches setup s

variable {setup}

theorem Delivered.send {log : List (Uuid × SseEvent)} {r : Receiver} (h : Delivered setup log r)
    (event : Uuid × SseEvent) : Delivered setup (log ++ [event]) r := by
  obtain ⟨i, status, hfirst, hmissed, hi⟩ := h
  have hlt := (List.getElem?_eq_some_iff.1 hi).1
  exact ⟨i, status, hfirst, hmissed, by rw [getElem?_append_left hlt]; exact hi⟩

variable {s : State} {m : Monitor}

/-- Events that are published later do not change what the monitor has read. -/
theorem watches_publish (h : m.Watches setup s) (hopen : s.closed = false) (event : Uuid × SseEvent)
    :
    m.Watches setup { s with log := s.log ++ [event] } := by
  obtain ⟨hnext, hphase⟩ := h
  refine ⟨hnext.trans (by simp), ?_⟩
  obtain ⟨r, phase⟩ := m
  cases phase with
  | receiving => exact ⟨hphase.1.send hnext _, hphase.2⟩
  | sending notice =>
    cases notice with
    | assistant content => exact ⟨hphase.1.send hnext _, hphase.2⟩
    | finished status => exact ⟨hphase.1.send _, hphase.2⟩
  | ended =>
    rcases hphase with ⟨hdelivered, hnotice⟩ | ⟨_, _, hclosed, _⟩
    · exact .inl ⟨hdelivered.send _, hnotice⟩
    · rw [hopen] at hclosed
      cases hclosed

/-- A result makes the monitor send the notice of completion, and other events do not. -/
theorem phaseAfter_cases (setup : Setup) (id : Uuid) (event : SseEvent) :
    (∃ status, (id, event) = (setup.job, .jobResult status) ∧
      phaseAfter setup id event = .sending (.finished status)) ∨
      ¬ IsResult setup (id, event) ∧ (phaseAfter setup id event = .receiving ∨
          ∃ content, phaseAfter setup id event = .sending (.assistant content)) := by
  by_cases hid : id = setup.job
  · subst hid
    cases event with
    | jobMessage role content =>
      refine .inr ⟨by simp [IsResult], ?_⟩
      by_cases hrole : role = "assistant"
      · exact .inr ⟨content, by simp [phaseAfter, hrole]⟩
      · exact .inl (by simp [phaseAfter, hrole])
    | jobResult status => exact .inl ⟨status, rfl, by simp [phaseAfter]⟩
    | other => exact .inr ⟨by simp [IsResult], .inl (by simp [phaseAfter])⟩
  · exact .inr ⟨by simp [IsResult, hid], .inl (by simp [phaseAfter, hid])⟩

open State

/-- A receive keeps what is known of the events that were read. -/
theorem watches_receive (hphase : m.phase = .receiving) (h : m.Watches setup s) :
    ∃ next, s.stepMonitor setup m = { s with monitor := some next } ∧
      next.Watches setup { s with monitor := some next } := by
  obtain ⟨r, phase⟩ := m
  subst hphase
  obtain ⟨hnext, hcaught, hnone⟩ := h
  rcases recv_cases setup.capacity s.log r with ⟨skipped, hle, hrecv⟩ | ⟨⟨id, event⟩, hat, hrecv⟩ |
    ⟨hat, hrecv⟩
  · refine ⟨⟨{ r with next := r.next + skipped, missed := range' r.next skipped ++ r.missed },
      .receiving⟩, by simp [stepMonitor, hrecv], hle, ?_⟩
    exact ⟨hcaught.recv_missed _, hnone⟩
  · have hlt := (List.getElem?_eq_some_iff.1 hat).1
    refine ⟨⟨{ r with next := r.next + 1 }, phaseAfter setup id event⟩,
      by simp [stepMonitor, hrecv], hlt, ?_⟩
    rcases phaseAfter_cases setup id event with ⟨status, heq, hafter⟩ |
      ⟨hnot, hafter | ⟨content, hafter⟩⟩
    · -- the result is at the position of the receiver, which has not missed it
      simp only [hafter]
      refine ⟨⟨r.next, status, hcaught.started, fun hmissed => ?_, hat.trans (congrArg some heq)⟩,
        hnone⟩
      exact lt_irrefl _ (hcaught.behind _ hmissed)
    all_goals
      simp only [hafter]
      exact ⟨hcaught.recv_value hat hnot, hnone⟩
  · refine ⟨⟨r, if s.closed then .ended else .receiving⟩,
      by simp [stepMonitor, hrecv], hnext, ?_⟩
    by_cases hclosed : s.closed = true
    · simp only [hclosed]
      exact .inr ⟨hcaught, getElem?_eq_none_iff.1 hat, trivial, hnone⟩
    · simp only [hclosed]
      exact ⟨hcaught, hnone⟩

/-- Sending a notice ends the monitor exactly if it is the one of completion. -/
theorem watches_send {notice : Notice} (hphase : m.phase = .sending notice)
    (hreads : s.agentReads = true) (h : m.Watches setup s) :
    ∃ next, s.stepMonitor setup m =
        { s with injected := notice :: s.injected, monitor := some next } ∧
      next.Watches setup { s with injected := notice :: s.injected, monitor := some next } := by
  obtain ⟨r, phase⟩ := m
  subst hphase
  obtain ⟨hnext, hknown⟩ := h
  refine ⟨⟨r, if notice.isFinished then .ended else .receiving⟩,
    by simp [stepMonitor, hreads], hnext, ?_⟩
  cases notice with
  | assistant content => exact hknown
  | finished status =>
    refine .inl ⟨hknown.1, ?_⟩
    have hcount := hknown.2
    simp only [notices] at hcount ⊢
    rw [countP_cons_of_pos rfl, hcount]

/-- The phase of the monitor after a step of it, which changes the monitor and the injected
notices only. -/
theorem stepMonitor_frame (setup : Setup) (s : State) (m : Monitor) (hm : s.monitor = some m) :
    (s.stepMonitor setup m).launch = s.launch ∧ (s.stepMonitor setup m).agentReads = s.agentReads ∧
      (s.stepMonitor setup m).monitor ≠ none := by
  rw [stepMonitor]
  split
  · split <;> exact ⟨rfl, rfl, nofun⟩
  · split <;> exact ⟨rfl, rfl, nofun⟩
  · exact ⟨rfl, rfl, by rw [hm]; exact nofun⟩

theorem watched_stepMonitor (hm : s.monitor = some m) (h : Watched setup s) :
    Watched setup (s.stepMonitor setup m) := by
  obtain ⟨hlaunch, hagent, hsome⟩ := stepMonitor_frame setup s m hm
  refine ⟨fun hnot => ?_, fun hnone => absurd hnone hsome, fun hreads => ?_⟩
  · rw [hlaunch] at hnot
    rw [h.launched hnot] at hm
    cases hm
  · rw [hagent] at hreads
    have hwatches := h.watches hreads m hm
    cases hphase : m.phase with
    | receiving =>
      obtain ⟨next, heq, hnext⟩ := watches_receive hphase hwatches
      rw [heq]
      intro m' hm'
      cases hm'
      exact hnext
    | sending notice =>
      obtain ⟨next, heq, hnext⟩ := watches_send hphase hreads hwatches
      rw [heq]
      intro m' hm'
      cases hm'
      exact hnext
    | ended =>
      rw [stepMonitor, hphase]
      exact h.watches hreads

theorem watched_stepLaunch (succeeds : Bool) (h : Watched setup s) :
    Watched setup (s.stepLaunch setup succeeds) := by
  cases hlaunch : s.launch with
  | persisting | creating =>
    simp only [stepLaunch, hlaunch]
    have hnone := h.launched (by rw [hlaunch]; exact nofun)
    exact ⟨fun _ => hnone, h.silent, h.watches⟩
  | created =>
    have hempty := h.silent (h.launched (by rw [hlaunch]; exact nofun))
    simp only [stepLaunch, hlaunch]
    refine ⟨absurd rfl, fun _ => hempty, fun _ m hm => ?_⟩
    cases hchannels : setup.hasChannels with
    | false =>
      simp [hchannels] at hm
    | true =>
      simp only [hchannels, if_true, Option.mem_some_iff] at hm
      subst hm
      refine ⟨le_refl _, caught_subscribe _ _, ?_⟩
      simp [notices, hempty]
  | returned =>
    simp only [stepLaunch, hlaunch]
    exact h

theorem watched_step (s : State) (move : Move) (h : Watched setup s) :
    Watched setup (s.step setup move) := by
  cases move with
  | launch succeeds => exact watched_stepLaunch _ h
  | publish job event =>
    simp only [step]
    split
    · exact h
    · next hsent =>
      have hopen : s.closed = false := by
        rw [not_or] at hsent
        exact Bool.eq_false_iff.2 hsent.1
      exact ⟨h.launched, h.silent, fun hreads m hm =>
        watches_publish (h.watches hreads m hm) hopen _⟩
  | closeEvents =>
    refine ⟨h.launched, h.silent, fun hreads m hm => ?_⟩
    obtain ⟨hnext, hphase⟩ := h.watches hreads m hm
    refine ⟨hnext, ?_⟩
    obtain ⟨r, phase⟩ := m
    cases phase with
    | receiving => exact hphase
    | sending notice => cases notice <;> exact hphase
    | ended =>
      rcases hphase with hdelivered | ⟨hcaught, hend, _, hnone⟩
      · exact .inl hdelivered
      · exact .inr ⟨hcaught, hend, rfl, hnone⟩
  | agentStops => exact ⟨h.launched, h.silent, nofun⟩
  | monitor =>
    simp only [step]
    split
    · next m hm => exact watched_stepMonitor hm h
    · exact h

/-! ## Whole runs -/

/-- The tool call has returned, and the monitor has nothing left to do. -/
def Quiescent (s : State) : Prop :=
  s.launch = .returned ∧
    ∀ m ∈ s.monitor, m.phase = .ended ∨
      m.phase = .receiving ∧ s.log.length ≤ m.receiver.next ∧ s.closed = false
  deriving Decidable

/-- The monitor has ended, and one completion notice has been injected. -/
def AnnouncedOnce (s : State) : Prop :=
  (∃ m ∈ s.monitor, m.phase = .ended) ∧ s.notices = 1
  deriving Decidable

/-- When nothing is left to do and the agent still reads, the job has been announced once exactly
if there is a monitor and a result of the job was published after it had subscribed, and was not
overwritten before it was read. -/
theorem announced_once_iff (setup : Setup) (moves : List Move)
    (hquiet : Quiescent (moves.foldl (step setup) .start))
    (hreads : (moves.foldl (step setup) .start).agentReads = true) :
    AnnouncedOnce (moves.foldl (step setup) .start) ↔
      ∃ m ∈ (moves.foldl (step setup) .start).monitor,
        Delivered setup (moves.foldl (step setup) .start).log m.receiver := by
  have hstart : Watched setup start := ⟨fun _ => rfl, fun _ => rfl, nofun⟩
  have h := Runs.invariant_run _ watched_step hstart moves
  constructor
  · rintro ⟨⟨m, hm, hended⟩, honce⟩
    obtain ⟨_, hphase⟩ := h.watches hreads m hm
    rw [hended] at hphase
    rcases hphase with ⟨hdelivered, _⟩ | ⟨_, _, _, hnone⟩
    · exact ⟨m, hm, hdelivered⟩
    · rw [hnone] at honce
      cases honce
  · rintro ⟨m, hm, i, status, hfirst, hmissed, hi⟩
    have hlt := (List.getElem?_eq_some_iff.1 hi).1
    have hresult : IsResult setup (setup.job, .jobResult status) := ⟨status, rfl⟩
    obtain ⟨_, hphase⟩ := h.watches hreads m hm
    rcases hquiet.2 m hm with hended | ⟨hreceiving, hend, _⟩
    · rw [hended] at hphase
      rcases hphase with ⟨_, honce⟩ | ⟨hcaught, hend, _⟩
      · exact ⟨⟨m, hm, hended⟩, honce⟩
      · exact absurd (hcaught.passed i _ hfirst (hlt.trans_le hend) hi hresult) hmissed
    · rw [hreceiving] at hphase
      exact absurd (hphase.1.passed i _ hfirst (hlt.trans_le hend) hi hresult) hmissed

/-- A job whose events have a channel of two messages. -/
def sampleSetup : Setup where
  job := 1
  capacity := 2
  hasChannels := true

/-- The container is created, the monitor starts, and the result of the job comes. -/
def heardResult : List Move :=
  [.launch true, .launch true, .launch true, .publish 1 (.jobResult "completed"), .monitor,
    .monitor]

/-- The job is done before the creation of the container has returned. -/
def earlyResult : List Move :=
  [.launch true, .publish 1 (.jobResult "completed"), .launch true, .launch true, .monitor]

/-- The result of the job is overwritten by events of another job. -/
def overwrittenResult : List Move :=
  [.launch true, .launch true, .launch true, .publish 1 (.jobResult "completed"),
    .publish 2 .other, .publish 2 .other, .monitor, .monitor, .monitor]

/-- A result that comes when the monitor listens is announced. -/
theorem result_announced :
    let s := heardResult.foldl (step sampleSetup) .start
    AnnouncedOnce s ∧ s.injected = [.finished "completed"] :=
  ⟨(announced_once_iff sampleSetup heardResult (by decide) (by decide)).2
    ⟨⟨⟨0, 1, []⟩, .ended⟩, by decide, 0, "completed", by decide, by decide, by decide⟩, by decide⟩

/-- A job that finishes while its container is being created, and one whose result is overwritten
by events of another job, are never announced. -/
theorem results_lost : (let s := earlyResult.foldl (step sampleSetup) .start
     Quiescent s ∧ s.agentReads = true ∧ (1, .jobResult "completed") ∈ s.log ∧
      ¬ AnnouncedOnce s ∧ s.injected = []) ∧
    (let s := overwrittenResult.foldl (step sampleSetup) .start
     Quiescent s ∧ s.agentReads = true ∧ (1, .jobResult "completed") ∈ s.log ∧
      ¬ AnnouncedOnce s ∧ s.injected = []) := by
  decide

end Axinite.JobMonitor
