import Axinite.Foundation.Runs
import Axinite.Llm.Messages

/-!
# Messages to a job worker

A job worker takes messages from its channel at three places: while it waits for the start,
before every action of a plan, and at the beginning of every iteration of its loop.  Messages
may arrive between any two of its steps.

The model takes one message at a time, as the source does.  It carries a record that the code
does not keep: the follow-up messages that have been queued.

Main results:

- Theorem `accounted_step`: which steps keep every follow-up message, in the order sent.
- Theorem `round_drains`: an iteration of the loop empties the channel.
- Theorem `followUps_injected_iff`: a loop that keeps iterating has injected all follow-up
  messages exactly if none was taken as the start and none came behind another one in a check.
- Theorem `burst_loses_followUp`: two messages in one check, and one of them is lost.
-/

namespace Axinite.Worker

open Foundation Llm List

/-! ## State -/

inductive WorkerMessage where
  | start
  | stop
  | ping
  | userMessage (content : String)
  deriving DecidableEq

def WorkerMessage.followUp? : WorkerMessage → Option String
  | userMessage content => some content
  | _ => none

/-- Where the worker is. -/
inductive Phase where
  | waitingForStart
  | planning
  /-- The channel is drained before an action of the plan; some actions remain after it. -/
  | draining (remaining : Nat)
  | acting (remaining : Nat)
  | afterPlan
  /-- The channel is drained at the beginning of an iteration. -/
  | checking (stopRequested : Bool) (firstUserMessage : Option String)
  | iterating
  | exited
  deriving DecidableEq

/-- A message of the reasoning context: a follow-up message that was injected as a user message,
or a message that the worker pushes on its own account. -/
inductive ContextMessage where
  | followUp (content : String)
  | own (message : ChatMessage)

/-- The content of an injected message. -/
def ContextMessage.followUp? : ContextMessage → Option String
  | followUp content => some content
  | own _ => none

/-- A worker, its channel and the record of the follow-up messages that were queued. -/
structure WorkerState where
  phase : Phase
  queue : List WorkerMessage
  reasonCtx : List ContextMessage
  queued : List String

/-- A worker that has not been started. -/
def WorkerState.new : WorkerState where
  phase := .waitingForStart
  queue := []
  reasonCtx := []
  queued := []

/-! ## Steps -/

/-- The channel holds this many messages; the sender of another one waits. -/
def channelCapacity : Nat :=
  16

/-- What the work of the worker outside of the channel comes to. -/
inductive WorkResult where
  | proceed
  | plan (actions : Nat)
  | finish

/-- A message is sent, the worker looks into its channel, or the worker works. -/
inductive WorkerEvent where
  | send (msg : WorkerMessage)
  | recv
  | work (result : WorkResult) (pushed : List ChatMessage)

/-- What the signals of an iteration come to. -/
inductive LoopSignal where
  | continue
  | stop
  | injectMessage (content : String)

/-- The signal of a drained channel; a stop takes priority. -/
def loopSignal (stopRequested : Bool) (firstUserMessage : Option String) : LoopSignal :=
  if stopRequested then .stop
  else
    match firstUserMessage with
    | some content => .injectMessage content
    | none => .continue

/-- The next action of a plan, or the end of the plan. -/
def planPhase : Nat → Phase
  | 0 => .afterPlan
  | remaining + 1 => .draining remaining

/-- Where the worker goes on after its work.  It finishes when the channel is closed before the
start, when the work fails or is complete, or when the job has reached a final state. -/
def Phase.next : Phase → WorkResult → Option Phase
  | waitingForStart, .finish => some exited
  | planning, .proceed => some (checking false none)
  | planning, .plan actions => some (planPhase actions)
  | planning, .finish => some exited
  | acting remaining, .proceed => some (planPhase remaining)
  | acting _, .finish => some exited
  | afterPlan, .proceed => some (checking false none)
  | afterPlan, .finish => some exited
  | iterating, .proceed => some (checking false none)
  | iterating, .finish => some exited
  | _, _ => none

/-- The follow-up message that a running check has kept. -/
def Phase.held : Phase → List String
  | checking _ firstUserMessage => firstUserMessage.toList
  | _ => []

open WorkerMessage Phase

variable {s : WorkerState}

namespace WorkerState

/-- Queue a message. -/
def send (msg : WorkerMessage) (s : WorkerState) : WorkerState :=
  if s.phase = .exited ∨ channelCapacity ≤ s.queue.length then s
  else { s with queue := s.queue ++ [msg], queued := s.queued ++ msg.followUp?.toList }

/-- Wait for the start signal; any message other than a stop is taken as one. -/
def waitForStart (s : WorkerState) : WorkerState :=
  match s.queue with
  | [] => s
  | .stop :: rest => { s with queue := rest, phase := .exited }
  | _ :: rest => { s with queue := rest, phase := .planning }

/-- Drain the channel during the execution of a plan; a follow-up message ends the plan. -/
def drainPlanSignals (remaining : Nat) (s : WorkerState) : WorkerState :=
  match s.queue with
  | [] => { s with phase := .acting remaining }
  | .stop :: rest => { s with queue := rest, phase := .exited }
  | .userMessage content :: rest =>
    { s with queue := rest, reasonCtx := s.reasonCtx ++ [.followUp content],
             phase := .afterPlan }
  | _ :: rest => { s with queue := rest }

/-- Act on the signal of an iteration. -/
def applySignal (s : WorkerState) : LoopSignal → WorkerState
  | .continue => { s with phase := .iterating }
  | .stop => { s with phase := .exited }
  | .injectMessage content =>
    { s with reasonCtx := s.reasonCtx ++ [.followUp content], phase := .iterating }

/-- Drain the channel at the beginning of an iteration; the first follow-up message is kept. -/
def checkSignals (stopRequested : Bool) (firstUserMessage : Option String) (s : WorkerState) :
    WorkerState :=
  match s.queue with
  | [] => s.applySignal (loopSignal stopRequested firstUserMessage)
  | .stop :: rest => { s with queue := rest, phase := .checking true firstUserMessage }
  | .userMessage content :: rest =>
    { s with queue := rest,
             phase := .checking stopRequested (firstUserMessage.or (some content)) }
  | _ :: rest => { s with queue := rest }

/-- The worker looks into its channel. -/
def recv (s : WorkerState) : WorkerState :=
  match s.phase with
  | .waitingForStart => s.waitForStart
  | .draining remaining => s.drainPlanSignals remaining
  | .checking stopRequested firstUserMessage => s.checkSignals stopRequested firstUserMessage
  | _ => s

/-- The worker works and pushes messages to its context. -/
def work (result : WorkResult) (pushed : List ChatMessage) (s : WorkerState) : WorkerState :=
  match s.phase.next result with
  | some phase => { s with phase := phase, reasonCtx := s.reasonCtx ++ pushed.map .own }
  | none => s

def step (s : WorkerState) : WorkerEvent → WorkerState
  | .send msg => s.send msg
  | .recv => s.recv
  | .work result pushed => s.work result pushed

/-- The state after a list of events. -/
def run (s : WorkerState) (events : List WorkerEvent) : WorkerState :=
  events.foldl step s

/-! ## Follow-up messages -/

/-- The follow-up messages in the reasoning context. -/
def injected (s : WorkerState) : List String :=
  s.reasonCtx.filterMap ContextMessage.followUp?

/-- The follow-up messages in the channel. -/
def pending (s : WorkerState) : List String :=
  s.queue.filterMap followUp?

/-- The follow-up messages that are not lost. -/
def kept (s : WorkerState) : List String :=
  s.injected ++ s.phase.held ++ s.pending

/-- The message that is received is not a follow-up message that is taken as the start or that
comes behind another one in a check. -/
def Keeps (s : WorkerState) : WorkerEvent → Prop
  | .recv =>
    match s.phase with
    | .waitingForStart => (s.queue.head?.bind followUp?) = none
    | .checking _ (some _) => (s.queue.head?.bind followUp?) = none
    | _ => True
  | _ => True

instance (s : WorkerState) (event : WorkerEvent) : Decidable (s.Keeps event) := by
  unfold Keeps
  split
  · split <;> infer_instance
  · infer_instance

/-- No stop has been received and none is in the channel. -/
structure NoStop (s : WorkerState) : Prop where
  queue : .stop ∉ s.queue
  phase : ∀ firstUserMessage, s.phase ≠ .checking true firstUserMessage

/-! ## What a step does to follow-up messages -/

/-- A step queues some follow-up messages.  It never gains any others, and it keeps all of them,
in order, if it meets the condition. -/
structure Effect (s s' : WorkerState) (keeps : Prop) (new : List String) : Prop where
  queued : s'.queued = s.queued ++ new
  atMost : s'.kept.length ≤ s.kept.length + new.length
  inOrder : keeps → s.NoStop → s'.kept = s.kept ++ new
  lost : ¬ keeps → s'.kept.length < s.kept.length + new.length

variable {s s' : WorkerState} {keeps : Prop}

theorem Effect.of_kept {new : List String}
    (hqueued : s'.queued = s.queued ++ new) (hkept : s'.kept = s.kept ++ new) (hkeeps : keeps) :
    Effect s s' keeps new where
  queued := hqueued
  atMost := Nat.le_of_eq (by rw [hkept, length_append])
  inOrder := fun _ _ => hkept
  lost := absurd hkeeps

theorem effect_send (s : WorkerState) (msg : WorkerMessage) :
    ∃ new, Effect s (s.send msg) (s.Keeps (.send msg)) new := by
  unfold send
  split
  · exact ⟨[], .of_kept (append_nil _).symm (append_nil _).symm trivial⟩
  · refine ⟨msg.followUp?.toList, .of_kept rfl ?_ trivial⟩
    have hpending : (s.queue ++ [msg]).filterMap followUp? =
        s.pending ++ msg.followUp?.toList := by
      cases h : msg.followUp? <;> simp [pending, h]
    simp only [kept, injected, pending] at hpending ⊢
    rw [hpending, append_assoc _ _ msg.followUp?.toList]

/-- A step that does not change the record and keeps all messages. -/
theorem Effect.of_eq (hqueued : s'.queued = s.queued)
    (hkept : s'.kept = s.kept) (hkeeps : keeps) : Effect s s' keeps [] :=
  .of_kept (by rw [hqueued, append_nil]) (by rw [hkept, append_nil]) hkeeps

/-- A step that takes a follow-up message out of the channel and does not keep it. -/
theorem Effect.of_lost (hqueued : s'.queued = s.queued)
    (hlost : s'.kept.length < s.kept.length) (hkeeps : ¬ keeps) : Effect s s' keeps [] where
  queued := by rw [hqueued, append_nil]
  atMost := Nat.le_of_lt hlost
  inOrder := fun h => absurd h hkeeps
  lost := fun _ => hlost

/-- A message is taken from the channel. -/
theorem NoStop.taken {msg : WorkerMessage} (h : s.NoStop) (hqueue : s.queue = msg :: s'.queue)
    (hphase : ∀ firstUserMessage, s'.phase ≠ .checking true firstUserMessage) : s'.NoStop :=
  ⟨fun hmem => h.queue (hqueue ▸ mem_cons_of_mem msg hmem), hphase⟩

/-- Without a stop among the messages none is received. -/
theorem effect_recv (s : WorkerState) :
    Effect s s.recv (s.Keeps .recv) [] ∧ (s.NoStop → s.recv.NoStop) := by
  obtain ⟨phase, queue, reasonCtx, queued⟩ := s
  cases phase with
  | waitingForStart =>
    cases queue with
    | nil => exact ⟨.of_eq rfl rfl rfl, id⟩
    | cons msg rest =>
      cases msg with
      | start | stop | ping =>
        exact ⟨.of_eq rfl rfl rfl, fun h => h.taken rfl (by simp [recv, waitForStart])⟩
      | userMessage content =>
        refine ⟨.of_lost rfl ?_ (by simp [Keeps, followUp?]),
          fun h => h.taken rfl (by simp [recv, waitForStart])⟩
        simp [recv, waitForStart, kept, injected, held, pending, followUp?]
  | draining remaining =>
    cases queue with
    | nil => exact ⟨.of_eq rfl rfl trivial, fun h => ⟨h.queue, by simp [recv, drainPlanSignals]⟩⟩
    | cons msg rest =>
      cases msg with
      | start | stop | ping =>
        exact ⟨.of_eq rfl rfl trivial, fun h => h.taken rfl (by simp [recv, drainPlanSignals])⟩
      | userMessage content =>
        refine ⟨.of_eq rfl ?_ trivial, fun h => h.taken rfl (by simp [recv, drainPlanSignals])⟩
        simp [recv, drainPlanSignals, kept, injected, held, pending,
          followUp?, ContextMessage.followUp?]
  | checking stopRequested firstUserMessage =>
    have hkeeps : ∀ queue : List WorkerMessage, queue.head?.bind followUp? = none →
        Keeps ⟨.checking stopRequested firstUserMessage, queue, reasonCtx, queued⟩ .recv := by
      intro queue h
      cases firstUserMessage with
      | none => exact trivial
      | some _ => exact h
    cases queue with
    | nil =>
      cases stopRequested with
      | true =>
        refine ⟨⟨(append_nil _).symm, ?_, fun _ h => absurd rfl (h.phase _),
          (absurd (hkeeps [] rfl))⟩, fun h => absurd rfl (h.phase _)⟩
        simp [recv, checkSignals, loopSignal, applySignal, kept, injected, held, pending]
      | false =>
        cases firstUserMessage with
        | none => exact ⟨.of_eq rfl rfl trivial, fun h => ⟨h.queue, fun _ hphase => nomatch hphase⟩⟩
        | some content =>
          refine ⟨.of_eq rfl ?_ rfl, fun h => ⟨h.queue, fun _ hphase => nomatch hphase⟩⟩
          simp [recv, checkSignals, loopSignal, applySignal, kept, injected, held, pending,
            ContextMessage.followUp?]
    | cons msg rest =>
      cases msg with
      | start | ping => exact ⟨.of_eq rfl rfl (hkeeps _ rfl), fun h => h.taken rfl h.phase⟩
      | stop => exact ⟨.of_eq rfl rfl (hkeeps _ rfl), fun h => absurd mem_cons_self h.queue⟩
      | userMessage content =>
        cases firstUserMessage with
        | none =>
          refine ⟨.of_eq rfl ?_ trivial,
            fun h => h.taken rfl fun _ hphase => h.phase none (by cases hphase; rfl)⟩
          simp [recv, checkSignals, kept, injected, held, pending, followUp?]
        | some first =>
          refine ⟨.of_lost rfl ?_ (by simp [Keeps, followUp?]),
            fun h => h.taken rfl h.phase⟩
          simp [recv, checkSignals, kept, injected, pending, followUp?]
  | _ => exact ⟨.of_eq rfl rfl trivial, id⟩

/-- The worker works only when no check is running, and starts a check with nothing. -/
theorem next_spec {phase phase' : Phase} {result : WorkResult}
    (h : phase.next result = some phase') :
    phase.held = [] ∧ phase'.held = [] ∧
      ∀ firstUserMessage, phase' ≠ .checking true firstUserMessage := by
  have hplan : ∀ actions, (planPhase actions).held = [] ∧
      ∀ firstUserMessage, planPhase actions ≠ .checking true firstUserMessage := by
    intro actions
    cases actions with
    | zero | succ _ => exact ⟨rfl, fun _ hphase => nomatch hphase⟩
  cases phase <;> cases result <;> simp only [Phase.next, reduceCtorEq, Option.some.injEq] at h <;>
    subst h <;> first | exact ⟨rfl, hplan _⟩ | exact ⟨rfl, rfl, by simp⟩

theorem effect_work (s : WorkerState) (result : WorkResult) (pushed : List ChatMessage) :
    Effect s (s.work result pushed) (s.Keeps (.work result pushed)) [] := by
  cases hnext : s.phase.next result with
  | none =>
    simp only [work, hnext]
    exact .of_eq rfl rfl trivial
  | some phase =>
    have hspec := next_spec hnext
    have hown : (pushed.map ContextMessage.own).filterMap ContextMessage.followUp? = [] := by
      simp [ContextMessage.followUp?]
    simp only [work, hnext]
    refine .of_eq rfl ?_ trivial
    simp only [kept, injected, pending, filterMap_append, hown, hspec.1, hspec.2.1]
    rw [append_nil]

theorem effect_step (s : WorkerState) (event : WorkerEvent) :
    ∃ new, Effect s (s.step event) (s.Keeps event) new := by
  cases event with
  | send msg => exact effect_send s msg
  | work result pushed => exact ⟨[], effect_work s result pushed⟩
  | recv => exact ⟨[], (effect_recv s).1⟩

/-! ## Runs -/

/-- Every follow-up message is in the context, kept by a check or in the channel, in the order
sent. -/
def Accounted (s : WorkerState) : Prop :=
  s.kept = s.queued

/-- Some follow-up message has been lost. -/
def Short (s : WorkerState) : Prop :=
  s.kept.length < s.queued.length

/-- A step keeps the account exactly if it meets the condition, and an account that is short
stays short. -/
theorem accounted_step (s : WorkerState) (event : WorkerEvent) :
    (s.NoStop → s.Accounted → s.Keeps event → (s.step event).Accounted) ∧
      (s.Accounted → ¬ s.Keeps event → (s.step event).Short) ∧
      (s.Short → (s.step event).Short) := by
  obtain ⟨new, heffect⟩ := effect_step s event
  have hqueued := congrArg List.length heffect.queued
  rw [length_append] at hqueued
  refine ⟨?_, ?_, ?_⟩
  · intro hstop haccounted hkeeps
    unfold Accounted at haccounted ⊢
    rw [heffect.inOrder hkeeps hstop, heffect.queued, haccounted]
  · intro haccounted hkeeps
    have hlost := heffect.lost hkeeps
    have hlength := congrArg List.length haccounted
    unfold Short
    omega
  · intro hshort
    have hatMost := heffect.atMost
    unfold Short at hshort ⊢
    omega

/-! ## Runs without a stop -/

/-- Without a stop among the messages none is ever received. -/
theorem NoStop.step (h : s.NoStop) {event : WorkerEvent} (hevent : event ≠ .send .stop) :
    (s.step event).NoStop := by
  cases event with
  | recv => exact (effect_recv s).2 h
  | send msg =>
    simp only [WorkerState.step, send]
    split
    · exact h
    · refine ⟨fun hmem => ?_, h.phase⟩
      rcases mem_append.1 hmem with hold | hnew
      · exact h.queue hold
      · exact hevent (by rw [mem_singleton.1 hnew])
  | work result pushed =>
    cases hnext : s.phase.next result with
    | none =>
      simp only [WorkerState.step, work, hnext]
      exact h
    | some phase =>
      simp only [WorkerState.step, work, hnext]
      exact ⟨h.queue, (next_spec hnext).2.2⟩

/-- An iteration of the loop: the worker works, and then drains the channel. -/
def round (s : WorkerState) (pushed : List ChatMessage) : List WorkerEvent :=
  .work .proceed pushed :: List.replicate (s.queue.length + 1) .recv

/-- A check takes all messages from the channel. -/
theorem check_drains (h : s.NoStop) (firstUserMessage : Option String)
    (hphase : s.phase = .checking false firstUserMessage) :
    (s.run (List.replicate (s.queue.length + 1) .recv)).phase = .iterating ∧
      (s.run (List.replicate (s.queue.length + 1) .recv)).queue = [] := by
  obtain ⟨phase, queue, reasonCtx, queued⟩ := s
  subst hphase
  induction queue generalizing firstUserMessage with
  | nil =>
    cases firstUserMessage with
    | none | some _ => exact ⟨rfl, rfl⟩
  | cons msg rest ih =>
    have hrest := (effect_recv _).2 h
    cases msg with
    | start => exact ih _ hrest
    | stop => exact absurd (mem_cons_self ..) h.queue
    | ping | userMessage _ => exact ih _ hrest

/-- An iteration of the loop empties the channel. -/
theorem round_drains (h : s.NoStop) (hphase : s.phase = .iterating) (pushed : List ChatMessage) :
    (s.run (s.round pushed)).phase = .iterating ∧ (s.run (s.round pushed)).queue = [] := by
  have hstep : s.step (.work .proceed pushed) =
      { s with phase := .checking false none
               reasonCtx := s.reasonCtx ++ pushed.map .own } := by
    simp [step, work, hphase, Phase.next]
  have hnoStop : (s.step (.work .proceed pushed)).NoStop := h.step (by simp)
  have hdrains := check_drains hnoStop none (by rw [hstep])
  rw [hstep] at hdrains
  simp only [round, run, foldl_cons]
  rw [hstep]
  exact hdrains

/-- An iteration of the loop sends nothing. -/
theorem ne_stop_of_mem_round {pushed : List ChatMessage} {event : WorkerEvent}
    (h : event ∈ s.round pushed) : event ≠ .send .stop := by
  rcases mem_cons.1 h with rfl | hrecv
  · simp
  · rw [eq_of_mem_replicate hrecv]
    simp

theorem NoStop.new : WorkerState.new.NoStop :=
  ⟨by simp [WorkerState.new], fun _ hphase => nomatch hphase⟩

/-- If no stop is sent, none is received. -/
theorem NoStop.run (h : s.NoStop) {events : List WorkerEvent}
    (hstop : ∀ event ∈ events, event ≠ .send .stop) : (s.run events).NoStop :=
  Runs.forall_mem_visited (fun _ _ hevent hs => hs.step hevent) h
    (Runs.allSteps_of_forall_mem s hstop) _ (Runs.foldl_mem_visited _ _ _)

end WorkerState

open WorkerState

/-- If no stop is sent and the loop keeps iterating, all follow-up messages have been injected
once and in the order sent exactly if none was taken as the start and none came behind another
one in a check. -/
theorem followUps_injected_iff (events : List WorkerEvent)
    (hstop : ∀ event ∈ events, event ≠ .send .stop)
    (hloop : (new.run events).phase = .iterating) (pushed : List ChatMessage) :
    let whole := events ++ (new.run events).round pushed
    (new.run whole).queue = [] ∧
      ((new.run whole).injected = (new.run whole).queued ↔
        Runs.AllSteps step WorkerState.Keeps new whole) := by
  intro whole
  have hround : new.run whole =
      (new.run events).run ((new.run events).round pushed) :=
    foldl_append
  obtain ⟨hphase, hqueue⟩ := round_drains (WorkerState.NoStop.new.run hstop) hloop pushed
  rw [← hround] at hphase hqueue
  -- nothing is held and nothing is pending, so what is kept has been injected
  have hkept : (new.run whole).kept = (new.run whole).injected := by
    simp [kept, pending, hphase, hqueue, held]
  have hside : ∀ event ∈ whole, event ≠ .send .stop := by
    intro event hevent
    rcases mem_append.1 hevent with hold | hnew
    · exact hstop event hold
    · exact ne_stop_of_mem_round hnew
  have hends := Runs.good_or_bad_run WorkerState.Keeps
    (fun s : WorkerState => s.NoStop ∧ s.Accounted) WorkerState.Short
    (Runs.allSteps_of_forall_mem new hside) ⟨WorkerState.NoStop.new, rfl⟩
    (fun s event hevent hs hkeeps =>
      ⟨hs.1.step hevent, (s.accounted_step event).1 hs.1 hs.2 hkeeps⟩)
    (fun s event _ hs hkeeps => (s.accounted_step event).2.1 hs.2 hkeeps)
    (fun s event => (s.accounted_step event).2.2)
  refine ⟨hqueue, ⟨fun hinjected => ?_, fun hkeeps => ?_⟩⟩
  · by_contra hkeeps
    have hshort : (new.run whole).Short := hends.2 hkeeps
    rw [WorkerState.Short, hkept, hinjected] at hshort
    exact Nat.lt_irrefl _ hshort
  · have haccounted : (new.run whole).Accounted := (hends.1 hkeeps).2
    rw [← hkept]
    exact haccounted

/-- A check that comes upon a stop, anywhere in the channel, ends the worker. -/
theorem check_stops {s : WorkerState} {stopRequested : Bool} {firstUserMessage : Option String}
    (hphase : s.phase = .checking stopRequested firstUserMessage)
    (hstop : stopRequested = true ∨ .stop ∈ s.queue) :
    (s.run (replicate (s.queue.length + 1) .recv)).phase = .exited := by
  obtain ⟨phase, queue, reasonCtx, queued⟩ := s
  subst hphase
  induction queue generalizing stopRequested firstUserMessage with
  | nil =>
    obtain rfl : stopRequested = true := by simpa using hstop
    rfl
  | cons msg rest ih =>
    cases msg with
    | stop => exact ih (.inl rfl)
    | start | ping | userMessage _ => exact ih (by simpa using hstop)

/-- A stop in the channel ends the worker in the next iteration, whatever was sent before and
after it, and nothing that happens later starts the worker again. -/
theorem stop_honoured {s : WorkerState} (hphase : s.phase = .iterating) (hstop : .stop ∈ s.queue)
    (pushed : List ChatMessage) (later : List WorkerEvent) :
    (s.run (s.round pushed ++ later)).phase = .exited := by
  rw [WorkerState.run, foldl_append]
  refine Runs.invariant_run (fun s : WorkerState => s.phase = .exited) ?_ ?_ later
  · intro s event h
    cases event <;> simp [step, send, recv, work, Phase.next, h]
  · simp only [WorkerState.round, foldl_cons, step, work, hphase, Phase.next]
    exact check_stops rfl (.inr hstop)

/-! ## Sample runs -/

/-- A worker is started, has no plan, checks its empty channel and then receives messages. -/
def receives (contents : List String) : List WorkerEvent :=
  [.send .start, .recv, .work .proceed [], .recv] ++
    contents.map fun content => .send (.userMessage content)

theorem followUps_injected_single : (new.run (receives ["a"])).phase = .iterating ∧
      (new.run (receives ["a"] ++
        (new.run (receives ["a"])).round [])).injected = ["a"] := by
  refine ⟨by decide +kernel, ?_⟩
  have hiff := (followUps_injected_iff (receives ["a"]) (by simp [receives]) (by decide +kernel)
    []).2
  exact hiff.2 (by decide +kernel)

theorem stop_behind_followUp_honoured :
    let s := new.run (receives ["a"] ++ [.send .stop, .send .start])
    (s.run (s.round [] ++ [.send .start, .recv])).phase = .exited :=
  stop_honoured (by decide +kernel) (by decide +kernel) _ _

/-- A follow-up message arrives before the start and is taken as one. -/
def startedByFollowUp : List WorkerEvent :=
  [.send (.userMessage "a"), .recv, .work .proceed [], .recv]

/-- Of two messages that arrive during one iteration the second is lost, and a message that
arrives before the start is lost. -/
theorem burst_loses_followUp : ((new.run (receives ["a", "b"] ++
          (new.run (receives ["a", "b"])).round [])).injected = ["a"] ∧
        (new.run (receives ["a", "b"])).queued = ["a", "b"]) ∧
      (new.run startedByFollowUp).phase = .iterating ∧
        (new.run startedByFollowUp).kept = [] ∧
        (new.run startedByFollowUp).queued = ["a"] := by
  decide +kernel

end Axinite.Worker
