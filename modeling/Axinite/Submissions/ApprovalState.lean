import Axinite.Foundation.Interleaving
import Axinite.Submissions.Handlers

/-!
# The pending approval and the state of a thread

A thread that waits for an approval should hold one, and a thread that holds one should
wait for it.  Several operations change the state of a thread and leave the pending
approval alone.

Main results:

- Theorem `paired_step_iff`: which single operations keep approval and state together.
- Theorem `paired_run_iff`: the runs in which they stay together.
- Theorem `paired_reachable`: the same for interleaved handlers.
-/

namespace Axinite.Submissions

open Json Llm Session Tools ThreadOps Dispatcher Approval Foundation

/-- A thread holds a pending approval exactly if it waits for it. -/
def Paired (thread : Thread) : Prop :=
  thread.pendingApproval.isSome = true ↔ thread.state = .awaitingApproval
  deriving Decidable

/-- A call of a thread method, or a critical section of a handler. -/
inductive ThreadCall where
  | startTurn (userInput : String)
  | completeTurn (response : String)
  | failTurn (error : String)
  | awaitApproval (pending : PendingApproval)
  | takePendingApproval
  | clearPendingApproval
  | enterAuthMode (extensionName : String)
  | takePendingAuth
  | interrupt
  | resume
  | truncateTurns (keep : Nat)
  | restoreFromMessages (messages : List ChatMessage)
  | critical (op : ThreadOp)

def ThreadCall.apply (serde : SerdeJson) (w : World) : ThreadCall → World
  | startTurn userInput => w.tick.modifyThread (Thread.startTurn w.tick.now userInput)
  | completeTurn response => w.tick.modifyThread (Thread.completeTurn w.tick.now response)
  | failTurn error => w.tick.modifyThread (Thread.failTurn w.tick.now error)
  | awaitApproval pending => w.tick.modifyThread (Thread.awaitApproval w.tick.now pending)
  | takePendingApproval => w.tick.modifyThread fun thread => thread.takePendingApproval.2
  | clearPendingApproval => w.tick.modifyThread (Thread.clearPendingApproval w.tick.now)
  | enterAuthMode name => w.tick.modifyThread (Thread.enterAuthMode w.tick.now name)
  | takePendingAuth => w.tick.modifyThread fun thread => thread.takePendingAuth.2
  | interrupt => w.tick.modifyThread (Thread.interrupt w.tick.now)
  | resume => w.tick.modifyThread (Thread.resume w.tick.now)
  | truncateTurns keep => w.tick.modifyThread (Thread.truncateTurns keep)
  | restoreFromMessages messages =>
    w.tick.modifyThread (Thread.restoreFromMessages w.tick.now messages)
  | critical op => (op.exec serde w).2

/-- The call ends the wait for an approval and leaves the approval pending, or takes the
approval and leaves the thread waiting. -/
def ThreadCall.separates (w : World) : ThreadCall → Bool
  | startTurn _ | completeTurn _ | failTurn _ | interrupt | restoreFromMessages _ => true
  | takePendingApproval => true
  | critical (.interceptAuth _ none _) => true
  | critical (.finalizeTurn _) | critical (.failTurn _) | critical .interruptActive => true
  | critical (.restoreFromMessages _) => true
  | critical (.restoreIfFresh updatedAt turnsLen _) =>
    w.thread.updatedAt = updatedAt && w.thread.turns.length = turnsLen
  | _ => false

/-- The snapshot that a call puts in place of the thread. -/
def ThreadCall.replacement (w : World) : ThreadCall → Option Thread
  | critical (.applyCompactionIfFresh snapshot) =>
    if w.thread.updatedAt = snapshot.updatedAt ∧
        w.thread.turns.length = snapshot.turns.length then some snapshot
    else none
  | _ => none

/-- The call does not separate approval and state of a waiting thread, and a snapshot that
it puts in place of the thread is in order. -/
def KeepsPair (w : World) (call : ThreadCall) : Prop :=
  (w.thread.state = .awaitingApproval → call.separates w = false) ∧
    ∀ snapshot, call.replacement w = some snapshot → Paired snapshot

section Moves

variable {thread thread' : Thread}

theorem paired_congr (h : Paired thread) (hstate : thread'.state = thread.state)
    (hpending : thread'.pendingApproval = thread.pendingApproval) :
    Paired thread' := by
  unfold Paired
  rw [hstate, hpending]
  exact h

/-- A thread that leaves the waiting state with its slot untouched was not waiting. -/
theorem paired_of_leaves (h : Paired thread) (hstate : thread'.state ≠ .awaitingApproval)
    (hpending : thread'.pendingApproval = thread.pendingApproval) :
    Paired thread' ↔ thread.state ≠ .awaitingApproval := by
  unfold Paired at h ⊢
  rw [hpending, h]
  exact ⟨fun hiff hwaiting => hstate (hiff.1 hwaiting), fun hne => iff_of_false hne hstate⟩

theorem paired_of_waits (hstate : thread'.state = .awaitingApproval)
    (hpending : thread'.pendingApproval.isSome = true) : Paired thread' :=
  iff_of_true hpending hstate

theorem paired_of_cleared (hstate : thread'.state ≠ .awaitingApproval)
    (hpending : thread'.pendingApproval = none) : Paired thread' := by
  refine iff_of_false ?_ hstate
  simp [hpending]

end Moves

variable (serde : SerdeJson) {w : World}

theorem keepsPair_of_neutral {call : ThreadCall} (hsep : call.separates w = false)
    (hrep : call.replacement w = none) : KeepsPair w call := by
  refine ⟨fun _ => hsep, fun snapshot h => ?_⟩
  simp [hrep] at h

theorem keepsPair_iff_of_separates {call : ThreadCall} (hsep : call.separates w = true)
    (hrep : call.replacement w = none) : KeepsPair w call ↔ w.thread.state ≠ .awaitingApproval := by
  constructor
  · intro h hwaiting
    have hfalse := h.1 hwaiting
    rw [hsep] at hfalse
    cases hfalse
  · intro hne
    refine ⟨fun hwaiting => absurd hwaiting hne, fun snapshot h => ?_⟩
    simp [hrep] at h

section Effects

variable {call : ThreadCall} {thread : Thread}

/-- Effect of a call that leaves approval and state together. -/
theorem keeps_iff (h : Paired thread) (hsep : call.separates w = false)
    (hrep : call.replacement w = none) : Paired thread ↔ KeepsPair w call :=
  iff_of_true h (keepsPair_of_neutral hsep hrep)

/-- Effect of a call that leaves the waiting state only. -/
theorem leaves_iff (hs : Paired w.thread) (hstate : thread.state ≠ .awaitingApproval)
    (hpending : thread.pendingApproval = w.thread.pendingApproval)
    (hsep : call.separates w = true) (hrep : call.replacement w = none) :
    Paired thread ↔ KeepsPair w call := by
  rw [keepsPair_iff_of_separates hsep hrep]
  exact paired_of_leaves hs hstate hpending

end Effects

/-! ## Critical sections -/

open World

/-- Taking an approval also ends the wait for it. -/
theorem paired_take (hs : Paired w.thread) :
    Paired (ThreadOp.exec serde .takePendingApprovalIfAwaiting w).2.thread := by
  simp only [ThreadOp.exec, ThreadOp.effect, setThread]
  cases htake : takePendingApprovalIfAwaiting w.tick.now w.tick.thread with
  | mk taken thread =>
    cases taken with
    | none => exact takePendingApprovalIfAwaiting_eq_none htake ▸ hs
    | some pending =>
      rw [(takePendingApprovalIfAwaiting_eq_some htake).2.2]
      exact paired_of_cleared (by simp) rfl

variable {w : World}

theorem paired_prepareTurn (content : String) (imageParts : List ContentPart)
    (hs : Paired w.thread) :
    Paired (ThreadOp.exec serde (.prepareTurn content imageParts) w).2.thread := by
  change Paired (ThreadOps.prepareTurn serde w.tick.now content imageParts w.thread).2
  rw [ThreadOps.prepareTurn]
  cases hstate : threadStateSubmissionResult w.thread.state with
  | some rejected => exact hs
  | none =>
    have hne : w.thread.state ≠ .awaitingApproval := by
      intro hwaiting
      simp [hwaiting, threadStateSubmissionResult] at hstate
    have hleaves : Paired ((w.thread.startTurn w.tick.now content).modifyLastTurn fun turn =>
        { turn with imageContentParts := imageParts }) ↔ w.thread.state ≠ .awaitingApproval :=
      paired_of_leaves hs (by simp [Thread.startTurn, Thread.modifyLastTurn]) rfl
    exact hleaves.2 hne

theorem paired_finalizeTurn_iff (response : String) (hs : Paired w.thread) :
    Paired (ThreadOp.exec serde (.finalizeTurn response) w).2.thread ↔
      w.thread.state ≠ .awaitingApproval := by
  change Paired (finalizeTurn w.tick.now response w.thread).2 ↔ _
  rw [finalizeTurn]
  by_cases hinterrupted : w.thread.state = .interrupted
  · rw [if_pos hinterrupted]
    exact iff_of_true hs (by simp [hinterrupted])
  · rw [if_neg hinterrupted]
    exact paired_of_leaves hs (by simp [Thread.completeTurn]) rfl

theorem paired_interruptActive_iff (hs : Paired w.thread) :
    Paired (ThreadOp.exec serde .interruptActive w).2.thread ↔
      w.thread.state ≠ .awaitingApproval := by
  change Paired (interruptActive w.tick.now w.thread).2 ↔ _
  have hleaves : Paired (w.thread.interrupt w.tick.now) ↔ w.thread.state ≠ .awaitingApproval :=
    paired_of_leaves hs (by simp [Thread.interrupt]) rfl
  rw [interruptActive]
  cases hstate : w.thread.state with
  | processing | awaitingApproval => simpa [hstate] using hleaves
  | idle | completed | interrupted => exact iff_of_true hs (by simp)

open ThreadCall

theorem paired_applyCompaction_iff (snapshot : Thread) (hs : Paired w.thread) :
    Paired (ThreadOp.exec serde (.applyCompactionIfFresh snapshot) w).2.thread ↔
      KeepsPair w (.critical (.applyCompactionIfFresh snapshot)) := by
  change Paired (applyCompactionIfFresh snapshot w.thread) ↔ _
  rw [applyCompactionIfFresh]
  by_cases hfresh : w.thread.updatedAt = snapshot.updatedAt ∧
      w.thread.turns.length = snapshot.turns.length
  · rw [if_pos hfresh]
    constructor
    · intro h
      refine ⟨fun _ => rfl, fun replaced hreplaced => ?_⟩
      obtain rfl : snapshot = replaced := by
        simpa [replacement, hfresh] using hreplaced
      exact h
    · intro h
      exact h.2 snapshot (by simp [replacement, hfresh])
  · rw [if_neg hfresh]
    exact keeps_iff hs rfl (by simp [replacement, hfresh])

theorem paired_restoreIfFresh_iff (updatedAt : Timestamp) (turnsLen : Nat)
    (messages : List ChatMessage) (hs : Paired w.thread) :
    Paired (ThreadOp.exec serde (.restoreIfFresh updatedAt turnsLen messages) w).2.thread ↔
      KeepsPair w (.critical (.restoreIfFresh updatedAt turnsLen messages)) := by
  change Paired (restoreIfFresh w.tick.now updatedAt turnsLen messages w.thread).2 ↔ _
  rw [restoreIfFresh]
  by_cases hstale : w.thread.updatedAt ≠ updatedAt ∨ w.thread.turns.length ≠ turnsLen
  · rw [if_pos hstale]
    refine keeps_iff hs ?_ rfl
    rcases hstale with h | h
    · simp [separates, h]
    · simp [separates, h]
  · rw [if_neg hstale]
    rw [not_or, not_not, not_not] at hstale
    exact leaves_iff hs nofun rfl (by simp [separates, hstale.1, hstale.2]) rfl

/-- Effect of a critical section on approval and state. -/
theorem paired_critical_iff (w : World) (op : ThreadOp) (hs : Paired w.thread) :
    Paired (op.exec serde w).2.thread ↔ KeepsPair w (.critical op) := by
  cases op with
  | takePendingApprovalIfAwaiting => exact keeps_iff (paired_take serde hs) rfl rfl
  | awaitApproval pending => exact keeps_iff (paired_of_waits rfl rfl) rfl rfl
  | interceptAuth instructions pending extName =>
    cases pending with
    | some pending => exact keeps_iff (paired_of_waits rfl rfl) rfl rfl
    | none => exact leaves_iff hs nofun rfl rfl rfl
  | completeRejection _ | clearThread | authenticated =>
    exact keeps_iff (paired_of_cleared nofun rfl) rfl rfl
  | finalizeTurn response =>
    rw [keepsPair_iff_of_separates rfl rfl]
    exact paired_finalizeTurn_iff serde response hs
  | failTurn _ | restoreFromMessages _ => exact leaves_iff hs nofun rfl rfl rfl
  | interruptActive =>
    rw [keepsPair_iff_of_separates rfl rfl]
    exact paired_interruptActive_iff serde hs
  | prepareTurn content imageParts =>
    exact keeps_iff (paired_prepareTurn serde content imageParts hs) rfl rfl
  | applyCompactionIfFresh snapshot => exact paired_applyCompaction_iff serde snapshot hs
  | restoreIfFresh updatedAt turnsLen messages =>
    exact paired_restoreIfFresh_iff serde updatedAt turnsLen messages hs
  | claimAuth | compactIfFresh _ _ _ =>
    refine keeps_iff ?_ rfl rfl
    simp only [ThreadOp.exec, ThreadOp.effect, claimAuth, compactIfFresh]
    split <;> exact paired_congr hs rfl rfl
  | _ => exact keeps_iff (paired_congr hs rfl rfl) rfl rfl

/-! ## Runs -/

theorem paired_resume (now : Timestamp) {thread : Thread} (hs : Paired thread) :
    Paired (thread.resume now) := by
  unfold Thread.resume
  by_cases hinterrupted : thread.state = .interrupted
  · rw [if_pos hinterrupted]
    have hleaves : Paired { thread with state := .idle, updatedAt := now } ↔
        thread.state ≠ .awaitingApproval := paired_of_leaves hs (by simp) rfl
    exact hleaves.2 (by rw [hinterrupted]; decide)
  · rw [if_neg hinterrupted]
    exact hs

/-- A call keeps approval and state together exactly if it does not separate them on a
waiting thread. -/
theorem paired_step_iff (w : World) (call : ThreadCall) (hs : Paired w.thread) :
    Paired (call.apply serde w).thread ↔ KeepsPair w call := by
  cases call with
  | startTurn _ | completeTurn _ | failTurn _ | interrupt | restoreFromMessages _ =>
    exact leaves_iff hs (by rintro ⟨⟩) rfl rfl rfl
  | awaitApproval pending => exact keeps_iff (paired_of_waits rfl rfl) rfl rfl
  | takePendingApproval =>
    rw [keepsPair_iff_of_separates rfl rfl]
    simp [apply, modifyThread, setThread, Thread.takePendingApproval, Paired, tick]
  | clearPendingApproval => exact keeps_iff (paired_of_cleared (by rintro ⟨⟩) rfl) rfl rfl
  | enterAuthMode _ | takePendingAuth => exact keeps_iff (paired_congr hs rfl rfl) rfl rfl
  | resume => exact keeps_iff (paired_resume w.tick.now hs) rfl rfl
  | truncateTurns keep =>
    refine keeps_iff (paired_congr hs ?_ ?_) rfl rfl
    · simp only [apply, modifyThread, Thread.truncateTurns]
      split <;> rfl
    · simp only [apply, modifyThread, Thread.truncateTurns]
      split <;> rfl
  | critical op => exact paired_critical_iff serde w op hs

/-- Approval and state stay together along a run of thread methods and critical sections
exactly if no call of the run separates them. -/
theorem paired_run_iff (serde : SerdeJson) (w : World) (hw : Paired w.thread)
    (calls : List ThreadCall) :
    (∀ s ∈ Runs.visited (apply serde) w calls, Paired s.thread) ↔
      Runs.AllSteps (apply serde) KeepsPair w calls :=
  Runs.forall_mem_visited_iff (paired_step_iff serde) hw calls

theorem paired_run_response : Paired init.thread ∧
      ∀ s ∈ Runs.visited (apply nullSerde) init
        [.startTurn "hi", .completeTurn "hello"], Paired s.thread := by
  refine ⟨by decide, ?_⟩
  refine (paired_run_iff nullSerde init (by decide) _).2 ⟨?_, ?_, trivial⟩
  · exact (keepsPair_iff_of_separates rfl rfl).2 (by decide)
  · exact (keepsPair_iff_of_separates rfl rfl).2 (by decide)

/-- A request for the approval of a call of `shell`. -/
def shellApproval : PendingApproval where
  requestId := 7
  toolName := "shell"
  parameters := .null
  displayParameters := .null
  description := ""
  toolCallId := "call_1"
  contextMessages := []
  deferredToolCalls := []
  userTimezone := none

/-- An interruption ends the wait for an approval and leaves the approval pending. -/
theorem paired_run_interrupted : ¬ ∀ s ∈ Runs.visited (apply nullSerde) init
        [.critical (.prepareTurn "hi" []), .critical (.awaitApproval shellApproval),
          .critical .interruptActive], Paired s.thread := by
  intro h
  have hlast := h _ (Runs.foldl_mem_visited _ _ _)
  revert hlast
  decide

/-- Interleaved handlers keep approval and state together as long as none of their critical
sections separates them. -/
theorem paired_reachable {may : Handler Unit → Prop} {w₀ : World} (hw : Paired w₀.thread)
    {c : Config ThreadOp ThreadOp.Resp World}
    (hc : Reachable (ThreadOp.exec serde) (fun op w => KeepsPair w (.critical op)) may w₀ c) :
    Paired c.shared.thread := by
  induction hc with
  | refl => exact hw
  | tail _ hstep ih =>
    cases hstep with
    | spawn _ => exact ih
    | advance hok => exact (paired_critical_iff serde _ _ ih).2 hok

end Axinite.Submissions
