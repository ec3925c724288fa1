import Axinite.Scheduler.Dispatch
import Mathlib

/-!
# The token cap of dispatched jobs

A request may bring its own token budget, and the configuration caps it.  Zero means "no
limit" for the configuration, for the budget that is about to be applied and for the budget
of the context.  So a request for a budget of zero tokens is below every cap, is not applied,
and leaves the context without a limit.

Main results:

- Theorem `hasBudget_dispatchJobInner`: the budget of a dispatched job.
- Theorem `capped_iff`: a job without usage is capped exactly by a positive budget below the
  cap.
- Theorem `token_cap_iff`: the requests whose jobs are capped by the configuration.
-/

namespace Axinite.Scheduler

open Json Context Tools Foundation

/-! ## Spending tokens -/

/-- The context after a recorded usage, whatever the call answers. -/
def spend (ctx : JobContext) (tokens : Nat) : JobContext :=
  (ctx.addTokens tokens).2

/-- The job has a budget of at most `cap` tokens, and the first usage that brings the total
above `cap` is answered with an error. -/
def Capped (cap : Nat) (ctx : JobContext) : Prop :=
  0 < ctx.maxTokens ∧ ctx.maxTokens ≤ cap ∧
    ∀ (earlier : List Nat) (tokens : Nat), earlier.sum ≤ cap → cap < earlier.sum + tokens →
      earlier.sum + tokens < UInt64.size →
      ∃ message, ((earlier.foldl spend ctx).addTokens tokens).1 = .error message

theorem maxTokens_foldl_spend (ctx : JobContext) (usages : List Nat) :
    (usages.foldl spend ctx).maxTokens = ctx.maxTokens := by
  induction usages generalizing ctx with
  | nil => rfl
  | cons tokens usages ih => exact ih (spend ctx tokens)

/-- The usages add up as long as the sum fits into the counter. -/
theorem totalTokensUsed_foldl_spend (ctx : JobContext) (usages : List Nat)
    (h : ctx.totalTokensUsed + usages.sum < UInt64.size) :
    (usages.foldl spend ctx).totalTokensUsed = ctx.totalTokensUsed + usages.sum := by
  induction usages generalizing ctx with
  | nil => rfl
  | cons tokens usages ih =>
    rw [List.sum_cons] at h ⊢
    have hused : (spend ctx tokens).totalTokensUsed = ctx.totalTokensUsed + tokens :=
      Nat.mod_eq_of_lt (by omega)
    rw [List.foldl_cons, ih _ (by omega), hused, Nat.add_assoc]

/-- A job without usage is capped exactly if its budget is positive and at most the cap. -/
theorem capped_iff {cap : Nat} {ctx : JobContext} (hunused : ctx.totalTokensUsed = 0) :
    Capped cap ctx ↔ 0 < ctx.maxTokens ∧ ctx.maxTokens ≤ cap := by
  refine ⟨fun h => ⟨h.1, h.2.1⟩, fun ⟨hpositive, hcap⟩ => ⟨hpositive, hcap, ?_⟩⟩
  intro earlier tokens _ habove hfits
  have hused : (earlier.foldl spend ctx).totalTokensUsed = earlier.sum := by
    rw [totalTokensUsed_foldl_spend ctx earlier (by omega), hunused, Nat.zero_add]
  have hexceeded : (earlier.foldl spend ctx).maxTokens > 0 ∧
      ((earlier.foldl spend ctx).totalTokensUsed + tokens) % UInt64.size >
        (earlier.foldl spend ctx).maxTokens := by
    rw [maxTokens_foldl_spend, hused, Nat.mod_eq_of_lt hfits]
    exact ⟨hpositive, by omega⟩
  exact ⟨_, if_pos hexceeded⟩

/-! ## The budget of a dispatched job -/

/-- The job has this budget and has not used any of it. -/
def HasBudget (jobId : Uuid) (budget : Nat) (m : ContextManager) : Prop :=
  ∃ ctx, m.contexts.lookup jobId = some ctx ∧ ctx.maxTokens = budget ∧ ctx.totalTokensUsed = 0

theorem HasBudget.updateContext {R : Type} {jobId : Uuid} {budget : Nat} {m : ContextManager}
    (h : HasBudget jobId budget m) {f : JobContext → R × JobContext}
    (hbudget : ∀ ctx, (f ctx).2.maxTokens = ctx.maxTokens)
    (hused : ∀ ctx, (f ctx).2.totalTokensUsed = ctx.totalTokensUsed) :
    HasBudget jobId budget (m.updateContext jobId f).2 := by
  obtain ⟨ctx, hctx, hmax, hunused⟩ := h
  rw [updateContext_of_lookup hctx]
  exact ⟨_, AList.lookup_insert _, (hbudget ctx).trans hmax, (hused ctx).trans hunused⟩

section

variable {env : DispatchEnv} {request : JobRequest} {approvalContext : Option ApprovalContext}
  {jobId : Uuid} {budget : Nat} {s : SchedulerState}

/-- Starting the work on a job leaves its budget alone. -/
theorem HasBudget.startContext (h : HasBudget jobId budget s.contextManager) (now : Timestamp) :
    HasBudget jobId budget (Scheduler.startContext now jobId s).2 := by
  refine h.updateContext (fun ctx => ?_) fun ctx => ?_ <;>
    · unfold JobContext.transitionTo
      split <;> rfl

theorem HasBudget.storeAndSchedule (h : HasBudget jobId budget s.contextManager) :
    HasBudget jobId budget
      (Scheduler.storeAndSchedule env approvalContext jobId s).2.contextManager := by
  have hstarted := h.startContext env.scheduledAt
  unfold Scheduler.storeAndSchedule
  cases saveCreated env jobId s with
  | error e => exact h
  | ok done =>
    show HasBudget jobId budget (scheduleWithContext _ _ _ s).2.contextManager
    unfold scheduleWithContext
    split
    · exact h
    · split
      · exact h
      · simp only
        split <;> exact hstarted

/-- The new context gets the capped budget of the request; a budget of zero is not applied,
but the context starts with zero anyway. -/
theorem hasBudget_dispatchCreated (h : HasBudget jobId 0 s.contextManager) :
    HasBudget jobId (requestMaxTokens s.config request.metadata)
      (dispatchCreated env request approvalContext jobId s).2.contextManager := by
  obtain ⟨ctx, hctx, hmax, hunused⟩ := h
  by_cases hupdate : request.metadata.isSome ∨ requestMaxTokens s.config request.metadata > 0
  · have happlied : HasBudget jobId (requestMaxTokens s.config request.metadata)
        (s.insertContext jobId (applyRequest (requestMaxTokens s.config request.metadata)
          request.metadata ctx)).contextManager := by
      refine ⟨_, AList.lookup_insert _, ?_, ?_⟩
      · rcases Nat.eq_zero_or_pos (requestMaxTokens s.config request.metadata) with hzero | hpos
        · cases hmeta : request.metadata <;> rw [hmeta] at hzero <;>
            simp [applyRequest, hzero, hmax]
        · cases hmeta : request.metadata <;> rw [hmeta] at hpos <;> simp [applyRequest, hpos]
      · cases request.metadata <;> exact hunused
    simp only [dispatchCreated, if_pos hupdate, updateContext_of_lookup hctx]
    exact happlied.storeAndSchedule
  · have hzero : requestMaxTokens s.config request.metadata = 0 := by
      simp only [not_or, Nat.not_lt, Nat.le_zero] at hupdate
      exact hupdate.2
    have hbudget : HasBudget jobId (requestMaxTokens s.config request.metadata)
        s.contextManager := ⟨ctx, hctx, hmax.trans hzero.symm, hunused⟩
    simp only [dispatchCreated, if_neg hupdate]
    exact hbudget.storeAndSchedule

/-- A dispatched job has the budget of its request, whatever becomes of the dispatch after
its context has been created. -/
theorem hasBudget_dispatchJobInner {jobId : Uuid}
    (hcreated : (s.contextManager.createContext env.createdAt request.userId request.title
      request.description).1 = .ok jobId) :
    HasBudget jobId (requestMaxTokens s.config request.metadata)
      (dispatchJobInner env request approvalContext s).2.contextManager := by
  by_cases hfull : s.contextManager.maxJobs ≤ s.contextManager.activeCount
  · simp [ContextManager.createContext, hfull] at hcreated
  · have hid : s.contextManager.nextUuid = jobId := by
      simpa [ContextManager.createContext, hfull] using hcreated
    subst hid
    simp only [dispatchJobInner, createJobForUser, Program.run_bind, Program.run_perform,
      ContextOp.exec, ContextManager.createContext, if_neg hfull]
    exact hasBudget_dispatchCreated ⟨_, AList.lookup_insert _, rfl, rfl⟩

end

/-! ## The cap -/

/-- The budget that a request brings. -/
def requestedTokens (metadata : Option Value) : Option Nat :=
  (metadata.bind (Value.get "max_tokens")).bind Value.asU64

/-- Under a cap the budget is at most the cap, and it is zero exactly for a request of zero
tokens. -/
theorem requestMaxTokens_spec {config : SchedulerConfig} (hcap : 0 < config.maxTokensPerJob)
    (metadata : Option Value) :
    requestMaxTokens config metadata ≤ config.maxTokensPerJob ∧
      (requestMaxTokens config metadata = 0 ↔ requestedTokens metadata = some 0) := by
  unfold requestMaxTokens requestedTokens
  cases (metadata.bind (Value.get "max_tokens")).bind Value.asU64 with
  | none =>
    simp only [reduceCtorEq, iff_false]
    omega
  | some tokens =>
    simp only [if_neg (Nat.pos_iff_ne_zero.1 hcap), Option.some.injEq]
    omega

/-- Under a configured cap a dispatched job is capped exactly if its request does not ask for
zero tokens. -/
theorem token_cap_iff (env : DispatchEnv) (request : JobRequest) (s : SchedulerState)
    (hcap : 0 < s.config.maxTokensPerJob) (jobId : Uuid)
    (hcreated : (s.contextManager.createContext env.createdAt request.userId request.title
      request.description).1 = .ok jobId) :
    (∃ ctx, (dispatchJob env request s).2.contextManager.contexts.lookup jobId = some ctx ∧
        Capped s.config.maxTokensPerJob ctx) ↔
      requestedTokens request.metadata ≠ some 0 := by
  have hdispatched : HasBudget jobId (requestMaxTokens s.config request.metadata)
      (dispatchJob env request s).2.contextManager := hasBudget_dispatchJobInner hcreated
  obtain ⟨ctx, hctx, hbudget, hunused⟩ := hdispatched
  obtain ⟨hle, hzero⟩ := requestMaxTokens_spec hcap request.metadata
  have hcapped : Capped s.config.maxTokensPerJob ctx ↔
      requestedTokens request.metadata ≠ some 0 := by
    rw [capped_iff hunused, hbudget, and_iff_left hle, Nat.pos_iff_ne_zero, ne_eq, hzero]
  rw [← hcapped]
  constructor
  · rintro ⟨other, hother, h⟩
    rwa [← Option.some.inj (hctx.symm.trans hother)] at h
  · exact fun h => ⟨ctx, hctx, h⟩

/-- A scheduler without jobs that caps every job at a thousand tokens. -/
def cappingScheduler : SchedulerState where
  config := { maxParallelJobs := 1, maxTokensPerJob := 1000 }
  contextManager := ContextManager.new 1
  jobs := ∅
  hasStore := false

/-- A request with this token budget. -/
def budgetRequest (tokens : UInt64) : JobRequest :=
  { plainRequest with metadata := some (.object [("max_tokens", .number (.posInt tokens))]) }

theorem large_request_capped : ∃ ctx, (dispatchJob storingEnv (budgetRequest 5000)
        cappingScheduler).2.contextManager.contexts.lookup 0 = some ctx ∧ Capped 1000 ctx :=
  (token_cap_iff storingEnv (budgetRequest 5000) cappingScheduler (by decide) 0 rfl).2
    (by decide +kernel)

/-- A request for zero tokens gets a job without a limit, which may spend more than the cap. -/
theorem zero_request_uncapped : ∃ ctx, (dispatchJob storingEnv (budgetRequest 0)
        cappingScheduler).2.contextManager.contexts.lookup 0 = some ctx ∧
      ctx.maxTokens = 0 ∧ ¬ Capped 1000 ctx ∧ (ctx.addTokens 2000).1 = .ok () := by
  refine ⟨_, rfl, rfl, fun h => ?_, rfl⟩
  exact absurd h.1 (by decide)

end Axinite.Scheduler
