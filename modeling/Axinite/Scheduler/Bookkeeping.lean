import Axinite.Scheduler.Dispatch

/-!
# Bookkeeping of the scheduler

The job map is changed by scheduling, by stopping, by the cleanup of finished jobs and by a
background task per job.  The background task decides under a read lock and removes under a
later write lock; a job that is scheduled again or pinned for its cancellation in between is
removed although it should stay.

The model carries a record that the code does not keep: which jobs a background task has
decided to remove, and which entries were removed by whom.  No operation reads it.

Main results:

- Theorem `safe_schedulerCall`: every call keeps the books, whatever the others do.
- Theorem `books_inOrder`: if no decision of a background task is overtaken, the job map
  respects its limit and no entry is removed too early.
- Theorem `overtaken_cleanup`: without that condition a running entry and a pinned one are
  removed.
-/

namespace Axinite.Scheduler

open Json Context Tools Foundation Program List

/-! ## State -/

/-- Who removes an entry of the job map. -/
inductive Remover where
  | cleanupTask
  | finalizeStop
  | cleanupFinished
  deriving DecidableEq

/-- A removal: the entry, who removed it, and whether its cancellation was settled. -/
structure JobRemoval where
  jobId : Uuid
  job : ScheduledJob
  remover : Remover
  settled : Bool

/-- The scheduler, the cancellations in the database and the record of the run. -/
structure Books where
  scheduler : SchedulerState
  /-- Jobs whose cancellation has been persisted, or has not to be without a database. -/
  settled : List Uuid
  /-- Jobs that a background task has decided to remove and not removed yet. -/
  decided : List Uuid
  removals : List JobRemoval

namespace Books

/-- The books of a scheduler that has not scheduled anything. -/
def new (config : SchedulerConfig) (contextManager : ContextManager) (hasStore : Bool) : Books where
  scheduler :=
    { config := config, contextManager := contextManager, jobs := ∅, hasStore := hasStore }
  settled := []
  decided := []
  removals := []

/-- The entry of a job. -/
def job? (b : Books) (jobId : Uuid) : Option ScheduledJob :=
  b.scheduler.jobs.lookup jobId

/-- Change the job map. -/
def setJobs (b : Books) (jobs : AList fun _ : Uuid => ScheduledJob) : Books :=
  { b with scheduler := { b.scheduler with jobs := jobs } }

/-- Change the contexts. -/
def setContexts (b : Books) (contextManager : ContextManager) : Books :=
  { b with scheduler := { b.scheduler with contextManager := contextManager } }

/-- Change the entry of a job, if there is one. -/
def modifyJob (b : Books) (jobId : Uuid) (f : ScheduledJob → ScheduledJob) : Books :=
  match b.job? jobId with
  | some job => b.setJobs (b.scheduler.jobs.insert jobId (f job))
  | none => b

/-- The record of the removal of a job's entry. -/
def removal (b : Books) (remover : Remover) (jobId : Uuid) : List JobRemoval :=
  (b.job? jobId).toList.map fun job =>
    { jobId := jobId, job := job, remover := remover, settled := decide (jobId ∈ b.settled) }

/-- Remove the entry of a job and record it. -/
def removeJob (b : Books) (remover : Remover) (jobId : Uuid) : Books :=
  { b.setJobs (b.scheduler.jobs.erase jobId) with
    removals := b.removals ++ b.removal remover jobId }

end Books

/-- The worker has finished and no cancellation has to be persisted. -/
def ScheduledJob.removable (job : ScheduledJob) : Bool :=
  job.finished && !job.pendingCancelPersist

/-! ## Critical sections -/

/-- The critical sections of the scheduler.  `workerFinishes` and `contextOp` are steps of
workers and of other handlers. -/
inductive SchedulerOp where
  | schedule (now : Timestamp) (jobId : Uuid) (approvalContext : Option ApprovalContext)
  | decideRemoval (jobId : Uuid)
  | removeDecided (jobId : Uuid)
  | hasJob (jobId : Uuid)
  | transitionToCancelled (now : Timestamp) (jobId : Uuid) (reason : String)
  | pinCancelPersistAndAbort (jobId : Uuid)
  | persistCancelledStatus (jobId : Uuid) (answer : Except String Unit)
  | finalizeStop (jobId : Uuid)
  | cleanupFinishedJobs
  | workerFinishes (jobId : Uuid)
  | contextOp (jobId : Uuid) (op : JobOp)

/-- Cancel the context of a job; a job that is cancelled already stays so. -/
def cancelContext (now : Timestamp) (reason : String) (ctx : JobContext) :
    Except JobState Unit × JobContext :=
  if ctx.state = .cancelled then (.ok (), ctx)
  else
    let done := ctx.transitionTo now .cancelled (some reason)
    (done.1.mapError fun _ => ctx.state, done.2)

namespace SchedulerOp

/-- What a critical section answers. -/
abbrev Resp : SchedulerOp → Type
  | schedule _ _ _ => Except JobError Unit
  | decideRemoval _ => Bool
  | hasJob _ => Bool
  | transitionToCancelled _ _ _ => Except JobError Unit
  | persistCancelledStatus _ _ => Except JobError Unit
  | _ => Unit

/-- Effect of a critical section. -/
def exec : (op : SchedulerOp) → Books → op.Resp × Books
  | schedule now jobId approvalContext, b =>
    let done := scheduleWithContext now jobId approvalContext b.scheduler
    (done.1, { b with scheduler := done.2 })
  | decideRemoval jobId, b =>
    if (b.job? jobId).all ScheduledJob.removable then
      (true, { b with decided := jobId :: b.decided })
    else (false, b)
  | removeDecided jobId, b =>
    ((), { b.removeJob .cleanupTask jobId with decided := b.decided.erase jobId })
  | hasJob jobId, b => ((b.job? jobId).isSome, b)
  | transitionToCancelled now jobId reason, b =>
    let done := b.scheduler.contextManager.updateContext jobId (cancelContext now reason)
    (match done.1 with
      | .error e => .error e
      | .ok (.error fromState) => .error (.invalidTransition jobId fromState .cancelled)
      | .ok (.ok ()) => .ok (),
      b.setContexts done.2)
  | pinCancelPersistAndAbort jobId, b =>
    ((), b.modifyJob jobId fun job =>
      { job with pendingCancelPersist := true, aborted := job.aborted || !job.finished })
  | persistCancelledStatus jobId answer, b =>
    match if b.scheduler.hasStore then answer else .ok () with
    | .error e => (.error (.persistenceError jobId e), b)
    | .ok () => (.ok (), { b with settled := jobId :: b.settled })
  | finalizeStop jobId, b => ((), b.removeJob .finalizeStop jobId)
  | cleanupFinishedJobs, b =>
    -- the entries to remove are collected first and removed one by one
    ((), ((b.scheduler.jobs.entries.filter fun entry => entry.2.removable).map
      Sigma.fst).foldl (fun b jobId => b.removeJob .cleanupFinished jobId) b)
  | workerFinishes jobId, b => ((), b.modifyJob jobId fun job => { job with finished := true })
  | contextOp jobId op, b =>
    ((), b.setContexts (b.scheduler.contextManager.updateContext jobId fun ctx =>
      ((), op.apply ctx)).2)

end SchedulerOp

/-! ## Calls -/

/-- A program over the critical sections of the scheduler. -/
abbrev SchedulerProgram := Program SchedulerOp SchedulerOp.Resp

/-- Perform one critical section of the scheduler. -/
abbrev locked (op : SchedulerOp) : SchedulerProgram op.Resp :=
  Program.perform op

/-- The background task of a job.  It looks at the job again and again until it can be
removed; `checks` bounds how often it gets to look. -/
def cleanupTask : Nat → Uuid → SchedulerProgram Unit
  | 0, _ => pure ()
  | checks + 1, jobId => do
    if ← locked (.decideRemoval jobId) then locked (.removeDecided jobId)
    else cleanupTask checks jobId

/-- Stop a running job in memory. -/
def stopInMemory (now : Timestamp) (jobId : Uuid) (reason : String) :
    SchedulerProgram (Except JobError Unit) := do
  if ← locked (.hasJob jobId) then
    match ← locked (.transitionToCancelled now jobId reason) with
    | .error e => pure (.error e)
    | .ok () =>
      locked (.pinCancelPersistAndAbort jobId)
      pure (.ok ())
  else pure (.error (.notFound jobId))

/-- Persist the cancellation of a stopped job and remove the job. -/
def persistAndFinalize (jobId : Uuid) (answer : Except String Unit) :
    SchedulerProgram (Except JobError Unit) := do
  match ← locked (.persistCancelledStatus jobId answer) with
  | .error e => pure (.error e)
  | .ok () =>
    locked (.finalizeStop jobId)
    pure (.ok ())

/-- Stop a running job; `answer` is what the database answers. -/
def stop (now : Timestamp) (jobId : Uuid) (reason : String) (answer : Except String Unit) :
    SchedulerProgram (Except JobError Unit) := do
  match ← stopInMemory now jobId reason with
  | .error e => pure (.error e)
  | .ok () => persistAndFinalize jobId answer

/-- A call of the scheduler, a background task, or a step of a worker or another handler. -/
inductive SchedulerCall where
  | schedule (now : Timestamp) (jobId : Uuid) (approvalContext : Option ApprovalContext)
  | stop (now : Timestamp) (jobId : Uuid) (reason : String) (answer : Except String Unit)
  | cleanupFinished
  | cleanupTask (checks : Nat) (jobId : Uuid)
  | workerFinishes (jobId : Uuid)
  | contextOp (jobId : Uuid) (op : JobOp)

/-- The program of a call; its answer is dropped. -/
def SchedulerCall.program : SchedulerCall → SchedulerProgram Unit
  | schedule now jobId approvalContext => do
    let _ ← locked (.schedule now jobId approvalContext)
    pure ()
  | stop now jobId reason answer => do
    let _ ← Scheduler.stop now jobId reason answer
    pure ()
  | cleanupFinished => locked .cleanupFinishedJobs
  | cleanupTask checks jobId => Scheduler.cleanupTask checks jobId
  | workerFinishes jobId => locked (.workerFinishes jobId)
  | contextOp jobId op => locked (.contextOp jobId op)

/-- The programs that may start. -/
def IsSchedulerCall (p : SchedulerProgram Unit) : Prop :=
  ∃ call : SchedulerCall, p = call.program

/-! ## Books in order -/

/-- The job map respects its limit, a background task removed finished jobs only, and no
cancellation was lost. -/
structure Books.InOrder (b : Books) : Prop where
  capacity : b.scheduler.jobs.entries.length ≤ b.scheduler.config.maxParallelJobs
  finished : ∀ r ∈ b.removals, r.remover = .cleanupTask → r.job.finished = true
  persisted : ∀ r ∈ b.removals, r.job.pendingCancelPersist = true → r.settled = true

/-- A job that a background task has decided to remove is not scheduled again and not pinned
before it has been removed. -/
def NotOvertaken : SchedulerOp → Books → Prop
  | .schedule _ jobId _, b => jobId ∈ b.scheduler.jobs ∨ jobId ∉ b.decided
  | .pinCancelPersistAndAbort jobId, b => jobId ∉ b.scheduler.jobs ∨ jobId ∉ b.decided
  | _, _ => True

instance (op : SchedulerOp) (b : Books) : Decidable (NotOvertaken op b) := by
  cases op <;> unfold NotOvertaken <;> infer_instance

/-- What running calls rely on: the jobs they have decided to remove, and the jobs whose
cancellation they know to be settled. -/
abbrev Reliances := Multiset Uuid × Multiset Uuid

/-- The entry was removed rightly. -/
def JobRemoval.Right (r : JobRemoval) : Prop :=
  (r.remover = .cleanupTask → r.job.finished = true) ∧
    (r.job.pendingCancelPersist = true → r.settled = true)

/-- The books are in order and bear out what the running calls rely on. -/
structure BooksInv (b : Books) (reliances : Reliances) : Prop where
  capacity : b.scheduler.jobs.entries.length ≤ b.scheduler.config.maxParallelJobs
  right : ∀ r ∈ b.removals, r.Right
  decided : reliances.1 ≤ (b.decided : Multiset Uuid)
  removable : ∀ id ∈ reliances.1, ∀ job, b.job? id = some job → job.removable = true
  settled : ∀ id ∈ reliances.2, id ∈ b.settled

theorem BooksInv.new (config : SchedulerConfig) (contextManager : ContextManager)
    (hasStore : Bool) : BooksInv (Books.new config contextManager hasStore) 0 where
  capacity := by simp [Books.new]
  right := by simp [Books.new]
  decided := Multiset.zero_le _
  removable := by simp
  settled := by simp

/-! ## Steps that add no job -/

/-- A step that keeps entries, finishes workers or removes entries rightly. -/
structure Shrinks (b b' : Books) : Prop where
  length : b'.scheduler.jobs.entries.length ≤ b.scheduler.jobs.entries.length
  fixed : (b'.scheduler.config, b'.decided) = (b.scheduler.config, b.decided)
  kept : ∀ id job', b'.job? id = some job' →
    ∃ job, b.job? id = some job ∧ (job.removable = true → job'.removable = true)
  settled : ∀ id ∈ b.settled, id ∈ b'.settled
  removals : ∀ r ∈ b'.removals, r ∈ b.removals ∨ r.Right

open Books

theorem Shrinks.of_jobs_eq {b b' : Books} (hjobs : b'.scheduler.jobs = b.scheduler.jobs)
    (hfixed : (b'.scheduler.config, b'.decided) = (b.scheduler.config, b.decided))
    (hsettled : ∀ id ∈ b.settled, id ∈ b'.settled) (hremovals : b'.removals = b.removals) :
    Shrinks b b' where
  length := by rw [hjobs]
  fixed := hfixed
  kept := fun id job' hjob => ⟨job', by rwa [job?, ← hjobs], fun h => h⟩
  settled := hsettled
  removals := fun _ hr => .inl (hremovals ▸ hr)

theorem Shrinks.trans {b₁ b₂ b₃ : Books} (h : Shrinks b₁ b₂) (h' : Shrinks b₂ b₃) :
    Shrinks b₁ b₃ where
  length := h'.length.trans h.length
  fixed := h'.fixed.trans h.fixed
  kept := by
    intro id job₃ hjob₃
    obtain ⟨job₂, hjob₂, himp'⟩ := h'.kept id job₃ hjob₃
    obtain ⟨job₁, hjob₁, himp⟩ := h.kept id job₂ hjob₂
    exact ⟨job₁, hjob₁, fun hr => himp' (himp hr)⟩
  settled := fun id hid => h'.settled id (h.settled id hid)
  removals := fun r hr => (h'.removals r hr).elim (h.removals r) .inr

/-- A step that adds no job and removes entries rightly keeps the books. -/
theorem BooksInv.shrinks {b b' : Books} {reliances : Reliances} (h : BooksInv b reliances)
    (hstep : Shrinks b b') : BooksInv b' reliances := by
  obtain ⟨hconfig, hdecided⟩ := Prod.mk.inj hstep.fixed
  refine ⟨hconfig ▸ hstep.length.trans h.capacity,
    fun r hr => (hstep.removals r hr).elim (h.right r) id, hdecided ▸ h.decided, ?_,
    fun id hid => hstep.settled id (h.settled id hid)⟩
  intro id hid job' hjob'
  obtain ⟨job, hjob, himp⟩ := hstep.kept id job' hjob'
  exact himp (h.removable id hid job hjob)

/-- What is not relied on need not be borne out. -/
theorem BooksInv.forget {b : Books} {reliances more : Reliances}
    (h : BooksInv b (more + reliances)) : BooksInv b reliances where
  capacity := h.capacity
  right := h.right
  decided := (Multiset.le_add_left _ _).trans h.decided
  removable := fun id hid => h.removable id (Multiset.mem_add.2 (.inr hid))
  settled := fun id hid => h.settled id (Multiset.mem_add.2 (.inr hid))

/-! ## The job map -/

theorem length_entries_eq_length_keys (jobs : AList fun _ : Uuid => ScheduledJob) :
    jobs.entries.length = jobs.keys.length :=
  (length_map ..).symm

variable {jobId : Uuid}

open AList

theorem length_insert_of_mem {jobs : AList fun _ : Uuid => ScheduledJob}
    (h : jobId ∈ jobs) (job : ScheduledJob) :
    (jobs.insert jobId job).entries.length = jobs.entries.length := by
  have hkeys : jobId ∈ jobs.keys := mem_keys.1 h
  have hpos : 0 < jobs.keys.length := length_pos_of_mem hkeys
  rw [length_entries_eq_length_keys, length_entries_eq_length_keys, keys_insert,
    length_cons, List.length_erase_of_mem hkeys]
  omega

theorem length_insert_of_notMem {jobs : AList fun _ : Uuid => ScheduledJob}
    (h : jobId ∉ jobs) (job : ScheduledJob) :
    (jobs.insert jobId job).entries.length = jobs.entries.length + 1 := by
  rw [insert_of_notMem h]
  rfl

variable {b : Books} {reliances : Reliances} {jobId : Uuid}

theorem Books.mem_of_job?_eq_some {job : ScheduledJob} (h : b.job? jobId = some job) :
    jobId ∈ b.scheduler.jobs :=
  lookup_isSome.1 (Option.isSome_of_eq_some h)

theorem Books.job?_removeJob (b : Books) (remover : Remover) (jobId id : Uuid) :
    (b.removeJob remover jobId).job? id = if id = jobId then none else b.job? id := by
  by_cases heq : id = jobId
  · rw [if_pos heq, heq]
    exact lookup_erase _ _
  · rw [if_neg heq]
    exact lookup_erase_ne heq

theorem shrinks_removeJob {remover : Remover} (hright : ∀ r ∈ b.removal remover jobId, r.Right) :
    Shrinks b (b.removeJob remover jobId) where
  length := by
    show (b.scheduler.jobs.erase jobId).entries.length ≤ _
    rw [length_entries_eq_length_keys, length_entries_eq_length_keys, keys_erase]
    exact List.length_erase_le
  fixed := rfl
  kept := by
    intro id job hjob
    rw [job?_removeJob] at hjob
    split at hjob
    · cases hjob
    · exact ⟨job, hjob, fun h => h⟩
  settled := fun _ hid => hid
  removals := fun r hr => (mem_append.1 hr).imp_right (hright r)

/-- Changing an entry to one that is as removable as before adds no job. -/
theorem shrinks_modifyJob (b : Books) (jobId : Uuid) {f : ScheduledJob → ScheduledJob}
    (hf : ∀ job, job.removable = true → (f job).removable = true) :
    Shrinks b (b.modifyJob jobId f) := by
  unfold modifyJob
  cases hjob : b.job? jobId with
  | none => exact .of_jobs_eq rfl rfl (fun _ hid => hid) rfl
  | some job =>
    have hmem : jobId ∈ b.scheduler.jobs := mem_of_job?_eq_some hjob
    refine ⟨(length_insert_of_mem hmem _).le, rfl, ?_, fun _ hid => hid, fun _ => .inl⟩
    intro id job' hjob'
    by_cases heq : id = jobId
    · have hnew : job' = f job := by
        rw [heq] at hjob'
        exact (Option.some.inj ((lookup_insert _).symm.trans hjob')).symm
      rw [heq, hnew]
      exact ⟨job, hjob, hf job⟩
    · have hold : b.job? id = some job' := (lookup_insert_ne heq).symm.trans hjob'
      exact ⟨job', hold, fun h => h⟩

theorem removable_iff (job : ScheduledJob) :
    job.removable = true ↔ job.finished = true ∧ job.pendingCancelPersist = false := by
  simp [ScheduledJob.removable]

/-- A removal record is of the job that was looked up. -/
theorem mem_removal {remover : Remover} {r : JobRemoval} (h : r ∈ b.removal remover jobId) :
    b.job? jobId = some r.job ∧ r.settled = decide (jobId ∈ b.settled) ∧ r.remover = remover := by
  obtain ⟨job, hjob, rfl⟩ := mem_map.1 h
  exact ⟨Option.mem_toList.1 hjob, rfl, rfl⟩

/-- Removing a removable entry is right, whoever does it. -/
theorem right_of_removable (remover : Remover)
    (h : ∀ job, b.job? jobId = some job → job.removable = true) :
    ∀ r ∈ b.removal remover jobId, r.Right := by
  intro r hr
  have hjob := (removable_iff r.job).1 (h r.job (mem_removal hr).1)
  exact ⟨fun _ => hjob.1, fun hpending => absurd hpending (by simp [hjob.2])⟩

/-- Removing removable entries one after the other is right. -/
theorem shrinks_removeAll (ids : List Uuid) (b : Books)
    (h : ∀ id ∈ ids, ∀ job, b.job? id = some job → job.removable = true) :
    Shrinks b (ids.foldl (fun b jobId => b.removeJob .cleanupFinished jobId) b) := by
  induction ids generalizing b with
  | nil => exact .of_jobs_eq rfl rfl (fun _ hid => hid) rfl
  | cons id ids ih =>
    have hfirst := shrinks_removeJob
      (right_of_removable .cleanupFinished (h id (mem_cons_self ..)))
    refine hfirst.trans (ih _ fun id' hid' job' hjob' => ?_)
    obtain ⟨job, hjob, himp⟩ := hfirst.kept id' job' hjob'
    exact himp (h id' (mem_cons_of_mem _ hid') job hjob)

theorem removable_of_mem_filter (b : Books) :
    ∀ id ∈ (b.scheduler.jobs.entries.filter fun entry => entry.2.removable).map Sigma.fst,
      ∀ job, b.job? id = some job → job.removable = true := by
  intro id hid job hjob
  obtain ⟨entry, hentry, rfl⟩ := mem_map.1 hid
  obtain ⟨hmem, hremovable⟩ := mem_filter.1 hentry
  have hlookup : b.job? entry.1 = some entry.2 := mem_lookup_iff.2 hmem
  rw [hlookup, Option.some.injEq] at hjob
  exact hjob ▸ hremovable

/-! ## Steps that add or pin a job -/

/-- A step that changes the entry of one job keeps the books if no running background task has
decided to remove it and the limit is respected. -/
theorem BooksInv.setEntry {job : ScheduledJob} (h : BooksInv b reliances)
    (hdecided : jobId ∉ b.decided) {scheduler : SchedulerState}
    (hjobs : scheduler.jobs = b.scheduler.jobs.insert jobId job)
    (hcapacity : scheduler.jobs.entries.length ≤ scheduler.config.maxParallelJobs) :
    BooksInv { b with scheduler } reliances where
  capacity := hcapacity
  right := h.right
  decided := h.decided
  removable := by
    intro id hid job' hjob'
    have hne : id ≠ jobId := by
      rintro rfl
      exact hdecided (Multiset.mem_coe.1 (Multiset.mem_of_le h.decided hid))
    have hold : b.job? id = some job' := by
      rw [job?, hjobs, lookup_insert_ne hne] at hjob'
      exact hjob'
    exact h.removable id hid job' hold
  settled := h.settled

theorem BooksInv.schedule (h : BooksInv b reliances) {now : Timestamp}
    {approvalContext : Option ApprovalContext}
    (hok : NotOvertaken (.schedule now jobId approvalContext) b) :
    BooksInv { b with scheduler := (scheduleWithContext now jobId approvalContext b.scheduler).2 }
      reliances := by
  obtain ⟨hconfig, hjobs | ⟨hmem, hfree, hjobs⟩⟩ :=
    scheduleWithContext_cases now jobId approvalContext b.scheduler
  · exact h.shrinks (.of_jobs_eq hjobs (by rw [hconfig]) (fun _ hid => hid) rfl)
  · refine h.setEntry (hok.resolve_left hmem) hjobs ?_
    rw [hconfig, hjobs, length_insert_of_notMem hmem]
    exact hfree

theorem BooksInv.pin (h : BooksInv b reliances)
    (hok : NotOvertaken (.pinCancelPersistAndAbort jobId) b) (f : ScheduledJob → ScheduledJob) :
    BooksInv (b.modifyJob jobId f) reliances := by
  unfold modifyJob
  cases hjob : b.job? jobId with
  | none => exact h
  | some job =>
    have hmem := mem_of_job?_eq_some hjob
    refine h.setEntry (hok.resolve_left (not_not.2 hmem)) rfl ?_
    rw [length_insert_of_mem hmem]
    exact h.capacity

/-- A background task that finds the job removable relies on it from then on. -/
theorem BooksInv.decide (h : BooksInv b reliances)
    (hall : (b.job? jobId).all ScheduledJob.removable = true) :
    BooksInv { b with decided := jobId :: b.decided } (({jobId}, 0) + reliances) where
  capacity := h.capacity
  right := h.right
  decided := by
    exact Multiset.cons_le_cons jobId h.decided
  removable := by
    intro id hid job hjob
    rcases Multiset.mem_add.1 hid with hnew | hold
    · rw [Multiset.mem_singleton] at hnew
      have hlookup : b.job? jobId = some job := hnew ▸ hjob
      rw [hlookup] at hall
      exact hall
    · exact h.removable id hold job hjob
  settled := by
    intro id hid
    exact h.settled id (by simpa using hid)

/-- A background task removes what it has decided to remove. -/
theorem BooksInv.removeDecided (h : BooksInv b (({jobId}, 0) + reliances)) :
    BooksInv { b.removeJob .cleanupTask jobId with decided := b.decided.erase jobId }
      reliances := by
  have hremovable := h.removable jobId (by simp)
  have hinv := h.forget.shrinks (shrinks_removeJob (right_of_removable .cleanupTask hremovable))
  refine ⟨hinv.capacity, hinv.right, ?_, hinv.removable, hinv.settled⟩
  have hdecided : jobId ::ₘ reliances.1 ≤ (b.decided : Multiset Uuid) := by
    simpa using h.decided
  have herase := Multiset.erase_le_erase jobId hdecided
  rwa [Multiset.erase_cons_head] at herase

/-- A persisted cancellation is settled for good. -/
theorem BooksInv.settle (h : BooksInv b reliances) (jobId : Uuid) :
    BooksInv { b with settled := jobId :: b.settled } ((0, {jobId}) + reliances) where
  capacity := h.capacity
  right := h.right
  decided := by simpa using h.decided
  removable := by
    intro id hid job hjob
    exact h.removable id (by simpa using hid) job hjob
  settled := by
    intro id hid
    rcases Multiset.mem_add.1 hid with hnew | hold
    · exact mem_cons.2 (.inl (Multiset.mem_singleton.1 hnew))
    · exact mem_cons_of_mem _ (h.settled id hold)

/-- A stopped job is removed once its cancellation is settled. -/
theorem BooksInv.finalizeStop (h : BooksInv b ((0, {jobId}) + reliances)) :
    BooksInv (b.removeJob .finalizeStop jobId) reliances := by
  have hsettled : jobId ∈ b.settled := h.settled jobId (by simp)
  refine h.forget.shrinks (shrinks_removeJob fun r hr => ?_)
  have hremoval := mem_removal hr
  exact ⟨fun hremover => absurd hremover (by rw [hremoval.2.2]; decide),
    fun _ => by rw [hremoval.2.1]; exact decide_eq_true hsettled⟩

/-- The critical sections that need no reliance. -/
def NeedsNoReliance : SchedulerOp → Prop
  | .removeDecided _ => False
  | .finalizeStop _ => False
  | _ => True

/-- Every other critical section keeps the books on its own. -/
theorem BooksInv.exec (h : BooksInv b reliances) {op : SchedulerOp} (hop : NeedsNoReliance op)
    (hok : NotOvertaken op b) : BooksInv (op.exec b).2 reliances := by
  cases op with
  | schedule now jobId approvalContext => exact h.schedule hok
  | decideRemoval jobId =>
    by_cases hall : (b.job? jobId).all ScheduledJob.removable = true
    · simp only [SchedulerOp.exec, if_pos hall]
      exact (h.decide hall).forget
    · simp only [SchedulerOp.exec, if_neg hall]
      exact h
  | removeDecided jobId => exact hop.elim
  | hasJob jobId => exact h
  | transitionToCancelled now jobId reason =>
    exact h.shrinks (.of_jobs_eq rfl rfl (fun _ hid => hid) rfl)
  | pinCancelPersistAndAbort jobId => exact h.pin hok _
  | persistCancelledStatus jobId answer =>
    simp only [SchedulerOp.exec]
    split
    · exact h
    · exact h.shrinks (.of_jobs_eq rfl rfl (fun _ hid => mem_cons_of_mem _ hid) rfl)
  | finalizeStop jobId => exact hop.elim
  | cleanupFinishedJobs =>
    exact h.shrinks (shrinks_removeAll _ b (removable_of_mem_filter b))
  | workerFinishes jobId =>
    refine h.shrinks (shrinks_modifyJob b jobId ?_)
    intro job hjob
    exact (removable_iff _).2 ⟨rfl, ((removable_iff job).1 hjob).2⟩
  | contextOp jobId op => exact h.shrinks (.of_jobs_eq rfl rfl (fun _ hid => hid) rfl)

/-! ## Calls -/

open SchedulerOp

/-- The rule for a call of the scheduler. -/
abbrev KeepsBooks {α : Type} (p : SchedulerProgram α) : Prop :=
  Safe exec NotOvertaken BooksInv p 0 fun _ _ => True

/-- A program without the two removals that rest on an earlier step keeps the books. -/
theorem safe_of_needsNoReliance {α : Type} {p : SchedulerProgram α} (h : p.Only NeedsNoReliance) :
    Safe exec NotOvertaken BooksInv p 0 fun _ reliances => reliances = 0 :=
  Safe.of_only (fun _ _ _ hop hok hinv => hinv.exec hop hok) h 0

theorem keepsBooks_locked (op : SchedulerOp) (h : NeedsNoReliance op) : KeepsBooks (locked op) :=
  (safe_of_needsNoReliance (Program.only_perform h)).mono fun _ _ _ => trivial

theorem keepsBooks_cleanupTask (checks : Nat) (jobId : Uuid) :
    KeepsBooks (cleanupTask checks jobId) := by
  induction checks with
  | zero => exact trivial
  | succ checks ih =>
    intro b others hinv _
    rw [zero_add] at hinv
    by_cases hall : (b.job? jobId).all ScheduledJob.removable = true
    · refine ⟨({jobId}, 0), ?_, ?_⟩
      · simp only [exec, if_pos hall]
        exact hinv.decide hall
      · simp only [exec, if_pos hall]
        intro b' others' hinv' _
        exact ⟨0, by rw [zero_add]; exact hinv'.removeDecided, trivial⟩
    · refine ⟨0, ?_, ?_⟩
      · simp only [exec, if_neg hall, zero_add]
        exact hinv
      · simp only [exec, if_neg hall]
        exact ih

theorem stopInMemory_needsNoReliance (now : Timestamp) (jobId : Uuid) (reason : String) :
    (stopInMemory now jobId reason).Only NeedsNoReliance := by
  refine ⟨trivial, fun found => ?_⟩
  cases found with
  | false => exact trivial
  | true =>
    refine ⟨trivial, fun answer => ?_⟩
    cases answer with
    | error e => exact trivial
    | ok _ => exact ⟨trivial, fun _ => trivial⟩

/-- The job is removed only when its cancellation is known to be settled. -/
theorem keepsBooks_persistAndFinalize (jobId : Uuid) (answer : Except String Unit) :
    KeepsBooks (persistAndFinalize jobId answer) := by
  intro b others hinv _
  rw [zero_add] at hinv
  cases hanswer : if b.scheduler.hasStore then answer else .ok () with
  | error e =>
    refine ⟨0, ?_, ?_⟩
    · simp only [exec, hanswer, zero_add]
      exact hinv
    · simp only [exec, hanswer]
      exact trivial
  | ok _ =>
    refine ⟨(0, {jobId}), ?_, ?_⟩
    · simp only [exec, hanswer]
      exact hinv.settle jobId
    · simp only [exec, hanswer]
      intro b' others' hinv' _
      exact ⟨0, by rw [zero_add]; exact hinv'.finalizeStop, trivial⟩

/-- Every call keeps the books, whatever the others do. -/
theorem safe_schedulerCall (p : SchedulerProgram Unit) (hp : IsSchedulerCall p) : KeepsBooks p := by
  obtain ⟨call, rfl⟩ := hp
  cases call with
  | schedule now jobId approvalContext =>
    exact (keepsBooks_locked (.schedule now jobId approvalContext) trivial).bind
      fun _ _ _ => trivial
  | stop now jobId reason answer =>
    have hstop := safe_of_needsNoReliance (stopInMemory_needsNoReliance now jobId reason)
    have hfinalize : KeepsBooks (Scheduler.stop now jobId reason answer) := by
      refine hstop.bind fun stopped reliances hreliances => ?_
      subst hreliances
      cases stopped with
      | error e => exact trivial
      | ok _ => exact keepsBooks_persistAndFinalize jobId answer
    exact hfinalize.bind fun _ _ _ => trivial
  | cleanupFinished => exact keepsBooks_locked _ trivial
  | cleanupTask checks jobId => exact keepsBooks_cleanupTask checks jobId
  | workerFinishes _ | contextOp _ _ => exact keepsBooks_locked _ trivial

/-- If no decision of a background task is overtaken, the books are in order in every
interleaving. -/
theorem books_inOrder {config : SchedulerConfig} {contextManager : ContextManager}
    {hasStore : Bool} {c : Config SchedulerOp SchedulerOp.Resp Books}
    (hc : Reachable exec NotOvertaken IsSchedulerCall
      (new config contextManager hasStore) c) : c.shared.InOrder := by
  obtain ⟨reliances, -, hinv⟩ :=
    adequacy safe_schedulerCall (BooksInv.new config contextManager hasStore) hc
  exact ⟨hinv.capacity, fun r hr => (hinv.right r hr).1, fun r hr => (hinv.right r hr).2⟩

/-! ## Sample runs -/

/-- The books of a scheduler that knows one pending job. -/
def pendingBooks : Books :=
  new { maxParallelJobs := 2, maxTokensPerJob := 0 }
    (ContextManager.createContext 0 "user" "title" "description" (ContextManager.new 2)).2 true

/-- Run choices of the scheduler on the books of one pending job. -/
def runBooks (moves : List (Move SchedulerCall)) : Config SchedulerOp SchedulerOp.Resp Books :=
  moves.foldl (Config.move exec SchedulerCall.program) ⟨pendingBooks, []⟩

/-- A call that is started and performs its first critical section. -/
def startCall (i : Nat) (call : SchedulerCall) : List (Move SchedulerCall) :=
  [.spawn call, .advance i]

/-- The job is stopped while it runs, and its cancellation is persisted. -/
def stoppedRun : List (Move SchedulerCall) :=
  startCall 0 (.schedule 1 0 none) ++ startCall 1 (.stop 2 0 "user" (.ok ())) ++
    [.advance 1, .advance 1, .advance 1, .advance 1]

theorem books_inOrder_stopped :
    (runBooks stoppedRun).shared.removals.length = 1 ∧ (runBooks stoppedRun).shared.InOrder :=
  ⟨by decide +kernel, books_inOrder (.of_moves (by decide +kernel))⟩

/-- The job gets stuck and its worker finishes.  After the background task has decided, the job
is cleaned up and scheduled again, and the task removes the new entry. -/
def rescheduledRun : List (Move SchedulerCall) :=
  startCall 0 (.schedule 1 0 none) ++ startCall 1 (.contextOp 0 (.markStuck 2 "timeout")) ++
    startCall 2 (.workerFinishes 0) ++ startCall 3 (.cleanupTask 1 0) ++
    startCall 4 .cleanupFinished ++ startCall 5 (.schedule 3 0 none) ++ [.advance 3]

/-- The job is being stopped when its worker finishes.  After the background task has decided,
the entry is pinned, and the task removes it before the cancellation is persisted. -/
def pinnedRun : List (Move SchedulerCall) :=
  startCall 0 (.schedule 1 0 none) ++ startCall 1 (.stop 2 0 "user" (.ok ())) ++
    startCall 2 (.workerFinishes 0) ++ startCall 3 (.cleanupTask 1 0) ++
    [.advance 1, .advance 1, .advance 3]

/-- A background task removes the entry of a running worker, or an entry that is pinned for a
cancellation that has not been persisted. -/
theorem overtaken_cleanup :
    (∃ c, Reachable exec (fun _ _ => True) IsSchedulerCall pendingBooks c ∧
        ∃ r ∈ c.shared.removals, r.remover = .cleanupTask ∧ r.job.finished = false) ∧
      ∃ c, Reachable exec (fun _ _ => True) IsSchedulerCall pendingBooks c ∧
        ∃ r ∈ c.shared.removals, r.job.pendingCancelPersist = true ∧ r.settled = false :=
  ⟨⟨runBooks rescheduledRun, .of_moves (by decide +kernel), by decide +kernel⟩,
    ⟨runBooks pinnedRun, .of_moves (by decide +kernel), by decide +kernel⟩⟩

end Axinite.Scheduler
