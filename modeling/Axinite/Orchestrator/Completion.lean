import Axinite.Foundation.Schedule
import Axinite.Orchestrator.JobManager
import Mathlib.Algebra.Order.Group.Multiset

/-!
# Completion of a container job

The worker of a container reports its result as soon as it is done, and it may be done before
the call that has created the container stores the identifier in the handle.  This call then
makes the handle `running` again, and the report has not found a container to remove.

What one job is about is seen through its view of the host.  Every call owes duties to the job;
a duty that is owed stands for something that has not happened yet.

Main results:

- Definition `Tidy`: the invariant of the view and the duties that are owed.
- Theorems `createJob_safe` and `completeJob_safe`: the calls keep it in every interleaving in
  which completed jobs are left alone.
- Theorem `completed_job_iff`: a completed job stays completed exactly in these interleavings.
-/

namespace Axinite.Orchestrator

open Foundation Program List

/-! ## The view of a job -/

/-- What the host knows about one job. -/
structure JobView where
  handle : Option ContainerHandle
  ids : List ContainerId
  started : Bool
  results : List CompletionResult
  token : Option Token
  grants : Option (List CredentialGrant)

def Container.belongsTo (container : Container) (job : Uuid) : Bool :=
  container.jobId = some job

open ContainerHandle TokenStore

def Host.view (host : Host) (job : Uuid) : JobView where
  handle := host.registry job
  ids := (host.containers.filter fun container => container.belongsTo job).map Container.id
  started := host.started.contains job
  results := (host.completions.filter fun entry => entry.1 = job).map Prod.snd
  token := host.tokenStore.tokens job
  grants := host.tokenStore.getGrants job

section View

attribute [local simp] HostOp.exec Host.view

variable (host : Host) (job : Uuid)

theorem view_removeToken :
    ((HostOp.removeToken job).exec host).2.view job = { host.view job with token := none } := by
  simp [removeToken, getGrants]

theorem view_removeGrants :
    ((HostOp.removeGrants job).exec host).2.view job = { host.view job with grants := none } := by
  simp [removeGrants, getGrants]

theorem view_insertHandle {handle : ContainerHandle} (h : handle.jobId = job) :
    ((HostOp.insertHandle handle).exec host).2.view job =
      { host.view job with handle := some handle } := by
  simp [h]

theorem view_removeHandle :
    ((HostOp.removeHandle job).exec host).2.view job = { host.view job with handle := none } := by
  simp

theorem view_setContainerId (id : ContainerId) :
    ((HostOp.setContainerId job id).exec host).2.view job =
      { host.view job with handle := (host.view job).handle.map (assign id) } := by
  simp

theorem view_setCompletion (result : CompletionResult) :
    ((HostOp.setCompletion job result).exec host).2.view job =
      { host.view job with
        handle := (host.view job).handle.map (complete result)
        results := result :: (host.view job).results } := by
  simp

theorem view_createContainer (now : Timestamp) :
    ((HostOp.createContainer job now (.ok ())).exec host).2.view job =
      { host.view job with ids := (host.view job).ids ++ [host.nextContainer] } := by
  simp [Container.belongsTo]

/-- A change of a container that keeps its identity does not change the identifiers. -/
theorem ids_modifyContainer (id : ContainerId) {f : Container → Container}
    (hid : ∀ container, (f container).id = container.id)
    (hjob : ∀ container, (f container).jobId = container.jobId) :
    ((host.modifyContainer id f).view job).ids = (host.view job).ids := by
  simp only [Host.view, Host.modifyContainer_containers]
  induction host.containers with
  | nil => rfl
  | cons container containers ih =>
    have hsame : (if container.id = id then f container else container).belongsTo job =
        container.belongsTo job := by
      split
      · rw [Container.belongsTo, hjob, Container.belongsTo]
      · rfl
    have hid' : (if container.id = id then f container else container).id = container.id := by
      split
      · exact hid _
      · rfl
    rw [map_cons, filter_cons, filter_cons, hsame]
    split
    · rw [map_cons, map_cons, hid', ih]
    · exact ih

theorem mem_jobsOf_iff (id : ContainerId) : job ∈ host.jobsOf id ↔ id ∈ (host.view job).ids := by
  simp only [Host.jobsOf, Host.view, mem_filterMap, mem_map, mem_filter,
    Container.belongsTo, decide_eq_true_eq]
  constructor
  · rintro ⟨container, ⟨hmem, hid⟩, hjob⟩
    exact ⟨container, ⟨hmem, hjob⟩, hid⟩
  · rintro ⟨container, ⟨hmem, hjob⟩, hid⟩
    exact ⟨container, ⟨hmem, hid⟩, hjob⟩

theorem view_startContainer (id : ContainerId) :
    ((HostOp.startContainer id (.ok ())).exec host).2.view job =
      { host.view job with
        started := (host.view job).ids.contains id || (host.view job).started } := by
  have hids := ids_modifyContainer host job id
    (f := fun container => { container with running := true }) (fun _ => rfl) (fun _ => rfl)
  have hstarted : (host.jobsOf id ++ host.started).contains job =
      ((host.view job).ids.contains id || (host.view job).started) := by
    rw [Bool.eq_iff_iff]
    simp [mem_jobsOf_iff]
  rw [← hstarted]
  simpa using hids

theorem view_stopContainer (id : ContainerId) (answer : Answer) :
    ((HostOp.stopContainer id answer).exec host).2.view job = host.view job := by
  cases answer with
  | error e => rfl
  | ok _ =>
    have hids := ids_modifyContainer host job id
      (f := fun container => { container with running := false }) (fun _ => rfl) (fun _ => rfl)
    simpa using hids

theorem view_removeContainer (id : ContainerId) :
    ((HostOp.removeContainer id (.ok ())).exec host).2.view job =
      { host.view job with ids := (host.view job).ids.filter fun other => other ≠ id } := by
  simp only [Host.view, filter_map]
  simp [Bool.and_comm]

end View

/-! ## Duties -/

/-- How far the call has come that creates the job. -/
inductive Phase where
  | begun
  | inserted
  | created (id : ContainerId)
  | started (id : ContainerId)

/-- What the calls of the job have not done yet. -/
inductive Duty where
  /-- The identifier of the container is not in the handle yet. -/
  | creating (phase : Phase)
  /-- A completion has not looked for the container yet. -/
  | readId
  /-- A completion is going to remove this container. -/
  | remove (id : ContainerId)
  | revokeToken
  | revokeGrants

def Duty.isCreating : Duty → Bool
  | creating _ => true
  | _ => false

/-- The handle is in the registry, without a container. -/
def JobView.Bare (v : JobView) : Prop :=
  ∃ handle, v.handle = some handle ∧ handle.containerId = none

/-- What holds in a phase of the creation. -/
def JobView.InPhase (v : JobView) : Phase → Prop
  | .begun => v.started = false ∧ v.ids = []
  | .inserted => v.started = false ∧ v.ids = [] ∧ v.Bare
  | .created id => v.started = false ∧ (∀ other ∈ v.ids, other = id) ∧ v.Bare
  | .started id => (∀ other ∈ v.ids, other = id) ∧ v.Bare

open Duty

variable {phase : Phase}

section Tidy

variable (reliable : Prop)

/-- The job is in order, up to the duties that are owed.  Containers are removed for sure only
if the daemon is reliable. -/
structure Tidy (v : JobView) (duties : Multiset Duty) : Prop where
  single : duties.countP (fun duty => duty.isCreating) ≤ 1
  phase : ∀ phase, creating phase ∈ duties → v.InPhase phase
  present : v.started = true → ∃ handle, v.handle = some handle
  assigned : ∀ handle id, v.handle = some handle → handle.containerId = some id →
    ∀ other ∈ v.ids, other = id
  unassigned : (∀ phase, creating phase ∉ duties) → v.started = true →
    ∀ handle, v.handle = some handle → ∃ id, handle.containerId = some id
  reported : ∀ handle result, v.handle = some handle → handle.completionResult = some result →
    result ∈ v.results
  completed : ∀ result ∈ v.results, v.started = true ∧ ∃ handle, v.handle = some handle ∧
    handle.state = .stopped ∧ handle.completionResult = some result
  cleaned : reliable → v.results ≠ [] → (∀ phase, creating phase ∉ duties) →
    ∀ id ∈ v.ids, readId ∈ duties ∨ remove id ∈ duties
  token : v.results ≠ [] → v.token ≠ none → revokeToken ∈ duties
  grants : v.results ≠ [] → v.grants ≠ none → revokeGrants ∈ duties

variable {reliable} {v : JobView} {duties others : Multiset Duty}

theorem Tidy.started_of_result (h : Tidy reliable v duties) (hne : v.results ≠ []) :
    v.started = true := by
  obtain ⟨result, hresult⟩ := exists_mem_of_ne_nil _ hne
  exact (h.completed _ hresult).1

/-- Nothing is reported before the container has been started. -/
theorem Tidy.results_eq_nil (h : Tidy reliable v duties) (hstarted : v.started = false) :
    v.results = [] := by
  by_contra hne
  rw [h.started_of_result hne] at hstarted
  cases hstarted

/-- No other call creates the job. -/
theorem Tidy.alone (h : Tidy reliable v ({.creating phase} + others)) :
    ∀ other, creating other ∉ others := by
  intro other hother
  have hsingle := h.single
  have hcount : 0 < others.countP (fun duty => duty.isCreating) :=
    Multiset.countP_pos.2 ⟨_, hother, rfl⟩
  rw [Multiset.countP_add, Multiset.countP_eq_card.2 (by simp [isCreating])] at hsingle
  rw [Multiset.card_singleton] at hsingle
  omega

/-- A phase does not depend on what completions change. -/
theorem JobView.InPhase.mono {v' : JobView} (h : v.InPhase phase)
    (hstarted : v'.started = v.started) (hids : v'.ids ⊆ v.ids) (hbare : v.Bare → v'.Bare) :
    v'.InPhase phase := by
  have hnil : v.ids = [] → v'.ids = [] := fun hnil => subset_nil.1 (hnil ▸ hids)
  cases phase with
  | begun => exact ⟨hstarted.trans h.1, hnil h.2⟩
  | inserted => exact ⟨hstarted.trans h.1, hnil h.2.1, hbare h.2.2⟩
  | created id =>
    exact ⟨hstarted.trans h.1, fun other hother => h.2.1 other (hids hother), hbare h.2.2⟩
  | started id => exact ⟨fun other hother => h.1 other (hids hother), hbare h.2⟩

/-- In a phase with a handle the handle knows no container. -/
theorem JobView.InPhase.ids_of_assigned (h : v.InPhase phase)
    {handle : ContainerHandle} (hhandle : v.handle = some handle) {id : ContainerId}
    (hid : handle.containerId = some id) : v.ids = [] := by
  have hbare : ¬ v.Bare := by
    rintro ⟨bare, hbare, hnone⟩
    rw [hhandle] at hbare
    cases hbare
    rw [hid] at hnone
    cases hnone
  cases phase with
  | begun => exact h.2
  | inserted | created _ => exact absurd h.2.2 hbare
  | started other => exact absurd h.2 hbare

/-- Duties of completions do not count as creations. -/
theorem countP_isCreating_add {own : Multiset Duty} (hown : ∀ phase, creating phase ∉ own)
    (others : Multiset Duty) :
    (own + others).countP (fun duty => duty.isCreating) =
      others.countP (fun duty => duty.isCreating) := by
  have hnone : own.countP (fun duty => duty.isCreating) = 0 := by
    refine Multiset.countP_eq_zero.2 fun duty hduty hcreating => ?_
    cases duty with
    | creating phase => exact hown _ hduty
    | _ => cases hcreating
  rw [Multiset.countP_add, hnone, zero_add]

/-- A job without a report is in order in every phase of its creation. -/
theorem tidy_creating (halone : ∀ other, creating other ∉ others)
    (hphase : v.InPhase phase) (hresults : v.results = [])
    (hpresent : v.started = true → ∃ handle, v.handle = some handle)
    (hreported : ∀ handle, v.handle = some handle → handle.completionResult = none) :
    Tidy reliable v ({.creating phase} + others) where
  single := by
    rw [add_comm, countP_isCreating_add halone]
    exact le_of_le_of_eq (Multiset.countP_le_card _ _) (Multiset.card_singleton _)
  phase := by
    intro other hother
    rcases Multiset.mem_add.1 hother with hown | hothers
    · cases Multiset.mem_singleton.1 hown
      exact hphase
    · exact absurd hothers (halone _)
  present := hpresent
  assigned := by
    intro handle id hhandle hid other hother
    rw [hphase.ids_of_assigned hhandle hid] at hother
    cases hother
  unassigned := fun hnone => (hnone phase (by simp)).elim
  reported := by
    intro handle result hhandle hresult
    rw [hreported _ hhandle] at hresult
    cases hresult
  completed := by simp [hresults]
  cleaned := fun _ hne => absurd hresults hne
  token := absurd hresults
  grants := absurd hresults

/-- Once the identifier is in the handle, or the creation has been given up, nothing is owed
for the creation any more. -/
theorem tidy_created (halone : ∀ other, creating other ∉ others) (hresults : v.results = [])
    (hpresent : v.started = true → ∃ handle, v.handle = some handle)
    (hassigned : ∀ handle, v.handle = some handle → handle.completionResult = none ∧
      ∃ id, handle.containerId = some id ∧ ∀ other ∈ v.ids, other = id) :
    Tidy reliable v (0 + others) where
  single := by
    rw [add_comm, countP_isCreating_add halone]
    exact Nat.zero_le 1
  phase := fun other hother => absurd (by simpa using hother) (halone other)
  present := hpresent
  assigned := by
    intro handle id hhandle hid
    obtain ⟨_, id', hid', hids⟩ := hassigned handle hhandle
    rw [hid] at hid'
    cases hid'
    exact hids
  unassigned := by
    intro _ _ handle hhandle
    obtain ⟨_, id, hid, _⟩ := hassigned handle hhandle
    exact ⟨id, hid⟩
  reported := by
    intro handle result hhandle hresult
    rw [(hassigned _ hhandle).1] at hresult
    cases hresult
  completed := by simp [hresults]
  cleaned := fun _ hne => absurd hresults hne
  token := absurd hresults
  grants := absurd hresults

/-- A completion exchanges its duties.  Its steps leave the handle and the results alone, and
they may take containers, the token and the grants away. -/
theorem Tidy.exchange {own own' : Multiset Duty} {ids : List ContainerId} {token : Option Token}
    {grants : Option (List CredentialGrant)} (h : Tidy reliable v (own + others))
    (hown : ∀ phase, creating phase ∉ own) (hown' : ∀ phase, creating phase ∉ own')
    (hids : ids ⊆ v.ids)
    (hcleaned : reliable → v.results ≠ [] → (∀ phase, creating phase ∉ others) →
      ∀ id ∈ ids, readId ∈ own' + others ∨ remove id ∈ own' + others)
    (htoken : v.results ≠ [] → token ≠ none → revokeToken ∈ own' + others)
    (hgrants : v.results ≠ [] → grants ≠ none → revokeGrants ∈ own' + others) :
    Tidy reliable { v with ids, token, grants } (own' + others) where
  single := by
    have hsingle := h.single
    rw [countP_isCreating_add hown] at hsingle
    rwa [countP_isCreating_add hown']
  phase := by
    intro phase hphase
    have hothers := (Multiset.mem_add.1 hphase).resolve_left (hown' _)
    exact (h.phase _ (Multiset.mem_add.2 (.inr hothers))).mono rfl hids fun hbare => hbare
  present := h.present
  assigned := fun handle id hsome hid other hother =>
    h.assigned handle id hsome hid other (hids hother)
  unassigned := by
    refine fun hnone => h.unassigned fun phase hphase => ?_
    rcases Multiset.mem_add.1 hphase with hmem | hmem
    · exact hown _ hmem
    · exact hnone _ (Multiset.mem_add.2 (.inr hmem))
  reported := h.reported
  completed := h.completed
  cleaned := fun hreliable hne hnone => hcleaned hreliable hne fun phase hphase =>
    hnone phase (Multiset.mem_add.2 (.inr hphase))
  token := htoken
  grants := hgrants

/-- Before anything is reported, the handle has no result. -/
theorem Tidy.unreported (h : Tidy reliable v duties) (hresults : v.results = []) :
    ∀ handle, v.handle = some handle → handle.completionResult = none := by
  intro handle hhandle
  cases hresult : handle.completionResult with
  | none => rfl
  | some result =>
    have hmem := h.reported _ _ hhandle hresult
    rw [hresults] at hmem
    cases hmem

/-- The creation goes on with the same handle. -/
theorem Tidy.progress {v' : JobView} {phase phase' : Phase}
    (h : Tidy reliable v ({.creating phase} + others)) (hstarted : v.started = false)
    (hphase : v'.InPhase phase') (hhandle : v'.handle = v.handle)
    (hresults : v'.results = v.results)
    (hpresent : v'.started = true → ∃ handle, v'.handle = some handle) :
    Tidy reliable v' ({.creating phase'} + others) := by
  have hnil := h.results_eq_nil hstarted
  refine tidy_creating h.alone hphase (hresults.trans hnil) hpresent ?_
  rw [hhandle]
  exact h.unreported hnil

end Tidy

/-! ## Guards -/

section Guards

variable (job : Uuid)

/-- The report that the operation records. -/
def HostOp.report? : HostOp → Option (Uuid × CompletionResult)
  | .setCompletion jobId result => some (jobId, result)
  | _ => none

/-- The job whose handle the operation sets running. -/
def HostOp.assigned? : HostOp → Option Uuid
  | .setContainerId jobId _ => some jobId
  | _ => none

/-- What the daemon answers when it is asked for a connection or for a removal. -/
def HostOp.removal? : HostOp → Option Answer
  | .connect answer => some answer
  | .removeContainer _ answer => some answer
  | _ => none

/-- The worker reports after its container has been started. -/
def ReportsStarted (op : HostOp) (host : Host) : Prop :=
  ∀ report ∈ op.report?, report.1 = job → job ∈ host.started
  deriving Decidable

/-- A completed job is left alone: its handle is not set running, and its result is not
replaced by another one. -/
def KeepsCompleted (op : HostOp) (host : Host) : Prop :=
  (∀ jobId ∈ op.assigned?, jobId = job →
    ∀ handle ∈ host.registry job, handle.completionResult = none) ∧
  ∀ report ∈ op.report?, report.1 = job →
    ∀ handle ∈ host.registry job, ∀ result ∈ handle.completionResult, result = report.2
  deriving Decidable

/-- The daemon does what it is asked for when a container is removed. -/
def DockerSucceeds (op : HostOp) (_ : Host) : Prop :=
  ∀ answer ∈ op.removal?, answer.isOk = true
  deriving Decidable

/-- The operations of the interleavings in which completed jobs are left alone. -/
def Orderly (reliable : Prop) (op : HostOp) (host : Host) : Prop :=
  ReportsStarted job op host ∧ KeepsCompleted job op host ∧ (reliable → DockerSucceeds op host)

/-- The invariant of an interleaving. -/
def JobInv (reliable : Prop) (host : Host) (duties : Multiset Duty) : Prop :=
  Tidy reliable (host.view job) duties

end Guards

/-! ## Safety of the calls -/

open List.Subset

variable {duties : Multiset Duty} {op : HostOp}

section Safety

variable {job : Uuid} {reliable : Prop} {α : Type}

/-- A program of the job, with the duties it owes at the beginning and at the end. -/
abbrev SafeJob (job : Uuid) (reliable : Prop) (program : HostProgram α) (duties : Multiset Duty)
    (post : α → Multiset Duty → Prop) : Prop :=
  Safe HostOp.exec (Orderly job reliable) (JobInv job reliable) program duties post

/-- Rule for one operation: what it makes of the view keeps the job in order. -/
theorem safe_on {next : op.Resp → HostProgram α}
    (after : op.Resp → Multiset Duty) {post : α → Multiset Duty → Prop}
    (hop : ∀ host others, Tidy reliable (host.view job) (duties + others) →
      Orderly job reliable op host →
      Tidy reliable ((op.exec host).2.view job) (after (op.exec host).1 + others))
    (hnext : ∀ r, SafeJob job reliable (next r) (after r) post) :
    SafeJob job reliable (on op >>= next) duties post := by
  intro host others hinv hok
  exact ⟨after _, hop host _ hinv hok, hnext _⟩

/-- The creation is given up before the container has been started. -/
theorem abandonJob_safe (hphase : ∀ v : JobView, v.InPhase phase → v.started = false) :
    SafeJob job reliable (abandonJob job) {.creating phase} fun _ duties => duties = 0 := by
  refine safe_on (fun _ => {.creating phase}) ?_ fun _ => ?_
  · intro host others h _
    have hin := h.phase phase (by simp)
    exact h.progress (hphase _ hin) (hin.mono rfl (refl _) id) rfl rfl h.present
  refine safe_on (fun _ => {.creating phase}) ?_ fun _ => ?_
  · intro host others h _
    have hin := h.phase phase (by simp)
    exact h.progress (hphase _ hin) (hin.mono rfl (refl _) id) rfl rfl h.present
  refine safe_on (fun _ => 0) ?_ fun _ => rfl
  intro host others h _
  have hstarted := hphase _ (h.phase _ (by simp))
  rw [view_removeHandle]
  refine tidy_created h.alone (h.results_eq_nil hstarted) (fun htrue => ?_) fun handle hhandle => ?_
  · rw [hstarted] at htrue
    cases htrue
  · cases hhandle

/-- What is owed after the creation of a container: nothing, or the cleaning up after a container
that has not been started. -/
def CreationEnds {α : Type} : Except OrchestratorError α → Multiset Duty → Prop
  | .ok _, duties => duties = 0
  | .error _, duties =>
    ∃ phase, duties = {.creating phase} ∧ ∀ v : JobView, v.InPhase phase → v.started = false

/-- An operation that leaves the job alone. -/
theorem safe_on_same {next : op.Resp → HostProgram α}
    {post : α → Multiset Duty → Prop} (hview : ∀ host, (op.exec host).2.view job = host.view job)
    (hnext : ∀ r, SafeJob job reliable (next r) duties post) :
    SafeJob job reliable (on op >>= next) duties post := by
  refine safe_on (fun _ => duties) ?_ hnext
  intro host others h _
  rwa [hview]

/-- The started container, or the phase in which its creation has failed. -/
def StartEnds : Except OrchestratorError ContainerId → Multiset Duty → Prop
  | .ok id, duties => duties = {.creating (.started id)}
  | .error _, duties =>
    ∃ phase, duties = {.creating phase} ∧ ∀ v : JobView, v.InPhase phase → v.started = false

/-- What is known after the daemon was asked to create the container. -/
def afterCreate : Except String ContainerId → Multiset Duty
  | .ok id => {.creating (.created id)}
  | .error _ => {.creating .inserted}

/-- What is known after the daemon was asked to start the container. -/
def afterStart (id : ContainerId) : Answer → Multiset Duty
  | .ok _ => {.creating (.started id)}
  | .error _ => {.creating (.created id)}

theorem createAndStartContainer_safe (now : Timestamp) (answers : CreateAnswers) :
    SafeJob job reliable (createAndStartContainer job now answers) {.creating .inserted}
      StartEnds := by
  obtain ⟨_, _, create, start, remove⟩ := answers
  refine safe_on afterCreate ?_ ?_
  · intro host others h _
    cases create with
    | error e => exact h
    | ok _ =>
      have hin := h.phase .inserted (by simp)
      rw [view_createContainer]
      refine h.progress hin.1 ⟨hin.1, fun other hother => ?_, hin.2.2⟩ rfl rfl h.present
      rw [hin.2.1] at hother
      simpa using hother
  · intro created
    cases created with
    | error e => exact ⟨.inserted, rfl, fun v hv => hv.1⟩
    | ok id =>
      refine safe_on (afterStart id) ?_ ?_
      · intro host others h _
        cases start with
        | error e => exact h
        | ok _ =>
          have hin := h.phase (.created id) (by simp [afterCreate])
          obtain ⟨handle, hhandle, hbare⟩ := hin.2.2
          rw [view_startContainer]
          exact h.progress hin.1 ⟨hin.2.1, handle, hhandle, hbare⟩ rfl rfl
            fun _ => ⟨handle, hhandle⟩
      · intro started
        cases started with
        | ok _ => exact rfl
        | error e =>
          refine safe_on (fun _ => {.creating (.created id)}) ?_ fun _ =>
            ⟨.created id, rfl, fun v hv => hv.1⟩
          intro host others h _
          cases remove with
          | error e => exact h
          | ok _ =>
            have hin := h.phase (.created id) (by simp [afterStart])
            rw [view_removeContainer]
            refine h.progress hin.1 ?_ rfl rfl h.present
            exact hin.mono rfl filter_sublist.subset fun hbare => hbare

theorem createJobInner_safe (now : Timestamp) (answers : CreateAnswers) :
    SafeJob job reliable (createJobInner job now answers) {.creating .inserted} CreationEnds := by
  refine safe_on_same (fun _ => rfl) fun connected => ?_
  cases connected with
  | error e => exact ⟨.inserted, rfl, fun v hv => hv.1⟩
  | ok _ =>
    cases answers.binds with
    | error e => exact ⟨.inserted, rfl, fun v hv => hv.1⟩
    | ok _ =>
      refine .bind (createAndStartContainer_safe now _) ?_
      intro started duties hstarted
      cases started with
      | error e => exact hstarted
      | ok id =>
        cases hstarted
        refine safe_on (fun _ => 0) ?_ fun _ => rfl
        intro host others h hok
        have hin := h.phase (.started id) (by simp)
        obtain ⟨handle, hhandle, -⟩ := hin.2
        -- a job with a report may not be set running
        have hnone : handle.completionResult = none := hok.2.1.1 job rfl rfl _ hhandle
        have hnil : (host.view job).results = [] := by
          by_contra hne
          obtain ⟨result, hresult⟩ := exists_mem_of_ne_nil _ hne
          obtain ⟨_, reported, hreported, _, hresult⟩ := h.completed result hresult
          rw [hhandle] at hreported
          cases hreported
          rw [hnone] at hresult
          cases hresult
        rw [view_setContainerId, hhandle]
        refine tidy_created h.alone hnil (fun _ => ⟨_, rfl⟩) ?_
        intro assigned hassigned
        cases hassigned
        exact ⟨hnone, id, rfl, hin.1⟩

/-- A creation that ends keeps the job in order. -/
theorem createJob_safe {params : CreateJobParams} (hjob : params.jobId = job)
    (answers : CreateAnswers) :
    SafeJob job reliable (createJob params answers) {.creating .begun} fun _ duties =>
      duties = 0 := by
  subst hjob
  refine safe_on (fun _ => {.creating .begun}) ?_ fun _ => ?_
  · intro host others h _
    have hin := h.phase .begun (by simp)
    exact h.progress hin.1 hin rfl rfl h.present
  refine safe_on (fun _ => {.creating .begun}) ?_ fun _ => ?_
  · intro host others h _
    have hin := h.phase .begun (by simp)
    exact h.progress hin.1 hin rfl rfl h.present
  refine safe_on (fun _ => {.creating .inserted}) ?_ fun _ => ?_
  · intro host others h _
    have hin := h.phase .begun (by simp)
    rw [view_insertHandle host params.jobId rfl]
    refine tidy_creating h.alone ⟨hin.1, hin.2, params.handle, rfl, rfl⟩
      (h.results_eq_nil hin.1) (fun _ => ⟨params.handle, rfl⟩) ?_
    intro handle hhandle
    cases hhandle
    rfl
  refine .bind (createJobInner_safe _ _) ?_
  intro result duties hend
  cases result with
  | ok _ => exact hend
  | error e =>
    obtain ⟨phase, rfl, hphase⟩ := hend
    exact .bind (abandonJob_safe hphase) fun _ _ hnone => hnone

/-- The duties of a completion that has recorded its result. -/
def recorded : Multiset Duty := {.readId, .revokeToken, .revokeGrants}

/-- The duties of a completion that has found the container. -/
def removing (id : ContainerId) : Multiset Duty := {.remove id, .revokeToken, .revokeGrants}

/-- The duties of a completion that has removed the container. -/
def revoking : Multiset Duty := {.revokeToken, .revokeGrants}

/-- A report makes the job completed, and owes the cleaning up. -/
theorem Tidy.complete {v : JobView} {others : Multiset Duty} {result : CompletionResult}
    (h : Tidy reliable v (0 + others)) (hstarted : v.started = true)
    (hkeeps : ∀ handle ∈ v.handle, ∀ earlier ∈ handle.completionResult, earlier = result) :
    Tidy reliable
      { v with
        handle := v.handle.map (complete result)
        results := result :: v.results }
      (recorded + others) where
  single := by
    rw [countP_isCreating_add (by simp [recorded])]
    simpa using h.single
  phase := by
    intro phase hphase
    have hothers := (Multiset.mem_add.1 hphase).resolve_left (by simp [recorded])
    refine (h.phase _ (by simpa using hothers)).mono rfl (refl _) ?_
    rintro ⟨handle, hhandle, hbare⟩
    exact ⟨handle.complete _, by rw [hhandle]; rfl, hbare⟩
  present := by
    intro _
    obtain ⟨handle, hhandle⟩ := h.present hstarted
    exact ⟨handle.complete _, by rw [hhandle]; rfl⟩
  assigned := by
    intro completed id hcompleted hid
    obtain ⟨handle, hhandle, rfl⟩ := Option.map_eq_some_iff.1 hcompleted
    exact h.assigned _ id hhandle hid
  unassigned := by
    intro hnone _ completed hcompleted
    obtain ⟨handle, hhandle, rfl⟩ := Option.map_eq_some_iff.1 hcompleted
    refine h.unassigned (fun phase hphase => hnone phase ?_) hstarted handle hhandle
    exact Multiset.mem_add.2 (.inr (by simpa using hphase))
  reported := by
    intro completed reported hcompleted hreported
    obtain ⟨handle, hhandle, rfl⟩ := Option.map_eq_some_iff.1 hcompleted
    cases hreported
    exact mem_cons_self
  completed := by
    intro reported hreported
    obtain ⟨handle, hhandle⟩ := h.present hstarted
    refine ⟨hstarted, handle.complete _, by rw [hhandle]; rfl, rfl, ?_⟩
    rcases mem_cons.1 hreported with rfl | hearlier
    · rfl
    · -- an earlier report was the same
      obtain ⟨_, same, hsame, _, hresult⟩ := h.completed reported hearlier
      rw [hhandle] at hsame
      cases hsame
      rw [hkeeps _ hhandle _ hresult]
      rfl
  cleaned := fun _ _ _ _ _ => .inl (by simp [recorded])
  token := fun _ _ => by simp [recorded]
  grants := fun _ _ => by simp [recorded]

/-- The token and the grants are revoked. -/
theorem revoke_safe : SafeJob job reliable (revoke job) revoking fun _ duties => duties = 0 := by
  refine safe_on (fun _ => {.revokeGrants}) ?_ fun _ => ?_
  · intro host others h _
    rw [view_removeToken]
    refine h.exchange (by simp [revoking]) (by simp) (refl _) ?_ ?_ ?_
    · intro hreliable hne hnone id hid
      simpa [revoking] using h.cleaned hreliable hne (by simpa [revoking] using hnone) id hid
    · exact fun _ htoken => absurd rfl htoken
    · exact fun hne hgrants => by simp
  · intro host others h _
    refine ⟨0, ?_, rfl⟩
    show Tidy reliable _ _
    rw [view_removeGrants]
    refine h.exchange (by simp) (by simp) (refl _) ?_ ?_ ?_
    · intro hreliable hne hnone id hid
      simpa using h.cleaned hreliable hne (by simpa using hnone) id hid
    · intro hne htoken
      simpa using h.token hne htoken
    · exact fun _ hgrants => absurd rfl hgrants

/-- What is owed after the handle was asked for the container. -/
def afterRead : Option ContainerId → Multiset Duty
  | none => revoking
  | some id => removing id

theorem creating_notMem_afterRead (found : Option ContainerId) (phase : Phase) :
    creating phase ∉ afterRead found := by
  cases found <;> simp [afterRead, revoking, removing]

theorem mem_afterRead (found : Option ContainerId) {duty : Duty} (h : duty ∈ revoking) :
    duty ∈ afterRead found := by
  cases found with
  | none => exact h
  | some id => exact Multiset.mem_cons_of_mem h

/-- The container is gone, or it may stay because the daemon is not reliable. -/
theorem Tidy.exchange_removing {v : JobView} {others : Multiset Duty} {id : ContainerId}
    (h : Tidy reliable v (removing id + others)) {ids : List ContainerId} (hids : ids ⊆ v.ids)
    (hgone : reliable → id ∉ ids) : Tidy reliable { v with ids } (revoking + others) := by
  refine h.exchange (by simp [removing]) (by simp [revoking]) hids ?_ ?_ ?_
  · intro hreliable hne hnone other hother
    have hothers := h.cleaned hreliable hne (by simpa [removing] using hnone) _ (hids hother)
    have hne' : other ≠ id := by
      rintro rfl
      exact hgone hreliable hother
    simpa [removing, revoking, hne'] using hothers
  · exact fun _ _ => by simp [revoking]
  · exact fun _ _ => by simp [revoking]

/-- What is owed after a connection was asked for. -/
def afterConnect (id : ContainerId) : Answer → Multiset Duty
  | .ok _ => removing id
  | .error _ => revoking

/-- The container that the handle knows is removed. -/
theorem cleanContainer_safe (answers : StopAnswers) :
    SafeJob job reliable (cleanContainer job answers) recorded fun _ duties =>
      duties = revoking := by
  obtain ⟨connect, stop, remove⟩ := answers
  refine safe_on afterRead ?_ fun found => ?_
  · intro host others h _
    have hview : ((HostOp.containerId job).exec host).2.view job = host.view job := rfl
    rw [hview]
    -- a job with a report has a handle, which knows the container unless it is being created
    have hcleaned : reliable → (host.view job).results ≠ [] →
        (∀ phase, Duty.creating phase ∉ others) → ∀ id ∈ (host.view job).ids,
        Duty.remove id ∈ afterRead ((host.view job).handle.bind containerId) := by
      intro hreliable hne hnone id hid
      have hstarted := h.started_of_result hne
      obtain ⟨handle, hhandle⟩ := h.present hstarted
      obtain ⟨assigned, hassigned⟩ :=
        h.unassigned (by simpa [recorded] using hnone) hstarted handle hhandle
      rw [hhandle, Option.bind_some, hassigned, h.assigned _ _ hhandle hassigned id hid]
      simp [afterRead, removing]
    refine h.exchange (by simp [recorded]) (creating_notMem_afterRead _) (refl _) ?_
      (fun _ _ => ?_) fun _ _ => ?_
    · intro hreliable hne hnone id hid
      exact .inr (Multiset.mem_add.2 (.inl (hcleaned hreliable hne hnone id hid)))
    all_goals exact Multiset.mem_add.2 (.inl (mem_afterRead _ (by simp [revoking])))
  · cases found with
    | none => exact rfl
    | some id =>
      refine safe_on (afterConnect id) ?_ fun connected => ?_
      · intro host others h hok
        cases connect with
        | ok _ => exact h
        | error e =>
          exact h.exchange_removing (refl _) fun hreliable =>
            nomatch hok.2.2 hreliable _ rfl
      · cases connected with
        | error e => exact rfl
        | ok _ =>
          refine safe_on_same (fun host => view_stopContainer host job id stop) fun _ => ?_
          refine safe_on (fun _ => revoking) ?_ fun _ => rfl
          intro host others h hok
          cases remove with
          | error e =>
            exact h.exchange_removing (refl _) fun hreliable =>
              nomatch hok.2.2 hreliable _ rfl
          | ok _ =>
            rw [view_removeContainer]
            exact h.exchange_removing filter_sublist.subset fun _ => by simp

/-- A completion keeps the job in order and owes nothing at its end. -/
theorem completeJob_safe (result : CompletionResult) (answers : StopAnswers) :
    SafeJob job reliable (completeJob job result answers) 0 fun _ duties => duties = 0 := by
  refine safe_on (fun _ => recorded) ?_ fun _ => ?_
  · intro host others h hok
    rw [view_setCompletion]
    refine h.complete ?_ (hok.2.1.2 _ rfl rfl)
    exact contains_iff_mem.2 (hok.1 _ rfl rfl)
  · refine .bind (cleanContainer_safe _) ?_
    rintro _ _ rfl
    exact revoke_safe

end Safety

/-! ## Interleavings -/

section Interleavings

/-- A report of the worker of the job. -/
structure Report where
  result : CompletionResult
  answers : StopAnswers

/-- The calls of a job: its creation runs first, and the worker reports while it runs. -/
def creation (params : CreateJobParams) (answers : CreateAnswers) : HostProgram Unit := do
  let _ ← createJob params answers
  pure ()

variable (job : Uuid)

def Report.program (report : Report) : HostProgram Unit :=
  completeJob job report.result report.answers

/-- A configuration of the host. -/
abbrev HostConfig := Config HostOp HostOp.Resp Host

/-- A move of the scheduler. -/
def reportMove (c : HostConfig) (move : Move Report) : HostConfig :=
  c.move HostOp.exec (Report.program job) move

/-- The job has never been seen on the host. -/
def Fresh (host : Host) : Prop :=
  host.registry job = none ∧ (host.view job).ids = [] ∧ job ∉ host.started ∧
    (host.view job).results = []

/-- A job with a result is not set running again, and keeps the result. -/
def StaysCompleted (host : Host) : Prop :=
  ∀ result ∈ (host.view job).results, ∃ handle, host.registry job = some handle ∧
    handle.state ≠ .creating ∧ handle.state ≠ .running ∧ handle.completionResult = some result

/-- Nothing is left of a completed job: its container is removed, and its token and grants are
revoked. -/
def Cleared (host : Host) : Prop :=
  (host.view job).results ≠ [] → (∀ container ∈ host.containers, container.jobId ≠ some job) ∧
    host.tokenStore.tokens job = none ∧ host.tokenStore.getGrants job = none

variable {job} {reliable : Prop}

/-- The tasks of the configuration keep the job in order and owe nothing at their end. -/
def InOrder (job : Uuid) (reliable : Prop) (c : HostConfig) : Prop :=
  ∃ owed, PoolEnds HostOp.exec (Orderly job reliable) (JobInv job reliable) (fun duties => duties = 0)
    owed c.tasks ∧ JobInv job reliable c.shared owed.sum

variable {host : Host}

theorem inOrder_start (hfresh : Fresh job host) {params : CreateJobParams}
    (hjob : params.jobId = job) (answers : CreateAnswers) :
    InOrder job reliable ⟨host, [creation params answers]⟩ := by
  refine ⟨[{.creating .begun}], ?_, ?_⟩
  · refine .cons ?_ .nil
    exact .bind (createJob_safe hjob _) fun _ _ hend => hend
  · have hstarted : (host.view job).started = false := by
      simpa [Host.view] using hfresh.2.2.1
    refine tidy_creating (by simp) ⟨hstarted, hfresh.2.1⟩ hfresh.2.2.2 (fun htrue => ?_) ?_
    · rw [hstarted] at htrue
      cases htrue
    · intro handle hhandle
      have hnone : (host.view job).handle = none := hfresh.1
      rw [hnone] at hhandle
      cases hhandle

variable {c : HostConfig} {move : Move Report}

theorem inOrder_move (h : InOrder job reliable c)
    (hok : c.MoveOk (Orderly job reliable) move) : InOrder job reliable (reportMove job c move) := by
  obtain ⟨owed, hpool, hinv⟩ := h
  have hsteps : Relation.ReflTransGen
      (Step HostOp.exec (Orderly job reliable) fun p => ∃ report, p = Report.program job report) c
      (reportMove job c move) := steps_move (fun report => ⟨report, rfl⟩) hok
  refine steps_preserve_ends ?_ hsteps hpool hinv
  rintro _ ⟨report, rfl⟩
  exact completeJob_safe _ _

theorem moveOk_orderly
    (hreports : c.MoveOk (ReportsStarted job) move) (hkeeps : c.MoveOk (KeepsCompleted job) move)
    (hdocker : reliable → c.MoveOk DockerSucceeds move) :
    c.MoveOk (Orderly job reliable) move := by
  cases move with
  | spawn report => exact trivial
  | advance i =>
    simp only [Config.MoveOk] at hreports hkeeps hdocker ⊢
    cases htask : c.tasks[i]?.getD (ret ()) with
    | ret a => exact trivial
    | act op next =>
      rw [htask] at hreports hkeeps hdocker
      exact ⟨hreports, hkeeps, hdocker⟩

theorem staysCompleted_of_tidy
    (h : Tidy reliable (host.view job) duties) : StaysCompleted job host := by
  intro result hresult
  obtain ⟨_, handle, hhandle, hstate, hkept⟩ := h.completed result hresult
  exact ⟨handle, hhandle, by simp [hstate], by simp [hstate], hkept⟩

/-- An operation that does not leave a completed job alone shows. -/
theorem not_staysCompleted_exec
    (h : Tidy reliable (host.view job) duties) (hnot : ¬ KeepsCompleted job op host) :
    ¬ StaysCompleted job (op.exec host).2 := by
  intro hstays
  cases op with
  | setContainerId jobId id =>
    refine hnot ⟨?_, nofun⟩
    rintro _ ⟨⟩ rfl handle hhandle
    by_contra hsome
    obtain ⟨result, hresult⟩ := Option.ne_none_iff_exists'.1 hsome
    have hreported := h.reported _ _ hhandle hresult
    obtain ⟨running, hrunning, _, hstate, _⟩ := hstays result (by rwa [view_setContainerId])
    have hhandle : host.registry jobId = some handle := hhandle
    obtain rfl : handle.assign id = running := by simpa [HostOp.exec, hhandle] using hrunning
    exact hstate rfl
  | setCompletion jobId result =>
    refine hnot ⟨nofun, ?_⟩
    rintro _ ⟨⟩ rfl handle hhandle earlier hearlier
    have hreported := h.reported _ _ hhandle hearlier
    obtain ⟨kept, hkept, _, _, hresult⟩ := hstays earlier (by
      rw [view_setCompletion]
      exact mem_cons_of_mem _ hreported)
    have hhandle : host.registry jobId = some handle := hhandle
    obtain rfl : handle.complete result = kept := by simpa [HostOp.exec, hhandle] using hkept
    cases hresult
    rfl
  | _ => exact hnot ⟨nofun, nofun⟩

theorem not_staysCompleted_move (h : InOrder job reliable c)
    (hnot : ¬ c.MoveOk (KeepsCompleted job) move) :
    ¬ StaysCompleted job (reportMove job c move).shared := by
  obtain ⟨owed, _, hinv⟩ := h
  cases move with
  | spawn report => exact absurd trivial hnot
  | advance i =>
    simp only [Config.MoveOk] at hnot
    simp only [reportMove, Config.move]
    cases htask : c.tasks[i]?.getD (ret ()) with
    | ret a =>
      rw [htask] at hnot
      exact absurd trivial hnot
    | act op next =>
      rw [htask] at hnot
      exact not_staysCompleted_exec hinv hnot

theorem cleared_of_inOrder (h : InOrder job True c) (hdone : c.Quiescent) :
    Cleared job c.shared := by
  obtain ⟨owed, hpool, hinv⟩ := h
  rw [sum_eq_zero_of_quiescent hpool hdone] at hinv
  intro hne
  refine ⟨?_, ?_, ?_⟩
  · intro container hcontainer hjob
    have hid : container.id ∈ (c.shared.view job).ids := by
      refine mem_map.2 ⟨container, mem_filter.2 ⟨hcontainer, ?_⟩, rfl⟩
      simpa [Container.belongsTo] using hjob
    simpa using hinv.cleaned trivial hne (by simp) _ hid
  · by_contra htoken
    simpa using hinv.token hne htoken
  · by_contra hgrants
    simpa using hinv.grants hne hgrants

/-- In every interleaving of the creation of a job with the reports of its worker, a completed
job stays completed, and nothing is left of it when all calls have returned, exactly if its
handle is not set running after a report and no report changes the result. -/
theorem completed_job_iff (params : CreateJobParams) (answers : CreateAnswers) (host : Host)
    (hfresh : Fresh params.jobId host) (moves : List (Move Report))
    (hreports : Runs.AllSteps (reportMove params.jobId)
      (fun c move => c.MoveOk (ReportsStarted params.jobId) move)
      ⟨host, [creation params answers]⟩ moves) :
    ((∀ c ∈ Runs.visited (reportMove params.jobId) ⟨host, [creation params answers]⟩ moves,
        StaysCompleted params.jobId c.shared) ∧
      (Runs.AllSteps (reportMove params.jobId) (fun c move => c.MoveOk DockerSucceeds move)
          ⟨host, [creation params answers]⟩ moves →
        (moves.foldl (reportMove params.jobId) ⟨host, [creation params answers]⟩).Quiescent →
        Cleared params.jobId
          (moves.foldl (reportMove params.jobId) ⟨host, [creation params answers]⟩).shared)) ↔
      Runs.AllSteps (reportMove params.jobId)
        (fun c move => c.MoveOk (KeepsCompleted params.jobId) move)
        ⟨host, [creation params answers]⟩ moves := by
  have hcompleted : ∀ c : HostConfig, InOrder params.jobId False c →
      StaysCompleted params.jobId c.shared := fun c ⟨_, _, hinv⟩ => staysCompleted_of_tidy hinv
  rw [Runs.forall_mem_visited_iff_of_inv hcompleted
    (fun c move hside hinv hok => inOrder_move hinv (moveOk_orderly hside hok False.elim))
    (fun c move _ hinv hnot => not_staysCompleted_move hinv hnot)
    (inOrder_start hfresh rfl _) hreports]
  refine and_iff_left_of_imp fun hkeeps hdocker hdone => cleared_of_inOrder ?_ hdone
  refine Runs.forall_mem_visited ?_ (inOrder_start hfresh rfl _)
    ((hreports.and hkeeps).and hdocker) _ (Runs.foldl_mem_visited _ _ _)
  intro c move hok hinv
  exact inOrder_move hinv (moveOk_orderly hok.1.1 hok.1.2 fun _ => hok.2)

/-- A job of a worker. -/
def sampleParams : CreateJobParams where
  jobId := 1
  token := "t".toList
  task := "build"
  projectDir := none
  mode := .worker
  credentialGrants := []
  now := 0

def sampleReport : Report where
  result := { success := true, message := none }
  answers := .succeeding

/-- The creation ends before the worker reports. -/
def creationFirst : List (Move Report) :=
  List.replicate 7 (.advance 0) ++ .spawn sampleReport :: List.replicate 7 (.advance 1)

/-- The worker reports before the creation ends. -/
def reportFirst : List (Move Report) :=
  List.replicate 6 (.advance 0) ++ .spawn sampleReport :: List.replicate 7 (.advance 1) ++
    [.advance 0]

/-- The job is created on an empty host. -/
def sampleStart : HostConfig :=
  ⟨.init 1, [creation sampleParams .succeeding]⟩

theorem fresh_init (job : Uuid) (maxJobs : Nat) : Fresh job (.init maxJobs) :=
  ⟨rfl, rfl, not_mem_nil, rfl⟩

theorem creationFirst_completed :
    (∀ c ∈ Runs.visited (reportMove 1) sampleStart creationFirst, StaysCompleted 1 c.shared) ∧
      Cleared 1 (creationFirst.foldl (reportMove 1) sampleStart).shared := by
  have h := (completed_job_iff sampleParams .succeeding (.init 1) (fresh_init 1 1) creationFirst
    (by decide +kernel)).2 (by decide +kernel)
  exact ⟨h.1, h.2 (by decide +kernel) (quiescent_of_allDone (by decide +kernel))⟩

/-- The handle of a completed job is set running, and its container is never removed. -/
theorem reportFirst_resurrected :
    let c := reportFirst.foldl (reportMove 1) sampleStart
    c.Quiescent ∧ Runs.AllSteps (reportMove 1) (fun c move => c.MoveOk (ReportsStarted 1) move)
        sampleStart reportFirst ∧
      (c.shared.registry 1).map state = some .running ∧
      c.shared.containers.map Container.running = [true] ∧
      ¬ StaysCompleted 1 c.shared ∧ ¬ Cleared 1 c.shared := by
  refine ⟨quiescent_of_allDone (by decide +kernel), by decide +kernel, by decide +kernel,
    by decide +kernel, ?_, ?_⟩
  · intro h
    obtain ⟨handle, hhandle, _, hstate, _⟩ := h sampleReport.result (by decide +kernel)
    have hrunning : (some handle).map state = some .running := by
      rw [← hhandle]
      decide +kernel
    exact hstate (by simpa using hrunning)
  · intro h
    have hgone := (h (by decide +kernel)).1
    revert hgone
    decide +kernel

end Interleavings

end Axinite.Orchestrator
