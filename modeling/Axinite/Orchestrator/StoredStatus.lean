import Axinite.Orchestrator.Outcome

/-!
# The stored status of a sandbox job

The status of a sandbox job is written by several tasks.  That the job is running is written by
a spawned task, the outcome by the call that waits for the job.  The report of the worker goes to
the registry only, so without a waiting call nobody writes the outcome.

What one job is about is seen through its status view.  The call that has started the job owns
the stage that the job is in; every other activity leaves the stage alone.

Main results:

- Definition `StatusView.InStage`: what holds in each stage.
- Theorem `startCall_safe`: the call goes through the stages in every interleaving.
- Theorem `stored_outcome_iff`: the interleavings that end with the reported outcome.
-/

namespace Axinite.Orchestrator

open Foundation Program List

/-! ## The status view of a job -/

/-- What the status of one job depends on. -/
structure StatusView where
  handle : Option ContainerHandle
  started : Bool
  results : List CompletionResult
  status : Option SandboxJobStatus
  spawned : List StatusTransition

def Host.stored (host : Host) (job : Uuid) : Option SandboxJobStatus :=
  (host.jobs job).map SandboxJobRecord.status

/-- The results that have been reported for a job. -/
def Host.reported (host : Host) (job : Uuid) : List CompletionResult :=
  (host.completions.filter fun entry => entry.1 = job).map Prod.snd

def Host.statusView (host : Host) (job : Uuid) : StatusView where
  handle := host.registry job
  started := host.started.contains job
  results := host.reported job
  status := host.stored job
  spawned := host.spawned.filter fun transition => transition.jobId = job

open Host ContainerHandle

variable {transition : StatusTransition} {record : SandboxJobRecord}

section View

variable (host : Host) (job : Uuid)

/-- The operation does not change the view of the job. -/
def Silent (op : HostOp) : Prop :=
  ∀ host : Host, (op.exec host).2.statusView job = host.statusView job

theorem statusView_insertHandle {handle : ContainerHandle} (h : handle.jobId = job) :
    ((HostOp.insertHandle handle).exec host).2.statusView job =
      { host.statusView job with handle := some handle } := by
  simp [HostOp.exec, statusView, stored, reported, h]

theorem statusView_removeHandle : ((HostOp.removeHandle job).exec host).2.statusView job =
      { host.statusView job with handle := none } := by
  simp [HostOp.exec, statusView, stored, reported]

theorem statusView_setContainerId (id : ContainerId) :
    ((HostOp.setContainerId job id).exec host).2.statusView job =
      { host.statusView job with
        handle := (host.statusView job).handle.map (assign id) } := by
  simp [HostOp.exec, statusView, stored, reported]

theorem statusView_setCompletion (result : CompletionResult) :
    ((HostOp.setCompletion job result).exec host).2.statusView job =
      { host.statusView job with
        handle := (host.statusView job).handle.map (complete result)
        results := result :: (host.statusView job).results } := by
  simp [HostOp.exec, statusView, stored, reported]

/-- Starting a container changes at most whether the job has been started. -/
theorem statusView_startContainer (id : ContainerId) :
    ∃ started, ((HostOp.startContainer id (.ok ())).exec host).2.statusView job =
      { host.statusView job with started := started } :=
  ⟨_, rfl⟩

theorem statusView_saveSandboxJob (h : record.id = job) :
    ((HostOp.saveSandboxJob record (.ok ())).exec host).2.statusView job =
      { host.statusView job with status := some record.status } := by
  simp [HostOp.exec, statusView, stored, reported, h]

theorem stored_updateStatus (transition : StatusTransition) :
    (host.updateStatus transition).stored job =
      if transition.jobId = job then (host.stored job).map fun _ => transition.status
      else host.stored job := by
  by_cases h : transition.jobId = job
  · subst h
    simp [stored, Function.comp_def, StatusTransition.apply]
  · rw [if_neg h, stored, updateStatus_jobs, Function.update_of_ne (.symm h), stored]

theorem statusView_updateSandboxJobStatus (h : transition.jobId = job) :
    ((HostOp.updateSandboxJobStatus transition (.ok ())).exec host).2.statusView job =
      { host.statusView job with
        status := (host.statusView job).status.map fun _ => transition.status } := by
  have hstored := stored_updateStatus host job transition
  rw [if_pos h] at hstored
  simp [HostOp.exec, statusView, reported, hstored]

theorem statusView_spawnStatusUpdate (h : transition.jobId = job) :
    ((HostOp.spawnStatusUpdate transition).exec host).2.statusView job =
      { host.statusView job with spawned := (host.statusView job).spawned ++ [transition] } := by
  simp [HostOp.exec, statusView, stored, reported, h]

/-- A spawned update that runs is taken from the queue, and it changes the status if it is an
update of the job. -/
theorem statusView_runStatusUpdate (i : Nat) :
    ∃ spawned status, ((HostOp.runStatusUpdate i (.ok ())).exec host).2.statusView job =
        { host.statusView job with spawned := spawned, status := status } ∧
      spawned ⊆ (host.statusView job).spawned ∧
      (status = (host.statusView job).status ∨
        ∃ transition ∈ (host.statusView job).spawned, host.spawned[i]? = some transition ∧
          status = (host.statusView job).status.map fun _ => transition.status) := by
  have hsub : (host.spawned.eraseIdx i).filter (fun transition => transition.jobId = job) ⊆
      (host.statusView job).spawned :=
    ((eraseIdx_sublist _ i).filter _).subset
  cases hi : host.spawned[i]? with
  | none => exact ⟨_, _, by simp only [HostOp.exec, hi]; rfl, hsub, .inl rfl⟩
  | some transition =>
    refine ⟨_, (host.updateStatus _).stored job,
      by simp only [HostOp.exec, hi]; rfl, hsub, ?_⟩
    rw [stored_updateStatus]
    split
    · next hjob =>
      refine .inr ⟨transition, ?_, rfl, rfl⟩
      exact mem_filter.2 ⟨mem_of_getElem? hi, by simpa using hjob⟩
    · exact .inl rfl

end View

/-! ## Stages -/

/-- The status with which a job ends. -/
def outcome (success : Bool) : SandboxJobStatus :=
  if success then .completed else .failed

/-- The status says that the job has ended. -/
def SandboxJobStatus.isTerminal : SandboxJobStatus → Bool
  | completed => true
  | failed => true
  | _ => false

theorem isTerminal_outcome (success : Bool) : (outcome success).isTerminal = true := by
  cases success <;> rfl

/-- How far the call has come that starts the job. -/
inductive Stage where
  | begun
  | saved
  | inserted
  | abandoned
  /-- The container runs; it is not yet stored that the job is running. -/
  | created
  /-- It is stored, or going to be stored, that the job is running. -/
  | running
  /-- A result has been read. -/
  | decided (success : Bool)
  | settled (success : Bool)

namespace StatusView

/-- The handle is there; it is stopped only with a result. -/
def Present (v : StatusView) : Prop :=
  ∃ handle, v.handle = some handle ∧ handle.state ≠ .failed ∧
    (handle.state = .stopped → handle.completionResult ≠ none)

/-- The stored status does not say that the job has ended, and all that is going to be stored
is that it is running. -/
def Open (v : StatusView) : Prop :=
  (∃ status, v.status = some status ∧ status.isTerminal = false) ∧
    ∀ transition ∈ v.spawned, transition.status = .running

/-- What holds in a stage. -/
def InStage (waits : Bool) (v : StatusView) : Stage → Prop
  | .begun => v.started = false ∧ v.spawned = []
  | .saved => v.started = false ∧ v.spawned = [] ∧ v.status = some .creating
  | .inserted => v.started = false ∧ v.spawned = [] ∧ v.status = some .creating ∧ v.Present
  | .abandoned => v.started = false
  | .created => v.spawned = [] ∧ v.status = some .creating ∧ v.Present
  | .running => v.Open ∧ v.Present
  | .decided success => v.Open ∧ ∃ result ∈ v.results, result.success = success
  | .settled success => waits = true ∧ v.status = some (outcome success) ∧
      (∃ result ∈ v.results, result.success = success) ∧
      ∀ transition ∈ v.spawned, transition.status = .running

/-- The reports come from a started container, agree if somebody waits for them, and contain
the result in the handle. -/
structure Sound (waits : Bool) (v : StatusView) : Prop where
  started : v.results ≠ [] → v.started = true
  agree : waits = true → ∀ result ∈ v.results, ∀ other ∈ v.results,
    result.success = other.success
  recorded : ∀ handle result, v.handle = some handle → handle.completionResult = some result →
    result ∈ v.results

theorem Sound.results_eq_nil {waits : Bool} {v : StatusView} (h : Sound waits v)
    (hstarted : v.started = false) : v.results = [] := by
  by_contra hne
  rw [h.started hne] at hstarted
  cases hstarted

end StatusView

/-! ## Guards -/

section Guards

variable (job : Uuid)

def HostOp.deadline? : HostOp → Option Uuid
  | .deadlinePassed jobId => some jobId
  | _ => none

/-- The job whose status the operation stores, and the status. -/
def HostOp.write? (host : Host) : HostOp → Option (Uuid × SandboxJobStatus)
  | .saveSandboxJob record (.ok ()) => some (record.id, record.status)
  | .updateSandboxJobStatus transition (.ok ()) => some (transition.jobId, transition.status)
  | .runStatusUpdate i (.ok ()) =>
    host.spawned[i]?.map fun transition => (transition.jobId, transition.status)
  | _ => none

/-- The waiting call does not give up. -/
def InTime (op : HostOp) (_ : Host) : Prop :=
  ∀ jobId ∈ op.deadline?, jobId ≠ job
  deriving Decidable

/-- A report does not contradict an earlier one. -/
def Agrees (op : HostOp) (host : Host) : Prop :=
  ∀ report ∈ op.report?, report.1 = job →
    ∀ result ∈ host.reported job, result.success = report.2.success
  deriving Decidable

/-- That the job is running is not stored after its outcome. -/
def RunningFirst (op : HostOp) (host : Host) : Prop :=
  ∀ write ∈ op.write? host, write.1 = job → write.2 = .running →
    ∀ status ∈ host.stored job, status.isTerminal = false
  deriving Decidable

/-- The operations of the interleavings that end with the outcome. -/
def Timely (waits : Bool) (op : HostOp) (host : Host) : Prop :=
  ReportsStarted job op host ∧
    (waits = true → InTime job op host ∧ Agrees job op host ∧ RunningFirst job op host)

/-- The job is in the stage that is owned, and its view is sound. -/
def StatusInv (waits : Bool) (host : Host) (stages : Multiset Stage) : Prop :=
  (host.statusView job).Sound waits ∧
    ∃ stage, stages = {stage} ∧ (host.statusView job).InStage waits stage

end Guards

open HostOp

/-! ## Rules -/

variable {stage : Stage}

section Rules

variable {job : Uuid} {waits : Bool} {α : Type}

/-- A program of the job, with the stage it owns at the beginning and at the end. -/
abbrev SafeStatus (job : Uuid) (waits : Bool) (program : HostProgram α) (stages : Multiset Stage)
    (post : α → Multiset Stage → Prop) : Prop :=
  Safe exec (Timely job waits) (StatusInv job waits) program stages post

/-- Rule for an operation of the call that owns the stage. -/
theorem safe_own {op : HostOp} {next : op.Resp → HostProgram α} {post : α → Multiset Stage → Prop}
    (hop : ∀ host, (host.statusView job).Sound waits → (host.statusView job).InStage waits stage →
      Timely job waits op host →
      ∃ stage', ((op.exec host).2.statusView job).Sound waits ∧
        ((op.exec host).2.statusView job).InStage waits stage' ∧
        SafeStatus job waits (next (op.exec host).1) {stage'} post) :
    SafeStatus job waits (on op >>= next) {stage} post := by
  intro host others hinv hok
  obtain ⟨hsound, owned, howned, hstage⟩ := hinv
  have hnone : others = 0 := by
    have hcard := congrArg Multiset.card howned
    rw [Multiset.card_add, Multiset.card_singleton, Multiset.card_singleton] at hcard
    exact Multiset.card_eq_zero.1 (by omega)
  subst hnone
  rw [add_zero, Multiset.singleton_inj] at howned
  subst howned
  obtain ⟨stage', hsound', hstage', hnext⟩ := hop host hsound hstage hok
  exact ⟨{stage'}, ⟨hsound', stage', by rw [add_zero], hstage'⟩, hnext⟩

/-- Rule for an operation of another activity. -/
theorem safe_other {op : HostOp} {next : op.Resp → HostProgram α} {post : α → Multiset Stage → Prop}
    (hop : ∀ host, (host.statusView job).Sound waits → Timely job waits op host →
      ((op.exec host).2.statusView job).Sound waits ∧
        ∀ stage, (host.statusView job).InStage waits stage →
          ((op.exec host).2.statusView job).InStage waits stage)
    (hnext : ∀ r, SafeStatus job waits (next r) 0 post) :
    SafeStatus job waits (on op >>= next) 0 post := by
  intro host others hinv hok
  obtain ⟨hsound, stage, howned, hstage⟩ := hinv
  obtain ⟨hsound', hkeeps⟩ := hop host hsound hok
  exact ⟨0, ⟨hsound', stage, howned, hkeeps _ hstage⟩, hnext _⟩

/-- Operations that do not change the view keep every stage. -/
theorem safe_silent {program : HostProgram α} (h : program.Only (Silent job))
    (stages : Multiset Stage) :
    SafeStatus job waits program stages fun _ stages' => stages' = stages := by
  refine .of_only (fun op host m hsilent _ hinv => ?_) h _
  rw [StatusInv, hsilent host]
  exact hinv

end Rules

/-! ## Reports and spawned updates -/

variable {tool : CreateJobTool} {c : HostConfig} {v : StatusView} {result : CompletionResult}

section Activities

variable {job : Uuid} {waits : Bool}

theorem revoke_silent (jobId : Uuid) : (revoke jobId).Only (Silent job) :=
  .act (fun _ => rfl) fun _ => only_perform fun _ => rfl

theorem stopContainer_silent (id : ContainerId) (answer : Answer) :
    Silent job (.stopContainer id answer) := by
  intro host
  cases answer <;> rfl

theorem removeContainer_silent (id : ContainerId) (answer : Answer) :
    Silent job (.removeContainer id answer) := by
  intro host
  cases answer <;> rfl

theorem cleanContainer_silent (jobId : Uuid) (answers : StopAnswers) :
    (cleanContainer jobId answers).Only (Silent job) := by
  refine .act (fun _ => rfl) fun found => ?_
  cases found with
  | none => exact trivial
  | some id =>
    refine .act (fun _ => rfl) fun connected => ?_
    cases connected with
    | error e => exact trivial
    | ok _ =>
      refine .act (stopContainer_silent id _) fun _ => ?_
      exact .act (removeContainer_silent id _) fun _ => trivial

/-- A handle that is completed or gets its container is still there. -/
theorem StatusView.Present.map {v v' : StatusView} (h : v.Present)
    {f : ContainerHandle → ContainerHandle} (hhandle : v'.handle = v.handle.map f)
    (hf : ∀ handle, (f handle).state ≠ .failed ∧
      ((f handle).state = .stopped → (f handle).completionResult ≠ none)) : v'.Present := by
  obtain ⟨handle, hpresent, _⟩ := h
  exact ⟨f _, by rw [hhandle, hpresent]; rfl, hf _⟩

/-- A report keeps the stage: before the container is started there is none, and later it only
adds a result. -/
theorem inStage_setCompletion (hstarted : v.started = true) (h : v.InStage waits stage) :
    { v with
      handle := v.handle.map (complete result)
      results := result :: v.results : StatusView }.InStage waits stage := by
  have hfalse : v.started ≠ false := by simp [hstarted]
  cases stage with
  | begun | saved | inserted => exact absurd h.1 hfalse
  | abandoned => exact absurd h hfalse
  | created => exact ⟨h.1, h.2.1, h.2.2.map rfl fun _ => ⟨nofun, nofun⟩⟩
  | running => exact ⟨h.1, h.2.map rfl fun _ => ⟨nofun, nofun⟩⟩
  | decided success =>
    obtain ⟨hopen, earlier, hearlier, hsuccess⟩ := h
    exact ⟨hopen, earlier, mem_cons_of_mem _ hearlier, hsuccess⟩
  | settled success =>
    obtain ⟨hwaits, hstatus, ⟨earlier, hearlier, hsuccess⟩, hspawned⟩ := h
    exact ⟨hwaits, hstatus, ⟨earlier, mem_cons_of_mem _ hearlier, hsuccess⟩, hspawned⟩

theorem sound_setCompletion (h : v.Sound waits) (hstarted : v.started = true)
    (hagrees : waits = true → ∀ earlier ∈ v.results, earlier.success = result.success) :
    { v with
      handle := v.handle.map (complete result)
      results := result :: v.results : StatusView }.Sound waits where
  started := fun _ => hstarted
  agree := by
    intro hwaits one hone other hother
    rcases mem_cons.1 hone with rfl | hearlier
    · rcases mem_cons.1 hother with rfl | hearlier
      · rfl
      · exact (hagrees hwaits _ hearlier).symm
    · rcases mem_cons.1 hother with rfl | hearlier'
      · exact hagrees hwaits one hearlier
      · exact h.agree hwaits one hearlier _ hearlier'
  recorded := by
    intro completed stored hcompleted hstored
    obtain ⟨handle, _, rfl⟩ := Option.map_eq_some_iff.1 hcompleted
    cases hstored
    exact mem_cons_self

/-- A report leaves the stage alone. -/
theorem reportComplete_safe (result : CompletionResult) (answers : StopAnswers) :
    SafeStatus job waits (reportComplete job result answers) 0 fun _ stages => stages = 0 := by
  refine safe_other ?_ fun _ => ?_
  · intro host hsound hok
    have hstarted : (host.statusView job).started = true :=
      contains_iff_mem.2 (hok.1 _ rfl rfl)
    rw [statusView_setCompletion]
    refine ⟨sound_setCompletion hsound hstarted fun hwaits => ?_, fun stage hstage => ?_⟩
    · exact (hok.2 hwaits).2.1 _ rfl rfl
    · exact inStage_setCompletion hstarted hstage
  · refine (safe_silent (cleanContainer_silent job _) 0).bind ?_
    rintro _ _ rfl
    exact safe_silent (revoke_silent job) 0

/-- An update of the status that leaves an open job open. -/
theorem StatusView.Open.update {v v' : StatusView} (h : v.Open) (hspawned : v'.spawned ⊆ v.spawned)
    (hstatus : v'.status = v.status ∨
      ∃ transition ∈ v.spawned, v'.status = v.status.map fun _ => transition.status) :
    v'.Open := by
  obtain ⟨⟨status, hsome, hterminal⟩, hrunning⟩ := h
  refine ⟨?_, fun transition htransition => hrunning transition (hspawned htransition)⟩
  rcases hstatus with hsame | ⟨transition, htransition, hnew⟩
  · exact ⟨status, hsame.trans hsome, hterminal⟩
  · refine ⟨transition.status, by rw [hnew, hsome]; rfl, ?_⟩
    rw [hrunning _ htransition]
    rfl

/-- A spawned update that runs leaves the stage alone. -/
theorem runStatusUpdate_safe (i : Nat) :
    SafeStatus job waits (do on (.runStatusUpdate i (.ok ()))) 0 fun _ stages => stages = 0 := by
  refine safe_other ?_ fun _ => rfl
  intro host hsound hok
  obtain ⟨spawned, status, hview, hsub, hstatus⟩ := statusView_runStatusUpdate host job i
  rw [hview]
  refine ⟨⟨hsound.started, hsound.agree, hsound.recorded⟩, fun stage h => ?_⟩
  -- with nothing spawned for the job there is nothing to run
  have hempty : (host.statusView job).spawned = [] →
      spawned = [] ∧ status = (host.statusView job).status := by
    intro hnil
    rw [hnil] at hsub hstatus
    exact ⟨subset_nil.1 hsub, hstatus.resolve_right (by simp)⟩
  have hstatus' := hstatus.imp_right (Exists.imp fun _ => And.imp_right And.right)
  cases stage with
  | begun => exact ⟨h.1, (hempty h.2).1⟩
  | saved => exact ⟨h.1, (hempty h.2.1).1, (hempty h.2.1).2.trans h.2.2⟩
  | inserted => exact ⟨h.1, (hempty h.2.1).1, (hempty h.2.1).2.trans h.2.2.1, h.2.2.2⟩
  | abandoned => exact h
  | created => exact ⟨(hempty h.1).1, (hempty h.1).2.trans h.2.1, h.2.2⟩
  | running | decided _ => exact ⟨h.1.update hsub hstatus', h.2⟩
  | settled success =>
    obtain ⟨hwaits, hsettled, hresult, hrunning⟩ := h
    refine ⟨hwaits, ?_, hresult, fun transition hmem => hrunning transition (hsub hmem)⟩
    rcases hstatus with hsame | ⟨transition, hmem, hnext, _⟩
    · exact hsame.trans hsettled
    · -- the only update left says that the job is running, and it may not run now
      have hjob : transition.jobId = job := by simpa using (mem_filter.1 hmem).2
      have hwrite : (runStatusUpdate i (.ok ())).write? host =
          some (transition.jobId, transition.status) := by
        rw [write?, hnext]
        rfl
      have hterminal := (hok.2 hwaits).2.2 _ hwrite hjob (hrunning _ hmem)
        _ hsettled
      rw [isTerminal_outcome] at hterminal
      cases hterminal

end Activities

/-! ## The call that starts the job -/

section Creation

variable {job : Uuid} {waits : Bool}

/-- The stage after the daemon was asked for a container. -/
def CreationStage {α : Type} (failed : Stage) :
    Except OrchestratorError α → Multiset Stage → Prop
  | .ok _, stages => stages = {.created}
  | .error _, stages => stages = {failed}

theorem createContainer_silent (jobId : Uuid) (now : Timestamp) (answer : Answer) :
    Silent job (.createContainer jobId now answer) := by
  intro host
  cases answer <;> rfl

/-- Before the container is started nothing has been reported. -/
theorem StatusView.Sound.restart (h : v.Sound waits) (hstarted : v.started = false) (started : Bool) :
    { v with started := started : StatusView }.Sound waits :=
  ⟨(absurd (h.results_eq_nil hstarted)), h.agree, h.recorded⟩

theorem createAndStartContainer_status (jobId : Uuid) (now : Timestamp) (answers : CreateAnswers) :
    SafeStatus job waits (createAndStartContainer jobId now answers) {.inserted}
      (CreationStage .inserted) := by
  obtain ⟨_, _, create, start, remove⟩ := answers
  refine (safe_silent (only_perform (createContainer_silent _ now _)) _).bind ?_
  rintro created _ rfl
  cases created with
  | error e => exact rfl
  | ok id =>
    refine safe_own fun host hsound hstage _ => ?_
    cases start with
    | error e =>
      refine ⟨.inserted, hsound, hstage, ?_⟩
      refine (safe_silent (only_perform (removeContainer_silent id _)) _).bind ?_
      rintro _ _ rfl
      exact rfl
    | ok _ =>
      obtain ⟨hstarted, hspawned, hstatus, hpresent⟩ := hstage
      exact ⟨.created, hsound.restart hstarted _, ⟨hspawned, hstatus, hpresent⟩, rfl⟩

theorem createJobInner_status (now : Timestamp) (answers : CreateAnswers) :
    SafeStatus job waits (createJobInner job now answers) {.inserted}
      (CreationStage .inserted) := by
  refine (safe_silent (only_perform fun _ => rfl) _).bind ?_
  rintro connected _ rfl
  cases connected with
  | error e => exact rfl
  | ok _ =>
    dsimp only
    split
    · exact rfl
    · refine (createAndStartContainer_status job now _).bind fun created stages hend => ?_
      cases created with
      | error e => exact hend
      | ok id =>
        cases hend
        refine safe_own fun host hsound hstage _ => ?_
        rw [statusView_setContainerId]
        refine ⟨.created, ⟨hsound.started, hsound.agree, ?_⟩,
          ⟨hstage.1, hstage.2.1, hstage.2.2.map rfl fun _ => ⟨nofun, nofun⟩⟩, rfl⟩
        intro assigned result hassigned hresult
        obtain ⟨handle, hhandle, rfl⟩ := Option.map_eq_some_iff.1 hassigned
        exact hsound.recorded _ _ hhandle hresult

/-- Without a handle there is no result to be recorded. -/
theorem StatusView.Sound.remove (h : v.Sound waits) :
    { v with handle := none : StatusView }.Sound waits :=
  ⟨h.started, h.agree, nofun⟩

theorem createJob_status {params : CreateJobParams} (hjob : params.jobId = job)
    (answers : CreateAnswers) :
    SafeStatus job waits (createJob params answers) {.saved} (CreationStage .abandoned) := by
  subst hjob
  refine (safe_silent (only_perform fun _ => rfl) _).bind ?_
  rintro _ _ rfl
  refine (safe_silent (only_perform fun _ => rfl) _).bind ?_
  rintro _ _ rfl
  refine safe_own fun host hsound hstage _ => ?_
  rw [statusView_insertHandle host params.jobId rfl]
  refine ⟨.inserted, ⟨hsound.started, hsound.agree, ?_⟩,
    ⟨hstage.1, hstage.2.1, hstage.2.2, params.handle, rfl, nofun, nofun⟩, ?_⟩
  · intro handle result hhandle hresult
    cases hhandle
    cases hresult
  · refine (createJobInner_status _ _).bind fun created stages hend => ?_
    cases created with
    | ok _ => exact hend
    | error e =>
      cases hend
      refine .bind ((safe_silent (revoke_silent _) _).bind ?_)
        (fun _ stages (hend : stages = {.abandoned}) => hend)
      rintro _ _ rfl
      refine safe_own fun host hsound hstage _ => ?_
      rw [statusView_removeHandle]
      exact ⟨.abandoned, hsound.remove, hstage.1, rfl⟩

end Creation

section StartCall

variable {job : Uuid} {waits : Bool}

/-- The stages in which the call may return. -/
def Stage.Final (waits : Bool) : Stage → Prop
  | .begun => True
  | .abandoned => True
  | .running => waits = false
  | .settled _ => True
  | _ => False

/-- The call returns in a final stage. -/
def ReturnsFinal (waits : Bool) {α : Type} (_ : α) (stages : Multiset Stage) : Prop :=
  ∃ stage, stages = {stage} ∧ Stage.Final waits stage

variable {tool : CreateJobTool}

/-- The outcome is stored after a result has been read. -/
theorem settle_safe {α : Type} (hwaits : waits = true) (hstore : tool.store = true) {success : Bool}
    (hjob : transition.jobId = job) (hstatus : transition.status = outcome success) (result : α) :
    SafeStatus job waits (do updateStatusSync tool transition (.ok ()); pure result)
      {.decided success} (ReturnsFinal waits) := by
  rw [updateStatusSync, if_pos hstore]
  refine safe_own fun host hsound hstage _ => ?_
  obtain ⟨⟨⟨status, hsome, _⟩, hrunning⟩, hresult⟩ := hstage
  rw [statusView_updateSandboxJobStatus host job hjob, hsome, hstatus]
  exact ⟨.settled _, ⟨hsound.started, hsound.agree, hsound.recorded⟩,
    ⟨hwaits, rfl, hresult, hrunning⟩, .settled _, rfl, trivial⟩

theorem handleStoppedContainer_status (hwaits : waits = true)
    (hstore : tool.store = true) {view : ContainerJobView} (hjob : view.jobId = job)
    (finishedAt : Timestamp) {answers : SandboxAnswers} (hupdate : answers.update = .ok ())
    {handle : ContainerHandle} {result : CompletionResult}
    (hresult : handle.completionResult = some result) :
    SafeStatus job waits (handleStoppedContainer tool view finishedAt answers handle)
      {.decided result.success} (ReturnsFinal waits) := by
  subst hjob
  refine safe_own fun host hsound hstage _ => ?_
  rw [statusView_removeHandle]
  refine ⟨.decided _, hsound.remove, hstage, ?_⟩
  simp only [hresult, Option.map_some, hupdate]
  cases hsuccess : result.success with
  | true | false =>
    refine settle_safe hwaits hstore ?_ ?_ _
    · rfl
    · rfl

/-- A call that does not give up ends with the stored outcome of the result that it reads. -/
theorem awaitContainerCompletion_status (hwaits : waits = true)
    (hstore : tool.store = true) {view : ContainerJobView} (hjob : view.jobId = job)
    (finishedAt : Timestamp) {answers : SandboxAnswers} (hupdate : answers.update = .ok ())
    (polls : Nat) :
    SafeStatus job waits (awaitContainerCompletion tool view finishedAt answers polls) {.running}
      (ReturnsFinal waits) := by
  induction polls with
  | zero => exact safe_own fun host _ _ hok => absurd hjob ((hok.2 hwaits).1 _ rfl)
  | succ polls ih =>
    refine safe_own fun host hsound hstage _ => ?_
    obtain ⟨handle, hhandle, hfailed, hstopped⟩ := hstage.2
    have hread : ((getHandle view.jobId).exec host).1 = some handle := by
      rw [← hhandle, ← hjob]
      rfl
    rw [hread]
    obtain ⟨jobId, containerId, state, rest⟩ := handle
    cases state with
    | creating | running => exact ⟨.running, hsound, hstage, ih⟩
    | failed => exact absurd rfl hfailed
    | stopped =>
      obtain ⟨result, hresult⟩ := Option.ne_none_iff_exists'.1 (hstopped rfl)
      refine ⟨.decided _, hsound, ⟨hstage.1, result, ?_, rfl⟩, ?_⟩
      · exact hsound.recorded _ _ hhandle hresult
      · exact handleStoppedContainer_status hwaits hstore hjob _ hupdate hresult

/-- The database does what it is asked for. -/
def SandboxAnswers.storing (answers : SandboxAnswers) : SandboxAnswers :=
  { answers with save := .ok (), saveMode := .ok (), update := .ok () }

/-- The record of a new job is stored. -/
theorem save_safe {α : Type} (hjob : record.id = job)
    (hstatus : record.status = .creating) {next : Answer → HostProgram α}
    {post : α → Multiset Stage → Prop} (hnext : SafeStatus job waits (next (.ok ())) {.saved} post) :
    SafeStatus job waits (on (.saveSandboxJob record (.ok ())) >>= next) {.begun} post := by
  refine safe_own fun host hsound hstage _ => ?_
  rw [statusView_saveSandboxJob host job hjob, hstatus]
  exact ⟨.saved, ⟨hsound.started, hsound.agree, hsound.recorded⟩, ⟨hstage.1, hstage.2, rfl⟩, hnext⟩

theorem persistSandboxJob_status (hstore : tool.store = true)
    (hjob : record.id = job) (hstatus : record.status = .creating) (mode : JobMode)
    (finishedAt : Timestamp) (answers : SandboxAnswers) :
    SafeStatus job waits (persistSandboxJob tool record mode finishedAt answers.storing) {.begun}
      fun saved stages => saved = .ok () ∧ stages = {.saved} := by
  rw [persistSandboxJob, hstore]
  refine save_safe hjob hstatus ?_
  dsimp only
  split
  · refine safe_own fun host hsound hstage _ => ?_
    exact ⟨.saved, hsound, hstage, rfl, rfl⟩
  · exact ⟨rfl, rfl⟩

theorem executeSandbox_status (hstore : tool.store = true) {exec : SandboxExecution}
    (hjob : exec.jobId = job) (hwaits : exec.wait = waits) (answers : SandboxAnswers) :
    SafeStatus job waits (executeSandbox tool exec answers.storing) {.begun}
      (ReturnsFinal waits) := by
  rw [executeSandbox]
  split
  · exact ⟨.begun, rfl, trivial⟩
  split
  · exact ⟨.begun, rfl, trivial⟩
  · refine (persistSandboxJob_status hstore hjob rfl ..).bind ?_
    rintro _ _ ⟨rfl, rfl⟩
    refine (createJob_status hjob _).bind fun created stages hend => ?_
    cases created with
    | error e =>
      cases hend
      dsimp only
      rw [updateStatus, if_pos hstore]
      refine safe_own fun host hsound hstage _ => ?_
      exact ⟨.abandoned, ⟨hsound.started, hsound.agree, hsound.recorded⟩, hstage,
        .abandoned, rfl, trivial⟩
    | ok _ =>
      cases hend
      rw [updateStatus, if_pos hstore]
      refine safe_own fun host hsound hstage _ => ?_
      obtain ⟨hspawned, hstatus, hpresent⟩ := hstage
      rw [statusView_spawnStatusUpdate host job hjob]
      refine ⟨.running, ⟨hsound.started, hsound.agree, hsound.recorded⟩,
        ⟨⟨⟨.creating, hstatus, rfl⟩, ?_⟩, hpresent⟩, ?_⟩
      · intro transition htransition
        rw [hspawned] at htransition
        cases mem_singleton.1 htransition
        rfl
      · split
        · next hwait =>
          have hwait' : waits = false := by
            rw [← hwaits]
            simpa using hwait
          exact ⟨.running, rfl, hwait'⟩
        · next hwait =>
          have hwait' : waits = true := by
            rw [← hwaits]
            simpa using hwait
          exact awaitContainerCompletion_status hwait' hstore hjob _ rfl _

/-- The database does what it is asked for. -/
def RestartInputs.storing (inputs : RestartInputs) : RestartInputs :=
  { inputs with save := .ok (), saveMode := .ok (), running := .ok (), failed := .ok () }

theorem failRestart_status (inputs : RestartInputs) (hfailed : inputs.failed = .ok ())
    (message : String) :
    SafeStatus job waits (failRestart inputs message) {.abandoned} (ReturnsFinal waits) := by
  rw [failRestart, hfailed]
  refine safe_own fun host hsound hstage _ => ?_
  exact ⟨.abandoned, ⟨hsound.started, hsound.agree, hsound.recorded⟩, hstage,
    .abandoned, rfl, trivial⟩

theorem startRestarted_status (old : SandboxJobRecord) (mode : JobMode) {inputs : RestartInputs}
    (hjob : inputs.jobId = job) :
    SafeStatus job false (startRestarted old mode inputs.storing) {.saved}
      (ReturnsFinal false) := by
  refine (createJob_status hjob _).bind fun created stages hend => ?_
  cases created with
  | error e =>
    cases hend
    exact failRestart_status _ rfl _
  | ok _ =>
    cases hend
    refine safe_own fun host hsound hstage _ => ?_
    obtain ⟨hspawned, hstatus, hpresent⟩ := hstage
    have hview : ((updateSandboxJobStatus (.running inputs.jobId inputs.now)
        (.ok ())).exec host).2.statusView job =
          { host.statusView job with status := some .running } := by
      rw [statusView_updateSandboxJobStatus host job hjob, hstatus]
      rfl
    refine ⟨.running, ?_, ?_, .running, rfl, rfl⟩
    · exact hview ▸ ⟨hsound.started, hsound.agree, hsound.recorded⟩
    · refine hview ▸ ⟨⟨⟨.running, rfl, rfl⟩, ?_⟩, hpresent⟩
      simp [hspawned]

theorem restartSandboxJob_status (sandboxEnabled : Bool) (old : SandboxJobRecord)
    {inputs : RestartInputs} (hjob : inputs.jobId = job) :
    SafeStatus job false (restartSandboxJob sandboxEnabled old inputs.storing) {.begun}
      (ReturnsFinal false) := by
  rw [restartSandboxJob]
  split
  · exact ⟨.begun, rfl, trivial⟩
  split
  · exact ⟨.begun, rfl, trivial⟩
  split
  · exact ⟨.begun, rfl, trivial⟩
  · refine save_safe hjob rfl ?_
    dsimp only
    split
    · refine safe_own fun host hsound hstage _ => ?_
      exact ⟨.saved, hsound, hstage, startRestarted_status old _ hjob⟩
    · exact startRestarted_status old _ hjob

end StartCall

/-! ## Replaced outcomes -/

section Outcome

variable (job : Uuid)

/-- A stored outcome is not replaced by the status of a running job. -/
def OutcomeKept (host host' : Host) : Prop :=
  ∀ status ∈ host.stored job, status.isTerminal = true → host'.stored job ≠ some .running

variable {job}

theorem outcomeKept_refl (host : Host) : OutcomeKept job host host := by
  rintro status hstatus hterminal hrunning
  cases hstatus.symm.trans hrunning
  cases hterminal

/-- What a stored status is after an operation. -/
theorem stored_exec (op : HostOp) {host : Host} {before : SandboxJobStatus}
    (h : host.stored job = some before) : (op.exec host).2.stored job =
      some ((op.write? host).elim before fun write => if write.1 = job then write.2 else before) := by
  have hupdate : ∀ transition : StatusTransition, (host.updateStatus transition).stored job =
      some (if transition.jobId = job then transition.status else before) := by
    intro transition
    rw [stored_updateStatus, h]
    split <;> rfl
  cases op with
  | saveSandboxJob record answer =>
    cases answer with
    | error e => exact h
    | ok _ =>
      by_cases hjob : record.id = job
      · simp [exec, write?, stored, hjob]
      · simpa [exec, write?, stored, hjob, Function.update_of_ne (.symm hjob)]
          using h
  | updateSandboxJobStatus transition answer =>
    cases answer with
    | error e => exact h
    | ok _ => exact hupdate _
  | runStatusUpdate i answer =>
    cases hi : host.spawned[i]? with
    | none => cases answer <;> simp only [exec, write?, hi] <;> exact h
    | some transition =>
      cases answer with
      | error e =>
        simp only [exec, hi]
        exact h
      | ok _ =>
        simp only [exec, write?, hi]
        exact hupdate _
  | createContainer _ _ answer | startContainer _ answer
  | stopContainer _ answer | removeContainer _ answer => cases answer <;> exact h
  | _ => exact h

/-- An operation keeps the outcome exactly if it does not store after it that the job is
running. -/
theorem outcomeKept_exec_iff (op : HostOp) (host : Host) :
    OutcomeKept job host (op.exec host).2 ↔ RunningFirst job op host := by
  cases hstored : host.stored job with
  | none => simp [OutcomeKept, RunningFirst, hstored]
  | some before =>
    have hkept : OutcomeKept job host host := outcomeKept_refl host
    simp only [OutcomeKept, RunningFirst, hstored, stored_exec op hstored] at hkept ⊢
    cases op.write? host with
    | none => simpa using hkept
    | some write =>
      by_cases hjob : write.1 = job
      · simp [hjob, imp_not_comm]
      · simpa [hjob] using hkept

end Outcome

/-! ## Interleavings -/

/-- The call that starts the job; all its store calls succeed. -/
inductive StartCall where
  | execute (jobManager : Bool) (exec : SandboxExecution) (answers : SandboxAnswers)
  | restart (sandboxEnabled : Bool) (old : SandboxJobRecord) (inputs : RestartInputs)

namespace StartCall

def jobId : StartCall → Uuid
  | execute _ exec _ => exec.jobId
  | restart _ _ inputs => inputs.jobId

/-- The call waits for the job. -/
def waits : StartCall → Bool
  | execute _ exec _ => exec.wait
  | restart _ _ _ => false

def program : StartCall → HostProgram Unit
  | execute jobManager exec answers => do
    let _ ← executeSandbox ⟨jobManager, true⟩ exec answers.storing
    pure ()
  | restart sandboxEnabled old inputs => do
    let _ ← restartSandboxJob sandboxEnabled old inputs.storing
    pure ()

end StartCall

/-- What happens beside the call: the worker reports, and spawned updates run. -/
inductive Activity where
  | report (result : CompletionResult) (answers : StopAnswers)
  | update (i : Nat)

def Activity.program (job : Uuid) : Activity → HostProgram Unit
  | report result answers => reportComplete job result answers
  | update i => on (.runStatusUpdate i (.ok ()))

section Interleavings

/-- What a task of the pool owns at its end. -/
def EndsFinal (waits : Bool) (stages : Multiset Stage) : Prop :=
  stages = 0 ∨ ReturnsFinal waits () stages

/-- The call goes through the stages. -/
theorem startCall_safe (start : StartCall) :
    SafeStatus start.jobId start.waits start.program {.begun} fun _ => EndsFinal start.waits := by
  cases start with
  | execute jobManager exec answers =>
    have hexecute : SafeStatus exec.jobId exec.wait
        (executeSandbox ⟨jobManager, true⟩ exec answers.storing) {.begun}
        (ReturnsFinal exec.wait) := executeSandbox_status rfl rfl rfl _
    exact hexecute.bind fun _ _ hfinal => .inr hfinal
  | restart sandboxEnabled old inputs =>
    exact (restartSandboxJob_status _ old rfl).bind fun _ _ hfinal => .inr hfinal

theorem activity_safe {job : Uuid} {waits : Bool} (activity : Activity) :
    SafeStatus job waits (activity.program job) 0 fun _ => EndsFinal waits := by
  cases activity with
  | report result answers =>
    exact (reportComplete_safe _ _).mono fun _ _ hzero => .inl hzero
  | update i => exact (runStatusUpdate_safe i).mono fun _ _ hzero => .inl hzero

/-- A move of the scheduler. -/
def statusMove (job : Uuid) (c : HostConfig) (move : Move Activity) : HostConfig :=
  c.move exec (Activity.program job) move

/-- Nothing is known about the job on the host. -/
def Unseen (job : Uuid) (host : Host) : Prop :=
  Fresh job host ∧ ∀ transition ∈ host.spawned, transition.jobId ≠ job

/-- All activities of the job have finished. -/
def Finished (job : Uuid) (c : HostConfig) : Prop :=
  c.Quiescent ∧ ∀ transition ∈ c.shared.spawned, transition.jobId ≠ job

variable {job : Uuid} {waits : Bool}

/-- The tasks of the configuration keep the stages. -/
def InStages (job : Uuid) (waits : Bool) (c : HostConfig) : Prop :=
  ∃ owned, PoolEnds exec (Timely job waits) (StatusInv job waits) (EndsFinal waits) owned
    c.tasks ∧ StatusInv job waits c.shared owned.sum

theorem inStages_start (start : StartCall) {host : Host} (h : Unseen start.jobId host) :
    InStages start.jobId start.waits ⟨host, [start.program]⟩ := by
  refine ⟨[{.begun}], .cons (startCall_safe _) .nil, ?_⟩
  have hresults : host.reported start.jobId = [] := h.1.2.2.2
  refine ⟨⟨absurd hresults, ?_, ?_⟩, .begun, sum_singleton, ?_, ?_⟩
  · intro _ result hresult
    rw [show (host.statusView start.jobId).results = [] from hresults] at hresult
    cases hresult
  · intro handle result hhandle
    rw [show (host.statusView start.jobId).handle = none from h.1.1] at hhandle
    cases hhandle
  · simpa [statusView] using h.1.2.2.1
  · exact filter_eq_nil_iff.2 fun transition hmem => by simpa using h.2 transition hmem

theorem inStages_move (h : InStages job waits c) {move : Move Activity}
    (hok : c.MoveOk (Timely job waits) move) : InStages job waits (statusMove job c move) := by
  obtain ⟨owned, hpool, hinv⟩ := h
  have hsteps : Relation.ReflTransGen
      (Step exec (Timely job waits) fun p => ∃ activity, p = Activity.program job activity) c
      (statusMove job c move) := steps_move (fun activity => ⟨activity, rfl⟩) hok
  refine steps_preserve_ends ?_ hsteps hpool hinv
  rintro _ ⟨activity, rfl⟩
  exact activity_safe _

/-- A stage that a finished task owns is final. -/
theorem final_of_mem_sum {owned : List (Multiset Stage)} {tasks : List (HostProgram Unit)}
    (hpool : PoolEnds exec (Timely job waits) (StatusInv job waits) (EndsFinal waits) owned
      tasks) (hdone : ∀ p ∈ tasks, p = ret ()) (h : stage ∈ owned.sum) :
    Stage.Final waits stage := by
  induction hpool with
  | nil => exact absurd h (Multiset.notMem_zero _)
  | @cons stages p owned tasks hends _ ih =>
    rw [sum_cons, Multiset.mem_add] at h
    rcases h with hown | hrest
    · rw [hdone p mem_cons_self] at hends
      rcases hends with rfl | ⟨final, rfl, hfinal⟩
      · exact absurd hown (Multiset.notMem_zero _)
      · rw [mem_singleton.1 hown]
        exact hfinal
    · exact ih (fun q hq => hdone q (mem_cons_of_mem p hq)) hrest

/-- When all tasks have finished, the job is in a final stage. -/
theorem inStages_quiescent (h : InStages job waits c) (hdone : c.Quiescent) :
    (c.shared.statusView job).Sound waits ∧
      ∃ stage, (c.shared.statusView job).InStage waits stage ∧ Stage.Final waits stage := by
  obtain ⟨owned, hpool, hsound, stage, hsum, hstage⟩ := h
  exact ⟨hsound, stage, hstage, final_of_mem_sum hpool hdone (by simp [hsum])⟩

/-- A job that is waited for ends with the outcome of its reports. -/
theorem stored_eq_outcome (h : InStages job true c) (hdone : c.Quiescent)
    {result : CompletionResult} (hresult : result ∈ c.shared.reported job) :
    c.shared.stored job = some (outcome result.success) := by
  obtain ⟨hsound, stage, hstage, hfinal⟩ := inStages_quiescent h hdone
  have hstarted : (c.shared.statusView job).started ≠ false := by
    simp [hsound.started (ne_nil_of_mem hresult)]
  cases stage with
  | begun => exact absurd hstage.1 hstarted
  | abandoned => exact absurd hstage hstarted
  | running => cases hfinal
  | settled success =>
    obtain ⟨_, hstatus, ⟨read, hread, hsuccess⟩, _⟩ := hstage
    rw [hsound.agree rfl _ hresult read hread, hsuccess]
    exact hstatus
  | _ => exact hfinal.elim

/-- A job that nobody waits for does not end with an outcome. -/
theorem stored_open (h : InStages job false c) (hdone : c.Quiescent)
    (hne : c.shared.reported job ≠ []) :
    ∃ status, c.shared.stored job = some status ∧ status.isTerminal = false := by
  obtain ⟨hsound, stage, hstage, hfinal⟩ := inStages_quiescent h hdone
  have hstarted : (c.shared.statusView job).started ≠ false := by
    simp [hsound.started hne]
  cases stage with
  | begun => exact absurd hstage.1 hstarted
  | abandoned => exact absurd hstage hstarted
  | running => exact hstage.1.1
  | settled success => cases hstage.1
  | _ => exact hfinal.elim

theorem moveOk_timely {move : Move Activity} (hreports : c.MoveOk (ReportsStarted job) move)
    (hwaits : waits = true → c.MoveOk (InTime job) move ∧ c.MoveOk (Agrees job) move ∧
      c.MoveOk (RunningFirst job) move) : c.MoveOk (Timely job waits) move := by
  cases move with
  | spawn activity => exact trivial
  | advance i =>
    simp only [Config.MoveOk] at hreports hwaits ⊢
    cases htask : c.tasks[i]?.getD (ret ()) with
    | ret a => exact trivial
    | act op next =>
      rw [htask] at hreports hwaits
      exact ⟨hreports, hwaits⟩

theorem outcomeKept_move_iff (c : HostConfig) (move : Move Activity) :
    OutcomeKept job c.shared (statusMove job c move).shared ↔ c.MoveOk (RunningFirst job) move := by
  cases move with
  | spawn activity => exact iff_of_true (outcomeKept_refl _) trivial
  | advance i =>
    simp only [statusMove, Config.move, Config.MoveOk]
    cases c.tasks[i]?.getD (ret ()) with
    | ret a => exact iff_of_true (outcomeKept_refl _) trivial
    | act op next => exact outcomeKept_exec_iff op _

/-- In every interleaving of the call that starts a job with the reports of its worker and the
spawned updates: if the call waits, does not give up and the reports agree, then the stored
outcome is never replaced by the status of a running job and is the reported one at the end,
exactly if that the job is running is never stored after its outcome.  If the call does not
wait, the outcome of a reported job is not stored at all. -/
theorem stored_outcome_iff (start : StartCall) (host : Host) (hunseen : Unseen start.jobId host)
    (moves : List (Move Activity))
    (hreports : Runs.AllSteps (statusMove start.jobId)
      (fun c move => c.MoveOk (ReportsStarted start.jobId) move) ⟨host, [start.program]⟩ moves) :
    (start.waits = true →
      Runs.AllSteps (statusMove start.jobId) (fun c move => c.MoveOk (InTime start.jobId) move)
        ⟨host, [start.program]⟩ moves →
      Runs.AllSteps (statusMove start.jobId) (fun c move => c.MoveOk (Agrees start.jobId) move)
        ⟨host, [start.program]⟩ moves →
      ((Runs.AllSteps (statusMove start.jobId)
          (fun c move => OutcomeKept start.jobId c.shared (statusMove start.jobId c move).shared)
          ⟨host, [start.program]⟩ moves ∧
        (Finished start.jobId (moves.foldl (statusMove start.jobId) ⟨host, [start.program]⟩) →
          ∀ result ∈ (moves.foldl (statusMove start.jobId)
              ⟨host, [start.program]⟩).shared.reported start.jobId,
            (moves.foldl (statusMove start.jobId) ⟨host, [start.program]⟩).shared.stored
              start.jobId = some (outcome result.success))) ↔
        Runs.AllSteps (statusMove start.jobId)
          (fun c move => c.MoveOk (RunningFirst start.jobId) move) ⟨host, [start.program]⟩ moves)) ∧
    (start.waits = false →
      Finished start.jobId (moves.foldl (statusMove start.jobId) ⟨host, [start.program]⟩) →
      (moves.foldl (statusMove start.jobId) ⟨host, [start.program]⟩).shared.reported
        start.jobId ≠ [] →
      ∃ status, (moves.foldl (statusMove start.jobId) ⟨host, [start.program]⟩).shared.stored
        start.jobId = some status ∧ status.isTerminal = false) := by
  have hstart := inStages_start _ hunseen
  refine ⟨fun hwaits hintime hagrees => ?_, fun hwaits hfinished hne => ?_⟩
  · rw [hwaits] at hstart
    rw [Runs.allSteps_congr (fun _ => True) (fun c move _ => outcomeKept_move_iff c move)
      (fun _ _ _ => trivial) trivial]
    refine and_iff_left_of_imp fun hfirst hfinished result hresult => ?_
    refine stored_eq_outcome (Runs.forall_mem_visited ?_ hstart
      (((hreports.and hintime).and hagrees).and hfirst) _ (Runs.foldl_mem_visited _ _ _))
      hfinished.1 hresult
    intro c move hok hin
    exact inStages_move hin (moveOk_timely hok.1.1.1 fun _ => ⟨hok.1.1.2, hok.1.2, hok.2⟩)
  · rw [hwaits] at hstart
    refine stored_open (Runs.forall_mem_visited ?_ hstart hreports _
      (Runs.foldl_mem_visited _ _ _)) hfinished.1 hne
    intro c move hok hin
    exact inStages_move hin (moveOk_timely hok nofun)

def waitedStart : StartCall :=
  .execute true waitedJob promptAnswers

/-- That the job is running is stored before the worker reports. -/
def runningStoredFirst : List (Move Activity) :=
  List.replicate 9 (.advance 0) ++ [.spawn (.update 0), .advance 1] ++
    .spawn (.report ⟨true, none⟩ .succeeding) :: List.replicate 7 (.advance 2) ++
      List.replicate 3 (.advance 0)

/-- That the job is running is stored after its outcome. -/
def runningStoredLast : List (Move Activity) :=
  List.replicate 9 (.advance 0) ++
    .spawn (.report ⟨true, none⟩ .succeeding) :: List.replicate 7 (.advance 1) ++
      List.replicate 3 (.advance 0) ++ [.spawn (.update 0), .advance 2]

theorem unseen_init (job : Uuid) (maxJobs : Nat) : Unseen job (.init maxJobs) :=
  ⟨fresh_init job _, nofun⟩

/-- The host at the end of a schedule. -/
def statusAfter (moves : List (Move Activity)) : HostConfig :=
  moves.foldl (statusMove 1) ⟨.init 1, [waitedStart.program]⟩

theorem runningStoredFirst_completed : Finished 1 (statusAfter runningStoredFirst) ∧
      ∀ result ∈ (statusAfter runningStoredFirst).shared.reported 1,
        (statusAfter runningStoredFirst).shared.stored 1 = some (outcome result.success) := by
  have hfinished : Finished 1 (statusAfter runningStoredFirst) :=
    ⟨quiescent_of_allDone (by decide +kernel), by decide +kernel⟩
  have h := (stored_outcome_iff waitedStart (.init 1) (unseen_init 1 1) runningStoredFirst
    (by decide +kernel)).1 rfl (by decide +kernel) (by decide +kernel)
  exact ⟨hfinished, (h.2 (by decide +kernel)).2 hfinished⟩

/-- The worker has reported a success, all activities have finished, and the stored status has
gone from completed to running. -/
theorem runningStoredLast_running : Finished 1 (statusAfter runningStoredLast) ∧
      Runs.AllSteps (statusMove 1) (fun c move => c.MoveOk (ReportsStarted 1) move)
        ⟨.init 1, [waitedStart.program]⟩ runningStoredLast ∧
      (statusAfter runningStoredLast).shared.reported 1 = [⟨true, none⟩] ∧
      (statusAfter (runningStoredLast.dropLast)).shared.stored 1 = some .completed ∧
      (statusAfter runningStoredLast).shared.stored 1 = some .running :=
  ⟨⟨quiescent_of_allDone (by decide +kernel), by decide +kernel⟩, by decide +kernel,
    by decide +kernel, by decide +kernel, by decide +kernel⟩

end Interleavings

end Axinite.Orchestrator
