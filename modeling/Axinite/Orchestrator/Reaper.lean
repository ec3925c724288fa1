import Axinite.Orchestrator.Completion

/-!
# The reaper

The reaper looks for containers that are older than a threshold and stops those whose job is not
active any more.  It asks the contexts of the agent jobs for the state of a job.  A sandbox job
has no context, only a handle in the registry of the containers: to the reaper, every sandbox job
that is old enough is an orphan.

Main results:

- Theorem `reapWithDocker_effect`: what reaping one container does to the others.
- Theorem `spared_iff`: the containers that a scan leaves alone, whatever the daemon answers.
- Theorem `live_containers_spared_iff`: the histories in which no scan stops a running job.
-/

namespace Axinite.Orchestrator

open Foundation Program Context List

/-! ## Scans -/

/-- Configuration of the reaper, in milliseconds. -/
structure ReaperConfig where
  orphanThreshold : Nat

/-- The longest duration that can be converted. -/
def maxDuration : Nat := 2 ^ 63 - 1

def orphanThresholdDuration (config : ReaperConfig) : Nat :=
  if config.orphanThreshold ≤ maxDuration then config.orphanThreshold else 10 * 60 * 1000

def isPastOrphanThreshold (createdAt : Timestamp) (config : ReaperConfig) (now : Timestamp) :
    Bool :=
  createdAt + orphanThresholdDuration config ≤ now

/-- A container with valid labels. -/
structure ReaperContainer where
  id : ContainerId
  jobId : Uuid
  createdAt : Timestamp

/-- Read the labels of a container. -/
def Container.labelled (container : Container) : Option ReaperContainer := do
  let jobId ← container.jobId
  let createdAt ← container.createdAt
  some { id := container.id, jobId := jobId, createdAt := createdAt }

/-- What the daemon answers while a container is reaped: to the job manager, and to the reaper
itself. -/
structure ReapAnswers where
  manager : StopAnswers
  direct : StopAnswers

/-- Stop and remove a container, through the job manager if it knows the job. -/
def reapWithDocker (id : ContainerId) (jobId : Uuid) (answers : ReapAnswers) :
    HostProgram Unit := do
  match ← stopJob jobId answers.manager with
  | .ok () => pure ()
  | .error _ =>
    let _ ← on (.stopContainer id answers.direct.stop)
    match ← on (.removeContainer id answers.direct.remove) with
    | .error _ => pure ()
    | .ok () =>
      on (.setState jobId .stopped)
      revoke jobId

/-- The context of the job, if there is one, says that the job is active. -/
def contextActive : Except JobError JobContext → Bool
  | .ok ctx => ctx.state.isActive
  | .error _ => false

/-- The loop over the listed containers. -/
def reapOrphans (config : ReaperConfig) (now : Timestamp) (answers : ContainerId → ReapAnswers) :
    List ReaperContainer → HostProgram Unit
  | [] => pure ()
  | container :: rest =>
    if !isPastOrphanThreshold container.createdAt config now then
      reapOrphans config now answers rest
    else do
      let found ← on (.getContext container.jobId)
      if contextActive found then reapOrphans config now answers rest
      else do
        reapWithDocker container.id container.jobId (answers container.id)
        reapOrphans config now answers rest

/-- One scan of the reaper. -/
def scanAndReap (config : ReaperConfig) (now : Timestamp) (listed : Answer)
    (answers : ContainerId → ReapAnswers) : HostProgram Unit := do
  match ← on (.listContainers listed) with
  | .error _ => pure ()
  | .ok containers => reapOrphans config now answers (containers.filterMap Container.labelled)

/-! ## Effect of a scan -/

/-- The containers with an identifier. -/
def Host.withId (host : Host) (id : ContainerId) : List Container :=
  host.containers.filter fun container => container.id = id

/-- The container that the handle of a job knows. -/
def Host.knownId (host : Host) (jobId : Uuid) : Option ContainerId :=
  (host.registry jobId).bind ContainerHandle.containerId

/-- What reaping may do: the contexts and the containers that the handles know stay the same,
only the containers that are hit change, and no container appears. -/
structure Reaped (hit : ContainerId → Prop) (host host' : Host) : Prop where
  contexts : host'.contexts = host.contexts
  knownId : ∀ jobId, host'.knownId jobId = host.knownId jobId
  spared : ∀ id, ¬ hit id → host'.withId id = host.withId id
  gone : ∀ id, host.withId id = [] → host'.withId id = []

open HostOp Host

variable {container : ReaperContainer} {id : ContainerId}

section Reaped

variable {hit hit' : ContainerId → Prop} {host host' host'' : Host}

theorem Reaped.refl (host : Host) : Reaped hit host host :=
  ⟨rfl, fun _ => rfl, fun _ _ => rfl, fun _ h => h⟩

theorem Reaped.trans (h : Reaped hit host host') (h' : Reaped hit host' host'') :
    Reaped hit host host'' where
  contexts := h'.contexts.trans h.contexts
  knownId := fun jobId => (h'.knownId jobId).trans (h.knownId jobId)
  spared := fun id hid => (h'.spared id hid).trans (h.spared id hid)
  gone := fun id hid => h'.gone id (h.gone id hid)

theorem Reaped.mono (h : Reaped hit host host') (hhit : ∀ id, hit id → hit' id) :
    Reaped hit' host host' :=
  { h with spared := fun id hid => h.spared id fun hid' => hid (hhit id hid') }

/-- A change of a container in place. -/
theorem withId_modifyContainer (host : Host) (id other : ContainerId) {f : Container → Container}
    (hid : ∀ container, (f container).id = container.id) :
    (host.modifyContainer other f).withId id =
      (host.withId id).map fun container => if container.id = other then f container else container := by
  simp only [withId, modifyContainer_containers, filter_map]
  congr 1
  refine filter_congr fun container _ => ?_
  simp only [Function.comp_apply]
  split
  · rw [hid]
  · rfl

theorem withId_stopContainer (host : Host) (id other : ContainerId) :
    ((stopContainer other (.ok ())).exec host).2.withId id =
      (host.withId id).map fun container =>
        if container.id = other then { container with running := false } else container :=
  withId_modifyContainer host id _ fun _ => rfl

theorem reaped_stopContainer (host : Host) (id : ContainerId) (answer : Answer) :
    Reaped (· = id) host ((stopContainer id answer).exec host).2 := by
  cases answer with
  | error e => exact .refl host
  | ok _ =>
    refine ⟨rfl, fun _ => rfl, fun other hother => ?_, fun other hgone => ?_⟩
    · rw [withId_stopContainer]
      refine (map_congr_left fun container hcontainer => ?_).trans (map_id _)
      have hid : container.id = other := by simpa using (mem_filter.1 hcontainer).2
      rw [if_neg (hid ▸ hother), id_eq]
    · rw [withId_stopContainer, hgone, map_nil]

theorem withId_removeContainer (host : Host) (id other : ContainerId) :
    ((removeContainer other (.ok ())).exec host).2.withId id =
      if id = other then [] else host.withId id := by
  simp only [exec, withId, filter_filter]
  split
  · next h =>
    simp [h]
  · next h =>
    refine filter_congr fun container _ => ?_
    by_cases hid : container.id = id
    · simp [hid, h]
    · simp [hid]

theorem reaped_removeContainer (host : Host) (id : ContainerId) (answer : Answer) :
    Reaped (· = id) host ((removeContainer id answer).exec host).2 := by
  cases answer with
  | error e => exact .refl host
  | ok _ =>
    refine ⟨rfl, fun _ => rfl, fun other hother => ?_, fun other hgone => ?_⟩
    · rw [withId_removeContainer, if_neg hother]
    · rw [withId_removeContainer, hgone, ite_self]

theorem reaped_setState (host : Host) (jobId : Uuid) (state : ContainerState) :
    Reaped hit host ((setState jobId state).exec host).2 := by
  refine ⟨rfl, fun other => ?_, fun _ _ => rfl, fun _ h => h⟩
  simp only [knownId, exec, modifyHandle_registry]
  by_cases h : other = jobId
  · subst h
    rw [Function.update_self]
    cases host.registry other with
    | none | some _ => rfl
  · rw [Function.update_of_ne h]

theorem reaped_revoke (host : Host) (jobId : Uuid) :
    Reaped hit host (run exec (revoke jobId) host).2 :=
  ⟨rfl, fun _ => rfl, fun _ _ => rfl, fun _ h => h⟩

/-- A container that is stopped and removed. -/
theorem reaped_stopAndRemove (host : Host) (id : ContainerId) (answers : StopAnswers) :
    Reaped (· = id) host (run exec (stopAndRemove id answers) host).2 :=
  (reaped_stopContainer host id _).trans (reaped_removeContainer _ id _)

/-- The containers that reaping one container may hit: itself, and the one that the handle of
its job knows. -/
def Host.hitBy (host : Host) (container : ReaperContainer) (id : ContainerId) : Prop :=
  container.id = id ∨ host.knownId container.jobId = some id

theorem run_stopJob_unknown {host : Host} {jobId : Uuid} (h : host.knownId jobId = none)
    (answers : StopAnswers) :
    run exec (stopJob jobId answers) host = (.error (.containerNotFound jobId), host) := by
  have hread : run exec (on (.containerId jobId)) host = (none, host) := by
    rw [← h]
    rfl
  rw [stopJob, run_bind, hread, run_pure]

theorem run_stopJob_known {host : Host} {jobId : Uuid}
    (h : host.knownId jobId = some id) (answers : StopAnswers) :
    run exec (stopJob jobId answers) host =
      (answers.connect.mapError .docker, if answers.connect.isOk then
        (run exec (revoke jobId) ((setState jobId .stopped).exec
          (run exec (stopAndRemove id answers) host).2).2).2 else host) := by
  have hread : run exec (on (.containerId jobId)) host = (some id, host) := by
    rw [← h]
    rfl
  rw [stopJob, run_bind, hread]
  cases answers.connect <;> rfl

theorem reaped_stopJob (host : Host) (jobId : Uuid) (answers : StopAnswers) :
    Reaped (fun id => host.knownId jobId = some id) host
      (run exec (stopJob jobId answers) host).2 := by
  cases hknown : host.knownId jobId with
  | none =>
    rw [run_stopJob_unknown hknown]
    exact .refl host
  | some id =>
    rw [run_stopJob_known hknown]
    cases answers.connect with
    | error e => exact .refl host
    | ok _ =>
      have hstop : Reaped (fun other => some id = some other) host
          (run exec (stopAndRemove id answers) host).2 :=
        (reaped_stopAndRemove host id _).mono fun other hother => by rw [hother]
      exact (hstop.trans (reaped_setState _ _ _)).trans (reaped_revoke _ _)

/-- Reaping a container hits only the container and the one that the handle knows. -/
theorem reapWithDocker_effect (host : Host) (container : ReaperContainer) (answers : ReapAnswers) :
    Reaped (host.hitBy container) host
      (run exec (reapWithDocker container.id container.jobId answers) host).2 := by
  have hstop : Reaped (host.hitBy container) host
      (run exec (stopJob container.jobId answers.manager) host).2 :=
    (reaped_stopJob host _ _).mono fun _ => .inr
  have hdirect : ∀ host', Reaped (host.hitBy container) host'
      (run exec (stopAndRemove container.id answers.direct) host').2 :=
    fun host' => (reaped_stopAndRemove host' _ _).mono
      fun _ hid => .inl hid.symm
  simp only [reapWithDocker, run_bind]
  cases (run exec (stopJob container.jobId answers.manager) host).1 with
  | ok _ => exact hstop
  | error e =>
    have hremoved := hstop.trans (hdirect _)
    obtain ⟨manager, connect, stop, remove⟩ := answers
    cases remove with
    | error e' => exact hremoved
    | ok _ => exact (hremoved.trans (reaped_setState _ _ _)).trans (reaped_revoke _ _)

/-- Through the job manager, the container that the handle knows is removed. -/
theorem reapWithDocker_known
    (hknown : host.knownId container.jobId = some id) {answers : ReapAnswers}
    (hconnect : answers.manager.connect = .ok ()) (hremove : answers.manager.remove = .ok ()) :
    (run exec (reapWithDocker container.id container.jobId answers) host).2.withId id = [] := by
  rw [reapWithDocker, run_bind, run_stopJob_known hknown, hconnect]
  obtain ⟨⟨connect, stop, remove⟩, direct⟩ := answers
  subst hremove
  exact (withId_removeContainer _ id id).trans (if_pos rfl)

/-- If the job manager cannot stop the job, the container itself is removed. -/
theorem reapWithDocker_direct {answers : ReapAnswers} {e : String}
    (hconnect : answers.manager.connect = .error e) (hremove : answers.direct.remove = .ok ()) :
    (run exec (reapWithDocker container.id container.jobId answers) host).2.withId
      container.id = [] := by
  have hstop : ∃ e', run exec (stopJob container.jobId answers.manager) host =
      (.error e', host) := by
    cases hknown : host.knownId container.jobId with
    | none => exact ⟨_, run_stopJob_unknown hknown _⟩
    | some id => exact ⟨_, by rw [run_stopJob_known hknown, hconnect]; rfl⟩
  obtain ⟨e', hstop⟩ := hstop
  rw [reapWithDocker, run_bind, hstop]
  obtain ⟨manager, connect, stop, remove⟩ := answers
  subst hremove
  exact (withId_removeContainer _ _ _).trans (if_pos rfl)

end Reaped

/-! ## The loop over the listed containers -/

section Loop

variable (config : ReaperConfig) (now : Timestamp)

/-- To the reaper, the container is an orphan. -/
def Host.isOrphan (host : Host) (container : ReaperContainer) : Bool :=
  isPastOrphanThreshold container.createdAt config now &&
    !contextActive (host.contexts.getContext container.jobId)

variable {config now} {answers : ContainerId → ReapAnswers} {host host' : Host}
  {hit : ContainerId → Prop}

theorem Reaped.isOrphan_eq (h : Reaped hit host host') (container : ReaperContainer) :
    host'.isOrphan config now container = host.isOrphan config now container := by
  rw [isOrphan, h.contexts, isOrphan]

theorem Reaped.hitBy_eq (h : Reaped hit host host') (container : ReaperContainer) :
    host'.hitBy container = host.hitBy container := by
  funext id
  rw [hitBy, h.knownId, hitBy]

/-- One round of the loop. -/
theorem run_reapOrphans_cons (container : ReaperContainer) (rest : List ReaperContainer) :
    run exec (reapOrphans config now answers (container :: rest)) host =
      run exec (reapOrphans config now answers rest)
        (if host.isOrphan config now container then
          (run exec
            (reapWithDocker container.id container.jobId (answers container.id)) host).2
        else host) := by
  rw [reapOrphans]
  by_cases hpast : isPastOrphanThreshold container.createdAt config now
  · have hfound : (run exec (on (.getContext container.jobId)) host) =
        (host.contexts.getContext container.jobId, host) := rfl
    simp only [hpast, Bool.not_true, Bool.false_eq_true, if_false, run_bind, hfound,
      isOrphan]
    cases contextActive (host.contexts.getContext container.jobId) with
    | true => rfl
    | false => simp
  · simp [hpast, isOrphan]

/-- The loop hits only what reaping one of the orphans hits. -/
theorem reapOrphans_effect (containers : List ReaperContainer) (host : Host) :
    Reaped (fun id => ∃ container ∈ containers,
        host.isOrphan config now container = true ∧ host.hitBy container id) host
      (run exec (reapOrphans config now answers containers) host).2 := by
  -- the contexts and the handles do not change, so every round sees the same orphans
  induction containers generalizing host with
  | nil => exact .refl host
  | cons container rest ih =>
    rw [run_reapOrphans_cons]
    split
    · next horphan =>
      have hfirst := reapWithDocker_effect host container (answers container.id)
      have hrest := ih (run exec
        (reapWithDocker container.id container.jobId (answers container.id)) host).2
      simp only [hfirst.isOrphan_eq, hfirst.hitBy_eq] at hrest
      refine (hfirst.mono fun id hid => ?_).trans (hrest.mono fun id hid => ?_)
      · exact ⟨container, mem_cons_self, horphan, hid⟩
      · obtain ⟨other, hother, hhit⟩ := hid
        exact ⟨other, mem_cons_of_mem _ hother, hhit⟩
    · refine (ih host).mono fun id hid => ?_
      obtain ⟨other, hother, hhit⟩ := hid
      exact ⟨other, mem_cons_of_mem _ hother, hhit⟩

/-- A container that is removed when one of the orphans is reaped is gone after the loop. -/
theorem reapOrphans_gone {containers : List ReaperContainer} (hmem : container ∈ containers)
    (horphan : host.isOrphan config now container = true)
    (hreap : ∀ host', Reaped (fun _ => True) host host' →
      (run exec (reapWithDocker container.id container.jobId (answers container.id))
        host').2.withId id = []) :
    (run exec (reapOrphans config now answers containers) host).2.withId id = [] := by
  induction containers generalizing host with
  | nil => cases hmem
  | cons first rest ih =>
    rw [run_reapOrphans_cons]
    rcases mem_cons.1 hmem with rfl | hrest
    · rw [if_pos horphan]
      exact (reapOrphans_effect rest _).gone id (hreap host (.refl host))
    · split
      · have hfirst : Reaped (fun _ => True) host (run exec
            (reapWithDocker first.id first.jobId (answers first.id)) host).2 :=
          (reapWithDocker_effect host _ _).mono fun _ _ => trivial
        exact ih hrest ((hfirst.isOrphan_eq _).trans horphan)
          fun host' hhost' => hreap host' (hfirst.trans hhost')
      · exact ih hrest horphan hreap

end Loop

/-! ## The containers that a scan leaves alone -/

section Scan

variable (config : ReaperConfig) (now : Timestamp) (host : Host) (id : ContainerId)

/-- The scan leaves the container as it is, whatever the daemon answers. -/
def Spared : Prop :=
  ∀ listed answers,
    (run exec (scanAndReap config now listed answers) host).2.withId id = host.withId id

/-- No orphan is the container, or belongs to a job whose handle knows the container. -/
def Covered : Prop :=
  ∀ container ∈ host.containers.filterMap Container.labelled,
    host.isOrphan config now container = true → ¬ host.hitBy container id

variable {config now host id}

/-- Answers with which the container is removed. -/
theorem exists_answers_gone {containers : List ReaperContainer}
    (hmem : container ∈ containers) (horphan : host.isOrphan config now container = true)
    (hhit : host.hitBy container id) :
    ∃ answers,
      (run exec (reapOrphans config now answers containers) host).2.withId id = [] := by
  rcases hhit with hid | hknown
  · refine ⟨fun _ => ⟨⟨.error "", .ok (), .ok ()⟩, .succeeding⟩,
      reapOrphans_gone hmem horphan fun host' _ => ?_⟩
    rw [← hid]
    exact reapWithDocker_direct rfl rfl
  · refine ⟨fun _ => ⟨.succeeding, .succeeding⟩,
      reapOrphans_gone hmem horphan fun host' hhost' => ?_⟩
    exact reapWithDocker_known ((hhost'.knownId _).trans hknown) rfl rfl

/-- A scan leaves a container alone exactly if no orphan stands for it. -/
theorem spared_iff (hpresent : host.withId id ≠ []) :
    Spared config now host id ↔ Covered config now host id := by
  constructor
  · intro hspared container hmem horphan hhit
    obtain ⟨answers, hgone⟩ := exists_answers_gone hmem horphan hhit
    exact hpresent ((hspared (.ok ()) _).symm.trans hgone)
  · intro hcovered listed answers
    cases listed with
    | error e => rfl
    | ok _ =>
      refine (reapOrphans_effect _ host).spared id ?_
      rintro ⟨container, hmem, horphan, hhit⟩
      exact hcovered _ hmem horphan hhit

theorem mem_withId {container : Container} (hmem : container ∈ host.containers) :
    container ∈ host.withId container.id :=
  mem_filter.2 ⟨hmem, decide_eq_true rfl⟩

/-- A container is not spared by a scan that leaves no container. -/
theorem not_spared {container : Container} (hmem : container ∈ host.containers) {listed : Answer}
    {answers : ContainerId → ReapAnswers}
    (hgone : (run exec (scanAndReap config now listed answers) host).2.containers = []) :
    ¬ Spared config now host container.id := by
  intro hspared
  have hfound := mem_withId hmem
  rw [← hspared _ _, withId, hgone] at hfound
  cases hfound

end Scan

/-! ## Histories -/

/-- What happens on the host: an operation of some call, the begin of a call that stops a job,
or a scan. -/
inductive HostEvent where
  | op (op : HostOp)
  | stopCalled (jobId : Uuid)
  | scan (config : ReaperConfig) (now : Timestamp) (listed : Answer)
      (answers : ContainerId → ReapAnswers)

/-- The host, and the jobs that have been stopped or completed. -/
structure Watched where
  host : Host
  ended : List Uuid

namespace Watched

def step (s : Watched) : HostEvent → Watched
  | .op op =>
    { host := (op.exec s.host).2, ended := (op.report?.map Prod.fst).toList ++ s.ended }
  | .stopCalled jobId => { s with ended := jobId :: s.ended }
  | .scan config now listed answers =>
    { s with host := (run exec (scanAndReap config now listed answers) s.host).2 }

/-- The handle of the job says that it is running, and nobody has stopped or completed it. -/
def Live (s : Watched) (container : Container) : Prop :=
  ∃ jobId handle, container.jobId = some jobId ∧ s.host.registry jobId = some handle ∧
    (handle.state = .creating ∨ handle.state = .running) ∧ jobId ∉ s.ended

end Watched

/-- Configuration and time of a scan. -/
def HostEvent.scan? : HostEvent → Option (ReaperConfig × Timestamp)
  | scan config now _ _ => some (config, now)
  | _ => none

/-- A scan leaves the containers of running jobs alone. -/
def SparesLive (s : Watched) (event : HostEvent) : Prop :=
  ∀ scan ∈ event.scan?, ∀ container ∈ s.host.containers, s.Live container →
    Spared scan.1 scan.2 s.host container.id

/-- When a scan begins, no orphan stands for the container of a running job. -/
def CoversLive (s : Watched) (event : HostEvent) : Prop :=
  ∀ scan ∈ event.scan?, ∀ container ∈ s.host.containers, s.Live container →
    Covered scan.1 scan.2 s.host container.id

theorem sparesLive_iff (s : Watched) (event : HostEvent) :
    SparesLive s event ↔ CoversLive s event := by
  refine forall₂_congr fun scan _ => forall₃_congr fun container hmem _ => spared_iff ?_
  exact ne_nil_of_mem (mem_withId hmem)

/-- In every history, the scans leave the containers of running jobs alone exactly if at every
scan the orphans, which are old and have no active context, do not stand for one of them. -/
theorem live_containers_spared_iff (s : Watched) (events : List HostEvent) :
    Runs.AllSteps Watched.step SparesLive s events ↔
      Runs.AllSteps Watched.step CoversLive s events :=
  Runs.allSteps_congr (fun _ => True) (fun s event _ => sparesLive_iff s event)
    (fun _ _ _ => trivial) trivial _

/-- The operations of a call that creates a sandbox job. -/
def sandboxJobEvents : List HostEvent :=
  [.op (.createToken 1 sampleParams.token), .op (.storeGrants 1 []),
    .op (.insertHandle sampleParams.handle), .op (.connect (.ok ())),
    .op (.createContainer 1 0 (.ok ())), .op (.startContainer 0 (.ok ())),
    .op (.setContainerId 1 0)]

/-- A scan ten minutes later. -/
def sampleScan : HostEvent :=
  .scan ⟨600000⟩ 600000 (.ok ()) fun _ => ⟨.succeeding, .succeeding⟩

/-- Nobody has stopped the running job, and the scan removes its container. -/
theorem running_job_reaped :
    let s := sandboxJobEvents.foldl Watched.step ⟨.init 1, []⟩
    (∃ container ∈ s.host.containers, s.Live container ∧ container.running = true) ∧
      (s.step sampleScan).host.containers = [] ∧
      ¬ Runs.AllSteps Watched.step SparesLive ⟨.init 1, []⟩ (sandboxJobEvents ++ [sampleScan]) := by
  have hlive : ∃ container ∈ (sandboxJobEvents.foldl Watched.step ⟨.init 1, []⟩).host.containers,
      (sandboxJobEvents.foldl Watched.step ⟨.init 1, []⟩).Live container ∧
        container.running = true := by
    refine ⟨⟨0, some 1, some 0, true⟩, by decide +kernel, ?_, rfl⟩
    exact ⟨1, _, rfl, rfl, .inr rfl, by decide +kernel⟩
  have hgone : ((sandboxJobEvents.foldl Watched.step ⟨.init 1, []⟩).step sampleScan).host.containers =
      [] := by decide +kernel
  refine ⟨hlive, hgone, fun hall => ?_⟩
  obtain ⟨container, hmem, hcontainer, _⟩ := hlive
  exact not_spared hmem hgone (hall.last _ rfl container hmem hcontainer)

end Axinite.Orchestrator
