import TPUSwarm.Common.Refinement
import TPUSwarm.Queue
import TPUSwarm.Solo.Launches
import TPUSwarm.Store.Origins

/-!
# One controller with the SkyPilot adapter

The controller launches and lists its jobs through the adapter. SkyPilot is only taken to create one job for a
launch that it answers with an id, or none, and to show in its queue every job that it has created. The adapter then
keeps every promise of a backend, so that what holds of one controller with such a backend holds with SkyPilot.
-/

namespace TPUSwarm

open Common Relation SwarmStore

/-- A managed job of the account. -/
structure SkyJob where
  jobId : ℤ
  name : String
deriving DecidableEq

/-- The job as the control plane knows it. -/
def SkyJob.toRemote (job : SkyJob) : RemoteJob := ⟨toString job.jobId, job.name⟩

variable {σ : Type}

/-- What SkyPilot does, where `jobs` are the jobs that the adapter has launched. Jobs of others in the queue have
names that no task has. -/
structure SkyPromises (sky : Sky σ) (queue : SkyQueue σ) (jobs : σ → List SkyJob) : Prop where
  launch : ∀ job priority server outcome server',
    SkyPilotBackend.request sky job priority server = (outcome, server') →
      (∃ response jobId rest, outcome = .ok response ∧ response.jobIds = some (jobId :: rest) ∧
        (∀ j ∈ jobs server, j.jobId ≠ jobId) ∧ jobs server' = jobs server ++ [⟨jobId, job.name⟩]) ∨
      ((∀ response, outcome = .ok response → response.jobIds = none ∨ response.jobIds = some []) ∧
        jobs server' = jobs server)
  lookup : ∀ server outcome server', SkyPilotBackend.lookup queue server = (outcome, server') →
    jobs server' = jobs server
  missing : ∀ server e server', SkyPilotBackend.lookup queue server = (.error e, server') →
    e.kind = SkyPilotBackend.clusterMissing → jobs server = []
  shows : ∀ server response server', SkyPilotBackend.lookup queue server = (.ok response, server') →
    (∀ j ∈ jobs server, ∃ raw ∈ response.records, SkyPilotBackend.Describes raw j.jobId j.name) ∧
      ∀ raw ∈ response.records, ∃ jobId name, SkyPilotBackend.Describes raw jobId name ∧
        (⟨jobId, name⟩ ∈ jobs server ∨ ∀ taskId, name ≠ executorName taskId)

/-- The store, the API server of SkyPilot, and the list of jobs received last. -/
structure SkySite (σ : Type) where
  store : SwarmStore
  server : σ
  listed : List ExecutorJob

/-- What a site is to the control plane. -/
def SkySite.toSite (jobs : σ → List SkyJob) (site : SkySite σ) : Site :=
  ⟨site.store, (jobs site.server).map SkyJob.toRemote, site.listed⟩

/-- The effect of one operation through the adapter. -/
inductive SkyExecutes (sky : Sky σ) (queue : SkyQueue σ) :
    (op : Operation) → SkySite σ → op.Reply → SkySite σ → Prop
  | store {site call now clock outcome store'}
      (hperform : call.perform (now.getD clock) site.store = (outcome, store')) :
      SkyExecutes sky queue (.store call now) site outcome { site with store := store' }
  | listJobs {site outcome server'} (hlist : SkyPilotBackend.listJobs (some queue) site.server =
    (outcome, server')) :
      SkyExecutes sky queue .listJobs site outcome ⟨site.store, server', outcome.toOption.getD site.listed⟩
  | launch {site task spec priority outcome server'}
      (hlaunch : SkyPilotBackend.launch (some sky) spec priority site.server = (outcome, server')) :
      SkyExecutes sky queue (.launch task spec priority) site outcome { site with server := server' }

/-- One controller with the adapter, among calls of the API. Beside it, the server goes on by itself. -/
def skySystem (controllers : TPUSwarmController → Prop) (sky : Sky σ) (queue : SkyQueue σ)
    (evolves : σ → σ → Prop) :
    Pool Unit (SkySite σ) CycleOutcome Operation Operation.Reply where
  exec _ := SkyExecutes sky queue
  begins _ last site program site' :=
    site' = site ∧ ∃ controller now, controllers controller ∧ program = controller.reconcileOnce last.2 now
  crash _ site outcome site' := site' = site ∧ outcome.2 = none
  env site site' :=
    (∃ (call : Call) (now : Time), call.isApi = true ∧
      site' = { site with store := (call.perform now site.store).2 }) ∨
      ∃ server', evolves site.server server' ∧ site' = { site with server := server' }

variable {sky : Sky σ} {queue : SkyQueue σ} {jobs : σ → List SkyJob}

/-- Every task names its job after its id. -/
def NamedRows (store : SwarmStore) : Prop := ∀ row ∈ store.tasks.rows, row.jobName = executorName row.taskId

/-- The columns of a name are only written when its row is inserted. -/
theorem untouched_names : Untouched fun row : TaskRow => (row.taskId, row.jobName) where
  admitted _ _ := rfl
  bound _ _ _ _ := rfl
  reset _ _ _ := rfl
  refused _ _ _ := rfl
  observed _ _ _ := rfl

/-- Every call keeps the names. -/
theorem NamedRows.perform {store : SwarmStore} (h : NamedRows store) (call : Call) (now : Time) :
    NamedRows (call.perform now store).2 := by
  rcases call.perform_store now store with hsame | ⟨result, hrun⟩
  · rwa [hsame]
  obtain ⟨added, hcolumns, hnew⟩ := untouched_names.run (fun _ _ _ _ _ _ => rfl) hrun
  intro row hrow
  have hmem : (row.taskId, row.jobName) ∈ store.tasks.rows.map (fun row => (row.taskId, row.jobName)) ++
      added.map fun row => (row.taskId, row.jobName) := by
    rw [← hcolumns]
    exact List.mem_map_of_mem hrow
  rcases List.mem_append.mp hmem with hold | hadded
  · obtain ⟨old, hold, heq⟩ := List.mem_map.mp hold
    obtain ⟨hid, hname⟩ := Prod.mk.inj heq
    rw [← hid, ← hname]
    exact h old hold
  · obtain ⟨new, hmem, heq⟩ := List.mem_map.mp hadded
    obtain ⟨hid, hname⟩ := Prod.mk.inj heq
    obtain ⟨spec, workflowId, componentKey, generation, insertedAt, rfl⟩ := hnew new hmem
    rw [← hid, ← hname]
    rfl

/-- Every list that the adapter returns is right. -/
theorem SkyPromises.lists (h : SkyPromises sky queue jobs) {site : SkySite σ} (hnamed : NamedRows site.store)
    {listed : List ExecutorJob} {server' : σ}
    (hlist : SkyPilotBackend.listJobs (some queue) site.server = (.ok listed, server')) :
    Lists (site.toSite jobs) listed := by
  unfold SkyPilotBackend.listJobs at hlist
  dsimp only at hlist
  split at hlist
  · rename_i e after hlookup
    split at hlist
    · rename_i hmissing
      cases hlist
      have hempty := h.missing _ _ _ hlookup hmissing
      constructor
      · intro r hr
        simp [SkySite.toSite, hempty] at hr
      · exact fun job hjob => absurd hjob List.not_mem_nil
    · cases hlist
  · rename_i response after hlookup
    obtain ⟨hresult, -⟩ := Prod.mk.inj hlist
    obtain ⟨hread, hfrom⟩ := forall₂_mem (mapM_eq_ok.mp hresult)
    obtain ⟨hshown, hknown⟩ := h.shows _ _ _ hlookup
    constructor
    · intro r hr
      obtain ⟨j, hj, rfl⟩ := List.mem_map.mp hr
      obtain ⟨raw, hraw, hdescribes⟩ := hshown j hj
      obtain ⟨job, hjob, hok⟩ := hread raw hraw
      exact ⟨job, hjob, hdescribes.read hok⟩
    · intro job hjob
      obtain ⟨raw, hraw, hok⟩ := hfrom job hjob
      obtain ⟨jobId, name, hdescribes, hours | hforeign⟩ := hknown raw hraw
      · obtain ⟨hid, hname⟩ := hdescribes.read hok
        left
        rw [hid, hname]
        exact List.mem_map.mpr ⟨_, hours, rfl⟩
      · right
        intro row hrow _
        rw [(hdescribes.read hok).2, hnamed row hrow]
        exact hforeign row.taskId

/-- Looking the queue up creates no job. -/
theorem SkyPromises.listed_jobs (h : SkyPromises sky queue jobs) {server server' : σ}
    {outcome : Except PyError (List ExecutorJob)}
    (hlist : SkyPilotBackend.listJobs (some queue) server = (outcome, server')) : jobs server' = jobs server := by
  unfold SkyPilotBackend.listJobs at hlist
  dsimp only at hlist
  split at hlist
  · rename_i hlookup
    split at hlist <;> exact (Prod.mk.inj hlist).2 ▸ h.lookup _ _ _ hlookup
  · rename_i hlookup
    exact (Prod.mk.inj hlist).2 ▸ h.lookup _ _ _ hlookup

/-- A launch of the adapter creates one job with a fresh id and the name asked for, or it raises that the backend is
unavailable, and has created nothing. -/
theorem SkyPromises.launches (h : SkyPromises sky queue jobs) {site : SkySite σ} {spec : ManagedJobSpec}
    {priority : Priority} {outcome : Except PyError ExecutorJob} {server' : σ}
    (hlaunch : SkyPilotBackend.launch (some sky) spec priority site.server = (outcome, server')) :
    ∃ created, LaunchesOne (site.toSite jobs) spec created outcome ∧
      (jobs server').map SkyJob.toRemote = (jobs site.server).map SkyJob.toRemote ++ created := by
  unfold SkyPilotBackend.launch at hlaunch
  dsimp only at hlaunch
  split at hlaunch
  · rename_i e after hrequest
    cases hlaunch
    rcases h.launch _ _ _ _ _ hrequest with ⟨response, _, _, heq, -⟩ | ⟨-, hsame⟩
    · cases heq
    · exact ⟨[], ⟨rfl, rfl⟩, by rw [hsame, List.append_nil]⟩
  · rename_i response after hrequest
    split at hlaunch
    · rename_i jobId rest hids
      cases hlaunch
      rcases h.launch _ _ _ _ _ hrequest with ⟨answered, id, more, heq, hfound, hfresh, hjobs⟩ | ⟨hnone, -⟩
      · cases heq
        obtain ⟨rfl, rfl⟩ := List.cons.inj (Option.some.inj (hids.symm.trans hfound))
        refine ⟨[⟨toString jobId, spec.name⟩], ⟨rfl, fun r hr heq => ?_, rfl⟩, ?_⟩
        · obtain ⟨j, hj, rfl⟩ := List.mem_map.mp hr
          exact hfresh j hj (toString_int_injective heq)
        · rw [hjobs, List.map_append]
          rfl
      · rcases hnone response rfl with hids' | hids' <;> rw [hids] at hids' <;> cases hids'
    · rename_i hids
      cases hlaunch
      rcases h.launch _ _ _ _ _ hrequest with ⟨answered, id, more, heq, hfound, -⟩ | ⟨-, hsame⟩
      · cases heq
        exact absurd hfound (hids id more)
      · exact ⟨[], ⟨rfl, rfl⟩, by rw [hsame, List.append_nil]⟩

/-- The controller with the adapter is the controller with a backend that keeps its promises. -/
theorem SkyPromises.refines (h : SkyPromises sky queue jobs) (controllers : TPUSwarmController → Prop)
    {evolves : σ → σ → Prop} (hevolves : ∀ server server', evolves server server' → jobs server' = jobs server) :
    (skySystem controllers sky queue evolves).Refines (Deployment.honest controllers).system (SkySite.toSite jobs)
      fun site => NamedRows site.store where
  exec _ op site reply site' hnamed hexec := by
    cases hexec with
    | @store _ call now clock outcome store' hperform =>
      refine ⟨?_, .store (fun _ => trivial) hperform⟩
      have hkept := hnamed.perform call (now.getD clock)
      rwa [hperform] at hkept
    | @listJobs _ outcome server' hlist =>
      refine ⟨hnamed, ?_⟩
      have hsite : SkySite.toSite jobs ⟨site.store, server', outcome.toOption.getD site.listed⟩ =
          { site.toSite jobs with listed := outcome.toOption.getD site.listed } := by
        simp only [SkySite.toSite, h.listed_jobs hlist]
      rw [hsite]
      cases outcome with
      | ok listed => exact .listJobs (h.lists hnamed hlist)
      | error e => exact .listFails
    | @launch _ task spec priority outcome server' hlaunch =>
      refine ⟨hnamed, ?_⟩
      obtain ⟨created, hone, hjobs⟩ := h.launches hlaunch
      have hsite : SkySite.toSite jobs { site with server := server' } =
          { site.toSite jobs with created := (site.toSite jobs).created ++ created } := by
        simp only [SkySite.toSite, hjobs]
      rw [hsite]
      exact .launch hone
  begins _ last site program site' hnamed hbegins := by
    obtain ⟨rfl, hcontroller⟩ := hbegins
    exact ⟨hnamed, rfl, hcontroller⟩
  crash _ site outcome site' hnamed hcrash := by
    obtain ⟨rfl, houtcome⟩ := hcrash
    exact ⟨hnamed, rfl, houtcome⟩
  env site site' hnamed henv := by
    rcases henv with ⟨call, now, hcall, rfl⟩ | ⟨server', hevolve, rfl⟩
    · exact ⟨hnamed.perform call now, Or.inl ⟨call, now, hcall, rfl⟩⟩
    · refine ⟨hnamed, Or.inr ?_⟩
      simp only [SkySite.toSite, hevolves _ _ hevolve]

/-- Nothing happened yet to the control plane. -/
def skyInitial (controllers : TPUSwarmController → Prop) (sky : Sky σ) (queue : SkyQueue σ) (evolves : σ → σ → Prop)
    (server : σ) : (skySystem controllers sky queue evolves).State :=
  ⟨⟨.empty, server, []⟩, fun _ => .pure Deployment.notRun⟩

/-- Through the adapter, SkyPilot never has two jobs for one task, and a task that is submitted or running names a
job that SkyPilot has. -/
theorem sky_launches_once (h : SkyPromises sky queue jobs) {controllers : TPUSwarmController → Prop}
    {evolves : σ → σ → Prop} (hevolves : ∀ server server', evolves server server' → jobs server' = jobs server)
    (hnames : ∀ controller, controllers controller → ∀ task spec,
      controller.compileJob task = .ok spec → spec.name = task.jobName)
    {server : σ} (hserver : jobs server = []) {s : (skySystem controllers sky queue evolves).State}
    (hrun : (skySystem controllers sky queue evolves).Run (skyInitial controllers sky queue evolves server) s) :
    (jobs s.world.server).Pairwise (fun a b => a.name ≠ b.name) ∧
      ∀ row ∈ s.world.store.tasks.rows, row.status = .submitted ∨ row.status = .running →
        ∃ job ∈ jobs s.world.server, row.jobId = some (toString job.jobId) ∧ job.name = row.jobName := by
  have hstart : NamedRows SwarmStore.empty := fun row hrow => absurd hrow List.not_mem_nil
  have hreachable : (Deployment.honest controllers).Reachable (s.abstract (SkySite.toSite jobs) _) := by
    have hinitial : (skyInitial controllers sky queue evolves server).abstract (SkySite.toSite jobs)
        (Deployment.honest controllers).system = (Deployment.honest controllers).initial := by
      simp only [skyInitial, Pool.State.abstract, SkySite.toSite, hserver, List.map_nil]
      rfl
    have habstract := ((h.refines controllers hevolves).run hrun hstart).2
    rwa [hinitial] at habstract
  obtain ⟨hdistinct, haccounted⟩ := hreachable.launches hnames
  have hpairs : ((jobs s.world.server).map SkyJob.toRemote).Pairwise fun a b => a.name ≠ b.name := hdistinct
  have hjobs := List.pairwise_map.mp hpairs
  refine ⟨hjobs, fun row hrow hactive => ?_⟩
  obtain ⟨jobId, hjob⟩ := Option.ne_none_iff_exists'.mp ((hreachable.invariant.1 row hrow).active hactive)
  obtain ⟨job, hmem, heq⟩ := List.mem_map.mp (haccounted.bound row hrow jobId hjob)
  obtain ⟨hid, hname⟩ := RemoteJob.mk.inj heq
  exact ⟨job, hmem, by rw [hjob, hid], hname⟩

/-- A choice of the next step. -/
inductive SkyCommand
  | begin (now : Time)
  | act (clock : Time)
  | api (call : Call) (now : Time)

/-- The step a command chooses, if it is possible. -/
def skyPlay (controller : TPUSwarmController) (sky : Sky σ) (queue : SkyQueue σ) (evolves : σ → σ → Prop) :
    SkyCommand → (skySystem (· = controller) sky queue evolves).State →
      Option (skySystem (· = controller) sky queue evolves).State
  | .begin now, s =>
    match s.progs () with
    | .pure last => some ⟨s.world, Function.update s.progs () (controller.reconcileOnce last.2 now)⟩
    | _ => none
  | .act clock, s =>
    match s.progs () with
    | .op (.store call now) next =>
      let performed := call.perform (now.getD clock) s.world.store
      some ⟨{ s.world with store := performed.2 }, Function.update s.progs () (next performed.1)⟩
    | .op .listJobs next =>
      let result := SkyPilotBackend.listJobs (some queue) s.world.server
      some ⟨⟨s.world.store, result.2, result.1.toOption.getD s.world.listed⟩,
        Function.update s.progs () (next result.1)⟩
    | .op (.launch _ spec priority) next =>
      let result := SkyPilotBackend.launch (some sky) spec priority s.world.server
      some ⟨{ s.world with server := result.2 }, Function.update s.progs () (next result.1)⟩
    | .pure _ => none
  | .api call now, s =>
    if call.isApi = true then some ⟨{ s.world with store := (call.perform now s.world.store).2 }, s.progs⟩ else none

/-- Commands choose steps. -/
theorem skyPlay_step {controller : TPUSwarmController} {evolves : σ → σ → Prop} {command : SkyCommand}
    {s s' : (skySystem (· = controller) sky queue evolves).State}
    (h : skyPlay controller sky queue evolves command s = some s') :
    (skySystem (· = controller) sky queue evolves).Step s s' := by
  cases command with
  | begin now =>
    simp only [skyPlay] at h
    split at h
    · rename_i last hlast
      cases h
      exact .begin () hlast ⟨rfl, controller, now, rfl, rfl⟩
    · cases h
  | act clock =>
    simp only [skyPlay] at h
    split at h
    · rename_i call now next hop
      cases h
      exact .act () hop (.store rfl)
    · rename_i next hop
      cases h
      exact .act () hop (.listJobs rfl)
    · rename_i task spec priority next hop
      cases h
      exact .act () hop (.launch rfl)
    · cases h
  | api call now =>
    obtain ⟨hcall, heq⟩ := Option.ite_none_right_eq_some.mp h
    cases heq
    exact .env (Or.inl ⟨call, now, hcall, rfl⟩)

/-- The jobs of a sample of SkyPilot, all of which have names. -/
abbrev SampleServer := List {job : SkyJob // job.name ≠ ""}

/-- An id greater than all of them. -/
def freshJobId (server : SampleServer) : ℤ := server.foldr (fun job n => max (job.1.jobId + 1) n) 1

/-- A fresh id is above all that were given. -/
theorem lt_freshJobId {server : SampleServer} {job : {job : SkyJob // job.name ≠ ""}} (h : job ∈ server) :
    job.1.jobId < freshJobId server := by
  induction server with
  | nil => cases h
  | cons first rest ih =>
    simp only [freshJobId, List.foldr_cons, lt_sup_iff]
    rcases List.mem_cons.mp h with rfl | h
    · exact Or.inl (by omega)
    · exact Or.inr (ih h)

/-- A sample of SkyPilot that gives each job with a name the next id. -/
def sampleCloud : Sky SampleServer where
  Task := Unit
  Request := ℤ
  fromYamlConfig _ := .ok ()
  launch _ name _ server :=
    if hname : name ≠ "" then (.ok (freshJobId server), server ++ [⟨⟨freshJobId server, name⟩, hname⟩])
    else (.error ⟨.value, "Task name must not be empty"⟩, server)
  streamAndGet jobId server := (.ok (.tuple (some [jobId])), server)

/-- The queue of the sample shows all jobs as running. -/
def sampleQueue : SkyQueue SampleServer where
  Request := Unit
  queueV2 server := (.ok (), server)
  get _ server := (.ok (.tuple (server.map fun job =>
    .model [("job_id", .int job.1.jobId), ("job_name", .str job.1.name),
    ("status", .dataclass "ManagedJobStatus" [("value", .str "RUNNING")])])), server)

/-- The sample keeps the promises. -/
theorem samplePromises : SkyPromises sampleCloud sampleQueue (List.map Subtype.val) where
  launch job priority server outcome server' h := by
    simp only [SkyPilotBackend.request, sampleCloud] at h
    by_cases hname : job.name ≠ ""
    · rw [dif_pos hname] at h
      cases h
      refine Or.inl ⟨_, _, _, rfl, rfl, fun j hj => ?_, by simp⟩
      obtain ⟨held, hheld, rfl⟩ := List.mem_map.mp hj
      exact (lt_freshJobId hheld).ne
    · rw [dif_neg hname] at h
      cases h
      exact Or.inr ⟨fun response hresponse => (by cases hresponse), rfl⟩
  lookup server outcome server' h := by
    cases h
    rfl
  missing server e server' h := by cases h
  shows server response server' h := by
    cases h
    refine ⟨fun j hj => ?_, fun raw hraw => ?_⟩
    · obtain ⟨held, hheld, rfl⟩ := List.mem_map.mp hj
      exact ⟨_, List.mem_map_of_mem hheld, held.2, _, rfl, rfl, rfl⟩
    · obtain ⟨held, hheld, rfl⟩ := List.mem_map.mp hraw
      exact ⟨held.1.jobId, held.1.name, ⟨held.2, _, rfl, rfl, rfl⟩, Or.inl (List.mem_map_of_mem hheld)⟩

/-- The sample task is launched through the adapter, and names the job that SkyPilot has. -/
theorem sky_launches_once_submitted :
    ∃ s : (skySystem (· = sampleController) sampleCloud sampleQueue fun _ _ => False).State,
      ∃ row ∈ s.world.store.tasks.rows, ∃ job ∈ s.world.server.map Subtype.val,
        row.jobId = some (toString job.jobId) ∧ job.name = row.jobName := by
  have hplay : ((Pool.plays (skyPlay sampleController sampleCloud sampleQueue fun _ _ => False)
      ([.api (.submitTask sampleTask) 0, .begin 1] ++ List.replicate 8 (.act 1)) (skyInitial _ _ _ _ [])).any
        fun s => s.world.store.tasks.rows.any (·.status = .submitted)) = true := by decide +kernel
  obtain ⟨s, hs, hcheck⟩ := (Option.any_eq_true _ _).mp hplay
  obtain ⟨row, hrow, hstatus⟩ := List.any_eq_true.mp hcheck
  have hrun := Pool.star_of_plays (fun _ _ _ => skyPlay_step) hs
  have hnames : ∀ controller, controller = sampleController → ∀ task spec,
      controller.compileJob task = .ok spec → spec.name = task.jobName := by
    rintro controller rfl task spec hspec
    exact sampleController_names hspec
  obtain ⟨-, hjobs⟩ := sky_launches_once samplePromises (fun _ _ h => False.elim h) hnames rfl hrun
  exact ⟨s, row, hrow, hjobs row hrow (Or.inl (of_decide_eq_true hstatus))⟩

end TPUSwarm
