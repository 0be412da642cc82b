import TPUSwarm.Store.Schema

/-!
# The SkyPilot adapter

The adapter turns a job definition into a SkyPilot configuration and submits it. SkyPilot is
a parameter: how it reads a configuration, and what its API server answers, which has a
state of its own. Whatever goes wrong there is one error for the controller.
-/

namespace TPUSwarm

open Common

/-- What SkyPilot answers to a launch: the ids of the jobs, alone or in front of a resource handle. -/
inductive SkyResponse
  | tuple (jobIds : Option (List ℤ))
  | value (jobIds : Option (List ℤ))

/-- `response[0] if isinstance(response, tuple) else response`. -/
def SkyResponse.jobIds : SkyResponse → Option (List ℤ)
  | tuple jobIds | value jobIds => jobIds

/-- The parts of SkyPilot that a launch uses. `σ` is the state of its API server. -/
structure Sky (σ : Type) where
  Task : Type
  Request : Type
  fromYamlConfig : Mapping → Except PyError Task
  launch : Task → String → Option Json → σ → Except PyError Request × σ
  streamAndGet : Request → σ → Except PyError SkyResponse × σ

/-- `if value is not None: result[key] = value`. -/
def setUnlessNone (result : Mapping) (key : String) (value : Option Json) : Mapping :=
  value.elim result (result.set key)

/-- `dict(value) or None`. -/
def dictOrNone (value : Mapping) : Option Json := if value.entries = [] then none else some (.obj value)

/-- `ManagedJobSpec.to_sky_config`: what is `None` or an empty mapping is left out. -/
def ManagedJobSpec.toSkyConfig (job : ManagedJobSpec) (priority : Priority) : Mapping :=
  let resources := job.resources.set "priority" (.int priority.toInt)
  let result := (((((Dict.empty.set "name" (.str job.name)).set "run" (.str job.run)).set "resources"
    (.obj resources)).set "num_nodes" job.numNodes).set "api_server_access" (.bool job.apiServerAccess))
  let result := setUnlessNone result "setup" job.setup
  let result := setUnlessNone result "workdir" job.workdir
  let result := setUnlessNone result "envs" (dictOrNone job.envs)
  let result := setUnlessNone result "secrets" (dictOrNone (job.secrets.mapValues Json.str))
  let result := setUnlessNone result "file_mounts" (dictOrNone job.fileMounts)
  setUnlessNone result "config" (dictOrNone job.config)

/-- Only the given key is written. -/
theorem get?_setUnlessNone {result : Mapping} {key other : String} {value : Option Json} (h : other ≠ key) :
    (setUnlessNone result key value).get? other = result.get? other := by
  cases value with
  | none => rfl
  | some value => simp [setUnlessNone, Dict.get?_set, h]

/-- A configuration names its job. -/
theorem ManagedJobSpec.get?_toSkyConfig_name (job : ManagedJobSpec) (priority : Priority) :
    (job.toSkyConfig priority).get? "name" = some (.str job.name) := by
  simp [toSkyConfig, get?_setUnlessNone, Dict.get?_set]

namespace SkyPilotBackend

variable {σ : Type}

/-- What `SkyPilotBackend._sky` raises when SkyPilot is not installed. -/
def skyMissing : PyError := ⟨.runtime, "SkyPilot is required; install TPUSwarm with its 'skypilot' extra"⟩

/-- The error that stands for whatever a launch has raised. -/
def launchFailed (e : PyError) : PyError := ⟨.backendUnavailable, "SkyPilot launch failed: " ++ e.text⟩

/-- The part of `SkyPilotBackend._launch` inside of its `try`. -/
def request (sky : Sky σ) (job : ManagedJobSpec) (priority : Priority) (server : σ) :
    Except PyError SkyResponse × σ :=
  match sky.fromYamlConfig (job.toSkyConfig priority) with
  | .error e => (.error e, server)
  | .ok task =>
    match sky.launch task job.name job.pool server with
    | (.error e, server) => (.error e, server)
    | (.ok requestId, server) => sky.streamAndGet requestId server

/-- `SkyPilotBackend.launch`, which runs `_launch`. -/
def launch (installed : Option (Sky σ)) (job : ManagedJobSpec) (priority : Priority) (server : σ) :
    Except PyError ExecutorJob × σ :=
  match installed with
  | none => (.error skyMissing, server)
  | some sky =>
    match request sky job priority server with
    | (.error e, server) => (.error (launchFailed e), server)
    | (.ok response, server) =>
      match response.jobIds with
      | some (jobId :: _) => (.ok { jobId := toString jobId, name := job.name, status := "PENDING" }, server)
      | _ => (.error ⟨.backendUnavailable, "SkyPilot did not return a managed job ID"⟩, server)

/-- SkyPilot rejects the configuration of a job. -/
def RejectsJob (sky : Sky σ) (job : ManagedJobSpec) (priority : Priority) : Prop :=
  ∃ e, sky.fromYamlConfig (job.toSkyConfig priority) = .error e

/-- A launch succeeds whatever the state of the server, and the job gets an id that none was given before. -/
def AcceptsJob (sky : Sky σ) (given : σ → Set String) (job : ManagedJobSpec) (priority : Priority) : Prop :=
  ∀ server, ∃ launched server', launch (some sky) job priority server = (.ok launched, server') ∧
    launched.jobId ∉ given server ∧ given server' = insert launched.jobId (given server)

/-- A rejected configuration reaches the controller as an unavailable backend, and leaves the server alone. -/
theorem RejectsJob.launch_eq {sky : Sky σ} {job : ManagedJobSpec} {priority : Priority}
    (h : RejectsJob sky job priority)
    (server : σ) :
    ∃ e, e.kind = .backendUnavailable ∧ launch (some sky) job priority server = (.error e, server) := by
  obtain ⟨e, he⟩ := h
  refine ⟨launchFailed e, rfl, ?_⟩
  simp [launch, request, he]

end SkyPilotBackend

end TPUSwarm
