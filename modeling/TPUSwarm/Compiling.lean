import TPUSwarm.Command
import TPUSwarm.Controller

/-!
# What the command handler compiles

Validation and compilation of a command are two separate sets of checks. `Accepted` is what validation
guarantees, and `Compilable` is what compilation needs beyond it; both are conditions on the payload alone.
-/

namespace TPUSwarm

open Common

namespace Json

/-- `list(value)` does not raise. -/
def isIterable (value : Json) : Bool :=
  match value.view with
  | .arr _ | .str _ | .obj _ => true
  | _ => false

/-- `int(value)` does not raise. -/
def isIntLike (value : Json) : Bool :=
  match value.view with
  | .bool _ | .int _ | .float _ => true
  | .str s => (spelledInt s).isSome
  | _ => false

/-- A text or `None`. -/
def isSecret (value : Json) : Bool :=
  match value.view with
  | .null | .str _ => true
  | _ => false

/-- Only `null` is viewed as `null`. -/
theorem eq_null {value : Json} (h : value.view = .null) : value = .null := by
  obtain ⟨tree, hcanonical⟩ := value
  cases tree with
  | null => rfl
  | _ => cases h

/-- A value can be iterated if it is a list, a text or a mapping. -/
theorem exists_items_iff {value : Json} : (∃ items, value.items = .ok items) ↔ value.isIterable = true := by
  unfold items isIterable
  split <;> simp_all

/-- `int` takes booleans, finite numbers and texts that spell an integer. -/
theorem exists_toInt_iff {value : Json} : (∃ n, value.toInt = .ok n) ↔ value.isIntLike = true := by
  unfold toInt isIntLike
  cases value.view with
  | str s => cases hspelled : spelledInt s <;> simp [hspelled]
  | _ => simp

/-- `dict` copies a mapping. -/
theorem toDict_of_isDict {value : Json} (h : value.isDict = true) :
    ∃ d, value.view = .obj d ∧ value.toDict = .ok d := by
  have hobj : ∃ d, value.view = .obj d := by
    unfold isDict at h
    split at h
    · rename_i d hview
      exact ⟨d, hview⟩
    · cases h
  obtain ⟨d, hview⟩ := hobj
  exact ⟨d, hview, by rw [toDict, hview]⟩

/-- A positive integer is not below one. -/
theorem belowOne_of_isPositiveInt {value : Json} (h : value.isPositiveInt = true) : value.belowOne = .ok false := by
  unfold isPositiveInt at h
  unfold belowOne
  cases hview : value.view with
  | bool b => simp_all
  | int n => simp_all
  | _ => simp_all

end Json

/-- A text of which a part is more than white space. -/
theorem isBlank_append {s t : String} (h : isBlank s = false) : isBlank (s ++ t) = false := by
  simp only [isBlank, String.toList_append, List.all_append, Bool.and_eq_false_iff] at h ⊢
  exact Or.inl h

/-- The job names of tasks are not blank. -/
theorem isBlank_executorName (taskId : String) : isBlank (SwarmStore.executorName taskId) = false := by
  simp only [SwarmStore.executorName, String.append_assoc]
  apply isBlank_append
  decide

/-- The entries of an optional field that is a mapping. -/
def entriesOf (payload : Mapping) (key : String) : Mapping :=
  match (mappingOf payload key).view with
  | .obj d => d
  | _ => Dict.empty

/-- A secret is resolved unless it is of another type, or `None` without a value in the environment. -/
theorem exists_resolveSecret_iff {environ : Environ} {name : String} {value : Json}
    (hdefined : value = .null → (environ.get? name).isSome) :
    (∃ s, resolveSecret environ name value = .ok s) ↔ value.isSecret = true := by
  unfold resolveSecret Json.isSecret
  cases hview : value.view with
  | null => simpa using Option.isSome_iff_exists.mp (hdefined (Json.eq_null hview))
  | _ => simp

namespace CommandAutoResumable

/-- Every secret that is `None` is defined in the environment. -/
def SecretsDefined (environ : Environ) (payload : Mapping) : Prop :=
  ∀ entry ∈ (entriesOf payload "secrets").entries, entry.2 = .null → (environ.get? entry.1).isSome

instance (environ : Environ) (payload : Mapping) : Decidable (SecretsDefined environ payload) :=
  inferInstanceAs (Decidable (∀ entry ∈ _, _ → _))

/-- What validation guarantees of the payload it returns. -/
structure Accepted (payload : Mapping) : Prop where
  argv : ∃ command, payload.get? "argv" = some command ∧ isArgv command = true
  probe : fieldOf payload "completion_probe_argv" ≠ .null → isArgv (fieldOf payload "completion_probe_argv") = true
  preemption : fieldOf payload "preemption_argv" ≠ .null → isArgv (fieldOf payload "preemption_argv") = true
  resources : ∃ resources, payload.get? "resources" = some resources ∧ resources.isDict = true
  mappings : ∀ key ∈ ["envs", "secrets", "file_mounts", "config"], (mappingOf payload key).isDict = true
  numNodes : ((payload.get? "num_nodes").getD (.int 1)).isPositiveInt = true

/-- What compilation needs beyond validation: the hooks and the timeout that a preemption hook goes with can be
read, a pool goes without what belongs to its definition, and the secrets are texts or `None`. -/
structure Compilable (payload : Mapping) : Prop where
  hooks : fieldOf payload "preemption_argv" ≠ .null →
    (((entriesOf payload "config").get? "hooks").getD (.arr [])).isIterable = true
  timeout : fieldOf payload "preemption_argv" ≠ .null →
    ((payload.get? "preemption_timeout").getD (.int 90)).isIntLike = true
  pool : fieldOf payload "pool" ≠ .null → fieldOf payload "setup" = .null ∧ fieldOf payload "workdir" = .null ∧
    (mappingOf payload "file_mounts").truthy = false
  secrets : ∀ entry ∈ (entriesOf payload "secrets").entries, entry.2.isSecret = true

instance (payload : Mapping) : Decidable (Compilable payload) :=
  decidable_of_iff (_ ∧ _ ∧ _ ∧ _) ⟨fun h => ⟨h.1, h.2.1, h.2.2.1, h.2.2.2⟩,
    fun h => ⟨h.hooks, h.timeout, h.pool, h.secrets⟩⟩

/-- An argument vector can be quoted for a shell. -/
theorem exists_shellJoin {value : Json} (h : isArgv value = true) : ∃ command, value.shellJoin = .ok command := by
  unfold isArgv at h
  split at h
  · rename_i items hview
    have hitems : value.items = .ok items := by rw [Json.items, hview]
    have hquoted : ∃ quoted, items.mapM Json.shellQuote = .ok quoted := by
      refine exists_mapM_eq_ok.mpr fun item hitem => ?_
      have hkey := List.all_eq_true.mp (Bool.and_eq_true_iff.mp h).2 item hitem
      unfold StaticMultiAutoResumable.isKey at hkey
      split at hkey
      · rename_i s hs
        exact ⟨quoteText s, by rw [Json.shellQuote, hs]⟩
      · cases hkey
    obtain ⟨quoted, hquoted⟩ := hquoted
    exact ⟨_, bind_eq_ok.mpr ⟨items, hitems, bind_eq_ok.mpr ⟨quoted, hquoted, rfl⟩⟩⟩
  · cases h

/-- The script of an accepted payload, which is never blank. -/
theorem exists_script {payload : Mapping} (h : Accepted payload) :
    ∃ lines, script payload = .ok ("set -euo pipefail" :: lines) := by
  have hprobing : ∃ lines, probing payload = .ok lines := by
    unfold probing
    dsimp only
    split
    · exact ⟨[], rfl⟩
    · rename_i hprobe
      obtain ⟨command, hcommand⟩ := exists_shellJoin (h.probe hprobe)
      exact ⟨_, bind_eq_ok.mpr ⟨command, hcommand, rfl⟩⟩
  obtain ⟨lines, hlines⟩ := hprobing
  obtain ⟨value, hvalue, hargv⟩ := h.argv
  obtain ⟨command, hcommand⟩ := exists_shellJoin hargv
  exact ⟨_, bind_eq_ok.mpr ⟨lines, hlines, bind_eq_ok.mpr ⟨value, orRaise_eq_ok.mpr hvalue,
    bind_eq_ok.mpr ⟨command, hcommand, rfl⟩⟩⟩⟩

/-- A script is never blank. -/
theorem isBlank_script (lines : List String) :
    isBlank ("\n".intercalate ("set -euo pipefail" :: lines)) = false := by
  have hfirst : isBlank "set -euo pipefail" = false := by decide
  cases lines with
  | nil => rwa [String.intercalate_singleton]
  | cons line rest =>
    rw [String.intercalate_cons_cons]
    exact isBlank_append (isBlank_append hfirst)

/-- `dict` copies a mapping of the payload. -/
theorem toDict_mappingOf {payload : Mapping} {key : String} (h : (mappingOf payload key).isDict = true) :
    (mappingOf payload key).toDict = .ok (entriesOf payload key) := by
  obtain ⟨d, hview, hdict⟩ := Json.toDict_of_isDict h
  rw [hdict, entriesOf, hview]

/-- The configuration can be built unless the preemption hook stands in the way. -/
theorem exists_hookedConfig_iff {payload : Mapping} (h : Accepted payload) :
    (∃ config, hookedConfig payload = .ok config) ↔ (fieldOf payload "preemption_argv" ≠ .null →
      (((entriesOf payload "config").get? "hooks").getD (.arr [])).isIterable = true ∧
        ((payload.get? "preemption_timeout").getD (.int 90)).isIntLike = true) := by
  have hconfig := toDict_mappingOf (h.mappings "config" (by simp))
  unfold hookedConfig
  rw [exists_bind_eq_ok]
  simp only [hconfig, Except.ok.injEq, exists_eq_left']
  by_cases hpreemption : fieldOf payload "preemption_argv" = .null
  · simp only [hpreemption, ↓reduceIte, ne_eq, not_true_eq_false, false_implies, iff_true]
    exact ⟨_, rfl⟩
  · obtain ⟨command, hcommand⟩ := exists_shellJoin (h.preemption hpreemption)
    simp only [hpreemption, ↓reduceIte, ne_eq, not_false_eq_true, forall_const, ← Json.exists_items_iff,
      ← Json.exists_toInt_iff, exists_bind_eq_ok, hcommand, Except.ok.injEq, exists_eq_left']
    constructor
    · rintro ⟨hooks, hhooks, timeout, htimeout, -⟩
      exact ⟨⟨hooks, hhooks⟩, ⟨timeout, htimeout⟩⟩
    · rintro ⟨⟨hooks, hhooks⟩, ⟨timeout, htimeout⟩⟩
      exact ⟨hooks, hhooks, timeout, htimeout, _, rfl⟩

/-- The secrets are resolved if they are texts or `None`. -/
theorem exists_resolveSecrets_iff {environ : Environ} {secrets : Mapping}
    (hdefined : ∀ entry ∈ secrets.entries, entry.2 = .null → (environ.get? entry.1).isSome) :
    (∃ resolved, resolveSecrets environ secrets = .ok resolved) ↔ ∀ entry ∈ secrets.entries,
      entry.2.isSecret = true := by
  unfold resolveSecrets
  rw [exists_bind_eq_ok]
  have hentries : (∃ resolved, secrets.entries.mapM (fun entry => do
      return (entry.1, ← resolveSecret environ entry.1 entry.2)) = .ok resolved) ↔
        ∀ entry ∈ secrets.entries, entry.2.isSecret = true := by
    rw [exists_mapM_eq_ok]
    refine forall₂_congr fun entry hentry => ?_
    rw [exists_bind_eq_ok, ← exists_resolveSecret_iff (hdefined entry hentry)]
    exact exists_congr fun s => and_iff_left ⟨_, rfl⟩
  rw [← hentries]
  exact exists_congr fun resolved => and_iff_left ⟨_, rfl⟩

/-- The constructor of a managed job accepts mappings, unless a pool meets what belongs to its definition or the
secrets are not resolved. -/
theorem exists_buildManagedJob_iff {environ : Environ} {job : ManagedJobArguments}
    {resources envs secrets fileMounts config : Mapping} (hname : isBlank job.name = false)
    (hrun : isBlank job.run = false) (hnodes : job.numNodes.belowOne = .ok false)
    (hresources : job.resources.toDict = .ok resources) (henvs : job.envs.toDict = .ok envs)
    (hsecrets : job.secrets.toDict = .ok secrets) (hmounts : job.fileMounts.toDict = .ok fileMounts)
    (hconfig : job.config.toDict = .ok config) :
    (∃ spec, buildManagedJob environ job = .ok spec) ↔
      (job.pool ≠ .null → job.setup = .null ∧ job.workdir = .null ∧ job.fileMounts.truthy = false) ∧
        ∃ resolved, resolveSecrets environ secrets = .ok resolved := by
  have hpool : (decide (job.pool = .null) || (decide (job.setup = .null) && decide (job.workdir = .null) &&
      !job.fileMounts.truthy)) = true ↔
        (job.pool ≠ .null → job.setup = .null ∧ job.workdir = .null ∧ job.fileMounts.truthy = false) := by
    simp [or_iff_not_imp_left, and_assoc]
  unfold buildManagedJob
  simp only [exists_bind_eq_ok, ensure_eq_ok, hname, hrun, hnodes, hresources, henvs, hsecrets, hmounts,
    hconfig, hpool, Except.ok.injEq, exists_eq_left', Bool.not_false, Bool.and_self, true_and, exists_const]
  exact and_congr_right fun _ => exists_congr fun resolved => and_iff_left ⟨_, rfl⟩

/-- A task with an accepted payload is compiled exactly if its payload is compilable. -/
theorem exists_managedJob_iff {environ : Environ} {task : TaskRecord} (h : Accepted task.payload)
    (hname : isBlank task.jobName = false) (hdefined : SecretsDefined environ task.payload) :
    (∃ spec, managedJob environ task = .ok spec) ↔ Compilable task.payload := by
  obtain ⟨lines, hlines⟩ := exists_script h
  obtain ⟨resources, hresources, hdict⟩ := h.resources
  obtain ⟨entries, -, hentries⟩ := Json.toDict_of_isDict hdict
  have henvs := toDict_mappingOf (h.mappings "envs" (by simp))
  have hsecrets := toDict_mappingOf (h.mappings "secrets" (by simp))
  have hmounts := toDict_mappingOf (h.mappings "file_mounts" (by simp))
  have hjobEnvs : ∃ envs, jobEnvs task = .ok envs := ⟨_, bind_eq_ok.mpr ⟨_, henvs, rfl⟩⟩
  obtain ⟨envs, hjobEnvs⟩ := hjobEnvs
  have hobj (d : Mapping) : (Json.obj d).toDict = .ok d := by rw [Json.toDict, Json.view_obj]
  unfold managedJob
  simp only [exists_bind_eq_ok, hlines, hjobEnvs, orRaise_eq_ok, hresources, Except.ok.injEq, Option.some.injEq,
    exists_eq_left']
  have hscript := isBlank_script lines
  have hnodes := Json.belowOne_of_isPositiveInt h.numNodes
  constructor
  · rintro ⟨config, hconfig, hspec⟩
    have hhook := (exists_hookedConfig_iff h).mp ⟨config, hconfig⟩
    obtain ⟨hpool, hresolved⟩ :=
      (exists_buildManagedJob_iff hname hscript hnodes hentries (hobj envs) hsecrets hmounts
      (hobj config)).mp hspec
    exact ⟨fun hp => (hhook hp).1, fun hp => (hhook hp).2, hpool, (exists_resolveSecrets_iff hdefined).mp hresolved⟩
  · intro hcompilable
    obtain ⟨config, hconfig⟩ := (exists_hookedConfig_iff h).mpr fun hp =>
      ⟨hcompilable.hooks hp, hcompilable.timeout hp⟩
    have hresolved := (exists_resolveSecrets_iff hdefined).mpr hcompilable.secrets
    exact ⟨config, hconfig, (exists_buildManagedJob_iff hname hscript hnodes hentries (hobj envs) hsecrets hmounts
      (hobj config)).mpr ⟨hcompilable.pool, hresolved⟩⟩

/-- A checked command is a list of texts, or it is absent where it may be. -/
theorem argv_eq_ok {value : Json} {name : String} {required : Bool} {command : Option Json}
    (h : argv value name required = .ok command) :
    (command = none ∧ value = .null ∧ required = false) ∨ (command = some value ∧ isArgv value = true) := by
  unfold argv at h
  split at h
  · rename_i hnull
    exact Or.inl ⟨(Except.ok.inj h).symm, hnull⟩
  · split at h
    · rename_i hargv
      exact Or.inr ⟨(Except.ok.inj h).symm, hargv⟩
    · cases h

/-- The check of an optional command leaves an argument vector or nothing, and all other fields. -/
theorem optionalArgv_eq_ok {payload result : Mapping} {key : String} (h : optionalArgv payload key = .ok result) :
    (fieldOf result key ≠ .null → isArgv (fieldOf result key) = true) ∧
      ∀ other, other ≠ key → result.get? other = payload.get? other := by
  obtain ⟨command, hcommand, h⟩ := bind_eq_ok.mp h
  rcases argv_eq_ok hcommand with ⟨rfl, hnull, -⟩ | ⟨rfl, hargv⟩
  · cases h
    refine ⟨fun hne => absurd (by simp [fieldOf]) hne, fun other hother => ?_⟩
    rw [Dict.get?_erase, if_neg hother]
  · cases h
    refine ⟨fun _ => ?_, fun other hother => ?_⟩
    · simpa [fieldOf] using hargv
    · rw [Dict.get?_set, if_neg hother]

/-- Checks of several keys pass if each of them does. -/
theorem forM_ensure_eq_ok {keys : List String} {condition : String → Bool} {error : String → PyError} {u : Unit} :
    (keys.forM fun key => ensure (condition key) (error key)) = .ok u ↔ ∀ key ∈ keys, condition key = true := by
  induction keys with
  | nil => simp [pure, Except.pure]
  | cons key rest ih =>
    rw [List.forM_eq_forM] at ih ⊢
    rw [List.forM_cons, bind_eq_ok, List.forall_mem_cons, ← ih]
    simp

/-- What validation accepts is what its checks say. -/
theorem accepted_of_validatePayload {payload accepted : Mapping} (h : validatePayload payload = .ok accepted) :
    Accepted accepted := by
  obtain ⟨command, hcommand, h⟩ := bind_eq_ok.mp h
  obtain ⟨probed, hprobe, h⟩ := bind_eq_ok.mp h
  obtain ⟨result, hpreemption, h⟩ := bind_eq_ok.mp h
  obtain ⟨_, hresources, h⟩ := bind_eq_ok.mp h
  obtain ⟨_, hmappings, h⟩ := bind_eq_ok.mp h
  obtain ⟨_, hnodes, h⟩ := bind_eq_ok.mp h
  obtain ⟨-, -, h⟩ := bind_eq_ok.mp h
  cases h
  simp only [ensure_eq_ok, Bool.and_eq_true] at hresources hnodes
  rcases argv_eq_ok hcommand with ⟨-, -, hrequired⟩ | ⟨rfl, hargv⟩
  · cases hrequired
  obtain ⟨hprobed, hother⟩ := optionalArgv_eq_ok hprobe
  obtain ⟨hpreempted, hrest⟩ := optionalArgv_eq_ok hpreemption
  refine ⟨⟨fieldOf payload "argv", ?_, hargv⟩, ?_, hpreempted, ?_, forM_ensure_eq_ok.mp hmappings, hnodes⟩
  · rw [hrest "argv" (by decide), hother "argv" (by decide), Dict.get?_set, if_pos rfl, Option.getD_some]
  · have hsame : fieldOf accepted "completion_probe_argv" = fieldOf probed "completion_probe_argv" := by
      rw [fieldOf, fieldOf, hrest _ (by decide)]
    rwa [hsame]
  · cases hfield : accepted.get? "resources" with
    | none =>
      rw [fieldOf, hfield] at hresources
      cases hresources.1
    | some resources =>
      rw [fieldOf, hfield] at hresources
      exact ⟨resources, rfl, hresources.1⟩

end CommandAutoResumable

open CommandAutoResumable

/-- A controller that knows the command handler compiles with it. -/
theorem compileJob_eq_ok_iff {controller : TPUSwarmController} {task : TaskRecord} {job : ManagedJobSpec}
    (hkind : controller.registry.task task.kind = .ok commandAutoResumable) :
    controller.compileJob task = .ok job ↔ managedJob controller.environ task = .ok job := by
  unfold TPUSwarmController.compileJob
  rw [bind_eq_ok, hkind]
  simp only [Except.ok.injEq, exists_eq_left']
  rfl

/-- The operation fails a task. -/
def FailsTask (taskId : String) (op : Operation) : Prop := ∃ reason now, op = .store (.failTask taskId reason) now

/-- The launch loop fails a task only if a task with its id is not compiled. -/
theorem uses_launchTasks_failing {controller : TPUSwarmController} {taskId : String} (now : Time)
    {batch : List TaskRecord} (submitted : List String)
    (hcompiled : ∀ task ∈ batch, task.taskId = taskId → ∃ job, controller.compileJob task = .ok job) :
    (controller.launchTasks now batch submitted).Uses fun op => ¬ FailsTask taskId op := by
  have hother {op : Operation} (hop : ∀ id reason time, op ≠ .store (.failTask id reason) time) :
      ¬ FailsTask taskId op :=
    fun ⟨reason, time, heq⟩ => hop taskId reason time heq
  induction batch generalizing submitted with
  | nil => exact Action.Uses.pure _
  | cons task rest ih =>
    have hrest (submitted : List String) :=
      ih submitted fun other hmem => hcompiled other (List.mem_cons_of_mem _ hmem)
    unfold TPUSwarmController.launchTasks
    cases hjob : controller.compileJob task with
    | error e =>
      have hne : task.taskId ≠ taskId := by
        intro heq
        obtain ⟨job, hcompile⟩ := hcompiled task List.mem_cons_self heq
        cases hjob.symm.trans hcompile
      refine Action.Uses.bind (Prog.Uses.issue ?_) fun _ => hrest _
      rintro ⟨reason, time, heq⟩
      cases heq
      exact hne rfl
    | ok job =>
      refine Action.Uses.bind (Action.Uses.attempt (Prog.Uses.issue (hother (by simp)))) fun outcome => ?_
      cases outcome with
      | error e =>
        dsimp only
        split
        · exact Action.Uses.bind (Prog.Uses.issue (hother (by simp))) fun _ => Action.Uses.pure _
        · exact trivial
      | ok launched => exact Action.Uses.bind (Prog.Uses.issue (hother (by simp))) fun _ => hrest _

/-- A controller that knows the command handler compiles a stored task with an accepted payload, all secrets of
which are defined, exactly if the payload is compilable. A task with such a payload is never failed by the launch
loop of a batch that names it once. -/
theorem command_compiles_iff {controller : TPUSwarmController} {payload accepted : Mapping} {task : TaskRecord}
    (hkind : controller.registry.task task.kind = .ok commandAutoResumable)
    (haccepted : validatePayload payload = .ok accepted) (hpayload : task.payload = accepted)
    (hname : task.jobName = SwarmStore.executorName task.taskId)
    (hdefined : SecretsDefined controller.environ accepted) :
    ((∃ job, controller.compileJob task = .ok job) ↔ Compilable accepted) ∧
      (Compilable accepted → ∀ (now : Time) (batch : List TaskRecord) (submitted : List String),
        (∀ other ∈ batch, other.taskId = task.taskId → other = task) →
          (controller.launchTasks now batch submitted).Uses fun op => ¬ FailsTask task.taskId op) := by
  subst hpayload
  have hblank : isBlank task.jobName = false := hname ▸ isBlank_executorName task.taskId
  have hcompiles : (∃ job, controller.compileJob task = .ok job) ↔ Compilable task.payload := by
    rw [← exists_managedJob_iff (accepted_of_validatePayload haccepted) hblank hdefined]
    exact exists_congr fun job => compileJob_eq_ok_iff hkind
  refine ⟨hcompiles, fun hcompilable now batch submitted honce => uses_launchTasks_failing now submitted ?_⟩
  intro other hother hid
  rw [honce other hother hid]
  exact hcompiles.mpr hcompilable

/-- A command task with a given payload. -/
def commandTask (payload : Mapping) : TaskSpec where
  kind := commandKind
  resourceClass := "v6e-8"
  payload := payload
  taskId := "train"
  kind_nonempty := by decide +kernel
  resourceClass_nonempty := by decide +kernel

/-- The record of the command task in the store. -/
def commandRecord (payload : Mapping) : TaskRecord :=
  (SwarmStore.newTaskRow (commandTask payload) none none none 0).toRecord

/-- An environment that defines one secret. -/
def tokenEnviron (secret : String) : Environ := Dict.empty.set "TOKEN" secret

/-- A controller with the built-in handlers and a secret in its environment. -/
def commandController (secret : String) : TPUSwarmController where
  registry := builtinRegistry
  environ := tokenEnviron secret
  controllerId := "controller"

/-- A command for a pool, with a secret that is `None`. -/
def pooledCommand : Mapping :=
  Dict.ofList [("argv", .arr [.str "python", .str "train.py"]), ("pool", .str "v6e-pool"),
    ("preemption_argv", .arr [.str "sync"]), ("resources", .obj (Dict.empty.set "accelerators" (.str "tpu-v6e-8"))),
    ("secrets", .obj (Dict.empty.set "TOKEN" .null))]

/-- The controller has the handler of commands. -/
theorem commandController_knows (secret : String) (payload : Mapping) :
    (commandController secret).registry.task (commandRecord payload).kind = .ok commandAutoResumable := rfl

/-- The sample payload with a pool is accepted. -/
theorem pooledCommand_accepted : validatePayload pooledCommand = .ok pooledCommand := by decide +kernel

/-- The sample payload with a pool is compiled. -/
theorem command_compiles_pooled :
    ∃ job, (commandController "s3cr3t").compileJob (commandRecord pooledCommand) = .ok job :=
  (command_compiles_iff (commandController_knows "s3cr3t" pooledCommand) pooledCommand_accepted rfl rfl
    (by decide +kernel)).1.mpr (by decide +kernel)

/-- A command for a pool that brings a setup of its own. -/
def unpooledCommand : Mapping := pooledCommand.set "setup" (.str "pip install -e .")

/-- Validation accepts a command that is never compiled. -/
theorem accepted_not_compiled :
    ¬ ∀ (controller : TPUSwarmController) (payload accepted : Mapping) (task : TaskRecord),
    controller.registry.task task.kind = .ok commandAutoResumable → validatePayload payload = .ok accepted →
      task.payload = accepted → task.jobName = SwarmStore.executorName task.taskId →
        SecretsDefined controller.environ accepted → ∃ job, controller.compileJob task = .ok job := by
  intro h
  have haccepted : validatePayload unpooledCommand = .ok unpooledCommand := by decide +kernel
  have hdefined : SecretsDefined (commandController "s3cr3t").environ unpooledCommand := by decide +kernel
  obtain ⟨job, hjob⟩ :=
    h (commandController "s3cr3t") unpooledCommand unpooledCommand (commandRecord unpooledCommand)
    (commandController_knows "s3cr3t" unpooledCommand) haccepted rfl rfl hdefined
  have hblank : isBlank (commandRecord unpooledCommand).jobName = false := isBlank_executorName "train"
  have hspec := (compileJob_eq_ok_iff (commandController_knows "s3cr3t" unpooledCommand)).mp hjob
  have hcompilable :=
    (exists_managedJob_iff (accepted_of_validatePayload haccepted) hblank hdefined).mp ⟨job, hspec⟩
  exact absurd hcompilable (by decide +kernel)

end TPUSwarm
