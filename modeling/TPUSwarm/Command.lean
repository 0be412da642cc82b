import TPUSwarm.Builtin

/-!
# The built-in command handler

A command task becomes one managed job: its arguments are quoted for a shell, a completion probe may end the
job early, and a preemption hook joins the hooks of its configuration. The constructor of a managed job makes
checks of its own, and it looks a secret that is `None` up in the environment of the controller.
-/

namespace TPUSwarm

open Common

/-- The registered kind of command tasks. -/
def commandKind : String := "command.v1"

/-- A character that `shlex` finds safe. -/
def isShellSafe (c : Char) : Bool := c.isAlphanum || "_@%+=:,.-/".toList.contains c

/-- `shlex.quote` of a text. -/
def quoteText (s : String) : String :=
  if s = "" then "''"
  else if s.toList.all isShellSafe then s
  else "'" ++ String.ofList (s.toList.flatMap fun c => if c = '\'' then "'\"'\"'".toList else [c]) ++ "'"

namespace Json

/-- `shlex.quote(value)`. -/
def shellQuote (value : Json) : Except PyError String :=
  match value.view with
  | .str s => .ok (quoteText s)
  | _ =>
    if value.truthy then .error ⟨.type, "expected string or bytes-like object, got '" ++ value.typeName ++ "'"⟩
    else .ok "''"

/-- `shlex.join(value)`. -/
def shellJoin (value : Json) : Except PyError String := do
  let quoted ← (← value.items).mapM shellQuote
  return " ".intercalate quoted

/-- `value < 1`. -/
def belowOne (value : Json) : Except PyError Bool :=
  match value.view with
  | .bool b => .ok (!b)
  | .int n => .ok (n < 1)
  | .float x => .ok (x < 1)
  | .inf negative => .ok negative
  | _ => .error ⟨.type, "'<' not supported between instances of '" ++ value.typeName ++ "' and 'int'"⟩

/-- A value that is not `None`. -/
def orNothing (value : Json) : Option Json := if value = .null then none else some value

/-- `isinstance(value, dict)`. -/
def isDict (value : Json) : Bool :=
  match value.view with
  | .obj _ => true
  | _ => false

/-- `isinstance(value, int) and value >= 1`. -/
def isPositiveInt (value : Json) : Bool :=
  match value.view with
  | .bool b => b
  | .int n => 1 ≤ n
  | _ => false

end Json

/-- `payload.get(key)`. -/
def fieldOf (payload : Mapping) (key : String) : Json := (payload.get? key).getD .null

/-- `payload.get(key, {})`. -/
def mappingOf (payload : Mapping) (key : String) : Json := (payload.get? key).getD (.obj Dict.empty)

/-- What a handler passes to the constructor of `ManagedJobSpec`, with `null` for `None`. -/
structure ManagedJobArguments where
  name : String
  run : String
  resources : Json
  pool : Json
  setup : Json
  workdir : Json
  numNodes : Json
  envs : Json
  secrets : Json
  fileMounts : Json
  config : Json
  apiServerAccess : Bool

/-- The value of a secret: the one given, or the one in the environment for `None`. -/
def resolveSecret (environ : Environ) (name : String) (value : Json) : Except PyError String :=
  match value.view with
  | .null => orRaise ⟨.value, "secret " ++ reprText name ++
      " is null but is not set in the TPUSwarm controller environment"⟩ (environ.get? name)
  | .str s => .ok s
  | _ => .error ⟨.type, "secret " ++ reprText name ++ " must be a string or null"⟩

/-- The loop of `ManagedJobSpec.__post_init__` over the secrets. -/
def resolveSecrets (environ : Environ) (secrets : Mapping) : Except PyError (Dict String String) := do
  let resolved ← secrets.entries.mapM fun entry => return (entry.1, ← resolveSecret environ entry.1 entry.2)
  return Dict.ofList resolved

/-- `ManagedJobSpec(…)`, with `__post_init__`. JSON data always passes the check of `_json_dict` that a
mapping can be serialized. -/
def buildManagedJob (environ : Environ) (job : ManagedJobArguments) : Except PyError ManagedJobSpec := do
  ensure (!isBlank job.name && !isBlank job.run) ⟨.value, "managed job name and run command must not be empty"⟩
  let tooFew ← job.numNodes.belowOne
  ensure (!tooFew) ⟨.value, "num_nodes must be positive"⟩
  ensure (job.pool = .null || (job.setup = .null && job.workdir = .null && !job.fileMounts.truthy))
    ⟨.value, "pool jobs cannot define setup, workdir, or file_mounts; put them in the pool configuration"⟩
  let resources ← job.resources.toDict
  let envs ← job.envs.toDict
  let secrets ← resolveSecrets environ (← job.secrets.toDict)
  let fileMounts ← job.fileMounts.toDict
  let config ← job.config.toDict
  return { name := job.name, run := job.run, resources := resources, pool := job.pool.orNothing,
           setup := job.setup.orNothing, workdir := job.workdir.orNothing, numNodes := job.numNodes, envs := envs,
           secrets := secrets, fileMounts := fileMounts, config := config, apiServerAccess := job.apiServerAccess }

namespace CommandAutoResumable

/-- A non-empty list of texts that are not empty. -/
def isArgv (value : Json) : Bool :=
  match value.view with
  | .arr items => items ≠ [] && items.all StaticMultiAutoResumable.isKey
  | _ => false

/-- `_argv`. -/
def argv (value : Json) (fieldName : String) (required : Bool) : Except PyError (Option Json) :=
  if value = .null ∧ required = false then .ok none
  else if isArgv value then .ok (some value)
  else .error ⟨.value, fieldName ++ " must be a non-empty list of strings"⟩

/-- The check of an optional command, which is removed where it is `None`. -/
def optionalArgv (result : Mapping) (key : String) : Except PyError Mapping := do
  match ← argv (fieldOf result key) key false with
  | some value => return result.set key value
  | none => return result.erase key

/-- `CommandAutoResumable.validate_payload`. -/
def validatePayload (payload : Mapping) : Except PyError Mapping := do
  let command ← argv (fieldOf payload "argv") "argv" true
  let result := payload.set "argv" (command.getD .null)
  let result ← optionalArgv result "completion_probe_argv"
  let result ← optionalArgv result "preemption_argv"
  let resources := fieldOf result "resources"
  ensure (resources.isDict && resources.truthy) ⟨.value, "resources must be a non-empty mapping"⟩
  ["envs", "secrets", "file_mounts", "config"].forM fun key =>
    ensure (mappingOf result key).isDict ⟨.type, key ++ " must be a mapping"⟩
  ensure ((result.get? "num_nodes").getD (.int 1)).isPositiveInt ⟨.value, "num_nodes must be a positive integer"⟩
  let pool := fieldOf result "pool"
  ensure (pool = .null || StaticMultiAutoResumable.isKey pool) ⟨.value, "pool must be a non-empty string"⟩
  return result

/-- The lines that end the job early if the completion probe succeeds. -/
def probing (payload : Mapping) : Except PyError (List String) := do
  let probe := fieldOf payload "completion_probe_argv"
  if probe = .null then return []
  else
    return ["if " ++ (← probe.shellJoin) ++ "; then", "  echo 'TPUSwarm completion probe: already complete'",
      "  exit 0", "fi"]

/-- The lines of the shell script that runs the command. -/
def script (payload : Mapping) : Except PyError (List String) := do
  let probing ← probing payload
  let command ← orRaise ⟨.key, "argv"⟩ (payload.get? "argv")
  return ["set -euo pipefail"] ++ probing ++ ["exec " ++ (← command.shellJoin)]

/-- The configuration of the job, to which the preemption hook is added. -/
def hookedConfig (payload : Mapping) : Except PyError Mapping := do
  let config ← (mappingOf payload "config").toDict
  let preemption := fieldOf payload "preemption_argv"
  if preemption = .null then return config
  else
    let hooks ← ((config.get? "hooks").getD (.arr [])).items
    let command ← preemption.shellJoin
    let timeout ← ((payload.get? "preemption_timeout").getD (.int 90)).toInt
    let hook := Dict.ofList [("run", .str command), ("events", .arr [.str "preemption", .str "down"]),
      ("timeout", .int timeout)]
    return config.set "hooks" (.arr (hooks ++ [.obj hook]))

/-- The environment variables of the job. -/
def jobEnvs (task : TaskRecord) : Except PyError Mapping := do
  let envs ← (mappingOf task.payload "envs").toDict
  return (envs.set "TPUSWARM_TASK_ID" (.str task.taskId)).set "TPUSWARM_JOB_NAME" (.str task.jobName)

/-- `CommandAutoResumable.managed_job`. -/
def managedJob (environ : Environ) (task : TaskRecord) : Except PyError ManagedJobSpec := do
  let payload := task.payload
  let lines ← script payload
  let config ← hookedConfig payload
  let envs ← jobEnvs task
  let resources ← orRaise ⟨.key, "resources"⟩ (payload.get? "resources")
  buildManagedJob environ {
    name := task.jobName
    run := "\n".intercalate lines
    resources := resources
    pool := fieldOf payload "pool"
    setup := fieldOf payload "setup"
    workdir := fieldOf payload "workdir"
    numNodes := (payload.get? "num_nodes").getD (.int 1)
    envs := .obj envs
    secrets := mappingOf payload "secrets"
    fileMounts := mappingOf payload "file_mounts"
    config := .obj config
    apiServerAccess := ((payload.get? "api_server_access").getD (.bool false)).truthy }

end CommandAutoResumable

/-- `CommandAutoResumable`. -/
def commandAutoResumable : AutoResumable where
  validatePayload := CommandAutoResumable.validatePayload
  managedJob := CommandAutoResumable.managedJob

/-- `register_builtin_handlers`. -/
def registerBuiltinHandlers (registry : TaskRegistry) : Except PyError TaskRegistry := do
  let registry ← registry.registerTask commandKind commandAutoResumable
  registry.registerWorkflow staticKind staticMultiAutoResumable

/-- The registry with nothing but the built-in handlers. -/
def builtinRegistry : TaskRegistry where
  tasks := Dict.empty.set commandKind commandAutoResumable
  workflows := Dict.empty.set staticKind staticMultiAutoResumable

/-- An empty registry gets the built-in handlers and no others. -/
theorem registerBuiltinHandlers_empty : registerBuiltinHandlers {} = .ok builtinRegistry := rfl

/-- The only built-in task handler is the command handler. -/
theorem builtinRegistry_task {kind : String} {handler : AutoResumable}
    (h : builtinRegistry.tasks.get? kind = some handler) : handler = commandAutoResumable := by
  rw [builtinRegistry, Dict.get?_set] at h
  split at h
  · exact (Option.some.inj h).symm
  · cases h

end TPUSwarm
