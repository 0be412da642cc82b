import TPUSwarm.Common.Program
import TPUSwarm.Store.Calls

/-!
# Trusted handlers and the workflow engine

A handler is the record of its methods; each may raise. The registry maps stable kinds to
handlers. The workflow engine is a program over the operations of the control plane: the
calls of the store, the job listing and the launch of the executor.
-/

namespace TPUSwarm

open Common

/-- `os.environ` of the controller process. -/
abbrev Environ := Dict String String

/-- Compiles one logical leaf into a native SkyPilot managed job. -/
structure AutoResumable where
  validatePayload : Mapping → Except PyError Mapping := .ok
  managedJob : Environ → TaskRecord → Except PyError ManagedJobSpec

/-- A durable reducer for dynamic child jobs and algorithmic barriers. -/
structure MultiAutoResumable where
  validatePayload : Mapping → Except PyError Mapping := .ok
  initialState : Mapping → Except PyError Mapping
  reduce : Mapping → WorkflowEvent → Except PyError Mapping
  desiredComponents : WorkflowRecord → Mapping → Except PyError (List ComponentSpec)
  completionResult : WorkflowRecord → Mapping → Dict String TaskRecord →
    Except PyError (Option Mapping) := fun _ _ _ => .ok none
  failureReason : WorkflowRecord → Mapping → Dict String TaskRecord →
    Except PyError (Option String) := fun _ _ _ => .ok none

/-- Server-side mapping from stable task kinds to trusted code. -/
structure TaskRegistry where
  tasks : Dict String AutoResumable := Dict.empty
  workflows : Dict String MultiAutoResumable := Dict.empty

namespace TaskRegistry

/-- `TaskRegistry.register_task`. -/
def registerTask (registry : TaskRegistry) (kind : String) (handler : AutoResumable) :
    Except PyError TaskRegistry :=
  if (registry.tasks.get? kind).isSome then
    .error ⟨.value, "task kind is already registered: " ++ kind⟩
  else .ok { registry with tasks := registry.tasks.set kind handler }

/-- `TaskRegistry.register_workflow`. -/
def registerWorkflow (registry : TaskRegistry) (kind : String) (handler : MultiAutoResumable) :
    Except PyError TaskRegistry :=
  if (registry.workflows.get? kind).isSome then
    .error ⟨.value, "workflow kind is already registered: " ++ kind⟩
  else .ok { registry with workflows := registry.workflows.set kind handler }

/-- `TaskRegistry.task`. -/
def task (registry : TaskRegistry) (kind : String) : Except PyError AutoResumable :=
  orRaise ⟨.key, "unknown task kind: " ++ kind⟩ (registry.tasks.get? kind)

/-- `TaskRegistry.workflow`. -/
def workflow (registry : TaskRegistry) (kind : String) : Except PyError MultiAutoResumable :=
  orRaise ⟨.key, "unknown workflow kind: " ++ kind⟩ (registry.workflows.get? kind)

/-- `TaskRegistry.validate_task`. -/
def validateTask (registry : TaskRegistry) (kind : String) (payload : Mapping) :
    Except PyError Mapping := do
  let handler ← registry.task kind
  handler.validatePayload payload

/-- `TaskRegistry.validate_workflow`. -/
def validateWorkflow (registry : TaskRegistry) (kind : String) (payload : Mapping) :
    Except PyError Mapping := do
  let handler ← registry.workflow kind
  handler.validatePayload payload

end TaskRegistry

/-- The operations of the control plane. A store call without a time reads the clock; a
launch names the task it is for. -/
inductive Operation
  | store (call : Call) (now : Option Time)
  | listJobs
  | launch (task : TaskRecord) (job : ManagedJobSpec) (priority : Priority)

/-- The operation asks for leadership. -/
def Operation.isLeadership : Operation → Bool
  | .store call _ => call.isLeadership
  | _ => false

/-- The operation changes what controllers share: tasks, workflows, components, events or jobs. -/
def Operation.isEffect : Operation → Bool
  | .store call _ => !call.isRead && !call.isLeadership
  | .listJobs => false
  | .launch _ _ _ => true

/-- What an operation returns or raises. -/
def Operation.Reply : Operation → Type
  | store call _ => Except PyError call.Result
  | listJobs => Except PyError (List ExecutorJob)
  | launch _ _ _ => Except PyError ExecutorJob

/-- A program over the operations of the control plane that may raise. -/
abbrev Effect (α : Type) := Action Operation Operation.Reply PyError α

/-- Issue one call of the store. -/
def callStore (call : Call) (now : Option Time) : Effect call.Result :=
  Action.reply (Prog.issue (Operation.store call now))

/-- `JobBackend.list_jobs`. -/
def listJobs : Effect (List ExecutorJob) := Action.reply (Prog.issue Operation.listJobs)

/-- `JobBackend.launch`. -/
def launch (task : TaskRecord) (job : ManagedJobSpec) (priority : Priority) : Effect ExecutorJob :=
  Action.reply (Prog.issue (Operation.launch task job priority))

/-- Replays workflow events and materializes only desired child generations. -/
structure WorkflowEngine where
  registry : TaskRegistry

namespace WorkflowEngine

/-- `WorkflowEngine._validated_component`. -/
def validatedComponent (engine : WorkflowEngine) (component : ComponentSpec) :
    Except PyError ComponentSpec := do
  let payload ← engine.registry.validateTask component.task.kind component.task.payload
  return { component with task := { component.task with payload := payload } }

/-- Validation changes only the payload of the task. -/
theorem validatedComponent_eq_ok {engine : WorkflowEngine} {component desired : ComponentSpec}
    (h : engine.validatedComponent component = .ok desired) :
    ∃ payload, desired = { component with task := { component.task with payload := payload } } := by
  obtain ⟨payload, -, h⟩ := bind_eq_ok.mp h
  exact ⟨payload, (Except.ok.inj h).symm⟩

/-- The record that `submit` shows to the handler before anything is stored. -/
def placeholder (spec : WorkflowSpec) (state : Mapping) : WorkflowRecord where
  workflowId := spec.workflowId
  kind := spec.kind
  payload := spec.payload
  metadata := spec.metadata
  state := state
  status := .active
  consistencyMode := spec.consistencyMode
  eventCursor := 0
  result := none
  lastError := none
  createdAt := 0
  updatedAt := 0
  completedAt := none

/-- `WorkflowEngine.submit`. -/
def submit (engine : WorkflowEngine) (spec : WorkflowSpec) : Effect WorkflowRecord := do
  let handler ← Action.ofExcept (engine.registry.workflow spec.kind)
  let payload ← Action.ofExcept (handler.validatePayload spec.payload)
  let spec := { spec with payload := payload }
  let state ← Action.ofExcept (handler.initialState spec.payload)
  let desired ← Action.ofExcept (handler.desiredComponents (placeholder spec state) state)
  let components ← Action.ofExcept (desired.mapM engine.validatedComponent)
  callStore (.submitWorkflow spec components state) none

/-- The replay of `reconcile`: the state after the events, and the last event's number. -/
def replay (handler : MultiAutoResumable) (state : Mapping) (cursor : ℕ) :
    List WorkflowEvent → Except PyError (Mapping × ℕ)
  | [] => .ok (state, cursor)
  | event :: rest => do
    let state ← handler.reduce state event
    replay handler state event.eventId rest

/-- The loop of `reconcile` over the desired components; each is validated when it is reached. -/
def replaceComponents (engine : WorkflowEngine) (workflowId : String)
    (current : Dict String TaskRecord) : List ComponentSpec → Effect Unit
  | [] => pure ()
  | component :: rest => do
    let desired ← Action.ofExcept (engine.validatedComponent component)
    let stale := (current.get? desired.key).all fun existing =>
      existing.generation.getD 0 < desired.generation
    if stale then
      let _ ← callStore (.replaceComponent workflowId desired) none
      engine.replaceComponents workflowId current rest
    else
      engine.replaceComponents workflowId current rest

/-- `WorkflowEngine.reconcile`. -/
def reconcile (engine : WorkflowEngine) (workflowId : String) : Effect WorkflowRecord := do
  let workflow : WorkflowRecord ← callStore (.getWorkflow workflowId) none
  if workflow.status ≠ .active then return workflow
  let handler ← Action.ofExcept (engine.registry.workflow workflow.kind)
  let events ← callStore (.getWorkflowEvents workflowId workflow.eventCursor) none
  let (state, cursor) ←
    Action.ofExcept (replay handler workflow.state workflow.eventCursor events)
  let projected := { workflow with state := state, eventCursor := cursor }
  let current ← callStore (.getWorkflowComponents workflowId) none
  let desired ← Action.ofExcept (handler.desiredComponents projected state)
  engine.replaceComponents workflowId current desired
  let workflow ← callStore (.saveWorkflowState workflowId state cursor) none
  let components ← callStore (.getWorkflowComponents workflowId) none
  match ← Action.ofExcept (handler.completionResult workflow state components) with
  | some result => callStore (.completeWorkflow workflowId result) none
  | none =>
    match ← Action.ofExcept (handler.failureReason workflow state components) with
    | some reason => callStore (.failWorkflow workflowId reason) none
    | none => return workflow

/-- The operations of the workflow engine while it reconciles. -/
def Reconciling : Operation → Prop
  | .store call _ => call.isReconciling = true
  | _ => False

/-- Replacing components reads and replaces only. -/
theorem uses_replaceComponents (engine : WorkflowEngine) (workflowId : String)
    (current : Dict String TaskRecord) (components : List ComponentSpec) :
    (engine.replaceComponents workflowId current components).Uses Reconciling := by
  induction components with
  | nil => exact Action.Uses.pure ()
  | cons component rest ih =>
    refine Action.Uses.bind (Action.Uses.ofExcept _) fun desired => ?_
    dsimp only
    split
    · exact Action.Uses.bind (Prog.Uses.issue rfl) fun _ => ih
    · exact ih

/-- The workflow engine only reads, replaces components and saves or finishes the workflow. -/
theorem uses_reconcile (engine : WorkflowEngine) (workflowId : String) :
    (engine.reconcile workflowId).Uses Reconciling := by
  unfold WorkflowEngine.reconcile
  refine Action.Uses.bind (Prog.Uses.issue rfl) fun (workflow : WorkflowRecord) => ?_
  split
  · exact Action.Uses.pure _
  refine Action.Uses.bind (Action.Uses.ofExcept _) fun handler => ?_
  refine Action.Uses.bind (Prog.Uses.issue rfl) fun events => ?_
  refine Action.Uses.bind (Action.Uses.ofExcept _) fun replayed => ?_
  refine Action.Uses.bind (Prog.Uses.issue rfl) fun current => ?_
  refine Action.Uses.bind (Action.Uses.ofExcept _) fun desired => ?_
  refine Action.Uses.bind (uses_replaceComponents _ _ _ _) fun _ => ?_
  refine Action.Uses.bind (Prog.Uses.issue rfl) fun saved => ?_
  refine Action.Uses.bind (Prog.Uses.issue rfl) fun components => ?_
  refine Action.Uses.bind (Action.Uses.ofExcept _) fun result => ?_
  split
  · exact Prog.Uses.issue rfl
  · refine Action.Uses.bind (Action.Uses.ofExcept _) fun reason => ?_
    split
    · exact Prog.Uses.issue rfl
    · exact Action.Uses.pure _

end WorkflowEngine

end TPUSwarm
