import TPUSwarm.Store.Tasks

/-!
# Workflow operations of the store

Checkpoints, workflows, their component links and their saved reducer state. The join of
the component links with their tasks is a list of pairs, in the order of the links.
-/

namespace TPUSwarm

open Common

/-- The task row that refers to a newer checkpoint. -/
def TaskRow.advanced (checkpoint : CheckpointRef) (now : Time) (row : TaskRow) : TaskRow :=
  { row with checkpointUri := some checkpoint.uri, checkpointSequence := some checkpoint.sequence,
             checkpointMetadataJson := some (dumps checkpoint.metadata), updatedAt := now }

namespace SwarmStore

/-- `INSERT INTO checkpoints`. -/
def insertCheckpoint (store : SwarmStore) (taskId : String) (checkpoint : CheckpointRef) (now : Time) :
    Except PyError SwarmStore := do
  let row : CheckpointRow :=
    ⟨taskId, checkpoint.sequence, checkpoint.uri, dumps checkpoint.metadata, now⟩
  let checkpoints ← orRaise (integrityError "UNIQUE") (store.checkpoints.insert? row)
  return { store with checkpoints }

/-- The checkpoint row of a task and a sequence number. -/
def checkpoint? (store : SwarmStore) (taskId : String) (sequence : ℤ) : Option CheckpointRow :=
  store.checkpoints.rows.find? fun row => row.taskId = taskId && row.sequence = sequence

/-- The checkpoint row of `record_checkpoint`: inserted, or there already with the same URI. -/
def publishCheckpoint (store : SwarmStore) (taskId : String) (checkpoint : CheckpointRef) (now : Time) :
    Except PyError SwarmStore :=
  match store.checkpoint? taskId checkpoint.sequence with
  | some existing =>
    if existing.uri ≠ checkpoint.uri then
      .error ⟨.barrierConflict, "checkpoint " ++ taskId ++ "/" ++ toString checkpoint.sequence ++
        " already has a different URI"⟩
    else .ok store
  | none => store.insertCheckpoint taskId checkpoint now

/-- The task update of `record_checkpoint`, made when the sequence is beyond the current one. -/
def advanceCheckpoint (store : SwarmStore) (row : TaskRow) (checkpoint : CheckpointRef) (now : Time) :
    Except PyError SwarmStore :=
  if row.checkpointSequence.all (· < checkpoint.sequence) then
    store.updateTasks (·.taskId = row.taskId) (TaskRow.advanced checkpoint now)
  else .ok store

/-- `SwarmStore.record_checkpoint`: publishes a monotonic reference. -/
def recordCheckpoint (taskId : String) (checkpoint : CheckpointRef) (now : Time) :
    Transaction TaskRecord := fun store => do
  let row ← orRaise ⟨.taskNotFound, taskId⟩ (store.task? taskId)
  let store ← store.publishCheckpoint taskId checkpoint now
  let store ← store.advanceCheckpoint row checkpoint now
  let updated ← orRaise assertionError (store.task? taskId)
  return (updated.toRecord, store)

/-- The row an insertion into `workflows` writes. -/
def newWorkflowRow (spec : WorkflowSpec) (initialState : Mapping) (now : Time) : WorkflowRow where
  workflowId := spec.workflowId
  kind := spec.kind
  payloadJson := dumps spec.payload
  metadataJson := dumps spec.metadata
  stateJson := dumps initialState
  status := .active
  consistencyMode := spec.consistencyMode
  eventCursor := 0
  resultJson := none
  lastError := none
  createdAt := now
  updatedAt := now
  completedAt := none

/-- The link a component specification asks for, to the task that stands for it. -/
def newComponentRow (workflowId : String) (component : ComponentSpec) (task : TaskRecord) (now : Time) :
    ComponentRow :=
  ⟨workflowId, component.key, component.generation, task.taskId, component.required, now, now⟩

/-- `INSERT INTO workflow_components`, with its foreign key on the workflow. -/
def insertComponent (store : SwarmStore) (row : ComponentRow) : Except PyError SwarmStore := do
  let components ← orRaise (integrityError "UNIQUE") (store.components.insert? row)
  if (store.workflow? row.workflowId).isNone then throw (integrityError "FOREIGN KEY")
  return { store with components }

/-- The loop of `submit_workflow` over the components. -/
def insertComponents (workflowId : String) (now : Time) :
    List ComponentSpec → SwarmStore → Except PyError SwarmStore
  | [], store => .ok store
  | component :: rest, store => do
    let (task, store) ←
      insertTask component.task (some workflowId) (some component.key) (some component.generation)
        now store
    let store ← store.insertComponent (newComponentRow workflowId component task now)
    insertComponents workflowId now rest store

/-- `SwarmStore.submit_workflow`. -/
def submitWorkflow (spec : WorkflowSpec) (components : List ComponentSpec)
    (initialState : Mapping) (now : Time) : Transaction WorkflowRecord := fun store => do
  let workflows ← orRaise (integrityError "UNIQUE")
    (store.workflows.insert? (newWorkflowRow spec initialState now))
  let store ← insertComponents spec.workflowId now components { store with workflows }
  let row ← orRaise assertionError (store.workflow? spec.workflowId)
  return (row.toRecord, store)

/-- `SwarmStore.get_workflow`. -/
def getWorkflow (workflowId : String) (store : SwarmStore) : Except PyError WorkflowRecord :=
  orRaise ⟨.workflowNotFound, workflowId⟩ ((store.workflow? workflowId).map WorkflowRow.toRecord)

/-- `ORDER BY created_at, workflow_id`. -/
def workflowOrder (a b : WorkflowRow) : Prop :=
  a.createdAt < b.createdAt ∨ (a.createdAt = b.createdAt ∧ a.workflowId ≤ b.workflowId)

instance : DecidableRel workflowOrder := fun _ _ => by unfold workflowOrder; infer_instance

/-- `SwarmStore.list_workflows`. -/
def listWorkflows (status : Option WorkflowStatus) (store : SwarmStore) : List WorkflowRecord :=
  let rows := store.workflows.rows.filter fun row => status.all (row.status = ·)
  (rows.insertionSort workflowOrder).map WorkflowRow.toRecord

/-- The components of a workflow joined with their tasks. -/
def joinComponents (store : SwarmStore) (workflowId : String) : List (ComponentRow × TaskRow) :=
  (store.components.rows.filter (·.workflowId = workflowId)).filterMap fun link =>
    (store.task? link.taskId).map fun row => (link, row)

/-- `SwarmStore.get_workflow_components`. -/
def getWorkflowComponents (workflowId : String) (store : SwarmStore) : Dict String TaskRecord :=
  Dict.ofList ((store.joinComponents workflowId).map fun (link, row) =>
    (link.componentKey, row.linkedRecord link.componentKey))

/-- The link of a component key. -/
def component? (store : SwarmStore) (workflowId key : String) : Option ComponentRow :=
  store.components.rows.find? fun link => link.workflowId = workflowId && link.componentKey = key

/-- `INSERT INTO workflow_components … ON CONFLICT(workflow_id, component_key) DO UPDATE`. -/
def upsertComponent (store : SwarmStore) (row : ComponentRow) : Except PyError SwarmStore := do
  let same (link : ComponentRow) : Bool :=
    link.workflowId = row.workflowId && link.componentKey = row.componentKey
  if store.components.rows.any same then
    let components ← orRaise (integrityError "UNIQUE") (store.components.update? same fun link =>
      { link with generation := row.generation, taskId := row.taskId, required := row.required,
                  updatedAt := row.updatedAt })
    return { store with components }
  else store.insertComponent row

/-- `SwarmStore.replace_component`. -/
def replaceComponent (workflowId : String) (component : ComponentSpec) (now : Time) :
    Transaction TaskRecord := fun store =>
  let current := store.component? workflowId component.key
  if current.any (component.generation ≤ ·.generation) then do
    let row ← orRaise assertionError (current.bind fun link => store.task? link.taskId)
    return (row.toRecord, store)
  else do
    let (task, store) ←
      insertTask component.task (some workflowId) (some component.key) (some component.generation)
        now store
    let store ← store.upsertComponent (newComponentRow workflowId component task now)
    return (task, store)

/-- `SwarmStore.get_workflow_events`. -/
def getWorkflowEvents (workflowId : String) (after : ℕ) (store : SwarmStore) : List WorkflowEvent :=
  (store.events.after (·.workflowId = workflowId) after).map EventRow.toEvent

/-- `UPDATE workflows SET … WHERE workflow_id = ?`, and the row it leaves. -/
def updateWorkflow (workflowId : String) (write : WorkflowRow → WorkflowRow) :
    Transaction WorkflowRecord := fun store => do
  let workflows ← orRaise (integrityError "UNIQUE")
    (store.workflows.update? (·.workflowId = workflowId) write)
  let store := { store with workflows }
  let row ← orRaise ⟨.workflowNotFound, workflowId⟩ (store.workflow? workflowId)
  return (row.toRecord, store)

/-- `SwarmStore.save_workflow_state`. -/
def saveWorkflowState (workflowId : String) (state : Mapping) (eventCursor : ℕ) (now : Time) :
    Transaction WorkflowRecord :=
  updateWorkflow workflowId fun row =>
    { row with stateJson := dumps state, eventCursor := eventCursor, updatedAt := now }

/-- `SwarmStore._finish_workflow`. -/
def finishWorkflow (workflowId : String) (status : WorkflowStatus) (result : Option Mapping)
    (error : Option String) (now : Time) : Transaction WorkflowRecord :=
  updateWorkflow workflowId fun row =>
    { row with status := status, resultJson := result.map dumps, lastError := error,
               updatedAt := now, completedAt := some now }

/-- `SwarmStore.complete_workflow`. -/
def completeWorkflow (workflowId : String) (result : Mapping) (now : Time) :
    Transaction WorkflowRecord :=
  finishWorkflow workflowId .succeeded (some result) none now

/-- `SwarmStore.fail_workflow`. -/
def failWorkflow (workflowId reason : String) (now : Time) : Transaction WorkflowRecord :=
  finishWorkflow workflowId .failed none (some reason) now

end SwarmStore

end TPUSwarm
