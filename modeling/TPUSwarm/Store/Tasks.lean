import TPUSwarm.Sha256
import TPUSwarm.Store.Schema

/-!
# Task operations of the store

Each operation is one transaction: a function from the store to a result and the store it
commits, or to the exception that rolls it back. Reads are functions of the store alone.
-/

namespace TPUSwarm

open Common

/-- A transaction: what it returns and the store it commits, or the exception it raises. -/
abbrev Transaction (α : Type) := SwarmStore → Except PyError (α × SwarmStore)

/-- `SwarmStore._task_status`. -/
def taskStatus (executorStatus : String) : TaskStatus :=
  let status := upper executorStatus
  if status = "SUCCEEDED" then .succeeded
  else if startsWith status "FAILED" then .failed
  else if status ∈ ["CANCELLED", "CANCELLING"] then .cancelled
  else if status ∈ ["RUNNING", "RECOVERING", "RECOVERING_INITIALIZING", "RECOVERING_RESOURCES"] then
    .running
  else .submitted

/-- An observation never sends a task back to a status before its submission. -/
theorem taskStatus_cases (executorStatus : String) :
    taskStatus executorStatus = .submitted ∨ taskStatus executorStatus = .running ∨
      taskStatus executorStatus = .succeeded ∨ taskStatus executorStatus = .failed ∨
        taskStatus executorStatus = .cancelled := by
  unfold taskStatus
  dsimp only
  split_ifs <;> simp

/-- A task that has been observed waits for no submission. -/
theorem taskStatus_ne (executorStatus : String) :
    taskStatus executorStatus ≠ .pending ∧ taskStatus executorStatus ≠ .submitting := by
  rcases taskStatus_cases executorStatus with h | h | h | h | h <;> rw [h] <;> decide

/-- The kind of the event that reports a status. -/
def TaskStatus.eventKind (status : TaskStatus) : String := "Task" ++ title status.value

/-- The row after its admission. -/
def TaskRow.admitted (now : Time) (row : TaskRow) : TaskRow :=
  { row with status := .submitting, submissionStartedAt := some now, updatedAt := now,
             lastError := none }

/-- The row after it was bound to a job. -/
def TaskRow.bound (jobId executorStatus : String) (now : Time) (row : TaskRow) : TaskRow :=
  { row with status := .submitted, jobId := some jobId, executorStatus := some executorStatus,
             updatedAt := now }

/-- The row after its submission was given up. -/
def TaskRow.reset (reason : String) (now : Time) (row : TaskRow) : TaskRow :=
  { row with status := .pending, submissionStartedAt := none, lastError := some reason,
             updatedAt := now }

/-- The row after its job could not be defined. -/
def TaskRow.refused (reason : String) (now : Time) (row : TaskRow) : TaskRow :=
  { row with status := .failed, lastError := some reason, updatedAt := now,
             completedAt := some now }

/-- The result of a job that succeeded. -/
def jobResult (job : ExecutorJob) : Mapping :=
  Dict.ofList [("job_id", .str job.jobId), ("recoveries", .int job.recoveryCount)]

/-- `job.failure_reason or f"SkyPilot job ended as {job.status}"`. -/
def failureText (job : ExecutorJob) : String :=
  match job.failureReason with
  | some reason => if reason = "" then "SkyPilot job ended as " ++ job.status else reason
  | none => "SkyPilot job ended as " ++ job.status

/-- The result and the error a task has after an observation. -/
def observedOutcome (task : TaskRecord) (job : ExecutorJob) : Option Mapping × Option String :=
  match taskStatus job.status with
  | .succeeded => (some (jobResult job), none)
  | .failed => (task.result, some (failureText job))
  | _ => (task.result, task.lastError)

/-- The row after an observation. -/
def TaskRow.observed (job : ExecutorJob) (now : Time) (row : TaskRow) : TaskRow :=
  let outcome := observedOutcome row.toRecord job
  { row with
    status := taskStatus job.status, jobId := some job.jobId, executorStatus := some job.status,
    recoveryCount := job.recoveryCount, resultJson := outcome.1.map dumps, lastError := outcome.2,
    updatedAt := now, completedAt := if (taskStatus job.status).isTerminal then some now else none }

/-- The payload of the event that reports an observation. -/
def observedPayload (job : ExecutorJob) (error : Option String) : Mapping :=
  Dict.ofList [("job_id", .str job.jobId), ("executor_status", .str job.status),
    ("recovery_count", .int job.recoveryCount), ("error", (error.map Json.str).getD .null)]

namespace SwarmStore

/-- The executor job name of a task: a readable slug and always a digest. -/
def executorName (taskId : String) : String :=
  let slug := stripHyphens (sanitize false (lower taskId).toList)
  let slug := if slug = [] then "task".toList else slug
  let digest := (Sha256.hexdigest taskId).toList.take 10
  "tpuswarm-" ++ String.ofList (slug.take 42) ++ "-" ++ String.ofList digest

/-- The row an insertion writes; columns the statement does not name take their defaults. -/
def newTaskRow (spec : TaskSpec) (workflowId componentKey : Option String)
    (generation : Option ℕ) (now : Time) : TaskRow where
  taskId := spec.taskId
  idempotencyKey := spec.idempotencyKey
  kind := spec.kind
  resourceClass := spec.resourceClass
  payloadJson := dumps spec.payload
  metadataJson := dumps spec.metadata
  status := .pending
  priority := spec.priority
  recoveryPriority := spec.recoveryPriority
  jobId := none
  jobName := executorName spec.taskId
  executorStatus := none
  recoveryCount := 0
  checkpointUri := none
  checkpointSequence := none
  checkpointMetadataJson := none
  resultJson := none
  lastError := none
  workflowId := workflowId
  componentKey := componentKey
  generation := generation
  submissionStartedAt := none
  createdAt := now
  updatedAt := now
  completedAt := none

/-- `SwarmStore._insert_task`: the new row, or the one the insertion collided with. -/
def insertTask (spec : TaskSpec) (workflowId componentKey : Option String)
    (generation : Option ℕ) (now : Time) : Transaction TaskRecord := fun store => do
  ensure (generation.all fun (n : ℕ) => fitsInteger n) overflowError
  match store.tasks.insert? (newTaskRow spec workflowId componentKey generation now) with
  | some tasks => do
    let store := { store with tasks }
    let row ← orRaise assertionError (store.task? spec.taskId)
    return (row.toRecord, store)
  | none =>
    let sameKey := spec.idempotencyKey.bind fun key =>
      store.tasks.rows.find? (·.idempotencyKey = some key)
    match sameKey.orElse fun _ => store.task? spec.taskId with
    | some row => .ok (row.toRecord, store)
    | none => .error (integrityError "UNIQUE")

/-- `SwarmStore.submit_task`. -/
def submitTask (spec : TaskSpec) (now : Time) : Transaction TaskRecord :=
  insertTask spec none none none now

/-- `SwarmStore.get_task`. -/
def getTask (taskId : String) (store : SwarmStore) : Except PyError TaskRecord :=
  orRaise ⟨.taskNotFound, taskId⟩ ((store.task? taskId).map TaskRow.toRecord)

/-- `ORDER BY created_at, task_id`. -/
def listingOrder (a b : TaskRow) : Prop :=
  a.createdAt < b.createdAt ∨ (a.createdAt = b.createdAt ∧ a.taskId ≤ b.taskId)

instance : DecidableRel listingOrder := fun _ _ => by unfold listingOrder; infer_instance

/-- `SwarmStore.list_tasks`. -/
def listTasks (status : Option TaskStatus) (store : SwarmStore) : List TaskRecord :=
  let rows := store.tasks.rows.filter fun row => status.all (row.status = ·)
  (rows.insertionSort listingOrder).map TaskRow.toRecord

/-- `SwarmStore.set_resource_policy`. -/
def setResourcePolicy (policy : ResourcePolicy) (now : Time) : Transaction Unit := fun store => do
  let row : PolicyRow := ⟨policy, now⟩
  let same (r : PolicyRow) : Bool := r.policy.resourceClass = policy.resourceClass
  let written := if store.policies.rows.any same then store.policies.update? same fun _ => row
    else store.policies.insert? row
  let policies ← orRaise (integrityError "UNIQUE") written
  return ((), { store with policies })

/-- The policy of a resource class, if one is set. -/
def policy? (store : SwarmStore) (resourceClass : String) : Option ResourcePolicy :=
  (store.policies.rows.find? (·.policy.resourceClass = resourceClass)).map PolicyRow.policy

/-- `SwarmStore.get_resource_policies`. -/
def getResourcePolicies (store : SwarmStore) : Dict String ResourcePolicy :=
  Dict.ofList (store.policies.rows.map fun row => (row.policy.resourceClass, row.policy))

/-- `SELECT COUNT(*) … WHERE status IN (…)` for one resource class. -/
def activeCount (store : SwarmStore) (resourceClass : String) : ℕ :=
  store.tasks.rows.countP fun row => row.status.occupiesSlot && row.resourceClass = resourceClass

/-- `ORDER BY priority DESC, created_at, task_id`. -/
def admissionOrder (a b : TaskRow) : Prop :=
  b.priority.toInt < a.priority.toInt ∨
    (a.priority.toInt = b.priority.toInt ∧
      (a.createdAt < b.createdAt ∨ (a.createdAt = b.createdAt ∧ a.taskId ≤ b.taskId)))

instance : DecidableRel admissionOrder := fun _ _ => by unfold admissionOrder; infer_instance

/-- `task.priority >= Priority.ORDINARY_RECOVERY`. -/
def isRecovery (priority : Priority) : Bool := Priority.ordinaryRecovery.toInt ≤ priority.toInt

/-- The number of active tasks up to which a policy admits a task of this priority. -/
def capacity (policy : ResourcePolicy) (priority : Priority) : ℤ :=
  if isRecovery priority then policy.targetWorkers else policy.targetWorkers - policy.recoveryReserve

/-- `UPDATE tasks SET … WHERE …`. -/
def updateTasks (store : SwarmStore) (select : TaskRow → Bool) (write : TaskRow → TaskRow) :
    Except PyError SwarmStore := do
  let tasks ← orRaise (integrityError "UNIQUE") (store.tasks.update? select write)
  return { store with tasks }

/-- The loop of `reserve_submissions` over the pending rows, with its in-memory counts. -/
def reserveLoop (policies : String → Option ResourcePolicy) (limit : ℤ) (now : Time) :
    List TaskRow → (String → ℕ) → List TaskRecord → Transaction (List TaskRecord)
  | [], _, selected => fun store => .ok (selected, store)
  | row :: rest, active, selected => fun store =>
    if limit ≤ selected.length then .ok (selected, store)
    else
      let count := active row.resourceClass
      let full := (policies row.resourceClass).any fun policy => capacity policy row.priority ≤ count
      if full then reserveLoop policies limit now rest active selected store
      else do
        let store ← store.updateTasks (·.taskId = row.taskId) (TaskRow.admitted now)
        let updated ← orRaise assertionError (store.task? row.taskId)
        reserveLoop policies limit now rest
          (Function.update active row.resourceClass (count + 1)) (selected ++ [updated.toRecord]) store

/-- `SwarmStore.reserve_submissions`: admits pending jobs without consuming recovery reserve. -/
def reserveSubmissions (limit : ℤ) (now : Time) : Transaction (List TaskRecord) := fun store =>
  if limit < 1 then .ok ([], store)
  else
    let rows := (store.tasks.rows.filter (·.status = .pending)).insertionSort admissionOrder
    reserveLoop store.policy? limit now rows store.activeCount [] store

/-- `UPDATE tasks SET … WHERE task_id = ? AND status IN (…)`, which has to hit one row. -/
def guardedUpdate (taskId : String) (statuses : List TaskStatus) (write : TaskRow → TaskRow)
    (refusal : String) : Transaction TaskRecord := fun store => do
  let select (row : TaskRow) : Bool := row.taskId = taskId && row.status ∈ statuses
  let written ← store.updateTasks select write
  if store.tasks.rowcount select ≠ 1 then throw ⟨.taskNotFound, refusal ++ taskId⟩
  let row ← orRaise assertionError (written.task? taskId)
  return (row.toRecord, written)

/-- `SwarmStore.bind_job`. -/
def bindJob (taskId jobId executorStatus : String) (now : Time) : Transaction TaskRecord :=
  guardedUpdate taskId [.submitting, .submitted] (TaskRow.bound jobId executorStatus now)
    "task is not awaiting submission: "

/-- `SwarmStore.reset_submission`. -/
def resetSubmission (taskId reason : String) (now : Time) : Transaction TaskRecord :=
  guardedUpdate taskId [.submitting] (TaskRow.reset reason now) "task is not submitting: "

/-- `INSERT INTO workflow_events`, with its foreign key and its automatic number. -/
def insertEvent (store : SwarmStore) (workflowId kind : String) (componentKey : Option String)
    (generation : Option ℕ) (payload : Mapping) (now : Time) : Except PyError SwarmStore :=
  if (store.workflow? workflowId).isNone then .error (integrityError "FOREIGN KEY")
  else
    let row : EventRow :=
      ⟨store.events.seq + 1, workflowId, kind, componentKey, generation, dumps payload, now⟩
    .ok { store with events := store.events.append row rfl }

/-- `SwarmStore._append_event`: only tasks of a workflow have events. -/
def appendEvent (store : SwarmStore) (task : TaskRecord) (kind : String) (payload : Mapping)
    (now : Time) : Except PyError SwarmStore :=
  match task.workflowId with
  | none => .ok store
  | some workflowId => store.insertEvent workflowId kind task.componentKey task.generation payload now

/-- The event of `fail_task` and `observe_job`, appended only when the status changes. -/
def reportStatus (store : SwarmStore) (task : TaskRecord) (newStatus : TaskStatus) (payload : Mapping)
    (now : Time) : Except PyError SwarmStore :=
  if newStatus ≠ task.status then store.appendEvent task newStatus.eventKind payload now else .ok store

/-- `SwarmStore.fail_task`. -/
def failTask (taskId reason : String) (now : Time) : Transaction TaskRecord := fun store => do
  let row ← orRaise ⟨.taskNotFound, taskId⟩ (store.task? taskId)
  let task := row.toRecord
  let store ← store.updateTasks (·.taskId = taskId) (TaskRow.refused reason now)
  let store ← store.reportStatus task .failed (Dict.ofList [("error", .str reason)]) now
  let updated ← orRaise assertionError (store.task? taskId)
  return (updated.toRecord, store)

/-- `SwarmStore.observe_job`. -/
def observeJob (taskId : String) (job : ExecutorJob) (now : Time) : Transaction TaskRecord :=
  fun store => do
    let row ← orRaise ⟨.taskNotFound, taskId⟩ (store.task? taskId)
    let task := row.toRecord
    ensure (fitsInteger job.recoveryCount) overflowError
    let store ← store.updateTasks (·.taskId = taskId) (TaskRow.observed job now)
    let store ← store.reportStatus task (taskStatus job.status)
      (observedPayload job (observedOutcome task job).2) now
    let updated ← orRaise assertionError (store.task? taskId)
    return (updated.toRecord, store)

end SwarmStore

end TPUSwarm
