import TPUSwarm.Handlers

/-!
# Reconciliation over durable workflow state and SkyPilot jobs

One call of `reconcile_once` as a program: leadership, the job listing, adoption and
observation of every task, the workflows, and the launch of the admitted batch. The lease
that the controller object keeps between calls is an argument and part of the outcome.
-/

namespace TPUSwarm

open Common

structure ReconcileResult where
  isLeader : Bool
  backendAvailable : Bool
  adoptedTasks : List String
  observedTasks : List String
  submittedTasks : List String
  reconciledWorkflows : List String
deriving DecidableEq

/-- Admits logical tasks and delegates every process attempt to SkyPilot. -/
structure TPUSwarmController where
  registry : TaskRegistry
  environ : Environ := Dict.empty
  controllerId : String
  leadershipLeaseSeconds : Time := 30
  submissionGraceSeconds : Time := 120
  submissionBatchSize : ℤ := 32

/-- What a call of `reconcile_once` leaves: its outcome, and the lease the object holds. -/
abbrev CycleOutcome := Except PyError ReconcileResult × Option ControllerLease

/-- `{job.job_id: job for job in jobs}.get(job_id)`. -/
def byId (jobs : List ExecutorJob) (jobId : String) : Option ExecutorJob :=
  jobs.reverse.find? (·.jobId = jobId)

/-- `{job.name: job for job in jobs}.get(name)`. -/
def byName (jobs : List ExecutorJob) (name : String) : Option ExecutorJob :=
  jobs.reverse.find? (·.name = name)

/-- `by_id.get(job_id) or by_name.get(name)`. -/
def listedJob (jobs : List ExecutorJob) (jobId name : String) : Option ExecutorJob :=
  (byId jobs jobId).orElse fun _ => byName jobs name

/-- Looking a job up yields one of those listed. -/
theorem listedJob_mem {jobs : List ExecutorJob} {jobId name : String} {job : ExecutorJob}
    (h : listedJob jobs jobId name = some job) : job ∈ jobs := by
  rcases Option.or_eq_some_iff.mp (Option.orElse_eq_or.symm.trans h) with hid | ⟨-, hname⟩
  · exact List.mem_reverse.mp (List.mem_of_find?_eq_some hid)
  · exact List.mem_reverse.mp (List.mem_of_find?_eq_some hname)

/-- `tuple(sorted(values))`. -/
def sorted (values : List String) : List String := values.insertionSort (· ≤ ·)

namespace TPUSwarmController

/-- `TPUSwarmController.start`: the lease the object holds afterwards. -/
def start (controller : TPUSwarmController) (lease : Option ControllerLease) (now : Time) :
    Effect (Option ControllerLease) :=
  if lease.any (·.leaseExpiresAt ≥ now) then pure lease
  else
    callStore (.acquireLeadership controller.controllerId controller.leadershipLeaseSeconds) (some now)

/-- A task that is being submitted is adopted, sent back after the grace period, or left. The
result is the task to go on with and the adopted tasks so far. -/
def settleSubmission (controller : TPUSwarmController) (jobs : List ExecutorJob) (now : Time)
    (task : TaskRecord) (adopted : List String) : Effect (Option TaskRecord × List String) :=
  if task.status = .submitting then
    match byName jobs task.jobName with
    | some job => do
      let _ ← callStore (.bindJob task.taskId job.jobId job.status) (some now)
      let bound ← callStore (.getTask task.taskId) none
      return (some bound, adopted ++ [task.taskId])
    | none =>
      if task.submissionStartedAt.any fun started => now - started ≥ controller.submissionGraceSeconds
      then do
        let _ ← callStore (.resetSubmission task.taskId
          "no matching SkyPilot job found after submission grace") (some now)
        return (none, adopted)
      else return (some task, adopted)
  else return (some task, adopted)

/-- A task with a job that is not over yet is observed if the job is listed. -/
def observeTask (jobs : List ExecutorJob) (now : Time) (task : TaskRecord) (observed : List String) :
    Effect (List String) :=
  match task.jobId with
  | none => return observed
  | some jobId =>
    if task.status.isTerminal then return observed
    else
      match listedJob jobs jobId task.jobName with
      | some job => do
        let _ ← callStore (.observeJob task.taskId job) (some now)
        return observed ++ [task.taskId]
      | none => return observed

/-- The loop of `reconcile_once` over all tasks. -/
def reconcileTasks (controller : TPUSwarmController) (jobs : List ExecutorJob) (now : Time) :
    List TaskRecord → List String → List String → Effect (List String × List String)
  | [], adopted, observed => pure (adopted, observed)
  | task :: rest, adopted, observed => do
    match ← controller.settleSubmission jobs now task adopted with
    | (none, adopted) => controller.reconcileTasks jobs now rest adopted observed
    | (some task, adopted) => do
      let observed ← observeTask jobs now task observed
      controller.reconcileTasks jobs now rest adopted observed

/-- The loop of `reconcile_once` over the active workflows; a failure is logged and skipped. -/
def reconcileWorkflows (controller : TPUSwarmController) :
    List WorkflowRecord → List String → Effect (List String)
  | [], reconciled => pure reconciled
  | workflow :: rest, reconciled => do
    match ← Action.attempt (WorkflowEngine.reconcile ⟨controller.registry⟩ workflow.workflowId) with
    | .ok _ => controller.reconcileWorkflows rest (reconciled ++ [workflow.workflowId])
    | .error _ => controller.reconcileWorkflows rest reconciled

/-- `self.registry.task(task.kind).managed_job(task)`. -/
def compileJob (controller : TPUSwarmController) (task : TaskRecord) : Except PyError ManagedJobSpec := do
  let handler ← controller.registry.task task.kind
  handler.managedJob controller.environ task

/-- The loop of `reconcile_once` over the admitted batch. -/
def launchTasks (controller : TPUSwarmController) (now : Time) :
    List TaskRecord → List String → Effect (List String)
  | [], submitted => pure submitted
  | task :: rest, submitted =>
    match controller.compileJob task with
    | .error e => do
      let _ ← callStore (.failTask task.taskId
        ("invalid managed-job definition: " ++ e.kind.name ++ ": " ++ e.text)) (some now)
      controller.launchTasks now rest submitted
    | .ok spec => do
      match ← Action.attempt (launch task spec task.priority) with
      | .error e =>
        if e.kind = .backendUnavailable then do
          let _ ← callStore (.resetSubmission task.taskId e.text) (some now)
          return submitted
        else throw e
      | .ok job => do
        let _ ← callStore (.bindJob task.taskId job.jobId job.status) (some now)
        controller.launchTasks now rest (submitted ++ [task.taskId])

/-- The part of `reconcile_once` that only a leader reaches. -/
def cycle (controller : TPUSwarmController) (now : Time) : Effect ReconcileResult := do
  match ← Action.attempt listJobs with
  | .error e => if e.kind = .backendUnavailable then return ⟨true, false, [], [], [], []⟩ else throw e
  | .ok jobs => do
    let tasks ← callStore (.listTasks none) none
    let (adopted, observed) ← controller.reconcileTasks jobs now tasks [] []
    let workflows ← callStore (.listWorkflows (some .active)) none
    let reconciled ← controller.reconcileWorkflows workflows []
    let batch ← callStore (.reserveSubmissions controller.submissionBatchSize) (some now)
    let submitted ← controller.launchTasks now batch []
    return ⟨true, true, sorted adopted, sorted observed, sorted submitted, sorted reconciled⟩

/-- The operations of a cycle after its renewal. -/
def InCycle (op : Operation) : Prop := op.isLeadership = false

/-- The operation admits a batch. -/
def admitsBatch : Operation → Bool
  | .store call _ => call.isAdmission
  | _ => false

/-- The operation is a launch. -/
def isLaunch : Operation → Bool
  | .launch _ _ _ => true
  | _ => false

/-- The operations of a cycle between its renewal and its admission. -/
def Preparing (op : Operation) : Prop := InCycle op ∧ admitsBatch op = false ∧ isLaunch op = false

/-- The operations of a cycle after its admission. -/
def Launching (op : Operation) : Prop := InCycle op ∧ admitsBatch op = false

/-- Settling a submission admits and launches nothing. -/
theorem uses_settleSubmission (controller : TPUSwarmController) (jobs : List ExecutorJob) (now : Time)
    (task : TaskRecord) (adopted : List String) :
    (controller.settleSubmission jobs now task adopted).Uses Preparing := by
  unfold settleSubmission
  split
  · split
    · exact Action.Uses.bind (Prog.Uses.issue ⟨rfl, rfl, rfl⟩) fun _ =>
        Action.Uses.bind (Prog.Uses.issue ⟨rfl, rfl, rfl⟩) fun _ => Action.Uses.pure _
    · split
      · exact Action.Uses.bind (Prog.Uses.issue ⟨rfl, rfl, rfl⟩) fun _ => Action.Uses.pure _
      · exact Action.Uses.pure _
  · exact Action.Uses.pure _

/-- Observing a task admits and launches nothing. -/
theorem uses_observeTask (jobs : List ExecutorJob) (now : Time) (task : TaskRecord) (observed : List String) :
    (observeTask jobs now task observed).Uses Preparing := by
  unfold observeTask
  split
  · exact Action.Uses.pure _
  · split
    · exact Action.Uses.pure _
    · split
      · exact Action.Uses.bind (Prog.Uses.issue ⟨rfl, rfl, rfl⟩) fun _ => Action.Uses.pure _
      · exact Action.Uses.pure _

/-- The loop over the tasks admits and launches nothing. -/
theorem uses_reconcileTasks (controller : TPUSwarmController) (jobs : List ExecutorJob) (now : Time)
    (tasks : List TaskRecord) (adopted observed : List String) :
    (controller.reconcileTasks jobs now tasks adopted observed).Uses Preparing := by
  induction tasks generalizing adopted observed with
  | nil => exact Action.Uses.pure _
  | cons task rest ih =>
    refine Action.Uses.bind (controller.uses_settleSubmission jobs now task adopted) fun next => ?_
    rcases next with ⟨_ | settled, adopted'⟩
    · exact ih _ _
    · exact Action.Uses.bind (uses_observeTask jobs now settled observed) fun _ => ih _ _

/-- The loop over the workflows admits and launches nothing. -/
theorem uses_reconcileWorkflows (controller : TPUSwarmController) (workflows : List WorkflowRecord)
    (reconciled : List String) : (controller.reconcileWorkflows workflows reconciled).Uses Preparing := by
  induction workflows generalizing reconciled with
  | nil => exact Action.Uses.pure _
  | cons workflow rest ih =>
    refine Action.Uses.bind (Action.Uses.attempt (Prog.Uses.mono (fun op hop => ?_)
      (WorkflowEngine.uses_reconcile _ workflow.workflowId))) fun outcome => ?_
    · cases op with
      | store call now => cases call <;> first | exact ⟨rfl, rfl, rfl⟩ | cases hop
      | _ => cases hop
    · cases outcome with
      | ok _ => exact ih _
      | error _ => exact ih _

/-- The loop over the batch launches, and calls the store for its outcomes. -/
theorem uses_launchTasks (controller : TPUSwarmController) (now : Time) (batch : List TaskRecord)
    (submitted : List String) : (controller.launchTasks now batch submitted).Uses Launching := by
  induction batch generalizing submitted with
  | nil => exact Action.Uses.pure _
  | cons task rest ih =>
    unfold launchTasks
    split
    · exact Action.Uses.bind (Prog.Uses.issue ⟨rfl, rfl⟩) fun _ => ih _
    · refine Action.Uses.bind (Action.Uses.attempt (Prog.Uses.issue ⟨rfl, rfl⟩)) fun outcome => ?_
      cases outcome with
      | error e =>
        dsimp only
        split
        · exact Action.Uses.bind (Prog.Uses.issue ⟨rfl, rfl⟩) fun _ => Action.Uses.pure _
        · exact trivial
      | ok job => exact Action.Uses.bind (Prog.Uses.issue ⟨rfl, rfl⟩) fun _ => ih _

/-- After its renewal a cycle does not ask for leadership again. -/
theorem uses_cycle (controller : TPUSwarmController) (now : Time) : (controller.cycle now).Uses InCycle := by
  unfold cycle
  refine Action.Uses.bind (Action.Uses.attempt (Prog.Uses.issue rfl)) fun outcome => ?_
  cases outcome with
  | error e =>
    dsimp only
    split
    · exact Action.Uses.pure _
    · exact trivial
  | ok jobs =>
    refine Action.Uses.bind (Prog.Uses.issue rfl) fun tasks => ?_
    refine Action.Uses.bind (Prog.Uses.mono (fun _ hop => hop.1)
      (controller.uses_reconcileTasks jobs now tasks [] [])) fun reports => ?_
    refine Action.Uses.bind (Prog.Uses.issue rfl) fun workflows => ?_
    refine Action.Uses.bind (Prog.Uses.mono (fun _ hop => hop.1)
      (controller.uses_reconcileWorkflows workflows [])) fun reconciled => ?_
    refine Action.Uses.bind (Prog.Uses.issue rfl) fun batch => ?_
    exact Action.Uses.bind (Prog.Uses.mono (fun _ hop => hop.1) (controller.uses_launchTasks now batch []))
      fun submitted => Action.Uses.pure _

/-- The lease to go on with: the one the object holds, or a newly acquired one. -/
def heldLease (controller : TPUSwarmController) (lease : Option ControllerLease) (now : Time) :
    Effect (Option ControllerLease) :=
  match lease with
  | some held => pure (some held)
  | none => controller.start none now

/-- `TPUSwarmController.reconcile_once`, from the lease the object holds. -/
def reconcileOnce (controller : TPUSwarmController) (lease : Option ControllerLease) (now : Time) :
    Prog Operation Operation.Reply CycleOutcome := do
  match ← (controller.heldLease lease now).run with
  | .error e => pure (.error e, lease)
  | .ok none => pure (.ok ⟨false, true, [], [], [], []⟩, none)
  | .ok (some held) => do
    match ← (callStore (.renewLeadership held controller.leadershipLeaseSeconds) (some now)).run with
    | .error e =>
      if e.kind = .leadershipLost then pure (.ok ⟨false, true, [], [], [], []⟩, none)
      else pure (.error e, some held)
    | .ok renewed => do
      let result ← (controller.cycle now).run
      pure (result, some renewed)

end TPUSwarmController

end TPUSwarm
