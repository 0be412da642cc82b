import TPUSwarm.Store.Barriers

/-!
# Calls of the store

The methods of the store as one type of calls, each with the type of its result. Every
call is one transaction: it commits what it wrote or rolls back and raises.
-/

namespace TPUSwarm

open Common

/-- A call of a store method with its arguments, less the time. -/
inductive Call
  | submitTask (spec : TaskSpec)
  | getTask (taskId : String)
  | listTasks (status : Option TaskStatus)
  | setResourcePolicy (policy : ResourcePolicy)
  | getResourcePolicies
  | reserveSubmissions (limit : ℤ)
  | bindJob (taskId jobId executorStatus : String)
  | resetSubmission (taskId reason : String)
  | failTask (taskId reason : String)
  | observeJob (taskId : String) (job : ExecutorJob)
  | recordCheckpoint (taskId : String) (checkpoint : CheckpointRef)
  | submitWorkflow (spec : WorkflowSpec) (components : List ComponentSpec) (initialState : Mapping)
  | getWorkflow (workflowId : String)
  | listWorkflows (status : Option WorkflowStatus)
  | getWorkflowComponents (workflowId : String)
  | replaceComponent (workflowId : String) (component : ComponentSpec)
  | getWorkflowEvents (workflowId : String) (after : ℕ)
  | saveWorkflowState (workflowId : String) (state : Mapping) (eventCursor : ℕ)
  | completeWorkflow (workflowId : String) (result : Mapping)
  | failWorkflow (workflowId reason : String)
  | commitBarrier (workflowId : String) (barrier : ℤ) (controllerCheckpointUri : Option String)
  | latestBarrier (workflowId : String)
  | acquireLeadership (controllerId : String) (leaseSeconds : Time)
  | renewLeadership (lease : ControllerLease) (leaseSeconds : Time)

namespace Call

/-- What a call returns. -/
def Result : Call → Type
  | submitTask _ => TaskRecord
  | getTask _ => TaskRecord
  | listTasks _ => List TaskRecord
  | setResourcePolicy _ => Unit
  | getResourcePolicies => Dict String ResourcePolicy
  | reserveSubmissions _ => List TaskRecord
  | bindJob _ _ _ => TaskRecord
  | resetSubmission _ _ => TaskRecord
  | failTask _ _ => TaskRecord
  | observeJob _ _ => TaskRecord
  | recordCheckpoint _ _ => TaskRecord
  | submitWorkflow _ _ _ => WorkflowRecord
  | getWorkflow _ => WorkflowRecord
  | listWorkflows _ => List WorkflowRecord
  | getWorkflowComponents _ => Dict String TaskRecord
  | replaceComponent _ _ => TaskRecord
  | getWorkflowEvents _ _ => List WorkflowEvent
  | saveWorkflowState _ _ _ => WorkflowRecord
  | completeWorkflow _ _ => WorkflowRecord
  | failWorkflow _ _ => WorkflowRecord
  | commitBarrier _ _ _ => BarrierCommit
  | latestBarrier _ => Option BarrierCommit
  | acquireLeadership _ _ => Option ControllerLease
  | renewLeadership _ _ => ControllerLease

/-- A read: its outcome, and the store as it was. -/
def reading {α : Type} (f : SwarmStore → Except PyError α) : Transaction α := fun store =>
  (f store).map fun a => (a, store)

open SwarmStore in
/-- The transaction of a call at a given time. -/
def run : (call : Call) → Time → Transaction call.Result
  | .submitTask spec, now => SwarmStore.submitTask spec now
  | .getTask taskId, _ => reading (SwarmStore.getTask taskId)
  | .listTasks status, _ => reading fun store => .ok (store.listTasks status)
  | .setResourcePolicy policy, now => SwarmStore.setResourcePolicy policy now
  | .getResourcePolicies, _ => reading fun store => .ok store.getResourcePolicies
  | .reserveSubmissions limit, now => SwarmStore.reserveSubmissions limit now
  | .bindJob taskId jobId executorStatus, now => SwarmStore.bindJob taskId jobId executorStatus now
  | .resetSubmission taskId reason, now => SwarmStore.resetSubmission taskId reason now
  | .failTask taskId reason, now => SwarmStore.failTask taskId reason now
  | .observeJob taskId job, now => SwarmStore.observeJob taskId job now
  | .recordCheckpoint taskId checkpoint, now => SwarmStore.recordCheckpoint taskId checkpoint now
  | .submitWorkflow spec components initialState, now =>
    SwarmStore.submitWorkflow spec components initialState now
  | .getWorkflow workflowId, _ => reading (SwarmStore.getWorkflow workflowId)
  | .listWorkflows status, _ => reading fun store => .ok (store.listWorkflows status)
  | .getWorkflowComponents workflowId, _ =>
    reading fun store => .ok (store.getWorkflowComponents workflowId)
  | .replaceComponent workflowId component, now =>
    SwarmStore.replaceComponent workflowId component now
  | .getWorkflowEvents workflowId after, _ =>
    reading fun store => .ok (store.getWorkflowEvents workflowId after)
  | .saveWorkflowState workflowId state eventCursor, now =>
    SwarmStore.saveWorkflowState workflowId state eventCursor now
  | .completeWorkflow workflowId result, now => SwarmStore.completeWorkflow workflowId result now
  | .failWorkflow workflowId reason, now => SwarmStore.failWorkflow workflowId reason now
  | .commitBarrier workflowId barrier uri, now => SwarmStore.commitBarrier workflowId barrier uri now
  | .latestBarrier workflowId, _ => reading (SwarmStore.latestBarrier workflowId)
  | .acquireLeadership controllerId leaseSeconds, now =>
    SwarmStore.acquireLeadership controllerId leaseSeconds now
  | .renewLeadership lease leaseSeconds, now => SwarmStore.renewLeadership lease leaseSeconds now

/-- The outcome of a call and the store after it: an exception rolls back. -/
def perform (call : Call) (now : Time) (store : SwarmStore) :
    Except PyError call.Result × SwarmStore :=
  match call.run now store with
  | .ok (result, store') => (.ok result, store')
  | .error e => (.error e, store)

/-- A call that raises changes nothing. -/
theorem perform_of_error {call : Call} {now : Time} {store : SwarmStore} {e : PyError}
    (h : call.run now store = .error e) : call.perform now store = (.error e, store) := by
  rw [perform, h]

/-- What a performed call did: it raised and changed nothing, or it returned. -/
theorem perform_cases {call : Call} {now : Time} {store store' : SwarmStore}
    {outcome : Except PyError call.Result} (h : call.perform now store = (outcome, store')) :
    (∃ e, outcome = .error e ∧ store' = store) ∨
      ∃ result, outcome = .ok result ∧ call.run now store = .ok (result, store') := by
  unfold perform at h
  split at h
  · rename_i result written hrun
    obtain ⟨rfl, rfl⟩ := Prod.mk.inj h
    exact Or.inr ⟨result, rfl, hrun⟩
  · rename_i e _
    obtain ⟨rfl, rfl⟩ := Prod.mk.inj h
    exact Or.inl ⟨e, rfl, rfl⟩

/-- The store after a performed call: as it was, or as the call returned it. -/
theorem perform_store (call : Call) (now : Time) (store : SwarmStore) :
    (call.perform now store).2 = store ∨
      ∃ result, call.run now store = .ok (result, (call.perform now store).2) := by
  rcases perform_cases (Prod.mk.eta (p := call.perform now store)).symm with ⟨e, -, h⟩ | ⟨result, -, h⟩
  · exact Or.inl h
  · exact Or.inr ⟨result, h⟩

/-- A read leaves the store as it was. -/
theorem reading_eq_ok {α : Type} {f : SwarmStore → Except PyError α} {store store' : SwarmStore}
    {a : α} : reading f store = .ok (a, store') ↔ f store = .ok a ∧ store' = store := by
  unfold reading
  cases f store with
  | error e => simp [Except.map]
  | ok b =>
    simp only [Except.map, Except.ok.injEq, Prod.mk.injEq]
    exact and_congr_right fun _ => eq_comm

/-- The call is a read. -/
def isRead : Call → Bool
  | getTask _ | listTasks _ | getResourcePolicies | getWorkflow _ | listWorkflows _ |
    getWorkflowComponents _ | getWorkflowEvents _ _ | latestBarrier _ => true
  | _ => false

/-- The call moves a task from one status to another. -/
def isTransition : Call → Bool
  | reserveSubmissions _ | bindJob _ _ _ | resetSubmission _ _ | failTask _ _ | observeJob _ _ => true
  | _ => false

/-- The call admits pending tasks. -/
def isAdmission : Call → Bool
  | reserveSubmissions _ => true
  | _ => false

/-- The call asks for leadership. -/
def isLeadership : Call → Bool
  | acquireLeadership _ _ | renewLeadership _ _ => true
  | _ => false

/-- The call is one the HTTP API makes. -/
def isApi : Call → Bool
  | submitTask _ | submitWorkflow _ _ _ | recordCheckpoint _ _ | commitBarrier _ _ _ |
    setResourcePolicy _ => true
  | call => call.isRead

/-- The call is one the workflow engine makes while it reconciles. -/
def isReconciling : Call → Bool
  | replaceComponent _ _ | saveWorkflowState _ _ _ | completeWorkflow _ _ | failWorkflow _ _ => true
  | call => call.isRead

/-- A read changes nothing. -/
theorem read_unchanged {call : Call} (hread : call.isRead = true) {now : Time}
    {store store' : SwarmStore} {result : call.Result}
    (h : call.run now store = .ok (result, store')) : store' = store := by
  cases call <;> cases hread <;> first | exact (reading_eq_ok.mp h).2 | (cases h; rfl)

end Call

end TPUSwarm
