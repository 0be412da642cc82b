import TPUSwarm.Handlers
import TPUSwarm.Wire.RoundTrip

/-!
# The HTTP API

Every endpoint is a program over calls of the store, which returns JSON data, or leaves with an
`HTTPException` or any other exception. FastAPI is a parameter: which endpoint a request is for, and what its
checks of the parameters and of the body make of them.
-/

namespace TPUSwarm

open Common

/-- The body of `POST /v1/tasks`. -/
structure SubmitTaskRequest where
  kind : String
  resourceClass : String
  payload : Mapping := Dict.empty
  taskId : Option String := none
  priority : Priority := .normal
  recoveryPriority : Priority := .blockingRecovery
  idempotencyKey : Option String := none
  metadata : Mapping := Dict.empty
deriving DecidableEq

/-- The body of `POST /v1/workflows`. -/
structure SubmitWorkflowRequest where
  kind : String
  payload : Mapping := Dict.empty
  workflowId : Option String := none
  consistencyMode : ConsistencyMode := .independent
  metadata : Mapping := Dict.empty
deriving DecidableEq

/-- The body of `POST /v1/tasks/{task_id}/checkpoints`. -/
structure CheckpointRequest where
  uri : String
  sequence : ℤ
  metadata : Mapping := Dict.empty
deriving DecidableEq

/-- The body of `POST /v1/workflows/{workflow_id}/barriers`. -/
structure BarrierRequest where
  barrier : ℤ
  controllerCheckpointUri : Option String := none
deriving DecidableEq

/-- The body of `PUT /v1/resources/{resource_class}`. -/
structure ResourcePolicyRequest where
  targetWorkers : ℤ
  recoveryReserve : ℤ := 0
deriving DecidableEq

/-- A request that has reached its endpoint. -/
inductive ApiRequest
  | healthz
  | submitTask (request : SubmitTaskRequest)
  | getTask (taskId : String)
  | listTasks (status : Option TaskStatus)
  | checkpoint (taskId : String) (request : CheckpointRequest)
  | submitWorkflow (request : SubmitWorkflowRequest)
  | getWorkflow (workflowId : String)
  | listWorkflows (status : Option WorkflowStatus)
  | commitBarrier (workflowId : String) (request : BarrierRequest)
  | setResourcePolicy (resourceClass : String) (request : ResourcePolicyRequest)
deriving DecidableEq

/-- The fields of a workflow record as Python values. -/
def WorkflowRecord.pyFields (w : WorkflowRecord) : List (String × PyValue) :=
  [("workflow_id", .str w.workflowId), ("kind", .str w.kind), ("payload", (Json.obj w.payload).toPy),
    ("metadata", (Json.obj w.metadata).toPy), ("state", (Json.obj w.state).toPy),
    ("status", .enum (.workflowStatus w.status)), ("consistency_mode", .enum (.consistencyMode w.consistencyMode)),
    ("event_cursor", .int w.eventCursor), ("result", PyValue.orNone (fun m => (Json.obj m).toPy) w.result),
    ("last_error", PyValue.orNone .str w.lastError), ("created_at", .float w.createdAt),
    ("updated_at", .float w.updatedAt), ("completed_at", PyValue.orNone .float w.completedAt)]

/-- The object that a workflow record is. -/
def WorkflowRecord.toPy (w : WorkflowRecord) : PyValue := .dataclass "WorkflowRecord" w.pyFields

/-- The object that a committed barrier is. -/
def BarrierCommit.toPy (b : BarrierCommit) : PyValue :=
  .dataclass "BarrierCommit"
    [("workflow_id", .str b.workflowId), ("barrier", .int b.barrier),
      ("controller_checkpoint_uri", PyValue.orNone .str b.controllerCheckpointUri),
      ("components", .dict (b.components.entries.map fun entry => (entry.1, entry.2.toPy))),
      ("created_at", .float b.createdAt)]

/-- The object that a resource policy is. -/
def ResourcePolicy.toPy (p : ResourcePolicy) : PyValue :=
  .dataclass "ResourcePolicy" [("resource_class", .str p.resourceClass), ("target_workers", .int p.targetWorkers),
    ("recovery_reserve", .int p.recoveryReserve)]

/-- How an endpoint leaves without a result: an `HTTPException`, or any other exception. -/
inductive Raised
  | http (statusCode : ℕ) (detail : String)
  | error (e : PyError)
deriving DecidableEq

/-- A program over the operations of the control plane that may leave like an endpoint. -/
abbrev Endpoint (α : Type) := Action Operation Operation.Reply Raised α

/-- What raises leaves the endpoint. -/
def raising {α : Type} (leave : PyError → Raised) (p : Effect α) : Endpoint α :=
  ExceptT.mk (p.run >>= fun outcome => pure (outcome.mapError leave))

/-- `except (KeyError, ValueError) as exc: raise HTTPException(status_code=422, detail=str(exc))`. -/
def unprocessable (e : PyError) : Raised :=
  if e.kind = .key ∨ e.kind = .value then .http 422 e.text else .error e

/-- `TaskSpec(**values)`, where the priorities are members and the mappings are JSON data. -/
def SubmitTaskRequest.taskSpec (request : SubmitTaskRequest) (payload : Mapping) (freshId : String) :
    Except PyError TaskSpec :=
  if hkind : isBlank request.kind then .error ⟨.value, "kind must not be empty"⟩
  else if hclass : isBlank request.resourceClass then .error ⟨.value, "resource_class must not be empty"⟩
  else
    .ok { kind := request.kind, resourceClass := request.resourceClass, payload := payload,
          taskId := request.taskId.getD freshId, priority := request.priority,
          recoveryPriority := request.recoveryPriority, idempotencyKey := request.idempotencyKey,
          metadata := request.metadata, kind_nonempty := by simpa using hkind,
          resourceClass_nonempty := by simpa using hclass }

/-- `WorkflowSpec(**values)`. -/
def SubmitWorkflowRequest.workflowSpec (request : SubmitWorkflowRequest) (freshId : String) :
    Except PyError WorkflowSpec :=
  if hkind : isBlank request.kind then .error ⟨.value, "kind must not be empty"⟩
  else
    .ok { kind := request.kind, payload := request.payload, workflowId := request.workflowId.getD freshId,
          consistencyMode := request.consistencyMode, metadata := request.metadata,
          kind_nonempty := by simpa using hkind }

/-- `ResourcePolicy(resource_class=resource_class, **values)`. -/
def ResourcePolicyRequest.policy (request : ResourcePolicyRequest) (resourceClass : String) :
    Except PyError ResourcePolicy :=
  if htarget : request.targetWorkers < 1 then .error ⟨.value, "target_workers must be positive"⟩
  else if hreserve : 0 ≤ request.recoveryReserve ∧ request.recoveryReserve < request.targetWorkers then
    .ok ⟨resourceClass, request.targetWorkers, request.recoveryReserve, not_lt.mp htarget, hreserve⟩
  else .error ⟨.value, "recovery_reserve must be in [0, target_workers)"⟩

/-- What a call returns, as `to_jsonable` puts it into a response. The call that sets a policy returns nothing,
and the response has the policy. -/
def Call.wire : (call : Call) → call.Result → PyValue
  | .submitTask _, task | .getTask _, task | .recordCheckpoint _ _, task =>
    (show TaskRecord from task).toPy.toJsonable
  | .listTasks _, tasks => (PyValue.list ((show List TaskRecord from tasks).map TaskRecord.toPy)).toJsonable
  | .submitWorkflow _ _ _, workflow | .getWorkflow _, workflow =>
    (show WorkflowRecord from workflow).toPy.toJsonable
  | .listWorkflows _, workflows =>
    (PyValue.list ((show List WorkflowRecord from workflows).map WorkflowRecord.toPy)).toJsonable
  | .getWorkflowComponents _, components =>
    (PyValue.dict ((show Dict String TaskRecord from components).entries.map
      fun entry => (entry.1, entry.2.toPy))).toJsonable
  | .latestBarrier _, barrier =>
    (PyValue.orNone BarrierCommit.toPy (show Option BarrierCommit from barrier)).toJsonable
  | .commitBarrier _ _ _, commit => (show BarrierCommit from commit).toPy.toJsonable
  | .setResourcePolicy policy, _ => policy.toPy.toJsonable
  | _, _ => .none

namespace ApiRequest

/-- `return to_jsonable(store.call(...))`. -/
def answer (call : Call) : Endpoint PyValue := do
  let result ← raising .error (callStore call none)
  return call.wire result

/-- `submit_task`. -/
def runSubmitTask (registry : TaskRegistry) (freshId : String) (request : SubmitTaskRequest) :
    Endpoint PyValue := do
  let payload ← Action.ofExcept ((registry.validateTask request.kind request.payload).mapError unprocessable)
  let spec ← Action.ofExcept ((request.taskSpec payload freshId).mapError .error)
  answer (.submitTask spec)

/-- `submit_workflow`. -/
def runSubmitWorkflow (registry : TaskRegistry) (freshId : String) (request : SubmitWorkflowRequest) :
    Endpoint PyValue := do
  let spec ← Action.ofExcept ((request.workflowSpec freshId).mapError unprocessable)
  let workflow ← raising unprocessable (WorkflowEngine.submit ⟨registry⟩ spec)
  return workflow.toPy.toJsonable

/-- `get_workflow`: three reads, one after the other. -/
def runGetWorkflow (workflowId : String) : Endpoint PyValue := do
  let workflow ← answer (.getWorkflow workflowId)
  let components ← answer (.getWorkflowComponents workflowId)
  let barrier ← answer (.latestBarrier workflowId)
  return .dict [("workflow", workflow), ("components", components), ("latest_barrier", barrier)]

/-- `set_resource_policy`. -/
def runSetResourcePolicy (resourceClass : String) (request : ResourcePolicyRequest) : Endpoint PyValue := do
  let policy ← Action.ofExcept ((request.policy resourceClass).mapError .error)
  answer (.setResourcePolicy policy)

/-- `healthz`. -/
def runHealthz (controllerId : String) (lease : Option ControllerLease) : Endpoint PyValue :=
  pure (.dict [("ok", .bool true), ("controller_id", .str controllerId), ("is_leader", .bool lease.isSome)])

/-- The endpoint of a request. The lease is the one that the controller object holds. -/
def run (registry : TaskRegistry) (controllerId freshId : String) (lease : Option ControllerLease) :
    ApiRequest → Endpoint PyValue
  | healthz => runHealthz controllerId lease
  | submitTask request => runSubmitTask registry freshId request
  | getTask taskId => answer (.getTask taskId)
  | listTasks status => answer (.listTasks status)
  | checkpoint taskId request => answer (.recordCheckpoint taskId ⟨request.uri, request.sequence, request.metadata⟩)
  | submitWorkflow request => runSubmitWorkflow registry freshId request
  | getWorkflow workflowId => runGetWorkflow workflowId
  | listWorkflows status => answer (.listWorkflows status)
  | commitBarrier workflowId request =>
    answer (.commitBarrier workflowId request.barrier request.controllerCheckpointUri)
  | setResourcePolicy resourceClass request => runSetResourcePolicy resourceClass request

end ApiRequest

/-- The body of a response. -/
inductive Content
  | json (value : PyValue)
  | text (s : String)

/-- An HTTP response. -/
structure Response where
  statusCode : ℕ
  content : Content

mutual
/-- `JSONResponse` can render the data: no number of it is an infinity. -/
def PyValue.renders : PyValue → Bool
  | .inf _ => false
  | .list items | .tuple items => PyValue.rendersItems items
  | .dict entries | .dataclass _ entries => PyValue.rendersEntries entries
  | _ => true

/-- All elements of a sequence can be rendered. -/
def PyValue.rendersItems : List PyValue → Bool
  | [] => true
  | item :: rest => PyValue.renders item && PyValue.rendersItems rest

/-- All values of a mapping can be rendered. -/
def PyValue.rendersEntries : List (String × PyValue) → Bool
  | [] => true
  | (_, item) :: rest => PyValue.renders item && PyValue.rendersEntries rest
end

/-- What the server makes of an exception that nothing handles. -/
def Response.internalError : Response := ⟨500, .text "Internal Server Error"⟩

/-- `{"detail": detail}`, if it can be rendered. FastAPI's account of what it does not accept quotes the values. -/
def Response.detail (statusCode : ℕ) (detail : PyValue) : Response :=
  if detail.renders then ⟨statusCode, .json (.dict [("detail", detail)])⟩ else .internalError

/-- A failure with a detail is a failure, also if the detail cannot be rendered. -/
theorem Response.detail_status {statusCode : ℕ} (h : 300 ≤ statusCode) (detail : PyValue) :
    300 ≤ (Response.detail statusCode detail).statusCode := by
  rw [Response.detail]
  split
  · exact h
  · simp [Response.internalError]

/-- The response to what an endpoint leaves: the exception handlers of the application, and an internal error for
every exception that has none, also if it is the result that cannot be rendered. -/
def respond : Except Raised PyValue → Response
  | .ok value => if value.renders then ⟨200, .json value⟩ else .internalError
  | .error (.http statusCode detail) => .detail statusCode (.str detail)
  | .error (.error e) =>
    match e.kind with
    | .taskNotFound | .workflowNotFound => ⟨404, .text e.text⟩
    | .barrierConflict => ⟨409, .text e.text⟩
    | _ => .internalError

/-- What a server receives. -/
structure HttpRequest where
  method : String
  path : String
  authorization : Option String
  body : Option PyValue

/-- What FastAPI makes of a request. It answers the request itself, with its pages about the application
(`/openapi.json`, `/docs`, `/redoc`), a redirection, or an error when it knows no such path or method or cannot read
the body. Or its parameters or body are not accepted, or it has an endpoint. The second is found out after the
dependencies of the endpoint, such as `authenticate`, and the first has none. -/
inductive Routed
  | own (response : Response)
  | invalid (detail : PyValue)
  | accepted (request : ApiRequest)

/-- `create_app`: the arguments, and what FastAPI makes of requests. -/
structure SwarmApp where
  registry : TaskRegistry
  controllerId : String
  bearerToken : Option String
  route : HttpRequest → Routed

/-- `text.partition(" ")` without the separator. -/
def partitionSpace (text : String) : String × String :=
  (String.ofList (text.toList.takeWhile (· ≠ ' ')), String.ofList (text.toList.dropWhile (· ≠ ' ')).tail)

/-- `text.isascii()`. -/
def isAscii (text : String) : Bool := text.toList.all fun c => c.toNat < 128

/-- `secrets.compare_digest` of two texts. -/
def compareDigest (a b : String) : Except PyError Bool :=
  if isAscii a && isAscii b then .ok (a = b)
  else .error ⟨.type, "comparing strings with non-ASCII characters is not supported"⟩

/-- `authenticate`. -/
def authenticate (bearerToken authorization : Option String) : Except Raised Unit :=
  match bearerToken with
  | none => .ok ()
  | some token =>
    let (scheme, credential) := partitionSpace (authorization.getD "")
    if lower scheme ≠ "bearer" then .error (.http 401 "invalid bearer token")
    else
      match compareDigest credential token with
      | .error e => .error (.error e)
      | .ok same => if same then .ok () else .error (.http 401 "invalid bearer token")

namespace SwarmApp

/-- The response to a request, as a program. Of the endpoints only `healthz` needs no authentication. -/
def serve (app : SwarmApp) (freshId : String) (lease : Option ControllerLease) (http : HttpRequest) :
    Prog Operation Operation.Reply Response :=
  match app.route http with
  | .own response => pure response
  | .accepted .healthz => do return respond (← (ApiRequest.runHealthz app.controllerId lease).run)
  | routed =>
    match authenticate app.bearerToken http.authorization with
    | .error raised => pure (respond (.error raised))
    | .ok () =>
      match routed with
      | .own response => pure response
      | .invalid detail => pure (.detail 422 detail)
      | .accepted request => do return respond (← (request.run app.registry app.controllerId freshId lease).run)

/-- The health of the application needs no authentication. -/
theorem serve_health {app : SwarmApp} {freshId : String} {lease : Option ControllerLease} {http : HttpRequest}
    (hroute : app.route http = .accepted .healthz) : app.serve freshId lease http =
      pure ⟨200, .json (.dict [("ok", .bool true), ("controller_id", .str app.controllerId),
        ("is_leader", .bool lease.isSome)])⟩ := by
  rw [serve, hroute]
  rfl

/-- An authenticated request runs its endpoint. -/
theorem serve_accepted {app : SwarmApp} {freshId : String} {lease : Option ControllerLease} {http : HttpRequest}
    {request : ApiRequest} (hroute : app.route http = .accepted request)
    (hauth : authenticate app.bearerToken http.authorization = .ok ()) :
    app.serve freshId lease http =
      (do return respond (← (request.run app.registry app.controllerId freshId lease).run)) := by
  unfold serve
  rw [hroute]
  cases request <;> first | rfl | rw [hauth]

/-- A request that is not authenticated is refused, unless it is for the health of the application or FastAPI
answers it itself. -/
theorem serve_unauthenticated {app : SwarmApp} {freshId : String} {lease : Option ControllerLease}
    {http : HttpRequest} {raised : Raised} (hauth : authenticate app.bearerToken http.authorization = .error raised)
    (hhealth : app.route http ≠ .accepted .healthz) :
    app.serve freshId lease http = pure (respond (.error raised)) ∨
      ∃ response, app.route http = .own response ∧ app.serve freshId lease http = pure response := by
  unfold serve
  cases hroute : app.route http with
  | own response => exact Or.inr ⟨response, rfl, rfl⟩
  | invalid detail =>
    rw [hauth]
    exact Or.inl rfl
  | accepted request =>
    left
    cases request <;> first | exact absurd hroute hhealth | rw [hauth]

end SwarmApp

end TPUSwarm
