import TPUSwarm.Api.Endpoints
import TPUSwarm.Session.Calls
import TPUSwarm.Solo.Schedule

/-!
# What a request comes to

Requests are served concurrently, and a request may issue several operations. It still comes to one call of the
store at one moment, the last thing it does, or to nothing. Only the view of a workflow is put together from three
reads at three moments.
-/

namespace TPUSwarm

open Common SwarmStore

/-- The call that `WorkflowEngine.submit` makes, once the handler has accepted the workflow. -/
def WorkflowEngine.submission (engine : WorkflowEngine) (spec : WorkflowSpec) : Except PyError Call := do
  let handler ← engine.registry.workflow spec.kind
  let payload ← handler.validatePayload spec.payload
  let spec := { spec with payload := payload }
  let state ← handler.initialState spec.payload
  let desired ← handler.desiredComponents (placeholder spec state) state
  let components ← desired.mapM engine.validatedComponent
  return .submitWorkflow spec components state

/-- The one call of the store that a request stands for, if it is acceptable. -/
def ApiRequest.call? (registry : TaskRegistry) (freshId : String) : ApiRequest → Option Call
  | healthz | getWorkflow _ => none
  | submitTask request => do
    let payload ← (registry.validateTask request.kind request.payload).toOption
    let spec ← (request.taskSpec payload freshId).toOption
    return .submitTask spec
  | getTask taskId => some (.getTask taskId)
  | listTasks status => some (.listTasks status)
  | checkpoint taskId request => some (.recordCheckpoint taskId ⟨request.uri, request.sequence, request.metadata⟩)
  | submitWorkflow request => do
    let spec ← (request.workflowSpec freshId).toOption
    (WorkflowEngine.submission ⟨registry⟩ spec).toOption
  | listWorkflows status => some (.listWorkflows status)
  | commitBarrier workflowId request =>
    some (.commitBarrier workflowId request.barrier request.controllerCheckpointUri)
  | setResourcePolicy resourceClass request => do
    let policy ← (request.policy resourceClass).toOption
    return .setResourcePolicy policy

/-- What a request may come to, among calls of others. -/
inductive Answered (app : SwarmApp) (freshId : String) (lease : Option ControllerLease) (http : HttpRequest)
    (allowed : Discretion) (store : SwarmStore) : Response → SwarmStore → Prop
  /-- It fails, and has done nothing. -/
  | failed {response store'} (hstatus : 300 ≤ response.statusCode) (hothers : History allowed store store') :
      Answered app freshId lease http allowed store response store'
  /-- FastAPI answers it itself, without the application. -/
  | own {response} (hroute : app.route http = .own response) :
      Answered app freshId lease http allowed store response store
  /-- It is answered without the store. -/
  | health (hroute : app.route http = .accepted .healthz) :
      Answered app freshId lease http allowed store
        ⟨200, .json (.dict [("ok", .bool true), ("controller_id", .str app.controllerId),
          ("is_leader", .bool lease.isSome)])⟩ store
  /-- Its call has returned, and the response has the result. -/
  | called {request call mid now result store'} (hroute : app.route http = .accepted request)
      (hauthenticated : authenticate app.bearerToken http.authorization = .ok ())
      (hcall : request.call? app.registry freshId = some call) (hothers : History allowed store mid)
      (hrun : call.run now mid = .ok (result, store')) :
      Answered app freshId lease http allowed store ⟨200, .json (call.wire result)⟩ store'
  /-- Its call has returned, but the result has a number that JSON has no text for. -/
  | unrendered {request call mid now result store'} (hroute : app.route http = .accepted request)
      (hauthenticated : authenticate app.bearerToken http.authorization = .ok ())
      (hcall : request.call? app.registry freshId = some call) (hothers : History allowed store mid)
      (hrun : call.run now mid = .ok (result, store')) (hinfinite : (call.wire result).renders = false) :
      Answered app freshId lease http allowed store .internalError store'
  /-- It is the view of a workflow, as three moments have it. -/
  | viewed {workflowId workflow first second third} (hroute : app.route http = .accepted (.getWorkflow workflowId))
      (hauthenticated : authenticate app.bearerToken http.authorization = .ok ())
      (hfirst : History allowed store first) (hworkflow : getWorkflow workflowId first = .ok workflow)
      (hsecond : History allowed first second) (hthird : History allowed second third)
      {barrier} (hbarrier : latestBarrier workflowId third = .ok barrier) :
      Answered app freshId lease http allowed store
        ⟨200, .json (.dict [("workflow", Call.wire (.getWorkflow workflowId) workflow),
          ("components", Call.wire (.getWorkflowComponents workflowId) (second.getWorkflowComponents workflowId)),
          ("latest_barrier", Call.wire (.latestBarrier workflowId) barrier)])⟩ third

variable {allowed : Discretion} {store store' : SwarmStore} {trace : List (Sigma Operation.Reply)}

/-- Leaving an endpoint for a reason of the request is a failure. -/
theorem unprocessable_status (e : PyError) (outcome : Except Raised PyValue)
    (h : outcome = .error (unprocessable e) ∨ outcome = .error (.error e)) :
    300 ≤ (respond outcome).statusCode := by
  have herror : 300 ≤ (respond (.error (.error e))).statusCode := by
    rw [respond]
    split <;> simp [Response.internalError]
  rcases h with rfl | rfl
  · unfold unprocessable
    split
    · exact Response.detail_status (by decide) _
    · exact herror
  · exact herror

/-- A refused authentication is a failure. -/
theorem authenticate_status {token authorization : Option String} {raised : Raised}
    (h : authenticate token authorization = .error raised) : 300 ≤ (respond (.error raised)).statusCode := by
  unfold authenticate at h
  split at h
  · cases h
  · dsimp only at h
    split at h
    · cases h
      exact Response.detail_status (by decide) _
    · split at h
      · cases h
        exact unprocessable_status _ _ (Or.inr rfl)
      · split at h
        · cases h
        · cases h
          exact Response.detail_status (by decide) _

/-- A session in an endpoint leaves like the session itself. -/
theorem runs_raising {α : Type} {leave : PyError → Raised} {p : Effect α} {outcome : Except Raised α}
    (h : Action.Runs (Answers allowed) (raising leave p) store trace outcome store') :
    ∃ inner, outcome = inner.mapError leave ∧ Session allowed p store trace inner store' := by
  obtain ⟨first, inner, mid, second, rfl, hinner, hend⟩ := Prog.runs_bind.mp h
  obtain ⟨rfl, rfl, rfl⟩ := Prog.runs_pure.mp hend
  exact ⟨inner, rfl, by rwa [List.append_nil]⟩

/-- An endpoint of one call: it leaves with the error of the call, and nothing was done, or it returns the
result. -/
theorem runs_answer {call : Call} {outcome : Except Raised PyValue}
    (h : Action.Runs (Answers allowed) (ApiRequest.answer call) store trace outcome store') :
    (∃ e, outcome = .error (.error e) ∧ History allowed store store') ∨
      ∃ mid now result, outcome = .ok (call.wire result) ∧ History allowed store mid ∧
        call.run now mid = .ok (result, store') := by
  rcases Action.runs_bind.mp h with ⟨raised, rfl, hraised⟩ | ⟨first, result, last, second, -, hfirst, hsecond⟩
  · obtain ⟨inner, houtcome, hinner⟩ := runs_raising hraised
    obtain ⟨-, mid, clock, hothers, hperform⟩ := session_callStore.mp hinner
    rcases Call.perform_cases hperform with ⟨e, rfl, rfl⟩ | ⟨result, rfl, -⟩
    · cases houtcome
      exact Or.inl ⟨e, rfl, hothers⟩
    · cases houtcome
  · obtain ⟨inner, houtcome, hinner⟩ := runs_raising hfirst
    obtain ⟨-, rfl, rfl⟩ := Action.runs_pure.mp hsecond
    obtain ⟨-, mid, clock, hothers, hperform⟩ := session_callStore.mp hinner
    rcases Call.perform_cases hperform with ⟨e, rfl, -⟩ | ⟨returned, rfl, hrun⟩
    · cases houtcome
    · obtain rfl := Except.ok.inj houtcome
      exact Or.inr ⟨mid, _, result, rfl, hothers, hrun⟩

/-- Submitting a workflow raises and does nothing, or it makes the call that its handler asks for. -/
theorem session_submit {engine : WorkflowEngine} {spec : WorkflowSpec} {outcome : Except PyError WorkflowRecord}
    (h : Session allowed (engine.submit spec) store trace outcome store') :
    (∃ e, outcome = .error e ∧ History allowed store store') ∨
      ∃ call mid now result workflow, engine.submission spec = .ok call ∧ outcome = .ok workflow ∧
        call.wire result = workflow.toPy.toJsonable ∧ History allowed store mid ∧
          call.run now mid = .ok (result, store') := by
  unfold WorkflowEngine.submit at h
  unfold WorkflowEngine.submission
  rcases Action.runs_ofExcept_bind.mp h with ⟨e, -, -, rfl, rfl⟩ | ⟨handler, hhandler, h⟩
  · exact Or.inl ⟨e, rfl, .refl⟩
  rcases Action.runs_ofExcept_bind.mp h with ⟨e, -, -, rfl, rfl⟩ | ⟨payload, hpayload, h⟩
  · exact Or.inl ⟨e, rfl, .refl⟩
  dsimp only at h
  rcases Action.runs_ofExcept_bind.mp h with ⟨e, -, -, rfl, rfl⟩ | ⟨state, hstate, h⟩
  · exact Or.inl ⟨e, rfl, .refl⟩
  rcases Action.runs_ofExcept_bind.mp h with ⟨e, -, -, rfl, rfl⟩ | ⟨desired, hdesired, h⟩
  · exact Or.inl ⟨e, rfl, .refl⟩
  rcases Action.runs_ofExcept_bind.mp h with ⟨e, -, -, rfl, rfl⟩ | ⟨components, hcomponents, h⟩
  · exact Or.inl ⟨e, rfl, .refl⟩
  obtain ⟨-, mid, clock, hothers, hperform⟩ := session_callStore.mp h
  rcases Call.perform_cases hperform with ⟨e, rfl, rfl⟩ | ⟨workflow, rfl, hrun⟩
  · exact Or.inl ⟨e, rfl, hothers⟩
  · refine Or.inr ⟨_, mid, _, workflow, workflow, ?_, rfl, rfl, hothers, hrun⟩
    exact bind_eq_ok.mpr ⟨handler, hhandler, bind_eq_ok.mpr ⟨payload, hpayload, bind_eq_ok.mpr ⟨state, hstate,
      bind_eq_ok.mpr ⟨desired, hdesired, bind_eq_ok.mpr ⟨components, hcomponents, rfl⟩⟩⟩⟩⟩

/-- What an endpoint with one call comes to: it leaves and has done nothing, or its call has returned. -/
def Comes (allowed : Discretion) (store : SwarmStore) (call? : Option Call) (outcome : Except Raised PyValue)
    (store' : SwarmStore) : Prop :=
  (300 ≤ (respond outcome).statusCode ∧ History allowed store store') ∨
    ∃ call mid now result, call? = some call ∧ outcome = .ok (call.wire result) ∧ History allowed store mid ∧
      call.run now mid = .ok (result, store')

/-- An endpoint of one call comes to this call. -/
theorem comes_answer {call : Call} {outcome : Except Raised PyValue}
    (h : Action.Runs (Answers allowed) (ApiRequest.answer call) store trace outcome store') :
    Comes allowed store (some call) outcome store' := by
  rcases runs_answer h with ⟨e, rfl, hothers⟩ | ⟨mid, now, result, houtcome, hothers, hrun⟩
  · exact Or.inl ⟨unprocessable_status e _ (Or.inr rfl), hothers⟩
  · exact Or.inr ⟨call, mid, now, result, rfl, houtcome, hothers, hrun⟩

/-- A check in front of an endpoint leaves it, or the endpoint goes on. -/
theorem comes_check {α : Type} {r : Except PyError α} {leave : PyError → Raised} {f : α → Endpoint PyValue}
    {next : α → Option Call} {outcome : Except Raised PyValue}
    (hleave : ∀ e, leave e = unprocessable e ∨ leave e = .error e)
    (hnext : ∀ a trace, r = .ok a → Action.Runs (Answers allowed) (f a) store trace outcome store' →
      Comes allowed store (next a) outcome store')
    (h : Action.Runs (Answers allowed) (Action.ofExcept (r.mapError leave) >>= f) store trace outcome store') :
    Comes allowed store (r.toOption.bind next) outcome store' := by
  rcases Action.runs_ofExcept_bind.mp h with ⟨raised, hr, -, rfl, rfl⟩ | ⟨a, hr, h⟩
  · cases r with
    | error e =>
      cases hr
      refine Or.inl ⟨unprocessable_status e _ ?_, .refl⟩
      rcases hleave e with heq | heq
      · exact Or.inl (by rw [heq])
      · exact Or.inr (by rw [heq])
    | ok a => cases hr
  · cases r with
    | error e => cases hr
    | ok b =>
      cases hr
      exact hnext a trace rfl h

/-- Every endpoint but two comes to its one call. -/
theorem comes_run {registry : TaskRegistry} {controllerId freshId : String} {lease : Option ControllerLease}
    {request : ApiRequest} {outcome : Except Raised PyValue} (hhealth : request ≠ .healthz)
    (hview : ∀ workflowId, request ≠ .getWorkflow workflowId)
    (h : Action.Runs (Answers allowed) (request.run registry controllerId freshId lease) store trace outcome
      store') :
    Comes allowed store (request.call? registry freshId) outcome store' := by
  cases request with
  | healthz => exact absurd rfl hhealth
  | getWorkflow workflowId => exact absurd rfl (hview workflowId)
  | getTask | listTasks | listWorkflows | checkpoint | commitBarrier => exact comes_answer h
  | submitTask request =>
    refine comes_check (fun _ => Or.inl rfl) (fun payload trace _ h => ?_) h
    exact comes_check (fun _ => Or.inr rfl) (fun spec trace _ h => comes_answer h) h
  | setResourcePolicy resourceClass request =>
    exact comes_check (fun _ => Or.inr rfl) (fun policy trace _ h => comes_answer h) h
  | submitWorkflow request =>
    refine comes_check (fun _ => Or.inl rfl) (fun spec trace _ h => ?_) h
    rcases Action.runs_bind.mp h with ⟨raised, rfl, hraised⟩ | ⟨first, workflow, last, second, -, hfirst, hend⟩
    · obtain ⟨inner, houtcome, hinner⟩ := runs_raising hraised
      rcases session_submit hinner with ⟨e, rfl, hothers⟩ | ⟨_, _, _, _, _, -, rfl, -⟩
      · cases houtcome
        exact Or.inl ⟨unprocessable_status e _ (Or.inl rfl), hothers⟩
      · cases houtcome
    · obtain ⟨inner, houtcome, hinner⟩ := runs_raising hfirst
      obtain ⟨-, rfl, rfl⟩ := Action.runs_pure.mp hend
      rcases session_submit hinner with ⟨_, rfl, -⟩ |
        ⟨call, mid, now, result, workflow', hcall, rfl, hwire, hothers, hrun⟩
      · cases houtcome
      · obtain rfl := Except.ok.inj houtcome
        exact Or.inr ⟨call, mid, now, result, by rw [hcall]; rfl, by rw [hwire], hothers, hrun⟩

/-- A read in front of an endpoint leaves it, or the endpoint goes on from where the read was. -/
theorem runs_read_bind {call : Call} (hread : call.isRead = true) {f : PyValue → Endpoint PyValue}
    {outcome : Except Raised PyValue}
    (h : Action.Runs (Answers allowed) (ApiRequest.answer call >>= f) store trace outcome store') :
    (∃ e, outcome = .error (.error e) ∧ History allowed store store') ∨
      ∃ mid now result rest, History allowed store mid ∧ call.run now mid = .ok (result, mid) ∧
        Action.Runs (Answers allowed) (f (call.wire result)) mid rest outcome store' := by
  rcases Action.runs_bind.mp h with ⟨raised, rfl, hraised⟩ | ⟨_, value, mid, rest, -, hvalue, hrest⟩
  · rcases runs_answer hraised with ⟨e, heq, hothers⟩ | ⟨_, _, _, heq, -⟩
    · cases heq
      exact Or.inl ⟨e, rfl, hothers⟩
    · cases heq
  · rcases runs_answer hvalue with ⟨_, heq, -⟩ | ⟨before, now, result, heq, hothers, hrun⟩
    · cases heq
    · obtain rfl := Except.ok.inj heq
      obtain rfl := Call.read_unchanged hread hrun
      exact Or.inr ⟨mid, now, result, rest, hothers, hrun, hrest⟩

/-- The view of a workflow fails, or it has what three moments have. -/
theorem view_answered {app : SwarmApp} {freshId workflowId : String} {lease : Option ControllerLease}
    {http : HttpRequest}
    {outcome : Except Raised PyValue} (hroute : app.route http = .accepted (.getWorkflow workflowId))
    (hauthenticated : authenticate app.bearerToken http.authorization = .ok ())
    (h : Action.Runs (Answers allowed) (ApiRequest.runGetWorkflow workflowId) store trace outcome store') :
    Answered app freshId lease http allowed store (respond outcome) store' := by
  have hfailed : ∀ e, respond outcome = respond (.error (.error e)) → History allowed store store' →
      Answered app freshId lease http allowed store (respond outcome) store' := by
    intro e heq hothers
    exact .failed (heq ▸ unprocessable_status e _ (Or.inr rfl)) hothers
  rcases runs_read_bind rfl h with ⟨e, rfl, hothers⟩ | ⟨first, _, workflow, _, hothers₁, hworkflow, hrest⟩
  · exact hfailed e rfl hothers
  rcases runs_read_bind rfl hrest with ⟨e, rfl, hothers⟩ | ⟨second, _, components, _, hothers₂, hcomponents, hlast⟩
  · exact hfailed e rfl (hothers₁.trans hothers)
  rcases runs_read_bind rfl hlast with ⟨e, rfl, hothers⟩ | ⟨third, _, barrier, _, hothers₃, hbarrier, hend⟩
  · exact hfailed e rfl ((hothers₁.trans hothers₂).trans hothers)
  obtain ⟨-, rfl, rfl⟩ := Action.runs_pure.mp hend
  have hread : Except.ok (second.getWorkflowComponents workflowId) = Except.ok components :=
    (Call.reading_eq_ok (f := fun store => .ok (store.getWorkflowComponents workflowId)).mp hcomponents).1
  obtain rfl := Except.ok.inj hread
  rw [respond]
  split
  · exact .viewed hroute hauthenticated hothers₁ (Call.reading_eq_ok.mp hworkflow).1 hothers₂ hothers₃
      (Call.reading_eq_ok.mp hbarrier).1
  · exact .failed (by decide) ((hothers₁.trans hothers₂).trans hothers₃)

/-- What the sample application makes of a request: it knows a body with the required fields of a task and its
id, or with all fields and the defaults, and the path of the sample task. -/
def sampleRoute (http : HttpRequest) : Routed :=
  if http.method = "POST" ∧ http.path = "/v1/tasks" then
    match http.body with
    | some (.dict [("kind", .str kind), ("resource_class", .str resourceClass), ("task_id", .str taskId)]) =>
      .accepted (.submitTask { kind := kind, resourceClass := resourceClass, taskId := some taskId })
    | some (.dict [("kind", .str kind), ("resource_class", .str resourceClass), ("payload", .dict []),
        ("task_id", .str taskId), ("priority", .int 500), ("recovery_priority", .int 900),
        ("idempotency_key", .none), ("metadata", .dict [])]) =>
      .accepted (.submitTask { kind := kind, resourceClass := resourceClass, taskId := some taskId })
    | _ => .invalid (.list [])
  else if http.method = "GET" ∧ http.path = "/v1/tasks/t1" then .accepted (.getTask "t1")
  else .own (.detail 404 (.str "Not Found"))

/-- An application in front of the sample controller, with a token. -/
def sampleApp : SwarmApp where
  registry := sampleController.registry
  controllerId := sampleController.controllerId
  bearerToken := some "token"
  route := sampleRoute

/-- A request for the sample task. -/
def sampleGet : HttpRequest := ⟨"GET", "/v1/tasks/t1", some "Bearer token", none⟩

end TPUSwarm
