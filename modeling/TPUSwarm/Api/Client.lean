import TPUSwarm.Api.Atomic
import TPUSwarm.Api.Authentication

/-!
# The client

Every method of the client is one request, of which the response becomes a record or an exception. What carries
requests is a parameter, and so is the text of a body: a response in JSON is the data it stands for.
-/

namespace TPUSwarm

open Common

/-- `text.rstrip("/")`. -/
def rstripSlash (text : String) : String :=
  String.ofList (text.toList.reverse.dropWhile (· = '/')).reverse

/-- `SwarmClient`, less its timeout. -/
structure SwarmClient where
  baseUrl : String
  bearerToken : Option String

/-- `SwarmClient.__init__`. -/
def SwarmClient.init (baseUrl : String) (bearerToken : Option String) : SwarmClient :=
  ⟨rstripSlash baseUrl, bearerToken⟩

/-- How the bodies of responses read as text, and `json.loads` of a body that is not in JSON by its type. -/
structure BodyReader where
  decode : Content → String
  loads : String → Except PyError PyValue

/-- What `urlopen` comes to: a response, or none, for a reason. -/
abbrev UrlOpener := HttpRequest → Prog Operation Operation.Reply (Except String Response)

/-- The fields of a specification of a workflow as Python values. -/
def WorkflowSpec.pyFields (s : WorkflowSpec) : List (String × PyValue) :=
  [("kind", .str s.kind), ("payload", (Json.obj s.payload).toPy), ("workflow_id", .str s.workflowId),
    ("consistency_mode", .enum (.consistencyMode s.consistencyMode)), ("metadata", (Json.obj s.metadata).toPy)]

/-- The object that a specification of a workflow is. -/
def WorkflowSpec.toPy (s : WorkflowSpec) : PyValue := .dataclass "WorkflowSpec" s.pyFields

namespace SwarmClient

variable (client : SwarmClient)

/-- The request that `_request` makes. -/
def http (method path : String) (body : Option PyValue) : HttpRequest where
  method := method
  path := path
  authorization := client.bearerToken.map ("Bearer " ++ ·)
  body := body.map PyValue.toJsonable

/-- What `_request` makes of what `urlopen` comes to. A status of failure is an `HTTPError`. -/
def receive (reader : BodyReader) : Except String Response → Except PyError PyValue
  | .error reason =>
    .error ⟨.backendUnavailable, "could not reach TPUSwarm at " ++ client.baseUrl ++ ": " ++ reason⟩
  | .ok response =>
    if 200 ≤ response.statusCode ∧ response.statusCode < 300 then
      match response.content with
      | .json value => .ok value
      | .text payload => if payload = "" then .ok .none else reader.loads payload
    else
      .error ⟨.other "SwarmError",
        "TPUSwarm returned HTTP " ++ toString response.statusCode ++ ": " ++ reader.decode response.content⟩

variable (urlopen : UrlOpener) (reader : BodyReader)

/-- `SwarmClient._request`. -/
def request (method path : String) (body : Option PyValue) : Effect PyValue :=
  Action.reply (urlopen (client.http method path body) >>= fun outcome => pure (client.receive reader outcome))

/-- `SwarmClient.submit_task`. -/
def submitTask (spec : TaskSpec) : Effect PyValue := do
  let data ← client.request urlopen reader "POST" "/v1/tasks" (some spec.toPy.toJsonable)
  Action.ofExcept (taskRecordFromDict data)

/-- `SwarmClient.get_task`. -/
def getTask (taskId : String) : Effect PyValue := do
  let data ← client.request urlopen reader "GET" ("/v1/tasks/" ++ taskId) none
  Action.ofExcept (taskRecordFromDict data)

/-- `SwarmClient.submit_workflow`. -/
def submitWorkflow (spec : WorkflowSpec) : Effect PyValue :=
  client.request urlopen reader "POST" "/v1/workflows" (some spec.toPy.toJsonable)

/-- `SwarmClient.publish_checkpoint`. -/
def publishCheckpoint (taskId : String) (checkpoint : CheckpointRef) : Effect PyValue := do
  let data ← client.request urlopen reader "POST" ("/v1/tasks/" ++ taskId ++ "/checkpoints")
    (some checkpoint.toPy.toJsonable)
  Action.ofExcept (taskRecordFromDict data)

end SwarmClient

/-- A call of a method of the client. -/
inductive ClientCall
  | submitTask (spec : TaskSpec)
  | getTask (taskId : String)
  | submitWorkflow (spec : WorkflowSpec)
  | publishCheckpoint (taskId : String) (checkpoint : CheckpointRef)

namespace ClientCall

variable (client : SwarmClient) (urlopen : UrlOpener) (reader : BodyReader)

/-- The method that is called. -/
def run : ClientCall → Effect PyValue
  | submitTask spec => client.submitTask urlopen reader spec
  | getTask taskId => client.getTask urlopen reader taskId
  | submitWorkflow spec => client.submitWorkflow urlopen reader spec
  | publishCheckpoint taskId checkpoint => client.publishCheckpoint urlopen reader taskId checkpoint

/-- The request it makes. -/
def http : ClientCall → HttpRequest
  | submitTask spec => client.http "POST" "/v1/tasks" (some spec.toPy.toJsonable)
  | getTask taskId => client.http "GET" ("/v1/tasks/" ++ taskId) none
  | submitWorkflow spec => client.http "POST" "/v1/workflows" (some spec.toPy.toJsonable)
  | publishCheckpoint taskId checkpoint =>
    client.http "POST" ("/v1/tasks/" ++ taskId ++ "/checkpoints") (some checkpoint.toPy.toJsonable)

/-- What the application is to make of the request. -/
def request : ClientCall → ApiRequest
  | submitTask spec =>
    .submitTask
      { kind := spec.kind, resourceClass := spec.resourceClass, payload := spec.payload, taskId := some spec.taskId,
        priority := spec.priority, recoveryPriority := spec.recoveryPriority,
        idempotencyKey := spec.idempotencyKey, metadata := spec.metadata }
  | getTask taskId => .getTask taskId
  | submitWorkflow spec =>
    .submitWorkflow
      { kind := spec.kind, payload := spec.payload, workflowId := some spec.workflowId,
        consistencyMode := spec.consistencyMode, metadata := spec.metadata }
  | publishCheckpoint taskId checkpoint =>
    .checkpoint taskId ⟨checkpoint.uri, checkpoint.sequence, checkpoint.metadata⟩

/-- What the method makes of the data it receives. -/
def decode : ClientCall → PyValue → Except PyError PyValue
  | submitWorkflow _, data => .ok data
  | _, data => taskRecordFromDict data

/-- Every method is its request, and what it makes of the data. -/
theorem run_eq (call : ClientCall) : call.run client urlopen reader =
    (Action.reply (urlopen (call.http client) >>= fun outcome => pure (client.receive reader outcome)) >>=
      fun data => Action.ofExcept (call.decode data)) := by
  cases call with
  | submitTask spec => rfl
  | getTask taskId => rfl
  | publishCheckpoint taskId checkpoint => rfl
  | submitWorkflow spec => exact (bind_pure _).symm

end ClientCall

/-- What a client holds after a call of the store: the record of a task itself, or the data of anything else. -/
def Call.received : (call : Call) → call.Result → PyValue
  | .submitTask _, task | .getTask _, task | .recordCheckpoint _ _, task => (show TaskRecord from task).toPy
  | call, result => call.wire result

/-- A text of visible ASCII characters, which a header carries as it is. -/
def isVisible (text : String) : Bool := text.toList.all fun c => 0x21 ≤ c.toNat ∧ c.toNat ≤ 0x7e

/-- The application asks for no token, or for the one that the client has. -/
def SwarmClient.Trusted (client : SwarmClient) (app : SwarmApp) : Prop :=
  app.bearerToken = none ∨
    ∃ token, app.bearerToken = some token ∧ client.bearerToken = some token ∧ isVisible token = true

/-- The application reached over the network. -/
def SwarmApp.reached (app : SwarmApp) (freshId : String) (lease : Option ControllerLease) : UrlOpener :=
  fun http => do return .ok (← app.serve freshId lease http)

variable {allowed : Discretion} {store store' : SwarmStore} {trace : List (Sigma Operation.Reply)} {app : SwarmApp}
  {client : SwarmClient} {reader : BodyReader} {freshId : String} {lease : Option ControllerLease}

/-- A visible text is ASCII. -/
theorem isAscii_of_isVisible {text : String} (h : isVisible text = true) : isAscii text = true := by
  refine List.all_eq_true.mpr fun c hc => ?_
  have hvisible := List.all_eq_true.mp h c hc
  simp only [decide_eq_true_eq] at hvisible ⊢
  omega

/-- The requests of a trusted client are authenticated. -/
theorem SwarmClient.Trusted.authenticated (h : client.Trusted app) (method path : String) (body : Option PyValue) :
    authenticate app.bearerToken (client.http method path body).authorization = .ok () := by
  rcases h with hnone | ⟨token, happ, hclient, hvisible⟩
  · rw [hnone]
    rfl
  · have hheader : (client.http method path body).authorization = some ("Bearer " ++ token) := by
      rw [http, hclient]
      rfl
    rw [happ, hheader]
    refine authenticate_eq_ok.mpr ⟨isAscii_of_isVisible hvisible, "Bearer", by decide +kernel, Or.inl ?_⟩
    exact congrArg some (congrArg (· ++ token) (by decide : ("Bearer " : String) = "Bearer" ++ " "))

/-- Data that went to the wire once is as it goes to the wire again. -/
theorem PyValue.toJsonable_toJsonable (value : PyValue) : value.toJsonable.toJsonable = value.toJsonable := by
  induction value using PyValue.toJsonable.induct with
  | case1 name fields ih => rwa [toJsonable_eq (.dataclass name fields)]
  | case2 member => cases member <;> simp [EnumMember.value]
  | case3 entries ih =>
    simp only [toJsonable_dict, List.map_map, PyValue.dict.injEq]
    apply List.map_congr_left
    intro entry hentry
    exact congrArg (Prod.mk entry.1) (ih ⟨entry, hentry⟩)
  | case4 items ih =>
    simp only [toJsonable_list, List.map_map, PyValue.list.injEq]
    apply List.map_congr_left
    intro item hitem
    exact ih ⟨item, hitem⟩
  | case5 items ih =>
    simp only [toJsonable_list, toJsonable_tuple, List.map_map, PyValue.list.injEq]
    apply List.map_congr_left
    intro item hitem
    exact ih ⟨item, hitem⟩
  | case6 | case7 | case8 | case9 | case10 | case11 => simp

/-- The body of a method's request is its argument in JSON. -/
theorem SwarmClient.http_body (method path : String) (value : PyValue) :
    (client.http method path (some value.toJsonable)).body = some value.toJsonable :=
  congrArg some value.toJsonable_toJsonable

/-- What a client makes of a failure. -/
theorem SwarmClient.receive_failure {response : Response} (h : 300 ≤ response.statusCode) :
    client.receive reader (.ok response) = .error ⟨.other "SwarmError",
      "TPUSwarm returned HTTP " ++ toString response.statusCode ++ ": " ++ reader.decode response.content⟩ := by
  have hstatus : ¬ (200 ≤ response.statusCode ∧ response.statusCode < 300) := by omega
  simp only [receive, if_neg hstatus]

/-- What a client makes of a result: the data, or an exception where the result could not be rendered. -/
theorem SwarmClient.receive_value (value : PyValue) :
    value.renders = true ∧ client.receive reader (.ok (respond (.ok value))) = .ok value ∨
      value.renders = false ∧ client.receive reader (.ok (respond (.ok value))) = .error ⟨.other "SwarmError",
        "TPUSwarm returned HTTP 500: " ++ reader.decode (.text "Internal Server Error")⟩ := by
  rw [respond]
  split
  · exact Or.inl ⟨‹_›, rfl⟩
  · exact Or.inr ⟨eq_false_of_ne_true ‹_›, rfl⟩

/-- The client makes of the data of its call what the store returned. -/
theorem ClientCall.decode_wire {c : ClientCall} {registry : TaskRegistry} {call : Call}
    (hcall : c.request.call? registry freshId = some call) (result : call.Result) :
    c.decode (call.wire result) = .ok (call.received result) := by
  cases c with
  | submitTask spec =>
    obtain ⟨payload, -, hspec⟩ := Option.bind_eq_some_iff.mp hcall
    obtain ⟨checked, -, heq⟩ := Option.bind_eq_some_iff.mp hspec
    cases heq
    exact TaskRecord.decode_toJsonable _
  | getTask taskId =>
    cases hcall
    exact TaskRecord.decode_toJsonable _
  | publishCheckpoint taskId checkpoint =>
    cases hcall
    exact TaskRecord.decode_toJsonable _
  | submitWorkflow spec =>
    obtain ⟨checked, -, hsubmission⟩ := Option.bind_eq_some_iff.mp hcall
    have hok := toOption_eq_some.mp hsubmission
    obtain ⟨_, -, hok⟩ := bind_eq_ok.mp hok
    obtain ⟨_, -, hok⟩ := bind_eq_ok.mp hok
    obtain ⟨_, -, hok⟩ := bind_eq_ok.mp hok
    obtain ⟨_, -, hok⟩ := bind_eq_ok.mp hok
    obtain ⟨_, -, hok⟩ := bind_eq_ok.mp hok
    cases hok
    rfl

/-- What a client receives over the network is what it makes of a response of the application. -/
theorem runs_reached {http : HttpRequest} {outcome : Except PyError PyValue}
    (h : Action.Runs (Answers allowed) (Action.reply (app.reached freshId lease http >>= fun outcome =>
      pure (client.receive reader outcome))) store trace outcome store') :
    ∃ response, (app.serve freshId lease http).Runs (Answers allowed) store trace response store' ∧
      outcome = client.receive reader (.ok response) := by
  obtain ⟨_, delivered, _, _, rfl, hreached, hend⟩ := Prog.runs_bind.mp h
  obtain ⟨rfl, rfl, rfl⟩ := Prog.runs_pure.mp hend
  obtain ⟨_, response, _, _, rfl, hserve, hend⟩ := Prog.runs_bind.mp hreached
  obtain ⟨rfl, rfl, rfl⟩ := Prog.runs_pure.mp hend
  exact ⟨response, by simpa using hserve, rfl⟩

/-- The request of a trusted client comes to its one call. -/
theorem comes_reached {c : ClientCall} {received : Except PyError PyValue} (htrusted : client.Trusted app)
    (hroute : app.route (c.http client) = .accepted c.request)
    (h : Action.Runs (Answers allowed) (Action.reply (app.reached freshId lease (c.http client) >>= fun outcome =>
      pure (client.receive reader outcome))) store trace received store') :
    ∃ outcome, Comes allowed store (c.request.call? app.registry freshId) outcome store' ∧
      received = client.receive reader (.ok (respond outcome)) := by
  obtain ⟨response, hserve, hreceived⟩ := runs_reached h
  have hauth : authenticate app.bearerToken (c.http client).authorization = .ok () := by
    cases c <;> exact htrusted.authenticated _ _ _
  rw [SwarmApp.serve_accepted hroute hauth] at hserve
  obtain ⟨_, outcome, _, _, -, hrun, hend⟩ := Prog.runs_bind.mp hserve
  obtain ⟨-, rfl, rfl⟩ := Prog.runs_pure.mp hend
  have hhealth : c.request ≠ .healthz := by cases c <;> exact fun heq => by cases heq
  have hview : ∀ workflowId, c.request ≠ .getWorkflow workflowId := by cases c <;> exact fun _ heq => by cases heq
  exact ⟨outcome, comes_run hhealth hview hrun, hreceived⟩

/-- A client of the sample application. -/
def sampleClient : SwarmClient := .init "http://localhost:8080/" (some "token")

/-- A reader that shows the texts of failures only. -/
def sampleReader : BodyReader where
  decode
    | .text s => s
    | .json _ => ""
  loads _ := .error ⟨.value, "Expecting value: line 1 column 1 (char 0)"⟩

/-- The sample application accepts the sample task from its client. -/
theorem sampleRoute_submit : sampleApp.route ((ClientCall.submitTask sampleTask).http sampleClient) =
    .accepted (ClientCall.submitTask sampleTask).request := by
  have hbody : sampleTask.toPy.toJsonable = .dict [("kind", .str "echo"), ("resource_class", .str "v4"),
      ("payload", .dict []), ("task_id", .str "t1"), ("priority", .int 500), ("recovery_priority", .int 900),
      ("idempotency_key", .none), ("metadata", .dict [])] := by
    rw [TaskSpec.toJsonable_toPy]
    rfl
  have hhttp : (ClientCall.submitTask sampleTask).http sampleClient =
      ⟨"POST", "/v1/tasks", sampleClient.bearerToken.map ("Bearer " ++ ·), some sampleTask.toPy.toJsonable⟩ :=
    congrArg (HttpRequest.mk _ _ _) (sampleClient.http_body "POST" "/v1/tasks" sampleTask.toPy)
  rw [hhttp, hbody]
  rfl

end TPUSwarm
