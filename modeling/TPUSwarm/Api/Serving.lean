import TPUSwarm.Api.Atomic
import TPUSwarm.Api.Authentication
import TPUSwarm.Common.Frontend

/-!
# The API in front of the controller

Clients send any requests to the application, which serves them beside its controller. Every request runs operation
by operation between those of the controller and of other requests, and may be abandoned anywhere.
-/

namespace TPUSwarm

open Common

/-- The operation is a call of the API. -/
def Operation.isApi : Operation → Bool
  | .store call _ => call.isApi
  | _ => false

namespace ApiRequest

variable {registry : TaskRegistry} {controllerId freshId : String} {lease : Option ControllerLease}

/-- What raises in an endpoint uses what it uses. -/
theorem uses_raising {α : Type} {leave : PyError → Raised} {p : Effect α} (h : p.Uses (·.isApi = true)) :
    (raising leave p).Uses (·.isApi = true) :=
  Prog.Uses.bind h fun _ => trivial

/-- An endpoint of one call of the API makes this call only. -/
theorem uses_answer {call : Call} (hcall : call.isApi = true) : (answer call).Uses (·.isApi = true) := by
  have hissue : (callStore call none).Uses (·.isApi = true) := Prog.Uses.issue hcall
  exact Action.Uses.bind (uses_raising hissue) fun _ => Action.Uses.pure _

/-- Submitting a workflow makes one call of the API at most. -/
theorem uses_submit (engine : WorkflowEngine) (spec : WorkflowSpec) :
    (engine.submit spec).Uses (·.isApi = true) := by
  unfold WorkflowEngine.submit
  refine Action.Uses.bind (Action.Uses.ofExcept _) fun handler => ?_
  refine Action.Uses.bind (Action.Uses.ofExcept _) fun payload => ?_
  dsimp only
  refine Action.Uses.bind (Action.Uses.ofExcept _) fun state => ?_
  refine Action.Uses.bind (Action.Uses.ofExcept _) fun desired => ?_
  refine Action.Uses.bind (Action.Uses.ofExcept _) fun components => ?_
  have hissue : (callStore (.submitWorkflow { spec with payload := payload } components state) none).Uses
      (·.isApi = true) := Prog.Uses.issue rfl
  exact hissue

/-- An endpoint makes calls of the API only. -/
theorem uses_run (request : ApiRequest) :
    (request.run registry controllerId freshId lease).Uses (·.isApi = true) := by
  cases request with
  | healthz => exact Action.Uses.pure _
  | getTask | listTasks | listWorkflows | checkpoint | commitBarrier => exact uses_answer rfl
  | submitTask request =>
    refine Action.Uses.bind (Action.Uses.ofExcept _) fun payload => ?_
    exact Action.Uses.bind (Action.Uses.ofExcept _) fun spec => uses_answer rfl
  | setResourcePolicy resourceClass request =>
    exact Action.Uses.bind (Action.Uses.ofExcept _) fun policy => uses_answer rfl
  | submitWorkflow request =>
    refine Action.Uses.bind (Action.Uses.ofExcept _) fun spec => ?_
    exact Action.Uses.bind (uses_raising (uses_submit _ spec)) fun workflow => Action.Uses.pure _
  | getWorkflow workflowId =>
    refine Action.Uses.bind (uses_answer rfl) fun workflow => ?_
    refine Action.Uses.bind (uses_answer rfl) fun components => ?_
    exact Action.Uses.bind (uses_answer rfl) fun barrier => Action.Uses.pure _

end ApiRequest

namespace SwarmApp

variable (app : SwarmApp) (freshId : String) (lease : Option ControllerLease) (http : HttpRequest)

/-- A program that responds with what an endpoint leaves. -/
theorem uses_respond (request : ApiRequest) :
    (do return respond (← (request.run app.registry app.controllerId freshId lease).run) :
      Prog Operation Operation.Reply Response).Uses (·.isApi = true) :=
  Prog.Uses.bind (ApiRequest.uses_run request) fun _ => trivial

/-- A request makes calls of the API only. -/
theorem uses_serve : (app.serve freshId lease http).Uses (·.isApi = true) := by
  unfold serve
  split
  · trivial
  · exact app.uses_respond freshId lease .healthz
  · split
    · trivial
    · split
      · trivial
      · trivial
      · exact app.uses_respond freshId lease _

/-- A request that is not authenticated does nothing. It fails, FastAPI answers it itself, or it is for the health
of the application. -/
theorem serve_locked (hlocked : authenticate app.bearerToken http.authorization ≠ .ok ()) :
    ∃ response, app.serve freshId lease http = .pure response ∧ (300 ≤ response.statusCode ∨
      app.route http = .own response ∨ app.route http = .accepted .healthz ∧
        response = ⟨200, .json (.dict [("ok", .bool true), ("controller_id", .str app.controllerId),
          ("is_leader", .bool lease.isSome)])⟩) := by
  cases hauth : authenticate app.bearerToken http.authorization with
  | ok _ => exact absurd hauth hlocked
  | error raised =>
    by_cases hhealth : app.route http = .accepted .healthz
    · exact ⟨_, serve_health hhealth, Or.inr (Or.inr ⟨hhealth, rfl⟩)⟩
    rcases serve_unauthenticated hauth hhealth with heq | ⟨own, hown, heq⟩
    · exact ⟨_, heq, Or.inl (authenticate_status hauth)⟩
    · exact ⟨_, heq, Or.inr (Or.inl hown)⟩

end SwarmApp

namespace Deployment

variable (D : Deployment)

/-- The controller and the backend, without the API. -/
def isolated : Pool Unit Site CycleOutcome Operation Operation.Reply := { D.system with env := fun _ _ => False }

/-- The application beside its controller, where the requests that may arrive are given. Task ids that a request
leaves open, and what the controller's lease is at the moment, may be anything. -/
def served (app : SwarmApp) (arrives : HttpRequest → Prop) : Frontend D.isolated HttpRequest Response where
  serves _ http program := arrives http ∧ ∃ freshId lease, program = app.serve freshId lease http
  exec := D.Executes

/-- Nothing has happened, and no request has arrived. -/
def servedInitial (app : SwarmApp) (arrives : HttpRequest → Prop) : (D.served app arrives).State :=
  ⟨⟨Site.initial, fun _ => .pure notRun⟩, 0, [], []⟩

variable {D} {app : SwarmApp} {arrives : HttpRequest → Prop}

/-- The effect of an operation of the API is a call of the API. -/
theorem apiCall_of_executes {op : Operation} (hop : op.isApi = true) {site site' : Site} {reply : op.Reply}
    (h : D.Executes op site reply site') : ApiCall site site' := by
  cases h with
  | @store _ call now clock outcome store' hadmits hperform =>
    exact ⟨call, now.getD clock, hop, by rw [hperform]⟩
  | listJobs hlists | listFails | launch hlaunches => cases hop

/-- What goes on from a state that the served application reaches goes on in the system where the API makes single
calls. -/
theorem served_run {s s' : (D.served app arrives).State}
    (h : (D.served app arrives).Run (D.servedInitial app arrives) s) (hrun : (D.served app arrives).Run s s') :
    D.system.Run ⟨s.back.world, s.back.progs⟩ ⟨s'.back.world, s'.back.progs⟩ := by
  have hserves : ∀ b q p, (D.served app arrives).serves b q p → p.Uses (·.isApi = true) := by
    rintro _ http _ ⟨-, freshId, lease, rfl⟩
    exact app.uses_serve freshId lease http
  have hstart : (D.servedInitial app arrives).All fun _ p => p.Uses (·.isApi = true) := by
    constructor <;> exact fun _ hentry => absurd hentry List.not_mem_nil
  exact Frontend.run_refines (E := ApiCall) (fun _ _ h => False.elim h) hserves
    (fun op _ _ _ hop => apiCall_of_executes hop) hrun
    (Frontend.run_keeps hserves (fun _ _ _ r huses => huses.2 r) h hstart)

/-- However many requests are served beside the controller, and however they interleave, the controller and the
store are in a state of the system where the API makes single calls. -/
theorem served_refines {s : (D.served app arrives).State}
    (h : (D.served app arrives).Run (D.servedInitial app arrives) s) :
    D.Reachable ⟨s.back.world, s.back.progs⟩ :=
  served_run .refl h

/-- One operation of a request at a given time. -/
def answerApi : (op : Operation) → Time → Site → Option (op.Reply × Site)
  | .store call now, clock, site =>
    if call.isAdmission then none
    else
      let performed := call.perform (now.getD clock) site.store
      some (performed.1, { site with store := performed.2 })
  | _, _, _ => none

/-- A request may be served alone, at any times. -/
theorem run_alone {freshId : String} {lease : Option ControllerLease} {http : HttpRequest} (harrives : arrives http)
    {times : List Time} {trace : List (Sigma Operation.Reply)} {response : Response} {site : Site}
    (h : Prog.follow answerApi times (app.serve freshId lease http) Site.initial = some (trace, response, site)) :
    (D.served app arrives).Run (D.servedInitial app arrives)
      ⟨⟨site, fun _ => .pure notRun⟩, 1, [], [((0, http), response)]⟩ := by
  have hchoose : ∀ op clock site reply site', answerApi op clock site = some (reply, site') →
      D.Executes op site reply site' := by
    intro op clock site reply site' hanswer
    cases op with
    | store call now =>
      obtain ⟨hcall, heq⟩ := Option.ite_none_left_eq_some.mp hanswer
      cases heq
      exact .store (fun hadmission => absurd hadmission hcall) (rfl : call.perform (now.getD clock) site.store = _)
    | listJobs | launch => cases hanswer
  exact .head (.arrive ⟨harrives, freshId, lease, rfl⟩) (Frontend.run_answer (Prog.runs_of_follow hchoose h))

/-- A request that submits the sample task. -/
def samplePost : HttpRequest where
  method := "POST"
  path := "/v1/tasks"
  authorization := some "bearer token"
  body := some (.dict [("kind", .str "echo"), ("resource_class", .str "v4"), ("task_id", .str "t1")])

/-- The sample task is submitted by a request, and the store that has it is reachable. -/
theorem served_refines_post : ∃ (D : Deployment) (s : (D.served sampleApp (· = samplePost)).State),
    (s.back.world.store.tasks.rows.map TaskRow.taskId = ["t1"] ∧ s.answers.map (·.2.statusCode) = [200]) ∧
      D.Reachable ⟨s.back.world, s.back.progs⟩ := by
  have hplay : ((Prog.follow answerApi [1] (sampleApp.serve "t2" none samplePost) Site.initial).any
      fun (_, response, site) => response.statusCode = 200 ∧ site.store.tasks.rows.map TaskRow.taskId = ["t1"]) =
        true := by
    decide +kernel
  obtain ⟨⟨trace, response, site⟩, hplay, hchecks⟩ := (Option.any_eq_true _ _).mp hplay
  obtain ⟨hstatus, htasks⟩ := of_decide_eq_true hchecks
  have hrun : ((anyBackend sampleController).served sampleApp (· = samplePost)).Run (servedInitial _ _ _)
      ⟨⟨site, fun _ => .pure notRun⟩, 1, [], [((0, samplePost), response)]⟩ :=
    run_alone (by rfl) hplay
  exact ⟨anyBackend sampleController, _, ⟨htasks, by rw [List.map_singleton, hstatus]⟩, served_refines hrun⟩

/-- Where no request presents the token, the controller runs as if there was no API, and every request has failed,
was answered by FastAPI itself or was for the health of the application. -/
theorem locked_out {token : String} (htoken : app.bearerToken = some token)
    (hlocked : ∀ http, arrives http → ¬ Presents token http.authorization) {s : (D.served app arrives).State}
    (h : (D.served app arrives).Run (D.servedInitial app arrives) s) :
    D.isolated.Run ⟨Site.initial, fun _ => .pure notRun⟩ s.back ∧ ∀ answer ∈ s.answers,
      300 ≤ answer.2.statusCode ∨ app.route answer.1.2 = .own answer.2 ∨
        app.route answer.1.2 = .accepted .healthz ∧ ∃ lease : Option ControllerLease, answer.2 =
          ⟨200, .json (.dict [("ok", .bool true), ("controller_id", .str app.controllerId),
            ("is_leader", .bool lease.isSome)])⟩ := by
  -- A request that is not authenticated is answered at once.
  let K (http : HttpRequest) (p : Prog Operation Operation.Reply Response) : Prop :=
    ∃ response, p = .pure response ∧ (300 ≤ response.statusCode ∨ app.route http = .own response ∨
      app.route http = .accepted .healthz ∧ ∃ lease : Option ControllerLease, response =
        ⟨200, .json (.dict [("ok", .bool true), ("controller_id", .str app.controllerId),
          ("is_leader", .bool lease.isSome)])⟩)
  have hserves : ∀ b q p, (D.served app arrives).serves b q p → K q p := by
    rintro _ http _ ⟨harrives, freshId, lease, rfl⟩
    have hrefused : authenticate app.bearerToken http.authorization ≠ .ok () := by
      rw [htoken]
      exact fun hauth => hlocked http harrives (authenticate_eq_ok.mp hauth).2
    obtain ⟨response, hresponse, hanswer⟩ := app.serve_locked freshId lease http hrefused
    exact ⟨response, hresponse, hanswer.imp_right (Or.imp_right fun h => ⟨h.1, lease, h.2⟩)⟩
  have hnext : ∀ http op next reply, K http (.op op next) → K http (next reply) := by
    rintro http op next reply ⟨response, hresponse, -⟩
    cases hresponse
  have hstart : (D.servedInitial app arrives).All K := by
    constructor <;> exact fun _ hentry => absurd hentry List.not_mem_nil
  have huses : ∀ http p, K http p → p.Uses fun _ => False := by
    rintro http p ⟨response, rfl, -⟩
    trivial
  refine ⟨Frontend.run_refines (E := fun _ _ => False) (fun _ _ h => h)
    (fun b q p hp => huses q p (hserves b q p hp))
    (fun _ _ _ _ hop _ => hop) h ⟨fun _ hentry => absurd hentry List.not_mem_nil,
      fun _ hentry => absurd hentry List.not_mem_nil⟩, fun answer hanswer => ?_⟩
  obtain ⟨response, hresponse, hstatus⟩ := (Frontend.run_keeps hserves hnext h hstart).2 answer hanswer
  cases hresponse
  exact hstatus

/-- The request for the sample task with another token. -/
def sampleStranger : HttpRequest := { sampleGet with authorization := some "Bearer other" }

/-- A stranger asks for the sample task and is refused. -/
theorem locked_out_stranger : ∃ (s : ((anyBackend sampleController).served sampleApp (· = sampleStranger)).State),
    s.answers.map (·.2.statusCode) = [401] ∧
      (anyBackend sampleController).isolated.Run ⟨Site.initial, fun _ => .pure notRun⟩ s.back := by
  have hplay : ((Prog.follow answerApi [] (sampleApp.serve "t2" none sampleStranger) Site.initial).any
      fun (_, response, _) => response.statusCode = 401) = true := by decide +kernel
  obtain ⟨⟨trace, response, site⟩, hplay, hstatus⟩ := (Option.any_eq_true _ _).mp hplay
  have hrefused : authenticate (some "token") sampleStranger.authorization ≠ .ok () := by decide +kernel
  have hstranger : ∀ http, http = sampleStranger → ¬ Presents "token" http.authorization := by
    rintro http rfl hpresents
    exact hrefused (authenticate_eq_ok.mpr ⟨by decide +kernel, hpresents⟩)
  have hrun : ((anyBackend sampleController).served sampleApp (· = sampleStranger)).Run (servedInitial _ _ _)
      ⟨⟨site, fun _ => .pure notRun⟩, 1, [], [((0, sampleStranger), response)]⟩ :=
    run_alone (by rfl) hplay
  exact ⟨_, by rw [List.map_singleton, of_decide_eq_true hstatus], (locked_out rfl hstranger hrun).1⟩

end Deployment

end TPUSwarm
