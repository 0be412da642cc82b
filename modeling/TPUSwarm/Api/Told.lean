import TPUSwarm.Api.Serving
import TPUSwarm.Solo.Lasting

/-!
# What clients were told stays true

A response has records as they were when a call of it read or wrote them. The store goes on, but never back: a task
and a workflow that a client was told of are still there, have gone on from where they were then, and are as they
were told if they had ended, but for the checkpoints of a task. A barrier that a client was told of is committed for
good.
-/

namespace TPUSwarm

open Common SwarmStore

/-- A task is as a client was told, or it has gone on from there. -/
def TaskRecord.StillHolds (task : TaskRecord) (store : SwarmStore) : Prop :=
  ∃ row : TaskRow, task = row.toRecord ∧ ∃ row' ∈ store.tasks.rows, row'.taskId = row.taskId ∧
    row.Advances row' ∧ (row.status.isTerminal = true → row'.core = row.core)

/-- A workflow is as a client was told, or it has gone on from there. -/
def WorkflowRecord.StillHolds (workflow : WorkflowRecord) (store : SwarmStore) : Prop :=
  ∃ row : WorkflowRow, workflow = row.toRecord ∧ ∃ row' ∈ store.workflows.rows,
    row'.workflowId = row.workflowId ∧ row.Evolves row'

/-- A barrier is committed as a client was told. -/
def BarrierCommit.StillHolds (commit : BarrierCommit) (store : SwarmStore) : Prop :=
  ∃ row ∈ store.commits.rows, row.workflowId = commit.workflowId ∧ row.barrier = commit.barrier ∧
    row.controllerCheckpointUri = commit.controllerCheckpointUri ∧ row.createdAt = commit.createdAt ∧
      decodeManifest row.manifestJson = .ok commit.components

section Records

variable {store store' : SwarmStore}

/-- The record of a row still holds. -/
theorem TaskRecord.StillHolds.of_row {row : TaskRow} (hrow : row ∈ store.tasks.rows) :
    row.toRecord.StillHolds store :=
  ⟨row, rfl, row, hrow, rfl, .of_core rfl, fun _ => rfl⟩

/-- What holds of a task still holds when the store has gone on. -/
theorem TaskRecord.StillHolds.later {task : TaskRecord} (h : task.StillHolds store)
    (hadvances : store.Advances store') : task.StillHolds store' := by
  obtain ⟨row, rfl, mid, hmid, hid, hnext, hended⟩ := h
  obtain ⟨row', hrow', hid', hnext', hended'⟩ := hadvances.tasks mid hmid
  refine ⟨row, rfl, row', hrow', hid'.trans hid, hnext.trans hnext', fun hterminal => ?_⟩
  have hsame := hended hterminal
  refine (hended' ?_).trans hsame
  rw [TaskRow.column_eq hsame TaskRow.status fun _ => rfl]
  exact hterminal

/-- The record of a workflow still holds. -/
theorem WorkflowRecord.StillHolds.of_row {row : WorkflowRow} (hrow : row ∈ store.workflows.rows) :
    row.toRecord.StillHolds store := ⟨row, rfl, row, hrow, rfl, .refl row⟩

/-- What holds of a workflow still holds when the store has gone on. -/
theorem WorkflowRecord.StillHolds.later {workflow : WorkflowRecord} (h : workflow.StillHolds store)
    (hadvances : store.Advances store') : workflow.StillHolds store' := by
  obtain ⟨row, rfl, mid, hmid, hid, hnext⟩ := h
  obtain ⟨row', hrow', hid', hnext'⟩ := hadvances.workflows mid hmid
  exact ⟨row, rfl, row', hrow', hid'.trans hid, hnext.trans hnext'⟩

/-- A barrier that is committed stays so when the store has gone on. -/
theorem BarrierCommit.StillHolds.later {commit : BarrierCommit} (h : commit.StillHolds store)
    (hadvances : store.Advances store') : commit.StillHolds store' := by
  obtain ⟨row, hrow, hcolumns⟩ := h
  exact ⟨row, hadvances.commits row hrow, hcolumns⟩

/-- A task that is found is there under its id. -/
theorem task?_holds {taskId : String} {row : TaskRow} (h : store.task? taskId = some row) :
    row.toRecord.taskId = taskId ∧ row.toRecord.StillHolds store := by
  obtain ⟨hrow, hid⟩ := task?_eq_some.mp h
  exact ⟨hid, .of_row hrow⟩

/-- A workflow that is found is there under its id. -/
theorem workflow?_holds {workflowId : String} {row : WorkflowRow} (h : store.workflow? workflowId = some row) :
    row.toRecord.workflowId = workflowId ∧ row.toRecord.StillHolds store := by
  obtain ⟨hrow, hid⟩ := workflow?_eq_some.mp h
  exact ⟨hid, .of_row hrow⟩

/-- A task that an insertion returns has the id or the idempotency key that was given, and is in the store. -/
theorem insertTask_holds {spec : TaskSpec} {workflowId componentKey : Option String} {generation : Option ℕ}
    {now : Time} {task : TaskRecord}
    (h : insertTask spec workflowId componentKey generation now store = .ok (task, store')) :
    (task.taskId = spec.taskId ∨ sharesValue spec.idempotencyKey task.idempotencyKey) ∧ task.StillHolds store' := by
  rcases insertTask_cases h with ⟨row, hrow, rfl, rfl⟩ | ⟨-, rfl, hrows, -⟩
  · obtain ⟨hmem, hkey | ⟨-, hid⟩⟩ := standIn?_eq_some.mp hrow
    · exact ⟨Or.inr hkey, .of_row hmem⟩
    · exact ⟨Or.inl hid, .of_row hmem⟩
  · refine ⟨Or.inl rfl, .of_row ?_⟩
    rw [hrows]
    exact List.mem_append_right _ List.mem_cons_self

/-- The latest barrier of a workflow is committed. -/
theorem latestBarrier_holds {workflowId : String} {barrier : Option BarrierCommit}
    (h : latestBarrier workflowId store = .ok barrier) :
    ∀ commit, barrier = some commit → commit.workflowId = workflowId ∧ commit.StillHolds store := by
  rintro commit rfl
  unfold latestBarrier at h
  cases hfound : store.greatestCommit? workflowId with
  | none =>
    rw [hfound] at h
    cases h
  | some row =>
    rw [hfound] at h
    obtain ⟨components, hcomponents, hend⟩ := bind_eq_ok.mp h
    cases hend
    obtain ⟨hrow, hworkflow, -⟩ := greatestCommit?_eq_some hfound
    exact ⟨rfl, row, hrow, hworkflow, rfl, rfl, rfl, hcomponents⟩

end Records

namespace Call

/-- What a call of the API has returned is what it was asked for, and still holds. -/
def Holds : (call : Call) → call.Result → SwarmStore → Prop
  | .submitTask spec, task, store =>
    ((show TaskRecord from task).taskId = spec.taskId ∨
      sharesValue spec.idempotencyKey (show TaskRecord from task).idempotencyKey) ∧
        (show TaskRecord from task).StillHolds store
  | .getTask taskId, task, store | .recordCheckpoint taskId _, task, store =>
    (show TaskRecord from task).taskId = taskId ∧ (show TaskRecord from task).StillHolds store
  | .listTasks status, tasks, store =>
    ∀ task ∈ (show List TaskRecord from tasks), status.all (task.status = ·) = true ∧ task.StillHolds store
  | .getWorkflowComponents _, components, store =>
    ∀ key task, (show Dict String TaskRecord from components).get? key = some task →
      ∃ record : TaskRecord, task = { record with componentKey := some key } ∧ record.StillHolds store
  | .submitWorkflow spec _ _, workflow, store =>
    (show WorkflowRecord from workflow).workflowId = spec.workflowId ∧
      (show WorkflowRecord from workflow).StillHolds store
  | .getWorkflow workflowId, workflow, store =>
    (show WorkflowRecord from workflow).workflowId = workflowId ∧
      (show WorkflowRecord from workflow).StillHolds store
  | .listWorkflows status, workflows, store =>
    ∀ workflow ∈ (show List WorkflowRecord from workflows),
      status.all (workflow.status = ·) = true ∧ workflow.StillHolds store
  | .commitBarrier workflowId barrier uri, commit, store =>
    ((show BarrierCommit from commit).workflowId = workflowId ∧ (show BarrierCommit from commit).barrier = barrier ∧
      (show BarrierCommit from commit).controllerCheckpointUri = uri) ∧
        (show BarrierCommit from commit).StillHolds store
  | .latestBarrier workflowId, barrier, store =>
    ∀ commit, (show Option BarrierCommit from barrier) = some commit →
      commit.workflowId = workflowId ∧ commit.StillHolds store
  | _, _, _ => True

variable {call : Call} {result : call.Result} {store store' : SwarmStore}

/-- What holds of a call still holds when the store has gone on. -/
theorem Holds.later (h : call.Holds result store) (hadvances : store.Advances store') :
    call.Holds result store' := by
  cases call with
  | submitTask | getTask | recordCheckpoint => exact ⟨h.1, TaskRecord.StillHolds.later h.2 hadvances⟩
  | listTasks => exact fun task htask => ⟨(h task htask).1, (h task htask).2.later hadvances⟩
  | getWorkflowComponents =>
    intro key task htask
    obtain ⟨record, htask, hrecord⟩ := h key task htask
    exact ⟨record, htask, hrecord.later hadvances⟩
  | submitWorkflow | getWorkflow => exact ⟨h.1, WorkflowRecord.StillHolds.later h.2 hadvances⟩
  | listWorkflows => exact fun workflow hmem => ⟨(h workflow hmem).1, (h workflow hmem).2.later hadvances⟩
  | commitBarrier => exact ⟨h.1, BarrierCommit.StillHolds.later h.2 hadvances⟩
  | latestBarrier => exact fun commit hcommit => ⟨(h commit hcommit).1, (h commit hcommit).2.later hadvances⟩
  | _ => trivial

/-- What a call returns is how the store is then. -/
theorem holds_of_run {now : Time} (hrun : call.run now store = .ok (result, store')) :
    call.Holds result store' := by
  cases call with
  | submitTask spec => exact insertTask_holds hrun
  | getTask taskId =>
    obtain ⟨hread, rfl⟩ := reading_eq_ok.mp hrun
    obtain ⟨row, hrow, rfl⟩ := Option.map_eq_some_iff.mp (orRaise_eq_ok.mp hread)
    exact task?_holds hrow
  | recordCheckpoint taskId checkpoint =>
    obtain ⟨_, -, hrun⟩ := bind_eq_ok.mp hrun
    obtain ⟨_, -, hrun⟩ := bind_eq_ok.mp hrun
    obtain ⟨_, -, hrun⟩ := bind_eq_ok.mp hrun
    obtain ⟨row, hrow, hend⟩ := bind_eq_ok.mp hrun
    cases hend
    exact task?_holds (orRaise_eq_ok.mp hrow)
  | listTasks status =>
    obtain ⟨hread, rfl⟩ := (reading_eq_ok (f := fun store => .ok (store.listTasks status))).mp hrun
    obtain rfl := Except.ok.inj hread
    intro task htask
    obtain ⟨row, hrow, rfl⟩ := List.mem_map.mp htask
    obtain ⟨hmem, hstatus⟩ := List.mem_filter.mp ((List.perm_insertionSort _ _).mem_iff.mp hrow)
    exact ⟨hstatus, .of_row hmem⟩
  | getWorkflowComponents workflowId =>
    obtain ⟨hread, rfl⟩ := (reading_eq_ok (f := fun store => .ok (store.getWorkflowComponents workflowId))).mp hrun
    obtain rfl := Except.ok.inj hread
    intro key task htask
    obtain ⟨link, row, hjoin, -, rfl⟩ := getWorkflowComponents_get?.mp htask
    exact ⟨row.toRecord, rfl, .of_row (task?_eq_some.mp (mem_joinComponents.mp hjoin).2.2).1⟩
  | submitWorkflow spec components initialState =>
    obtain ⟨_, -, hrun⟩ := bind_eq_ok.mp hrun
    obtain ⟨_, -, hrun⟩ := bind_eq_ok.mp hrun
    obtain ⟨row, hrow, hend⟩ := bind_eq_ok.mp hrun
    cases hend
    exact workflow?_holds (orRaise_eq_ok.mp hrow)
  | getWorkflow workflowId =>
    obtain ⟨hread, rfl⟩ := reading_eq_ok.mp hrun
    obtain ⟨row, hrow, rfl⟩ := Option.map_eq_some_iff.mp (orRaise_eq_ok.mp hread)
    exact workflow?_holds hrow
  | listWorkflows status =>
    obtain ⟨hread, rfl⟩ := (reading_eq_ok (f := fun store => .ok (store.listWorkflows status))).mp hrun
    obtain rfl := Except.ok.inj hread
    intro workflow hworkflow
    obtain ⟨row, hrow, rfl⟩ := List.mem_map.mp hworkflow
    obtain ⟨hmem, hstatus⟩ := List.mem_filter.mp ((List.perm_insertionSort _ _).mem_iff.mp hrow)
    exact ⟨hstatus, .of_row hmem⟩
  | commitBarrier workflowId barrier uri =>
    obtain ⟨hworkflow, hbarrier, huri, -, hrow⟩ := commitBarrier_leaves hrun
    exact ⟨⟨hworkflow, hbarrier, huri⟩, _, hrow, hworkflow.symm, hbarrier.symm, huri.symm, rfl,
      decodeManifest_encodeManifest _⟩
  | latestBarrier workflowId =>
    obtain ⟨hread, rfl⟩ := reading_eq_ok.mp hrun
    exact latestBarrier_holds hread
  | _ => trivial

end Call

section Responses

variable {D : Deployment} {app : SwarmApp} {arrives : HttpRequest → Prop}

/-- A request has made a call since it arrived, and the call has returned. -/
def Returned (q : ℕ × HttpRequest) (arrival : (D.served app arrives).State) (call : Call) (result : call.Result)
    (s : (D.served app arrives).State) : Prop :=
  ∃ before after, (D.served app arrives).Run arrival before ∧
    (D.served app arrives).Performs q (.store call none) (Except.ok result) before after ∧
      (D.served app arrives).Run after s

/-- A request was told the result of a call that it has made since it arrived, and the result still holds. -/
def Told (q : ℕ × HttpRequest) (arrival : (D.served app arrives).State) (call : Call) (result : call.Result)
    (s : (D.served app arrives).State) : Prop :=
  Returned q arrival call result s ∧ call.Holds result s.back.world.store

/-- What a response says is FastAPI's own or what the request was told, and still holds. -/
inductive Accurate (q : ℕ × HttpRequest) (arrival s : (D.served app arrives).State) : Response → Prop
  /-- It says that the request has failed. -/
  | failed {response} (hstatus : 300 ≤ response.statusCode) : Accurate q arrival s response
  /-- It is FastAPI's own and not about the store. -/
  | own {response} (hroute : app.route q.2 = .own response) : Accurate q arrival s response
  /-- It is about the application and not about the store. -/
  | health {lease : Option ControllerLease} (hroute : app.route q.2 = .accepted .healthz) :
      Accurate q arrival s ⟨200, .json (.dict [("ok", .bool true), ("controller_id", .str app.controllerId),
        ("is_leader", .bool lease.isSome)])⟩
  /-- It has the result of the call that the request stands for. -/
  | called {request freshId call result} (hroute : app.route q.2 = .accepted request)
      (hcall : request.call? app.registry freshId = some call) (htold : Told q arrival call result s) :
      Accurate q arrival s ⟨200, .json (call.wire result)⟩
  /-- It is the view of a workflow. -/
  | viewed {workflowId workflow components barrier} (hroute : app.route q.2 = .accepted (.getWorkflow workflowId))
      (hworkflow : Told q arrival (.getWorkflow workflowId) workflow s)
      (hcomponents : Told q arrival (.getWorkflowComponents workflowId) components s)
      (hbarrier : Told q arrival (.latestBarrier workflowId) barrier s) :
      Accurate q arrival s ⟨200, .json (.dict [("workflow", Call.wire (.getWorkflow workflowId) workflow),
        ("components", Call.wire (.getWorkflowComponents workflowId) components),
        ("latest_barrier", Call.wire (.latestBarrier workflowId) barrier)])⟩

/-- A request that is served in the midst of everything that goes on. -/
abbrev telling (D : Deployment) (app : SwarmApp) (arrives : HttpRequest → Prop)
    (q : ℕ × HttpRequest) :=
  (D.served app arrives).meanwhile (D.servedInitial app arrives) q

variable {q : ℕ × HttpRequest} {arrival s s' m : (D.served app arrives).State}

/-- The store goes on with every step of the served application. -/
theorem advances_of_moves (h : (D.served app arrives).Moves (D.servedInitial app arrives) s s') :
    s.back.world.store.Advances s'.back.world.store :=
  Deployment.advances (Deployment.served_run .refl h.1) (Deployment.served_run h.1 (.single h.2))

/-- What a request was told stays so. -/
theorem Told.later {call : Call} {result : call.Result} (h : Told q arrival call result s)
    (hmoves : (D.served app arrives).Moves (D.servedInitial app arrives) s s') :
    Told q arrival call result s' := by
  obtain ⟨⟨before, after, hbefore, hperforms, hafter⟩, hholds⟩ := h
  exact ⟨⟨before, after, hbefore, hperforms, hafter.tail hmoves.2⟩, hholds.later (advances_of_moves hmoves)⟩

/-- A request that was told something has arrived. -/
theorem Told.run {call : Call} {result : call.Result} (h : Told q arrival call result s) :
    (D.served app arrives).Run arrival s := by
  obtain ⟨⟨before, after, hbefore, hperforms, hafter⟩, -⟩ := h
  exact (hbefore.tail hperforms.step).trans hafter

/-- A response that is accurate stays so. -/
theorem Accurate.later {response : Response} (h : Accurate q arrival s response)
    (hmoves : (D.served app arrives).Moves (D.servedInitial app arrives) s s') :
    Accurate q arrival s' response := by
  cases h with
  | failed hstatus => exact .failed hstatus
  | own hroute => exact .own hroute
  | health hroute => exact .health hroute
  | called hroute hcall htold => exact .called hroute hcall (htold.later hmoves)
  | viewed hroute hworkflow hcomponents hbarrier =>
    exact .viewed hroute (hworkflow.later hmoves) (hcomponents.later hmoves) (hbarrier.later hmoves)

/-- Leaving an endpoint so is a failure. -/
def Failing (raised : Raised) (_ : (D.served app arrives).State) : Prop :=
  300 ≤ (respond (.error raised)).statusCode

/-- A value of an endpoint that a request was told. -/
def Says (q : ℕ × HttpRequest) (arrival : (D.served app arrives).State) (call? : Option Call) (value : PyValue)
    (s : (D.served app arrives).State) : Prop :=
  ∃ call result, call? = some call ∧ value = call.wire result ∧ Told q arrival call result s

/-- An endpoint that raises for a reason of the request leaves as a failure. -/
theorem failing_leave {leave : PyError → Raised} {e : PyError}
    (hleave : leave e = unprocessable e ∨ leave e = .error e) (s : (D.served app arrives).State) :
    Failing (leave e) s :=
  unprocessable_status e _ (hleave.imp (congrArg Except.error) (congrArg Except.error))

/-- A failure stays one. -/
theorem failing_stable (raised : Raised) : (telling D app arrives q).Stable (Failing raised) := fun _ _ _ h => h

/-- What a request was told stays so. -/
theorem told_stable (call : Call) (result : call.Result) :
    (telling D app arrives q).Stable (Told q arrival call result) := fun _ _ hmoves h => h.later hmoves

/-- What an endpoint says stays so. -/
theorem says_stable (call? : Option Call) (value : PyValue) :
    (telling D app arrives q).Stable (Says q arrival call? value) := by
  rintro s s' hmoves ⟨call, result, hcall, rfl, htold⟩
  exact ⟨call, result, hcall, rfl, htold.later hmoves⟩

/-- An accurate response stays so. -/
theorem accurate_stable (response : Response) :
    (telling D app arrives q).Stable fun s => Accurate q arrival s response :=
  fun _ _ hmoves h => h.later hmoves

/-- A call of a request that has returned a result was a run of the call at some time. -/
theorem ran_of_executes {call : Call} {result : call.Result} {site site' : Site}
    (h : D.Executes (.store call none) site (Except.ok result) site') :
    ∃ clock, call.run clock site.store = .ok (result, site'.store) := by
  cases h with
  | @store _ _ _ clock _ _ hadmits hperform =>
    rcases Call.perform_cases hperform with ⟨e, herror, -⟩ | ⟨result, hresult, hrun⟩
    · cases herror
    · cases hresult
      exact ⟨clock, hrun⟩

/-- A call of a request returns what holds, however everything else goes on. -/
theorem callStore_told (hm : (D.served app arrives).Run arrival m) (call : Call) :
    (callStore call none).Follows (telling D app arrives q) (Told q arrival call) (fun _ _ => True) m := by
  have harrived : (telling D app arrives q).Stable ((D.served app arrives).Run arrival) :=
    fun _ _ hmoves hrun => hrun.tail hmoves.2
  refine Prog.Follows.issue harrived (fun reply => ?_) (fun s _ hrun => ⟨trivial, fun reply s' hexec => ?_⟩) hm
  · cases reply with
    | error _ => exact fun _ _ _ h => h
    | ok result => exact told_stable call result
  · obtain ⟨hbefore, hperforms⟩ := hexec
    refine ⟨s', .single ⟨hbefore, hperforms.step⟩, rfl, ?_⟩
    cases reply with
    | error _ => trivial
    | ok result =>
      refine ⟨⟨s, s', hrun, hperforms, .refl⟩, ?_⟩
      obtain ⟨clock, hran⟩ := ran_of_executes hperforms.exec
      exact Call.holds_of_run hran

/-- What raises in an endpoint leaves it as a failure. -/
theorem raising_told {α : Type} {leave : PyError → Raised} {p : Effect α}
    {Q : α → (D.served app arrives).State → Prop}
    (hleave : ∀ e, leave e = unprocessable e ∨ leave e = .error e)
    (hstable : ∀ a, (telling D app arrives q).Stable (Q a))
    (h : p.Follows (telling D app arrives q) Q (fun _ _ => True) m) :
    (raising leave p).Follows (telling D app arrives q) Q Failing m := by
  refine Prog.Follows.bind h fun outcome s _ houtcome => ?_
  cases outcome with
  | error e => exact Prog.Follows.pure (Q := Action.post Q Failing) (failing_stable _) (failing_leave (hleave e) s)
  | ok a => exact Prog.Follows.pure (Q := Action.post Q Failing) (hstable a) houtcome

/-- A check in front of an endpoint is a failure, or the endpoint goes on. -/
theorem check_told {α : Type} {r : Except PyError α} {leave : PyError → Raised} {f : α → Endpoint PyValue}
    {next : α → Option Call} (hleave : ∀ e, leave e = unprocessable e ∨ leave e = .error e)
    (hnext : ∀ a, r = .ok a → (f a).Follows (telling D app arrives q) (Says q arrival (next a)) Failing m) :
    (Action.ofExcept (r.mapError leave) >>= f).Follows (telling D app arrives q)
      (Says q arrival (r.toOption.bind next)) Failing m := by
  cases r with
  | error e => exact Prog.Follows.pure (Q := Action.post _ Failing) (failing_stable _) (failing_leave (hleave e) m)
  | ok a => exact hnext a rfl

/-- An endpoint of one call. -/
theorem answer_told (hm : (D.served app arrives).Run arrival m) (call : Call) :
    (ApiRequest.answer call).Follows (telling D app arrives q) (Says q arrival (some call)) Failing m := by
  have hcall : (raising .error (callStore call none)).Follows (telling D app arrives q) (Told q arrival call)
      Failing m :=
    raising_told (fun _ => Or.inr rfl) (told_stable call) (callStore_told hm call)
  refine Action.Follows.bind failing_stable hcall fun result s _ htold => ?_
  exact Action.Follows.pure (says_stable _ _) ⟨call, result, rfl, rfl, htold⟩

/-- Submitting a workflow makes the call that its handler asks for. -/
theorem submit_told (hm : (D.served app arrives).Run arrival m) (engine : WorkflowEngine) (spec : WorkflowSpec) :
    (engine.submit spec).Follows (telling D app arrives q)
      (fun workflow => Says q arrival (engine.submission spec).toOption workflow.toPy.toJsonable)
      (fun _ _ => True) m := by
  have hstable : ∀ _ : PyError, (telling D app arrives q).Stable fun _ => True := fun _ _ _ _ h => h
  unfold WorkflowEngine.submit
  refine Action.Follows.ofExcept_bind hstable (fun _ _ => trivial) fun handler hhandler => ?_
  refine Action.Follows.ofExcept_bind hstable (fun _ _ => trivial) fun payload hpayload => ?_
  dsimp only
  refine Action.Follows.ofExcept_bind hstable (fun _ _ => trivial) fun state hstate => ?_
  refine Action.Follows.ofExcept_bind hstable (fun _ _ => trivial) fun desired hdesired => ?_
  refine Action.Follows.ofExcept_bind hstable (fun _ _ => trivial) fun components hcomponents => ?_
  refine Action.Follows.mono (callStore_told hm _) (fun workflow s _ htold => ?_) fun _ _ _ h => h
  have hcall :
      engine.submission spec = .ok (.submitWorkflow { spec with payload := payload } components state) := by
    unfold WorkflowEngine.submission
    exact bind_eq_ok.mpr ⟨handler, hhandler, bind_eq_ok.mpr ⟨payload, hpayload, bind_eq_ok.mpr ⟨state, hstate,
      bind_eq_ok.mpr ⟨desired, hdesired, bind_eq_ok.mpr ⟨components, hcomponents, rfl⟩⟩⟩⟩⟩
  exact ⟨.submitWorkflow { spec with payload := payload } components state, workflow,
    congrArg Except.toOption hcall, rfl, htold⟩

/-- Every endpoint but two says what its one call has returned. -/
theorem run_told (hm : (D.served app arrives).Run arrival m) {registry : TaskRegistry}
    {controllerId freshId : String}
    {lease : Option ControllerLease} {request : ApiRequest} (hhealth : request ≠ .healthz)
    (hview : ∀ workflowId, request ≠ .getWorkflow workflowId) :
    (request.run registry controllerId freshId lease).Follows (telling D app arrives q)
      (Says q arrival (request.call? registry freshId)) Failing m := by
  cases request with
  | healthz => exact absurd rfl hhealth
  | getWorkflow workflowId => exact absurd rfl (hview workflowId)
  | getTask | listTasks | listWorkflows | checkpoint | commitBarrier => exact answer_told hm _
  | submitTask request =>
    refine check_told (fun _ => Or.inl rfl) fun payload _ => ?_
    exact check_told (fun _ => Or.inr rfl) fun spec _ => answer_told hm _
  | setResourcePolicy resourceClass request =>
    exact check_told (fun _ => Or.inr rfl) fun policy _ => answer_told hm _
  | submitWorkflow request =>
    refine check_told (fun _ => Or.inl rfl) fun spec _ => ?_
    refine Action.Follows.bind failing_stable (raising_told (fun _ => Or.inl rfl) (fun _ => says_stable _ _)
      (submit_told hm _ spec)) fun workflow s _ hsays => ?_
    exact Action.Follows.pure (says_stable _ _) hsays

/-- A read in front of an endpoint. What was told before still holds when the endpoint goes on. -/
theorem read_told (hm : (D.served app arrives).Run arrival m) {call : Call} {f : PyValue → Endpoint PyValue}
    {Q : PyValue → (D.served app arrives).State → Prop} {fact : (D.served app arrives).State → Prop}
    (hfact : (telling D app arrives q).Stable fact) (hbefore : fact m)
    (hnext : ∀ result s, Told q arrival call result s → fact s →
      (f (call.wire result)).Follows (telling D app arrives q) Q Failing s) :
    (ApiRequest.answer call >>= f).Follows (telling D app arrives q) Q Failing m := by
  refine Action.Follows.bind failing_stable (Action.Follows.frame hfact hfact (answer_told hm call) hbefore)
    fun value s _ hsays => ?_
  obtain ⟨⟨_, result, hcall, rfl, htold⟩, hkept⟩ := hsays
  obtain rfl := Option.some.inj hcall
  exact hnext result s htold hkept

/-- The view of a workflow has what three reads have returned. -/
theorem view_told (hm : (D.served app arrives).Run arrival m) {workflowId : String}
    (hroute : app.route q.2 = .accepted (.getWorkflow workflowId)) :
    (ApiRequest.runGetWorkflow workflowId).Follows (telling D app arrives q)
      (fun value s => Accurate q arrival s ⟨200, .json value⟩) Failing m := by
  have htrue : (telling D app arrives q).Stable fun _ => True := fun _ _ _ h => h
  refine read_told hm htrue trivial fun workflow first hworkflow _ => ?_
  refine read_told hworkflow.run (told_stable _ workflow) hworkflow fun components second hcomponents
    hworkflow => ?_
  have hboth : (telling D app arrives q).Stable fun s => Told q arrival (.getWorkflow workflowId) workflow s ∧
      Told q arrival (.getWorkflowComponents workflowId) components s :=
    fun _ _ hmoves h => ⟨h.1.later hmoves, h.2.later hmoves⟩
  refine read_told hcomponents.run hboth ⟨hworkflow, hcomponents⟩ fun barrier third hbarrier hread => ?_
  exact Action.Follows.pure (accurate_stable _) (.viewed hroute hread.1 hread.2 hbarrier)

/-- A request is answered with what holds, however everything else goes on. -/
theorem serve_told (hm : (D.served app arrives).Run arrival m) (freshId : String) (lease : Option ControllerLease) :
    (app.serve freshId lease q.2).Follows (telling D app arrives q)
      (fun response s => Accurate q arrival s response) m := by
  have hanswer : ∀ response, Accurate q arrival m response →
      (pure response : Prog Operation Operation.Reply Response).Follows (telling D app arrives q)
        (fun response s => Accurate q arrival s response) m :=
    fun response h => Prog.Follows.pure (accurate_stable response) h
  cases hauth : authenticate app.bearerToken q.2.authorization with
  | error raised =>
    obtain ⟨response, heq, hfailed | hown | ⟨hhealth, rfl⟩⟩ :=
      app.serve_locked freshId lease q.2 (by rw [hauth]; exact nofun)
    · rw [heq]
      exact hanswer _ (.failed hfailed)
    · rw [heq]
      exact hanswer _ (.own hown)
    · rw [heq]
      exact hanswer _ (.health hhealth)
  | ok _ =>
    cases hroute : app.route q.2 with
    | own response =>
      rw [SwarmApp.serve, hroute]
      exact hanswer _ (.own hroute)
    | invalid detail =>
      rw [SwarmApp.serve, hroute, hauth]
      exact hanswer _ (.failed (Response.detail_status (by decide) _))
    | accepted request =>
      by_cases hhealth : request = .healthz
      · subst hhealth
        rw [SwarmApp.serve_health hroute]
        exact hanswer _ (.health hroute)
      have hrun : (request.run app.registry app.controllerId freshId lease).Follows (telling D app arrives q)
          (fun value s => Accurate q arrival s ⟨200, .json value⟩) Failing m := by
        by_cases hview : ∃ workflowId, request = .getWorkflow workflowId
        · obtain ⟨workflowId, rfl⟩ := hview
          exact view_told hm hroute
        · refine Action.Follows.mono (run_told hm hhealth (not_exists.mp hview)) ?_ fun _ _ _ h => h
          rintro value s - ⟨call, result, hcall, rfl, htold⟩
          exact .called hroute hcall htold
      rw [SwarmApp.serve_accepted hroute hauth]
      refine Prog.Follows.bind hrun fun outcome s _ houtcome => ?_
      cases outcome with
      | error raised => exact Prog.Follows.pure (accurate_stable _) (.failed houtcome)
      | ok value =>
        rw [respond]
        split
        · exact Prog.Follows.pure (accurate_stable _) houtcome
        · exact Prog.Follows.pure (accurate_stable _) (.failed (by decide))

end Responses

namespace Deployment

variable {D : Deployment} {app : SwarmApp} {arrives : HttpRequest → Prop}

end Deployment

end TPUSwarm
