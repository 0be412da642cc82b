import TPUSwarm.Solo.Runs
import TPUSwarm.Solo.Workflows
import TPUSwarm.Store.Origins

/-!
# Where the outcome of a task comes from

The control plane never makes up an outcome. A task runs or has ended as a job did that the backend listed, with
the result and the reason of that job, or it has failed because no job could be made of it. The listing may be long
past when somebody looks at the task, so the source of an outcome is an earlier state of the run.
-/

namespace TPUSwarm

open Common Relation SwarmStore

/-- The task runs or has ended. -/
def TaskStatus.Told (status : TaskStatus) : Prop := status = .running ∨ status.isTerminal = true

/-- A row tells what a job was listed with. -/
structure TaskRow.ReportedAs (row : TaskRow) (job : ExecutorJob) : Prop where
  jobId : row.jobId = some job.jobId
  executorStatus : row.executorStatus = some job.status
  recoveryCount : row.recoveryCount = job.recoveryCount
  status : row.status = taskStatus job.status
  succeeded : row.status = .succeeded → row.resultJson = some (dumps (jobResult job)) ∧ row.lastError = none
  failed : row.status = .failed → row.lastError = some (failureText job)

/-- A controller cannot make a job of the task of a row, and the reason says why. -/
def Uncompilable (controllers : TPUSwarmController → Prop) (row : TaskRow) (reason : String) : Prop :=
  ∃ controller task e, controllers controller ∧ task.taskId = row.taskId ∧ task.kind = row.kind ∧
    task.payload = loads row.payloadJson ∧ controller.compileJob task = .error e ∧
      reason = "invalid managed-job definition: " ++ e.kind.name ++ ": " ++ e.text

/-- The task has failed because a controller cannot make a job of it. -/
def TaskRow.RefusedBy (controllers : TPUSwarmController → Prop) (row : TaskRow) : Prop :=
  row.status = .failed ∧ ∃ reason, row.lastError = some reason ∧ Uncompilable controllers row reason

section Rows

variable {row row' : TaskRow} {job : ExecutorJob} {controllers : TPUSwarmController → Prop}

/-- An observed row tells what was observed. -/
theorem TaskRow.ReportedAs.observed (row : TaskRow) (job : ExecutorJob) (now : Time) :
    (row.observed job now).ReportedAs job := by
  refine ⟨rfl, rfl, rfl, rfl, fun hstatus => ?_, fun hstatus => ?_⟩
  · have hjob : taskStatus job.status = .succeeded := hstatus
    simp [TaskRow.observed, observedOutcome, hjob]
  · have hjob : taskStatus job.status = .failed := hstatus
    simp [TaskRow.observed, observedOutcome, hjob]

/-- A report is about the core of a row. -/
theorem TaskRow.ReportedAs.of_core (h : row.ReportedAs job) (hcore : row'.core = row.core) :
    row'.ReportedAs job := by
  have hstatus : row'.status = row.status := column_eq hcore TaskRow.status fun _ => rfl
  have herror : row'.lastError = row.lastError := column_eq hcore TaskRow.lastError fun _ => rfl
  have hresult : row'.resultJson = row.resultJson := column_eq hcore TaskRow.resultJson fun _ => rfl
  constructor
  · exact (column_eq hcore TaskRow.jobId fun _ => rfl).trans h.jobId
  · exact (column_eq hcore TaskRow.executorStatus fun _ => rfl).trans h.executorStatus
  · exact (column_eq hcore TaskRow.recoveryCount fun _ => rfl).trans h.recoveryCount
  · exact hstatus.trans h.status
  · rw [hstatus, hresult, herror]
    exact h.succeeded
  · rw [hstatus, herror]
    exact h.failed

/-- Not compiling is about the id, the kind and the payload of a row. -/
theorem Uncompilable.of_columns {reason : String} (h : Uncompilable controllers row reason)
    (hid : row'.taskId = row.taskId) (hkind : row'.kind = row.kind)
    (hpayload : row'.payloadJson = row.payloadJson) :
    Uncompilable controllers row' reason := by
  unfold Uncompilable
  rw [hid, hkind, hpayload]
  exact h

/-- A refusal is about the core of a row. -/
theorem TaskRow.RefusedBy.of_core (h : row.RefusedBy controllers) (hcore : row'.core = row.core) :
    row'.RefusedBy controllers := by
  obtain ⟨hstatus, reason, herror, hreason⟩ := h
  exact ⟨(column_eq hcore TaskRow.status fun _ => rfl).trans hstatus, reason,
    (column_eq hcore TaskRow.lastError fun _ => rfl).trans herror,
    hreason.of_columns (column_eq hcore TaskRow.taskId fun _ => rfl) (column_eq hcore TaskRow.kind fun _ => rfl)
      (column_eq hcore TaskRow.payloadJson fun _ => rfl)⟩

end Rows

/-- An admission leaves no other row than those that were there and those admitted. -/
theorem SwarmStore.Admissions.mem_old {now : Time} {store store' : SwarmStore} {rows : List TaskRow}
    (h : Admissions now store rows store') {row : TaskRow} (hrow : row ∈ store'.tasks.rows)
    (hstatus : row.status ≠ .submitting) : row ∈ store.tasks.rows := by
  induction h with
  | nil => exact hrow
  | cons first _ ih =>
    rcases first.rewrites.mem_iff.mp (ih hrow) with rfl | ⟨hold, -⟩
    · exact absurd rfl hstatus
    · exact hold

/-- Where a row that runs or has ended comes from: it was there, or it was observed, or it was refused. -/
theorem Call.told_cases {call : Call} {now : Time} {store store' : SwarmStore} {result : call.Result}
    (hrun : call.run now store = .ok (result, store')) {row' : TaskRow} (hrow' : row' ∈ store'.tasks.rows)
    (htold : row'.status.Told) :
    (∃ row ∈ store.tasks.rows, row'.core = row.core) ∨
    (∃ taskId job row, call = .observeJob taskId job ∧ row' = TaskRow.observed job now row) ∨
    ∃ taskId reason, ∃ row ∈ store.tasks.rows, call = .failTask taskId reason ∧ row.taskId = taskId ∧
      row' = row.refused reason now := by
  have hwaits : row'.status ≠ .pending ∧ row'.status ≠ .submitting ∧ row'.status ≠ .submitted := by
    refine ⟨?_, ?_, ?_⟩ <;> (intro hstatus; rw [hstatus] at htold; revert htold; unfold TaskStatus.Told; decide)
  have hsame (hmem : row' ∈ store.tasks.rows) : ∃ row ∈ store.tasks.rows, row'.core = row.core := ⟨row', hmem, rfl⟩
  cases htransition : call.isTransition with
  | false =>
    rcases (Call.quiet htransition hrun).tasks.old_or_fresh hrow' with ⟨row, hrow, hcore⟩ | hfresh
    · exact Or.inl ⟨row, hrow, hcore.symm⟩
    · exact absurd hfresh.columns.1 hwaits.1
  | true =>
    cases call with
    | reserveSubmissions limit =>
      obtain ⟨admitted, -, hchain, -⟩ := reserveSubmissions_eq_ok hrun
      exact Or.inl (hsame (hchain.mem_old hrow' hwaits.2.1))
    | bindJob taskId jobId status =>
      obtain ⟨row, -, -, -, hrewrites, -⟩ := bindJob_eq_ok hrun
      rcases hrewrites.mem_iff.mp hrow' with rfl | ⟨hmem, -⟩
      · exact absurd rfl hwaits.2.2
      · exact Or.inl (hsame hmem)
    | resetSubmission taskId reason =>
      obtain ⟨row, -, -, -, hrewrites, -⟩ := resetSubmission_eq_ok hrun
      rcases hrewrites.mem_iff.mp hrow' with rfl | ⟨hmem, -⟩
      · exact absurd rfl hwaits.1
      · exact Or.inl (hsame hmem)
    | failTask taskId reason =>
      obtain ⟨row, hid, hreported⟩ := failTask_eq_ok hrun
      rcases hreported.rewrites.mem_iff.mp hrow' with rfl | ⟨hmem, -⟩
      · exact Or.inr (Or.inr ⟨taskId, reason, row, hreported.rewrites.mem, rfl, hid, rfl⟩)
      · exact Or.inl (hsame hmem)
    | observeJob taskId job =>
      obtain ⟨row, -, hreported⟩ := observeJob_eq_ok hrun
      rcases hreported.rewrites.mem_iff.mp hrow' with rfl | ⟨hmem, -⟩
      · exact Or.inr (Or.inl ⟨taskId, job, row, rfl, rfl⟩)
      · exact Or.inl (hsame hmem)
    | _ => cases htransition

/-- When the controller may issue an operation: it observes jobs that were listed last, and fails tasks of which no
job can be made. -/
def SourcedOperation (controllers : TPUSwarmController → Prop) : Operation → Site → Prop
  | .store (.observeJob _ job) _, site => job ∈ site.listed
  | .store (.failTask taskId reason) _, site =>
    ∃ row ∈ site.store.tasks.rows, row.taskId = taskId ∧ Uncompilable controllers row reason
  | _, _ => True

/-- The sites themselves are the machine, and only what is permitted matters. -/
def sourceSimulation (D : Deployment) : D.system.Simulation Site where
  view := id
  inv _ := True
  move _ _ _ := True
  envMove := Deployment.ApiCall
  permitted _ := SourcedOperation D.controllers
  inv_move _ _ _ _ _ := trivial
  inv_env _ _ _ _ := trivial

/-- What the program of the one controller has to follow. -/
abbrev sourced (D : Deployment) := (sourceSimulation D).abstraction ()

/-- Operations that observe only these jobs, fail no task and list no jobs. -/
def Repeats (jobs : List ExecutorJob) : Operation → Prop
  | .store (.observeJob _ job) _ => job ∈ jobs
  | .store (.failTask _ _) _ | .listJobs => False
  | _ => True

/-- Settling repeats what the list says. -/
theorem Settling.repeats {jobs : List ExecutorJob} {op : Operation} (h : Settling jobs op) : Repeats jobs op := by
  cases op with
  | store call now => cases call <;> first | exact h | trivial
  | _ => exact False.elim h

/-- The tasks of a batch are those of rows of the store. -/
def Describes (batch : List TaskRecord) (store : SwarmStore) : Prop :=
  ∀ task ∈ batch, ∃ row ∈ store.tasks.rows, row.taskId = task.taskId ∧ row.kind = task.kind ∧
    loads row.payloadJson = task.payload

/-- The columns that a batch describes are untouched. -/
theorem TaskRow.description_untouched : Untouched fun row => (row.taskId, row.kind, row.payloadJson) :=
  ⟨fun _ _ => rfl, fun _ _ _ _ => rfl, fun _ _ _ => rfl, fun _ _ _ => rfl, fun _ _ _ => rfl⟩

/-- A batch goes on describing its rows after a call. -/
theorem Describes.perform {batch : List TaskRecord} {store : SwarmStore} (h : Describes batch store) (call : Call)
    (now : Time) : Describes batch (call.perform now store).2 := by
  rcases call.perform_store now store with hsame | ⟨result, hrun⟩
  · rw [hsame]
    exact h
  · intro task htask
    obtain ⟨row, hrow, hid, hkind, hpayload⟩ := h task htask
    obtain ⟨added, hmap, -⟩ := TaskRow.description_untouched.run (fun _ _ _ _ _ _ => rfl) hrun
    have hmem := List.mem_append_left (added.map fun row => (row.taskId, row.kind, row.payloadJson))
      (List.mem_map_of_mem (f := fun row : TaskRow => (row.taskId, row.kind, row.payloadJson)) hrow)
    rw [← hmap] at hmem
    obtain ⟨row', hrow', hcolumns⟩ := List.mem_map.mp hmem
    obtain ⟨hid', hrest⟩ := Prod.mk.inj hcolumns
    obtain ⟨hkind', hpayload'⟩ := Prod.mk.inj hrest
    exact ⟨row', hrow', hid'.trans hid, hkind'.trans hkind, by rw [hpayload', hpayload]⟩

section Follows

variable {D : Deployment} {site : Site} {controller : TPUSwarmController} {jobs : List ExecutorJob}

/-- Nothing but the API acts beside the one controller. -/
theorem sourced_stable {fact : Site → Prop} (h : ∀ (site : Site) (call : Call) now, fact site →
    fact { site with store := (call.perform now site.store).2 }) : (sourced D).Stable fact := by
  rintro site site' (⟨call, now, -, rfl⟩ | ⟨_, hne, -⟩) hfact
  · exact h site call now hfact
  · exact absurd rfl hne

/-- Truth is stable. -/
theorem sourced_stable_true : (sourced D).Stable fun _ => True := fun _ _ _ _ => trivial

/-- The jobs listed last stay the same until jobs are listed again. -/
theorem sourced_stable_listed : (sourced D).Stable fun site => site.listed = jobs := sourced_stable fun _ _ _ h => h

/-- A program that only repeats what was listed last. -/
theorem sourced_repeats {α : Type} {p : Effect α} (huses : p.Uses (Repeats jobs)) (hsite : site.listed = jobs) :
    p.Follows (sourced D) (fun _ site => site.listed = jobs) (fun _ _ => True) site := by
  refine Action.Follows.mono (Action.Follows.of_uses (fun site => site.listed = jobs) sourced_stable_listed
    (fun op hop m _ hm => ⟨?_, fun reply m' hexec => ⟨m', .single trivial, rfl, ?_⟩⟩) huses hsite)
    (fun _ _ _ h => h) fun _ _ _ _ => trivial
  · rw [← hm] at hop
    cases op with
    | store call now => cases call <;> first | exact hop | trivial
    | _ => trivial
  · cases hexec with
    | listJobs | listFails => exact False.elim hop
    | _ => exact hm

/-- The loop over a batch fails only tasks of which no job can be made. -/
theorem sourced_admits {α : Type} {p : Effect α} {batch : List TaskRecord} (hcontroller : D.controllers controller)
    (huses : p.Uses (Admitting controller batch)) (hsite : Describes batch site.store) :
    p.Follows (sourced D) (fun _ _ => True) (fun _ _ => True) site := by
  refine Action.Follows.mono (Action.Follows.of_uses (fun site => Describes batch site.store)
    (sourced_stable fun _ call now h => h.perform call now)
    (fun op hop m _ hm => ⟨?_, fun reply m' hexec => ⟨m', .single trivial, rfl, ?_⟩⟩) huses hsite)
    (fun _ _ _ _ => trivial) fun _ _ _ _ => trivial
  · cases op with
    | store call now =>
      cases call with
      | failTask taskId reason =>
        obtain ⟨task, htask, hid, e, hcompile, hreason⟩ := hop
        obtain ⟨row, hrow, hrowId, hkind, hpayload⟩ := hm task htask
        exact ⟨row, hrow, hrowId.trans hid, controller, task, e, hcontroller, hrowId.symm, hkind.symm,
          hpayload.symm, hcompile, hreason⟩
      | observeJob taskId job => exact False.elim hop
      | _ => trivial
    | _ => trivial
  · cases hexec with
    | @store _ call now clock outcome store' _ hperform =>
      have hstore : store' = (call.perform (now.getD clock) m.store).2 := (congrArg Prod.snd hperform).symm
      rw [hstore]
      exact hm.perform call _
    | listJobs | listFails => exact False.elim hop
    | launch => exact hm

/-- The loop over the workflows observes no job and fails no task. -/
theorem reconcileWorkflows_repeats (controller : TPUSwarmController) (jobs : List ExecutorJob)
    (workflows : List WorkflowRecord) (reconciled : List String) :
    (controller.reconcileWorkflows workflows reconciled).Uses (Repeats jobs) := by
  have hreconcile (workflowId : String) :
      (WorkflowEngine.reconcile ⟨controller.registry⟩ workflowId).Uses (Repeats jobs) := by
    apply Prog.Uses.mono (fun op hop => ?_) (WorkflowEngine.uses_reconcile _ workflowId)
    cases op with
    | store call now => cases call <;> trivial
    | _ => exact False.elim hop
  induction workflows generalizing reconciled with
  | nil => exact Action.Uses.pure _
  | cons workflow rest ih =>
    apply Action.Uses.bind (hreconcile workflow.workflowId).attempt
    rintro (e | record)
    · exact ih _
    · exact ih _

/-- The part of a cycle that only a leader reaches. -/
theorem sourced_cycle (hcontroller : D.controllers controller) (now : Time) :
    (controller.cycle now).Follows (sourced D) (fun _ _ => True) (fun _ _ => True) site := by
  have hend {α : Type} (a : α) (m : Site) :
      (pure a : Effect α).Follows (sourced D) (fun _ _ => True) (fun _ _ => True) m :=
    Action.Follows.pure (Q := fun _ _ => True) sourced_stable_true trivial
  unfold TPUSwarmController.cycle
  have hlist : listJobs.Follows (sourced D) (fun jobs (m : Site) => m.listed = jobs) (fun _ _ => True) site := by
    refine Prog.Follows.issue (S := sourced D) (c := .listJobs) sourced_stable_true (fun r => ?_)
      (fun m _ _ => ?_) trivial
    · cases r with
      | ok jobs => exact sourced_stable_listed
      | error e => exact sourced_stable_true
    · refine ⟨trivial, fun reply m' hexec => ⟨m', .single trivial, rfl, ?_⟩⟩
      cases hexec with
      | listJobs => rfl
      | listFails => trivial
  let heard (outcome : Except PyError (List ExecutorJob)) (m : Site) : Prop :=
    ∀ jobs, outcome = .ok jobs → m.listed = jobs
  have hheard (outcome : Except PyError (List ExecutorJob)) : (sourced D).Stable (heard outcome) :=
    fun m m' hmove h jobs hjobs => sourced_stable_listed m m' hmove (h jobs hjobs)
  have hattempt : (Action.attempt listJobs).Follows (sourced D) heard (fun _ _ => True) site :=
    Action.Follows.attempt hheard
      (Action.Follows.mono hlist (fun jobs m _ hm jobs' hsame => hm.trans (Except.ok.inj hsame))
        fun _ _ _ _ => nofun)
  refine Action.Follows.bind (fun _ => sourced_stable_true) hattempt fun outcome m _ hm => ?_
  cases outcome with
  | error e =>
    dsimp only
    split
    · exact hend _ m
    · exact Action.Follows.throw sourced_stable_true trivial
  | ok jobs =>
    have hlisted : m.listed = jobs := hm jobs rfl
    have hcall (call : Call) (h : Repeats jobs (.store call none)) : (callStore call none).Uses (Repeats jobs) :=
      Prog.Uses.issue h
    refine Action.Follows.bind (fun _ => sourced_stable_true)
      (sourced_repeats (hcall (.listTasks none) trivial) hlisted) fun tasks m _ hlisted => ?_
    refine Action.Follows.bind (fun _ => sourced_stable_true)
      (sourced_repeats (Prog.Uses.mono (fun _ => Settling.repeats)
        (reconcileTasks_settles controller jobs now tasks [] [])) hlisted) fun reports m _ hlisted => ?_
    refine Action.Follows.bind (fun _ => sourced_stable_true)
      (sourced_repeats (hcall (.listWorkflows (some .active)) trivial) hlisted) fun workflows m _ hlisted => ?_
    refine Action.Follows.bind (fun _ => sourced_stable_true)
      (sourced_repeats (reconcileWorkflows_repeats controller jobs workflows []) hlisted) fun reconciled m _ _ => ?_
    have hreserve : (callStore (.reserveSubmissions controller.submissionBatchSize) (some now)).Follows (sourced D)
        (fun batch (m : Site) => Describes batch m.store) (fun _ _ => True) m := by
      refine Prog.Follows.issue (S := sourced D)
        (c := .store (.reserveSubmissions controller.submissionBatchSize) (some now)) sourced_stable_true
          (fun r => ?_)
        (fun m _ _ => ?_) trivial
      · cases r with
        | ok batch => exact sourced_stable fun _ call now h => h.perform call now
        | error e => exact sourced_stable_true
      · refine ⟨trivial, fun reply m' hexec => ⟨m', .single trivial, rfl, ?_⟩⟩
        obtain ⟨-, hperform⟩ := hexec
        rcases Call.perform_cases hperform with ⟨e, rfl, -⟩ | ⟨batch, rfl, hrun⟩
        · trivial
        · obtain ⟨admitted, -, hchain, rfl⟩ := reserveSubmissions_eq_ok hrun
          intro task htask
          obtain ⟨row, hrow, rfl⟩ := List.mem_map.mp htask
          exact ⟨_, hchain.mem_admitted hrow, rfl, rfl, rfl⟩
    refine Action.Follows.bind (fun _ => sourced_stable_true) hreserve fun batch m _ hbatch => ?_
    exact Action.Follows.bind (fun _ => sourced_stable_true)
      (sourced_admits hcontroller (launchTasks_admits controller now (List.Subset.refl batch) []) hbatch)
        fun submitted m _ _ =>
        hend _ m

/-- A call of `reconcile_once`. -/
theorem sourced_reconcileOnce (hcontroller : D.controllers controller) (lease : Option ControllerLease)
    (now : Time) :
    (controller.reconcileOnce lease now).Follows (sourced D) (fun _ _ => True) site := by
  have hdone (outcome : CycleOutcome) (m : Site) :
      (pure outcome : Prog Operation Operation.Reply CycleOutcome).Follows (sourced D) (fun _ _ => True) m :=
    Prog.Follows.pure (Q := fun _ _ => True) sourced_stable_true trivial
  have hany {α : Type} {p : Effect α} (m : Site) (huses : p.Uses (Repeats m.listed)) :
      p.run.Follows (sourced D) (fun _ _ => True) m :=
    Prog.Follows.mono (sourced_repeats huses rfl) fun _ _ _ _ => trivial
  have hheld : (controller.heldLease lease now).Uses (Repeats site.listed) := by
    cases lease with
    | some held => exact Action.Uses.pure _
    | none => exact Prog.Uses.issue trivial
  refine Prog.Follows.bind (hany _ hheld) fun started m _ _ => ?_
  rcases started with e | _ | held
  · exact hdone _ _
  · exact hdone _ _
  · have hrenew : (callStore (.renewLeadership held controller.leadershipLeaseSeconds) (some now)).Uses
        (Repeats m.listed) := Prog.Uses.issue trivial
    refine Prog.Follows.bind (hany m hrenew) fun renewed m _ _ => ?_
    rcases renewed with e | renewed
    · dsimp only
      split
      · exact hdone _ _
      · exact hdone _ _
    · exact Prog.Follows.bind (sourced_cycle hcontroller now) fun result m _ _ => hdone _ _

end Follows

/-- The machine matches the system: its operations, crashes, new cycles and API calls. -/
theorem sourceSimulation_matches (D : Deployment) : (sourceSimulation D).Matches where
  env site site' _ henv := ⟨site', henv, rfl⟩
  crash _ site _ site' _ hcrash := ⟨site', .single trivial, rfl, fun _ _ _ => trivial⟩
  begins _ last site program site' _ _ hbegins := by
    obtain ⟨-, controller, now, hcontroller, rfl⟩ := hbegins
    exact ⟨site', .single trivial, rfl, sourced_reconcileOnce hcontroller last.2 now⟩

/-- An operation under way is permitted in every reachable state. -/
theorem Deployment.Reachable.sourced {D : Deployment} {s : D.SystemState} (h : D.Reachable s) {op : Operation}
    {next : op.Reply → Prog Operation Operation.Reply CycleOutcome} (hop : s.progs () = .op op next) :
    SourcedOperation D.controllers op s.world := by
  have hstart : (sourceSimulation D).Related Site.initial D.initial :=
    Pool.Simulation.Related.of_finished _ rfl trivial fun _ => ⟨_, rfl, fun _ => trivial⟩
  obtain ⟨m, -, hrelated⟩ := Pool.Simulation.run (sourceSimulation_matches D) hstart h
  obtain rfl : m = s.world := hrelated.view
  exact hrelated.permitted hop

end TPUSwarm
