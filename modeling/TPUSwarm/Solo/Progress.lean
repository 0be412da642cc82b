import TPUSwarm.Solo.Launches

/-!
# How a task gets on

The statuses of a task are the nodes of a diagram, and a run of the controller walks along its arrows: a task
waits to be launched until it has a job, the job may be observed any number of times, and nothing leads back
from a job to waiting. What was ordered never changes. With an honest backend the job stays the same one, too.
-/

namespace TPUSwarm

open Common Relation SwarmStore

/-- The arrows between the statuses of a task. -/
inductive TaskStatus.Next : TaskStatus → TaskStatus → Prop
  | reserve : Next .pending .submitting
  | reset : Next .submitting .pending
  | bind : Next .submitting .submitted
  | refuse : Next .submitting .failed
  | observe {status status'} (hactive : status = .submitted ∨ status = .running)
      (hlaunched : status' ≠ .pending ∧ status' ≠ .submitting) : Next status status'

/-- A task row without the columns that change after its insertion. -/
def TaskRow.ordered (row : TaskRow) : TaskRow :=
  { row with
    status := .pending, jobId := none, executorStatus := none, recoveryCount := 0, checkpointUri := none,
    checkpointSequence := none, checkpointMetadataJson := none, resultJson := none, lastError := none,
    submissionStartedAt := none, updatedAt := 0, completedAt := none }

/-- Rows of the same order agree on every column that the order keeps. -/
theorem TaskRow.ordered_column {α : Type} {a b : TaskRow} (h : a.ordered = b.ordered) (column : TaskRow → α)
    (hcolumn : ∀ row : TaskRow, column row.ordered = column row) : column a = column b := by
  rw [← hcolumn a, h, hcolumn b]

/-- A task is later the same order, its status lies ahead, and it has a job if it had one. -/
structure TaskRow.Advances (row row' : TaskRow) : Prop where
  ordered : row'.ordered = row.ordered
  status : ReflTransGen TaskStatus.Next row.status row'.status
  hasJob : row.jobId ≠ none → row'.jobId ≠ none

namespace TaskRow.Advances

variable {row row' row'' : TaskRow}

/-- Advancing is transitive. -/
theorem trans (h : row.Advances row') (h' : row'.Advances row'') : row.Advances row'' :=
  ⟨h'.ordered.trans h.ordered, h.status.trans h'.status, fun hjob => h'.hasJob (h.hasJob hjob)⟩

/-- Rows that differ in their checkpoints only. -/
theorem of_core (h : row'.core = row.core) : row.Advances row' := by
  have hstatus : row'.status = row.status := column_eq h TaskRow.status fun _ => rfl
  have hjob : row'.jobId = row.jobId := column_eq h TaskRow.jobId fun _ => rfl
  exact ⟨column_eq h TaskRow.ordered fun _ => rfl, by rw [hstatus], fun hne => by rwa [hjob]⟩

/-- A move follows one arrow. -/
theorem of_moves (h : Moves row row') : row.Advances row' := by
  cases h with
  | reserve hstatus => exact ⟨rfl, .single (hstatus ▸ .reserve), id⟩
  | bind hstatus => exact ⟨rfl, .single (hstatus ▸ .bind), fun _ => nofun⟩
  | reset hstatus => exact ⟨rfl, .single (hstatus ▸ .reset), id⟩
  | refuse hstatus => exact ⟨rfl, .single (hstatus ▸ .refuse), id⟩
  | @observe now _ job hstatus =>
    exact ⟨rfl, .single (.observe hstatus (taskStatus_ne job.status)), fun _ => nofun⟩

/-- A task that had a job waits no more. -/
theorem launched (h : row.Advances row') (hjob : row.jobId ≠ none) (hcoherent : row'.Coherent) :
    row'.status ≠ .pending ∧ row'.status ≠ .submitting :=
  ⟨fun hstatus => h.hasJob hjob (hcoherent.pending hstatus).1,
    fun hstatus => h.hasJob hjob (hcoherent.submitting hstatus).1⟩

end TaskRow.Advances

/-- A guarded step lets every task advance. -/
theorem Guarded.advances {store store' : SwarmStore} (h : Guarded store store') {row : TaskRow}
    (hrow : row ∈ store.tasks.rows) : ∃ row' ∈ store'.tasks.rows, row.Advances row' := by
  rcases h.quiet_or_moves with hquiet | ⟨old, new, hrewrites, hmove⟩
  · obtain ⟨row', hrow', hcore⟩ := hquiet.tasks.kept hrow
    exact ⟨row', hrow', .of_core hcore⟩
  · by_cases hid : row.taskId = old.taskId
    · obtain rfl := store.task_unique hrow hrewrites.mem hid
      exact ⟨new, hrewrites.mem', .of_moves hmove⟩
    · exact ⟨row, hrewrites.mem_iff.mpr (Or.inr ⟨hrow, hid⟩), .of_core rfl⟩

/-- A task advances along every run. -/
theorem Deployment.row_advances {D : Deployment} {s s' : D.SystemState} (h : D.Reachable s)
    (hrun : D.system.Run s s')
    {row : TaskRow} (hrow : row ∈ s.world.store.tasks.rows) :
    ∃ row' ∈ s'.world.store.tasks.rows, row'.taskId = row.taskId ∧ row.Advances row' := by
  have hlast : ∃ row' ∈ s'.world.store.tasks.rows, row.Advances row' := by
    refine Deployment.forall_of_guarded (K := fun store => ∃ row' ∈ store.tasks.rows, row.Advances row')
      (fun store store' hstep hold => ?_) h hrun ⟨row, hrow, .of_core rfl⟩
    obtain ⟨mid, hmid, hadvances⟩ := hold
    obtain ⟨row', hrow', hnext⟩ := hstep.advances hmid
    exact ⟨row', hrow', hadvances.trans hnext⟩
  obtain ⟨row', hrow', hadvances⟩ := hlast
  exact ⟨row', hrow', TaskRow.ordered_column hadvances.ordered TaskRow.taskId fun _ => rfl, hadvances⟩

/-- Along every run of one controller with the API, whatever the backend answers and wherever the controller
crashes, no task is lost: it stays the same order, its status has walked along the arrows of the diagram, and a
task that had a job still has one and does not wait for a launch again. -/
theorem task_advances {D : Deployment} {s s' : D.SystemState} (h : D.Reachable s) (hrun : D.system.Run s s') :
    ∀ row ∈ s.world.store.tasks.rows, ∃ row' ∈ s'.world.store.tasks.rows, row'.taskId = row.taskId ∧
      row.Advances row' ∧ (row.jobId ≠ none → row'.status ≠ .pending ∧ row'.status ≠ .submitting) := by
  intro row hrow
  obtain ⟨row', hrow', hid, hadvances⟩ := Deployment.row_advances h hrun hrow
  have hreachable : D.Reachable s' := h.trans hrun
  exact ⟨row', hrow', hid, hadvances, fun hjob => hadvances.launched hjob (hreachable.invariant.1 row' hrow')⟩

/-- The sample task is submitted, and later it runs. -/
theorem task_advances_running : ∃ s s' : (Deployment.anyBackend sampleController).SystemState,
    ∃ row ∈ s.world.store.tasks.rows, row.status = .pending ∧
      ∃ row' ∈ s'.world.store.tasks.rows, row.Advances row' ∧ row'.status = .running := by
  obtain ⟨s, s', hreachable, hrun, hcheck⟩ := (Deployment.anyBackend sampleController).run_of_check
    ((Deployment.launchCommands rfl (.ok (sampleJob "PENDING")) []).take 1)
    ((Deployment.launchCommands rfl (.ok (sampleJob "PENDING")) []).drop 1 ++ [.store 1] ++
      Deployment.listCommands rfl 2 [sampleJob "RUNNING"] ++ [.store 2])
    (fun s s' => s.world.store.tasks.rows.any (·.status = .pending) &&
      s'.world.store.tasks.rows.all (·.status = .running)) (by decide +kernel)
  obtain ⟨hpending, hrunning⟩ := Bool.and_eq_true_iff.mp hcheck
  obtain ⟨row, hrow, hstatus⟩ := List.any_eq_true.mp hpending
  obtain ⟨row', hrow', -, hadvances, -⟩ := task_advances hreachable hrun row hrow
  exact ⟨s, s', row, hrow, of_decide_eq_true hstatus, row', hrow', hadvances,
    of_decide_eq_true (List.all_eq_true.mp hrunning row' hrow')⟩

/-- Jobs that were created stay on record. -/
theorem Deployment.created_grows {D : Deployment} {s s' : D.SystemState} (hrun : D.system.Run s s') :
    s.world.created ⊆ s'.world.created := by
  induction hrun with
  | refl => exact List.Subset.refl _
  | tail _ hstep ih =>
    refine List.Subset.trans ih ?_
    cases hstep with
    | act i hop hexec =>
      cases hexec with
      | launch => exact List.subset_append_left _ _
      | _ => exact List.Subset.refl _
    | begin i hidle hbegin =>
      obtain ⟨rfl, -⟩ := hbegin
      exact List.Subset.refl _
    | crash i hcrash =>
      obtain ⟨rfl, -⟩ := hcrash
      exact List.Subset.refl _
    | env henv =>
      obtain ⟨call, now, -, rfl⟩ := henv
      exact List.Subset.refl _

/-- With an honest backend a task that has a job keeps this very job for the rest of every run. -/
theorem job_fixed {controllers : TPUSwarmController → Prop}
    (hnames : ∀ controller, controllers controller → ∀ task spec,
      controller.compileJob task = .ok spec → spec.name = task.jobName)
    {s s' : (Deployment.honest controllers).SystemState} (h : (Deployment.honest controllers).Reachable s)
    (hrun : (Deployment.honest controllers).system.Run s s') :
    ∀ row ∈ s.world.store.tasks.rows, ∀ jobId, row.jobId = some jobId →
      ∃ row' ∈ s'.world.store.tasks.rows, row'.taskId = row.taskId ∧ row'.jobId = some jobId := by
  intro row hrow jobId hjob
  obtain ⟨row', hrow', hid, hadvances⟩ := Deployment.row_advances h hrun hrow
  obtain ⟨jobId', hjob'⟩ := Option.ne_none_iff_exists'.mp (hadvances.hasJob (by rw [hjob]; nofun))
  have hreachable : (Deployment.honest controllers).Reachable s' := h.trans hrun
  obtain ⟨hdistinct, haccounted⟩ := hreachable.launches hnames
  have hold : ⟨jobId, row.jobName⟩ ∈ s'.world.created :=
    Deployment.created_grows hrun ((h.launches hnames).2.bound row hrow jobId hjob)
  have hnew : ⟨jobId', row.jobName⟩ ∈ s'.world.created := by
    rw [← TaskRow.ordered_column hadvances.ordered TaskRow.jobName fun _ => rfl]
    exact haccounted.bound row' hrow' jobId' hjob'
  have hsame : (⟨jobId, row.jobName⟩ : RemoteJob) = ⟨jobId', row.jobName⟩ :=
    List.inj_on_of_nodup_map (List.pairwise_map.mpr hdistinct) hold hnew rfl
  obtain rfl : jobId = jobId' := congrArg RemoteJob.jobId hsame
  exact ⟨row', hrow', hid, hjob'⟩

/-- The sample task is launched, and it still has its job after it has run and failed. -/
theorem job_fixed_failed : ∃ s s' : (Deployment.honest (· = sampleController)).SystemState,
    ∃ row ∈ s.world.store.tasks.rows, row.jobId = some "7" ∧
      ∃ row' ∈ s'.world.store.tasks.rows, row'.taskId = row.taskId ∧ row'.jobId = some "7" := by
  obtain ⟨s, s', hreachable, hrun, hcheck⟩ := (Deployment.honest (· = sampleController)).run_of_check
    (Deployment.launchCommands rfl (.ok (sampleJob "PENDING")) [⟨"7", executorName "t1"⟩] ++ [.store 1])
    (Deployment.listCommands rfl 2 [sampleJob "RUNNING"] ++ [.store 2, .crash] ++
      [.begin ⟨sampleController, rfl⟩ 40, .store 40, .store 40, .list [sampleJob "FAILED"], .store 40, .store 40])
    (fun s s' => s.world.store.tasks.rows.any (·.jobId = some "7") &&
      s'.world.store.tasks.rows.any (·.status = .failed)) (by decide +kernel)
  obtain ⟨row, hrow, hjob⟩ := List.any_eq_true.mp (Bool.and_eq_true_iff.mp hcheck).1
  have hfixed := job_fixed (fun controller hcontroller task spec hspec => by
    obtain rfl : controller = sampleController := hcontroller
    exact sampleController_names hspec) hreachable hrun row hrow "7" (of_decide_eq_true hjob)
  exact ⟨s, s', row, hrow, of_decide_eq_true hjob, hfixed⟩

end TPUSwarm
