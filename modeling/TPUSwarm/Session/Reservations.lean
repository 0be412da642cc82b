import TPUSwarm.Session.Launching
import TPUSwarm.Solo.Schedule

/-!
# What becomes of a reserved batch

A call of `reconcile_once` reserves at most one batch, in one transaction, before it launches
anything. When it returns normally, the tasks of the batch are released up to the one whose
launch has raised.
-/

namespace TPUSwarm

open Common SwarmStore

variable {store store' : SwarmStore} {trace : List (Sigma Operation.Reply)} {controller : TPUSwarmController}
  {now : Time} {batch : List TaskRecord} {task : TaskRecord} {submitted : List String} {taskId : String}

/-- A cycle that returns admits nothing and launches nothing, or it admits one batch and goes through it. -/
theorem cycle_admits {result : ReconcileResult}
    (hrun : Session apiCall (controller.cycle now) store trace (.ok result) store') :
    (∀ event ∈ trace, TPUSwarmController.Preparing event.1) ∨
      ∃ before batch after admitting mid submitted,
        trace = before ++ reserved controller.submissionBatchSize now batch :: after ∧
          (∀ event ∈ before, TPUSwarmController.Preparing event.1) ∧
            reserveSubmissions controller.submissionBatchSize now admitting = .ok (batch, mid) ∧
              Session apiCall (controller.launchTasks now batch []) mid after (.ok submitted) store' := by
  rw [TPUSwarmController.cycle] at hrun
  obtain ⟨listing, outcome, mid₁, trace₁, rfl, hlist, hrun⟩ := Action.runs_bind_ok.mp hrun
  obtain ⟨-, -, hlist⟩ := Action.runs_attempt.mp hlist
  have hlisting : ∀ event ∈ listing, TPUSwarmController.Preparing event.1 :=
    Prog.Runs.uses hlist (Prog.Uses.issue ⟨rfl, rfl, rfl⟩)
  cases outcome with
  | error e =>
    dsimp only at hrun
    split at hrun
    · obtain ⟨rfl, -, -⟩ := Action.runs_pure.mp hrun
      exact Or.inl (by rw [List.append_nil]; exact hlisting)
    · obtain ⟨-, herror, -⟩ := Action.runs_throw.mp hrun
      cases herror
  | ok jobs =>
    obtain ⟨listed, tasks, mid₂, trace₂, rfl, htasks, hrun⟩ := Action.runs_bind_ok.mp hrun
    obtain ⟨observing, reports, mid₃, trace₃, rfl, hreports, hrun⟩ := Action.runs_bind_ok.mp hrun
    obtain ⟨listed', workflows, mid₄, trace₄, rfl, hworkflows, hrun⟩ := Action.runs_bind_ok.mp hrun
    obtain ⟨reconciling, reconciled, mid₅, trace₅, rfl, hreconciled, hrun⟩ := Action.runs_bind_ok.mp hrun
    obtain ⟨admitting, batch, mid₆, after, rfl, hbatch, hrun⟩ := Action.runs_bind_ok.mp hrun
    obtain ⟨launching, submitted, final, rest, rfl, hlaunch, hend⟩ := Action.runs_bind_ok.mp hrun
    obtain ⟨rfl, -, rfl⟩ := Action.runs_pure.mp hend
    obtain ⟨rfl, before, clock, -, hreserve⟩ := session_callStore_ok.mp hbatch
    refine Or.inr ⟨listing ++ (listed ++ (observing ++ (listed' ++ reconciling))), batch, launching, before, mid₆,
      submitted, by simp [reserved], ?_, hreserve, hlaunch⟩
    simp only [List.mem_append]
    rintro event (hevent | hevent | hevent | hevent | hevent)
    · exact hlisting event hevent
    · exact Prog.Runs.uses htasks (Prog.Uses.issue ⟨rfl, rfl, rfl⟩) event hevent
    · exact Prog.Runs.uses hreports (controller.uses_reconcileTasks jobs now tasks [] []) event hevent
    · exact Prog.Runs.uses hworkflows (Prog.Uses.issue ⟨rfl, rfl, rfl⟩) event hevent
    · exact Prog.Runs.uses hreconciled (controller.uses_reconcileWorkflows workflows []) event hevent

/-- The operation neither admits nor launches. -/
def Idle (op : Operation) : Prop :=
  TPUSwarmController.admitsBatch op = false ∧ TPUSwarmController.isLaunch op = false

/-- No admission is among idle events. -/
theorem Idle.not_reserved {before : List (Sigma Operation.Reply)} (h : ∀ event ∈ before, Idle event.1) (limit : ℤ) :
    reserved limit now batch ∉ before := fun hmem => by cases (h _ hmem).1

/-- No launch is among idle events. -/
theorem Idle.not_launched {before : List (Sigma Operation.Reply)} (h : ∀ event ∈ before, Idle event.1)
    {spec : ManagedJobSpec} {priority : Priority} {outcome : Except PyError ExecutorJob} :
    launched task spec priority outcome ∉ before := fun hmem => by cases (h _ hmem).2

/-- The batch that a call of `reconcile_once` has admitted, and the loop over it. -/
structure Admitted (controller : TPUSwarmController) (now : Time) (trace : List (Sigma Operation.Reply))
    (store' : SwarmStore) (before after : List (Sigma Operation.Reply)) (batch : List TaskRecord)
    (admitting mid : SwarmStore) (submitted : List String) : Prop where
  parts : trace = before ++ reserved controller.submissionBatchSize now batch :: after
  idle : ∀ event ∈ before, Idle event.1
  reserves : reserveSubmissions controller.submissionBatchSize now admitting = .ok (batch, mid)
  launches : Session apiCall (controller.launchTasks now batch []) mid after (.ok submitted) store'

/-- A call that returns normally admits nothing and launches nothing, or it admits one batch. -/
theorem reconcileOnce_admits {lease lease' : Option ControllerLease} {result : ReconcileResult}
    (hrun : (controller.reconcileOnce lease now).Runs (Answers apiCall) store trace (.ok result, lease') store') :
    (∀ event ∈ trace, Idle event.1) ∨ ∃ before after batch admitting mid submitted,
      Admitted controller now trace store' before after batch admitting mid submitted := by
  have hheldUses : (controller.heldLease lease now).run.Uses Idle := by
    cases lease with
    | some held => exact trivial
    | none => exact Prog.Uses.issue ⟨rfl, rfl⟩
  rw [TPUSwarmController.reconcileOnce] at hrun
  obtain ⟨holding, outcome, mid₁, trace₁, rfl, hheld, hrun⟩ := Prog.runs_bind.mp hrun
  have hholding := hheld.uses hheldUses
  rcases outcome with e | _ | held
  · obtain ⟨-, heq, -⟩ := Prog.runs_pure.mp hrun
    cases heq
  · obtain ⟨rfl, -, -⟩ := Prog.runs_pure.mp hrun
    exact Or.inl (by rw [List.append_nil]; exact hholding)
  · obtain ⟨renewing, outcome, mid₂, trace₂, rfl, hrenew, hrun⟩ := Prog.runs_bind.mp hrun
    have hrenewing : ∀ event ∈ renewing, Idle event.1 := hrenew.uses (Prog.Uses.issue ⟨rfl, rfl⟩)
    cases outcome with
    | error e =>
      dsimp only at hrun
      split at hrun
      · obtain ⟨rfl, -, -⟩ := Prog.runs_pure.mp hrun
        refine Or.inl fun event hevent => ?_
        rw [List.append_nil, List.mem_append] at hevent
        exact hevent.elim (hholding event) (hrenewing event)
      · obtain ⟨-, heq, -⟩ := Prog.runs_pure.mp hrun
        cases heq
    | ok renewed =>
      obtain ⟨cycling, outcome, mid₃, rest, rfl, hcycle, hend⟩ := Prog.runs_bind.mp hrun
      obtain ⟨rfl, heq, rfl⟩ := Prog.runs_pure.mp hend
      obtain ⟨rfl, -⟩ := Prod.mk.inj heq
      rcases cycle_admits hcycle with hidle |
        ⟨before, batch, after, admitting, mid, submitted, rfl, hidle, hreserve, hlaunch⟩
      · refine Or.inl fun event hevent => ?_
        simp only [List.append_nil, List.mem_append] at hevent
        rcases hevent with hevent | hevent | hevent
        · exact hholding event hevent
        · exact hrenewing event hevent
        · exact (hidle event hevent).2
      · refine Or.inr ⟨holding ++ (renewing ++ before), after, batch, admitting, mid, submitted, by simp, ?_,
          hreserve, hlaunch⟩
        simp only [List.mem_append]
        rintro event (hevent | hevent | hevent)
        · exact hholding event hevent
        · exact hrenewing event hevent
        · exact (hidle event hevent).2

namespace Admitted

variable {before after : List (Sigma Operation.Reply)} {admitting mid : SwarmStore}

/-- One batch is admitted. -/
theorem reserved_iff (h : Admitted controller now trace store' before after batch admitting mid submitted)
    {other : List TaskRecord} : reserved controller.submissionBatchSize now other ∈ trace ↔ other = batch := by
  rw [h.parts, List.mem_append, List.mem_cons]
  constructor
  · rintro (hmem | heq | hmem)
    · exact absurd hmem (Idle.not_reserved h.idle _)
    · exact Except.ok.inj (eq_of_heq (Sigma.mk.inj heq).2)
    · have hlaunching := Prog.Runs.uses h.launches (controller.uses_launchTasks now batch []) _ hmem
      cases hlaunching.2
  · rintro rfl
    exact Or.inr (Or.inl rfl)

/-- The launches of the call are those of the loop. -/
theorem launched_iff (h : Admitted controller now trace store' before after batch admitting mid submitted)
    {spec : ManagedJobSpec} {priority : Priority} {outcome : Except PyError ExecutorJob} :
    launched task spec priority outcome ∈ trace ↔ launched task spec priority outcome ∈ after := by
  rw [h.parts, List.mem_append, List.mem_cons]
  constructor
  · rintro (hmem | heq | hmem)
    · exact absurd hmem (Idle.not_launched h.idle)
    · exact absurd heq launched_ne
    · exact hmem
  · exact fun hmem => Or.inr (Or.inr hmem)

/-- The tasks of the batch are distinct, and stand in the store with their reservation. -/
theorem batch_reserved (h : Admitted controller now trace store' before after batch admitting mid submitted) :
    batch.Pairwise (fun a b => a.taskId ≠ b.taskId) ∧
      ∀ task ∈ batch, Shows mid task.taskId (·.status = .submitting) := by
  obtain ⟨admitted, hdistinct, hchain, rfl⟩ := reserveSubmissions_eq_ok h.reserves
  refine ⟨List.pairwise_map.mpr hdistinct, fun task htask => ?_⟩
  obtain ⟨row, hrow, rfl⟩ := List.mem_map.mp htask
  exact ⟨_, hchain.mem_admitted hrow, rfl, rfl⟩

end Admitted

/-- When a call of `reconcile_once` returns normally, every task that it has reserved is submitted with the
job of its own launch, failed for an invalid definition, or pending again, if and only if no launch has
found the backend unavailable but that of the last task of the batch. -/
theorem reservations_released {lease lease' : Option ControllerLease} {result : ReconcileResult}
    (hrun : (controller.reconcileOnce lease now).Runs (Answers apiCall) store trace (.ok result, lease') store') :
    (∀ batch, reserved controller.submissionBatchSize now batch ∈ trace → ∀ task ∈ batch,
      ∃ row ∈ store'.tasks.rows, row.taskId = task.taskId ∧ Released controller trace task row) ↔
    ∀ batch, reserved controller.submissionBatchSize now batch ∈ trace → ∀ task spec priority e,
      launched task spec priority (.error e) ∈ trace → e.kind = .backendUnavailable →
        batch.getLast? = some task := by
  rcases reconcileOnce_admits hrun with hidle | ⟨before, after, batch, admitting, mid, submitted, hadmitted⟩
  · exact ⟨fun _ batch hmem => absurd hmem (Idle.not_reserved hidle _),
      fun _ batch hmem => absurd hmem (Idle.not_reserved hidle _)⟩
  · obtain ⟨hdistinct, hrows⟩ := hadmitted.batch_reserved
    obtain ⟨⟨done, rest, rfl, hend⟩, -⟩ := launchTasks_ends hdistinct hrows hadmitted.launches
    have hiff := hend.released_iff hdistinct
    simp only [hadmitted.reserved_iff, hadmitted.launched_iff, forall_eq]
    refine Iff.trans (forall₂_congr fun task _ => ?_) hiff
    unfold Shows
    refine exists_congr fun row => and_congr_right fun _ => and_congr_right fun _ => ?_
    unfold Released
    simp only [hadmitted.launched_iff]
    rfl

/-- The event admits a batch with a task. -/
def reservesTask (limit : ℤ) (now : Time) (taskId : String) : Sigma Operation.Reply → Bool
  | ⟨.store (.reserveSubmissions l) n, .ok batch⟩ => l = limit && n = some now && batch.any (·.taskId = taskId)
  | _ => false

/-- The check finds the admission of the task. -/
theorem reserved_of_check {limit : ℤ} {event : Sigma Operation.Reply}
    (h : reservesTask limit now taskId event = true) :
    ∃ batch, event = reserved limit now batch ∧ ∃ task ∈ batch, task.taskId = taskId := by
  unfold reservesTask at h
  split at h
  · rename_i l n batch
    simp only [Bool.and_eq_true, decide_eq_true_eq] at h
    obtain ⟨⟨rfl, rfl⟩, htask⟩ := h
    obtain ⟨task, hmem, hid⟩ := List.any_eq_true.mp htask
    exact ⟨batch, rfl, task, hmem, of_decide_eq_true hid⟩
  · cases h

/-- The event is a launch that raised. -/
def launchRaises : Sigma Operation.Reply → Bool
  | ⟨.launch _ _ _, .error _⟩ => true
  | _ => false

/-- Two tasks of the sample kind. -/
def twoTasks : SwarmStore :=
  SwarmStore.empty.after [(.submitTask sampleTask, 0), (.submitTask { sampleTask with taskId := "t2" }, 0)]

/-- The controller gets a lease and an empty job list, and admits what is pending. -/
def admitChoices : List Choice :=
  [.store [] 1, .store [] 1, .listJobs [] (.ok []), .store [] 1, .store [] 1, .store [] 1]

/-- Both tasks are launched, the second one while a checkpoint is recorded. -/
def launchBoth : List Choice :=
  admitChoices ++ [.launch [] (.ok ⟨"7", "one", "PENDING", 0, none⟩), .store [] 2,
    .launch [(.recordCheckpoint "t1" ⟨"gs://a", 1, Dict.empty⟩, 3)] (.ok ⟨"8", "two", "PENDING", 0, none⟩),
      .store [] 4]

/-- The backend is unavailable at the first launch. -/
def launchFails : List Choice :=
  admitChoices ++ [.launch [] (.error ⟨.backendUnavailable, "connection refused"⟩), .store [] 2]

/-- A call that launches both tasks of its batch. -/
theorem reservations_released_both : ∃ trace result lease store',
    (sampleController.reconcileOnce none 1).Runs (Answers apiCall) twoTasks trace (.ok result, lease) store' ∧
      (∃ batch, reserved 32 1 batch ∈ trace ∧ ∃ task ∈ batch, task.taskId = "t2") ∧
      ∀ batch, reserved 32 1 batch ∈ trace → ∀ task ∈ batch,
        ∃ row ∈ store'.tasks.rows, row.taskId = task.taskId ∧ Released sampleController trace task row := by
  have hcheck : ((playSession apiCall (sampleController.reconcileOnce none 1) twoTasks launchBoth).any
      fun (trace, outcome, _) => outcome.1.toOption.isSome && trace.any (reservesTask 32 1 "t2") &&
        trace.all fun event => !launchRaises event) = true := by decide +kernel
  obtain ⟨⟨trace, ⟨outcome, lease⟩, store'⟩, hplay, hchecks⟩ := (Option.any_eq_true _ _).mp hcheck
  simp only [Bool.and_eq_true] at hchecks
  obtain ⟨⟨hok, hreserved⟩, hlaunches⟩ := hchecks
  obtain ⟨result, hresult⟩ := Option.isSome_iff_exists.mp hok
  obtain rfl := toOption_eq_some.mp hresult
  have hrun := runs_of_playSession hplay
  obtain ⟨event, hevent, hreserves⟩ := List.any_eq_true.mp hreserved
  obtain ⟨batch, rfl, htask⟩ := reserved_of_check hreserves
  refine ⟨trace, result, lease, store', hrun, ⟨batch, hevent, htask⟩, (reservations_released hrun).mpr ?_⟩
  intro batch _ task spec priority e hmem
  have hraises := List.all_eq_true.mp hlaunches _ hmem
  cases hraises

/-- The first launch of a batch of two finds the backend unavailable: the call returns normally, and the
second task is left in its reservation without a launch. -/
theorem reservation_left_behind : ∃ trace result lease store',
    (sampleController.reconcileOnce none 1).Runs (Answers apiCall) twoTasks trace (.ok result, lease) store' ∧
      ∃ batch, reserved 32 1 batch ∈ trace ∧ ∃ task ∈ batch,
        ∃ row ∈ store'.tasks.rows, row.taskId = task.taskId ∧ row.status = .submitting := by
  have hcheck : ((playSession apiCall (sampleController.reconcileOnce none 1) twoTasks launchFails).any
      fun (trace, outcome, store') => outcome.1.toOption.isSome && trace.any (reservesTask 32 1 "t2") &&
        store'.tasks.rows.any fun row => row.taskId = "t2" && row.status = .submitting) = true := by decide +kernel
  obtain ⟨⟨trace, ⟨outcome, lease⟩, store'⟩, hplay, hchecks⟩ := (Option.any_eq_true _ _).mp hcheck
  simp only [Bool.and_eq_true] at hchecks
  obtain ⟨⟨hok, hreserved⟩, hwaiting⟩ := hchecks
  obtain ⟨result, hresult⟩ := Option.isSome_iff_exists.mp hok
  obtain rfl := toOption_eq_some.mp hresult
  obtain ⟨event, hevent, hreserves⟩ := List.any_eq_true.mp hreserved
  obtain ⟨batch, rfl, task, htask, hid⟩ := reserved_of_check hreserves
  obtain ⟨row, hrow, hcolumns⟩ := List.any_eq_true.mp hwaiting
  obtain ⟨hrowId, hstatus⟩ := Bool.and_eq_true_iff.mp hcolumns
  exact ⟨trace, result, lease, store', runs_of_playSession hplay, batch, hevent, task, htask, row, hrow,
    (of_decide_eq_true hrowId).trans hid.symm, of_decide_eq_true hstatus⟩

end TPUSwarm
