import TPUSwarm.Solo.Cycle
import TPUSwarm.Solo.Schedule

/-!
# When a listed job is launched again

A launch that raises may have created its job. The task is sent back to `PENDING`, where
adoption by name does not look, and the next cycle launches it again although it has
received the job in its list. Cycles that admit a batch only while no pending task is
listed launch no listed job, and have adopted every listed job of a submission.
-/

namespace TPUSwarm

open Common Relation SwarmStore

/-- No job of the list has the name. -/
theorem byName_eq_none {jobs : List ExecutorJob} {name : String} :
    byName jobs name = none ↔ ∀ job ∈ jobs, job.name ≠ name := by
  simp [byName]

/-- A task whose identifier is listed is observed under this identifier. -/
theorem listedJob_jobId {jobs : List ExecutorJob} {jobId name : String} {job : ExecutorJob}
    (hshown : ∃ shown ∈ jobs, shown.jobId = jobId) (hjob : listedJob jobs jobId name = some job) :
    job.jobId = jobId := by
  obtain ⟨shown, hmem, hid⟩ := hshown
  unfold listedJob at hjob
  cases hfound : byId jobs jobId with
  | none => exact absurd (decide_eq_true hid) (List.find?_eq_none.mp hfound shown (List.mem_reverse.mpr hmem))
  | some found =>
    rw [hfound] at hjob
    obtain rfl : found = job := Option.some.inj hjob
    simpa using List.find?_some hfound

/-- No pending task has the name of a job in the list received last. -/
def NoPendingListed (site : Site) : Prop :=
  ∀ row ∈ site.store.tasks.rows, row.status = .pending → ∀ job ∈ site.listed, job.name ≠ row.jobName

namespace Deployment

variable {D : Deployment}

/-- If the next operation admits a batch, no pending task is listed. -/
def Heeds (s : D.SystemState) : Prop :=
  ∀ call now next, s.progs () = .op (.store call now) next → call.isAdmission = true →
    NoPendingListed s.world

/-- The deployment whose admissions all find no pending task listed. -/
def heeding (D : Deployment) : Deployment :=
  { D with admits := fun site => D.admits site ∧ NoPendingListed site }

/-- A state of the system as a state of the heeding one. -/
def heed (s : D.SystemState) : D.heeding.SystemState := ⟨s.world, s.progs⟩

/-- A step from a state that heeds is a step of the heeding deployment. -/
theorem step_heeding {s s' : D.SystemState} (h : D.system.Step s s') (hheeds : Heeds s) :
    D.heeding.system.Step (heed s) (heed s') := by
  cases h with
  | act i hop hexec =>
    refine .act (s := heed s) i hop ?_
    cases hexec with
    | store hadmits hperform =>
      exact .store (fun hcall => ⟨hadmits hcall, hheeds _ _ _ hop hcall⟩) hperform
    | listJobs hlists => exact .listJobs hlists
    | listFails => exact .listFails
    | launch hlaunches => exact .launch hlaunches
  | begin i hidle hbegin => exact .begin (s := heed s) i hidle hbegin
  | crash i hcrash => exact .crash (s := heed s) i hcrash
  | env henv => exact .env (s := heed s) henv

/-- A run whose states heed is a run of the heeding deployment. -/
theorem run_heeding {s s' : D.SystemState}
    (h : ReflTransGen (fun a b => D.system.Step a b ∧ Heeds a) s s') :
    D.heeding.system.Run (heed s) (heed s') := by
  induction h with
  | refl => exact .refl
  | tail _ hstep ih => exact ih.tail (step_heeding hstep.1 hstep.2)

end Deployment

/-- No task of the batch is listed. -/
def BatchUnlisted (m : Machine) : Prop :=
  ∀ task ∈ m.phase.batch, ∀ job ∈ m.site.listed, job.name ≠ task.jobName

/-- Moves of a controller whose admissions find no pending task listed keep its batch unlisted. -/
theorem BatchUnlisted.move {D : Deployment} (hadmits : ∀ site, D.admits site → NoPendingListed site)
    {m m' : Machine} (h : Move D m m') (hm : BatchUnlisted m) : BatchUnlisted m' := by
  cases h with
  | quiet | launch => exact hm
  | list | adopt | expire | observe | giveUp | stop => exact fun task htask => absurd htask List.not_mem_nil
  | reserve hsite _ hchain =>
    intro task htask
    obtain ⟨row, hrow, rfl⟩ := List.mem_map.mp htask
    obtain ⟨hmem, hpending⟩ := hchain.mem_pending hrow
    exact hadmits _ hsite row hmem hpending
  | refuse | bind => exact fun task htask => hm task (List.mem_cons_of_mem _ htask)

/-- Every state that the heeding deployment reaches stands for a machine whose batch is unlisted. -/
theorem Deployment.Reachable.unlisted {D : Deployment} {s : D.heeding.SystemState} (h : D.heeding.Reachable s) :
    ∃ m, (simulation D.heeding).Related m s ∧ BatchUnlisted m := by
  obtain ⟨m, hmoves, hrelated⟩ := h.related
  refine ⟨m, hrelated, Pool.Simulation.keeps (simulation D.heeding) (K := BatchUnlisted) (fun m m' _ hmove hm => ?_)
    hmoves Invariant.initial fun task htask => absurd htask List.not_mem_nil⟩
  rcases hmove with ⟨store', -, rfl⟩ | ⟨_, hmove⟩
  · exact hm
  · exact hm.move (fun _ hsite => And.right hsite) hmove

/-- A row is being submitted and the list shows the job under its name, or it has been bound to this job. -/
def AdoptingRow (listed : List ExecutorJob) (job : ExecutorJob) (row : TaskRow) : Prop :=
  (row.status = .submitting ∧ byName listed row.jobName = some job) ∨
    (row.status ≠ .submitting ∧ row.status ≠ .pending ∧ row.jobId = some job.jobId ∧ job ∈ listed)

/-- The task is to be bound to a listed job, or has been. -/
def Adopting (listed : List ExecutorJob) (taskId : String) (job : ExecutorJob) (store : SwarmStore) : Prop :=
  ∃ row ∈ store.tasks.rows, row.taskId = taskId ∧ AdoptingRow listed job row

namespace AdoptingRow

variable {listed : List ExecutorJob} {job : ExecutorJob} {row : TaskRow}

/-- A row that is being adopted is not pending. -/
theorem not_pending (h : AdoptingRow listed job row) : row.status ≠ .pending := by
  rcases h with ⟨hstatus, -⟩ | ⟨-, hstatus, -⟩
  · rw [hstatus]
    decide
  · exact hstatus

/-- A row bound to the job that the list shows under its name. -/
theorem bound (h : AdoptingRow listed job row) (hstatus : row.status = .submitting) {jobId : String}
    (hlisted : ∃ job', byName listed row.jobName = some job' ∧ job'.jobId = jobId) (status : String) (now : Time) :
    AdoptingRow listed job (row.bound jobId status now) := by
  rcases h with ⟨-, hjob⟩ | ⟨hother, -⟩
  · obtain ⟨job', hjob', rfl⟩ := hlisted
    obtain rfl := Option.some.inj (hjob.symm.trans hjob')
    exact Or.inr ⟨by simp [TaskRow.bound], by simp [TaskRow.bound], rfl,
      List.mem_reverse.mp (List.mem_of_find?_eq_some hjob)⟩
  · exact absurd hstatus hother

/-- A row that is observed by its job identifier keeps it. -/
theorem observed (h : AdoptingRow listed job row) (hactive : row.status = .submitted ∨ row.status = .running)
    {jobId : String} (hjobId : row.jobId = some jobId) {found : ExecutorJob}
    (hfound : listedJob listed jobId row.jobName = some found) (now : Time) :
    AdoptingRow listed job (row.observed found now) := by
  rcases h with ⟨hstatus, -⟩ | ⟨-, -, hjob, hmem⟩
  · rw [hstatus] at hactive
    rcases hactive with h | h <;> cases h
  · obtain rfl := Option.some.inj (hjobId.symm.trans hjob)
    have hid : found.jobId = job.jobId := listedJob_jobId ⟨job, hmem, rfl⟩ hfound
    obtain ⟨hpending, hsubmitting⟩ := taskStatus_ne found.status
    exact Or.inr ⟨hsubmitting, hpending, congrArg some hid, hmem⟩

/-- No task of the batch is such a row. -/
theorem not_batched (h : AdoptingRow listed job row) {m : Machine} (hinv : Invariant m) (hm : BatchUnlisted m)
    (hlisted : m.site.listed = listed) (hrow : row ∈ m.site.store.tasks.rows) : ¬ m.Batched row.taskId := by
  rintro ⟨task, htask, hid⟩
  obtain ⟨r, hr, hrid, hstatus, hname⟩ := hinv.awaits task htask
  obtain rfl := m.site.store.task_unique hr hrow (hrid.trans hid)
  rcases h with ⟨-, hjob⟩ | ⟨hother, -⟩
  · have hsame : job.name = r.jobName := by simpa using List.find?_some hjob
    have hmem : job ∈ m.site.listed := hlisted ▸ List.mem_reverse.mp (List.mem_of_find?_eq_some hjob)
    exact hm task htask job hmem (hsame.trans hname)
  · exact hother hstatus

end AdoptingRow

namespace Adopting

variable {listed : List ExecutorJob} {job : ExecutorJob} {taskId : String} {store store' : SwarmStore}

/-- A quiet change of the store keeps the adoption going. -/
theorem quiet (h : Adopting listed taskId job store) (hquiet : Quiet store store') :
    Adopting listed taskId job store' := by
  obtain ⟨row, hrow, hid, hadopting⟩ := h
  obtain ⟨row', hrow', hcore⟩ := hquiet.tasks.kept hrow
  refine ⟨row', hrow', (TaskRow.column_eq hcore TaskRow.taskId fun _ => rfl).trans hid, ?_⟩
  rw [AdoptingRow, TaskRow.column_eq hcore TaskRow.status fun _ => rfl,
    TaskRow.column_eq hcore TaskRow.jobName fun _ => rfl, TaskRow.column_eq hcore TaskRow.jobId fun _ => rfl]
  exact hadopting

/-- A rewrite of one row, if the row is another one or the new row will do. -/
theorem rewrite (h : Adopting listed taskId job store) {row row' : TaskRow}
    (hrewrites : Rewrites store store' row row')
    (hrow : row.taskId = taskId → AdoptingRow listed job row → AdoptingRow listed job row') :
    Adopting listed taskId job store' := by
  obtain ⟨r, hr, hid, hadopting⟩ := h
  by_cases hsame : r.taskId = row.taskId
  · obtain rfl := store.task_unique hr hrewrites.mem hsame
    exact ⟨row', hrewrites.mem', hrewrites.sameId.trans hid, hrow hid hadopting⟩
  · exact ⟨r, hrewrites.mem_iff.mpr (Or.inr ⟨hr, hsame⟩), hid, hadopting⟩

/-- An admission keeps the adoption going. -/
theorem admissions {now : Time} {rows : List TaskRow} (h : Adopting listed taskId job store)
    (hchain : Admissions now store rows store') : Adopting listed taskId job store' := by
  induction hchain with
  | nil => exact h
  | cons first _ ih => exact ih (h.rewrite first.rewrites fun _ hrow => absurd first.pending hrow.not_pending)

/-- A call of a cycle that is permitted does nothing else to such a task than bind it to the listed job, and keeps
the job of one that is bound. -/
theorem call {m : Machine} (hinv : Invariant m) (hm : BatchUnlisted m) (hlisted : m.site.listed = listed)
    (h : Adopting listed taskId job m.site.store) {call : Call} {time : Option Time} {now : Time}
    {result : call.Result}
    (hpermitted : Permitted (.store call time) m) (hrun : call.run now m.site.store = .ok (result, store')) :
    Adopting listed taskId job store' := by
  cases htransition : call.isTransition with
  | false => exact h.quiet (Call.quiet htransition hrun)
  | true =>
    cases call with
    | reserveSubmissions limit =>
      obtain ⟨admitted, -, hchain, -⟩ := SwarmStore.reserveSubmissions_eq_ok hrun
      exact h.admissions hchain
    | bindJob id jobId status =>
      obtain ⟨row, hid, -, -, hrewrites, -⟩ := SwarmStore.bindJob_eq_ok hrun
      refine h.rewrite hrewrites fun _ hrow => ?_
      rcases hpermitted with hbatched | hadopt
      · exact absurd (hid ▸ hbatched) (hrow.not_batched hinv hm hlisted hrewrites.mem)
      · obtain ⟨hstatus, hjob⟩ := hadopt row hrewrites.mem hid
        exact hrow.bound hstatus (hlisted ▸ hjob) status now
    | resetSubmission id reason =>
      obtain ⟨row, hid, hstatus, -, hrewrites, -⟩ := SwarmStore.resetSubmission_eq_ok hrun
      refine h.rewrite hrewrites fun _ hrow => ?_
      rcases hpermitted with hbatched | hexpire
      · exact absurd (hid ▸ hbatched) (hrow.not_batched hinv hm hlisted hrewrites.mem)
      · rcases hrow with ⟨-, hjob⟩ | ⟨hother, -⟩
        · have hnone := hexpire row hrewrites.mem hid
          rw [hlisted, hjob] at hnone
          cases hnone
        · exact absurd hstatus hother
    | failTask id reason =>
      obtain ⟨row, hid, hreported⟩ := SwarmStore.failTask_eq_ok hrun
      refine h.rewrite hreported.rewrites fun _ hrow => ?_
      exact absurd (hid ▸ hpermitted) (hrow.not_batched hinv hm hlisted hreported.rewrites.mem)
    | observeJob id found =>
      obtain ⟨row, hid, hreported⟩ := SwarmStore.observeJob_eq_ok hrun
      obtain ⟨hactive, jobId, hjobId, hfound⟩ := hpermitted row hreported.rewrites.mem hid
      exact h.rewrite hreported.rewrites fun _ hrow => hrow.observed hactive hjobId (hlisted ▸ hfound) now
    | _ => cases htransition

/-- Every step does so, while the list received stays the same. -/
theorem step {D : Deployment} {m : Machine} {s s' : D.SystemState} (hrelated : (simulation D).Related m s)
    (hm : BatchUnlisted m) (hlisted : s.world.listed = listed) (h : Adopting listed taskId job s.world.store)
    (hstep : D.system.Step s s') : Adopting listed taskId job s'.world.store := by
  have hview : m.site = s.world := hrelated.view
  cases hstep with
  | act i hop hexec =>
    have hpermitted := hrelated.permitted hop
    cases hexec with
    | store _ hperform =>
      rw [← hview] at hperform hlisted h
      rcases Call.perform_cases hperform with ⟨_, -, rfl⟩ | ⟨result, -, hrun⟩
      · exact h
      · exact h.call hrelated.inv hm hlisted hpermitted hrun
    | _ => exact h
  | begin i hidle hbegin =>
    rw [hbegin.1]
    exact h
  | crash i hcrash =>
    rw [hcrash.1]
    exact h
  | env henv =>
    obtain ⟨call, now, hapi, rfl⟩ := henv
    have htransition : call.isTransition = false := by
      cases call <;> first | rfl | cases hapi
    rcases call.perform_store now s.world.store with hsame | ⟨result, hrun⟩
    · change Adopting listed taskId job (call.perform now s.world.store).2
      rwa [hsame]
    · exact h.quiet (Call.quiet htransition hrun)

end Adopting

namespace Deployment

variable {D : Deployment}

/-- A step of a run whose admissions heed, in which the list of jobs received last stays the same. -/
def HeedsListed (s s' : D.SystemState) : Prop :=
  D.system.Step s s' ∧ Heeds s ∧ s'.world.listed = s.world.listed

/-- While the list stays the same, a listed submission waits for its adoption or has been adopted as the listed
job. -/
theorem Reachable.adopts {s s' : D.SystemState} (h : D.heeding.Reachable (heed s))
    (hrun : ReflTransGen HeedsListed s s') {taskId : String} {job : ExecutorJob}
    (hadopting : Adopting s.world.listed taskId job s.world.store) :
    D.heeding.Reachable (heed s') ∧ s'.world.listed = s.world.listed ∧
      Adopting s.world.listed taskId job s'.world.store := by
  induction hrun with
  | refl => exact ⟨h, rfl, hadopting⟩
  | @tail mid last _ hstep ih =>
    obtain ⟨hreachable, hlisted, hmid⟩ := ih
    obtain ⟨hstep, hheeds, hsame⟩ := hstep
    obtain ⟨m, hrelated, hm⟩ := hreachable.unlisted
    have hheeding := step_heeding hstep hheeds
    have hlast := Adopting.step (D := D.heeding) hrelated hm hlisted hmid hheeding
    exact ⟨hreachable.tail hheeding, hsame.trans hlisted, hlast⟩

end Deployment

/-- If every admission of a run finds no pending task listed, then no launch is for a task
that is listed. A submission that is listed keeps waiting until it has been adopted: when the
next batch is to be admitted it has the job identifier of the listed job. Every listed task has
been adopted then if and only if no pending task is listed again. -/
theorem listed_never_launched {D : Deployment} {s : D.SystemState}
    (h : ReflTransGen (fun a b => D.system.Step a b ∧ Deployment.Heeds a) D.initial s) :
    (∀ task spec priority next, s.progs () = .op (.launch task spec priority) next →
      ∀ job ∈ s.world.listed, job.name ≠ task.jobName) ∧
    (∀ row ∈ s.world.store.tasks.rows, row.status = .submitting → ∀ job,
      byName s.world.listed row.jobName = some job → ∀ s', ReflTransGen Deployment.HeedsListed s s' →
        ∃ row' ∈ s'.world.store.tasks.rows, row'.taskId = row.taskId ∧
          (row'.status = .submitting ∨ row'.jobId = some job.jobId) ∧
          ∀ limit now next, s'.progs () = .op (.store (.reserveSubmissions limit) now) next →
            row'.jobId = some job.jobId) ∧
    (∀ limit now next, s.progs () = .op (.store (.reserveSubmissions limit) now) next →
      ((∀ row ∈ s.world.store.tasks.rows, (∃ job ∈ s.world.listed, job.name = row.jobName) →
        row.status ≠ .pending ∧ row.status ≠ .submitting) ↔ NoPendingListed s.world)) := by
  have hreachable : D.heeding.Reachable (Deployment.heed s) := Deployment.run_heeding h
  obtain ⟨m, hrelated, hunlisted⟩ := hreachable.unlisted
  have hsite : m.site = s.world := hrelated.view
  refine ⟨fun task spec priority next hop => ?_, fun row hrow hstatus job hjob s' hrun => ?_,
    fun limit now next hop => ⟨fun hadopted row hrow hpending job hjob hname => ?_,
      fun hpending row hrow ⟨job, hjob, hname⟩ => ⟨fun hstatus => ?_, fun hstatus => ?_⟩⟩⟩
  · obtain ⟨rest, hphase⟩ := hrelated.permitted hop
    rw [← hsite]
    exact hunlisted task (by rw [hphase]; exact List.mem_cons_self)
  · obtain ⟨hreachable', hlisted, row', hrow', hid, hadopting⟩ :=
      hreachable.adopts hrun ⟨row, hrow, rfl, Or.inl ⟨hstatus, hjob⟩⟩
    refine ⟨row', hrow', hid, hadopting.imp And.left fun hbound => hbound.2.2.1, fun limit now next hop => ?_⟩
    rcases hadopting with ⟨hsubmitting, hjob'⟩ | hbound
    · -- An admission is only made once no submission is listed.
      obtain ⟨m', hrelated', -⟩ := hreachable'.unlisted
      have hpermitted : Permitted (.store (.reserveSubmissions limit) now) m' := hrelated'.permitted hop
      have hview : m'.site = s'.world := hrelated'.view
      have hnone := hpermitted row' (hview ▸ hrow') hsubmitting
      rw [hview, hlisted, hjob'] at hnone
      cases hnone
    · exact hbound.2.2.1
  · exact (hadopted row hrow ⟨job, hjob, hname⟩).1 hpending
  · exact hpending row hrow hstatus job hjob hname
  · have hpermitted := hrelated.permitted hop
    rw [← hsite] at hrow hjob
    exact byName_eq_none.mp (hpermitted row hrow hstatus) job hjob hname

instance (site : Site) : Decidable (NoPendingListed site) := by
  unfold NoPendingListed
  infer_instance

/-- A check that a state heeds. -/
def Deployment.heeds? {D : Deployment} (s : D.SystemState) : Bool :=
  match s.progs () with
  | .op (.store call _) _ => !call.isAdmission || decide (NoPendingListed s.world)
  | _ => true

/-- What passes the check heeds the list. -/
theorem Deployment.heeds_of_check {D : Deployment} {s : D.SystemState} (h : heeds? s = true) : Heeds s := by
  intro call now next hop hcall
  simpa [heeds?, hop, hcall] using h

/-- The next operation is the launch of a task, with a list of jobs received before. -/
def launchesWithJobs {D : Deployment} (s : D.SystemState) : Bool :=
  match s.progs () with
  | .op (.launch _ _ _) _ => s.world.listed ≠ []
  | _ => false

/-- A cycle that received the job of someone else is about to launch the sample task. -/
theorem listed_never_launched_other : ∃ s : (Deployment.anyBackend sampleController).SystemState,
    s.world.listed ≠ [] ∧ ∃ task spec priority next,
      s.progs () = .op (.launch task spec priority) next ∧ ∀ job ∈ s.world.listed, job.name ≠ task.jobName := by
  have hcheck : ((Pool.plays ((Deployment.anyBackend sampleController).playWhile fun s _ => Deployment.heeds? s)
      (Deployment.admitCommands rfl [⟨"3", "other", "RUNNING", 0, none⟩])
      (Deployment.initial _)).any launchesWithJobs) = true := by
    decide +kernel
  obtain ⟨s, hs, hcheck⟩ := (Option.any_eq_true _ _).mp hcheck
  unfold launchesWithJobs at hcheck
  split at hcheck
  · rename_i task spec priority next hop
    refine ⟨s, of_decide_eq_true hcheck, task, spec, priority, next, hop, ?_⟩
    refine (listed_never_launched (Pool.star_of_plays (fun _ _ _ h => ?_) hs)).1 task spec priority next hop
    obtain ⟨hstep, hheeds⟩ := Deployment.playWhile_step _ h
    exact ⟨hstep, Deployment.heeds_of_check hheeds⟩
  · cases hcheck

/-- A backend that lists exactly the jobs it created. A launch that raises may have created one. -/
def Deployment.lossy (controller : TPUSwarmController) : Deployment where
  controllers := (· = controller)
  lists site jobs := jobs.map (fun job => RemoteJob.mk job.jobId job.name) = site.created
  launches site spec outcome jobs :=
    (∀ job ∈ jobs, job.name = spec.name ∧ job ∉ site.created) ∧
      match outcome with
      | .ok job => jobs = [⟨job.jobId, spec.name⟩]
      | .error e => e.kind = .backendUnavailable ∧ jobs.length ≤ 1

instance (controller : TPUSwarmController) (site : Site) (jobs : List ExecutorJob) :
    Decidable ((Deployment.lossy controller).lists site jobs) := by
  unfold Deployment.lossy
  infer_instance

instance (controller : TPUSwarmController) (site : Site) :
    Decidable ((Deployment.lossy controller).admits site) := isTrue trivial

instance (controller : TPUSwarmController) (site : Site) (spec : ManagedJobSpec)
    (outcome : Except PyError ExecutorJob) (jobs : List RemoteJob) :
    Decidable ((Deployment.lossy controller).launches site spec outcome jobs) := by
  unfold Deployment.lossy
  cases outcome <;> infer_instance

/-- The next operation launches a task that is listed. -/
def launchesListed {D : Deployment} (s : D.SystemState) : Bool :=
  match s.progs () with
  | .op (.launch task _ _) _ => (byName s.world.listed task.jobName).isSome
  | _ => false

/-- The launch of the sample task creates its job and raises. The next cycle receives the job
in its list and is about to launch the task again. -/
theorem listed_launched_again : ∃ s : (Deployment.lossy sampleController).SystemState,
    (Deployment.lossy sampleController).Reachable s ∧
      ∃ task spec priority next, s.progs () = .op (.launch task spec priority) next ∧
        ∃ job ∈ s.world.listed, job.name = task.jobName := by
  obtain ⟨s, hreachable, hcheck⟩ := (Deployment.lossy sampleController).reachable_of_check
    (Deployment.launchCommands rfl (.error ⟨.backendUnavailable, "response lost"⟩)
        [⟨"7", executorName "t1"⟩] ++ [.store 1] ++
      Deployment.listCommands rfl 2 [sampleJob "PENDING"] ++ [.store 2, .store 2, .store 2])
    launchesListed (by decide +kernel)
  unfold launchesListed at hcheck
  split at hcheck
  · rename_i task spec priority next hop
    obtain ⟨job, hjob⟩ := Option.isSome_iff_exists.mp hcheck
    refine ⟨s, hreachable, task, spec, priority, next, hop, job, ?_, by simpa using List.find?_some hjob⟩
    exact List.mem_reverse.mp (List.mem_of_find?_eq_some hjob)
  · cases hcheck

end TPUSwarm
