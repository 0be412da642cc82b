import TPUSwarm.Solo.Relaunch
import TPUSwarm.Solo.Runs

/-!
# At most one job for each task

With a backend whose launch creates one job or none, a task that is pending has no job, a
task that has a job identifier names a job that was created under its name, and a list of
jobs shows every job that a crash has cut off from its task. The invariant relates the jobs
created so far to the rows of the task table and to the phase of the controller.
-/

namespace TPUSwarm

open Common Relation SwarmStore

/-- A list of jobs that contains every job created so far. A job of someone else in it has
another name than a task that is being submitted. -/
def Lists (site : Site) (jobs : List ExecutorJob) : Prop :=
  (∀ r ∈ site.created, ∃ job ∈ jobs, job.jobId = r.jobId ∧ job.name = r.name) ∧
    ∀ job ∈ jobs, ⟨job.jobId, job.name⟩ ∈ site.created ∨
      ∀ row ∈ site.store.tasks.rows, row.status = .submitting → job.name ≠ row.jobName

/-- A list of jobs that contains every job created so far, beside any others. -/
def ShowsCreated (site : Site) (jobs : List ExecutorJob) : Prop :=
  ∀ r ∈ site.created, ∃ job ∈ jobs, job.jobId = r.jobId ∧ job.name = r.name

/-- A launch creates one job with a fresh identifier and the name asked for, or it raises
`BackendUnavailableError` and creates nothing. -/
def LaunchesOne (site : Site) (spec : ManagedJobSpec) (jobs : List RemoteJob) :
    Except PyError ExecutorJob → Prop
  | .ok job => job.name = spec.name ∧ (∀ r ∈ site.created, r.jobId ≠ job.jobId) ∧
      jobs = [⟨job.jobId, spec.name⟩]
  | .error e => e.kind = .backendUnavailable ∧ jobs = []

/-- The deployment of some controllers with a backend that keeps these promises. -/
def Deployment.honest (controllers : TPUSwarmController → Prop) : Deployment where
  controllers := controllers
  lists := Lists
  launches site spec outcome jobs := LaunchesOne site spec jobs outcome

/-- The same deployment, but for a list that may also hold a foreign job of any name. -/
def Deployment.shared (controllers : TPUSwarmController → Prop) : Deployment :=
  { honest controllers with lists := ShowsCreated }

/-- No job with the name was created. -/
def Unlaunched (created : List RemoteJob) (name : String) : Prop := ∀ job ∈ created, job.name ≠ name

/-- The jobs created so far and the task table agree. -/
structure Accounted (created : List RemoteJob) (store : SwarmStore) : Prop where
  bound : ∀ row ∈ store.tasks.rows, ∀ jobId, row.jobId = some jobId → ⟨jobId, row.jobName⟩ ∈ created
  pending : ∀ row ∈ store.tasks.rows, row.status = .pending → Unlaunched created row.jobName
  owned : ∀ job ∈ created, ∃ row ∈ store.tasks.rows, row.jobName = job.name

namespace Accounted

variable {created : List RemoteJob} {store store' : SwarmStore}

/-- Quiet steps keep the account: the only new rows are pending and have new names. -/
theorem quiet (h : Accounted created store) (hquiet : Quiet store store') : Accounted created store' := by
  refine ⟨fun row hrow jobId hjob => ?_, fun row hrow hstatus job hjob hname => ?_, fun job hjob => ?_⟩
  · rcases hquiet.tasks.old_or_fresh hrow with ⟨r, hr, hcore⟩ | hfresh
    · rw [← TaskRow.column_eq hcore TaskRow.jobName fun _ => rfl]
      exact h.bound r hr jobId ((TaskRow.column_eq hcore TaskRow.jobId fun _ => rfl).trans hjob)
    · rw [((TaskRow.Coherent.of_fresh hfresh).pending hfresh.columns.1).1] at hjob
      cases hjob
  · obtain ⟨r, hr, hr_name⟩ := h.owned job hjob
    obtain ⟨r', hr', hcore⟩ := hquiet.tasks.kept hr
    have hname' : r'.jobName = row.jobName :=
      (TaskRow.column_eq hcore TaskRow.jobName fun _ => rfl).trans (hr_name.trans hname)
    obtain rfl := store'.jobName_unique hr' hrow hname'
    exact h.pending r hr ((TaskRow.column_eq hcore TaskRow.status fun _ => rfl).symm.trans hstatus) job hjob
      hr_name.symm
  · obtain ⟨r, hr, hname⟩ := h.owned job hjob
    obtain ⟨r', hr', hcore⟩ := hquiet.tasks.kept hr
    exact ⟨r', hr', (TaskRow.column_eq hcore TaskRow.jobName fun _ => rfl).trans hname⟩

/-- A rewrite keeps the account if the new row does. -/
theorem rewrite (h : Accounted created store) {row row' : TaskRow} (hrewrites : Rewrites store store' row row')
    (hname : row'.jobName = row.jobName)
    (hbound : ∀ jobId, row'.jobId = some jobId → ⟨jobId, row.jobName⟩ ∈ created)
    (hpending : row'.status = .pending → Unlaunched created row.jobName) : Accounted created store' := by
  refine ⟨fun r hr jobId hjob => ?_, fun r hr hstatus => ?_, fun job hjob => ?_⟩
  · rcases hrewrites.mem_iff.mp hr with rfl | ⟨hold, -⟩
    · rw [hname]
      exact hbound jobId hjob
    · exact h.bound r hold jobId hjob
  · rcases hrewrites.mem_iff.mp hr with rfl | ⟨hold, -⟩
    · rw [hname]
      exact hpending hstatus
    · exact h.pending r hold hstatus
  · obtain ⟨r, hr, hr_name⟩ := h.owned job hjob
    by_cases hid : r.taskId = row.taskId
    · obtain rfl := store.task_unique hr hrewrites.mem hid
      exact ⟨row', hrewrites.mem', hname.trans hr_name⟩
    · exact ⟨r, hrewrites.mem_iff.mpr (Or.inr ⟨hr, hid⟩), hr_name⟩

/-- A rewrite that leaves the job alone and does not make the row pending. -/
theorem rewrite_unbound (h : Accounted created store) {row row' : TaskRow}
    (hrewrites : Rewrites store store' row row') (hname : row'.jobName = row.jobName)
    (hjob : row'.jobId = row.jobId) (hstatus : row'.status ≠ .pending) : Accounted created store' :=
  h.rewrite hrewrites hname (fun jobId hsome => h.bound row hrewrites.mem jobId (hjob.symm.trans hsome))
    fun hpending => absurd hpending hstatus

/-- Admissions keep the account. -/
theorem admissions {now : Time} {rows : List TaskRow} (h : Accounted created store)
    (hchain : Admissions now store rows store') : Accounted created store' := by
  induction hchain with
  | nil => exact h
  | cons first _ ih => exact ih (h.rewrite_unbound first.rewrites rfl rfl (by simp [TaskRow.admitted]))

/-- A task that is being submitted gets a job of its name, which had none so far. -/
theorem launch (h : Accounted created store) {row : TaskRow} (hrow : row ∈ store.tasks.rows)
    (hstatus : row.status = .submitting) (jobId : String) :
    Accounted (created ++ [⟨jobId, row.jobName⟩]) store := by
  refine ⟨fun r hr id hjob => List.mem_append_left _ (h.bound r hr id hjob),
    fun r hr hpending job hjob hname => ?_, fun job hjob => ?_⟩
  · rcases List.mem_append.mp hjob with hold | hnew
    · exact h.pending r hr hpending job hold hname
    · rw [List.mem_singleton.mp hnew] at hname
      rw [store.jobName_unique hrow hr hname, hpending] at hstatus
      cases hstatus
  · rcases List.mem_append.mp hjob with hold | hnew
    · exact h.owned job hold
    · exact ⟨row, hrow, by rw [List.mem_singleton.mp hnew]⟩

end Accounted

/-- What a phase adds: the list received is right, the tasks still to be launched have no job,
and the answer of a launch says whether its task has one. -/
def Phase.Accounted (site : Site) : Phase → Prop
  | .idle => True
  | .observing => Lists site site.listed
  | .launching batch => ∀ task ∈ batch, Unlaunched site.created task.jobName
  | .launched task outcome rest => (∀ t ∈ rest, Unlaunched site.created t.jobName) ∧
      match outcome with
      | .ok job => ⟨job.jobId, task.jobName⟩ ∈ site.created
      | .error _ => Unlaunched site.created task.jobName

/-- What launches keep: no two jobs share a name, and the jobs agree with the tasks and the
phase. -/
structure LaunchInvariant (m : Machine) : Prop where
  names : m.site.created.Pairwise fun a b => a.name ≠ b.name
  accounted : Accounted m.site.created m.site.store
  phase : m.phase.Accounted m.site

namespace Lists

variable {site : Site} {jobs : List ExecutorJob}

/-- A change of the store keeps a list right if it starts no submission. -/
theorem of_store (h : Lists site jobs) {store' : SwarmStore}
    (hstore : ∀ row' ∈ store'.tasks.rows, row'.status = .submitting →
      ∃ row ∈ site.store.tasks.rows, row.status = .submitting ∧ row.jobName = row'.jobName) :
    Lists { site with store := store' } jobs := by
  refine ⟨h.1, fun job hjob => (h.2 job hjob).imp_right fun hforeign row' hrow' hsubmitting => ?_⟩
  obtain ⟨row, hrow, hstatus, hname⟩ := hstore row' hrow' hsubmitting
  rw [← hname]
  exact hforeign row hrow hstatus

/-- A quiet change of the store keeps a list right. -/
theorem quiet (h : Lists site jobs) {store' : SwarmStore} (hquiet : Quiet site.store store') :
    Lists { site with store := store' } jobs := by
  refine h.of_store fun row' hrow' hsubmitting => ?_
  rcases hquiet.tasks.old_or_fresh hrow' with ⟨row, hrow, hcore⟩ | hfresh
  · exact ⟨row, hrow, by rwa [TaskRow.column_eq hcore TaskRow.status fun _ => rfl],
      TaskRow.column_eq hcore TaskRow.jobName fun _ => rfl⟩
  · rw [hfresh.columns.1] at hsubmitting
    cases hsubmitting

/-- A rewrite that starts no submission keeps a list right. -/
theorem rewrite (h : Lists site jobs) {store' : SwarmStore} {row row' : TaskRow}
    (hrewrites : Rewrites site.store store' row row') (hstatus : row'.status ≠ .submitting) :
    Lists { site with store := store' } jobs := by
  refine h.of_store fun r hr hsubmitting => ?_
  rcases hrewrites.mem_iff.mp hr with rfl | ⟨hold, -⟩
  · exact absurd hsubmitting hstatus
  · exact ⟨r, hold, hsubmitting, rfl⟩

/-- A job that is listed under the name of a task being submitted was created for it. -/
theorem created_of_name (h : Lists site jobs) {row : TaskRow} (hrow : row ∈ site.store.tasks.rows)
    (hstatus : row.status = .submitting) {job : ExecutorJob} (hjob : byName jobs row.jobName = some job) :
    ⟨job.jobId, row.jobName⟩ ∈ site.created := by
  have hname : job.name = row.jobName := by simpa using List.find?_some hjob
  have hmem : job ∈ jobs := List.mem_reverse.mp (List.mem_of_find?_eq_some hjob)
  rw [← hname]
  exact (h.2 job hmem).resolve_right fun hforeign => hforeign row hrow hstatus hname

/-- A name that is not listed has no job. -/
theorem unlaunched_of_name (h : Lists site jobs) {name : String} (hnone : byName jobs name = none) :
    Unlaunched site.created name := by
  intro r hr hname
  obtain ⟨job, hjob, -, hjob_name⟩ := h.1 r hr
  exact byName_eq_none.mp hnone job hjob (hjob_name.trans hname)

/-- A task with a job that was created is observed under the identifier of this job. -/
theorem listed_jobId (h : Lists site jobs) {jobId name : String} (hbound : ⟨jobId, name⟩ ∈ site.created)
    {job : ExecutorJob} (hjob : listedJob jobs jobId name = some job) : job.jobId = jobId := by
  obtain ⟨shown, hshown, hid, -⟩ := h.1 _ hbound
  exact listedJob_jobId ⟨shown, hshown, hid⟩ hjob

end Lists

namespace LaunchInvariant

variable {controllers : TPUSwarmController → Prop} {m m' : Machine}

/-- The tasks of the rest of a batch have other names than its first task. -/
theorem rest_names {store : SwarmStore} {task : TaskRecord} {rest : List TaskRecord}
    (hawaits : ∀ t ∈ task :: rest, Awaits store t)
    (hdistinct : (task :: rest).Pairwise fun a b => a.taskId ≠ b.taskId) {t : TaskRecord} (ht : t ∈ rest) :
    task.jobName ≠ t.jobName := by
  intro hname
  obtain ⟨row, hrow, hid, -, hrow_name⟩ := hawaits task List.mem_cons_self
  obtain ⟨r, hr, hrid, -, hr_name⟩ := hawaits t (List.mem_cons_of_mem _ ht)
  have hsame := store.jobName_unique hrow hr (hrow_name.trans (hname.trans hr_name.symm))
  exact (List.pairwise_cons.mp hdistinct).1 t ht (by rw [← hid, ← hrid, hsame])

/-- A launch keeps the invariant. -/
theorem launch {site : Site} {task : TaskRecord} {rest : List TaskRecord} {spec : ManagedJobSpec}
    {outcome : Except PyError ExecutorJob} {jobs : List RemoteJob} (hname : spec.name = task.jobName)
    (hawaits : ∀ t ∈ task :: rest, Awaits site.store t)
    (hdistinct : (task :: rest).Pairwise fun a b => a.taskId ≠ b.taskId)
    (hlaunch : LaunchesOne site spec jobs outcome) (h : LaunchInvariant ⟨site, .launching (task :: rest)⟩) :
    LaunchInvariant ⟨{ site with created := site.created ++ jobs }, .launched task outcome rest⟩ := by
  obtain ⟨hnames, haccounted, hphase⟩ := h
  have hfirst : Unlaunched site.created task.jobName := hphase task List.mem_cons_self
  have hrest : ∀ t ∈ rest, Unlaunched site.created t.jobName := fun t ht =>
    hphase t (List.mem_cons_of_mem _ ht)
  cases outcome with
  | error e =>
    obtain ⟨-, rfl⟩ := hlaunch
    rw [List.append_nil]
    exact ⟨hnames, haccounted, hrest, hfirst⟩
  | ok job =>
    obtain ⟨-, -, rfl⟩ := hlaunch
    rw [hname]
    obtain ⟨row, hrow, -, hstatus, hrow_name⟩ := hawaits task List.mem_cons_self
    have hother : ∀ t ∈ rest, Unlaunched (site.created ++ [⟨job.jobId, task.jobName⟩]) t.jobName := by
      intro t ht r hr
      rcases List.mem_append.mp hr with hold | hnew
      · exact hrest t ht r hold
      · rw [List.mem_singleton.mp hnew]
        exact rest_names hawaits hdistinct ht
    refine ⟨?_, ?_, hother, List.mem_append_right _ List.mem_cons_self⟩
    · refine List.pairwise_append.mpr ⟨hnames, List.pairwise_singleton _ _, fun r hr x hx => ?_⟩
      rw [List.mem_singleton.mp hx]
      exact hfirst r hr
    · rw [← hrow_name]
      exact haccounted.launch hrow hstatus job.jobId

/-- Every move of a controller over an honest backend keeps the invariant. -/
theorem move (hnames : ∀ controller, controllers controller → ∀ task spec,
      controller.compileJob task = .ok spec → spec.name = task.jobName) (hinv : Invariant m)
    (hmove : Move (Deployment.honest controllers) m m') (h : LaunchInvariant m) : LaunchInvariant m' := by
  obtain ⟨hdistinct, haccounted, hphase⟩ := h
  cases hmove with
  | @quiet _ _ phase hquiet =>
    refine ⟨hdistinct, haccounted.quiet hquiet, ?_⟩
    cases phase with
    | observing => exact Lists.quiet hphase hquiet
    | idle | launching | launched => exact hphase
  | list hlists => exact ⟨hdistinct, haccounted, hlists⟩
  | adopt hstatus hlisted hrewrites =>
    refine ⟨hdistinct, haccounted.rewrite hrewrites rfl (fun jobId hjob => ?_) (by simp [TaskRow.bound]),
      Lists.rewrite hphase hrewrites (by simp [TaskRow.bound])⟩
    cases hjob
    exact Lists.created_of_name hphase hrewrites.mem hstatus hlisted
  | @expire _ _ row _ _ hstatus hlisted hrewrites =>
    exact ⟨hdistinct, haccounted.rewrite hrewrites rfl (haccounted.bound row hrewrites.mem)
      fun _ => Lists.unlaunched_of_name hphase hlisted,
      Lists.rewrite hphase hrewrites (by simp [TaskRow.reset])⟩
  | @observe _ _ row _ job _ hstatus hjob hlisted hreported =>
    have hmem := hreported.rewrites.mem
    have hbound := haccounted.bound _ hmem _ hjob
    obtain ⟨hnotPending, hnotSubmitting⟩ := taskStatus_ne job.status
    refine ⟨hdistinct, haccounted.rewrite hreported.rewrites rfl (fun jobId hnew => ?_)
      (fun hpending => absurd hpending hnotPending), Lists.rewrite hphase hreported.rewrites hnotSubmitting⟩
    cases hnew
    rw [Lists.listed_jobId hphase hbound hlisted]
    exact hbound
  | reserve _ _ hchain =>
    refine ⟨hdistinct, haccounted.admissions hchain, fun task htask => ?_⟩
    obtain ⟨row, hrow, rfl⟩ := List.mem_map.mp htask
    obtain ⟨hmem, hpending⟩ := hchain.mem_pending hrow
    exact haccounted.pending row hmem hpending
  | refuse _ hreported =>
    exact ⟨hdistinct, haccounted.rewrite_unbound hreported.rewrites rfl rfl (by simp [TaskRow.refused]),
      fun task htask => hphase task (List.mem_cons_of_mem _ htask)⟩
  | launch hcontroller hspec hlaunches =>
    exact launch (hnames _ hcontroller _ _ hspec) hinv.awaits hinv.distinct hlaunches
      ⟨hdistinct, haccounted, hphase⟩
  | bind hid hrewrites =>
    obtain ⟨row, hrow, hrid, -, hname⟩ := hinv.awaits _ List.mem_cons_self
    have hsame := SwarmStore.task_unique _ hrewrites.mem hrow (hid.trans hrid.symm)
    refine ⟨hdistinct, haccounted.rewrite hrewrites rfl (fun jobId hjob => ?_) (by simp [TaskRow.bound]),
      hphase.1⟩
    cases hjob
    rw [hsame, hname]
    exact hphase.2
  | @giveUp _ _ _ _ _ old _ _ hid hrewrites =>
    obtain ⟨row, hrow, hrid, -, hname⟩ := hinv.awaits _ List.mem_cons_self
    have hsame := SwarmStore.task_unique _ hrewrites.mem hrow (hid.trans hrid.symm)
    refine ⟨hdistinct, haccounted.rewrite hrewrites rfl (haccounted.bound old hrewrites.mem) fun _ => ?_,
      trivial⟩
    rw [hsame, hname]
    exact hphase.2
  | stop => exact ⟨hdistinct, haccounted, trivial⟩

/-- Calls of the API keep the invariant. -/
theorem apiMove (hmove : ApiMove m m') (h : LaunchInvariant m) : LaunchInvariant m' := by
  obtain ⟨store', hquiet, rfl⟩ := hmove
  refine ⟨h.names, h.accounted.quiet hquiet, ?_⟩
  obtain ⟨site, phase⟩ := m
  cases phase with
  | observing => exact Lists.quiet h.phase hquiet
  | idle | launching | launched => exact h.phase

/-- The invariant holds before anything happened. -/
theorem initial : LaunchInvariant Machine.initial :=
  ⟨List.Pairwise.nil, ⟨fun _ hrow => absurd hrow List.not_mem_nil,
    fun _ hrow => absurd hrow List.not_mem_nil, fun _ hjob => absurd hjob List.not_mem_nil⟩, trivial⟩

end LaunchInvariant

/-- The row names a job that was created under its name. -/
def HasJob (created : List RemoteJob) (row : TaskRow) : Prop :=
  ∃ jobId, row.jobId = some jobId ∧ ⟨jobId, row.jobName⟩ ∈ created

/-- The next operation is an observation of the task, and it leaves a terminal status. -/
def EndsByObservation {D : Deployment} (s s' : D.SystemState) (taskId : String) : Prop :=
  ∃ job now next clock task, s.progs () = .op (.store (.observeJob taskId job) now) next ∧
    (Call.observeJob taskId job).run clock s.world.store = .ok (task, s'.world.store) ∧
      task.status.isTerminal = true

/-- The invariant of launches, read off a reachable state. -/
theorem Deployment.Reachable.launches {controllers : TPUSwarmController → Prop}
    (hnames : ∀ controller, controllers controller → ∀ task spec,
      controller.compileJob task = .ok spec → spec.name = task.jobName)
    {s : (Deployment.honest controllers).SystemState} (h : (Deployment.honest controllers).Reachable s) :
    (s.world.created.Pairwise fun a b => a.name ≠ b.name) ∧ Accounted s.world.created s.world.store := by
  obtain ⟨m, hmoves, hrelated⟩ := h.related
  have hlaunch : LaunchInvariant m := by
    refine Pool.Simulation.keeps (simulation (Deployment.honest controllers)) (K := LaunchInvariant)
      (fun m m' hinv hmove hm => ?_) hmoves Invariant.initial LaunchInvariant.initial
    rcases hmove with hmove | ⟨_, hmove⟩
    · exact hm.apiMove hmove
    · exact hm.move hnames hinv hmove
  rw [← show m.site = s.world from hrelated.view]
  exact ⟨hlaunch.names, hlaunch.accounted⟩

/-- Among jobs with different names, at most one has a given name. -/
theorem length_filter_name_le {created : List RemoteJob} (h : created.Pairwise fun a b => a.name ≠ b.name)
    (name : String) : (created.filter (·.name = name)).length ≤ 1 := by
  have hsame : ∀ job ∈ created.filter (·.name = name), job.name = name := by
    intro job hjob
    simpa using (List.mem_filter.mp hjob).2
  have hpairs := h.filter (·.name = name)
  generalize created.filter (·.name = name) = jobs at hsame hpairs
  match jobs with
  | [] | [_] => simp
  | a :: b :: rest =>
    have hne := (List.pairwise_cons.mp hpairs).1 b List.mem_cons_self
    exact absurd ((hsame a List.mem_cons_self).trans (hsame b (by simp)).symm) hne

/-- An observation leaves a row with the job that was observed. -/
theorem EndsByObservation.row {D : Deployment} {s s' : D.SystemState} {taskId : String}
    (h : EndsByObservation s s' taskId) : ∃ row ∈ s'.world.store.tasks.rows,
      row.taskId = taskId ∧ row.status.isTerminal = true ∧ row.jobId ≠ none := by
  obtain ⟨job, now, next, clock, task, -, hrun, hterminal⟩ := h
  obtain ⟨row, hid, hreported⟩ := SwarmStore.observeJob_eq_ok hrun
  obtain ⟨row', hrow', rfl⟩ := SwarmStore.observeJob_returns hrun
  rw [hreported.rewrites.task?_eq, if_pos hid.symm] at hrow'
  obtain rfl := Option.some.inj hrow'
  exact ⟨_, hreported.rewrites.mem', hid, hterminal, by simp [TaskRow.observed]⟩

/-- For every task at most one job is ever created. A task that is submitted or running has
this job, and so has a task whose observation ended it. -/
theorem launched_at_most_once {controllers : TPUSwarmController → Prop}
    (hnames : ∀ controller, controllers controller → ∀ task spec,
      controller.compileJob task = .ok spec → spec.name = task.jobName)
    {s : (Deployment.honest controllers).SystemState} (h : (Deployment.honest controllers).Reachable s) :
    (∀ row ∈ s.world.store.tasks.rows, (s.world.created.filter (·.name = row.jobName)).length ≤ 1) ∧
    (∀ row ∈ s.world.store.tasks.rows, row.status = .submitted ∨ row.status = .running →
      HasJob s.world.created row) ∧
    ∀ taskId s₁ s₂, (Deployment.honest controllers).system.Step s s₁ → EndsByObservation s s₁ taskId →
      (Deployment.honest controllers).system.Run s₁ s₂ → ∃ row ∈ s₂.world.store.tasks.rows,
        row.taskId = taskId ∧ row.status.isTerminal = true ∧ HasJob s₂.world.created row := by
  have hjob : ∀ {s : (Deployment.honest controllers).SystemState}, (Deployment.honest controllers).Reachable s →
      ∀ row ∈ s.world.store.tasks.rows, row.jobId ≠ none → HasJob s.world.created row := by
    intro s h row hrow hne
    obtain ⟨jobId, hsome⟩ := Option.ne_none_iff_exists'.mp hne
    exact ⟨jobId, hsome, (h.launches hnames).2.bound row hrow jobId hsome⟩
  refine ⟨fun row _ => length_filter_name_le (h.launches hnames).1 _,
    fun row hrow hactive => hjob h row hrow ((h.invariant.1 row hrow).active hactive), ?_⟩
  intro taskId s₁ s₂ hstep hends hrun
  obtain ⟨row, hrow, hid, hterminal, hne⟩ := hends.row
  obtain ⟨row', hrow', hcore⟩ := Deployment.terminal_core (h.tail hstep) hrun hrow hterminal
  refine ⟨row', hrow', (TaskRow.column_eq hcore TaskRow.taskId fun _ => rfl).trans hid, ?_, ?_⟩
  · rw [TaskRow.column_eq hcore TaskRow.status fun _ => rfl]
    exact hterminal
  · refine hjob ((h.tail hstep).trans hrun) row' hrow' ?_
    rw [TaskRow.column_eq hcore TaskRow.jobId fun _ => rfl]
    exact hne

instance (site : Site) (jobs : List ExecutorJob) : Decidable (Lists site jobs) := by
  unfold Lists
  infer_instance

instance (site : Site) (jobs : List ExecutorJob) : Decidable (ShowsCreated site jobs) := by
  unfold ShowsCreated
  infer_instance

instance (site : Site) (spec : ManagedJobSpec) (jobs : List RemoteJob) (outcome : Except PyError ExecutorJob) :
    Decidable (LaunchesOne site spec jobs outcome) :=
  match outcome with
  | .ok _ => inferInstanceAs (Decidable (_ ∧ _ ∧ _))
  | .error _ => inferInstanceAs (Decidable (_ ∧ _))

namespace Deployment

variable (controllers : TPUSwarmController → Prop)

instance (site : Site) (jobs : List ExecutorJob) : Decidable ((honest controllers).lists site jobs) :=
  inferInstanceAs (Decidable (Lists site jobs))

instance (site : Site) : Decidable ((honest controllers).admits site) := isTrue trivial

instance (site : Site) (spec : ManagedJobSpec) (outcome : Except PyError ExecutorJob)
    (jobs : List RemoteJob) : Decidable ((honest controllers).launches site spec outcome jobs) :=
  inferInstanceAs (Decidable (LaunchesOne site spec jobs outcome))

instance (site : Site) (jobs : List ExecutorJob) : Decidable ((shared controllers).lists site jobs) :=
  inferInstanceAs (Decidable (ShowsCreated site jobs))

instance (site : Site) : Decidable ((shared controllers).admits site) := isTrue trivial

instance (site : Site) (spec : ManagedJobSpec) (outcome : Except PyError ExecutorJob)
    (jobs : List RemoteJob) : Decidable ((shared controllers).launches site spec outcome jobs) :=
  inferInstanceAs (Decidable (LaunchesOne site spec jobs outcome))

end Deployment

/-- The controller crashes right after the launch, and after a restart adopts the job. -/
theorem launched_at_most_once_adopted : ∃ s : (Deployment.honest (· = sampleController)).SystemState,
    ∃ row ∈ s.world.store.tasks.rows, row.status = .submitted ∧ HasJob s.world.created row := by
  obtain ⟨s, hreachable, hcheck⟩ := (Deployment.honest (· = sampleController)).reachable_of_check
    (Deployment.launchCommands rfl (.ok (sampleJob "PENDING")) [⟨"7", executorName "t1"⟩] ++ [.crash] ++
      [.begin ⟨sampleController, rfl⟩ 40, .store 40, .store 40, .list [sampleJob "PENDING"], .store 40, .store 40])
    (fun s => s.world.store.tasks.rows.any (·.status = .submitted)) (by decide +kernel)
  obtain ⟨row, hrow, hstatus⟩ := List.any_eq_true.mp hcheck
  have hsubmitted : row.status = .submitted := of_decide_eq_true hstatus
  refine ⟨s, row, hrow, hsubmitted, ?_⟩
  refine (launched_at_most_once (fun controller hcontroller task spec hspec => ?_) hreachable).2.1 row hrow
    (Or.inl hsubmitted)
  obtain rfl : controller = sampleController := hcontroller
  exact sampleController_names hspec

/-- The controller crashes right before the launch. A foreign job that bears the name of the
task is listed after the restart and adopted, although no job was ever created. -/
theorem foreign_job_adopted :
    (∀ task spec, sampleController.compileJob task = .ok spec → spec.name = task.jobName) ∧
    ∃ s : (Deployment.shared (· = sampleController)).SystemState,
      (Deployment.shared (· = sampleController)).Reachable s ∧
        ∃ row ∈ s.world.store.tasks.rows, row.status = .submitted ∧ ¬HasJob s.world.created row := by
  refine ⟨fun task spec => sampleController_names, ?_⟩
  obtain ⟨s, hreachable, hcheck⟩ := (Deployment.shared (· = sampleController)).reachable_of_check
    (Deployment.admitCommands rfl [] ++ [.crash] ++
      [.begin ⟨sampleController, rfl⟩ 40, .store 40, .store 40, .list [sampleJob "PENDING"], .store 40, .store 40])
    (fun s => s.world.created.isEmpty && s.world.store.tasks.rows.any (·.status = .submitted))
    (by decide +kernel)
  obtain ⟨hempty, hsubmitted⟩ := Bool.and_eq_true_iff.mp hcheck
  obtain ⟨row, hrow, hstatus⟩ := List.any_eq_true.mp hsubmitted
  refine ⟨s, hreachable, row, hrow, of_decide_eq_true hstatus, fun ⟨jobId, _, hcreated⟩ => ?_⟩
  rw [List.isEmpty_iff.mp hempty] at hcreated
  exact List.not_mem_nil hcreated

end TPUSwarm
