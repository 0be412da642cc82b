import TPUSwarm.Common.Runs
import TPUSwarm.Invariants.KnownWorkflows
import TPUSwarm.Solo.Launches
import TPUSwarm.Store.Returns

/-!
# The loop of a controller never ends by an exception

`run_forever` runs one cycle after another and catches nothing, so an exception of a cycle is its end. Most calls
a cycle makes of the store can raise: a task may not be there or not in the right status, a job identifier may be
taken, a workflow of an event unknown. With a backend that keeps its promises none of this comes up, in whatever
state a crash or the API has left the store. Exceptions of a workflow's reconciliation are caught by the cycle, and
nothing is said about them.
-/

namespace TPUSwarm

open Common Relation SwarmStore

/-- What is left of `run_forever` between two cycles: it waits with a lease, or an exception has ended it. -/
inductive LoopState
  | waiting (lease : Option ControllerLease)
  | ended (e : PyError)

/-- One turn of `TPUSwarmController.run_forever`. -/
def TPUSwarmController.turn (controller : TPUSwarmController) (lease : Option ControllerLease) (now : Time) :
    Prog Operation Operation.Reply LoopState := do
  match ← controller.reconcileOnce lease now with
  | (.ok _, lease) => pure (.waiting lease)
  | (.error e, _) => pure (.ended e)

/-- A list of jobs that fails raises `BackendUnavailableError`. The recovery counts of a list fit their column. -/
def Operation.Promised : (op : Operation) → op.Reply → Prop
  | .listJobs, .ok jobs => ∀ job ∈ jobs, fitsInteger job.recoveryCount = true
  | .listJobs, .error e => e.kind = .backendUnavailable
  | _, _ => True

/-- The pool of `run_forever` and the API over a backend that keeps its promises. A crash is followed by a
restart. -/
def Deployment.forever (controllers : TPUSwarmController → Prop) :
    Pool Unit Site LoopState Operation Operation.Reply where
  exec _ op site reply site' := (honest controllers).Executes op site reply site' ∧ op.Promised reply
  begins _ last site program site' := site' = site ∧ ∃ lease controller now, last = .waiting lease ∧
    controllers controller ∧ program = controller.turn lease now
  crash _ site last site' := site' = site ∧ last = .waiting none
  env := ApiCall

/-- The loop is about to run its first cycle. -/
def Deployment.foreverInitial (controllers : TPUSwarmController → Prop) : (forever controllers).State :=
  ⟨Site.initial, fun _ => .pure (.waiting none)⟩

/-- What the store calls of a cycle rely on. -/
structure Steadfast (m : Machine) : Prop where
  machine : Invariant m
  launches : LaunchInvariant m
  jobs : m.site.created.Pairwise fun a b => a.jobId ≠ b.jobId
  known : KnownWorkflows m.site.store

namespace Steadfast

variable {controllers : TPUSwarmController → Prop} {m m' : Machine}

/-- A job that was created for a task is no other task's. -/
theorem sole_owner (h : Steadfast m) {row r : TaskRow} {jobId : String} (hrow : row ∈ m.site.store.tasks.rows)
    (hcreated : ⟨jobId, row.jobName⟩ ∈ m.site.created) (hr : r ∈ m.site.store.tasks.rows)
    (hjob : r.jobId = some jobId) : r = row := by
  have hids : (m.site.created.map RemoteJob.jobId).Nodup := List.pairwise_map.mpr h.jobs
  have hsame : (⟨jobId, r.jobName⟩ : RemoteJob) = ⟨jobId, row.jobName⟩ :=
    List.inj_on_of_nodup_map hids (h.launches.accounted.bound r hr jobId hjob) hcreated rfl
  exact m.site.store.jobName_unique hr hrow (congrArg RemoteJob.name hsame)

/-- A job that was created for a task that has none is free. -/
theorem unowned (h : Steadfast m) {row : TaskRow} {jobId : String} (hrow : row ∈ m.site.store.tasks.rows)
    (hstatus : row.status = .submitting) (hcreated : ⟨jobId, row.jobName⟩ ∈ m.site.created) :
    ∀ r ∈ m.site.store.tasks.rows, r.jobId ≠ some jobId := by
  intro r hr hjob
  obtain rfl := h.sole_owner hrow hcreated hr hjob
  rw [((h.machine.coherent r hr).submitting hstatus).1] at hjob
  cases hjob

/-- The machine is steadfast at first. -/
theorem initial : Steadfast Machine.initial :=
  ⟨.initial, .initial, List.Pairwise.nil, fun _ hrow => absurd hrow List.not_mem_nil,
    fun _ hlink => absurd hlink List.not_mem_nil⟩

/-- A move that leaves no task without its workflow. -/
theorem move (hnames : ∀ controller, controllers controller → ∀ task spec,
      controller.compileJob task = .ok spec → spec.name = task.jobName) (h : Steadfast m)
    (hmove : Move (Deployment.honest controllers) m m') (hknown : KnownWorkflows m'.site.store) : Steadfast m' := by
  refine ⟨h.machine.move hmove, h.launches.move hnames h.machine hmove, ?_, hknown⟩
  cases hmove with
  | @launch site task rest controller spec outcome jobs hcontroller hspec hlaunches =>
    cases outcome with
    | error e =>
      obtain ⟨-, rfl⟩ := hlaunches
      simpa using h.jobs
    | ok job =>
      obtain ⟨-, hfresh, rfl⟩ := hlaunches
      refine List.pairwise_append.mpr ⟨h.jobs, List.pairwise_singleton _ _, fun r hr x hx => ?_⟩
      rw [List.mem_singleton.mp hx]
      exact hfresh r hr
  | _ => exact h.jobs

/-- A call of the API that leaves no task without its workflow. -/
theorem apiMove (h : Steadfast m) (hmove : ApiMove m m') (hknown : KnownWorkflows m'.site.store) :
    Steadfast m' := by
  refine ⟨h.machine.apiMove hmove, h.launches.apiMove hmove, ?_, hknown⟩
  obtain ⟨store', -, rfl⟩ := hmove
  exact h.jobs

end Steadfast

section Loop

variable {controllers : TPUSwarmController → Prop}
  (hnames : ∀ controller, controllers controller → ∀ task spec,
    controller.compileJob task = .ok spec → spec.name = task.jobName)

/-- The machine over the pool of `run_forever`. -/
def loopSimulation : (Deployment.forever controllers).Simulation Machine where
  view := Machine.site
  inv := Steadfast
  move _ m m' := Move (Deployment.honest controllers) m m' ∧ KnownWorkflows m'.site.store
  envMove m m' := ApiMove m m' ∧ KnownWorkflows m'.site.store
  permitted _ _ _ := True
  leaves _ last _ := ∃ lease, last = .waiting lease
  inv_move _ _ _ h hmove := h.move hnames hmove.1 hmove.2
  inv_env _ _ h hmove := h.apiMove hmove.1 hmove.2

/-- What the program of a turn has to follow. -/
abbrev looping := (loopSimulation hnames).abstraction ()

variable {hnames}

/-- What quiet changes do not affect is stable in the loop. -/
theorem Unaffected.lasting {fact : Machine → Prop} (h : Unaffected fact) : (looping hnames).Stable fact := by
  rintro m m' (⟨⟨store', hquiet, rfl⟩, -⟩ | ⟨_, hne, _⟩) hm
  · exact h m store' hquiet hm
  · exact absurd rfl hne

/-- A store call that cannot raise. -/
theorem sure_call (call : Call) {now : Option Time} {fact : Machine → Prop}
    {returned : call.Result → Machine → Prop}
    (hfact : Unaffected fact) (hreturned : ∀ r, Unaffected (returned r))
    (h : ∀ m clock, Steadfast m → fact m → ∃ result store', call.run clock m.site.store = .ok (result, store') ∧
      ∃ m', Move (Deployment.honest controllers) m m' ∧ m'.site = { m.site with store := store' } ∧
        returned result m')
    {m : Machine} (hm : fact m) :
    (callStore call now).Follows (looping hnames) returned (fun _ _ => False) m := by
  refine Prog.Follows.issue (S := looping hnames) hfact.lasting (fun r => ?_)
    (fun m hinv hm => ⟨trivial, fun outcome site' hexec => ?_⟩) hm
  · cases r with
    | ok r => exact (hreturned r).lasting
    | error e => exact fun _ _ _ h => h
  · obtain ⟨hexecutes, -⟩ := hexec
    cases hexecutes with
    | @store _ _ _ clock _ _ _ hperform =>
      obtain ⟨result, store', hrun, m', hmove, hsite, hresult⟩ := h m (now.getD clock) hinv hm
      have hreturns : call.perform (now.getD clock) m.site.store = (.ok result, store') := by
        rw [Call.perform, hrun]
      obtain ⟨rfl, rfl⟩ := Prod.mk.inj (hreturns.symm.trans hperform)
      have hknown : KnownWorkflows m'.site.store := by
        rw [hsite]
        exact hinv.known.run hrun
      exact ⟨m', .single ⟨hmove, hknown⟩, hsite, hresult⟩

/-- A store call that cannot raise, moves no task and sets no policy. -/
theorem sure_quiet (call : Call) (hcall : call.isTransition = false) (hpolicies : StoreTable.policies ∉ call.tables)
    {now : Option Time} {fact : Machine → Prop} {returned : call.Result → Machine → Prop} (hfact : Unaffected fact)
    (hreturned : ∀ r, Unaffected (returned r))
    (h : ∀ m clock, fact m → ∃ result store', call.run clock m.site.store = .ok (result, store') ∧
      (fact (m.withStore store') → returned result (m.withStore store')))
    {m : Machine} (hm : fact m) :
    (callStore call now).Follows (looping hnames) returned (fun _ _ => False) m := by
  refine sure_call call hfact hreturned (fun m clock _ hm => ?_) hm
  obtain ⟨result, store', hrun, hresult⟩ := h m clock hm
  have hquiet := Call.quiet hcall hrun
  exact ⟨result, store', hrun, m.withStore store', .quiet hquiet (Call.frame hrun hpolicies), rfl,
    hresult (hfact m store' hquiet hm)⟩

variable {controller : TPUSwarmController} {jobs : List ExecutorJob} {now : Time}

/-- The row of a task is there. -/
def Present (taskId : String) (m : Machine) : Prop := ∃ row ∈ m.site.store.tasks.rows, row.taskId = taskId

/-- That a task is there is not affected by quiet changes. -/
theorem Present.unaffected (taskId : String) : Unaffected (Present taskId) := by
  intro m store' hquiet ⟨row, hrow, hid⟩
  obtain ⟨row', hrow', hcore⟩ := hquiet.tasks.kept hrow
  exact ⟨row', hrow', (TaskRow.column_eq hcore TaskRow.taskId fun _ => rfl).trans hid⟩

/-- The list received is right while the loop over the tasks is under way. -/
theorem Steadfast.lists {m : Machine} (h : Steadfast m) {rest : List TaskRecord} (hm : Observing jobs rest m) :
    Lists m.site jobs := by
  have hphase := h.launches.phase
  rw [hm.phase] at hphase
  exact hm.listed ▸ hphase

/-- A task that has left the loop may be read and put in front again. -/
theorem Observing.reread {task : TaskRecord} {rest : List TaskRecord} {m : Machine} (hm : Observing jobs rest m)
    (hdistinct : ∀ t ∈ rest, task.taskId ≠ t.taskId) {row : TaskRow} (hrow : row ∈ m.site.store.tasks.rows)
    (hid : row.taskId = task.taskId) (adopted : List String) :
    Settled jobs rest (some row.toRecord, adopted) m := by
  refine ⟨hm.cons ⟨row, hrow, rfl, rfl, rfl, rfl⟩ fun t ht => ?_, fun hstatus => ?_⟩
  · change row.taskId ≠ t.taskId
    rw [hid]
    exact hdistinct t ht
  · by_contra hlisted
    obtain ⟨t, ht, htid⟩ := hm.settled row hrow hstatus hlisted
    exact hdistinct t ht (hid.symm.trans htid.symm)

/-- The first read of the loop over the tasks takes a snapshot of every row. -/
theorem Observing.of_listTasks {m : Machine} (hm : Received jobs m) :
    Observing jobs (listTasks none m.site.store) m := by
  have hperm := List.perm_insertionSort listingOrder m.site.store.tasks.rows
  have hids : m.site.store.tasks.rows.Pairwise fun a b => a.taskId ≠ b.taskId :=
    m.site.store.tasks.unique.imp fun hclash heq => hclash (Or.inl heq)
  have hrows : (m.site.store.tasks.rows.filter fun row => (none : Option TaskStatus).all (row.status = ·)) =
      m.site.store.tasks.rows := List.filter_eq_self.mpr fun _ _ => rfl
  rw [listTasks, hrows]
  refine ⟨hm.1, hm.2, fun task htask => ?_, ?_, fun row hrow _ _ => ?_⟩
  · obtain ⟨row, hrow, rfl⟩ := List.mem_map.mp htask
    exact ⟨row, hperm.mem_iff.mp hrow, rfl, rfl, rfl, rfl⟩
  · exact List.pairwise_map.mpr
      ((hperm.pairwise_iff fun {a b} (h : a.taskId ≠ b.taskId) => h.symm).mpr hids)
  · exact ⟨row.toRecord, List.mem_map_of_mem (hperm.mem_iff.mpr hrow), rfl⟩

/-- Adoption, the grace period, or nothing. -/
theorem sure_settleSubmission {task : TaskRecord} {rest : List TaskRecord} {adopted : List String} {m : Machine}
    (hm : Observing jobs (task :: rest) m) :
    (controller.settleSubmission jobs now task adopted).Follows (looping hnames) (Settled jobs rest)
      (fun _ _ => False) m := by
  have hdistinct := (List.pairwise_cons.mp hm.distinct).1
  unfold TPUSwarmController.settleSubmission
  split
  · rename_i hsubmitting
    split
    · rename_i job hlisted
      let K (m : Machine) : Prop := Observing jobs rest m ∧ Present task.taskId m
      have hK : Unaffected K := fun m store' hquiet h =>
        ⟨Observing.unaffected jobs rest m store' hquiet h.1, Present.unaffected _ m store' hquiet h.2⟩
      refine Action.Follows.bind (fun _ _ _ _ h => h) (K := fun _ => K)
        (sure_call (.bindJob task.taskId job.jobId job.status) (Observing.unaffected jobs (task :: rest))
          (fun _ => hK) (fun m clock hinv hm => ?_) hm) fun _ m _ hm => ?_
      · obtain ⟨row, hrow, hid, hs, -, hn⟩ := hm.snapshots task List.mem_cons_self
        have hstatus : row.status = .submitting := hs.trans hsubmitting
        have hname : byName jobs row.jobName = some job := by rw [hn]; exact hlisted
        have hfree := hinv.unowned hrow hstatus ((hinv.lists hm).created_of_name hrow hstatus hname)
        obtain ⟨written, hrun, hrewrites⟩ : ∃ written, bindJob task.taskId job.jobId job.status clock m.site.store =
            .ok ((row.bound job.jobId job.status clock).toRecord, written) ∧
              Rewrites m.site.store written row (row.bound job.jobId job.status clock) :=
          bindJob_returns hrow hid hstatus hfree clock
        obtain ⟨-, -, -, -, -, hframe⟩ := bindJob_eq_ok hrun
        refine ⟨_, written, hrun, m.withStore written, ?_, rfl,
          hm.rewrite hrewrites hid (by simp [TaskRow.bound]), _, hrewrites.mem', hid⟩
        obtain ⟨site, phase⟩ := m
        obtain rfl : phase = .observing := hm.phase
        exact .adopt hstatus (by rw [show site.listed = jobs from hm.listed]; exact hname) hrewrites hframe
      · refine Action.Follows.bind (fun _ _ _ _ h => h)
          (K := fun bound => Settled jobs rest (some bound, adopted ++ [task.taskId]))
          (sure_quiet (.getTask task.taskId) rfl (by simp [Call.tables]) hK
            (fun _ => Settled.unaffected jobs rest _)
            (fun m clock hm => ?_) hm) fun bound m _ hm =>
              Action.Follows.pure (Settled.unaffected jobs rest _).lasting hm
        obtain ⟨hobserving, row, hrow, hid⟩ := hm
        refine ⟨row.toRecord, _, Call.reading_eq_ok.mpr ⟨?_, rfl⟩, fun _ => hobserving.reread hdistinct hrow hid _⟩
        rw [getTask, task?_eq_some.mpr ⟨hrow, hid⟩]
        rfl
    · rename_i hunlisted
      split
      · refine Action.Follows.bind (fun _ _ _ _ h => h) (K := fun _ => Observing jobs rest)
          (sure_call (.resetSubmission task.taskId _) (Observing.unaffected jobs (task :: rest))
            (fun _ => Observing.unaffected jobs rest) (fun m clock hinv hm => ?_) hm) fun _ m _ hm =>
              Action.Follows.pure (Settled.unaffected jobs rest _).lasting hm
        obtain ⟨row, hrow, hid, hs, -, hn⟩ := hm.snapshots task List.mem_cons_self
        have hstatus : row.status = .submitting := hs.trans hsubmitting
        obtain ⟨written, hrun⟩ := resetSubmission_succeeds hrow hid hstatus
          "no matching SkyPilot job found after submission grace" clock
        obtain ⟨row', hid', -, -, hrewrites, hframe⟩ := resetSubmission_eq_ok hrun
        obtain rfl := m.site.store.task_unique hrewrites.mem hrow (hid'.trans hid.symm)
        refine ⟨_, written, hrun, m.withStore written, ?_, rfl, hm.rewrite hrewrites hid (by simp [TaskRow.reset])⟩
        obtain ⟨site, phase⟩ := m
        obtain rfl : phase = .observing := hm.phase
        refine .expire hstatus ?_ hrewrites hframe
        rw [show site.listed = jobs from hm.listed, hn]
        exact hunlisted
      · exact Action.Follows.pure (Settled.unaffected jobs rest _).lasting ⟨hm, fun _ => hunlisted⟩
  · rename_i hother
    exact Action.Follows.pure (Settled.unaffected jobs rest _).lasting ⟨hm, fun h => absurd h hother⟩

/-- The job of a task that is submitted or running is observed. -/
theorem sure_observeTask (hfits : ∀ job ∈ jobs, fitsInteger job.recoveryCount = true) {task : TaskRecord}
    {rest : List TaskRecord} {observed : List String} {m : Machine}
    (hm : Observing jobs (task :: rest) m)
    (hunlisted : task.status = .submitting → byName jobs task.jobName = none) :
    (TPUSwarmController.observeTask jobs now task observed).Follows (looping hnames) (fun _ => Observing jobs rest)
      (fun _ _ => False) m := by
  have hskip : ∀ result : List String, (pure result : Effect (List String)).Follows (looping hnames)
      (fun _ => Observing jobs rest) (fun _ _ => False) m := fun _ =>
    Action.Follows.pure (Q := fun _ => Observing jobs rest) (Observing.unaffected jobs rest).lasting
      (hm.drop hunlisted)
  unfold TPUSwarmController.observeTask
  split
  · exact hskip _
  · rename_i jobId hjob
    split
    · exact hskip _
    · rename_i hlive
      split
      · rename_i job hlisted
        refine Action.Follows.bind (fun _ _ _ _ h => h) (K := fun _ => Observing jobs rest)
          (sure_call (.observeJob task.taskId job) (Observing.unaffected jobs (task :: rest))
            (fun _ => Observing.unaffected jobs rest) (fun m clock hinv hm => ?_) hm) fun _ m _ hm =>
              Action.Follows.pure (Q := fun _ => Observing jobs rest) (Observing.unaffected jobs rest).lasting hm
        obtain ⟨row, hrow, hid, hs, hj, hn⟩ := hm.snapshots task List.mem_cons_self
        have hbound : row.jobId = some jobId := hj.trans hjob
        have hactive :=
          (hinv.machine.coherent row hrow).active_of_job (by rw [hbound]; simp) (by rw [hs]; simpa using hlive)
        have hfound : listedJob jobs jobId row.jobName = some job := by rw [hn]; exact hlisted
        have hcreated := hinv.launches.accounted.bound row hrow jobId hbound
        rw [← (hinv.lists hm).listed_jobId hcreated hfound] at hcreated
        obtain ⟨result, written, hrun⟩ := observeJob_succeeds hrow hid (hinv.known.tasks row hrow)
          (fun r hr hsame => hid ▸ congrArg TaskRow.taskId (hinv.sole_owner hrow hcreated hr hsame))
          (hfits job (listedJob_mem hlisted)) clock
        obtain ⟨row', hid', hreported⟩ := observeJob_eq_ok hrun
        obtain rfl := m.site.store.task_unique hreported.rewrites.mem hrow (hid'.trans hid.symm)
        refine ⟨result, written, hrun, m.withStore written, ?_, rfl,
          hm.rewrite hreported.rewrites hid (taskStatus_ne job.status).2⟩
        obtain ⟨site, phase⟩ := m
        obtain rfl : phase = .observing := hm.phase
        exact .observe hactive hbound (by rw [show site.listed = jobs from hm.listed]; exact hfound) hreported
      · exact hskip _

/-- The loop over the tasks. -/
theorem sure_reconcileTasks (hfits : ∀ job ∈ jobs, fitsInteger job.recoveryCount = true) {rest : List TaskRecord}
    {adopted observed : List String} {m : Machine}
    (hm : Observing jobs rest m) :
    (controller.reconcileTasks jobs now rest adopted observed).Follows (looping hnames) (fun _ => Observing jobs [])
      (fun _ _ => False) m := by
  induction rest generalizing adopted observed m with
  | nil => exact Action.Follows.pure (Q := fun _ => Observing jobs []) (Observing.unaffected jobs []).lasting hm
  | cons task rest ih =>
    refine Action.Follows.bind (fun _ _ _ _ h => h) (sure_settleSubmission hm) fun next m _ hnext => ?_
    rcases next with ⟨_ | settled, adopted'⟩
    · exact ih hnext
    · exact Action.Follows.bind (fun _ _ _ _ h => h) (sure_observeTask hfits hnext.1 hnext.2) fun _ m _ hm => ih hm

/-- The reconciliation of a workflow may raise, and keeps every fact that quiet steps do not change. -/
theorem sure_reconcile {fact : Machine → Prop} (hfact : Unaffected fact) (engine : WorkflowEngine)
    (workflowId : String) {m : Machine} (hm : fact m) :
    (engine.reconcile workflowId).Follows (looping hnames) (fun _ => fact) (fun _ => fact) m := by
  refine Action.Follows.of_uses fact hfact.lasting (fun op hop m hinv hm => ⟨trivial, fun reply site' hexec => ?_⟩)
    (engine.uses_reconcile workflowId) hm
  obtain ⟨hexecutes, -⟩ := hexec
  cases hexecutes with
  | @store _ call _ _ _ _ _ hperform =>
    have htransition : call.isTransition = false := by
      cases call <;> first | rfl | cases hop
    have hpolicies : StoreTable.policies ∉ call.tables := by
      cases call <;> first | (cases hop; done) | simp [Call.tables]
    rcases Call.perform_cases hperform with ⟨e, -, rfl⟩ | ⟨result, -, hrun⟩
    · exact ⟨m, .refl, rfl, hm⟩
    · have hquiet := Call.quiet htransition hrun
      exact ⟨m.withStore _, .single ⟨.quiet hquiet (Call.frame hrun hpolicies), hinv.known.run hrun⟩, rfl,
        hfact m _ hquiet hm⟩
  | listJobs | listFails | launch => cases hop

/-- The loop over the workflows. -/
theorem sure_reconcileWorkflows {fact : Machine → Prop} (hfact : Unaffected fact) {workflows : List WorkflowRecord}
    {reconciled : List String} {m : Machine} (hm : fact m) :
    (controller.reconcileWorkflows workflows reconciled).Follows (looping hnames) (fun _ => fact)
      (fun _ _ => False) m := by
  induction workflows generalizing reconciled m with
  | nil => exact Action.Follows.pure (Q := fun _ => fact) hfact.lasting hm
  | cons workflow rest ih =>
    refine Action.Follows.bind (fun _ _ _ _ h => h) (K := fun _ => fact)
      (Action.Follows.attempt (fun _ => hfact.lasting) (sure_reconcile hfact _ _ hm)) fun outcome m _ hm => ?_
    cases outcome with
    | ok _ => exact ih hm
    | error _ => exact ih hm

/-- The admission of a batch. -/
theorem sure_reserve {limit : ℤ} {m : Machine} (hm : Observing jobs [] m) :
    (callStore (.reserveSubmissions limit) (some now)).Follows (looping hnames)
      (fun batch => InPhase (.launching batch)) (fun _ _ => False) m := by
  refine sure_call (.reserveSubmissions limit) (Observing.unaffected jobs [])
    (fun batch => InPhase.unaffected (.launching batch)) (fun m clock _ hm => ?_) hm
  obtain ⟨batch, store', hrun⟩ := reserveSubmissions_succeeds limit clock m.site.store
  obtain ⟨admitted, hdistinct, hchain, rfl⟩ := reserveSubmissions_eq_ok hrun
  refine ⟨_, store', hrun, ⟨{ m.site with store := store' }, _⟩, ?_, rfl, rfl⟩
  obtain ⟨site, phase⟩ := m
  obtain rfl : phase = .observing := hm.phase
  exact .reserve trivial hdistinct hchain

/-- A launch returns, or it raises what the controller expects. -/
theorem sure_launch (hcontroller : controllers controller) {task : TaskRecord} {rest : List TaskRecord}
    {spec : ManagedJobSpec} (hspec : controller.compileJob task = .ok spec) {m : Machine}
    (hm : InPhase (.launching (task :: rest)) m) :
    (launch task spec task.priority).Follows (looping hnames) (fun job => InPhase (.launched task (.ok job) rest))
      (fun e m => e.kind = .backendUnavailable ∧ InPhase (.launched task (.error e) rest) m) m := by
  refine Prog.Follows.issue (S := looping hnames) (c := .launch task spec task.priority)
    (InPhase.unaffected _).lasting (fun outcome => ?_)
      (fun m hinv hm => ⟨trivial, fun outcome site' hexec => ?_⟩) hm
  · cases outcome with
    | ok job => exact (InPhase.unaffected _).lasting
    | error e => exact Unaffected.lasting fun _ _ _ h => h
  · obtain ⟨⟨⟩ | ⟨⟩ | ⟨⟩ | ⟨hlaunches⟩, -⟩ := hexec
    obtain ⟨site, phase⟩ := m
    obtain rfl : phase = .launching (task :: rest) := hm
    refine ⟨_, .single ⟨.launch hcontroller hspec hlaunches, hinv.known⟩, rfl, ?_⟩
    cases outcome with
    | ok job => rfl
    | error e => exact ⟨hlaunches.1, rfl⟩

/-- The loop over the admitted batch. -/
theorem sure_launchTasks (hcontroller : controllers controller) {batch : List TaskRecord} {submitted : List String}
    {m : Machine} (hm : InPhase (.launching batch) m) :
    (controller.launchTasks now batch submitted).Follows (looping hnames) (fun _ _ => True)
      (fun _ _ => False) m := by
  induction batch generalizing submitted m with
  | nil => exact Action.Follows.pure (Q := fun _ _ => True) Unaffected.true.lasting trivial
  | cons task rest ih =>
    unfold TPUSwarmController.launchTasks
    split
    · refine Action.Follows.bind (fun _ _ _ _ h => h) (K := fun _ => InPhase (.launching rest))
        (sure_call (.failTask task.taskId _) (InPhase.unaffected _) (fun _ => InPhase.unaffected _)
          (fun m clock hinv hm => ?_) hm) fun _ m _ hm => ih hm
      obtain ⟨site, phase⟩ := m
      obtain rfl : phase = .launching (task :: rest) := hm
      obtain ⟨row, hrow, hid, -, -⟩ := hinv.machine.awaits task List.mem_cons_self
      obtain ⟨result, written, hrun⟩ := failTask_returns hrow hid (hinv.known.tasks row hrow) _ clock
      obtain ⟨row', hid', hreported⟩ := failTask_eq_ok hrun
      exact ⟨result, written, hrun, _, .refuse hid' hreported, rfl, rfl⟩
    · rename_i spec hspec
      let K (outcome : Except PyError ExecutorJob) (m : Machine) : Prop :=
        InPhase (.launched task outcome rest) m ∧ ∀ e, outcome = .error e → e.kind = .backendUnavailable
      have hK : ∀ outcome, (looping hnames).Stable (K outcome) := fun _ => Unaffected.lasting fun _ _ _ h => h
      have hlaunch : (launch task spec task.priority).Follows (looping hnames) (fun job => K (.ok job))
          (fun e => K (.error e)) m := by
        apply (sure_launch hcontroller hspec hm).mono
        · exact fun job m _ h => ⟨h, nofun⟩
        · rintro e m - ⟨hkind, h⟩
          exact ⟨h, fun _ heq => Except.error.inj heq ▸ hkind⟩
      refine Action.Follows.bind (fun _ _ _ _ h => h) (K := K) (Action.Follows.attempt hK hlaunch)
        fun outcome m _ hm => ?_
      obtain ⟨hphase, hkind⟩ := hm
      cases outcome with
      | error e =>
        dsimp only
        rw [if_pos (hkind e rfl)]
        refine Action.Follows.bind (fun _ _ _ _ h => h) (K := fun _ _ => True)
          (sure_call (.resetSubmission task.taskId _) (InPhase.unaffected _) (fun _ => Unaffected.true)
            (fun m clock hinv hm => ?_) hphase)
          fun _ m _ _ => Action.Follows.pure (Q := fun _ _ => True) Unaffected.true.lasting trivial
        obtain ⟨site, phase⟩ := m
        obtain rfl : phase = .launched task (.error e) rest := hm
        obtain ⟨row, hrow, hid, hstatus, -⟩ := hinv.machine.awaits task List.mem_cons_self
        obtain ⟨written, hrun⟩ := resetSubmission_succeeds hrow hid hstatus e.text clock
        obtain ⟨row', hid', -, -, hrewrites, hframe⟩ := resetSubmission_eq_ok hrun
        exact ⟨_, written, hrun, _, .giveUp hid' hrewrites hframe, rfl, trivial⟩
      | ok job =>
        refine Action.Follows.bind (fun _ _ _ _ h => h) (K := fun _ => InPhase (.launching rest))
          (sure_call (.bindJob task.taskId job.jobId job.status) (InPhase.unaffected _)
            (fun _ => InPhase.unaffected _) (fun m clock hinv hm => ?_) hphase) fun _ m _ hm => ih hm
        obtain ⟨site, phase⟩ := m
        obtain rfl : phase = .launched task (.ok job) rest := hm
        obtain ⟨row, hrow, hid, hstatus, hname⟩ := hinv.machine.awaits task List.mem_cons_self
        have hcreated : ⟨job.jobId, row.jobName⟩ ∈ site.created := by
          rw [hname]
          exact hinv.launches.phase.2
        obtain ⟨written, hrun, -⟩ : ∃ written, bindJob task.taskId job.jobId job.status clock site.store =
            .ok ((row.bound job.jobId job.status clock).toRecord, written) ∧
              Rewrites site.store written row (row.bound job.jobId job.status clock) :=
          bindJob_returns hrow hid hstatus (hinv.unowned hrow hstatus hcreated) clock
        obtain ⟨row', hid', -, -, hrewrites, hframe⟩ := bindJob_eq_ok hrun
        exact ⟨_, written, hrun, _, .bind hid' hrewrites hframe, rfl, rfl⟩

/-- The part of a cycle that only a leader reaches. -/
theorem sure_cycle (hcontroller : controllers controller) {m : Machine} (hm : InPhase .idle m) :
    (controller.cycle now).Follows (looping hnames) (fun _ _ => True) (fun _ _ => False) m := by
  let received (jobs : List ExecutorJob) (m : Machine) : Prop :=
    Received jobs m ∧ ∀ job ∈ jobs, fitsInteger job.recoveryCount = true
  let K (outcome : Except PyError (List ExecutorJob)) (m : Machine) : Prop :=
    Action.post received (fun e _ => e.kind = .backendUnavailable) outcome m
  have hK : ∀ outcome, (looping hnames).Stable (K outcome) := by
    intro outcome
    cases outcome with
    | ok jobs =>
      exact Unaffected.lasting fun m store' hquiet h => ⟨Received.unaffected jobs m store' hquiet h.1, h.2⟩
    | error e => exact Unaffected.lasting fun _ _ _ h => h
  have hlist : listJobs.Follows (looping hnames) received (fun e _ => e.kind = .backendUnavailable) m := by
    refine Prog.Follows.issue (S := looping hnames) (c := .listJobs) (InPhase.unaffected .idle).lasting hK
      (fun m hinv hm => ⟨trivial, fun outcome site' hexec => ?_⟩) hm
    obtain ⟨site, phase⟩ := m
    obtain rfl : phase = .idle := hm
    obtain ⟨⟨⟩ | ⟨hlists⟩ | ⟨⟩ | ⟨⟩, hpromised⟩ := hexec
    · exact ⟨_, .single ⟨.list hlists, hinv.known⟩, rfl, ⟨rfl, rfl⟩, hpromised⟩
    · exact ⟨_, .refl, rfl, hpromised⟩
  unfold TPUSwarmController.cycle
  refine Action.Follows.bind (fun _ _ _ _ h => h) (K := K)
    (Action.Follows.attempt hK hlist) fun outcome m _ hm => ?_
  cases outcome with
  | error e =>
    dsimp only
    rw [if_pos (show e.kind = .backendUnavailable from hm)]
    exact Action.Follows.pure (Q := fun _ _ => True) Unaffected.true.lasting trivial
  | ok jobs =>
    refine Action.Follows.bind (fun _ _ _ _ h => h) (K := fun tasks => Observing jobs tasks)
      (sure_quiet (.listTasks none) rfl (by simp [Call.tables]) (Received.unaffected jobs)
        (fun tasks => Observing.unaffected jobs tasks)
        (fun m _ hm => ⟨_, _, rfl, fun _ => Observing.of_listTasks hm⟩) hm.1) fun tasks m _ hm' => ?_
    refine Action.Follows.bind (fun _ _ _ _ h => h) (sure_reconcileTasks hm.2 hm') fun reports m _ hm => ?_
    refine Action.Follows.bind (fun _ _ _ _ h => h) (K := fun _ => Observing jobs [])
      (sure_quiet (.listWorkflows (some .active)) rfl (by simp [Call.tables]) (Observing.unaffected jobs [])
        (fun _ => Observing.unaffected jobs []) (fun m _ _ => ⟨_, _, rfl, id⟩) hm) fun workflows m _ hm => ?_
    refine Action.Follows.bind (fun _ _ _ _ h => h)
      (sure_reconcileWorkflows (Observing.unaffected jobs []) hm) fun reconciled m _ hm => ?_
    refine Action.Follows.bind (fun _ _ _ _ h => h) (sure_reserve hm) fun batch m _ hm => ?_
    exact Action.Follows.bind (fun _ _ _ _ h => h) (sure_launchTasks hcontroller hm)
      fun submitted m _ _ => Action.Follows.pure (Q := fun _ _ => True) Unaffected.true.lasting trivial

/-- The renewal of a lease, which only fails if the leadership was lost. -/
theorem sure_renew {held : ControllerLease} {seconds : Time} {m : Machine} (hm : InPhase .idle m) :
    (callStore (.renewLeadership held seconds) (some now)).Follows (looping hnames) (fun _ => InPhase .idle)
      (fun e _ => e.kind = .leadershipLost) m := by
  refine Prog.Follows.issue (S := looping hnames) (InPhase.unaffected .idle).lasting (fun outcome => ?_)
    (fun m hinv hm => ⟨trivial, fun outcome site' hexec => ?_⟩) hm
  · cases outcome with
    | ok renewed => exact (InPhase.unaffected .idle).lasting
    | error e => exact Unaffected.lasting fun _ _ _ h => h
  · obtain ⟨hexecutes, -⟩ := hexec
    cases hexecutes with
    | @store _ _ _ clock _ _ _ hperform =>
      cases hrun : (Call.renewLeadership held seconds).run now m.site.store with
      | error e =>
        obtain ⟨rfl, rfl⟩ := Prod.mk.inj ((Call.perform_of_error hrun).symm.trans hperform)
        exact ⟨m, .refl, rfl, renewLeadership_error hrun⟩
      | ok returned =>
        have hreturns :
            (Call.renewLeadership held seconds).perform now m.site.store = (.ok returned.1, returned.2) := by
          rw [Call.perform, hrun]
        obtain ⟨rfl, rfl⟩ := Prod.mk.inj (hreturns.symm.trans hperform)
        have hpolicies : StoreTable.policies ∉ (Call.renewLeadership held seconds).tables := by simp [Call.tables]
        exact ⟨m.withStore _, .single ⟨.quiet (Call.quiet rfl hrun) (Call.frame hrun hpolicies),
          hinv.known.run hrun⟩, rfl, hm⟩

/-- A turn of the loop leaves it waiting. -/
theorem sure_turn (hcontroller : controllers controller) (lease : Option ControllerLease) {m : Machine}
    (hm : InPhase .idle m) :
    (controller.turn lease now).Follows (looping hnames) (fun last _ => ∃ lease, last = .waiting lease) m := by
  have hdone : ∀ (result : ReconcileResult) (lease : Option ControllerLease) (m : Machine),
      (pure (.ok result, lease) : Prog Operation Operation.Reply CycleOutcome).Follows (looping hnames)
        (fun outcome _ => ∃ result, outcome.1 = .ok result) m :=
    fun result _ _ => Prog.Follows.pure (Q := fun (outcome : CycleOutcome) _ => ∃ result, outcome.1 = .ok result)
      (fun _ _ _ h => h) ⟨result, rfl⟩
  have hheld : (controller.heldLease lease now).Follows (looping hnames) (fun _ => InPhase .idle)
      (fun _ _ => False) m := by
    cases lease with
    | some held => exact Action.Follows.pure (Q := fun _ => InPhase .idle) (InPhase.unaffected _).lasting hm
    | none =>
      refine sure_quiet (.acquireLeadership controller.controllerId controller.leadershipLeaseSeconds) rfl
        (by simp [Call.tables]) (InPhase.unaffected _) (fun _ => InPhase.unaffected _) (fun m clock _ => ?_) hm
      obtain ⟨result, store', hrun⟩ := acquireLeadership_succeeds controller.controllerId
        controller.leadershipLeaseSeconds clock m.site.store
      exact ⟨result, store', hrun, id⟩
  have hcycle : (controller.reconcileOnce lease now).Follows (looping hnames)
      (fun outcome _ => ∃ result, outcome.1 = .ok result) m := by
    refine Prog.Follows.bind hheld fun started m _ hstarted => ?_
    rcases started with e | _ | held
    · exact False.elim hstarted
    · exact hdone _ _ _
    · refine Prog.Follows.bind (sure_renew hstarted) fun renewed m _ hrenewed => ?_
      rcases renewed with e | renewed
      · dsimp only
        rw [if_pos (show e.kind = .leadershipLost from hrenewed)]
        exact hdone _ _ _
      · refine Prog.Follows.bind (sure_cycle hcontroller hrenewed) fun result m _ hresult => ?_
        rcases result with e | result
        · exact False.elim hresult
        · exact hdone _ _ _
  refine Prog.Follows.bind hcycle fun outcome m _ houtcome => ?_
  obtain ⟨outcome, next⟩ := outcome
  obtain ⟨result, rfl⟩ := houtcome
  exact Prog.Follows.pure (Q := fun (last : LoopState) _ => ∃ lease, last = .waiting lease)
    (fun _ _ _ h => h) ⟨next, rfl⟩

variable (hnames)

/-- The machine matches the pool of `run_forever`. -/
theorem loopSimulation_matches : (loopSimulation hnames).Matches where
  env m site' hinv henv := by
    obtain ⟨call, now, hapi, rfl⟩ := henv
    have htransition : call.isTransition = false := by
      cases call <;> first | rfl | cases hapi
    rcases call.perform_store now m.site.store with hsame | ⟨result, hrun⟩
    · refine ⟨m, ⟨⟨m.site.store, .refl _, rfl⟩, hinv.known⟩, ?_⟩
      change m.site = { m.site with store := (call.perform now m.site.store).2 }
      rw [hsame]
    · exact ⟨_, ⟨⟨_, Call.quiet htransition hrun, rfl⟩, hinv.known.run hrun⟩, rfl⟩
  crash _ m last site' _ hcrash := by
    obtain ⟨rfl, rfl⟩ := hcrash
    exact ⟨m, .refl, rfl, fun _ _ _ => ⟨none, rfl⟩⟩
  begins _ last m program site' hinv _ hbegins := by
    obtain ⟨rfl, lease, controller, now, -, hcontroller, rfl⟩ := hbegins
    exact ⟨⟨m.site, .idle⟩, .single ⟨.stop, hinv.known⟩, rfl, sure_turn hcontroller lease rfl⟩

end Loop

/-- Over a backend that keeps its promises `run_forever` is never ended by an exception: not at the first cycle and
not later, however the API interleaves and wherever crashes have cut off the cycles before. -/
theorem runs_forever {controllers : TPUSwarmController → Prop}
    (hnames : ∀ controller, controllers controller → ∀ task spec,
      controller.compileJob task = .ok spec → spec.name = task.jobName) {s : (Deployment.forever controllers).State}
    (h : (Deployment.forever controllers).Run (Deployment.foreverInitial controllers) s) :
    ∀ e, s.progs () ≠ .pure (.ended e) := by
  intro e hended
  obtain ⟨m, -, hrelated⟩ := Pool.Simulation.run (loopSimulation_matches hnames)
    (Pool.Simulation.Related.of_finished (loopSimulation hnames) (m := Machine.initial) rfl .initial
      fun _ => ⟨_, rfl, fun _ => ⟨none, rfl⟩⟩) h
  have hfollows := hrelated.follows ()
  rw [hended] at hfollows
  obtain ⟨lease, hwaiting⟩ := hfollows m .refl hrelated.inv
  cases hwaiting

/-- An answer of the store, of a backend with no jobs, and of a launch that creates a job. -/
def answerEmpty : (op : Operation) → Time → Site → Option (op.Reply × Site)
  | .store call now, clock, site =>
    let performed := call.perform (now.getD clock) site.store
    some (performed.1, { site with store := performed.2 })
  | .listJobs, _, site => if site.created = [] then some (.ok [], { site with listed := [] }) else none
  | .launch _ spec _, _, site =>
    if site.created = [] then some (.ok ⟨"7", spec.name, "PENDING", 0, none⟩,
      { site with created := [⟨"7", spec.name⟩] })
    else none

/-- The answers of the sample are those of a backend that keeps its promises. -/
theorem answerEmpty_promised {controllers : TPUSwarmController → Prop} {op : Operation} {clock : Time}
    {site site' : Site} {reply : op.Reply} (h : answerEmpty op clock site = some (reply, site')) :
    (Deployment.forever controllers).exec () op site reply site' := by
  cases op with
  | store call now =>
    cases h
    exact ⟨.store (fun _ => trivial) rfl, trivial⟩
  | listJobs =>
    obtain ⟨hnone, heq⟩ := Option.ite_none_right_eq_some.mp h
    cases heq
    refine ⟨.listJobs ⟨?_, fun _ hjob => absurd hjob List.not_mem_nil⟩, fun _ hjob => absurd hjob List.not_mem_nil⟩
    rw [hnone]
    exact fun _ hjob => absurd hjob List.not_mem_nil
  | launch task spec priority =>
    obtain ⟨hnone, heq⟩ := Option.ite_none_right_eq_some.mp h
    obtain ⟨world, created, listed⟩ := site
    obtain rfl : created = [] := hnone
    cases heq
    have hone :
        LaunchesOne ⟨world, [], listed⟩ spec [⟨"7", spec.name⟩] (.ok ⟨"7", spec.name, "PENDING", 0, none⟩) :=
      ⟨rfl, fun _ hjob => absurd hjob List.not_mem_nil, rfl⟩
    exact ⟨.launch hone, trivial⟩

/-- A turn launches the job of the sample task, and the loop goes on. -/
theorem runs_forever_launched : ∃ s : (Deployment.forever (· = sampleController)).State,
    s.world.created = [⟨"7", executorName "t1"⟩] ∧ ∀ e, s.progs () ≠ .pure (.ended e) := by
  have hplay : ((Prog.follow answerEmpty (List.replicate 8 1) (sampleController.turn none 1)
      { Site.initial with store := ((Call.submitTask sampleTask).perform 0 .empty).2 }).any
        fun (_, _, site) => site.created = [⟨"7", executorName "t1"⟩]) = true := by decide +kernel
  obtain ⟨⟨trace, last, site⟩, hplay, hcreated⟩ := (Option.any_eq_true _ _).mp hplay
  let start := Deployment.foreverInitial (· = sampleController)
  have hchoose : ∀ op clock site reply site', answerEmpty op clock site = some (reply, site') →
      (Deployment.forever (· = sampleController)).exec () op site reply site' :=
    fun _ _ _ _ _ => answerEmpty_promised
  have hturn : (Deployment.forever (· = sampleController)).Run start ⟨site, Function.update
      (Function.update start.progs () (sampleController.turn none 1)) () (.pure last)⟩ :=
    .head (.env ⟨.submitTask sampleTask, 0, rfl, rfl⟩) <|
      .head (.begin () rfl ⟨rfl, none, sampleController, 1, rfl, rfl, rfl⟩) <|
        Pool.run_of_runs rfl (Prog.runs_of_follow hchoose hplay)
  refine ⟨_, of_decide_eq_true hcreated, runs_forever (fun controller hcontroller task spec hspec => ?_) hturn⟩
  obtain rfl : controller = sampleController := hcontroller
  exact sampleController_names hspec

end TPUSwarm
