import TPUSwarm.Solo.Snapshot

/-!
# A cycle follows the machine

Every operation of `reconcile_once` is matched by moves of the machine, whatever the API
does between two operations. One rule for each part of the cycle says what it turns the
knowledge of its caller into; together they give the simulation of the whole system.
-/

namespace TPUSwarm

open Common Relation SwarmStore

variable {D : Deployment} {controller : TPUSwarmController} {jobs : List ExecutorJob} {now : Time}

/-- Reading one task again after its adoption. -/
theorem follows_getTask {task : TaskRecord} {rest : List TaskRecord} (adopted : List String) {m : Machine}
    (hdistinct : ∀ t ∈ rest, task.taskId ≠ t.taskId) (hm : Observing jobs rest m) :
    (callStore (.getTask task.taskId) none).Follows (solo D)
      (fun bound m => Settled jobs rest (some bound, adopted) m) (fun _ _ => True) m := by
  refine follows_quiet (.getTask task.taskId) rfl (by simp [Call.tables]) (Observing.unaffected jobs rest)
    (fun bound => Settled.unaffected jobs rest (some bound, adopted)) (fun m clock bound store' hm hrun => ?_) hm
  obtain ⟨hget, rfl⟩ := Call.reading_eq_ok.mp hrun
  obtain ⟨row, hrow, rfl⟩ := Option.map_eq_some_iff.mp (orRaise_eq_ok.mp hget)
  obtain ⟨hmem, hid⟩ := task?_eq_some.mp hrow
  refine ⟨hm.cons ⟨row, hmem, rfl, rfl, rfl, rfl⟩ fun t ht => ?_, fun hstatus => ?_⟩
  · change row.taskId ≠ t.taskId
    rw [hid]
    exact hdistinct t ht
  · by_contra hlisted
    obtain ⟨t, ht, htid⟩ := hm.settled row hmem hstatus hlisted
    exact hdistinct t ht (hid.symm.trans htid.symm)

/-- Adoption, the grace period, or nothing. -/
theorem follows_settleSubmission {task : TaskRecord} {rest : List TaskRecord} {adopted : List String}
    {m : Machine} (hm : Observing jobs (task :: rest) m) :
    (controller.settleSubmission jobs now task adopted).Follows (solo D)
      (Settled jobs rest) (fun _ _ => True) m := by
  have hdistinct := (List.pairwise_cons.mp hm.distinct).1
  unfold TPUSwarmController.settleSubmission
  split
  · rename_i hsubmitting
    split
    · rename_i job hlisted
      refine Action.Follows.bind (fun _ => Unaffected.true.stable) (K := fun _ => Observing jobs rest)
        (follows_call (.bindJob task.taskId job.jobId job.status) (Observing.unaffected jobs (task :: rest))
          (fun _ => Observing.unaffected jobs rest) (fun m _ hm => Or.inr fun row hrow hid => ?_)
          (fun m clock result store' _ hm _ hrun => ?_) hm) fun _ m _ hm => ?_
      · obtain ⟨-, hs, -, hn⟩ := (hm.snapshots task List.mem_cons_self).agrees hrow hid
        exact ⟨hs.trans hsubmitting, job, by rw [hm.listed, hn]; exact hlisted, rfl⟩
      · obtain ⟨row, hid, -, -, hrewrites, hframe⟩ := SwarmStore.bindJob_eq_ok hrun
        obtain ⟨-, hs, -, hn⟩ := (hm.snapshots task List.mem_cons_self).agrees hrewrites.mem hid
        obtain ⟨site, phase⟩ := m
        obtain rfl : phase = .observing := hm.phase
        obtain rfl : site.listed = jobs := hm.listed
        exact ⟨_, .single (.adopt (hs.trans hsubmitting) (by rw [hn]; exact hlisted) hrewrites hframe), rfl,
          hm.rewrite hrewrites hid (by simp [TaskRow.bound])⟩
      · refine Action.Follows.bind (fun _ => Unaffected.true.stable)
          (follows_getTask (adopted ++ [task.taskId]) hdistinct hm) fun bound m _ hm => ?_
        exact Action.Follows.pure (Settled.unaffected jobs rest _).stable hm
    · rename_i hunlisted
      split
      · refine Action.Follows.bind (fun _ => Unaffected.true.stable) (K := fun _ => Observing jobs rest)
          (follows_call (.resetSubmission task.taskId _) (Observing.unaffected jobs (task :: rest))
            (fun _ => Observing.unaffected jobs rest) (fun m _ hm => Or.inr fun row hrow hid => ?_)
            (fun m clock result store' _ hm _ hrun => ?_) hm) fun _ m _ hm => ?_
        · obtain ⟨-, -, -, hn⟩ := (hm.snapshots task List.mem_cons_self).agrees hrow hid
          rw [hm.listed, hn]
          exact hunlisted
        · obtain ⟨row, hid, hstatus, -, hrewrites, hframe⟩ := SwarmStore.resetSubmission_eq_ok hrun
          obtain ⟨-, -, -, hn⟩ := (hm.snapshots task List.mem_cons_self).agrees hrewrites.mem hid
          obtain ⟨site, phase⟩ := m
          obtain rfl : phase = .observing := hm.phase
          obtain rfl : site.listed = jobs := hm.listed
          exact ⟨_, .single (.expire hstatus (by rw [hn]; exact hunlisted) hrewrites hframe), rfl,
            hm.rewrite hrewrites hid (by simp [TaskRow.reset])⟩
        · exact Action.Follows.pure (Settled.unaffected jobs rest _).stable hm
      · exact Action.Follows.pure (Settled.unaffected jobs rest _).stable ⟨hm, fun _ => hunlisted⟩
  · rename_i hother
    exact Action.Follows.pure (Settled.unaffected jobs rest _).stable ⟨hm, fun h => absurd h hother⟩

/-- An observation is made of a task that is submitted or running. -/
theorem follows_observeTask {task : TaskRecord} {rest : List TaskRecord} {observed : List String}
    {m : Machine} (hm : Observing jobs (task :: rest) m)
    (hunlisted : task.status = .submitting → byName jobs task.jobName = none) :
    (TPUSwarmController.observeTask jobs now task observed).Follows (solo D)
      (fun _ => Observing jobs rest) (fun _ _ => True) m := by
  have hskip : ∀ result : List String, (pure result : Effect (List String)).Follows (solo D)
      (fun _ => Observing jobs rest) (fun _ _ => True) m := fun _ =>
    Action.Follows.pure (Q := fun _ => Observing jobs rest) (Observing.unaffected jobs rest).stable
      (hm.drop hunlisted)
  unfold TPUSwarmController.observeTask
  split
  · exact hskip _
  · rename_i jobId hjob
    split
    · exact hskip _
    · rename_i hlive
      split
      · rename_i job hlisted
        have hactive (m : Machine) (hinv : Invariant m) (row : TaskRow) (hrow : row ∈ m.site.store.tasks.rows)
            (hs : row.status = task.status) (hj : row.jobId = task.jobId) :
            row.status = .submitted ∨ row.status = .running :=
          (hinv.coherent row hrow).active_of_job (by rw [hj, hjob]; simp) (by rw [hs]; simpa using hlive)
        refine Action.Follows.bind (fun _ => Unaffected.true.stable) (K := fun _ => Observing jobs rest)
          (follows_call (.observeJob task.taskId job) (Observing.unaffected jobs (task :: rest))
            (fun _ => Observing.unaffected jobs rest) (fun m hinv hm row hrow hid => ?_)
            (fun m clock result store' hinv hm _ hrun => ?_) hm) fun _ m _ hm => ?_
        · obtain ⟨-, hs, hj, hn⟩ := (hm.snapshots task List.mem_cons_self).agrees hrow hid
          exact ⟨hactive m hinv row hrow hs hj, jobId, hj.trans hjob, by rw [hm.listed, hn]; exact hlisted⟩
        · obtain ⟨row, hid, hreported⟩ := SwarmStore.observeJob_eq_ok hrun
          have hmem := hreported.rewrites.mem
          obtain ⟨-, hs, hj, hn⟩ := (hm.snapshots task List.mem_cons_self).agrees hmem hid
          have hactive := hactive m hinv row hmem hs hj
          obtain ⟨site, phase⟩ := m
          obtain rfl : phase = .observing := hm.phase
          obtain rfl : site.listed = jobs := hm.listed
          exact ⟨_, .single (.observe hactive (hj.trans hjob) (by rw [hn]; exact hlisted) hreported), rfl,
            hm.rewrite hreported.rewrites hid (taskStatus_ne job.status).2⟩
        · exact Action.Follows.pure (Q := fun _ => Observing jobs rest) (Observing.unaffected jobs rest).stable hm
      · exact hskip _

/-- The loop over the tasks. -/
theorem follows_reconcileTasks {rest : List TaskRecord} {adopted observed : List String} {m : Machine}
    (hm : Observing jobs rest m) :
    (controller.reconcileTasks jobs now rest adopted observed).Follows (solo D)
      (fun _ => Observing jobs []) (fun _ _ => True) m := by
  induction rest generalizing adopted observed m with
  | nil => exact Action.Follows.pure (Q := fun _ => Observing jobs []) (Observing.unaffected jobs []).stable hm
  | cons task rest ih =>
    refine Action.Follows.bind (fun _ => Unaffected.true.stable) (follows_settleSubmission hm)
      fun next m _ hnext => ?_
    rcases next with ⟨_ | settled, adopted'⟩
    · exact ih hnext
    · exact Action.Follows.bind (fun _ => Unaffected.true.stable)
        (follows_observeTask hnext.1 hnext.2) fun _ m _ hm => ih hm

/-- The workflow engine keeps every fact that quiet steps do not change. -/
theorem follows_reconcile {fact : Machine → Prop} (hfact : Unaffected fact) (engine : WorkflowEngine)
    (workflowId : String) {m : Machine} (hm : fact m) :
    (engine.reconcile workflowId).Follows (solo D) (fun _ => fact) (fun _ => fact) m := by
  refine Action.Follows.of_uses fact hfact.stable (fun op hop m _ hm => ?_) (engine.uses_reconcile workflowId) hm
  rcases op with ⟨call, now⟩ | _ | _
  · have htransition : call.isTransition = false := by
      cases call <;> first | rfl | cases hop
    have hpolicies : StoreTable.policies ∉ call.tables := by
      cases call <;> first | (cases hop; done) | simp [Call.tables]
    have hpermitted : Permitted (.store call now) m := by
      cases call <;> first | (cases hop; done) | trivial
    refine ⟨hpermitted, fun outcome site' hexec => ?_⟩
    obtain ⟨-, hperform⟩ := hexec
    rcases Call.perform_cases hperform with ⟨e, rfl, rfl⟩ | ⟨result, rfl, hrun⟩
    · exact ⟨m, .refl, rfl, hm⟩
    · have hquiet := Call.quiet htransition hrun
      exact ⟨m.withStore _, .single (.quiet hquiet (Call.frame hrun hpolicies)), rfl,
        hfact m _ hquiet hm⟩
  · exact absurd hop id
  · exact absurd hop id

/-- The loop over the workflows. -/
theorem follows_reconcileWorkflows {fact : Machine → Prop} (hfact : Unaffected fact)
    {workflows : List WorkflowRecord} {reconciled : List String} {m : Machine} (hm : fact m) :
    (controller.reconcileWorkflows workflows reconciled).Follows (solo D)
      (fun _ => fact) (fun _ _ => True) m := by
  induction workflows generalizing reconciled m with
  | nil => exact Action.Follows.pure (Q := fun _ => fact) hfact.stable hm
  | cons workflow rest ih =>
    refine Action.Follows.bind (fun _ => Unaffected.true.stable) (K := fun _ => fact)
      (Action.Follows.attempt (fun _ => hfact.stable) (follows_reconcile hfact _ _ hm)) fun outcome m _ hm => ?_
    cases outcome with
    | ok _ => exact ih hm
    | error _ => exact ih hm

/-- The machine is in a phase. -/
def InPhase (phase : Phase) (m : Machine) : Prop := m.phase = phase

/-- The phase is not affected by quiet changes. -/
theorem InPhase.unaffected (phase : Phase) : Unaffected (InPhase phase) := fun _ _ _ h => h

/-- A phase says which tasks are batched. -/
theorem InPhase.batched {phase : Phase} {m : Machine} (h : InPhase phase m) {task : TaskRecord}
    (htask : task ∈ phase.batch) : m.Batched task.taskId := by
  obtain rfl : m.phase = phase := h
  exact ⟨task, htask, rfl⟩

/-- The backend has answered with a list of jobs. -/
def Received (jobs : List ExecutorJob) (m : Machine) : Prop :=
  m.phase = .observing ∧ m.site.listed = jobs

/-- The list received is not affected by quiet changes. -/
theorem Received.unaffected (jobs : List ExecutorJob) : Unaffected (Received jobs) := fun _ _ _ h => h

/-- The first read of the loop over the tasks takes a snapshot of every row. -/
theorem follows_listTasks {m : Machine} (hm : Received jobs m) :
    (callStore (.listTasks none) none).Follows (solo D)
      (fun tasks => Observing jobs tasks) (fun _ _ => True) m := by
  refine follows_quiet (.listTasks none) rfl (by simp [Call.tables]) (Received.unaffected jobs)
    (fun tasks => Observing.unaffected jobs tasks)
    (fun m clock tasks store' hm hrun => ?_) hm
  cases hrun
  have hperm := List.perm_insertionSort listingOrder m.site.store.tasks.rows
  have hids : m.site.store.tasks.rows.Pairwise fun a b => a.taskId ≠ b.taskId :=
    m.site.store.tasks.unique.imp fun hclash heq => hclash (Or.inl heq)
  have hrows : (m.site.store.tasks.rows.filter fun row => (none : Option TaskStatus).all (row.status = ·)) =
      m.site.store.tasks.rows := List.filter_eq_self.mpr fun _ _ => rfl
  refine ⟨hm.1, hm.2, fun task htask => ?_, ?_, fun row hrow _ _ => ?_⟩
  · obtain ⟨row, hrow, rfl⟩ := List.mem_map.mp htask
    rw [hrows] at hrow
    exact ⟨row, hperm.mem_iff.mp hrow, rfl, rfl, rfl, rfl⟩
  · rw [SwarmStore.listTasks, hrows]
    exact List.pairwise_map.mpr
      ((hperm.pairwise_iff fun {a b} (h : a.taskId ≠ b.taskId) => h.symm).mpr hids)
  · refine ⟨row.toRecord, List.mem_map_of_mem ?_, rfl⟩
    rw [hrows]
    exact hperm.mem_iff.mpr hrow

/-- The admission of a batch. -/
theorem follows_reserve {limit : ℤ} {m : Machine} (hm : Observing jobs [] m) :
    (callStore (.reserveSubmissions limit) (some now)).Follows (solo D)
      (fun batch => InPhase (.launching batch)) (fun _ _ => True) m := by
  refine follows_call (.reserveSubmissions limit) (Observing.unaffected jobs [])
    (fun batch => InPhase.unaffected (.launching batch)) (fun m _ hm row hrow hstatus => ?_)
    (fun m clock batch store' _ hm hadmits hrun => ?_) hm
  · by_contra hlisted
    obtain ⟨task, htask, -⟩ := hm.settled row hrow hstatus (by rw [← hm.listed]; exact hlisted)
    cases htask
  · obtain ⟨admitted, hdistinct, hchain, rfl⟩ := SwarmStore.reserveSubmissions_eq_ok hrun
    obtain ⟨site, phase⟩ := m
    obtain rfl : phase = .observing := hm.phase
    exact ⟨_, .single (.reserve (hadmits rfl) hdistinct hchain), rfl, rfl⟩

/-- The loop over the admitted batch. -/
theorem follows_launchTasks (hcontroller : D.controllers controller) {batch : List TaskRecord}
    {submitted : List String} {m : Machine} (hm : InPhase (.launching batch) m) :
    (controller.launchTasks now batch submitted).Follows (solo D)
      (fun _ _ => True) (fun _ _ => True) m := by
  induction batch generalizing submitted m with
  | nil => exact Action.Follows.pure (Q := fun _ _ => True) Unaffected.true.stable trivial
  | cons task rest ih =>
    unfold TPUSwarmController.launchTasks
    split
    · refine Action.Follows.bind (fun _ => Unaffected.true.stable) (K := fun _ => InPhase (.launching rest))
        (follows_call (.failTask task.taskId _) (InPhase.unaffected _) (fun _ => InPhase.unaffected _)
          (fun m _ hm => hm.batched List.mem_cons_self) (fun m clock result store' _ hm _ hrun => ?_) hm)
            fun _ m _ hm => ih hm
      obtain ⟨row, hid, hreported⟩ := SwarmStore.failTask_eq_ok hrun
      obtain ⟨site, phase⟩ := m
      obtain rfl : phase = .launching (task :: rest) := hm
      exact ⟨_, .single (.refuse hid hreported), rfl, rfl⟩
    · rename_i spec hspec
      have hlaunch : (launch task spec task.priority).Follows (solo D)
          (fun job => InPhase (.launched task (.ok job) rest))
          (fun e => InPhase (.launched task (.error e) rest)) m := by
        refine Prog.Follows.issue (S := solo D) (c := .launch task spec task.priority)
          (InPhase.unaffected _).stable (fun outcome => ?_)
            (fun m _ hm => ⟨⟨rest, hm⟩, fun outcome site' hexec => ?_⟩) hm
        · cases outcome <;> exact (InPhase.unaffected _).stable
        · obtain ⟨⟩ | ⟨⟩ | ⟨⟩ | ⟨hlaunches⟩ := hexec
          obtain ⟨site, phase⟩ := m
          obtain rfl : phase = .launching (task :: rest) := hm
          exact ⟨_, .single (.launch hcontroller hspec hlaunches), rfl, by cases outcome <;> rfl⟩
      refine Action.Follows.bind (fun _ => Unaffected.true.stable)
        (K := fun outcome => InPhase (.launched task outcome rest))
        (Action.Follows.attempt (fun _ => (InPhase.unaffected _).stable) hlaunch) fun outcome m _ hm => ?_
      cases outcome with
      | error e =>
        dsimp only
        split
        · refine Action.Follows.bind (fun _ => Unaffected.true.stable) (K := fun _ _ => True)
            (follows_call (.resetSubmission task.taskId _) (InPhase.unaffected _)
              (fun _ => Unaffected.true) (fun m _ hm => Or.inl (hm.batched List.mem_cons_self))
              (fun m clock result store' _ hm _ hrun => ?_) hm)
            fun _ m _ _ => Action.Follows.pure (Q := fun _ _ => True) Unaffected.true.stable trivial
          obtain ⟨row, hid, -, -, hrewrites, hframe⟩ := SwarmStore.resetSubmission_eq_ok hrun
          obtain ⟨site, phase⟩ := m
          obtain rfl : phase = .launched task (.error e) rest := hm
          exact ⟨_, .single (.giveUp hid hrewrites hframe), rfl, trivial⟩
        · exact Action.Follows.throw Unaffected.true.stable trivial
      | ok job =>
        refine Action.Follows.bind (fun _ => Unaffected.true.stable) (K := fun _ => InPhase (.launching rest))
          (follows_call (.bindJob task.taskId job.jobId job.status) (InPhase.unaffected _)
            (fun _ => InPhase.unaffected _) (fun m _ hm => Or.inl (hm.batched List.mem_cons_self))
            (fun m clock result store' _ hm _ hrun => ?_) hm) fun _ m _ hm => ih hm
        obtain ⟨row, hid, -, -, hrewrites, hframe⟩ := SwarmStore.bindJob_eq_ok hrun
        obtain ⟨site, phase⟩ := m
        obtain rfl : phase = .launched task (.ok job) rest := hm
        exact ⟨_, .single (.bind hid hrewrites hframe), rfl, rfl⟩

/-- The part of a cycle that only a leader reaches. -/
theorem follows_cycle (hcontroller : D.controllers controller) {m : Machine} (hm : InPhase .idle m) :
    (controller.cycle now).Follows (solo D) (fun _ _ => True) (fun _ _ => True) m := by
  have hlist : listJobs.Follows (solo D) Received (fun _ _ => True) m := by
    refine Prog.Follows.issue (S := solo D) (c := .listJobs) (InPhase.unaffected .idle).stable
      (fun outcome => ?_) (fun m _ hm => ⟨trivial, fun outcome site' hexec => ?_⟩) hm
    · cases outcome with
      | ok jobs => exact (Received.unaffected jobs).stable
      | error e => exact Unaffected.true.stable
    · obtain ⟨site, phase⟩ := m
      obtain rfl : phase = .idle := hm
      obtain ⟨⟩ | ⟨hlists⟩ | ⟨⟩ | ⟨⟩ := hexec
      · exact ⟨_, .single (.list hlists), rfl, rfl, rfl⟩
      · exact ⟨_, .refl, rfl, trivial⟩
  unfold TPUSwarmController.cycle
  refine Action.Follows.bind (fun _ => Unaffected.true.stable)
    (K := Action.post Received fun _ _ => True)
    (Action.Follows.attempt (fun outcome => ?_) hlist) fun outcome m _ hm => ?_
  · cases outcome with
    | ok jobs => exact (Received.unaffected jobs).stable
    | error e => exact Unaffected.true.stable
  · cases outcome with
    | error e =>
      dsimp only
      split
      · exact Action.Follows.pure (Q := fun _ _ => True) Unaffected.true.stable trivial
      · exact Action.Follows.throw Unaffected.true.stable trivial
    | ok jobs =>
      refine Action.Follows.bind (fun _ => Unaffected.true.stable) (follows_listTasks hm) fun tasks m _ hm => ?_
      refine Action.Follows.bind (fun _ => Unaffected.true.stable) (follows_reconcileTasks hm)
        fun reports m _ hm => ?_
      refine Action.Follows.bind (fun _ => Unaffected.true.stable) (K := fun _ => Observing jobs [])
        (follows_quiet (.listWorkflows (some .active)) rfl (by simp [Call.tables])
          (Observing.unaffected jobs []) (fun _ => Observing.unaffected jobs []) (fun _ _ _ _ h _ => h) hm)
        fun workflows m _ hm => ?_
      refine Action.Follows.bind (fun _ => Unaffected.true.stable)
        (follows_reconcileWorkflows (Observing.unaffected jobs []) hm) fun reconciled m _ hm => ?_
      refine Action.Follows.bind (fun _ => Unaffected.true.stable) (follows_reserve hm) fun batch m _ hm => ?_
      exact Action.Follows.bind (fun _ => Unaffected.true.stable) (follows_launchTasks hcontroller hm)
        fun submitted m _ _ => Action.Follows.pure (Q := fun _ _ => True) Unaffected.true.stable trivial

/-- A call of `reconcile_once`. -/
theorem follows_reconcileOnce (hcontroller : D.controllers controller) (lease : Option ControllerLease)
    {m : Machine} (hm : InPhase .idle m) :
    (controller.reconcileOnce lease now).Follows (solo D) (fun _ _ => True) m := by
  have hdone : ∀ (outcome : CycleOutcome) (m : Machine),
      (pure outcome : Prog Operation Operation.Reply CycleOutcome).Follows (solo D) (fun _ _ => True) m :=
    fun _ _ => Prog.Follows.pure (Q := fun _ _ => True) Unaffected.true.stable trivial
  have hleader : ∀ call, call.isTransition = false → StoreTable.policies ∉ call.tables → ∀ m, InPhase .idle m →
      (callStore call (some now)).Follows (solo D) (fun _ => InPhase .idle) (fun _ _ => True) m :=
    fun call htransition hpolicies m hm => follows_quiet call htransition hpolicies
      (InPhase.unaffected _) (fun _ => InPhase.unaffected _) (fun _ _ _ _ h _ => h) hm
  have hheld : (controller.heldLease lease now).Follows (solo D) (fun _ => InPhase .idle)
      (fun _ _ => True) m := by
    cases lease with
    | some held => exact Action.Follows.pure (Q := fun _ => InPhase .idle) (InPhase.unaffected _).stable hm
    | none => exact hleader (.acquireLeadership controller.controllerId _) rfl (by simp [Call.tables]) m hm
  refine Prog.Follows.bind hheld fun started m _ hstarted => ?_
  rcases started with e | _ | held
  · exact hdone _ _
  · exact hdone _ _
  · refine Prog.Follows.bind (hleader (.renewLeadership held controller.leadershipLeaseSeconds) rfl
      (by simp [Call.tables]) m hstarted) fun renewed m _ hrenewed => ?_
    rcases renewed with e | renewed
    · dsimp only
      split
      · exact hdone _ _
      · exact hdone _ _
    · exact Prog.Follows.bind (follows_cycle hcontroller hrenewed) fun result m _ _ => hdone _ _

/-- The machine matches the system: its operations, crashes, new cycles and API calls. -/
theorem simulation_matches (D : Deployment) : (simulation D).Matches where
  env m site' _ henv := by
    obtain ⟨call, now, hapi, rfl⟩ := henv
    have htransition : call.isTransition = false := by
      cases call <;> first | rfl | cases hapi
    refine ⟨_, ⟨(call.perform now m.site.store).2, ?_, rfl⟩, rfl⟩
    rcases call.perform_store now m.site.store with hsame | ⟨result, hrun⟩
    · rw [hsame]
      exact .refl _
    · exact Call.quiet htransition hrun
  crash _ m _ site' _ hcrash := by
    obtain ⟨rfl, -⟩ := hcrash
    exact ⟨m, .refl, rfl, fun _ _ _ => trivial⟩
  begins _ last m program site' _ _ hbegins := by
    obtain ⟨rfl, controller, now, hcontroller, rfl⟩ := hbegins
    exact ⟨⟨m.site, .idle⟩, .single .stop, rfl, follows_reconcileOnce hcontroller last.2 rfl⟩

/-- The machine before anything happened. -/
def Machine.initial : Machine := ⟨Site.initial, .idle⟩

/-- The invariant holds at first. -/
theorem Invariant.initial : Invariant Machine.initial :=
  ⟨fun _ hrow => absurd hrow List.not_mem_nil, EventsTruthful.empty,
    fun _ htask => absurd htask List.not_mem_nil, List.Pairwise.nil⟩

/-- Every reachable state of the system stands for a reachable state of the machine. -/
theorem Deployment.Reachable.related {D : Deployment} {s : D.SystemState} (h : D.Reachable s) :
    ∃ m, ReflTransGen (simulation D).anyMove Machine.initial m ∧ (simulation D).Related m s :=
  Pool.Simulation.run (simulation_matches D)
    (Pool.Simulation.Related.of_finished (simulation D) rfl Invariant.initial
      fun _ => ⟨_, rfl, fun _ => trivial⟩) h

end TPUSwarm
