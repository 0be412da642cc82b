import TPUSwarm.Backend
import TPUSwarm.Invariants.KnownWorkflows
import TPUSwarm.Session.Reservations
import TPUSwarm.Store.Admission
import TPUSwarm.Store.Returns

/-!
# A job configuration that SkyPilot rejects

The adapter reports a rejected configuration as an unavailable backend, and the loop over a
batch stops there. So a task that cannot be launched keeps those behind it from being
launched, unless none of them could be compiled anyway.
-/

namespace TPUSwarm

open Common SwarmStore SkyPilotBackend

variable {σ : Type}

/-- One operation of a controller that launches through the adapter. -/
inductive Adapted (sky : Sky σ) : (op : Operation) → SwarmStore × σ → op.Reply → SwarmStore × σ → Prop
  | store {call now clock store outcome store' server}
      (hperform : call.perform (now.getD clock) store = (outcome, store')) :
      Adapted sky (.store call now) (store, server) outcome (store', server)
  | listJobs {store server outcome server'} : Adapted sky .listJobs (store, server) outcome (store, server')
  | launch {task spec priority store server outcome server'}
      (hlaunch : SkyPilotBackend.launch (some sky) spec priority server = (outcome, server')) :
      Adapted sky (.launch task spec priority) (store, server) outcome (store, server')

/-- The end of `reconcile_once`: the reservation of a batch and the loop over it. -/
def TPUSwarmController.launchBatch (controller : TPUSwarmController) (now : Time) : Effect (List String) := do
  let batch ← callStore (.reserveSubmissions controller.submissionBatchSize) (some now)
  controller.launchTasks now batch []

/-- A task was bound to the job that its launch returned. -/
def Bound (trace : List (Sigma Operation.Reply)) (taskId : String) : Prop :=
  ∃ task spec priority job now reply, task.taskId = taskId ∧ launched task spec priority (.ok job) ∈ trace ∧
    (⟨.store (.bindJob taskId job.jobId job.status) now, .ok reply⟩ : Sigma Operation.Reply) ∈ trace

/-- The tasks of a batch that the loop launches when SkyPilot rejects some of them. -/
def launches (controller : TPUSwarmController) (rejected : TaskRecord → Bool) : List TaskRecord → List TaskRecord
  | [] => []
  | task :: rest =>
    match controller.compileJob task with
    | .error _ => launches controller rejected rest
    | .ok _ => if rejected task then [] else task :: launches controller rejected rest

/-- A world in which the tasks of a batch are being submitted, and the jobs of all tasks were given their ids
by the server. -/
structure Submitting (given : σ → Set String) (batch : List TaskRecord) (world : SwarmStore × σ) : Prop where
  rows : ∀ task ∈ batch, ∃ row ∈ world.1.tasks.rows, row.taskId = task.taskId ∧ row.status = .submitting
  known : KnownWorkflows world.1
  jobs : ∀ row ∈ world.1.tasks.rows, ∀ jobId, row.jobId = some jobId → jobId ∈ given world.2

/-- Two ways of SkyPilot to treat a batch: it accepts everything, or rejects one of its tasks and accepts the
others. -/
structure RejectsOnly (controller : TPUSwarmController) (given : σ → Set String) (sky sky' : Sky σ)
    (batch : List TaskRecord) (p : TaskRecord) : Prop where
  accepts : ∀ task ∈ batch, ∀ spec, controller.compileJob task = .ok spec → AcceptsJob sky given spec task.priority
  others : ∀ task ∈ batch, task.taskId ≠ p.taskId → ∀ spec, controller.compileJob task = .ok spec →
    AcceptsJob sky' given spec task.priority
  rejects : ∀ spec, controller.compileJob p = .ok spec → RejectsJob sky' spec p.priority

variable {controller : TPUSwarmController} {given : σ → Set String} {sky sky' : Sky σ}
  {batch rest : List TaskRecord}
  {task p : TaskRecord} {store store' : SwarmStore} {server server' : σ} {now : Time}
  {trace first second : List (Sigma Operation.Reply)}

/-- A call of the store that returns, and what follows it. -/
theorem adapted_callStore {α : Type} {call : Call} {result : call.Result} {f : call.Result → Effect α}
    {outcome : Except PyError α} {world : SwarmStore × σ} (hreturns : call.run now store = .ok (result, store'))
    (h : (callStore call (some now) >>= f).Runs (Adapted sky) (store, server) trace outcome world) :
    ∃ rest, trace = ⟨.store call (some now), .ok result⟩ :: rest ∧
      (f result).Runs (Adapted sky) (store', server) rest outcome world := by
  have hperforms : ∀ {reply world'}, Adapted sky (.store call (some now)) (store, server) reply world' →
      reply = .ok result ∧ world' = (store', server) := by
    intro reply world' hexec
    cases hexec with
    | store hperform =>
      have hsame : call.perform now store = (.ok result, store') := by rw [Call.perform, hreturns]
      cases hsame.symm.trans hperform
      exact ⟨rfl, rfl⟩
  rcases Action.runs_bind.mp h with ⟨e, -, hraised⟩ | ⟨first, reply, mid, second, rfl, hfirst, hsecond⟩
  · obtain ⟨-, hexec⟩ := Prog.runs_issue.mp hraised
    cases (hperforms hexec).1
  · obtain ⟨rfl, hexec⟩ := Prog.runs_issue.mp hfirst
    obtain ⟨hreply, rfl⟩ := hperforms hexec
    cases hreply
    exact ⟨second, rfl, hsecond⟩

/-- A launch whose error is caught, and what follows it. -/
theorem adapted_launch {α : Type} {spec : ManagedJobSpec} {priority : Priority}
    {answer : Except PyError ExecutorJob}
    {f : Except PyError ExecutorJob → Effect α} {outcome : Except PyError α} {world : SwarmStore × σ}
    (hlaunch : SkyPilotBackend.launch (some sky) spec priority server = (answer, server'))
    (h : (Action.attempt (launch task spec priority) >>= f).Runs (Adapted sky)
      (store, server) trace outcome world) :
    ∃ rest, trace = launched task spec priority answer :: rest ∧
      (f answer).Runs (Adapted sky) (store, server') rest outcome world := by
  rcases Action.runs_bind.mp h with ⟨e, -, hraised⟩ | ⟨first, reply, mid, second, rfl, hfirst, hsecond⟩
  · obtain ⟨_, hreply, -⟩ := Action.runs_attempt.mp hraised
    cases hreply
  · obtain ⟨reply, hreply, hissued⟩ := Action.runs_attempt.mp hfirst
    cases hreply
    obtain ⟨rfl, hexec⟩ := Prog.runs_issue.mp hissued
    cases hexec with
    | launch hlaunched =>
      cases hlaunch.symm.trans hlaunched
      exact ⟨second, rfl, hsecond⟩

/-- The event of another call does not bind. -/
theorem bound_cons_iff {event : Sigma Operation.Reply} {taskId : String}
    (hlaunch : ∀ task spec priority job, launched task spec priority (.ok job) ≠ event)
    (hbind : ∀ jobId status now reply,
      (⟨.store (.bindJob taskId jobId status) now, .ok reply⟩ : Sigma Operation.Reply) ≠ event) :
    Bound (event :: trace) taskId ↔ Bound trace taskId := by
  constructor
  · rintro ⟨task, spec, priority, job, now, reply, hid, hlaunched, hbound⟩
    exact ⟨task, spec, priority, job, now, reply, hid,
      (List.mem_cons.mp hlaunched).resolve_left (hlaunch _ _ _ _),
      (List.mem_cons.mp hbound).resolve_left (hbind _ _ _ _)⟩
  · rintro ⟨task, spec, priority, job, now, reply, hid, hlaunched, hbound⟩
    exact ⟨task, spec, priority, job, now, reply, hid, List.mem_cons_of_mem _ hlaunched,
      List.mem_cons_of_mem _ hbound⟩

/-- The events of a launch and its binding bind their task. -/
theorem bound_launched_iff {spec : ManagedJobSpec} {priority : Priority} {job : ExecutorJob} {reply : TaskRecord}
    {taskId : String} :
    Bound (launched task spec priority (.ok job) ::
        ⟨.store (.bindJob task.taskId job.jobId job.status) (some now), .ok reply⟩ :: trace) taskId ↔
      task.taskId = taskId ∨ Bound trace taskId := by
  constructor
  · rintro ⟨t, s, pr, j, n, r, hid, hlaunched, hbound⟩
    rcases List.mem_cons.mp hlaunched with heq | hlaunched
    · exact Or.inl ((launched_eq heq).1 ▸ hid)
    rcases List.mem_cons.mp hlaunched with heq | hlaunched
    · exact absurd heq launched_ne
    rcases List.mem_cons.mp hbound with heq | hbound
    · exact absurd heq.symm launched_ne
    rcases List.mem_cons.mp hbound with heq | hbound
    · have hcall := congrArg Sigma.fst heq
      simp only [Operation.store.injEq, Call.bindJob.injEq] at hcall
      exact Or.inl hcall.1.1.symm
    · exact Or.inr ⟨t, s, pr, j, n, r, hid, hlaunched, hbound⟩
  · rintro (rfl | ⟨t, s, pr, j, n, r, hid, hlaunched, hbound⟩)
    · exact ⟨task, spec, priority, job, some now, reply, rfl, List.mem_cons_self,
        List.mem_cons_of_mem _ List.mem_cons_self⟩
    · exact ⟨t, s, pr, j, n, r, hid, List.mem_cons_of_mem _ (List.mem_cons_of_mem _ hlaunched),
        List.mem_cons_of_mem _ (List.mem_cons_of_mem _ hbound)⟩

namespace Submitting

/-- A call that moves one task only, and gives it at most a job that the server has numbered. -/
theorem moved {row row' : TaskRow} {call : Call} {result : call.Result}
    (h : Submitting given (task :: rest) (store, server)) (hdistinct : ∀ t ∈ rest, task.taskId ≠ t.taskId)
    (hid : row.taskId = task.taskId) (hrun : call.run now store = .ok (result, store'))
    (hrewrites : Rewrites store store' row row')
    (hgiven : given server ⊆ given server')
    (hjob : ∀ jobId, row'.jobId = some jobId → row.jobId = some jobId ∨ jobId ∈ given server') :
    Submitting given rest (store', server') := by
  refine ⟨fun t ht => ?_, h.known.run hrun, fun r hr jobId hr' => ?_⟩
  · obtain ⟨r, hr, hrid, hstatus⟩ := h.rows t (List.mem_cons_of_mem _ ht)
    refine ⟨r, hrewrites.mem_iff.mpr (Or.inr ⟨hr, fun hsame => ?_⟩), hrid, hstatus⟩
    exact hdistinct t ht (hid.symm.trans (hsame.symm.trans hrid))
  · rcases hrewrites.mem_iff.mp hr with rfl | ⟨hold, -⟩
    · exact (hjob jobId hr').elim (fun hsame => hgiven (h.jobs row hrewrites.mem jobId hsame)) id
    · exact hgiven (h.jobs r hold jobId hr')

/-- A reservation starts the submission of its batch. -/
theorem reserved {limit : ℤ} (hreachable : History anyCall .empty store)
    (hjobs : ∀ row ∈ store.tasks.rows, ∀ jobId, row.jobId = some jobId → jobId ∈ given server)
    (hrun : reserveSubmissions limit now store = .ok (batch, store')) :
    Submitting given batch (store', server) ∧ batch.Pairwise fun a b => a.taskId ≠ b.taskId := by
  obtain ⟨admitted, hdistinct, hchain, rfl⟩ := reserveSubmissions_eq_ok hrun
  have hcall : (Call.reserveSubmissions limit).run now store =
      .ok (admitted.map fun row => (row.admitted now).toRecord, store') := hrun
  have hkept : ∀ row' ∈ store'.tasks.rows, ∃ row ∈ store.tasks.rows, row.jobId = row'.jobId := by
    clear hrun hcall hjobs hreachable
    induction hchain with
    | nil => exact fun row hrow => ⟨row, hrow, rfl⟩
    | cons first _ ih =>
      intro row' hrow'
      obtain ⟨mid, hmid, hsame⟩ := ih (List.pairwise_cons.mp hdistinct).2 row' hrow'
      rcases first.rewrites.mem_iff.mp hmid with rfl | ⟨hold, -⟩
      · exact ⟨_, first.rewrites.mem, hsame⟩
      · exact ⟨mid, hold, hsame⟩
  refine ⟨⟨fun task htask => ?_, (known_workflows hreachable).run hcall, fun row' hrow' jobId hjob => ?_⟩,
    List.pairwise_map.mpr hdistinct⟩
  · obtain ⟨row, hrow, rfl⟩ := List.mem_map.mp htask
    exact ⟨row.admitted now, hchain.mem_admitted hrow, rfl, rfl⟩
  · obtain ⟨row, hrow, hsame⟩ := hkept row' hrow'
    exact hjobs row hrow jobId (hsame.trans hjob)

end Submitting

/-- After a rejected launch the loop gives up the reservation, and nothing more is bound. -/
theorem bound_reset {spec : ManagedJobSpec} {priority : Priority} {e : PyError} {submitted : List String}
    {outcome : Except PyError (List String)} {world : SwarmStore × σ} {reason taskId : String}
    (h : ((callStore (.resetSubmission task.taskId reason) (some now) >>= fun _ => pure submitted) :
      Effect (List String)).Runs (Adapted sky) (store, server) trace outcome world) :
    ¬ Bound (launched task spec priority (.error e) :: trace) taskId := by
  have htrace : ∃ reply : Except PyError TaskRecord,
      trace = [⟨.store (.resetSubmission task.taskId reason) (some now), reply⟩] := by
    rcases Action.runs_bind.mp h with ⟨raised, -, hraised⟩ | ⟨first, reply, mid, second, rfl, hfirst, hsecond⟩
    · exact ⟨_, (Prog.runs_issue.mp hraised).1⟩
    · obtain ⟨rfl, -, -⟩ := Action.runs_pure.mp hsecond
      exact ⟨.ok reply, (List.append_nil first).trans (Prog.runs_issue.mp hfirst).1⟩
  obtain ⟨reply, rfl⟩ := htrace
  have hreset : ∀ t s p job, launched t s p (.ok job) ≠
      ⟨.store (.resetSubmission task.taskId reason) (some now), reply⟩ := fun _ _ _ _ => launched_ne
  rintro ⟨t, s, p, job, _, _, -, hlaunched, -⟩
  rcases List.mem_cons.mp hlaunched with heq | hlaunched
  · cases (launched_eq heq).2
  · exact hreset t s p job (List.mem_singleton.mp hlaunched)

/-- What the loop over a batch launches and binds. -/
theorem launchTasks_bound {rejected : TaskRecord → Bool} {submitted : List String}
    {outcome : Except PyError (List String)} {world : SwarmStore × σ}
    (hdistinct : batch.Pairwise fun a b => a.taskId ≠ b.taskId) (h : Submitting given batch (store, server))
    (hsky : ∀ task ∈ batch, ∀ spec, controller.compileJob task = .ok spec →
      if rejected task then RejectsJob sky spec task.priority else AcceptsJob sky given spec task.priority)
    (hrun : (controller.launchTasks now batch submitted).Runs (Adapted sky) (store, server) trace outcome world)
    (taskId : String) : Bound trace taskId ↔ ∃ task ∈ launches controller rejected batch, task.taskId = taskId := by
  induction batch generalizing store server trace submitted with
  | nil =>
    obtain ⟨rfl, -, -⟩ := Action.runs_pure.mp hrun
    simp [Bound, launches]
  | cons task rest ih =>
    obtain ⟨hfirst, hrest⟩ := List.pairwise_cons.mp hdistinct
    obtain ⟨row, hrow, hid, hstatus⟩ := h.rows task List.mem_cons_self
    have hothers := fun t ht => hsky t (List.mem_cons_of_mem task ht)
    rw [TPUSwarmController.launchTasks] at hrun
    cases hcompile : controller.compileJob task with
    | error e =>
      simp only [hcompile] at hrun
      rw [launches, hcompile]
      obtain ⟨failed, written, hfail⟩ := failTask_returns hrow hid (h.known.tasks row hrow)
        ("invalid managed-job definition: " ++ e.kind.name ++ ": " ++ e.text) now
      have hcall : (Call.failTask task.taskId
          ("invalid managed-job definition: " ++ e.kind.name ++ ": " ++ e.text)).run now store =
        .ok (failed, written) := hfail
      obtain ⟨second, rfl, hloop⟩ := adapted_callStore hcall hrun
      obtain ⟨failedRow, hfailedId, hreported⟩ := failTask_eq_ok hfail
      rw [bound_cons_iff (fun _ _ _ _ => launched_ne) fun _ _ _ _ heq => by cases congrArg Sigma.fst heq]
      exact ih hrest (h.moved hfirst hfailedId hcall hreported.rewrites (subset_refl _) fun _ hjob => Or.inl hjob)
        hothers hloop
    | ok spec =>
      simp only [hcompile] at hrun
      have hanswer := hsky task List.mem_cons_self spec hcompile
      rw [launches, hcompile]
      cases hrejected : rejected task with
      | true =>
        rw [if_pos hrejected] at hanswer
        obtain ⟨e, hkind, hlaunch⟩ := hanswer.launch_eq server
        obtain ⟨second, rfl, hafter⟩ := adapted_launch hlaunch hrun
        simp only [hkind, if_true] at hafter
        simp [bound_reset hafter]
      | false =>
        rw [hrejected, if_neg Bool.false_ne_true] at hanswer
        obtain ⟨job, server', hlaunch, hnew, hgiven⟩ := hanswer server
        obtain ⟨second, rfl, hafter⟩ := adapted_launch hlaunch hrun
        have hfresh : ∀ r ∈ store.tasks.rows, r.jobId ≠ some job.jobId :=
          fun r hr hjob => hnew (h.jobs r hr job.jobId hjob)
        obtain ⟨written, hbind, hrewrites⟩ := bindJob_returns hrow hid hstatus hfresh now
        have hcall : (Call.bindJob task.taskId job.jobId job.status).run now store =
          .ok ((row.bound job.jobId job.status now).toRecord, written) := hbind
        obtain ⟨third, rfl, hloop⟩ := adapted_callStore hcall hafter
        have hmoved : Submitting given rest (written, server') :=
          h.moved hfirst hid hcall hrewrites (by rw [hgiven]; exact Set.subset_insert _ _) fun jobId hjob => by
            rw [hgiven, ← Option.some.inj hjob]
            exact Or.inr (Set.mem_insert _ _)
        rw [bound_launched_iff, ih hrest hmoved hothers hloop]
        simp

/-- A task compiles to a job definition. -/
def compiles (controller : TPUSwarmController) (task : TaskRecord) : Bool := (controller.compileJob task).isOk

/-- The test says whether a task compiles. -/
theorem compiles_iff : compiles controller task ↔ ∃ spec, controller.compileJob task = .ok spec := by
  unfold compiles
  cases controller.compileJob task <;> simp [Except.isOk, Except.toBool]

/-- When nothing is rejected, everything that compiles is launched. -/
theorem launches_none (batch : List TaskRecord) :
    launches controller (fun _ => false) batch = batch.filter (compiles controller) := by
  induction batch with
  | nil => rfl
  | cons task rest ih =>
    rw [launches, List.filter_cons, ← ih]
    unfold compiles
    cases controller.compileJob task <;> rfl

/-- When one task of a batch is rejected, only what stands before it is launched, unless it does not compile. -/
theorem launches_one {rejected : TaskRecord → Bool} {before after : List TaskRecord}
    (hbefore : ∀ task ∈ before, rejected task = false) (hp : rejected p = true)
    (hafter : ∀ task ∈ after, rejected task = false) : launches controller rejected (before ++ p :: after) =
      before.filter (compiles controller) ++ if compiles controller p then []
        else after.filter (compiles controller) := by
  induction before with
  | nil =>
    have hrest : launches controller rejected after = after.filter (compiles controller) := by
      rw [← launches_none]
      clear hbefore
      induction after with
      | nil => rfl
      | cons task rest ih =>
        rw [launches, launches, ih fun t ht => hafter t (List.mem_cons_of_mem task ht),
          hafter task List.mem_cons_self]
    rw [List.nil_append, launches, hrest, hp]
    unfold compiles
    cases controller.compileJob p <;> rfl
  | cons task rest ih =>
    rw [List.cons_append, launches, ih fun t ht => hbefore t (List.mem_cons_of_mem task ht),
      hbefore task List.mem_cons_self, List.filter_cons]
    unfold compiles
    cases controller.compileJob task <;> rfl

/-- Nothing behind a task in its batch compiles. -/
def NoneBehind (controller : TPUSwarmController) (batch : List TaskRecord) (p : TaskRecord) : Prop :=
  ∀ before after, batch = before ++ p :: after → ∀ task ∈ after, compiles controller task = false

/-- `reconcile_once` ends with it, and nothing was launched before. -/
theorem cycle_launchBatch (controller : TPUSwarmController) (now : Time) : controller.cycle now = (do
    match ← Action.attempt listJobs with
    | .error e => if e.kind = .backendUnavailable then return ⟨true, false, [], [], [], []⟩ else throw e
    | .ok jobs => do
      let tasks ← callStore (.listTasks none) none
      let (adopted, observed) ← controller.reconcileTasks jobs now tasks [] []
      let workflows ← callStore (.listWorkflows (some .active)) none
      let reconciled ← controller.reconcileWorkflows workflows []
      let submitted ← controller.launchBatch now
      return ⟨true, true, sorted adopted, sorted observed, sorted submitted, sorted reconciled⟩) := by
  refine congrArg (Action.attempt listJobs >>= ·) (funext fun outcome => ?_)
  cases outcome with
  | error e => rfl
  | ok jobs => simp only [TPUSwarmController.launchBatch, bind_assoc]

/-- What the end of `reconcile_once` launches and binds. -/
theorem launchBatch_bound {rejected : TaskRecord → Bool} {outcome : Except PyError (List String)}
    {world : SwarmStore × σ} (hreachable : History anyCall .empty store)
    (hjobs : ∀ row ∈ store.tasks.rows, ∀ jobId, row.jobId = some jobId → jobId ∈ given server)
    (hreserve : reserveSubmissions controller.submissionBatchSize now store = .ok (batch, store'))
    (hsky : ∀ task ∈ batch, ∀ spec, controller.compileJob task = .ok spec →
      if rejected task then RejectsJob sky spec task.priority else AcceptsJob sky given spec task.priority)
    (hrun : (controller.launchBatch now).Runs (Adapted sky) (store, server) trace outcome world)
    (taskId : String) : Bound trace taskId ↔ ∃ task ∈ launches controller rejected batch, task.taskId = taskId := by
  obtain ⟨hsubmitting, hdistinct⟩ := Submitting.reserved hreachable hjobs hreserve
  have hcall : (Call.reserveSubmissions controller.submissionBatchSize).run now store = .ok (batch, store') :=
    hreserve
  obtain ⟨rest, rfl, hloop⟩ := adapted_callStore hcall hrun
  rw [bound_cons_iff (fun _ _ _ _ => launched_ne) fun _ _ _ _ heq => by cases congrArg Sigma.fst heq]
  exact launchTasks_bound hdistinct hsubmitting hsky hloop taskId

/-- The tasks of a batch that SkyPilot rejects. -/
theorem RejectsOnly.treats (h : RejectsOnly controller given sky sky' batch p) (hp : p ∈ batch)
    (hdistinct : batch.Pairwise fun a b => a.taskId ≠ b.taskId) :
    (∀ task ∈ batch, ∀ spec, controller.compileJob task = .ok spec →
      if (fun _ => false : TaskRecord → Bool) task then RejectsJob sky spec task.priority
        else AcceptsJob sky given spec task.priority) ∧
      ∀ task ∈ batch, ∀ spec, controller.compileJob task = .ok spec →
        if (fun task => task.taskId = p.taskId : TaskRecord → Bool) task then RejectsJob sky' spec task.priority
          else AcceptsJob sky' given spec task.priority := by
  constructor
  · intro task htask spec hcompile
    simpa using h.accepts task htask spec hcompile
  · intro task htask spec hcompile
    by_cases hid : task.taskId = p.taskId
    · obtain rfl := List.inj_on_of_nodup_map (List.pairwise_map.mpr hdistinct) htask hp hid
      simpa using h.rejects spec hcompile
    · simpa [hid] using h.others task htask hid spec hcompile

/-- Whether SkyPilot rejects the configuration of one task of a batch or accepts it, the same other tasks are
launched and bound if and only if this task does not compile or nothing behind it in the batch does. -/
theorem others_launched_iff {outcome outcome' : Except PyError (List String)} {world world' : SwarmStore × σ}
    {trace' : List (Sigma Operation.Reply)} (hreachable : History anyCall .empty store)
    (hjobs : ∀ row ∈ store.tasks.rows, ∀ jobId, row.jobId = some jobId → jobId ∈ given server)
    (hreserve : reserveSubmissions controller.submissionBatchSize now store = .ok (batch, store')) (hp : p ∈ batch)
    (hsky : RejectsOnly controller given sky sky' batch p)
    (hrun : (controller.launchBatch now).Runs (Adapted sky) (store, server) trace outcome world)
    (hrun' : (controller.launchBatch now).Runs (Adapted sky') (store, server) trace' outcome' world') :
    (∀ taskId, taskId ≠ p.taskId → (Bound trace taskId ↔ Bound trace' taskId)) ↔
      (compiles controller p → NoneBehind controller batch p) := by
  have hdistinct := (Submitting.reserved hreachable hjobs hreserve).2
  obtain ⟨haccepts, hrejects⟩ := hsky.treats hp hdistinct
  simp only [launchBatch_bound hreachable hjobs hreserve haccepts hrun,
    launchBatch_bound hreachable hjobs hreserve hrejects hrun', launches_none]
  obtain ⟨before, after, rfl⟩ := List.append_of_mem hp
  obtain ⟨-, hlater, hcross⟩ := List.pairwise_append.mp hdistinct
  have hbefore : ∀ task ∈ before, task.taskId ≠ p.taskId := fun task htask => hcross task htask p List.mem_cons_self
  have hafter : ∀ task ∈ after, p.taskId ≠ task.taskId := (List.pairwise_cons.mp hlater).1
  rw [launches_one (fun task htask => by simpa using hbefore task htask) (by simp)
    fun task htask => by simpa using (hafter task htask).symm]
  constructor
  · intro hequal hcompiles first last hsplit task htask
    obtain ⟨rfl, -, rfl⟩ := (List.append_cons_inj_of_notMem (fun hmem => hbefore p hmem rfl)
      fun hmem => hafter p hmem rfl).mp hsplit
    by_contra hlaunchable
    have hlaunched := (hequal task.taskId (hafter task htask).symm).mp
      ⟨task, List.mem_filter.mpr ⟨List.mem_append_right _ (List.mem_cons_of_mem _ htask),
        by simpa using hlaunchable⟩, rfl⟩
    rw [if_pos hcompiles, List.append_nil] at hlaunched
    obtain ⟨other, hother, hid⟩ := hlaunched
    exact hcross other (List.mem_of_mem_filter hother) task (List.mem_cons_of_mem _ htask) hid
  · intro hnone taskId hne
    by_cases hcompiles : compiles controller p = true
    · have hempty : after.filter (compiles controller) = [] :=
        List.filter_eq_nil_iff.mpr fun task htask => by simp [hnone hcompiles before after rfl task htask]
      rw [if_pos hcompiles, List.filter_append, List.filter_cons_of_pos hcompiles, hempty, List.append_nil]
      constructor
      · rintro ⟨task, htask, rfl⟩
        rcases List.mem_append.mp htask with hmem | hmem
        · exact ⟨task, hmem, rfl⟩
        · rw [List.mem_singleton.mp hmem] at hne
          exact absurd rfl hne
      · rintro ⟨task, htask, rfl⟩
        exact ⟨task, List.mem_append_left _ htask, rfl⟩
    · rw [if_neg hcompiles, List.filter_append, List.filter_cons_of_neg hcompiles]

/-- A sample of SkyPilot that numbers its jobs and rejects some job names. -/
def sampleSky (rejected : String → Bool) : Sky ℕ where
  Task := Unit
  Request := Unit
  fromYamlConfig config := match (config.get? "name").map Json.view with
    | some (.str name) => if rejected name then .error ⟨.value, "Invalid task YAML"⟩ else .ok ()
    | _ => .ok ()
  launch _ _ _ server := (.ok (), server)
  streamAndGet _ server := (.ok (.tuple (some [(server : ℤ)])), server + 1)

/-- The ids it has given. -/
def sampleGiven (server : ℕ) : Set String := {jobId | ∃ n < server, jobId = toString (n : ℤ)}

/-- The sample SDK reads every definition but the rejected ones. -/
theorem sampleSky_reads (rejected : String → Bool) (job : ManagedJobSpec) (priority : Priority) :
    (sampleSky rejected).fromYamlConfig (job.toSkyConfig priority) =
      if rejected job.name then .error ⟨.value, "Invalid task YAML"⟩ else .ok () := by
  simp only [sampleSky, ManagedJobSpec.get?_toSkyConfig_name, Option.map_some, Json.view_str]

/-- The sample SDK accepts every job but the rejected ones. -/
theorem sampleSky_accepts {rejected : String → Bool} {job : ManagedJobSpec} (hname : rejected job.name = false)
    (priority : Priority) : AcceptsJob (sampleSky rejected) sampleGiven job priority := by
  intro server
  refine ⟨{ jobId := toString (server : ℤ), name := job.name, status := "PENDING" }, server + 1, ?_, ?_, ?_⟩
  · have hread := sampleSky_reads rejected job priority
    rw [hname, if_neg Bool.false_ne_true] at hread
    simp only [SkyPilotBackend.launch, request, hread]
    rfl
  · rintro ⟨n, hlt, hsame⟩
    have htexts : (Nat.repr server).toList = (Nat.repr n).toList := congrArg String.toList hsame
    have hnumbers := numeral_injective (by simpa using htexts)
    omega
  · ext jobId
    simp only [sampleGiven, Set.mem_ofPred_eq, Set.mem_insert_iff]
    constructor
    · rintro ⟨n, hlt, rfl⟩
      rcases Nat.lt_succ_iff_lt_or_eq.mp hlt with hlt | rfl
      · exact Or.inr ⟨n, hlt, rfl⟩
      · exact Or.inl rfl
    · rintro (rfl | ⟨n, hlt, rfl⟩)
      · exact ⟨server, Nat.lt_succ_self server, rfl⟩
      · exact ⟨n, Nat.lt_succ_of_lt hlt, rfl⟩

/-- The sample rejects one task of a batch, and no other if their job names differ. -/
theorem sample_rejectsOnly (hnames : ∀ task ∈ batch, task.jobName = p.jobName → task.taskId = p.taskId) :
    RejectsOnly sampleController sampleGiven (sampleSky fun _ => false) (sampleSky fun name => name = p.jobName)
      batch p := by
  refine ⟨fun task _ spec _ => sampleSky_accepts rfl task.priority, fun task htask hne spec hcompile => ?_,
    fun spec hcompile => ?_⟩
  · apply sampleSky_accepts
    rw [sampleController_names hcompile, decide_eq_false_iff_not]
    exact fun hname => hne (hnames task htask hname)
  · refine ⟨⟨.value, "Invalid task YAML"⟩, ?_⟩
    rw [sampleSky_reads, sampleController_names hcompile, decide_eq_true rfl, if_pos rfl]

/-- Every operation gets an answer. -/
theorem Adapted.total (sky : Sky σ) (op : Operation) (world : SwarmStore × σ) :
    ∃ reply world', Adapted sky op world reply world' := by
  cases op with
  | store call now => exact ⟨_, _, .store (rfl : call.perform (now.getD 0) world.1 = _)⟩
  | listJobs => exact ⟨.ok [], world, .listJobs⟩
  | launch task spec priority => exact ⟨_, _, .launch rfl⟩

/-- The batch is of the two tasks. They have names of their own, and both compile. -/
def admitsBoth : List TaskRecord → Bool
  | [first, second] => first.taskId = "t1" && second.taskId = "t2" && first.jobName ≠ second.jobName &&
      compiles sampleController first && compiles sampleController second
  | _ => false

/-- A batch of two tasks, that both compile and have job names of their own. -/
theorem twoTasks_reserved : ∃ first second store',
    reserveSubmissions sampleController.submissionBatchSize 1 twoTasks = .ok ([first, second], store') ∧
      first.taskId = "t1" ∧ second.taskId = "t2" ∧ first.jobName ≠ second.jobName ∧
        compiles sampleController first = true ∧ compiles sampleController second = true := by
  have hcheck : ((reserveSubmissions sampleController.submissionBatchSize 1 twoTasks).toOption.any fun reserved =>
      admitsBoth reserved.1) = true := by
    decide +kernel
  obtain ⟨⟨batch, store'⟩, hreserve, hbatch⟩ := (Option.any_eq_true _ _).mp hcheck
  rw [toOption_eq_some] at hreserve
  dsimp only [admitsBoth] at hbatch
  split at hbatch
  · rename_i first second
    simp only [Bool.and_eq_true, decide_eq_true_eq] at hbatch
    obtain ⟨⟨⟨⟨hfirst, hsecond⟩, hnames⟩, hcompiles⟩, hcompiles'⟩ := hbatch
    exact ⟨first, second, store', hreserve, hfirst, hsecond, hnames, hcompiles, hcompiles'⟩
  · cases hbatch

/-- None of the two tasks has a job. -/
theorem twoTasks_jobs : ∀ row ∈ twoTasks.tasks.rows, ∀ jobId, row.jobId = some jobId → jobId ∈ sampleGiven 7 := by
  have hnone : ∀ row ∈ twoTasks.tasks.rows, row.jobId = none := by decide +kernel
  intro row hrow jobId hjob
  rw [hnone row hrow] at hjob
  cases hjob

/-- The first task of a batch is rejected, so the second one is not launched, which it is otherwise. -/
theorem other_not_launched : ∃ (sky sky' : Sky ℕ) (batch : List TaskRecord) (p : TaskRecord) (store' : SwarmStore)
    (trace trace' : List (Sigma Operation.Reply)) (outcome outcome' : Except PyError (List String))
    (world world' : SwarmStore × ℕ), History anyCall .empty twoTasks ∧
      reserveSubmissions sampleController.submissionBatchSize 1 twoTasks = .ok (batch, store') ∧ p ∈ batch ∧
        RejectsOnly sampleController sampleGiven sky sky' batch p ∧
          (sampleController.launchBatch 1).Runs (Adapted sky) (twoTasks, 7) trace outcome world ∧
            (sampleController.launchBatch 1).Runs (Adapted sky') (twoTasks, 7) trace' outcome' world' ∧
              p.taskId ≠ "t2" ∧ Bound trace "t2" ∧ ¬ Bound trace' "t2" := by
  obtain ⟨first, second, store', hreserve, hfirst, hsecond, hnames, hcompiles, hcompiles'⟩ := twoTasks_reserved
  have hreachable : History anyCall .empty twoTasks := history_any .empty _
  have hmem : first ∈ [first, second] := List.mem_cons_self
  have hsky : RejectsOnly sampleController sampleGiven (sampleSky fun _ => false)
      (sampleSky fun name => name = first.jobName) [first, second] first := by
    apply sample_rejectsOnly
    simp [hnames.symm]
  obtain ⟨trace, outcome, world, hrun⟩ := Prog.exists_runs (Adapted.total (sampleSky fun _ => false))
    (sampleController.launchBatch 1).run (twoTasks, 7)
  obtain ⟨trace', outcome', world', hrun'⟩ := Prog.exists_runs
    (Adapted.total (sampleSky fun name => name = first.jobName)) (sampleController.launchBatch 1).run (twoTasks, 7)
  obtain ⟨haccepts, hrejects⟩ := hsky.treats hmem (Submitting.reserved hreachable twoTasks_jobs hreserve).2
  refine ⟨_, _, _, first, store', trace, trace', outcome, outcome', world, world', hreachable, hreserve, hmem, hsky,
    hrun, hrun', by simp [hfirst], ?_, ?_⟩
  · rw [launchBatch_bound hreachable twoTasks_jobs hreserve haccepts hrun, launches_none]
    exact ⟨second, List.mem_filter.mpr ⟨by simp, hcompiles'⟩, hsecond⟩
  · rw [launchBatch_bound hreachable twoTasks_jobs hreserve hrejects hrun']
    obtain ⟨spec, hspec⟩ := compiles_iff.mp hcompiles
    simp [launches, hspec]

/-- When the last task of a batch is rejected, the first one is launched all the same. -/
theorem others_launched_last : ∃ (sky sky' : Sky ℕ) (batch : List TaskRecord) (p : TaskRecord) (store' : SwarmStore)
    (trace trace' : List (Sigma Operation.Reply)) (outcome outcome' : Except PyError (List String))
    (world world' : SwarmStore × ℕ),
      reserveSubmissions sampleController.submissionBatchSize 1 twoTasks = .ok (batch, store') ∧ p ∈ batch ∧
        RejectsOnly sampleController sampleGiven sky sky' batch p ∧
          (sampleController.launchBatch 1).Runs (Adapted sky) (twoTasks, 7) trace outcome world ∧
            (sampleController.launchBatch 1).Runs (Adapted sky') (twoTasks, 7) trace' outcome' world' ∧
              ∀ taskId, taskId ≠ p.taskId → (Bound trace taskId ↔ Bound trace' taskId) := by
  obtain ⟨first, second, store', hreserve, hfirst, hsecond, hnames, hcompiles, hcompiles'⟩ := twoTasks_reserved
  have hreachable : History anyCall .empty twoTasks := history_any .empty _
  have hmem : second ∈ [first, second] := by simp
  have hsky : RejectsOnly sampleController sampleGiven (sampleSky fun _ => false)
      (sampleSky fun name => name = second.jobName) [first, second] second := by
    apply sample_rejectsOnly
    simp [hnames]
  obtain ⟨trace, outcome, world, hrun⟩ := Prog.exists_runs (Adapted.total (sampleSky fun _ => false))
    (sampleController.launchBatch 1).run (twoTasks, 7)
  obtain ⟨trace', outcome', world', hrun'⟩ := Prog.exists_runs
    (Adapted.total (sampleSky fun name => name = second.jobName)) (sampleController.launchBatch 1).run (twoTasks, 7)
  refine ⟨_, _, _, second, store', trace, trace', outcome, outcome', world, world', hreserve, hmem, hsky,
    hrun, hrun', (others_launched_iff hreachable twoTasks_jobs hreserve hmem hsky hrun hrun').mpr fun _ => ?_⟩
  intro before after hsplit task htask
  have hother : second ∉ [first] := fun hmem => by
    rw [List.mem_singleton.mp hmem, hfirst] at hsecond
    exact absurd hsecond (by decide)
  have hend : [first] ++ second :: [] = before ++ second :: after := hsplit
  obtain ⟨-, -, rfl⟩ := (List.append_cons_inj_of_notMem hother List.not_mem_nil).mp hend
  cases htask

end TPUSwarm
