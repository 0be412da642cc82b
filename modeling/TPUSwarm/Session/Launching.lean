import TPUSwarm.Session.Calls

/-!
# The loop over a reserved batch

A batch is launched task by task. Each task that the loop reaches is released; the loop ends
early when the backend is unavailable, and the tasks behind the one it had reached stay as
they were.
-/

namespace TPUSwarm

open Common SwarmStore

/-- A launch and what the backend answered. -/
def launched (task : TaskRecord) (spec : ManagedJobSpec) (priority : Priority)
    (outcome : Except PyError ExecutorJob) : Sigma Operation.Reply := ⟨.launch task spec priority, outcome⟩

/-- The admission of a batch. -/
def reserved (limit : ℤ) (now : Time) (batch : List TaskRecord) : Sigma Operation.Reply :=
  ⟨.store (.reserveSubmissions limit) (some now), .ok batch⟩

/-- A launch is no call of the store. -/
theorem launched_ne {task : TaskRecord} {spec : ManagedJobSpec} {priority : Priority}
    {outcome : Except PyError ExecutorJob} {call : Call} {now : Option Time} {reply : Except PyError call.Result} :
    launched task spec priority outcome ≠ ⟨.store call now, reply⟩ := fun h => by cases congrArg Sigma.fst h

/-- A launch in a trace tells its task and its outcome. -/
theorem launched_eq {task task' : TaskRecord} {spec spec' : ManagedJobSpec} {priority priority' : Priority}
    {outcome outcome' : Except PyError ExecutorJob} (h : launched task spec priority outcome =
      launched task' spec' priority' outcome') : task = task' ∧ outcome = outcome' := by
  obtain ⟨hop, hreply⟩ := Sigma.mk.inj h
  cases hop
  exact ⟨rfl, eq_of_heq hreply⟩

/-- The row shows that its task was bound to the job that its own launch returned, that it has no valid
definition, or that its reservation was given up. -/
def Released (controller : TPUSwarmController) (trace : List (Sigma Operation.Reply)) (task : TaskRecord)
    (row : TaskRow) : Prop :=
  (row.status = .submitted ∧ ∃ spec priority job, launched task spec priority (.ok job) ∈ trace ∧
      row.jobId = some job.jobId) ∨
    (row.status = .failed ∧ ∃ e, controller.compileJob task = .error e) ∨
    (row.status = .pending ∧ row.submissionStartedAt = none)

/-- What the row of a task shows, apart from its checkpoints. -/
def Shows (store : SwarmStore) (taskId : String) (P : TaskRow → Prop) : Prop :=
  ∃ row ∈ store.tasks.rows, row.taskId = taskId ∧ P row.core

/-- One task shows something new, and all other tasks show what they showed. -/
structure MovesTask (taskId : String) (P : TaskRow → Prop) (store store' : SwarmStore) : Prop where
  shows : Shows store' taskId P
  others : ∀ other Q, other ≠ taskId → Shows store other Q → Shows store' other Q

variable {store mid store' : SwarmStore} {trace : List (Sigma Operation.Reply)} {taskId : String}
  {P : TaskRow → Prop}

/-- What a store shows of a task may be weakened. -/
theorem Shows.imp {Q : TaskRow → Prop} (h : Shows store taskId P) (himp : ∀ row, P row → Q row) :
    Shows store taskId Q := by
  obtain ⟨row, hrow, hid, hP⟩ := h
  exact ⟨row, hrow, hid, himp _ hP⟩

/-- A task has one row. -/
theorem Shows.and {Q : TaskRow → Prop} (h : Shows store taskId P) (h' : Shows store taskId Q) :
    ∃ row, P row ∧ Q row := by
  obtain ⟨row, hrow, hid, hP⟩ := h
  obtain ⟨row', hrow', hid', hQ⟩ := h'
  obtain rfl := store.task_unique hrow hrow' (hid.trans hid'.symm)
  exact ⟨row.core, hP, hQ⟩

/-- API calls move no task. -/
theorem Shows.api (h : Shows store taskId P) (hothers : History apiCall store store') : Shows store' taskId P := by
  refine hothers.invariant (I := fun s => Shows s taskId P) (fun call _ _ _ _ hcall hrun hs => ?_) h
  obtain ⟨row, hrow, rfl, hP⟩ := hs
  have hquiet := Call.quiet (by cases call <;> first | rfl | cases hcall) hrun
  obtain ⟨row', hrow', hcore⟩ := hquiet.tasks.kept hrow
  exact ⟨row', hrow', TaskRow.column_eq hcore TaskRow.taskId fun _ => rfl, hcore ▸ hP⟩

/-- A rewrite of the row of a task. -/
theorem MovesTask.of_rewrites {row row' : TaskRow} (hid : row.taskId = taskId) (hothers : History apiCall store mid)
    (h : Rewrites mid store' row row') (hP : P row'.core) : MovesTask taskId P store store' := by
  refine ⟨⟨row', h.mem', h.sameId.trans hid, hP⟩, fun other Q hne hshows => ?_⟩
  obtain ⟨r, hr, rfl, hQ⟩ := hshows.api hothers
  exact ⟨r, h.mem_iff.mpr (Or.inr ⟨hr, fun heq => hne (heq.trans hid)⟩), rfl, hQ⟩

/-- The session of a launch. -/
theorem session_launch {task : TaskRecord} {spec : ManagedJobSpec} {priority : Priority} {allowed : Discretion}
    {outcome : Except PyError ExecutorJob}
    (h : Session allowed (launch task spec priority) store trace outcome store') :
    trace = [launched task spec priority outcome] ∧ History allowed store store' := by
  obtain ⟨rfl, hexec⟩ := Prog.runs_issue.mp h
  cases hexec with
  | launch hothers => exact ⟨rfl, hothers⟩

/-- The trace of a release may go on. -/
theorem Released.mono {controller : TPUSwarmController} {trace' : List (Sigma Operation.Reply)} {task : TaskRecord}
    {row : TaskRow} (h : Released controller trace task row) (hsubset : trace ⊆ trace') :
    Released controller trace' task row :=
  h.imp_left fun ⟨hstatus, spec, priority, job, hmem, hjob⟩ => ⟨hstatus, spec, priority, job, hsubset hmem, hjob⟩

/-- How the loop over a batch has ended: some tasks are released, and the rest is still reserved, because
the launch of the last task before it has raised. -/
structure BatchEnd (controller : TPUSwarmController) (done rest : List TaskRecord)
    (trace : List (Sigma Operation.Reply)) (store : SwarmStore) : Prop where
  released : ∀ task ∈ done, Shows store task.taskId (Released controller trace task)
  waiting : ∀ task ∈ rest, Shows store task.taskId (·.status = .submitting)
  raised : ∀ task spec priority e, launched task spec priority (.error e) ∈ trace → done.getLast? = some task
  stopped : rest ≠ [] → ∃ task spec priority e, launched task spec priority (.error e) ∈ trace ∧
    e.kind = .backendUnavailable

variable {controller : TPUSwarmController} {now : Time} {batch rest done : List TaskRecord} {task : TaskRecord}
  {submitted result : List String} {first second : List (Sigma Operation.Reply)}

/-- A task is released, and the loop goes on with the others. -/
theorem BatchEnd.cons (h : BatchEnd controller done rest second store')
    (htask : Shows store' task.taskId (Released controller first task))
    (hfirst : ∀ task spec priority e, launched task spec priority (.error e) ∉ first) :
    BatchEnd controller (task :: done) rest (first ++ second) store' := by
  refine ⟨fun t ht => ?_, h.waiting, fun t spec priority e hmem => ?_, fun hne => ?_⟩
  · rcases List.mem_cons.mp ht with rfl | ht
    · exact htask.imp fun _ hreleased => hreleased.mono (List.subset_append_left _ _)
    · exact (h.released t ht).imp fun _ hreleased => hreleased.mono (List.subset_append_right _ _)
  · rcases List.mem_append.mp hmem with hmem | hmem
    · exact absurd hmem (hfirst t spec priority e)
    · rw [List.getLast?_cons, h.raised t spec priority e hmem, Option.getD_some]
  · obtain ⟨t, spec, priority, e, hmem, hkind⟩ := h.stopped hne
    exact ⟨t, spec, priority, e, List.mem_append_right _ hmem, hkind⟩

/-- All tasks of the batch are released if and only if no launch has raised but that of the last one. -/
theorem BatchEnd.released_iff (h : BatchEnd controller done rest trace store)
    (hdistinct : (done ++ rest).Pairwise fun a b => a.taskId ≠ b.taskId) :
    (∀ task ∈ done ++ rest, Shows store task.taskId (Released controller trace task)) ↔
      ∀ task spec priority e, launched task spec priority (.error e) ∈ trace → e.kind = .backendUnavailable →
        (done ++ rest).getLast? = some task := by
  constructor
  · intro hreleased task spec priority e hmem _
    have hnone : rest = [] := List.eq_nil_iff_forall_not_mem.mpr fun t ht => by
      obtain ⟨row, hwaiting, hrow⟩ := (h.waiting t ht).and (hreleased t (List.mem_append_right _ ht))
      rcases hrow with ⟨hstatus, -⟩ | ⟨hstatus, -⟩ | ⟨hstatus, -⟩ <;>
        exact absurd (hwaiting.symm.trans hstatus) (by decide)
    rw [hnone, List.append_nil]
    exact h.raised task spec priority e hmem
  · intro hlast
    have hnone : rest = [] := by
      by_contra hne
      obtain ⟨task, spec, priority, e, hmem, hkind⟩ := h.stopped hne
      have hdone : task ∈ done := List.mem_of_getLast? (h.raised task spec priority e hmem)
      have hrest : task ∈ rest := by
        have htask := hlast task spec priority e hmem hkind
        rw [List.getLast?_append_of_ne_nil _ hne] at htask
        exact List.mem_of_getLast? htask
      exact (List.pairwise_append.mp hdistinct).2.2 task hdone task hrest rfl
    subst hnone
    rw [List.append_nil]
    exact h.released

/-- What the loop over a batch does with it, and that it leaves all other tasks alone. -/
theorem launchTasks_ends (hdistinct : batch.Pairwise fun a b => a.taskId ≠ b.taskId)
    (hrows : ∀ task ∈ batch, Shows store task.taskId (·.status = .submitting))
    (hrun : Session apiCall (controller.launchTasks now batch submitted) store trace (.ok result) store') :
    (∃ done rest, batch = done ++ rest ∧ BatchEnd controller done rest trace store') ∧
      ∀ other Q, (∀ task ∈ batch, task.taskId ≠ other) → Shows store other Q → Shows store' other Q := by
  induction batch generalizing store trace submitted with
  | nil =>
    obtain ⟨rfl, -, rfl⟩ := Action.runs_pure.mp hrun
    exact ⟨⟨[], [], rfl, by simp, by simp, by simp, by simp⟩, fun _ _ _ h => h⟩
  | cons task others ih =>
    obtain ⟨hfirst, hothers⟩ := List.pairwise_cons.mp hdistinct
    -- a task that is released before the loop goes on
    have hgoes {first second : List (Sigma Operation.Reply)} {mid : SwarmStore} {submitted : List String}
        (hmoves : MovesTask task.taskId (Released controller first task) store mid)
        (hnone : ∀ task spec priority e, launched task spec priority (.error e) ∉ first)
        (hrest : Session apiCall (controller.launchTasks now others submitted) mid second (.ok result) store') :
        (∃ done rest, task :: others = done ++ rest ∧ BatchEnd controller done rest (first ++ second) store') ∧
          ∀ other Q, (∀ t ∈ task :: others, t.taskId ≠ other) → Shows store other Q → Shows store' other Q := by
      obtain ⟨⟨done, rest, heq, hend⟩, hkept⟩ := ih hothers (fun t ht =>
        hmoves.others _ _ (hfirst t ht).symm (hrows t (List.mem_cons_of_mem _ ht))) hrest
      refine ⟨⟨task :: done, rest, by rw [heq, List.cons_append], hend.cons ?_ hnone⟩, fun other Q hne hshows => ?_⟩
      · exact hkept _ _ (fun t ht => (hfirst t ht).symm) hmoves.shows
      · exact hkept _ _ (fun t ht => hne t (List.mem_cons_of_mem _ ht))
          (hmoves.others _ _ (hne task List.mem_cons_self).symm hshows)
    rw [TPUSwarmController.launchTasks] at hrun
    cases hcompile : controller.compileJob task with
    | error e =>
      simp only [hcompile] at hrun
      obtain ⟨first, failed, mid, second, rfl, hfail, hrest⟩ := Action.runs_bind_ok.mp hrun
      obtain ⟨rfl, before, clock, hapi, hcall⟩ := session_callStore_ok.mp hfail
      obtain ⟨row, hid, hreported⟩ := failTask_eq_ok hcall
      refine hgoes (MovesTask.of_rewrites hid hapi hreported.rewrites (Or.inr (Or.inl ⟨rfl, e, hcompile⟩))) ?_ hrest
      intro t s p e' hmem
      exact launched_ne (List.mem_singleton.mp hmem)
    | ok spec =>
      simp only [hcompile] at hrun
      obtain ⟨first, outcome, mid, second, rfl, hlaunch, hrest⟩ := Action.runs_bind_ok.mp hrun
      obtain ⟨answer, heq, hlaunch⟩ := Action.runs_attempt.mp hlaunch
      obtain rfl := Except.ok.inj heq
      obtain ⟨rfl, hbefore⟩ := session_launch hlaunch
      cases outcome with
      | error e =>
        dsimp only at hrest
        split at hrest
        · rename_i hkind
          obtain ⟨first, reset, final, second, rfl, hreset, hend⟩ := Action.runs_bind_ok.mp hrest
          obtain ⟨rfl, -, rfl⟩ := Action.runs_pure.mp hend
          obtain ⟨rfl, before, clock, hapi, hcall⟩ := session_callStore_ok.mp hreset
          obtain ⟨row, hid, -, -, hrewrites, -⟩ := resetSubmission_eq_ok hcall
          have hmoves := MovesTask.of_rewrites
            (P := Released controller [launched task spec task.priority (.error e)] task) hid (hbefore.trans hapi)
            hrewrites (Or.inr (Or.inr ⟨rfl, rfl⟩))
          refine ⟨⟨[task], others, rfl, ?_, fun t ht => ?_, fun t s p e' hmem => ?_, fun _ => ?_⟩,
            fun other Q hne hshows => hmoves.others _ _ (hne task List.mem_cons_self).symm hshows⟩
          · intro t ht
            rw [List.mem_singleton.mp ht]
            exact hmoves.shows.imp fun _ hreleased => hreleased.mono (by simp)
          · exact hmoves.others _ _ (hfirst t ht).symm (hrows t (List.mem_cons_of_mem _ ht))
          · rw [List.append_nil, List.mem_append, List.mem_singleton, List.mem_singleton] at hmem
            rw [(launched_eq (hmem.resolve_right launched_ne)).1]
            rfl
          · exact ⟨task, spec, task.priority, e, by simp, hkind⟩
        · obtain ⟨-, herror, -⟩ := Action.runs_throw.mp hrest
          cases herror
      | ok job =>
        obtain ⟨first, bound, final, second, rfl, hbind, hloop⟩ := Action.runs_bind_ok.mp hrest
        obtain ⟨rfl, before, clock, hapi, hcall⟩ := session_callStore_ok.mp hbind
        obtain ⟨row, hid, -, -, hrewrites, -⟩ := bindJob_eq_ok hcall
        rw [← List.append_assoc]
        refine hgoes (MovesTask.of_rewrites hid (hbefore.trans hapi) hrewrites
          (Or.inl ⟨rfl, spec, task.priority, job, List.mem_append_left _ List.mem_cons_self, rfl⟩)) ?_ hloop
        intro t s p e' hmem
        rw [List.mem_append, List.mem_singleton, List.mem_singleton] at hmem
        exact absurd (launched_eq (hmem.resolve_right launched_ne)).2 (by simp)

end TPUSwarm
