import TPUSwarm.Solo.Machine

/-!
# What a cycle knows of the store

A program that follows the machine needs its knowledge to survive the calls of the API.
Facts that quiet steps do not change do. The loop over the tasks knows snapshots: records
read earlier whose status, job and name are still those of their rows.
-/

namespace TPUSwarm

open Common Relation SwarmStore

/-- The task is one of the admitted batch. -/
def Machine.Batched (m : Machine) (taskId : String) : Prop := ∃ task ∈ m.phase.batch, task.taskId = taskId

/-- When a cycle may issue an operation. A task that is settled is one of the batch, or its row and the list
received call for what is done with it. -/
def Permitted : Operation → Machine → Prop
  | .store (.reserveSubmissions _) _, m => ∀ row ∈ m.site.store.tasks.rows, row.status = .submitting →
      byName m.site.listed row.jobName = none
  | .store (.bindJob taskId jobId _) _, m =>
    m.Batched taskId ∨ ∀ row ∈ m.site.store.tasks.rows, row.taskId = taskId →
      row.status = .submitting ∧ ∃ job, byName m.site.listed row.jobName = some job ∧ job.jobId = jobId
  | .store (.resetSubmission taskId _) _, m => m.Batched taskId ∨ ∀ row ∈ m.site.store.tasks.rows,
      row.taskId = taskId → byName m.site.listed row.jobName = none
  | .store (.failTask taskId _) _, m => m.Batched taskId
  | .store (.observeJob taskId job) _, m => ∀ row ∈ m.site.store.tasks.rows, row.taskId = taskId →
      (row.status = .submitted ∨ row.status = .running) ∧
        ∃ jobId, row.jobId = some jobId ∧ listedJob m.site.listed jobId row.jobName = some job
  | .launch task _ _, m => ∃ rest, m.phase = .launching (task :: rest)
  | _, _ => True

/-- The machine over the single controller system. -/
def simulation (D : Deployment) : D.system.Simulation Machine where
  view := Machine.site
  inv := Invariant
  move _ := Move D
  envMove := ApiMove
  permitted _ := Permitted
  inv_move _ _ _ := Invariant.move
  inv_env _ _ := Invariant.apiMove

/-- What the program of the one controller has to follow. -/
abbrev solo (D : Deployment) := (simulation D).abstraction ()

/-- The machine after a store change in the same phase. -/
def Machine.withStore (m : Machine) (store' : SwarmStore) : Machine :=
  ⟨{ m.site with store := store' }, m.phase⟩

/-- A fact that quiet steps do not change. -/
def Unaffected (fact : Machine → Prop) : Prop :=
  ∀ m store', Quiet m.site.store store' → fact m → fact (m.withStore store')

/-- Nothing but the API acts beside the one controller. -/
theorem Unaffected.stable {D : Deployment} {fact : Machine → Prop} (h : Unaffected fact) :
    (solo D).Stable fact := by
  rintro m m' (⟨store', hquiet, rfl⟩ | ⟨_, hne, _⟩) hm
  · exact h m store' hquiet hm
  · exact absurd rfl hne

/-- Truth is not affected. -/
theorem Unaffected.true : Unaffected fun _ => True := fun _ _ _ _ => trivial

/-- A store call whose effect is matched by moves. -/
theorem follows_call {D : Deployment} (call : Call) {now : Option Time} {fact : Machine → Prop}
    {returned : call.Result → Machine → Prop} (hfact : Unaffected fact)
    (hreturned : ∀ r, Unaffected (returned r))
    (hpermitted : ∀ m, Invariant m → fact m → Permitted (.store call now) m)
    (h : ∀ m clock result store', Invariant m → fact m →
      (call.isAdmission = true → D.admits m.site) →
      call.run clock m.site.store = .ok (result, store') →
      ∃ m', ReflTransGen (Move D) m m' ∧ m'.site = { m.site with store := store' } ∧ returned result m')
    {m : Machine} (hm : fact m) :
    (callStore call now).Follows (solo D) returned (fun _ _ => True) m := by
  refine Prog.Follows.issue (S := solo D) hfact.stable (fun r => ?_) (fun m hinv hm => ?_) hm
  · cases r with
    | ok r => exact (hreturned r).stable
    | error e => exact Unaffected.true.stable
  · refine ⟨hpermitted m hinv hm, fun outcome site' hexec => ?_⟩
    obtain ⟨hadmits, hperform⟩ := hexec
    rcases Call.perform_cases hperform with ⟨e, rfl, rfl⟩ | ⟨result, rfl, hrun⟩
    · exact ⟨m, .refl, rfl, trivial⟩
    · obtain ⟨m', hmoves, hsite, hresult⟩ := h m _ result _ hinv hm hadmits hrun
      exact ⟨m', hmoves, hsite, hresult⟩

/-- A store call that moves no task and sets no policy. -/
theorem follows_quiet {D : Deployment} (call : Call) {now : Option Time}
    (hcall : call.isTransition = false) (hpolicies : StoreTable.policies ∉ call.tables)
    {fact : Machine → Prop} {returned : call.Result → Machine → Prop} (hfact : Unaffected fact)
    (hreturned : ∀ r, Unaffected (returned r))
    (h : ∀ (m : Machine) clock result store', fact (m.withStore store') →
      call.run clock m.site.store = .ok (result, store') → returned result (m.withStore store'))
    {m : Machine} (hm : fact m) :
    (callStore call now).Follows (solo D) returned (fun _ _ => True) m := by
  refine follows_call call hfact hreturned (fun m _ _ => ?_) (fun m clock result store' _ hm _ hrun => ?_) hm
  · cases call <;> first | (cases hcall; done) | trivial
  · have hquiet := Call.quiet hcall hrun
    exact ⟨m.withStore store', .single (.quiet hquiet (Call.frame hrun hpolicies)), rfl,
      h m clock result store' (hfact m store' hquiet hm) hrun⟩

/-- The columns of a task that the API cannot change, as a record and a row have them. -/
def Agrees (task : TaskRecord) (row : TaskRow) : Prop :=
  row.taskId = task.taskId ∧ row.status = task.status ∧ row.jobId = task.jobId ∧ row.jobName = task.jobName

/-- A record that was read earlier still describes its row. -/
def Snapshot (task : TaskRecord) (store : SwarmStore) : Prop := ∃ row ∈ store.tasks.rows, Agrees task row

/-- A quiet change of the store keeps a snapshot right. -/
theorem Snapshot.quiet {task : TaskRecord} {store store' : SwarmStore} (h : Snapshot task store)
    (hquiet : Quiet store store') : Snapshot task store' := by
  obtain ⟨row, hrow, hid, hstatus, hjob, hname⟩ := h
  obtain ⟨row', hrow', hcore⟩ := hquiet.tasks.kept hrow
  exact ⟨row', hrow', (TaskRow.column_eq hcore TaskRow.taskId fun _ => rfl).trans hid,
    (TaskRow.column_eq hcore TaskRow.status fun _ => rfl).trans hstatus,
    (TaskRow.column_eq hcore TaskRow.jobId fun _ => rfl).trans hjob,
    (TaskRow.column_eq hcore TaskRow.jobName fun _ => rfl).trans hname⟩

/-- The row of a snapshot, named by its key. -/
theorem Snapshot.agrees {task : TaskRecord} {store : SwarmStore} (h : Snapshot task store) {row : TaskRow}
    (hrow : row ∈ store.tasks.rows) (hid : row.taskId = task.taskId) : Agrees task row := by
  obtain ⟨r, hr, hagrees⟩ := h
  rw [store.task_unique hrow hr (hid.trans hagrees.1.symm)]
  exact hagrees

/-- What the loop over the tasks knows: the snapshots it has not looked at are good, and only
these can be submissions whose job is listed. -/
structure Observing (jobs : List ExecutorJob) (rest : List TaskRecord) (m : Machine) : Prop where
  phase : m.phase = .observing
  listed : m.site.listed = jobs
  snapshots : ∀ task ∈ rest, Snapshot task m.site.store
  distinct : rest.Pairwise fun a b => a.taskId ≠ b.taskId
  settled : ∀ row ∈ m.site.store.tasks.rows, row.status = .submitting →
    byName jobs row.jobName ≠ none → ∃ task ∈ rest, task.taskId = row.taskId

namespace Observing

variable {jobs : List ExecutorJob} {task : TaskRecord} {rest : List TaskRecord} {m : Machine}

/-- The snapshot of the loop is not affected by quiet changes. -/
theorem unaffected (jobs : List ExecutorJob) (rest : List TaskRecord) : Unaffected (Observing jobs rest) := by
  intro m store' hquiet h
  refine ⟨h.phase, h.listed, fun t ht => (h.snapshots t ht).quiet hquiet, h.distinct, ?_⟩
  intro row hrow hstatus hlisted
  rcases hquiet.tasks.old_or_fresh hrow with ⟨r, hr, hcore⟩ | hfresh
  · obtain ⟨t, ht, hid⟩ := h.settled r hr
      ((TaskRow.column_eq hcore TaskRow.status fun _ => rfl).trans hstatus)
      (by rw [TaskRow.column_eq hcore TaskRow.jobName fun _ => rfl]; exact hlisted)
    exact ⟨t, ht, hid.trans (TaskRow.column_eq hcore TaskRow.taskId fun _ => rfl)⟩
  · rw [hfresh.columns.1] at hstatus
    cases hstatus

/-- The head of the loop was rewritten, and is not being submitted any more. -/
theorem rewrite (h : Observing jobs (task :: rest) m) {store' : SwarmStore} {row row' : TaskRow}
    (hrewrites : Rewrites m.site.store store' row row') (hid : row.taskId = task.taskId)
    (hstatus : row'.status ≠ .submitting) : Observing jobs rest (m.withStore store') := by
  obtain ⟨hhead, hdistinct⟩ := List.pairwise_cons.mp h.distinct
  refine ⟨h.phase, h.listed, fun t ht => ?_, hdistinct, fun r hr hsubmitting hlisted => ?_⟩
  · obtain ⟨r, hr, hagrees⟩ := h.snapshots t (List.mem_cons_of_mem _ ht)
    refine ⟨r, hrewrites.mem_iff.mpr (Or.inr ⟨hr, fun heq => hhead t ht ?_⟩), hagrees⟩
    exact hid.symm.trans (heq.symm.trans hagrees.1)
  · rcases hrewrites.mem_iff.mp hr with rfl | ⟨hold, hne⟩
    · exact absurd hsubmitting hstatus
    · obtain ⟨t, ht, htid⟩ := h.settled r hold hsubmitting hlisted
      rcases List.mem_cons.mp ht with rfl | ht
      · exact absurd (htid.symm.trans hid.symm) hne
      · exact ⟨t, ht, htid⟩

/-- The head of the loop needs nothing more. -/
theorem drop (h : Observing jobs (task :: rest) m)
    (hunlisted : task.status = .submitting → byName jobs task.jobName = none) : Observing jobs rest m := by
  refine ⟨h.phase, h.listed, fun t ht => h.snapshots t (List.mem_cons_of_mem _ ht),
    (List.pairwise_cons.mp h.distinct).2, fun row hrow hstatus hlisted => ?_⟩
  obtain ⟨t, ht, hid⟩ := h.settled row hrow hstatus hlisted
  rcases List.mem_cons.mp ht with rfl | ht
  · obtain ⟨-, hs, -, hn⟩ := (h.snapshots t List.mem_cons_self).agrees hrow hid.symm
    rw [hn] at hlisted
    exact absurd (hunlisted (hs.symm.trans hstatus)) hlisted
  · exact ⟨t, ht, hid⟩

/-- A task that was read again becomes the head of the loop. -/
theorem cons (h : Observing jobs rest m) (hsnapshot : Snapshot task m.site.store)
    (hfresh : ∀ t ∈ rest, task.taskId ≠ t.taskId) : Observing jobs (task :: rest) m := by
  refine ⟨h.phase, h.listed, fun t ht => ?_, List.pairwise_cons.mpr ⟨hfresh, h.distinct⟩, ?_⟩
  · rcases List.mem_cons.mp ht with rfl | ht
    · exact hsnapshot
    · exact h.snapshots t ht
  · intro row hrow hstatus hlisted
    obtain ⟨t, ht, hid⟩ := h.settled row hrow hstatus hlisted
    exact ⟨t, List.mem_cons_of_mem _ ht, hid⟩

end Observing

/-- What `settleSubmission` leaves to its caller. -/
def Settled (jobs : List ExecutorJob) (rest : List TaskRecord) (next : Option TaskRecord × List String)
    (m : Machine) : Prop :=
  match next.1 with
  | none => Observing jobs rest m
  | some task => Observing jobs (task :: rest) m ∧
      (task.status = .submitting → byName jobs task.jobName = none)

/-- What is settled is not affected by quiet changes. -/
theorem Settled.unaffected (jobs : List ExecutorJob) (rest : List TaskRecord)
    (next : Option TaskRecord × List String) : Unaffected (Settled jobs rest next) := by
  intro m store' hquiet h
  rcases next with ⟨_ | task, adopted⟩
  · exact Observing.unaffected jobs rest m store' hquiet h
  · exact ⟨Observing.unaffected jobs _ m store' hquiet h.1, h.2⟩

end TPUSwarm
