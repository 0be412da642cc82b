import TPUSwarm.Store.Transitions

/-!
# Transitions that cannot fail

A task that is being submitted can be bound to a job that no task has, and it can be failed
when the workflow it reports to is there.
-/

namespace TPUSwarm

open Common

namespace SwarmStore

variable {store : SwarmStore} {row : TaskRow} {now : Time}

/-- A guarded update of a row that has one of the statuses returns, if its table write does. -/
theorem guardedUpdate_returns {taskId refusal : String} {statuses : List TaskStatus} {write : TaskRow → TaskRow}
    {written : SwarmStore} (hrow : row ∈ store.tasks.rows) (hid : row.taskId = taskId)
    (hstatus : row.status ∈ statuses)
    (hwrite : (write row).taskId = row.taskId)
    (hupdate : store.updateTasks (fun r => r.taskId = taskId && r.status ∈ statuses) write = .ok written) :
    guardedUpdate taskId statuses write refusal store = .ok ((write row).toRecord, written) ∧
      Rewrites store written row (write row) := by
  let select (r : TaskRow) : Bool := r.taskId = taskId && r.status ∈ statuses
  have hselect : ∀ r ∈ store.tasks.rows, select r ↔ r.taskId = row.taskId := by
    intro r hr
    simp only [select, Bool.and_eq_true, decide_eq_true_eq]
    constructor
    · rintro ⟨hr, -⟩
      exact hr.trans hid.symm
    · intro hsame
      rw [store.task_unique hr hrow hsame]
      exact ⟨hid, hstatus⟩
  have hcount : store.tasks.rowcount select = 1 := by
    have hids : (store.tasks.rows.map TaskRow.taskId).Nodup :=
      List.pairwise_map.mpr (store.tasks.unique.imp fun hclash heq => hclash (Or.inl heq))
    have hsame : store.tasks.rows.countP select = (store.tasks.rows.map TaskRow.taskId).count row.taskId := by
      rw [List.count, List.countP_map]
      apply List.countP_congr
      intro r hr
      rw [hselect r hr]
      simp
    rw [Table.rowcount, hsame, List.count_eq_one_of_mem hids (List.mem_map_of_mem hrow)]
  have hrewrites : Rewrites store written row (write row) := Rewrites.of_update hupdate hrow hselect hwrite
  have hfound : written.task? taskId = some (write row) := by
    rw [hrewrites.task?_eq, if_pos hid.symm]
  refine ⟨?_, hrewrites⟩
  unfold guardedUpdate
  refine bind_eq_ok.mpr ⟨written, hupdate, ?_⟩
  dsimp only
  rw [if_neg (not_not.mpr hcount)]
  exact bind_eq_ok.mpr ⟨write row, orRaise_eq_ok.mpr hfound, rfl⟩

/-- A task that is being submitted is bound to a job that no task has. -/
theorem bindJob_returns {taskId jobId executorStatus : String} (hrow : row ∈ store.tasks.rows)
    (hid : row.taskId = taskId) (hstatus : row.status = .submitting)
    (hfresh : ∀ r ∈ store.tasks.rows, r.jobId ≠ some jobId) (now : Time) :
    ∃ written, bindJob taskId jobId executorStatus now store =
        .ok ((row.bound jobId executorStatus now).toRecord, written) ∧
      Rewrites store written row (row.bound jobId executorStatus now) := by
  let select (r : TaskRow) : Bool := r.taskId = taskId && r.status ∈ [TaskStatus.submitting, .submitted]
  let write := TaskRow.bound jobId executorStatus now
  have hclash : ∀ a ∈ store.tasks.rows, ∀ b ∈ store.tasks.rows,
      Constrained.clash (if select a then write a else a) (if select b then write b else b) →
        Constrained.clash a b := by
    intro a ha b hb hclash
    by_cases hselectA : select a <;> by_cases hselectB : select b
    · simp only [select, Bool.and_eq_true, decide_eq_true_eq] at hselectA hselectB
      exact Or.inl (hselectA.1.trans hselectB.1.symm)
    · rw [if_pos hselectA, if_neg hselectB] at hclash
      rcases hclash with h | h | h | h
      · exact Or.inl h
      · exact Or.inr (Or.inl h)
      · exact absurd h.2.symm (hfresh b hb)
      · exact Or.inr (Or.inr (Or.inr h))
    · rw [if_neg hselectA, if_pos hselectB] at hclash
      rcases hclash with h | h | h | h
      · exact Or.inl h
      · exact Or.inr (Or.inl h)
      · exact absurd h.2 (hfresh a ha)
      · exact Or.inr (Or.inr (Or.inr h))
    · rw [if_neg hselectA, if_neg hselectB] at hclash
      exact hclash
  obtain ⟨tasks, htasks⟩ := store.tasks.update?_isSome_of_mem select write hclash
  have hupdate : store.updateTasks select write = .ok { store with tasks } := by
    rw [updateTasks, htasks]
    rfl
  exact ⟨_, guardedUpdate_returns hrow hid (by simp [hstatus]) rfl hupdate⟩

/-- A task whose workflow is there can be failed. -/
theorem failTask_returns {taskId : String} (hrow : row ∈ store.tasks.rows) (hid : row.taskId = taskId)
    (hworkflow : ∀ workflowId, row.workflowId = some workflowId →
      ∃ workflow, store.workflow? workflowId = some workflow) (reason : String) (now : Time) :
    ∃ task written, failTask taskId reason now store = .ok (task, written) := by
  obtain ⟨tasks, htasks⟩ := store.tasks.update?_isSome (·.taskId = taskId) (TaskRow.refused reason now)
    fun a b h => by split at h <;> split at h <;> exact h
  have hupdate : store.updateTasks (·.taskId = taskId) (TaskRow.refused reason now) = .ok { store with tasks } := by
    rw [updateTasks, htasks]
    rfl
  have hfound : store.task? taskId = some row := task?_eq_some.mpr ⟨hrow, hid⟩
  obtain ⟨reported, hreport, hsame⟩ : ∃ reported : SwarmStore, ({ store with tasks } : SwarmStore).reportStatus
      row.toRecord .failed (Dict.ofList [("error", .str reason)]) now = .ok reported ∧ reported.tasks = tasks := by
    unfold reportStatus
    split
    · unfold appendEvent
      split
      · exact ⟨_, rfl, rfl⟩
      · rename_i workflowId hw
        obtain ⟨workflow, hknown⟩ := hworkflow workflowId hw
        unfold insertEvent
        rw [show ({ store with tasks } : SwarmStore).workflow? workflowId = some workflow from hknown]
        exact ⟨_, rfl, rfl⟩
    · exact ⟨_, rfl, rfl⟩
  have hrewrites : Rewrites store { store with tasks } row (row.refused reason now) :=
    Rewrites.of_update hupdate hrow (fun r _ => by simp [hid]) rfl
  have hupdated : reported.task? taskId = some (row.refused reason now) := by
    rw [task?, hsame]
    have hwritten := hrewrites.task?_eq taskId
    rw [if_pos hid.symm] at hwritten
    exact hwritten
  refine ⟨(row.refused reason now).toRecord, reported, ?_⟩
  unfold failTask
  refine bind_eq_ok.mpr ⟨row, orRaise_eq_ok.mpr hfound, bind_eq_ok.mpr ⟨_, hupdate, ?_⟩⟩
  exact bind_eq_ok.mpr ⟨reported, hreport, bind_eq_ok.mpr ⟨_, orRaise_eq_ok.mpr hupdated, rfl⟩⟩

/-- A task that is being submitted is sent back. -/
theorem resetSubmission_succeeds {taskId : String} (hrow : row ∈ store.tasks.rows) (hid : row.taskId = taskId)
    (hstatus : row.status = .submitting) (reason : String) (now : Time) :
    ∃ written, resetSubmission taskId reason now store = .ok ((row.reset reason now).toRecord, written) := by
  obtain ⟨tasks, htasks⟩ := store.tasks.update?_isSome
    (fun r => r.taskId = taskId && r.status ∈ [TaskStatus.submitting]) (TaskRow.reset reason now)
    fun a b h => by split at h <;> split at h <;> exact h
  have hupdate : store.updateTasks (fun r => r.taskId = taskId && r.status ∈ [TaskStatus.submitting])
      (TaskRow.reset reason now) = .ok { store with tasks } := by
    rw [updateTasks, htasks]
    rfl
  exact ⟨_, (guardedUpdate_returns hrow hid (by simp [hstatus]) rfl hupdate).1⟩

/-- A status is reported to a workflow that is there. -/
theorem reportStatus_succeeds (store : SwarmStore) (task : TaskRecord)
    (hworkflow : ∀ workflowId, task.workflowId = some workflowId → ∃ workflow,
      store.workflow? workflowId = some workflow)
    (status : TaskStatus) (payload : Mapping) (now : Time) :
    ∃ reported, store.reportStatus task status payload now = .ok reported ∧ reported.tasks = store.tasks := by
  unfold reportStatus
  split
  · unfold appendEvent
    split
    · exact ⟨_, rfl, rfl⟩
    · rename_i workflowId hw
      obtain ⟨workflow, hknown⟩ := hworkflow workflowId hw
      unfold insertEvent
      rw [hknown]
      exact ⟨_, rfl, rfl⟩
  · exact ⟨_, rfl, rfl⟩

/-- A task whose workflow is there is observed as a job that no other task has. -/
theorem observeJob_succeeds {taskId : String} {job : ExecutorJob} (hrow : row ∈ store.tasks.rows)
    (hid : row.taskId = taskId)
    (hworkflow : ∀ workflowId, row.workflowId = some workflowId → ∃ workflow,
      store.workflow? workflowId = some workflow)
    (hjob : ∀ r ∈ store.tasks.rows, r.jobId = some job.jobId → r.taskId = taskId)
    (hfits : fitsInteger job.recoveryCount = true) (now : Time) :
    ∃ task written, observeJob taskId job now store = .ok (task, written) := by
  let write := TaskRow.observed job now
  have hclash : ∀ a ∈ store.tasks.rows, ∀ b ∈ store.tasks.rows,
      Constrained.clash (if a.taskId = taskId then write a else a) (if b.taskId = taskId then write b else b) →
        Constrained.clash a b := by
    intro a ha b hb hclash
    by_cases hA : a.taskId = taskId <;> by_cases hB : b.taskId = taskId
    · exact Or.inl (hA.trans hB.symm)
    · rw [if_pos hA, if_neg hB] at hclash
      rcases hclash with h | h | h | h
      · exact Or.inl h
      · exact Or.inr (Or.inl h)
      · exact absurd (hjob b hb h.2.symm) hB
      · exact Or.inr (Or.inr (Or.inr h))
    · rw [if_neg hA, if_pos hB] at hclash
      rcases hclash with h | h | h | h
      · exact Or.inl h
      · exact Or.inr (Or.inl h)
      · exact absurd (hjob a ha h.2) hA
      · exact Or.inr (Or.inr (Or.inr h))
    · rwa [if_neg hA, if_neg hB] at hclash
  obtain ⟨tasks, htasks⟩ := store.tasks.update?_isSome_of_mem (·.taskId = taskId) write (by simpa using hclash)
  have hupdate : store.updateTasks (·.taskId = taskId) write = .ok { store with tasks } := by
    rw [updateTasks, htasks]
    rfl
  obtain ⟨reported, hreport, hsame⟩ := reportStatus_succeeds { store with tasks } row.toRecord hworkflow
    (taskStatus job.status) (observedPayload job (observedOutcome row.toRecord job).2) now
  have hrewrites : Rewrites store { store with tasks } row (write row) :=
    Rewrites.of_update hupdate hrow (fun r _ => by simp [hid]) rfl
  have hupdated : reported.task? taskId = some (write row) := by
    have hwritten := hrewrites.task?_eq taskId
    rw [if_pos hid.symm] at hwritten
    rw [task?, hsame]
    exact hwritten
  refine ⟨(write row).toRecord, reported, ?_⟩
  unfold observeJob
  refine bind_eq_ok.mpr ⟨row, orRaise_eq_ok.mpr (task?_eq_some.mpr ⟨hrow, hid⟩), ?_⟩
  refine bind_eq_ok.mpr ⟨(), ensure_eq_ok.mpr hfits, bind_eq_ok.mpr ⟨_, hupdate, ?_⟩⟩
  exact bind_eq_ok.mpr ⟨reported, hreport, bind_eq_ok.mpr ⟨_, orRaise_eq_ok.mpr hupdated, rfl⟩⟩

/-- Whoever asks for leadership is answered. -/
theorem acquireLeadership_succeeds (controllerId : String) (leaseSeconds now : Time) (store : SwarmStore) :
    ∃ lease store', acquireLeadership controllerId leaseSeconds now store = .ok (lease, store') := by
  unfold acquireLeadership
  split <;> exact ⟨_, _, rfl⟩

/-- A renewal only fails when the leadership is lost. -/
theorem renewLeadership_error {lease : ControllerLease} {leaseSeconds : Time} {e : PyError}
    (h : renewLeadership lease leaseSeconds now store = .error e) : e.kind = .leadershipLost := by
  unfold renewLeadership at h
  split at h
  · cases h
    rfl
  · cases h

end SwarmStore

end TPUSwarm
