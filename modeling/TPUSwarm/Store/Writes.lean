import TPUSwarm.Store.Admission

/-!
# What the calls that move no task write

One lemma for each writing operation on checkpoints, workflows, component links and
barriers: the guards that let it through, the rows it adds or rewrites, and the tables it
leaves alone.
-/

namespace TPUSwarm

open Common

namespace SwarmStore

variable {store store' : SwarmStore} {now : Time}

/-- What the insertion of a component link writes. -/
theorem insertComponent_eq_ok {row : ComponentRow} (h : store.insertComponent row = .ok store') :
    store'.components.rows = store.components.rows ++ [row] ∧ (store.workflow? row.workflowId).isSome ∧
      store' = { store with components := store'.components } := by
  unfold insertComponent at h
  obtain ⟨components, hinsert, h⟩ := bind_eq_ok.mp h
  dsimp only at h
  split at h
  · cases h
  · rename_i hnone
    cases h
    exact ⟨(Table.insert?_eq_some (orRaise_eq_ok.mp hinsert)).1,
      by simpa [Option.isSome_iff_ne_none] using hnone, rfl⟩

/-- What an upsert of a component link writes. -/
theorem upsertComponent_frame {row : ComponentRow} (h : store.upsertComponent row = .ok store') :
    store' = { store with components := store'.components } := by
  unfold upsertComponent at h
  dsimp only at h
  split at h
  · obtain ⟨components, -, h⟩ := bind_eq_ok.mp h
    cases h
    rfl
  · exact (insertComponent_eq_ok h).2.2

/-- What an update of a workflow writes. -/
theorem updateWorkflow_eq_ok {workflowId : String} {write : WorkflowRow → WorkflowRow}
    {workflow : WorkflowRecord} (h : updateWorkflow workflowId write store = .ok (workflow, store')) :
    (store'.workflows.rows = store.workflows.rows.map fun row =>
      if row.workflowId = workflowId then write row else row) ∧
      store' = { store with workflows := store'.workflows } ∧
        ∃ row, store'.workflow? workflowId = some row ∧ workflow = row.toRecord := by
  unfold updateWorkflow at h
  obtain ⟨workflows, hupdate, h⟩ := bind_eq_ok.mp h
  obtain ⟨row, hrow, h⟩ := bind_eq_ok.mp h
  cases h
  refine ⟨?_, rfl, row, orRaise_eq_ok.mp hrow, rfl⟩
  rw [Table.update?_eq_some (orRaise_eq_ok.mp hupdate)]
  simp only [decide_eq_true_eq]

/-- What the checkpoint row of `record_checkpoint` writes. -/
theorem publishCheckpoint_eq_ok {taskId : String} {checkpoint : CheckpointRef}
    (h : store.publishCheckpoint taskId checkpoint now = .ok store') :
    (store' = store ∧ ∃ row ∈ store.checkpoints.rows, row.taskId = taskId ∧
        row.sequence = checkpoint.sequence ∧ row.uri = checkpoint.uri) ∨
      ((∀ row ∈ store.checkpoints.rows, ¬ (row.taskId = taskId ∧ row.sequence = checkpoint.sequence)) ∧
        store'.checkpoints.rows = store.checkpoints.rows ++
          [⟨taskId, checkpoint.sequence, checkpoint.uri, dumps checkpoint.metadata, now⟩] ∧
        store' = { store with checkpoints := store'.checkpoints }) := by
  unfold publishCheckpoint at h
  split at h
  · rename_i existing hexisting
    split at h
    · cases h
    · rename_i huri
      cases h
      have hkey := List.find?_some hexisting
      rw [Bool.and_eq_true_iff, decide_eq_true_eq, decide_eq_true_eq] at hkey
      exact Or.inl ⟨rfl, existing, List.mem_of_find?_eq_some hexisting, hkey.1, hkey.2, not_not.mp huri⟩
  · unfold insertCheckpoint at h
    obtain ⟨checkpoints, hinsert, h⟩ := bind_eq_ok.mp h
    cases h
    obtain ⟨hrows, hclash⟩ := Table.insert?_eq_some (orRaise_eq_ok.mp hinsert)
    exact Or.inr ⟨hclash, hrows, rfl⟩

/-- What the task update of `record_checkpoint` writes. -/
theorem advanceCheckpoint_eq_ok {row : TaskRow} (hmem : row ∈ store.tasks.rows)
    {checkpoint : CheckpointRef} (h : store.advanceCheckpoint row checkpoint now = .ok store') :
    (store' = store ∧ ∃ sequence, row.checkpointSequence = some sequence ∧ checkpoint.sequence ≤ sequence) ∨
      ((∀ sequence, row.checkpointSequence = some sequence → sequence < checkpoint.sequence) ∧
        Rewrites store store' row (row.advanced checkpoint now) ∧
        store' = { store with tasks := store'.tasks }) := by
  unfold advanceCheckpoint at h
  split at h
  · rename_i hlater
    refine Or.inr ⟨fun sequence hsequence => ?_,
      Rewrites.of_update h hmem (fun r _ => by simp) rfl, (updateTasks_eq_ok h).2⟩
    rw [hsequence] at hlater
    simpa using hlater
  · rename_i hlater
    cases h
    refine Or.inl ⟨rfl, ?_⟩
    cases hsequence : row.checkpointSequence with
    | none => rw [hsequence] at hlater; simp at hlater
    | some sequence =>
      rw [hsequence] at hlater
      exact ⟨sequence, rfl, by simpa using hlater⟩

/-- The two writes of `record_checkpoint`. -/
theorem recordCheckpoint_eq_ok {taskId : String} {checkpoint : CheckpointRef} {task : TaskRecord}
    (h : recordCheckpoint taskId checkpoint now store = .ok (task, store')) :
    ∃ row mid, row ∈ store.tasks.rows ∧ row.taskId = taskId ∧
      store.publishCheckpoint taskId checkpoint now = .ok mid ∧
      mid.advanceCheckpoint row checkpoint now = .ok store' := by
  unfold recordCheckpoint at h
  obtain ⟨row, hrow, h⟩ := bind_eq_ok.mp h
  obtain ⟨mid, hmid, h⟩ := bind_eq_ok.mp h
  obtain ⟨final, hfinal, h⟩ := bind_eq_ok.mp h
  obtain ⟨updated, -, h⟩ := bind_eq_ok.mp h
  cases h
  obtain ⟨hmem, hid⟩ := task?_eq_some.mp (orRaise_eq_ok.mp hrow)
  exact ⟨row, mid, hmem, hid, hmid, hfinal⟩

/-- Publishing a checkpoint changes the checkpoint table only. -/
theorem publishCheckpoint_frame {taskId : String} {checkpoint : CheckpointRef}
    (h : store.publishCheckpoint taskId checkpoint now = .ok store') :
    store' = { store with checkpoints := store'.checkpoints } := by
  rcases publishCheckpoint_eq_ok h with ⟨rfl, -⟩ | ⟨-, -, hframe⟩
  · rfl
  · exact hframe

/-- What `commit_barrier` writes: nothing, or the commit row and its event. -/
theorem commitBarrier_eq_ok {workflowId : String} {barrier : ℤ} {uri : Option String}
    {commit : BarrierCommit} (h : commitBarrier workflowId barrier uri now store = .ok (commit, store')) :
    ∃ manifest, store.barrierManifest workflowId barrier = .ok manifest ∧
      ((∃ row ∈ store.commits.rows, row.workflowId = workflowId ∧ row.barrier = barrier ∧
          row.manifestJson = encodeManifest manifest ∧ row.controllerCheckpointUri = uri ∧
          commit = ⟨workflowId, barrier, uri, manifest, row.createdAt⟩ ∧ store' = store) ∨
        ((∀ row ∈ store.commits.rows, ¬ (row.workflowId = workflowId ∧ row.barrier = barrier)) ∧
          (store.workflow? workflowId).isSome ∧
          commit = ⟨workflowId, barrier, uri, manifest, now⟩ ∧
          store'.commits.rows = store.commits.rows ++
            [⟨workflowId, barrier, uri, encodeManifest manifest, now⟩] ∧
          store' = { store with
            commits := store'.commits,
            events := store.events.append ⟨store.events.seq + 1, workflowId, "BarrierCommitted", none, none,
              dumps (Dict.ofList [("barrier", .int barrier)]), now⟩ rfl })) := by
  unfold commitBarrier at h
  obtain ⟨workflow, hworkflow, h⟩ := bind_eq_ok.mp h
  obtain ⟨manifest, hmanifest, h⟩ := bind_eq_ok.mp h
  dsimp only at h
  refine ⟨manifest, hmanifest, ?_⟩
  split at h
  · cases h
  · rename_i hsame
    obtain ⟨final, hfinal, h⟩ := bind_eq_ok.mp h
    cases h
    cases hexisting : store.commit? workflowId barrier with
    | some row =>
      rw [hexisting] at hfinal hsame
      cases hfinal
      have hkey := List.find?_some hexisting
      rw [Bool.and_eq_true_iff, decide_eq_true_eq, decide_eq_true_eq] at hkey
      simp only [Option.any_some, Bool.or_eq_true, decide_eq_true_eq, not_or, not_not] at hsame
      exact Or.inl ⟨row, List.mem_of_find?_eq_some hexisting, hkey.1, hkey.2, hsame.1, hsame.2, rfl, rfl⟩
    | none =>
      rw [hexisting] at hfinal
      obtain ⟨mid, hmid, hevent⟩ := bind_eq_ok.mp hfinal
      unfold insertCommit at hmid
      obtain ⟨commits, hinsert, hmid⟩ := bind_eq_ok.mp hmid
      cases hmid
      obtain ⟨-, rfl⟩ := insertEvent_eq_ok hevent
      obtain ⟨hrows, hclash⟩ := Table.insert?_eq_some (orRaise_eq_ok.mp hinsert)
      exact Or.inr ⟨hclash, by rw [orRaise_eq_ok.mp hworkflow]; rfl, rfl, hrows, rfl⟩

/-- Acquiring leadership changes the leadership row only. -/
theorem acquireLeadership_frame {controllerId : String} {seconds : Time} {lease : Option ControllerLease}
    (h : acquireLeadership controllerId seconds now store = .ok (lease, store')) :
    store' = { store with leadership := store'.leadership } := by
  unfold acquireLeadership at h
  split at h <;> cases h <;> rfl

/-- Renewing leadership changes the leadership row only. -/
theorem renewLeadership_frame {lease renewed : ControllerLease} {seconds : Time}
    (h : renewLeadership lease seconds now store = .ok (renewed, store')) :
    store' = { store with leadership := store'.leadership } := by
  unfold renewLeadership at h
  split at h <;> cases h
  rfl

/-- What the insertion of a task writes: nothing, or the new row. It returns a row of the table. -/
theorem insertTask_eq_ok {spec : TaskSpec} {workflowId componentKey : Option String}
    {generation : Option ℕ} {task : TaskRecord}
    (h : insertTask spec workflowId componentKey generation now store = .ok (task, store')) :
    (∃ row ∈ store'.tasks.rows, task = row.toRecord) ∧ (store' = store ∨
      ((∀ row ∈ store.tasks.rows, ¬ Constrained.clash row
        (newTaskRow spec workflowId componentKey generation now)) ∧
        store'.tasks.rows = store.tasks.rows ++ [newTaskRow spec workflowId componentKey generation now] ∧
          store' = { store with tasks := store'.tasks })) := by
  unfold insertTask at h
  obtain ⟨-, -, h⟩ := bind_eq_ok.mp h
  split at h
  · rename_i tasks hinsert
    obtain ⟨row, hrow, h⟩ := bind_eq_ok.mp h
    cases h
    rw [orRaise_eq_ok] at hrow
    obtain ⟨hrows, hclash⟩ := Table.insert?_eq_some hinsert
    exact ⟨⟨row, (task?_eq_some.mp hrow).1, rfl⟩, Or.inr ⟨hclash, hrows, rfl⟩⟩
  · dsimp only at h
    split at h
    · rename_i row hrow
      cases h
      refine ⟨⟨row, ?_, rfl⟩, Or.inl rfl⟩
      rw [Option.orElse_eq_or, Option.or_eq_some_iff] at hrow
      rcases hrow with hkey | ⟨-, hid⟩
      · obtain ⟨key, -, hfound⟩ := Option.bind_eq_some_iff.mp hkey
        exact List.mem_of_find?_eq_some hfound
      · exact (task?_eq_some.mp hid).1
    · cases h

end SwarmStore

end TPUSwarm
