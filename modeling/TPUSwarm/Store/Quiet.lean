import TPUSwarm.Store.Writes

/-!
# Calls that move no task

All other calls leave every task row as it was, apart from its checkpoint columns, and add
only rows that are pending and were never submitted. The only events they append report
committed barriers. One relation says this of a call and of any sequence of calls.
-/

namespace TPUSwarm

open Common

/-- A task row without the columns that a checkpoint changes. -/
def TaskRow.core (row : TaskRow) : TaskRow :=
  { row with checkpointUri := none, checkpointSequence := none, checkpointMetadataJson := none,
             updatedAt := 0 }

/-- Rows with the same core agree on every column that the core keeps. -/
theorem TaskRow.column_eq {α : Type} {a b : TaskRow} (h : a.core = b.core) (column : TaskRow → α)
    (hcolumn : ∀ row : TaskRow, column row.core = column row) : column a = column b := by
  rw [← hcolumn a, h, hcolumn b]

/-- The row is as an insertion made it, up to its checkpoints. -/
def TaskRow.Fresh (row : TaskRow) : Prop :=
  ∃ (spec : TaskSpec) (now : Time),
    row.core = (SwarmStore.newTaskRow spec none none none now).core ∨
      ∃ workflowId componentKey generation, row.core =
        (SwarmStore.newTaskRow spec (some workflowId) (some componentKey) (some generation) now).core

/-- A fresh row belongs to no workflow, or to a component and generation of one; it is pending. -/
theorem TaskRow.Fresh.columns {row : TaskRow} (h : row.Fresh) : row.status = .pending ∧
    (row.workflowId ≠ none → row.componentKey ≠ none ∧ row.generation ≠ none) := by
  have hstatus : row.status = row.core.status := rfl
  have hw : row.workflowId = row.core.workflowId := rfl
  have hk : row.componentKey = row.core.componentKey := rfl
  have hg : row.generation = row.core.generation := rfl
  rw [hstatus, hw, hk, hg]
  obtain ⟨spec, now, hcore | ⟨w, k, g, hcore⟩⟩ := h <;> rw [hcore] <;> simp [TaskRow.core, SwarmStore.newTaskRow]

/-- The old rows are kept, up to their checkpoints, and fresh ones follow. -/
def KeepsTasks (old new : List TaskRow) : Prop :=
  ∃ kept fresh, new = kept ++ fresh ∧ kept.map TaskRow.core = old.map TaskRow.core ∧
    ∀ row ∈ fresh, row.Fresh

namespace KeepsTasks

variable {old mid new : List TaskRow}

/-- No change keeps the tasks. -/
theorem refl (rows : List TaskRow) : KeepsTasks rows rows :=
  ⟨rows, [], (List.append_nil _).symm, rfl, by simp⟩

/-- Two changes that keep the tasks keep them together. -/
theorem trans (h : KeepsTasks old mid) (h' : KeepsTasks mid new) : KeepsTasks old new := by
  obtain ⟨kept, fresh, rfl, hkept, hfresh⟩ := h
  obtain ⟨kept', fresh', rfl, hkept', hfresh'⟩ := h'
  rw [List.map_append] at hkept'
  obtain ⟨first, second, rfl, hfirst, hsecond⟩ := List.map_eq_append_iff.mp hkept'
  refine ⟨first, second ++ fresh', List.append_assoc .., hfirst.trans hkept, fun row hrow => ?_⟩
  rcases List.mem_append.mp hrow with hrow | hrow
  · obtain ⟨original, horiginal, hcore⟩ : ∃ r ∈ fresh, r.core = row.core := by
      have hmem : row.core ∈ fresh.map TaskRow.core := hsecond ▸ List.mem_map_of_mem hrow
      simpa using hmem
    obtain ⟨spec, now, hshape⟩ := hfresh original horiginal
    exact ⟨spec, now, hcore ▸ hshape⟩
  · exact hfresh' row hrow

/-- A rewrite of checkpoint columns keeps the tasks. -/
theorem of_map {f : TaskRow → TaskRow} {rows : List TaskRow} (hf : ∀ row ∈ rows, (f row).core = row.core) :
    KeepsTasks rows (rows.map f) := by
  refine ⟨rows.map f, [], (List.append_nil _).symm, ?_, by simp⟩
  rw [List.map_map]
  exact List.map_congr_left hf

/-- A row of the new table is an old one or a fresh one. -/
theorem old_or_fresh (h : KeepsTasks old new) {row : TaskRow} (hrow : row ∈ new) :
    (∃ r ∈ old, r.core = row.core) ∨ row.Fresh := by
  obtain ⟨kept, fresh, rfl, hkept, hfresh⟩ := h
  rcases List.mem_append.mp hrow with hrow | hrow
  · have hmem : row.core ∈ old.map TaskRow.core := hkept ▸ List.mem_map_of_mem hrow
    exact Or.inl (by simpa using hmem)
  · exact Or.inr (hfresh row hrow)

/-- An old row is still there, up to its checkpoints. -/
theorem kept (h : KeepsTasks old new) {row : TaskRow} (hrow : row ∈ old) :
    ∃ r ∈ new, r.core = row.core := by
  obtain ⟨kept, fresh, rfl, hkept, -⟩ := h
  have hmem : row.core ∈ kept.map TaskRow.core := hkept ▸ List.mem_map_of_mem hrow
  obtain ⟨r, hr, hcore⟩ := List.mem_map.mp hmem
  exact ⟨r, List.mem_append_left _ hr, hcore⟩

/-- A count that ignores checkpoints and fresh rows does not change. -/
theorem countP_eq (h : KeepsTasks old new) {p : TaskRow → Bool} (hcore : ∀ row, p row.core = p row)
    (hfresh : ∀ row : TaskRow, row.Fresh → p row = false) : new.countP p = old.countP p := by
  obtain ⟨kept, fresh, rfl, hkept, hnew⟩ := h
  have hcount (rows : List TaskRow) : rows.countP p = (rows.map TaskRow.core).countP p := by
    rw [List.countP_map]
    exact List.countP_congr fun row _ => by rw [Function.comp_apply, hcore]
  have hnone : fresh.countP p = 0 :=
    List.countP_eq_zero.mpr fun row hrow => by rw [hfresh row (hnew row hrow)]; simp
  rw [List.countP_append, hnone, Nat.add_zero, hcount, hkept, ← hcount]

end KeepsTasks

/-- The events were extended by events of no component. -/
def KeepsEvents (old new : Log EventRow) : Prop :=
  ∃ added, new.entries = old.entries ++ added ∧ ∀ event ∈ added, event.componentKey = none

/-- A call, or a sequence of calls, that moved no task. -/
structure Quiet (store store' : SwarmStore) : Prop where
  tasks : KeepsTasks store.tasks.rows store'.tasks.rows
  events : KeepsEvents store.events store'.events

namespace Quiet

variable {store mid store' : SwarmStore}

/-- No change is quiet. -/
theorem refl (store : SwarmStore) : Quiet store store := ⟨.refl _, [], by simp, by simp⟩

/-- Two quiet changes are quiet together. -/
theorem trans (h : Quiet store mid) (h' : Quiet mid store') : Quiet store store' := by
  refine ⟨h.tasks.trans h'.tasks, ?_⟩
  obtain ⟨added, hadded, hnone⟩ := h.events
  obtain ⟨added', hadded', hnone'⟩ := h'.events
  refine ⟨added ++ added', by rw [hadded', hadded, List.append_assoc], fun event hevent => ?_⟩
  rcases List.mem_append.mp hevent with hevent | hevent
  · exact hnone event hevent
  · exact hnone' event hevent

/-- A change of other tables. -/
theorem of_frame (htasks : store'.tasks = store.tasks) (hevents : store'.events = store.events) :
    Quiet store store' := by
  refine ⟨?_, ?_⟩
  · rw [htasks]
    exact .refl _
  · rw [hevents]
    exact ⟨[], by simp, by simp⟩

end Quiet

namespace SwarmStore

variable {store store' : SwarmStore} {now : Time}

/-- Submitting a task is quiet. -/
theorem insertTask_quiet {spec : TaskSpec} {task : TaskRecord}
    (h : insertTask spec none none none now store = .ok (task, store')) : Quiet store store' := by
  rcases (insertTask_eq_ok h).2 with rfl | ⟨-, hrows, hframe⟩
  · exact .refl _
  · refine ⟨⟨store.tasks.rows, [newTaskRow spec none none none now], hrows, rfl, ?_⟩, [], ?_, by simp⟩
    · intro row hrow
      rw [List.mem_singleton.mp hrow]
      exact ⟨spec, now, Or.inl rfl⟩
    · rw [hframe, List.append_nil]

/-- The insertion of a component's task. -/
theorem insertComponentTask_quiet {spec : TaskSpec} {workflowId key : String} {generation : ℕ}
    {task : TaskRecord}
    (h : insertTask spec (some workflowId) (some key) (some generation) now store = .ok (task, store')) :
    Quiet store store' := by
  rcases (insertTask_eq_ok h).2 with rfl | ⟨-, hrows, hframe⟩
  · exact .refl _
  · refine ⟨⟨store.tasks.rows, [newTaskRow spec (some workflowId) (some key) (some generation) now],
      hrows, rfl, ?_⟩, [], ?_, by simp⟩
    · intro row hrow
      rw [List.mem_singleton.mp hrow]
      exact ⟨spec, now, Or.inr ⟨_, _, _, rfl⟩⟩
    · rw [hframe, List.append_nil]

/-- What the components of a new workflow write. -/
theorem insertComponents_quiet {workflowId : String} {components : List ComponentSpec}
    (h : insertComponents workflowId now components store = .ok store') :
    Quiet store store' ∧
      store' = { store with tasks := store'.tasks, components := store'.components } := by
  induction components generalizing store with
  | nil =>
    cases h
    exact ⟨.refl _, rfl⟩
  | cons component rest ih =>
    obtain ⟨⟨task, mid⟩, htask, h⟩ := bind_eq_ok.mp h
    obtain ⟨linked, hlinked, h⟩ := bind_eq_ok.mp h
    obtain ⟨-, -, hlink⟩ := insertComponent_eq_ok hlinked
    obtain ⟨hquiet, hrest⟩ := ih h
    have hmid : mid = { store with tasks := mid.tasks } := by
      rcases (insertTask_eq_ok htask).2 with rfl | ⟨-, -, hframe⟩
      · rfl
      · exact hframe
    refine ⟨(insertComponentTask_quiet htask).trans (Quiet.trans (.of_frame ?_ ?_) hquiet), ?_⟩
    · rw [hlink]
    · rw [hlink]
    · rw [hrest, hlink, hmid]

/-- What `submit_workflow` writes. -/
theorem submitWorkflow_eq_ok {spec : WorkflowSpec} {components : List ComponentSpec}
    {initialState : Mapping} {workflow : WorkflowRecord}
    (h : submitWorkflow spec components initialState now store = .ok (workflow, store')) :
    Quiet store store' ∧ (∀ row ∈ store.workflows.rows, row.workflowId ≠ spec.workflowId) ∧
      store'.workflows.rows = store.workflows.rows ++ [newWorkflowRow spec initialState now] ∧
        store' = { store with tasks := store'.tasks, workflows := store'.workflows,
                              components := store'.components } := by
  unfold submitWorkflow at h
  obtain ⟨workflows, hinsert, h⟩ := bind_eq_ok.mp h
  obtain ⟨final, hfinal, h⟩ := bind_eq_ok.mp h
  obtain ⟨row, -, h⟩ := bind_eq_ok.mp h
  cases h
  obtain ⟨hrows, hfresh⟩ := Table.insert?_eq_some (orRaise_eq_ok.mp hinsert)
  obtain ⟨hquiet, hframe⟩ := insertComponents_quiet hfinal
  refine ⟨⟨hquiet.tasks, hquiet.events⟩, hfresh, ?_, ?_⟩
  · rw [hframe, ← hrows]
  · rw [hframe]

/-- What `replace_component` writes. -/
theorem replaceComponent_eq_ok {workflowId : String} {component : ComponentSpec} {task : TaskRecord}
    (h : replaceComponent workflowId component now store = .ok (task, store')) :
    Quiet store store' ∧
      store' = { store with tasks := store'.tasks, components := store'.components } := by
  unfold replaceComponent at h
  dsimp only at h
  split at h
  · obtain ⟨row, -, h⟩ := bind_eq_ok.mp h
    cases h
    exact ⟨.refl _, rfl⟩
  · obtain ⟨⟨inserted, mid⟩, hinsert, h⟩ := bind_eq_ok.mp h
    obtain ⟨final, hfinal, h⟩ := bind_eq_ok.mp h
    cases h
    have hlink := upsertComponent_frame hfinal
    have hmid : mid = { store with tasks := mid.tasks } := by
      rcases (insertTask_eq_ok hinsert).2 with rfl | ⟨-, -, hframe⟩
      · rfl
      · exact hframe
    refine ⟨(insertComponentTask_quiet hinsert).trans (.of_frame ?_ ?_), ?_⟩
    · rw [hlink]
    · rw [hlink]
    · rw [hlink, hmid]

/-- Publishing a checkpoint is quiet. -/
theorem recordCheckpoint_quiet {taskId : String} {checkpoint : CheckpointRef} {task : TaskRecord}
    (h : recordCheckpoint taskId checkpoint now store = .ok (task, store')) : Quiet store store' := by
  obtain ⟨row, mid, hmem, -, hpublish, hadvance⟩ := recordCheckpoint_eq_ok h
  have hmid := publishCheckpoint_frame hpublish
  have hfirst : Quiet store mid := .of_frame (by rw [hmid]) (by rw [hmid])
  refine hfirst.trans ?_
  rcases advanceCheckpoint_eq_ok (by rw [hmid]; exact hmem) hadvance with ⟨rfl, -⟩ | ⟨-, hrewrites, hframe⟩
  · exact .refl _
  · refine ⟨?_, [], by rw [hframe, List.append_nil], by simp⟩
    rw [hrewrites.rows]
    refine KeepsTasks.of_map fun r hr => ?_
    by_cases hid : r.taskId = row.taskId
    · rw [if_pos hid, mid.task_unique hr hrewrites.mem hid]
      rfl
    · rw [if_neg hid]

/-- Updating a workflow is quiet. -/
theorem updateWorkflow_quiet {workflowId : String} {write : WorkflowRow → WorkflowRow}
    {workflow : WorkflowRecord} (h : updateWorkflow workflowId write store = .ok (workflow, store')) :
    Quiet store store' := by
  have hframe := (updateWorkflow_eq_ok h).2.1
  exact .of_frame (by rw [hframe]) (by rw [hframe])

/-- Committing a barrier is quiet. -/
theorem commitBarrier_quiet {workflowId : String} {barrier : ℤ} {uri : Option String}
    {commit : BarrierCommit} (h : commitBarrier workflowId barrier uri now store = .ok (commit, store')) :
    Quiet store store' := by
  obtain ⟨manifest, -, ⟨row, -, -, -, -, -, -, rfl⟩ | ⟨-, -, -, -, hframe⟩⟩ := commitBarrier_eq_ok h
  · exact .refl _
  · rw [hframe]
    exact ⟨.refl _, _, rfl, by simp⟩

end SwarmStore

/-- Every call but the five task transitions moves no task. -/
theorem Call.quiet {call : Call} (hcall : call.isTransition = false) {now : Time}
    {store store' : SwarmStore} {result : call.Result}
    (h : call.run now store = .ok (result, store')) : Quiet store store' := by
  by_cases hread : call.isRead
  · rw [Call.read_unchanged hread h]
    exact .refl _
  · cases call with
    | submitTask spec => exact SwarmStore.insertTask_quiet h
    | setResourcePolicy policy =>
      obtain ⟨policies, -, h⟩ := bind_eq_ok.mp h
      cases h
      exact .of_frame rfl rfl
    | recordCheckpoint taskId checkpoint => exact SwarmStore.recordCheckpoint_quiet h
    | submitWorkflow spec components initialState => exact (SwarmStore.submitWorkflow_eq_ok h).1
    | replaceComponent workflowId component => exact (SwarmStore.replaceComponent_eq_ok h).1
    | saveWorkflowState workflowId state cursor => exact SwarmStore.updateWorkflow_quiet h
    | completeWorkflow workflowId result => exact SwarmStore.updateWorkflow_quiet h
    | failWorkflow workflowId reason => exact SwarmStore.updateWorkflow_quiet h
    | commitBarrier workflowId barrier uri => exact SwarmStore.commitBarrier_quiet h
    | acquireLeadership controllerId seconds =>
      have hframe := SwarmStore.acquireLeadership_frame h
      exact .of_frame (by rw [hframe]) (by rw [hframe])
    | renewLeadership lease seconds =>
      have hframe := SwarmStore.renewLeadership_frame h
      exact .of_frame (by rw [hframe]) (by rw [hframe])
    | reserveSubmissions _ | bindJob _ _ _ | resetSubmission _ _ | failTask _ _ | observeJob _ _ =>
      cases hcall
    | _ => exact absurd rfl hread

end TPUSwarm
