import TPUSwarm.Store.Links

/-!
# Checkpoint references

A task row repeats the columns of one row of the checkpoint table, the one with the greatest
sequence number. Publishing a checkpoint writes both tables; no other call writes either of
these columns, and no call deletes a row.
-/

namespace TPUSwarm

open Common SwarmStore

/-- The columns of a task row that a checkpoint writes, and the row they belong to. -/
structure Pointer where
  taskId : String
  uri : Option String
  sequence : Option ℤ
  metadataJson : Option JsonText
deriving DecidableEq

/-- The checkpoint columns of a row. -/
def TaskRow.pointer (row : TaskRow) : Pointer :=
  ⟨row.taskId, row.checkpointUri, row.checkpointSequence, row.checkpointMetadataJson⟩

/-- The pointer to a checkpoint. -/
def CheckpointRow.pointer (row : CheckpointRow) : Pointer :=
  ⟨row.taskId, some row.uri, some row.sequence, some row.metadataJson⟩

/-- No transition of a task writes its pointer. -/
theorem TaskRow.pointer_untouched : Untouched TaskRow.pointer :=
  ⟨fun _ _ => rfl, fun _ _ _ _ => rfl, fun _ _ _ => rfl, fun _ _ _ => rfl, fun _ _ _ => rfl⟩

/-- The pointer of a new row is empty. -/
theorem TaskRow.New.pointer {row : TaskRow} (h : row.New) : row.pointer = ⟨row.taskId, none, none, none⟩ := by
  obtain ⟨spec, workflowId, componentKey, generation, now, rfl⟩ := h
  rfl

/-- The pointer is empty, or points to a checkpoint of its task. -/
def Pointer.Valid (checkpoints : List CheckpointRow) (pointer : Pointer) : Prop :=
  pointer = ⟨pointer.taskId, none, none, none⟩ ∨ ∃ row ∈ checkpoints, pointer = row.pointer

/-- A task refers to this checkpoint or to a later one. -/
def Covered (tasks : List TaskRow) (checkpoint : CheckpointRow) : Prop :=
  ∃ row ∈ tasks, row.taskId = checkpoint.taskId ∧
    ∃ sequence, row.checkpointSequence = some sequence ∧ checkpoint.sequence ≤ sequence

/-- Tasks refer to checkpoints of theirs, and to the greatest ones. -/
structure PointersSettled (store : SwarmStore) : Prop where
  valid : ∀ row ∈ store.tasks.rows, row.pointer.Valid store.checkpoints.rows
  covered : ∀ checkpoint ∈ store.checkpoints.rows, Covered store.tasks.rows checkpoint

variable {store mid store' : SwarmStore} {now : Time}

/-- A call that leaves the pointers of all rows alone keeps the references settled. -/
theorem PointersSettled.of_kept (h : PointersSettled store) {added : List TaskRow}
    (hkept : store'.tasks.rows.map TaskRow.pointer =
      store.tasks.rows.map TaskRow.pointer ++ added.map TaskRow.pointer)
    (hadded : ∀ row ∈ added, row.New) (hcheckpoints : store'.checkpoints = store.checkpoints) :
    PointersSettled store' := by
  constructor
  · intro row hrow
    have hmem : row.pointer ∈ store.tasks.rows.map TaskRow.pointer ++ added.map TaskRow.pointer :=
      hkept ▸ List.mem_map_of_mem hrow
    rw [hcheckpoints]
    rcases List.mem_append.mp hmem with hold | hnew
    · obtain ⟨old, hold, heq⟩ := List.mem_map.mp hold
      exact heq ▸ h.valid old hold
    · obtain ⟨new, hnew, heq⟩ := List.mem_map.mp hnew
      rw [← heq, (hadded new hnew).pointer]
      exact Or.inl rfl
  · intro checkpoint hcheckpoint
    obtain ⟨old, hold, hid, hsequence⟩ := h.covered checkpoint (hcheckpoints ▸ hcheckpoint)
    have hmem : old.pointer ∈ store'.tasks.rows.map TaskRow.pointer :=
      hkept ▸ List.mem_append_left _ (List.mem_map_of_mem hold)
    obtain ⟨row, hrow, heq⟩ := List.mem_map.mp hmem
    have hrowId : row.taskId = old.taskId := congrArg Pointer.taskId heq
    have hrowSequence : row.checkpointSequence = old.checkpointSequence := congrArg Pointer.sequence heq
    exact ⟨row, hrow, hrowId.trans hid, hrowSequence ▸ hsequence⟩

/-- A published checkpoint is in the table; the row of a checkpoint that was published before is
covered already. -/
theorem publishCheckpoint_adds {taskId : String} {checkpoint : CheckpointRef}
    (h : store.publishCheckpoint taskId checkpoint now = .ok mid) :
    ∃ added, mid.checkpoints.rows = store.checkpoints.rows ++ added ∧
      (∀ row ∈ added, row = ⟨taskId, checkpoint.sequence, checkpoint.uri, dumps checkpoint.metadata, now⟩) ∧
        (added = [] → ∃ row ∈ store.checkpoints.rows, row.taskId = taskId ∧
          row.sequence = checkpoint.sequence) := by
  rcases publishCheckpoint_eq_ok h with ⟨rfl, row, hrow, hid, hsequence, -⟩ | ⟨-, hrows, -⟩
  · exact ⟨[], by simp, by simp, fun _ => ⟨row, hrow, hid, hsequence⟩⟩
  · exact ⟨_, hrows, by simp, by simp⟩

/-- Recording a checkpoint keeps the references settled. -/
theorem PointersSettled.recordCheckpoint (h : PointersSettled store) {taskId : String}
    {checkpoint : CheckpointRef} {task : TaskRecord}
    (hrun : SwarmStore.recordCheckpoint taskId checkpoint now store = .ok (task, store')) :
    PointersSettled store' := by
  obtain ⟨row, mid, hmem, rfl, hpublish, hadvance⟩ := recordCheckpoint_eq_ok hrun
  have htasks : mid.tasks = store.tasks := by rw [publishCheckpoint_frame hpublish]
  obtain ⟨added, hcheckpoints, hadded, hrepeated⟩ := publishCheckpoint_adds hpublish
  have hkeeps {pointer : Pointer} (hvalid : pointer.Valid store.checkpoints.rows) :
      pointer.Valid mid.checkpoints.rows := hvalid.imp_right fun ⟨r, hr, heq⟩ =>
    ⟨r, hcheckpoints ▸ List.mem_append_left _ hr, heq⟩
  rcases advanceCheckpoint_eq_ok (htasks ▸ hmem) hadvance with ⟨rfl, sequence, hsequence, hle⟩ |
    ⟨hnewer, hrewrites, hframe⟩
  · -- the task refers to this checkpoint or to a later one already
    refine ⟨fun r hr => hkeeps (h.valid r (htasks ▸ hr)), fun c hc => ?_⟩
    rw [hcheckpoints, List.mem_append] at hc
    rw [htasks]
    rcases hc with hold | hnew
    · exact h.covered c hold
    · rw [hadded c hnew]
      exact ⟨row, hmem, rfl, sequence, hsequence, hle⟩
  · have hsame : store'.checkpoints = mid.checkpoints := by rw [hframe]
    have hnew : added ≠ [] := fun hnil => by
      -- a checkpoint of this number would be covered by the row
      obtain ⟨c, hc, hid, hsequence⟩ := hrepeated hnil
      obtain ⟨r, hr, hrid, sequence, hrow, hle⟩ := h.covered c hc
      obtain rfl := store.task_unique hr hmem (hrid.trans hid)
      exact absurd (hnewer sequence hrow) (not_lt.mpr (hsequence ▸ hle))
    constructor
    · intro r hr
      rw [hsame]
      rcases hrewrites.mem_iff.mp hr with rfl | ⟨hold, -⟩
      · obtain ⟨c, hc⟩ := List.exists_mem_of_ne_nil _ hnew
        refine Or.inr ⟨c, hcheckpoints ▸ List.mem_append_right _ hc, ?_⟩
        rw [hadded c hc]
        rfl
      · exact hkeeps (h.valid r (htasks ▸ hold))
    · intro c hc
      rw [hsame, hcheckpoints, List.mem_append] at hc
      by_cases hid : c.taskId = row.taskId
      · refine ⟨_, hrewrites.mem', hid.symm, checkpoint.sequence, rfl, ?_⟩
        rcases hc with hold | hadd
        · obtain ⟨r, hr, hrid, sequence, hrow, hle⟩ := h.covered c hold
          obtain rfl := store.task_unique hr hmem (hrid.trans hid)
          exact hle.trans (hnewer sequence hrow).le
        · exact (congrArg CheckpointRow.sequence (hadded c hadd)).le
      · have hold := hc.resolve_right fun hadd => hid (congrArg CheckpointRow.taskId (hadded c hadd))
        obtain ⟨r, hr, hrid, hsequence⟩ := h.covered c hold
        exact ⟨r, hrewrites.mem_iff.mpr (Or.inr ⟨htasks ▸ hr, fun heq => hid (hrid.symm.trans heq)⟩), hrid,
          hsequence⟩

/-- Every call keeps the references settled. -/
theorem PointersSettled.run {call : Call} {result : call.Result} (h : PointersSettled store)
    (hrun : call.run now store = .ok (result, store')) : PointersSettled store' := by
  by_cases hcheckpoints : StoreTable.checkpoints ∈ call.tables
  · cases call with
    | recordCheckpoint taskId checkpoint => exact h.recordCheckpoint hrun
    | _ => simp [Call.tables] at hcheckpoints
  · have hsame : store'.checkpoints = store.checkpoints := Call.frame hrun hcheckpoints
    obtain ⟨added, hkept, hnew⟩ := TaskRow.pointer_untouched.run (fun taskId checkpoint heq => by
      subst heq
      simp [Call.tables] at hcheckpoints) hrun
    exact h.of_kept hkept hnew hsame

/-- In every state the references are settled. -/
theorem pointers_settled {allowed : Discretion} (h : History allowed .empty store) : PointersSettled store :=
  h.invariant (I := PointersSettled) (fun _ _ _ _ _ _ hrun hs => hs.run hrun)
    ⟨fun _ hrow => (by cases hrow), fun _ hrow => (by cases hrow)⟩

/-- A call can only add checkpoints behind those that are there. -/
theorem Call.extends_checkpoints {call : Call} {result : call.Result}
    (hrun : call.run now store = .ok (result, store')) : store.checkpoints.rows <+: store'.checkpoints.rows := by
  by_cases hcheckpoints : StoreTable.checkpoints ∈ call.tables
  · cases call with
    | recordCheckpoint taskId reference =>
      obtain ⟨row, mid, hmem, -, hpublish, hadvance⟩ := recordCheckpoint_eq_ok hrun
      have htasks : mid.tasks = store.tasks := by rw [publishCheckpoint_frame hpublish]
      obtain ⟨added, hadded, -⟩ := publishCheckpoint_adds hpublish
      have hkept : store.checkpoints.rows <+: mid.checkpoints.rows := ⟨added, hadded.symm⟩
      rcases advanceCheckpoint_eq_ok (htasks ▸ hmem) hadvance with ⟨rfl, -⟩ | ⟨-, -, hframe⟩
      · exact hkept
      · rw [hframe]
        exact hkept
    | _ => simp [Call.tables] at hcheckpoints
  · have hsame : store'.checkpoints = store.checkpoints := Call.frame hrun hcheckpoints
    rw [hsame]

/-- No call deletes a checkpoint. -/
theorem Call.keeps_checkpoints {call : Call} {result : call.Result}
    (hrun : call.run now store = .ok (result, store')) {checkpoint : CheckpointRow}
    (h : checkpoint ∈ store.checkpoints.rows) : checkpoint ∈ store'.checkpoints.rows :=
  (Call.extends_checkpoints hrun).subset h

/-- A checkpoint that a task refers to is a row of the table with its values. -/
theorem PointersSettled.checkpoint {row : TaskRow} {reference : CheckpointRef} (h : PointersSettled store)
    (hrow : row ∈ store.tasks.rows) (href : row.checkpoint = some reference) :
    ∃ checkpoint ∈ store.checkpoints.rows, checkpoint.taskId = row.taskId ∧
      checkpoint.sequence = reference.sequence ∧ checkpoint.uri = reference.uri ∧
        loads checkpoint.metadataJson = reference.metadata := by
  obtain ⟨uri, huri, rfl⟩ := Option.map_eq_some_iff.mp href
  rcases h.valid row hrow with hempty | ⟨checkpoint, hcheckpoint, hpointer⟩
  · have hnone : row.checkpointUri = none := congrArg Pointer.uri hempty
    rw [hnone] at huri
    cases huri
  · have hid : row.taskId = checkpoint.taskId := congrArg Pointer.taskId hpointer
    have huri' : row.checkpointUri = some checkpoint.uri := congrArg Pointer.uri hpointer
    have hsequence : row.checkpointSequence = some checkpoint.sequence := congrArg Pointer.sequence hpointer
    have hmetadata : row.checkpointMetadataJson = some checkpoint.metadataJson :=
      congrArg Pointer.metadataJson hpointer
    refine ⟨checkpoint, hcheckpoint, hid.symm, ?_, Option.some.inj (huri'.symm.trans huri), ?_⟩
    · rw [hsequence, Option.getD_some]
    · rw [hmetadata, Option.map_some, Option.getD_some]

/-- A task that refers to a checkpoint records its number. -/
theorem PointersSettled.sequence {row : TaskRow} {reference : CheckpointRef} (h : PointersSettled store)
    (hrow : row ∈ store.tasks.rows) (href : row.checkpoint = some reference) :
    row.checkpointSequence = some reference.sequence := by
  obtain ⟨uri, huri, rfl⟩ := Option.map_eq_some_iff.mp href
  rcases h.valid row hrow with hempty | ⟨checkpoint, -, hpointer⟩
  · have hnone : row.checkpointUri = none := congrArg Pointer.uri hempty
    rw [hnone] at huri
    cases huri
  · have hsequence : row.checkpointSequence = some checkpoint.sequence := congrArg Pointer.sequence hpointer
    rw [hsequence, Option.getD_some]

/-- Every linked task has a row. -/
def LinkedTasks (store : SwarmStore) : Prop :=
  ∀ link ∈ store.components.rows, ∃ row, store.task? link.taskId = some row

/-- Every linked task has a row, also after a component is placed. -/
theorem LinkedTasks.places {workflowId : String} {component : ComponentSpec} {row : TaskRow}
    {link : ComponentRow} (h : LinkedTasks store)
    (hplaces : Places now workflowId component store mid row link) : LinkedTasks mid := by
  intro other hother
  rcases (hplaces.mem_iff other).mp hother with rfl | ⟨hold, -⟩
  · exact ⟨row, task?_eq_some.mpr
      ⟨hplaces.tasks_iff.mpr (Or.inr rfl), (congrArg Linkage.taskId hplaces.linkage).symm⟩⟩
  · obtain ⟨r, hr⟩ := h other hold
    obtain ⟨hmem, hid⟩ := task?_eq_some.mp hr
    exact ⟨r, task?_eq_some.mpr ⟨hplaces.tasks_iff.mpr (Or.inl hmem), hid⟩⟩

/-- Every linked task has a row, also after components are inserted. -/
theorem LinkedTasks.insertComponents {workflowId : String} {components : List ComponentSpec}
    (hrun : SwarmStore.insertComponents workflowId now components store = .ok store') (h : LinkedTasks store) :
    LinkedTasks store' := by
  induction components generalizing store with
  | nil =>
    cases hrun
    exact h
  | cons component rest ih =>
    obtain ⟨mid, row, link, hplaces, -, hrest⟩ := insertComponents_cons hrun
    exact ih hrest (h.places hplaces)

/-- Every call keeps a row for every linked task. -/
theorem LinkedTasks.run {call : Call} {result : call.Result} (h : LinkedTasks store)
    (hrun : call.run now store = .ok (result, store')) : LinkedTasks store' := by
  by_cases hcomponents : StoreTable.components ∈ call.tables
  · cases call with
    | submitWorkflow spec components initialState =>
      obtain ⟨workflows, -, hinsert⟩ := submitWorkflow_steps hrun
      have hsame : LinkedTasks { store with workflows } := h
      exact LinkedTasks.insertComponents hinsert hsame
    | replaceComponent workflowId component =>
      rcases replaceComponent_cases hrun with ⟨_, _, -, -, -, -, rfl⟩ | ⟨-, row, link, -, hplaces⟩
      · exact h
      · exact h.places hplaces
    | _ => simp [Call.tables] at hcomponents
  · have hsame : store'.components = store.components := Call.frame hrun hcomponents
    intro link hlink
    obtain ⟨row, hrow⟩ := h link (hsame ▸ hlink)
    obtain ⟨hmem, hid⟩ := task?_eq_some.mp hrow
    obtain ⟨row', hrow', horigin⟩ := HasOrigin.run ⟨row, hmem, rfl⟩ hrun
    exact ⟨row', task?_eq_some.mpr ⟨hrow', (congrArg TaskOrigin.taskId horigin).trans hid⟩⟩

/-- In every state every linked task has a row. -/
theorem linked_tasks {allowed : Discretion} (h : History allowed .empty store) : LinkedTasks store :=
  h.invariant (I := LinkedTasks) (fun _ _ _ _ _ _ hrun hs => hs.run hrun) fun _ hlink => (by cases hlink)

end TPUSwarm
