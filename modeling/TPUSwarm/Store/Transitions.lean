import TPUSwarm.Store.Calls

/-!
# What the task transitions write

Binding, resetting, failing and observing a task rewrite exactly one row of the task table,
and an admission is a chain of such rewrites. The lemmas name the row before and after,
what the guard of the statement says about it, and what is appended to the event log.
-/

namespace TPUSwarm

open Common

namespace SwarmStore

/-- One task row was rewritten. -/
structure Rewrites (store store' : SwarmStore) (row row' : TaskRow) : Prop where
  mem : row ∈ store.tasks.rows
  sameId : row'.taskId = row.taskId
  rows : store'.tasks.rows = store.tasks.rows.map fun r => if r.taskId = row.taskId then row' else r

namespace Rewrites

variable {store store' : SwarmStore} {row row' : TaskRow}

/-- The rows after a rewrite: the new row, and every other row as it was. -/
theorem mem_iff (h : Rewrites store store' row row') {r : TaskRow} :
    r ∈ store'.tasks.rows ↔ r = row' ∨ (r ∈ store.tasks.rows ∧ r.taskId ≠ row.taskId) := by
  rw [h.rows, List.mem_map]
  constructor
  · rintro ⟨r₀, hmem, rfl⟩
    by_cases hid : r₀.taskId = row.taskId
    · exact Or.inl (if_pos hid)
    · rw [if_neg hid]
      exact Or.inr ⟨hmem, hid⟩
  · rintro (rfl | ⟨hmem, hid⟩)
    · exact ⟨row, h.mem, if_pos rfl⟩
    · exact ⟨r, hmem, if_neg hid⟩

/-- The new row is in the table. -/
theorem mem' (h : Rewrites store store' row row') : row' ∈ store'.tasks.rows :=
  h.mem_iff.mpr (Or.inl rfl)

/-- Selecting a row after a rewrite. -/
theorem task?_eq (h : Rewrites store store' row row') (taskId : String) :
    store'.task? taskId = if taskId = row.taskId then some row' else store.task? taskId := by
  by_cases hid : taskId = row.taskId
  · rw [if_pos hid]
    exact task?_eq_some.mpr ⟨h.mem', h.sameId.trans hid.symm⟩
  · rw [if_neg hid]
    refine Option.ext fun r => ?_
    simp only [task?_eq_some, h.mem_iff]
    constructor
    · rintro ⟨rfl | ⟨hmem, -⟩, hr⟩
      · exact absurd (hr.symm.trans h.sameId) hid
      · exact ⟨hmem, hr⟩
    · rintro ⟨hmem, hr⟩
      exact ⟨Or.inr ⟨hmem, fun heq => hid (hr.symm.trans heq)⟩, hr⟩

/-- Counting rows after a rewrite. -/
theorem countP_add (h : Rewrites store store' row row') (p : TaskRow → Bool) :
    store'.tasks.rows.countP p + (if p row then 1 else 0) =
      store.tasks.rows.countP p + (if p row' then 1 else 0) := by
  have hids : store.tasks.rows.Pairwise fun a b => a.taskId ≠ b.taskId :=
    store.tasks.unique.imp fun hclash heq => hclash (Or.inl heq)
  have hmem := h.mem
  rw [h.rows]
  generalize store.tasks.rows = rows at hids hmem
  induction rows with
  | nil => cases hmem
  | cons r rest ih =>
    obtain ⟨hfirst, hrest⟩ := List.pairwise_cons.mp hids
    rcases List.mem_cons.mp hmem with rfl | hmem
    · have hsame : rest.map (fun r => if r.taskId = row.taskId then row' else r) = rest :=
        (List.map_congr_left fun r hr => if_neg fun heq => hfirst r hr heq.symm).trans (List.map_id' _)
      rw [List.map_cons, if_pos rfl, hsame, List.countP_cons, List.countP_cons]
      omega
    · have hne : r.taskId ≠ row.taskId := hfirst row hmem
      rw [List.map_cons, if_neg hne, List.countP_cons, List.countP_cons]
      have := ih hrest hmem
      omega

end Rewrites

/-- A conditional update of the table. -/
theorem updateTasks_eq_ok {store store' : SwarmStore} {select : TaskRow → Bool}
    {write : TaskRow → TaskRow} (h : store.updateTasks select write = .ok store') :
    store'.tasks.rows = store.tasks.rows.map (fun r => if select r then write r else r) ∧
      store' = { store with tasks := store'.tasks } := by
  unfold updateTasks at h
  obtain ⟨tasks, htasks, h⟩ := bind_eq_ok.mp h
  cases h
  exact ⟨Table.update?_eq_some (orRaise_eq_ok.mp htasks), rfl⟩

/-- An update that selects one row by its key and keeps the key rewrites that row. -/
theorem Rewrites.of_update {store store' : SwarmStore} {select : TaskRow → Bool}
    {write : TaskRow → TaskRow} {row : TaskRow} (h : store.updateTasks select write = .ok store')
    (hmem : row ∈ store.tasks.rows) (hselect : ∀ r ∈ store.tasks.rows, select r ↔ r.taskId = row.taskId)
    (hwrite : (write row).taskId = row.taskId) : Rewrites store store' row (write row) := by
  refine ⟨hmem, hwrite, ?_⟩
  rw [(updateTasks_eq_ok h).1]
  refine List.map_congr_left fun r hr => ?_
  by_cases hid : r.taskId = row.taskId
  · rw [if_pos hid, if_pos ((hselect r hr).mpr hid), store.task_unique hr hmem hid]
  · rw [if_neg hid, if_neg fun hsel => hid ((hselect r hr).mp hsel)]

/-- The row a guarded update selects, when its row count is one. -/
theorem of_rowcount {store : SwarmStore} {select : TaskRow → Bool} {taskId : String}
    (h : store.tasks.rowcount select = 1) (hkey : ∀ r, select r → r.taskId = taskId) :
    ∃ row ∈ store.tasks.rows, select row ∧ row.taskId = taskId ∧
      ∀ r ∈ store.tasks.rows, select r ↔ r.taskId = row.taskId := by
  have hpos : 0 < store.tasks.rows.countP select := by
    rw [Table.rowcount] at h
    omega
  obtain ⟨row, hmem, hsel⟩ := List.countP_pos_iff.mp hpos
  refine ⟨row, hmem, hsel, hkey row hsel, fun r hr => ⟨fun hr' => ?_, fun hid => ?_⟩⟩
  · rw [hkey r hr', hkey row hsel]
  · rw [store.task_unique hr hmem hid]
    exact hsel

/-- What an update guarded by statuses writes. -/
theorem guardedUpdate_eq_ok {taskId refusal : String} {statuses : List TaskStatus}
    {write : TaskRow → TaskRow} (hwrite : ∀ row, (write row).taskId = row.taskId)
    {store store' : SwarmStore} {task : TaskRecord}
    (h : guardedUpdate taskId statuses write refusal store = .ok (task, store')) :
    ∃ row, row.taskId = taskId ∧ row.status ∈ statuses ∧ task = (write row).toRecord ∧
      Rewrites store store' row (write row) ∧ store' = { store with tasks := store'.tasks } := by
  unfold guardedUpdate at h
  obtain ⟨written, hwritten, h⟩ := bind_eq_ok.mp h
  dsimp only at h
  split at h
  · cases h
  · rename_i hcount
    obtain ⟨updated, hupdated, h⟩ := bind_eq_ok.mp h
    cases h
    obtain ⟨row, hmem, hsel, hid, hunique⟩ := of_rowcount (not_not.mp hcount)
      fun r hr => (by simpa using (Bool.and_eq_true_iff.mp hr).1 : r.taskId = taskId)
    have hrewrites := Rewrites.of_update hwritten hmem hunique (hwrite row)
    rw [orRaise_eq_ok, hrewrites.task?_eq, if_pos hid.symm] at hupdated
    cases hupdated
    exact ⟨row, hid, by simpa using (Bool.and_eq_true_iff.mp hsel).2, rfl, hrewrites,
      (updateTasks_eq_ok hwritten).2⟩

/-- What `bind_job` writes. -/
theorem bindJob_eq_ok {taskId jobId executorStatus : String} {now : Time} {store store' : SwarmStore}
    {task : TaskRecord} (h : bindJob taskId jobId executorStatus now store = .ok (task, store')) :
    ∃ row, row.taskId = taskId ∧ (row.status = .submitting ∨ row.status = .submitted) ∧
      task = (row.bound jobId executorStatus now).toRecord ∧
      Rewrites store store' row (row.bound jobId executorStatus now) ∧
      store' = { store with tasks := store'.tasks } := by
  obtain ⟨row, hid, hstatus, hrest⟩ := guardedUpdate_eq_ok (fun _ => by rfl) h
  exact ⟨row, hid, by simpa using hstatus, hrest⟩

/-- What `reset_submission` writes. -/
theorem resetSubmission_eq_ok {taskId reason : String} {now : Time} {store store' : SwarmStore}
    {task : TaskRecord} (h : resetSubmission taskId reason now store = .ok (task, store')) :
    ∃ row, row.taskId = taskId ∧ row.status = .submitting ∧ task = (row.reset reason now).toRecord ∧
      Rewrites store store' row (row.reset reason now) ∧
      store' = { store with tasks := store'.tasks } := by
  obtain ⟨row, hid, hstatus, hrest⟩ := guardedUpdate_eq_ok (fun _ => by rfl) h
  exact ⟨row, hid, by simpa using hstatus, hrest⟩

/-- What an insertion into the event log writes. -/
theorem insertEvent_eq_ok {store store' : SwarmStore} {workflowId kind : String}
    {componentKey : Option String} {generation : Option ℕ} {payload : Mapping} {now : Time}
    (h : store.insertEvent workflowId kind componentKey generation payload now = .ok store') :
    (store.workflow? workflowId).isSome ∧
      store' = { store with
        events := store.events.append
          ⟨store.events.seq + 1, workflowId, kind, componentKey, generation, dumps payload, now⟩ rfl } := by
  unfold insertEvent at h
  split at h
  · cases h
  · rename_i hnone
    cases h
    exact ⟨by simpa [Option.isSome_iff_ne_none] using hnone, rfl⟩

/-- The event that reports a change of status of a task, if there is one to report. -/
def Reports (store store' : SwarmStore) (row row' : TaskRow) : Prop :=
  ((row'.status = row.status ∨ row.workflowId = none) ∧ store'.events = store.events) ∨
    (row'.status ≠ row.status ∧
      ∃ (event : EventRow) (hnumber : Numbered.number event = store.events.seq + 1),
        store'.events = store.events.append event hnumber ∧ row.workflowId = some event.workflowId ∧
          event.kind = row'.status.eventKind ∧ event.componentKey = row.componentKey ∧
            event.generation = row.generation)

/-- What a rewrite with its report writes; `fail_task` and `observe_job` have this shape. -/
structure Reported (store store' : SwarmStore) (row row' : TaskRow) : Prop where
  rewrites : Rewrites store store' row row'
  reports : Reports store store' row row'
  frame : store' = { store with tasks := store'.tasks, events := store'.events }

/-- A rewrite of a row selected by its key, followed by its event. -/
theorem Reported.of_steps {store mid store' : SwarmStore} {row : TaskRow} {write : TaskRow → TaskRow}
    {taskId : String} {payload : Mapping} {now : Time} (hrow : store.task? taskId = some row)
    (hwrite : (write row).taskId = row.taskId)
    (hupdate : store.updateTasks (·.taskId = taskId) write = .ok mid)
    (hevent : mid.reportStatus row.toRecord (write row).status payload now = .ok store') :
    Reported store store' row (write row) := by
  obtain ⟨hmem, hid⟩ := task?_eq_some.mp hrow
  have hrewrites : Rewrites store mid row (write row) :=
    Rewrites.of_update hupdate hmem (fun r _ => by simp [hid]) hwrite
  have hmid := (updateTasks_eq_ok hupdate).2
  have hevents : mid.events = store.events := by rw [hmid]
  unfold reportStatus at hevent
  split at hevent
  · rename_i hne
    unfold appendEvent at hevent
    split at hevent
    · rename_i hnone
      cases hevent
      exact ⟨hrewrites, Or.inl ⟨Or.inr hnone, hevents⟩, by rw [hmid]⟩
    · rename_i workflowId hsome
      obtain ⟨-, rfl⟩ := insertEvent_eq_ok hevent
      refine ⟨⟨hrewrites.mem, hrewrites.sameId, hrewrites.rows⟩, Or.inr ⟨hne, ?_⟩, by rw [hmid]⟩
      rw [← hevents]
      exact ⟨_, rfl, rfl, hsome, rfl, rfl, rfl⟩
  · rename_i heq
    cases hevent
    exact ⟨hrewrites, Or.inl ⟨Or.inl (not_not.mp heq), hevents⟩, by rw [hmid]⟩

/-- What `fail_task` writes. -/
theorem failTask_eq_ok {taskId reason : String} {now : Time} {store store' : SwarmStore}
    {task : TaskRecord} (h : failTask taskId reason now store = .ok (task, store')) :
    ∃ row, row.taskId = taskId ∧ Reported store store' row (row.refused reason now) := by
  unfold failTask at h
  obtain ⟨row, hrow, h⟩ := bind_eq_ok.mp h
  dsimp only at h
  obtain ⟨mid, hmid, h⟩ := bind_eq_ok.mp h
  obtain ⟨final, hfinal, h⟩ := bind_eq_ok.mp h
  obtain ⟨updated, -, h⟩ := bind_eq_ok.mp h
  cases h
  rw [orRaise_eq_ok] at hrow
  exact ⟨row, (task?_eq_some.mp hrow).2, Reported.of_steps hrow rfl hmid hfinal⟩

/-- What `observe_job` writes. -/
theorem observeJob_eq_ok {taskId : String} {job : ExecutorJob} {now : Time} {store store' : SwarmStore}
    {task : TaskRecord} (h : observeJob taskId job now store = .ok (task, store')) :
    ∃ row, row.taskId = taskId ∧ Reported store store' row (row.observed job now) := by
  unfold observeJob at h
  obtain ⟨row, hrow, h⟩ := bind_eq_ok.mp h
  dsimp only at h
  obtain ⟨-, -, h⟩ := bind_eq_ok.mp h
  obtain ⟨mid, hmid, h⟩ := bind_eq_ok.mp h
  obtain ⟨final, hfinal, h⟩ := bind_eq_ok.mp h
  obtain ⟨updated, -, h⟩ := bind_eq_ok.mp h
  cases h
  rw [orRaise_eq_ok] at hrow
  exact ⟨row, (task?_eq_some.mp hrow).2, Reported.of_steps hrow rfl hmid hfinal⟩

/-- The record that `observe_job` returns is the row it leaves. -/
theorem observeJob_returns {taskId : String} {job : ExecutorJob} {now : Time} {store store' : SwarmStore}
    {task : TaskRecord} (h : observeJob taskId job now store = .ok (task, store')) :
    ∃ row, store'.task? taskId = some row ∧ task = row.toRecord := by
  unfold observeJob at h
  obtain ⟨row, hrow, h⟩ := bind_eq_ok.mp h
  obtain ⟨-, -, h⟩ := bind_eq_ok.mp h
  obtain ⟨mid, -, h⟩ := bind_eq_ok.mp h
  obtain ⟨final, -, h⟩ := bind_eq_ok.mp h
  obtain ⟨updated, hupdated, h⟩ := bind_eq_ok.mp h
  cases h
  exact ⟨updated, orRaise_eq_ok.mp hupdated, rfl⟩

end SwarmStore

end TPUSwarm
