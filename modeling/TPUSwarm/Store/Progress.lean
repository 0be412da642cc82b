import TPUSwarm.Store.Origins

/-!
# Rows of the workflow table

A workflow row is inserted once and never deleted. Saving the state of a workflow and
finishing it are the only calls that write its row, and they leave alone what was submitted.
-/

namespace TPUSwarm

open Common

/-- The columns of a workflow row that only its insertion writes. -/
structure WorkflowOrigin where
  workflowId : String
  kind : String
  payloadJson : JsonText
  metadataJson : JsonText
  consistencyMode : ConsistencyMode
  createdAt : Time
deriving DecidableEq

/-- The origin of a row. -/
def WorkflowRow.origin (row : WorkflowRow) : WorkflowOrigin :=
  ⟨row.workflowId, row.kind, row.payloadJson, row.metadataJson, row.consistencyMode, row.createdAt⟩

/-- The row after its state was saved. -/
def WorkflowRow.saved (state : Mapping) (eventCursor : ℕ) (now : Time) (row : WorkflowRow) : WorkflowRow :=
  { row with stateJson := dumps state, eventCursor := eventCursor, updatedAt := now }

/-- The row after the workflow was finished. -/
def WorkflowRow.finished (status : WorkflowStatus) (result : Option Mapping) (error : Option String) (now : Time)
    (row : WorkflowRow) : WorkflowRow :=
  { row with status := status, resultJson := result.map dumps, lastError := error, updatedAt := now,
             completedAt := some now }

/-- The workflow whose row a call updates, and how. -/
def Call.update? : Call → Time → Option (String × (WorkflowRow → WorkflowRow))
  | .saveWorkflowState workflowId state cursor, now => some (workflowId, WorkflowRow.saved state cursor now)
  | .completeWorkflow workflowId result, now =>
    some (workflowId, WorkflowRow.finished .succeeded (some result) none now)
  | .failWorkflow workflowId reason, now => some (workflowId, WorkflowRow.finished .failed none (some reason) now)
  | _, _ => none

namespace SwarmStore

variable {store store' : SwarmStore} {now : Time}

/-- No workflow is found by an id that none has. -/
theorem workflow?_eq_none {workflowId : String} :
    store.workflow? workflowId = none ↔ ∀ row ∈ store.workflows.rows, row.workflowId ≠ workflowId := by
  rw [Option.eq_none_iff_forall_ne_some]
  simp only [ne_eq, workflow?_eq_some, not_and]

/-- An update of a workflow rewrites the row that its identifier selects, and returns it. -/
theorem updateWorkflow_selects {workflowId : String} {write : WorkflowRow → WorkflowRow} {workflow : WorkflowRecord}
    (hwrite : ∀ row, (write row).workflowId = row.workflowId)
    (h : updateWorkflow workflowId write store = .ok (workflow, store')) :
    (∃ row, store.workflow? workflowId = some row ∧ workflow = (write row).toRecord) ∧
      ∀ w, store'.workflow? w = (store.workflow? w).map fun row => if w = workflowId then write row else row := by
  obtain ⟨hrows, -, row, hrow, rfl⟩ := updateWorkflow_eq_ok h
  have hselect (w : String) : store'.workflow? w =
      (store.workflow? w).map fun row => if w = workflowId then write row else row := by
    refine Option.ext fun found => ?_
    rw [workflow?_eq_some, hrows, List.mem_map, Option.map_eq_some_iff]
    constructor
    · rintro ⟨⟨r, hr, rfl⟩, hid⟩
      by_cases hsame : r.workflowId = workflowId
      · rw [if_pos hsame, hwrite] at hid
        exact ⟨r, workflow?_eq_some.mpr ⟨hr, hid⟩, by rw [if_pos hsame, if_pos (hid.symm.trans hsame)]⟩
      · rw [if_neg hsame] at hid ⊢
        exact ⟨r, workflow?_eq_some.mpr ⟨hr, hid⟩, if_neg fun heq => hsame (hid.trans heq)⟩
    · rintro ⟨r, hr, rfl⟩
      obtain ⟨hmem, rfl⟩ := workflow?_eq_some.mp hr
      refine ⟨⟨r, hmem, rfl⟩, ?_⟩
      split
      · exact hwrite r
      · rfl
  refine ⟨?_, hselect⟩
  rw [hselect, Option.map_eq_some_iff] at hrow
  obtain ⟨old, hold, rfl⟩ := hrow
  exact ⟨old, hold, by rw [if_pos rfl]⟩

/-- An update of a workflow that is there returns its row rewritten. -/
theorem updateWorkflow_of_found {workflowId : String} {write : WorkflowRow → WorkflowRow} {row : WorkflowRow}
    (hwrite : ∀ row, (write row).workflowId = row.workflowId) (hrow : store.workflow? workflowId = some row) :
    ∃ store', updateWorkflow workflowId write store = .ok ((write row).toRecord, store') ∧
      store'.workflow? workflowId = some (write row) := by
  obtain ⟨workflows, hupdate⟩ := store.workflows.update?_isSome (fun r => decide (r.workflowId = workflowId)) write
    fun a b hclash => by
      have hid (r : WorkflowRow) : (if decide (r.workflowId = workflowId) = true then write r else r).workflowId =
          r.workflowId := by
        split
        · exact hwrite r
        · rfl
      exact (hid a).symm.trans (hclash.trans (hid b))
  obtain ⟨hmem, hid⟩ := workflow?_eq_some.mp hrow
  have hwritten : ({ store with workflows } : SwarmStore).workflow? workflowId = some (write row) := by
    refine workflow?_eq_some.mpr ⟨?_, (hwrite row).trans hid⟩
    rw [Table.update?_eq_some hupdate]
    exact List.mem_map.mpr ⟨row, hmem, if_pos (decide_eq_true hid)⟩
  refine ⟨{ store with workflows }, ?_, hwritten⟩
  rw [updateWorkflow, hupdate]
  exact bind_eq_ok.mpr ⟨workflows, rfl, bind_eq_ok.mpr ⟨write row, by rw [hwritten]; rfl, rfl⟩⟩

end SwarmStore

namespace Call

open SwarmStore

variable {call : Call} {now : Time} {store store' : SwarmStore} {result : call.Result}

/-- An update finds the row it rewrites, and rewrites no other. -/
theorem update_selects {workflowId : String} {write : WorkflowRow → WorkflowRow}
    (hupdate : call.update? now = some (workflowId, write)) (h : call.run now store = .ok (result, store')) :
    (∃ row, store.workflow? workflowId = some row) ∧
      ∀ w, store'.workflow? w = (store.workflow? w).map fun row => if w = workflowId then write row else row := by
  cases call with
  | saveWorkflowState _ _ _ | completeWorkflow _ _ | failWorkflow _ _ =>
    obtain ⟨rfl, rfl⟩ := Prod.mk.inj (Option.some.inj hupdate)
    obtain ⟨⟨row, hrow, -⟩, hselect⟩ := updateWorkflow_selects (fun _ => by rfl) h
    exact ⟨⟨row, hrow⟩, hselect⟩
  | _ => cases hupdate

/-- A call that updates no workflow keeps every row. -/
theorem workflow_unchanged (hupdate : call.update? now = none) (h : call.run now store = .ok (result, store'))
    {workflowId : String} {row : WorkflowRow} (hrow : store.workflow? workflowId = some row) :
    store'.workflow? workflowId = some row := by
  by_cases hworkflows : StoreTable.workflows ∈ call.tables
  · cases call with
    | submitWorkflow spec components initialState =>
      obtain ⟨-, -, hrows, -⟩ := submitWorkflow_eq_ok h
      obtain ⟨hmem, hid⟩ := workflow?_eq_some.mp hrow
      exact workflow?_eq_some.mpr ⟨hrows ▸ List.mem_append_left _ hmem, hid⟩
    | saveWorkflowState _ _ _ | completeWorkflow _ _ | failWorkflow _ _ => cases hupdate
    | _ => simp [Call.tables] at hworkflows
  · have hsame : store'.workflows = store.workflows := Call.frame h hworkflows
    rw [workflow?, hsame]
    exact hrow

/-- The row of a workflow after a call: rewritten if the call is an update of this workflow, and as it
was otherwise. -/
theorem workflow_after (h : call.run now store = .ok (result, store')) {workflowId : String} {row : WorkflowRow}
    (hrow : store.workflow? workflowId = some row) : store'.workflow? workflowId = some row ∨
      ∃ write, call.update? now = some (workflowId, write) ∧ store'.workflow? workflowId = some (write row) := by
  cases hupdate : call.update? now with
  | none => exact Or.inl (workflow_unchanged hupdate h hrow)
  | some update =>
    obtain ⟨updated, write⟩ := update
    have hselect := (update_selects hupdate h).2 workflowId
    rw [hrow, Option.map_some] at hselect
    by_cases hsame : workflowId = updated
    · rw [if_pos hsame] at hselect
      exact Or.inr ⟨write, by rw [hsame], hselect⟩
    · rw [if_neg hsame] at hselect
      exact Or.inl hselect

/-- An update leaves the origin of its row alone. -/
theorem update_origin {workflowId : String} {write : WorkflowRow → WorkflowRow}
    (hupdate : call.update? now = some (workflowId, write)) (row : WorkflowRow) :
    (write row).origin = row.origin := by
  cases call with
  | saveWorkflowState _ _ _ | completeWorkflow _ _ | failWorkflow _ _ =>
    obtain ⟨-, rfl⟩ := Prod.mk.inj (Option.some.inj hupdate)
    rfl
  | _ => cases hupdate

/-- An update of a workflow that is there returns. -/
theorem update_returns {workflowId : String} {write : WorkflowRow → WorkflowRow} {row : WorkflowRow}
    (hupdate : call.update? now = some (workflowId, write)) (hrow : store.workflow? workflowId = some row) :
    ∃ result written, call.run now store = .ok (result, written) := by
  have hwrite (row : WorkflowRow) : (write row).workflowId = row.workflowId :=
    congrArg WorkflowOrigin.workflowId (update_origin hupdate row)
  obtain ⟨written, hrun, -⟩ := updateWorkflow_of_found hwrite hrow
  cases call with
  | saveWorkflowState _ _ _ | completeWorkflow _ _ | failWorkflow _ _ =>
    obtain ⟨rfl, rfl⟩ := Prod.mk.inj (Option.some.inj hupdate)
    exact ⟨_, written, hrun⟩
  | _ => cases hupdate

/-- An update writes the table of workflows only. -/
theorem update_frame {workflowId : String} {write : WorkflowRow → WorkflowRow}
    (hupdate : call.update? now = some (workflowId, write)) (h : call.run now store = .ok (result, store')) :
    store' = { store with workflows := store'.workflows } := by
  cases call with
  | saveWorkflowState _ _ _ | completeWorkflow _ _ | failWorkflow _ _ => exact (updateWorkflow_eq_ok h).2.1
  | _ => cases hupdate

/-- Every call keeps the row of a workflow, and its origin. -/
theorem workflow_kept (h : call.run now store = .ok (result, store')) {workflowId : String} {row : WorkflowRow}
    (hrow : store.workflow? workflowId = some row) :
    ∃ row', store'.workflow? workflowId = some row' ∧ row'.origin = row.origin := by
  rcases workflow_after h hrow with hsame | ⟨write, hupdate, hrow'⟩
  · exact ⟨row, hsame, rfl⟩
  · exact ⟨write row, hrow', update_origin hupdate row⟩

end Call

end TPUSwarm
