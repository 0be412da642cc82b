import TPUSwarm.Common.Pool
import TPUSwarm.Handlers
import TPUSwarm.Store.Frames

/-!
# Many reconciliations of workflows over one store

Any number of `reconcile` calls run transaction by transaction among all other calls of the
store, and each may be abandoned anywhere. The records keep, next to the store, the initial
state that every workflow was submitted with.
-/

namespace TPUSwarm

open Common Relation SwarmStore

/-- What replaying a workflow has reached: the columns that `save_workflow_state` writes, and the
key and kind of the workflow. -/
structure WorkflowProgress where
  workflowId : String
  kind : String
  stateJson : JsonText
  eventCursor : ℕ

/-- The progress that a row of `workflows` holds. -/
def WorkflowRow.progress (row : WorkflowRow) : WorkflowProgress :=
  ⟨row.workflowId, row.kind, row.stateJson, row.eventCursor⟩

/-- The submission of a workflow: its key and the initial state given. -/
structure Submission where
  workflowId : String
  initialState : Mapping

/-- The submission that a successful call makes. -/
def Call.submission? : Call → Option Submission
  | .submitWorkflow spec _ initialState => some ⟨spec.workflowId, initialState⟩
  | _ => none

/-- The call saves the progress of a workflow. -/
def Call.isSave : Call → Bool
  | .saveWorkflowState _ _ _ => true
  | _ => false

/-- The store, and the submissions made so far. -/
structure Records where
  store : SwarmStore
  submitted : List Submission

namespace Records

/-- The progress of all workflows. -/
def progresses (records : Records) : List WorkflowProgress :=
  records.store.workflows.rows.map WorkflowRow.progress

/-- A workflow has one progress. -/
theorem progress_unique (records : Records) {p q : WorkflowProgress} (hp : p ∈ records.progresses)
    (hq : q ∈ records.progresses) (h : p.workflowId = q.workflowId) : p = q := by
  obtain ⟨a, ha, rfl⟩ := List.mem_map.mp hp
  obtain ⟨b, hb, rfl⟩ := List.mem_map.mp hq
  rw [records.store.workflows.eq_of_clash ha hb h]

/-- A call that returned. -/
structure Returns (call : Call) (now : Time) (result : call.Result) (records records' : Records) : Prop where
  run : call.run now records.store = .ok (result, records'.store)
  submitted : records'.submitted = records.submitted ++ call.submission?.toList

/-- The outcome of a call, and the records after it. -/
inductive Performs (call : Call) (now : Time) (records : Records) : Except PyError call.Result → Records → Prop
  | returns {result records'} (h : Returns call now result records records') :
      Performs call now records (.ok result) records'
  | raises {e} (h : call.run now records.store = .error e) : Performs call now records (.error e) records

/-- The records before anything happened. -/
def initial : Records := ⟨.empty, []⟩

end Records

/-- What a call does to the progress of the workflows. -/
inductive Progresses (call : Call) (records records' : Records) : Prop
  | kept (hsave : call.isSave = false) (hsubmitted : records'.submitted = records.submitted)
      (h : records'.progresses = records.progresses)
  | submitted {submission kind} (hsave : call.isSave = false)
      (hsubmitted : records'.submitted = records.submitted ++ [submission])
      (hfresh : ∀ p ∈ records.progresses, p.workflowId ≠ submission.workflowId)
      (h : records'.progresses = records.progresses ++
        [⟨submission.workflowId, kind, dumps submission.initialState, 0⟩])
  | saved {workflowId state cursor} (hcall : call = .saveWorkflowState workflowId state cursor)
      (hsubmitted : records'.submitted = records.submitted)
      (h : records'.progresses = records.progresses.map fun p =>
        if p.workflowId = workflowId then ⟨p.workflowId, p.kind, dumps state, cursor⟩ else p)

namespace Records.Returns

variable {call : Call} {now : Time} {result : call.Result} {records records' : Records}

/-- An update of one workflow row that leaves its progress alone. -/
theorem updateWorkflow_progresses {workflowId : String} {write : WorkflowRow → WorkflowRow}
    {workflow : WorkflowRecord} (hwrite : ∀ row, (write row).progress = row.progress)
    (h : updateWorkflow workflowId write records.store = .ok (workflow, records'.store)) :
    records'.progresses = records.progresses := by
  unfold Records.progresses
  rw [(updateWorkflow_eq_ok h).1, List.map_map]
  refine List.map_congr_left fun row _ => ?_
  rw [Function.comp_apply]
  split
  · exact hwrite row
  · rfl

/-- What a call that returned did to the progress of the workflows. -/
theorem progresses (h : Returns call now result records records') : Progresses call records records' := by
  obtain ⟨hrun, hsubmitted⟩ := h
  by_cases hworkflows : StoreTable.workflows ∈ call.tables
  · cases call with
    | submitWorkflow spec components initialState =>
      obtain ⟨-, hfresh, hrows, -⟩ := submitWorkflow_eq_ok hrun
      refine .submitted rfl hsubmitted (fun p hp => ?_) (by rw [Records.progresses, hrows, List.map_append]; rfl)
      obtain ⟨row, hrow, rfl⟩ := List.mem_map.mp hp
      exact hfresh row hrow
    | saveWorkflowState workflowId state cursor =>
      refine .saved rfl (hsubmitted.trans (List.append_nil _)) ?_
      unfold Records.progresses
      rw [(updateWorkflow_eq_ok hrun).1, List.map_map, List.map_map]
      refine List.map_congr_left fun row _ => ?_
      rw [Function.comp_apply, Function.comp_apply]
      by_cases hid : row.workflowId = workflowId
      · rw [if_pos hid, if_pos (show row.progress.workflowId = workflowId from hid)]
        rfl
      · rw [if_neg hid, if_neg (show ¬ row.progress.workflowId = workflowId from hid)]
    | completeWorkflow workflowId result =>
      refine .kept rfl (hsubmitted.trans (List.append_nil _)) (updateWorkflow_progresses ?_ hrun)
      exact fun _ => rfl
    | failWorkflow workflowId reason =>
      refine .kept rfl (hsubmitted.trans (List.append_nil _)) (updateWorkflow_progresses ?_ hrun)
      exact fun _ => rfl
    | _ => simp [Call.tables] at hworkflows
  · have hsame : records'.store.workflows = records.store.workflows := Call.frame hrun hworkflows
    refine .kept ?_ ?_ (by rw [Records.progresses, hsame]; rfl)
    · cases call <;> first | rfl | simp [Call.tables] at hworkflows
    · rw [hsubmitted]
      cases call <;> first | exact List.append_nil _ | simp [Call.tables] at hworkflows

end Records.Returns

/-- The effect of one operation of a reconciliation, which only calls the store. -/
inductive Reconciles : (op : Operation) → Records → op.Reply → Records → Prop
  | store {call now clock records outcome records'}
      (h : Records.Performs call (now.getD clock) records outcome records') :
      Reconciles (.store call now) records outcome records'

/-- Reconciliations indexed by `ι`, with the handlers of one registry. Beside them, any call that
does not save the progress of a workflow may happen at any time. -/
def reconciliations (ι : Type) (registry : TaskRegistry) :
    Pool ι Records (Except PyError WorkflowRecord) Operation Operation.Reply where
  exec _ := Reconciles
  begins _ _ records program records' :=
    records' = records ∧ ∃ workflowId, program = (WorkflowEngine.reconcile ⟨registry⟩ workflowId).run
  crash _ records _ records' := records' = records
  env records records' := ∃ (call : Call) (now : Time) (outcome : Except PyError call.Result),
    call.isSave = false ∧ Records.Performs call now records outcome records'

/-- Nothing happened yet, and no reconciliation is under way. -/
def reconciliationsInitial (ι : Type) (registry : TaskRegistry) : (reconciliations ι registry).State :=
  ⟨Records.initial, fun _ => .pure (.error ⟨.runtime, ""⟩)⟩

end TPUSwarm
