import TPUSwarm.Session.Alone
import TPUSwarm.Store.Progress

/-!
# The conclusion of a reconciliation

After the loop the state is saved, the components are read again, and the handler decides
whether the workflow is finished. With nobody else around, this depends on the components
alone, and it writes the row of the workflow alone.
-/

namespace TPUSwarm

open Common SwarmStore

/-- How a handler finishes a workflow, if it does: the status, the result and the reason. -/
def MultiAutoResumable.verdict (handler : MultiAutoResumable) (workflow : WorkflowRecord) (state : Mapping)
    (components : Dict String TaskRecord) :
    Except PyError (Option (WorkflowStatus × Option Mapping × Option String)) := do
  match ← handler.completionResult workflow state components with
  | some result => return some (.succeeded, some result, none)
  | none =>
    match ← handler.failureReason workflow state components with
    | some reason => return some (.failed, none, some reason)
    | none => return none

/-- Without a result, a handler finishes a workflow if it has a reason for its failure. -/
theorem MultiAutoResumable.verdict_of_none {handler : MultiAutoResumable} {workflow : WorkflowRecord}
    {state : Mapping}
    {components : Dict String TaskRecord} (h : handler.completionResult workflow state components = .ok none) :
    handler.verdict workflow state components = (handler.failureReason workflow state components).map fun reason =>
      reason.map fun reason => (.failed, none, some reason) := by
  rw [verdict, h]
  cases handler.failureReason workflow state components with
  | error e => rfl
  | ok reason => cases reason <;> rfl

variable {store mid store' : SwarmStore} {workflowId : String} {row : WorkflowRow}
  {trace : List (Sigma Operation.Reply)}

/-- The components depend on the tables of tasks and links only. -/
theorem getWorkflowComponents_congr (htasks : store'.tasks = store.tasks)
    (hcomponents : store'.components = store.components)
    (workflowId : String) : store'.getWorkflowComponents workflowId = store.getWorkflowComponents workflowId := by
  unfold getWorkflowComponents joinComponents task?
  rw [htasks, hcomponents]

/-- What an update of a workflow row writes. -/
structure Updates (store store' : SwarmStore) (workflowId : String) (row : WorkflowRow) : Prop where
  tasks : store'.tasks = store.tasks
  components : store'.components = store.components
  events : store'.events = store.events
  row : store'.workflow? workflowId = some row

/-- A call of a session that updates a workflow whose row others keep. -/
theorem session_writes {allowed : Discretion} {call : Call} {outcome : Except PyError call.Result}
    {write : Time → WorkflowRow → WorkflowRow} (hupdate : ∀ now, call.update? now = some (workflowId, write now))
    (hkept : ∀ before, History allowed store before → before.workflow? workflowId = some row)
    (h : Session allowed (callStore call none) store trace outcome store') :
    ∃ before clock, History allowed store before ∧ Updates before store' workflowId (write clock row) ∧
      ∃ result, outcome = .ok result ∧ call.run clock before = .ok (result, store') := by
  obtain ⟨-, before, clock, hothers, hperform⟩ := session_callStore.mp h
  have hbefore := hkept before hothers
  obtain ⟨result, written, hrun⟩ := Call.update_returns (hupdate clock) hbefore
  rw [Option.getD_none, Call.perform, hrun] at hperform
  obtain ⟨rfl, rfl⟩ := Prod.mk.inj hperform
  have hselect := (Call.update_selects (hupdate clock) hrun).2 workflowId
  rw [hbefore, Option.map_some, if_pos rfl] at hselect
  have hframe := Call.update_frame (hupdate clock) hrun
  exact ⟨before, clock, hothers, ⟨by rw [hframe], by rw [hframe], by rw [hframe], hselect⟩, result, rfl, hrun⟩

/-- A call that updates a workflow, with nobody else around. -/
theorem session_update {call : Call} {outcome : Except PyError call.Result}
    {write : Time → WorkflowRow → WorkflowRow}
    (hupdate : ∀ now, call.update? now = some (workflowId, write now))
    (hrow : store.workflow? workflowId = some row)
    (h : Session noCall (callStore call none) store trace outcome store') :
    ∃ clock, Updates store store' workflowId (write clock row) ∧
      ∃ result, outcome = .ok result ∧ call.run clock store = .ok (result, store') := by
  obtain ⟨before, clock, hothers, hwrites⟩ := session_writes hupdate
    (fun before hothers => (History.of_noCall hothers).symm ▸ hrow) h
  obtain rfl := History.of_noCall hothers
  exact ⟨clock, hwrites⟩

/-- What an update writes, after another one. -/
theorem Updates.trans {row' : WorkflowRow} (h : Updates store mid workflowId row)
    (h' : Updates mid store' workflowId row') :
    Updates store store' workflowId row' :=
  ⟨h'.tasks.trans h.tasks, h'.components.trans h.components, h'.events.trans h.events, h'.row⟩

/-- The conclusion of a workflow with this row: it raised, left the workflow open, or finished it. -/
inductive Concludes (handler : MultiAutoResumable) (workflowId : String) (state : Mapping) (cursor : ℕ)
    (row : WorkflowRow) (store : SwarmStore) : Except PyError WorkflowRecord → SwarmStore → Prop
  | raised {clock : Time} {e : PyError} {store' : SwarmStore}
      (hwrites : Updates store store' workflowId (row.saved state cursor clock))
      (hverdict : handler.verdict (row.saved state cursor clock).toRecord state
        (store.getWorkflowComponents workflowId) = .error e) :
      Concludes handler workflowId state cursor row store (.error e) store'
  | remains {clock : Time} {store' : SwarmStore}
      (hwrites : Updates store store' workflowId (row.saved state cursor clock))
      (hverdict : handler.verdict (row.saved state cursor clock).toRecord state
        (store.getWorkflowComponents workflowId) = .ok none) :
      Concludes handler workflowId state cursor row store (.ok (row.saved state cursor clock).toRecord) store'
  | finished {clock later : Time} {status : WorkflowStatus} {result : Option Mapping} {reason : Option String}
      {store' : SwarmStore}
      (hwrites : Updates store store' workflowId
        ((row.saved state cursor clock).finished status result reason later))
      (hverdict : handler.verdict (row.saved state cursor clock).toRecord state
        (store.getWorkflowComponents workflowId) = .ok (some (status, result, reason))) :
      Concludes handler workflowId state cursor row store
        (.ok ((row.saved state cursor clock).finished status result reason later).toRecord) store'

/-- A session of an update returns the row it writes. -/
theorem updateWorkflow_record (write : WorkflowRow → WorkflowRow) {workflow : WorkflowRecord}
    (hwrite : ∀ row, (write row).workflowId = row.workflowId) (hrow : store.workflow? workflowId = some row)
    (h : updateWorkflow workflowId write store = .ok (workflow, store')) : workflow = (write row).toRecord := by
  obtain ⟨⟨found, hfound, rfl⟩, -⟩ := updateWorkflow_selects hwrite h
  obtain rfl := Option.some.inj (hfound.symm.trans hrow)
  rfl

/-- The conclusion with nobody else around. -/
theorem session_conclude {handler : MultiAutoResumable} {state : Mapping} {cursor : ℕ}
    {outcome : Except PyError WorkflowRecord} (hrow : store.workflow? workflowId = some row)
    (h : Session noCall (handler.conclude workflowId state cursor) store trace outcome store') :
    Concludes handler workflowId state cursor row store outcome store' := by
  unfold MultiAutoResumable.conclude at h
  rcases Action.runs_bind.mp h with ⟨e, rfl, hsave⟩ | ⟨first, saved, mid, rest, rfl, hsave, h⟩
  · obtain ⟨clock, -, result, houtcome, -⟩ := session_update (fun _ => rfl) hrow hsave
    cases houtcome
  obtain ⟨clock, hwrites, result, houtcome, hrun⟩ := session_update (fun _ => rfl) hrow hsave
  cases houtcome
  obtain rfl : saved = (row.saved state cursor clock).toRecord := updateWorkflow_record _ (fun _ => rfl) hrow hrun
  -- the components are read from the tables that the save left alone
  rcases Action.runs_bind.mp h with ⟨e, rfl, hread⟩ | ⟨second, components, mid', rest', rfl, hread, hjudged⟩
  · obtain ⟨-, before, clock', hothers, hperform⟩ := session_callStore.mp hread
    cases hperform
  obtain ⟨-, before, clock', hothers, hreturned⟩ := session_callStore_ok.mp hread
  obtain rfl := History.of_noCall hothers
  have hreading :
      Call.reading (fun s => .ok (s.getWorkflowComponents workflowId)) before = .ok (components, mid') :=
    hreturned
  obtain ⟨hcomponents, rfl⟩ := Call.reading_eq_ok.mp hreading
  obtain rfl := Except.ok.inj hcomponents
  rw [getWorkflowComponents_congr hwrites.tasks hwrites.components] at hjudged
  cases hresult : handler.completionResult (row.saved state cursor clock).toRecord state
      (store.getWorkflowComponents workflowId) with
  | error e =>
    rw [hresult] at hjudged
    obtain ⟨-, rfl, rfl⟩ := Prog.runs_pure.mp hjudged
    exact .raised hwrites (by rw [MultiAutoResumable.verdict, hresult]; rfl)
  | ok completed =>
    rw [hresult, Action.ofExcept_bind] at hjudged
    cases completed with
    | some result =>
      obtain ⟨later, hfinishes, _, rfl, hfinish⟩ := session_update (fun _ => rfl) hwrites.row hjudged
      rw [updateWorkflow_record (WorkflowRow.finished _ _ _ later) (fun _ => rfl) hwrites.row hfinish]
      exact .finished (hwrites.trans hfinishes) (by rw [MultiAutoResumable.verdict, hresult]; rfl)
    | none =>
      dsimp only at hjudged
      cases hreason : handler.failureReason (row.saved state cursor clock).toRecord state
          (store.getWorkflowComponents workflowId) with
      | error e =>
        rw [hreason] at hjudged
        obtain ⟨-, rfl, rfl⟩ := Prog.runs_pure.mp hjudged
        exact .raised hwrites (by rw [MultiAutoResumable.verdict_of_none hresult, hreason]; rfl)
      | ok failed =>
        have hverdict : handler.verdict (row.saved state cursor clock).toRecord state
            (store.getWorkflowComponents workflowId) =
              .ok (failed.map fun reason => (.failed, none, some reason)) := by
          rw [MultiAutoResumable.verdict_of_none hresult, hreason]
          rfl
        rw [hreason, Action.ofExcept_bind] at hjudged
        cases failed with
        | some reason =>
          obtain ⟨later, hfinishes, _, rfl, hfinish⟩ := session_update (fun _ => rfl) hwrites.row hjudged
          rw [updateWorkflow_record (WorkflowRow.finished _ _ _ later) (fun _ => rfl) hwrites.row hfinish]
          exact .finished (hwrites.trans hfinishes) hverdict
        | none =>
          obtain ⟨-, rfl, rfl⟩ := Action.runs_pure.mp hjudged
          exact .remains hwrites hverdict

end TPUSwarm
