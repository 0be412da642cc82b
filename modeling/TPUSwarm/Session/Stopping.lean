import TPUSwarm.Session.Concluding
import TPUSwarm.Session.Replacing

/-!
# A reconciliation that is cut off

A reconciliation may end after any of its calls. It has then replaced some of the desired
components, or all of them and saved the state, or it has finished the workflow as well. A
reconciliation that returns has gone through all components and its conclusion.
-/

namespace TPUSwarm

open Common SwarmStore

variable {engine : WorkflowEngine} {store store' left : SwarmStore} {workflowId : String} {row : WorkflowRow}
  {current : Dict String TaskRecord} {components : List ComponentSpec} {trace : List (Sigma Operation.Reply)}

/-- A call that is cut off was not made, or it was made and answered. -/
theorem stops_callStore {allowed : Discretion} {call : Call}
    (h : (callStore call none).Stops (Answers allowed) store trace left) :
    left = store ∨ ∃ outcome, Session allowed (callStore call none) store trace outcome left := by
  cases h with
  | here => exact Or.inl rfl
  | @op _ _ _ mid _ reply _ hexec hrest =>
    cases hrest
    exact Or.inr ⟨reply, .op hexec .pure⟩

/-- A computation in front of a program that is cut off has returned, unless nothing was called. -/
theorem stops_ofExcept {allowed : Discretion} {α β : Type} {r : Except PyError α} {f : α → Effect β}
    (h : (Action.ofExcept r >>= f).Stops (Answers allowed) store trace left) :
    left = store ∨ ∃ a, r = .ok a ∧ (f a).Stops (Answers allowed) store trace left := by
  cases r with
  | error e =>
    cases h
    exact Or.inl rfl
  | ok a => exact Or.inr ⟨a, rfl, h⟩

/-- The loop is cut off after some of the components. -/
theorem stops_replaceComponents
    (h : (engine.replaceComponents workflowId current components).Stops (Answers noCall) store trace left) :
    ∃ before after, components = before ++ after ∧ Replaces engine workflowId current before store left := by
  induction components generalizing store trace with
  | nil =>
    cases h
    exact ⟨[], [], rfl, .nil⟩
  | cons component rest ih =>
    cases hvalid : engine.validatedComponent component with
    | error e =>
      rw [WorkflowEngine.replaceComponents, hvalid] at h
      cases h
      exact ⟨[], _, rfl, .nil⟩
    | ok desired =>
      rw [replaceComponents_cons hvalid] at h
      split at h
      · rename_i houtdated
        rcases Action.stops_bind h with hcall | ⟨first, task, mid, second, rfl, hcall, hrest⟩
        · rcases stops_callStore hcall with rfl | ⟨outcome, hcall⟩
          · exact ⟨[], _, rfl, .nil⟩
          · obtain ⟨clock, hperform⟩ := session_replaceComponent hcall
            rcases Call.perform_cases hperform with ⟨_, -, rfl⟩ | ⟨task, -, hrun⟩
            · exact ⟨[], _, rfl, .nil⟩
            · exact ⟨[component], rest, rfl, .replaced hvalid houtdated hrun .nil⟩
        · obtain ⟨-, before, clock, hothers, hrun⟩ := session_callStore_ok.mp hcall
          obtain rfl := History.of_noCall hothers
          obtain ⟨done, after, rfl, hreplaces⟩ := ih hrest
          exact ⟨component :: done, after, rfl, .replaced hvalid houtdated hrun hreplaces⟩
      · rename_i hcurrent
        obtain ⟨done, after, rfl, hreplaces⟩ := ih h
        exact ⟨component :: done, after, rfl, .skipped hvalid (Bool.eq_false_iff.mpr hcurrent) hreplaces⟩

/-- The loop on its own that returns has gone through all components. -/
theorem session_replaceComponents_ok
    (h : Session noCall (engine.replaceComponents workflowId current components) store trace (.ok ()) store') :
    Replaces engine workflowId current components store store' := by
  obtain ⟨before, after, rfl, hreplaces, ⟨-, rfl⟩ | ⟨_, _, _, herror, -⟩⟩ := session_replaceComponents h
  · rw [List.append_nil]
    exact hreplaces
  · cases herror

/-- A handler finishes a workflow with a status that is not active. -/
theorem MultiAutoResumable.verdict_status {handler : MultiAutoResumable} {workflow : WorkflowRecord}
    {state : Mapping}
    {tasks : Dict String TaskRecord} {status : WorkflowStatus} {result : Option Mapping} {reason : Option String}
    (h : handler.verdict workflow state tasks = .ok (some (status, result, reason))) : status ≠ .active := by
  obtain ⟨completed, hcompleted, h⟩ := bind_eq_ok.mp h
  cases completed with
  | some value =>
    cases h
    decide
  | none =>
    obtain ⟨failed, hfailed, h⟩ := bind_eq_ok.mp h
    cases failed with
    | some value =>
      cases h
      decide
    | none => cases h

/-- A conclusion is cut off before its save, after it, or at its end. -/
theorem stops_conclude {handler : MultiAutoResumable} {state : Mapping} {cursor : ℕ}
    (hrow : store.workflow? workflowId = some row)
    (h : (handler.conclude workflowId state cursor).Stops (Answers noCall) store trace left) :
    left = store ∨ (∃ clock, Updates store left workflowId (row.saved state cursor clock)) ∨
      ∃ outcome, Concludes handler workflowId state cursor row store outcome left := by
  -- what is left of a conclusion that made all of its calls is a session
  have hended {trace outcome} (hrun : Session noCall
    (handler.conclude workflowId state cursor) store trace outcome left) :
      left = store ∨ (∃ clock, Updates store left workflowId (row.saved state cursor clock)) ∨
        ∃ outcome, Concludes handler workflowId state cursor row store outcome left :=
    Or.inr (Or.inr ⟨outcome, session_conclude hrow hrun⟩)
  unfold MultiAutoResumable.conclude at h hended
  rcases Action.stops_bind h with hsave | ⟨first, saved, mid, rest, rfl, hsave, h⟩
  · rcases stops_callStore hsave with rfl | ⟨outcome, hsave⟩
    · exact Or.inl rfl
    · obtain ⟨clock, hwrites, -⟩ := session_update (fun _ => rfl) hrow hsave
      exact Or.inr (Or.inl ⟨clock, hwrites⟩)
  obtain ⟨clock, hwrites, -⟩ := session_update (fun _ => rfl) hrow hsave
  have hsaved :
      left = mid → left = store ∨ (∃ clock, Updates store left workflowId (row.saved state cursor clock)) ∨
      ∃ outcome, Concludes handler workflowId state cursor row store outcome left := by
    rintro rfl
    exact Or.inr (Or.inl ⟨clock, hwrites⟩)
  rcases Action.stops_bind h with hread | ⟨second, tasks, mid', rest', rfl, hread, hjudged⟩
  · rcases stops_callStore hread with hsame | ⟨outcome, hread⟩
    · exact hsaved hsame
    · obtain ⟨-, before, clock', hothers, hperform⟩ := session_callStore.mp hread
      obtain rfl := History.of_noCall hothers
      exact hsaved (Prod.mk.inj hperform).2.symm
  have hsame : mid' = mid := by
    obtain ⟨-, before, clock', hothers, hreturned⟩ := session_callStore_ok.mp hread
    obtain rfl := History.of_noCall hothers
    have hreading : Call.reading (fun s => .ok (s.getWorkflowComponents workflowId)) before = .ok (tasks, mid') :=
      hreturned
    exact (Call.reading_eq_ok.mp hreading).2
  subst hsame
  have hdone {last outcome} (hrun : Session noCall _ mid' last outcome left) :=
    hended (Action.runs_bind.mpr (Or.inr ⟨_, _, _, _, rfl, hsave,
      Action.runs_bind.mpr (Or.inr ⟨_, _, _, _, rfl, hread, hrun⟩)⟩))
  rcases stops_ofExcept hjudged with hsame | ⟨completed, hcompleted, hjudged⟩
  · exact hsaved hsame
  rw [hcompleted, Action.ofExcept_bind] at hdone
  cases completed with
  | some result =>
    rcases stops_callStore hjudged with hsame | ⟨outcome, hfinish⟩
    · exact hsaved hsame
    · exact hdone hfinish
  | none =>
    rcases stops_ofExcept hjudged with hsame | ⟨failed, hfailed, hjudged⟩
    · exact hsaved hsame
    dsimp only at hdone
    rw [hfailed, Action.ofExcept_bind] at hdone
    cases failed with
    | some reason =>
      rcases stops_callStore hjudged with hsame | ⟨outcome, hfinish⟩
      · exact hsaved hsame
      · exact hdone hfinish
    | none =>
      cases hjudged
      exact hsaved rfl

/-- Where a reconciliation may be cut off: among its replacements, or in its conclusion. -/
inductive Interrupted (plan : Plan engine store workflowId) : SwarmStore → Prop
  | replacing {before after : List ComponentSpec} {left : SwarmStore} (hdesired : plan.desired = before ++ after)
      (hreplaces : Replaces engine workflowId (store.getWorkflowComponents workflowId) before store left) :
      Interrupted plan left
  | saved {done left : SwarmStore} {clock : Time}
      (hreplaces : Replaces engine workflowId (store.getWorkflowComponents workflowId) plan.desired store done)
      (hwrites : Updates done left workflowId (plan.row.saved plan.state plan.cursor clock)) : Interrupted plan left
  | finished {done left : SwarmStore} {record : WorkflowRecord}
      (hreplaces : Replaces engine workflowId (store.getWorkflowComponents workflowId) plan.desired store done)
      (hconcludes : Concludes plan.handler workflowId plan.state plan.cursor plan.row done (.ok record) left)
      (hinactive : record.status ≠ .active)
      (hleft : ∃ row, left.workflow? workflowId = some row ∧ record = row.toRecord) :
      Interrupted plan left

namespace Plan

/-- The loop leaves the row of the plan alone. -/
theorem found_after (plan : Plan engine store workflowId) {done : SwarmStore}
    (hreplaces : Replaces engine workflowId current components store done) :
    done.workflow? workflowId = some plan.row := by
  rw [workflow?, hreplaces.workflows]
  exact plan.found

/-- A reconciliation that is cut off. -/
theorem interrupted (plan : Plan engine store workflowId)
    (h : (engine.reconcile workflowId).Stops (Answers noCall) store trace left) : Interrupted plan left := by
  rcases plan.readsTo.stops h with rfl | ⟨rest, hremaining⟩
  · exact .replacing (List.nil_append _).symm .nil
  rcases Action.stops_bind hremaining with hloop | ⟨first, _, done, second, rfl, hloop, hconclude⟩
  · obtain ⟨before, after, hdesired, hreplaces⟩ := stops_replaceComponents hloop
    exact .replacing hdesired hreplaces
  have hreplaces := session_replaceComponents_ok hloop
  rcases stops_conclude (plan.found_after hreplaces) hconclude with rfl | ⟨clock, hwrites⟩ | ⟨outcome, hconcludes⟩
  · exact .replacing (List.append_nil _).symm hreplaces
  · exact .saved hreplaces hwrites
  · cases hconcludes with
    | raised hwrites _ => exact .saved hreplaces hwrites
    | remains hwrites _ => exact .saved hreplaces hwrites
    | finished hwrites hverdict =>
      refine .finished hreplaces (.finished hwrites hverdict) ?_ ⟨_, hwrites.row, rfl⟩
      exact MultiAutoResumable.verdict_status hverdict

/-- A reconciliation that returns. -/
theorem returned (plan : Plan engine store workflowId) {record : WorkflowRecord}
    (h : Session noCall (engine.reconcile workflowId) store trace (.ok record) store') :
    ∃ done, Replaces engine workflowId (store.getWorkflowComponents workflowId) plan.desired store done ∧
      Concludes plan.handler workflowId plan.state plan.cursor plan.row done (.ok record) store' := by
  obtain ⟨rest, rfl, hremaining⟩ := plan.readsTo.session_iff.mp h
  obtain ⟨first, _, done, second, rfl, hloop, hconclude⟩ := Action.runs_bind_ok.mp hremaining
  have hreplaces := session_replaceComponents_ok hloop
  exact ⟨done, hreplaces, session_conclude (plan.found_after hreplaces) hconclude⟩

end Plan

/-- A read in front of a session with nobody else around. -/
theorem session_of_read {call : Call} {result : call.Result} {α : Type} {f : call.Result → Effect α}
    {outcome : Except PyError α} (hread : ∀ now, call.run now store = .ok (result, store))
    (h : Session noCall (callStore call none >>= f) store trace outcome store') :
    ∃ rest, Session noCall (f result) store rest outcome store' := by
  obtain ⟨rest, -, hrest⟩ := (ReadsTo.read hread .done).session_iff.mp h
  exact ⟨rest, hrest⟩

/-- The row of a workflow is read as its record. -/
theorem getWorkflow_found (hrow : store.workflow? workflowId = some row) (now : Time) :
    (Call.getWorkflow workflowId).run now store = .ok (row.toRecord, store) :=
  Call.reading_eq_ok.mpr ⟨by rw [getWorkflow, hrow]; rfl, rfl⟩

/-- A reconciliation of an active workflow that returns has a plan. -/
theorem exists_plan {record : WorkflowRecord} (hrow : store.workflow? workflowId = some row)
    (hactive : row.status = .active)
    (h : Session noCall (engine.reconcile workflowId) store trace (.ok record) store') :
    ∃ plan : Plan engine store workflowId, plan.row = row := by
  unfold WorkflowEngine.reconcile at h
  obtain ⟨_, h⟩ := session_of_read (getWorkflow_found hrow) h
  have hopen : ¬ row.toRecord.status ≠ .active := not_not.mpr hactive
  simp only [if_neg hopen] at h
  obtain ⟨handler, hhandler, h⟩ := Action.runs_ofExcept_bind_ok.mp h
  obtain ⟨_, h⟩ := session_of_read (fun _ => rfl) h
  obtain ⟨⟨state, cursor⟩, hreplays, h⟩ := Action.runs_ofExcept_bind_ok.mp h
  obtain ⟨_, h⟩ := session_of_read (fun _ => rfl) h
  obtain ⟨desired, hdesired, h⟩ := Action.runs_ofExcept_bind_ok.mp h
  exact ⟨⟨row, handler, state, cursor, desired, hrow, hactive, hhandler, hreplays, hdesired⟩, rfl⟩

/-- A reconciliation of a workflow that is not active returns its row, and changes nothing. -/
theorem session_inactive {outcome : Except PyError WorkflowRecord} (hrow : store.workflow? workflowId = some row)
    (hinactive : row.status ≠ .active)
    (h : Session noCall (engine.reconcile workflowId) store trace outcome store') :
    outcome = .ok row.toRecord ∧ store' = store := by
  unfold WorkflowEngine.reconcile at h
  obtain ⟨_, h⟩ := session_of_read (getWorkflow_found hrow) h
  have hclosed : row.toRecord.status ≠ .active := hinactive
  simp only [if_pos hclosed] at h
  exact (Action.runs_pure.mp h).2

end TPUSwarm
