import TPUSwarm.Service.Runs
import TPUSwarm.Session.Finishing

/-!
# Events that come too late

A finished workflow is never reconciled again, so what its last reconciliation has not read is
never reduced. The events are read in one transaction and the workflow is finished in a later
one; the cursor covers the log then if and only if nothing was logged for it in between.
-/

namespace TPUSwarm

open Common SwarmStore

/-- The barrier of the last event that reports one for a workflow. -/
def SwarmStore.lastReported (store : SwarmStore) (workflowId : String) : Option ℤ :=
  ((store.events.entries.filter (·.workflowId = workflowId)).filter (·.kind = "BarrierCommitted")).getLast?.bind
    EventRow.barrier?

/-- Nothing is left behind by a finished workflow: its cursor covers its events, and the result of a success
names the barrier that was reported last. -/
def NothingLeft (store : SwarmStore) (row : WorkflowRow) : Prop :=
  (∀ event ∈ store.events.entries, event.workflowId = row.workflowId → event.eventId ≤ row.eventCursor) ∧
    (row.status = .succeeded → ∃ result, row.resultJson = some (dumps result) ∧
      result.get? "last_barrier" = some (barrierJson (store.lastReported row.workflowId)))

variable {engine : WorkflowEngine} {store store' : SwarmStore} {workflowId : String} {row row' : WorkflowRow}
  {trace : List (Sigma Operation.Reply)}

/-- The last event that reports a barrier reports the last barrier. -/
theorem lastReported_eq (h : History anyCall .empty store) (workflowId : String) :
    store.lastReported workflowId = (store.barriers workflowId).getLast? := by
  rw [← reported_all h, lastReported]
  set events := (store.events.entries.filter (·.workflowId = workflowId)).filter (·.kind = "BarrierCommitted")
    with hevents
  have hnamed : ∀ event ∈ events, ∃ barrier, event.barrier? = some barrier := fun event hevent => by
    obtain ⟨hmem, hkind⟩ := List.mem_filter.mp hevent
    obtain ⟨barrier, hbarrier, -⟩ := exists_barrier? h (List.mem_filter.mp hmem).1 (of_decide_eq_true hkind)
    exact ⟨barrier, hbarrier⟩
  rcases List.eq_nil_or_concat events with hnil | ⟨init, last, hconcat⟩
  · rw [hnil]
    rfl
  · rw [List.concat_eq_append] at hconcat
    obtain ⟨barrier, hbarrier⟩ := hnamed last (hconcat ▸ List.mem_append_right _ List.mem_cons_self)
    rw [hconcat, List.getLast?_concat, List.filterMap_append, List.filterMap_cons_some hbarrier, List.filterMap_nil,
      List.getLast?_concat, Option.bind_some, hbarrier]

/-- The result of a static workflow names the last barrier of its state. -/
theorem static_result_barrier {saved : WorkflowRecord} {state : Mapping} {components : Dict String TaskRecord}
    {result : Mapping}
    (h : staticMultiAutoResumable.completionResult saved state components = .ok (some result)) :
    result.get? "last_barrier" = some ((state.get? "last_barrier").getD .null) := by
  have hsome : StaticMultiAutoResumable.completionResult state components = some result := Except.ok.inj h
  rw [StaticMultiAutoResumable.completionResult, Option.ite_none_right_eq_some] at hsome
  rw [← Option.some.inj hsome.2]
  exact (Dict.get?_ofList (by simp)).mpr (List.mem_cons_of_mem _ List.mem_cons_self)

/-- In every interleaving of a reconciliation with calls that update no workflow, and in every state that the
service reaches, a static workflow is finished with nothing left behind if and only if no event of the workflow was
logged between the transaction that read its events and the one that finished it. -/
theorem finished_with_nothing_left {ι : Type} [DecidableEq ι]
    (hstatic : engine.registry.workflow staticKind = .ok staticMultiAutoResumable) {s : (services ι engine).State}
    (h : (services ι engine).Run (servicesInitial ι engine) s) {outcome : Except PyError WorkflowRecord}
    (hrow : s.world.workflow? workflowId = some row) (hkind : row.kind = staticKind)
    (hactive : row.status = .active)
    (hrun : Session leavesWorkflows (engine.reconcile workflowId) s.world trace outcome store')
    (hrow' : store'.workflow? workflowId = some row') (hfinished : row'.status ≠ .active) :
    ∃ events, (⟨.store (.getWorkflowEvents workflowId row.eventCursor) none, .ok events⟩ : Sigma Operation.Reply)
      ∈ trace ∧
      (NothingLeft store' row' ↔ store'.getWorkflowEvents workflowId row.eventCursor = events) := by
  have hhistory := service_history hstatic h
  have hany : History anyCall .empty store' := (hhistory.mono fun _ _ _ => trivial).trans
    (Session.history (fun _ _ _ => trivial) (fun _ _ _ _ => trivial) (engine.uses_reconcile workflowId) hrun)
  obtain ⟨read, state, cursor, hbefore, hread, hreplays, hextends, rfl, hresult⟩ :=
    session_finishing hrow hactive (hkind ▸ hstatic) hrun hrow' hfinished
  obtain ⟨hmem, hid⟩ := workflow?_eq_some.mp hrow
  have hid' : row'.workflowId = workflowId := (workflow?_eq_some.mp hrow').2
  have hstart := (static_workflows hhistory row hmem hkind).replayed.of_extends hbefore.events_extend
  rw [hid] at hstart
  obtain ⟨hfold, hreached⟩ := WorkflowEngine.replay_eq_ok hreplays
  have hreplayed : StaticReplayed store' workflowId state row'.eventCursor := by
    rw [hreached]
    exact (hstart.advance hfold).of_extends hextends
  have hcovers := hextends.covers_iff (fun event => decide (event.workflowId = workflowId)) hstart.1
  rw [← hreached] at hcovers
  simp only [decide_eq_true_eq] at hcovers
  refine ⟨_, hread, fun hleft => ?_, fun hequal => ?_⟩
  · -- the log has grown by nothing that the cursor does not cover
    have hlength := hcovers.mp (hid' ▸ hleft.1)
    obtain ⟨more, hafter, -⟩ :=
      hextends.after_eq (fun event => decide (event.workflowId = workflowId)) row.eventCursor
    rw [hafter, List.length_append, Nat.add_eq_left, List.length_eq_zero_iff] at hlength
    rw [getWorkflowEvents, getWorkflowEvents, hafter, hlength, List.append_nil]
  · have hlength := congrArg List.length hequal
    rw [getWorkflowEvents, getWorkflowEvents, List.length_map, List.length_map] at hlength
    have hend := hcovers.mpr hlength
    refine ⟨by rw [hid']; exact hend, fun hsucceeded => ?_⟩
    obtain ⟨saved, components, result, hcompleted, hjson⟩ := hresult hsucceeded
    refine ⟨result, hjson, ?_⟩
    rw [static_result_barrier hcompleted, hreplayed.lastBarrier hany, hid', lastReported_eq hany,
      reported_end hany hend]
    rfl

/-- A workflow whose only component has succeeded. -/
def succeededCommands : List (ServiceCommand Unit) :=
  [.submit () (trainWorkflow "w1" ["a"]), .store () 0, .other (.reserveSubmissions 8) 1,
    .other (.bindJob "w1-a-g0" "1" "RUNNING") 2,
    .other (.observeJob "w1-a-g0" { jobId := "1", name := "a", status := "SUCCEEDED" }) 3]

/-- Its reconciliation, with calls of others before the state is saved. -/
def finishingChoices (others : List (Call × Time)) : List Choice :=
  [.store [] 4, .store [] 4, .store [] 4, .store others 4, .store [] 4, .store [] 4]

/-- A checkpoint is published, and its barrier committed. -/
def lateCommit : List (Call × Time) :=
  [(.recordCheckpoint "w1-a-g0" (trainerCheckpoint "gs://a" 1), 4), (.commitBarrier "w1" 1 none, 4)]

/-- Events that were read are these. -/
def readsEvents (events : List WorkflowEvent) : Sigma Operation.Reply → Bool
  | ⟨.store (.getWorkflowEvents _ _) _, .ok read⟩ => decide ((show List WorkflowEvent from read) = events)
  | _ => true

/-- The workflow is static and active. -/
def staticActive (row : WorkflowRow) : Bool := row.kind = staticKind && row.status = .active

/-- A reconciliation with nothing logged in between leaves nothing behind. -/
theorem finished_with_nothing_left_quiet : ∃ s : (services Unit staticEngine).State, ∃ trace outcome store' row',
    Session leavesWorkflows (staticEngine.reconcile "w1") s.world trace outcome store' ∧
      store'.workflow? "w1" = some row' ∧ row'.status = .succeeded ∧ NothingLeft store' row' := by
  have hcheck : (Pool.plays (servicePlay staticEngine) succeededCommands (servicesInitial Unit staticEngine)).any
      (fun s => (s.world.workflow? "w1").any staticActive &&
        (playSession leavesWorkflows (staticEngine.reconcile "w1").run s.world (finishingChoices [])).any
          fun (trace, _, store') => (store'.workflow? "w1").any (·.status = .succeeded) &&
            (s.world.workflow? "w1").any fun row =>
              trace.all (readsEvents (store'.getWorkflowEvents "w1" row.eventCursor))) = true := by decide +kernel
  obtain ⟨s, hs, hchecks⟩ := (Option.any_eq_true _ _).mp hcheck
  obtain ⟨hrow, hsession⟩ := Bool.and_eq_true_iff.mp hchecks
  obtain ⟨row, hrow, hcolumns⟩ := (Option.any_eq_true _ _).mp hrow
  obtain ⟨hkind, hactive⟩ := Bool.and_eq_true_iff.mp hcolumns
  obtain ⟨⟨trace, outcome, store'⟩, hplay, hends⟩ := (Option.any_eq_true _ _).mp hsession
  obtain ⟨hrow', hreads⟩ := Bool.and_eq_true_iff.mp hends
  obtain ⟨row', hrow', hstatus⟩ := (Option.any_eq_true _ _).mp hrow'
  have hsucceeded : row'.status = .succeeded := of_decide_eq_true hstatus
  have hrun : Session leavesWorkflows (staticEngine.reconcile "w1") s.world trace outcome store' :=
    runs_of_playSession hplay
  obtain ⟨events, hmem, hiff⟩ := finished_with_nothing_left staticEngine_static (run_of_servicePlays hs) hrow
    (of_decide_eq_true hkind) (of_decide_eq_true hactive) hrun hrow' (by rw [hsucceeded]; decide)
  refine ⟨s, trace, outcome, store', row', hrun, hrow', hsucceeded, hiff.mpr ?_⟩
  rw [hrow] at hreads
  exact (of_decide_eq_true (List.all_eq_true.mp hreads _ hmem)).symm

/-- A barrier is committed after the events were read. The workflow succeeds, its cursor stays before the event of
the barrier, and its result names none. -/
theorem finished_before_commit : ∃ s : (services Unit staticEngine).State,
    (services Unit staticEngine).Run (servicesInitial Unit staticEngine) s ∧
    (∃ row, s.world.workflow? "w1" = some row ∧ row.kind = staticKind ∧ row.status = .active) ∧
    ∃ trace outcome store' row', Session apiCall (staticEngine.reconcile "w1") s.world trace outcome store' ∧
      store'.workflow? "w1" = some row' ∧ row'.status = .succeeded ∧
      (∃ event ∈ store'.events.entries, event.workflowId = "w1" ∧ row'.eventCursor < event.eventId) ∧
      store'.lastReported "w1" = some 1 ∧
      (row'.resultJson.map loads).bind (·.get? "last_barrier") = some .null := by
  have hcheck : (Pool.plays (servicePlay staticEngine) succeededCommands (servicesInitial Unit staticEngine)).any
      (fun s => (s.world.workflow? "w1").any staticActive &&
        (playSession apiCall (staticEngine.reconcile "w1").run s.world (finishingChoices lateCommit)).any
          fun (_, _, store') => (store'.workflow? "w1").any fun row => row.status = .succeeded &&
            (store'.events.entries.any fun event => event.workflowId = "w1" && row.eventCursor < event.eventId) &&
              store'.lastReported "w1" = some 1 &&
                (row.resultJson.map loads).bind (·.get? "last_barrier") = some .null) = true := by decide +kernel
  obtain ⟨s, hs, hchecks⟩ := (Option.any_eq_true _ _).mp hcheck
  obtain ⟨hrow, hsession⟩ := Bool.and_eq_true_iff.mp hchecks
  obtain ⟨row, hrow, hcolumns⟩ := (Option.any_eq_true _ _).mp hrow
  obtain ⟨hkind, hactive⟩ := Bool.and_eq_true_iff.mp hcolumns
  obtain ⟨⟨trace, outcome, store'⟩, hplay, hends⟩ := (Option.any_eq_true _ _).mp hsession
  obtain ⟨row', hrow', hlate⟩ := (Option.any_eq_true _ _).mp hends
  simp only [Bool.and_eq_true, decide_eq_true_eq, List.any_eq_true] at hlate
  obtain ⟨⟨⟨hsucceeded, hevent⟩, hreported⟩, hresult⟩ := hlate
  exact ⟨s, run_of_servicePlays hs, ⟨row, hrow, of_decide_eq_true hkind, of_decide_eq_true hactive⟩, trace, outcome,
    store', row', runs_of_playSession hplay, hrow', hsucceeded, hevent, hreported, hresult⟩

end TPUSwarm
