import TPUSwarm.Service.Runs
import TPUSwarm.Session.Concluding
import TPUSwarm.Session.Replacing

/-!
# Settled static workflows

When the tasks of all components are terminal, a reconciliation of a static workflow replaces
nothing and reaches its conclusion. It completes the workflow when all components have succeeded
and fails it when one has failed. With a cancelled component and no failed one it does neither.
-/

namespace TPUSwarm

open Common SwarmStore

variable {engine : WorkflowEngine} {store store' : SwarmStore} {workflowId : String} {component : ComponentSpec}
  {row : WorkflowRow} {trace : List (Sigma Operation.Reply)}

/-- The plan of a static workflow: its handler, and components that are valid and linked. -/
theorem exists_static_plan (hstatic : engine.registry.workflow staticKind = .ok staticMultiAutoResumable)
    (h : History (servesStatic engine) .empty store) (hrow : store.workflow? workflowId = some row)
    (hkind : row.kind = staticKind) (hactive : row.status = .active) :
    ∃ plan : Plan engine store workflowId, plan.row = row ∧ plan.handler = staticMultiAutoResumable ∧
      plan.desired ≠ [] ∧ ∀ component ∈ plan.desired,
        (∃ valid, engine.validatedComponent component = .ok valid) ∧ Materialized store workflowId component := by
  have hany : History anyCall .empty store := h.mono fun _ _ _ => trivial
  obtain ⟨hmem, rfl⟩ := workflow?_eq_some.mp hrow
  obtain ⟨⟨desired, hdesired, hne, hlinked⟩, hreplayed⟩ := static_workflows h row hmem hkind
  have hfold := foldlM_reduceRow hany (fun event hevent => (List.mem_filter.mp hevent).1 :
    ∀ event ∈ store.events.after (fun event => decide (event.workflowId = row.workflowId)) row.eventCursor,
      event ∈ store.events.entries) (((store.events.upTo (fun event => decide (event.workflowId = row.workflowId))
        row.eventCursor).map EventRow.toEvent).foldl StaticProgress.step ⟨Dict.empty, .null⟩)
  rw [← hreplayed.eq_encode hany] at hfold
  refine ⟨⟨row, staticMultiAutoResumable, _, _, desired, hrow, hactive, hkind ▸ hstatic,
    WorkflowEngine.replay_of_fold hfold, hdesired⟩, rfl, rfl, hne, fun component hcomponent => ?_⟩
  obtain ⟨hvalid, link, hlink, hgeneration, -⟩ := hlinked component hcomponent
  exact ⟨hvalid, link, hlink, le_of_eq hgeneration.symm⟩

/-- All components have succeeded. -/
def AllSucceeded (components : Dict String TaskRecord) : Prop :=
  ∀ key task, components.get? key = some task → task.status = .succeeded

/-- A component has failed. -/
def SomeFailed (components : Dict String TaskRecord) : Prop :=
  ∃ key task, components.get? key = some task ∧ task.status = .failed

/-- No component was cancelled. -/
def NoneCancelled (components : Dict String TaskRecord) : Prop :=
  ∀ key task, components.get? key = some task → task.status ≠ .cancelled

/-- The workflow has succeeded, with the result of every component under its key. -/
def SucceededWith (components : Dict String TaskRecord) (row : WorkflowRow) : Prop :=
  row.status = .succeeded ∧ ∃ result values, row.resultJson = some (dumps result) ∧
    result.get? "components" = some (.obj values) ∧
      ∀ key task, components.get? key = some task → values.get? key = some (.obj (task.result.getD Dict.empty))

/-- The workflow is finished: it has succeeded with all results if and only if all components have succeeded,
and has failed otherwise. -/
def FinishedAs (components : Dict String TaskRecord) (row : WorkflowRow) : Prop :=
  (SucceededWith components row ↔ AllSucceeded components) ∧ (¬ AllSucceeded components → row.status = .failed)

/-- The conclusion of a static workflow with components: completed, failed, or neither. -/
inductive StaticVerdict (components : Dict String TaskRecord) :
    Option (WorkflowStatus × Option Mapping × Option String) → Prop
  | completed {result : Mapping} (hall : AllSucceeded components)
      (hresult : result.get? "components" =
        some (.obj (components.mapValues fun task => .obj (task.result.getD Dict.empty)))) :
      StaticVerdict components (some (.succeeded, some result, none))
  | failed {reason : String} (hall : ¬ AllSucceeded components) (hfailed : SomeFailed components) :
      StaticVerdict components (some (.failed, none, some reason))
  | neither (hall : ¬ AllSucceeded components) (hfailed : ¬ SomeFailed components) : StaticVerdict components none

/-- The two predicates of the static handler decide this. -/
theorem static_verdict {workflow : WorkflowRecord} {state : Mapping} {components : Dict String TaskRecord}
    (hne : components.entries ≠ []) : ∃ verdict,
      staticMultiAutoResumable.verdict workflow state components = .ok verdict ∧
        StaticVerdict components verdict := by
  have hall :
      (components.entries.all fun entry => entry.2.status = .succeeded) = true ↔ AllSucceeded components := by
    rw [List.all_eq_true]
    refine ⟨fun h key task htask => of_decide_eq_true (h _ (Dict.get?_eq_some_iff.mp htask)), ?_⟩
    rintro h ⟨key, task⟩ hentry
    exact decide_eq_true (h key task (Dict.get?_eq_some_iff.mpr hentry))
  by_cases hsucceeded : AllSucceeded components
  · let result : Mapping := Dict.ofList [
      ("components", .obj (components.mapValues fun task => .obj (task.result.getD Dict.empty))),
      ("last_barrier", (state.get? "last_barrier").getD .null)]
    have hresult : staticMultiAutoResumable.completionResult workflow state components = .ok (some result) :=
      congrArg Except.ok (if_pos ⟨hne, hall.mpr hsucceeded⟩)
    have hvalues : result.get? "components" =
        some (.obj (components.mapValues fun task => .obj (task.result.getD Dict.empty))) :=
      (Dict.get?_ofList (by simp)).mpr List.mem_cons_self
    refine ⟨_, ?_, .completed hsucceeded hvalues⟩
    rw [MultiAutoResumable.verdict, hresult]
    rfl
  · have hresult : staticMultiAutoResumable.completionResult workflow state components = .ok none :=
      congrArg Except.ok (if_neg fun h => hsucceeded (hall.mp h.2))
    rw [MultiAutoResumable.verdict_of_none hresult]
    let failed := (components.entries.filter fun entry => entry.2.status = .failed).map Prod.fst
    by_cases hfailed : SomeFailed components
    · obtain ⟨key, task, htask, hstatus⟩ := hfailed
      have hlist : failed ≠ [] := List.ne_nil_of_mem (List.mem_map.mpr ⟨(key, task),
        List.mem_filter.mpr ⟨Dict.get?_eq_some_iff.mp htask, decide_eq_true hstatus⟩, rfl⟩)
      have hreason : staticMultiAutoResumable.failureReason workflow state components =
          .ok (some ("components failed after SkyPilot recovery: " ++ joinSorted failed)) :=
        congrArg Except.ok (if_pos hlist)
      rw [hreason]
      exact ⟨_, rfl, .failed hsucceeded ⟨key, task, htask, hstatus⟩⟩
    · have hlist : ¬ failed ≠ [] := by
        rw [not_not, List.map_eq_nil_iff, List.filter_eq_nil_iff]
        rintro ⟨key, task⟩ hentry hstatus
        exact hfailed ⟨key, task, Dict.get?_eq_some_iff.mpr hentry, of_decide_eq_true hstatus⟩
      have hreason : staticMultiAutoResumable.failureReason workflow state components = .ok none :=
        congrArg Except.ok (if_neg hlist)
      rw [hreason]
      exact ⟨_, rfl, .neither hsucceeded hfailed⟩

/-- A workflow with its verdict is finished as it should be if and only if a component has failed or none was
cancelled, provided that all are terminal. -/
theorem finishedAs_iff {components : Dict String TaskRecord} {row' : WorkflowRow}
    {verdict : Option (WorkflowStatus × Option Mapping × Option String)}
    (hverdict : StaticVerdict components verdict)
    (hterminal : ∀ key task, components.get? key = some task → task.status.isTerminal = true)
    (hremains : verdict = none → row'.status = .active)
    (hfinished : ∀ status result reason, verdict = some (status, result, reason) →
      row'.status = status ∧ row'.resultJson = result.map dumps) :
    FinishedAs components row' ↔ SomeFailed components ∨ NoneCancelled components := by
  cases hverdict with
  | @completed result hall hresult =>
    obtain ⟨hstatus, hjson⟩ := hfinished _ _ _ rfl
    have hwith : SucceededWith components row' := by
      refine ⟨hstatus, result, _, hjson, hresult, fun key task htask => ?_⟩
      rw [Dict.get?_mapValues, htask, Option.map_some]
    refine iff_of_true ⟨iff_of_true hwith hall, fun hnot => absurd hall hnot⟩ (Or.inr fun key task htask => ?_)
    rw [hall key task htask]
    decide
  | @failed reason hall hfailed =>
    obtain ⟨hstatus, -⟩ := hfinished _ _ _ rfl
    refine iff_of_true ⟨iff_of_false (fun hwith => ?_) hall, fun _ => hstatus⟩ (Or.inl hfailed)
    rw [hwith.1] at hstatus
    cases hstatus
  | neither hall hfailed =>
    refine iff_of_false (fun hfinishedAs => ?_)
      (not_or.mpr ⟨hfailed, fun hcancelled => hall fun key task htask => ?_⟩)
    · have hstatus := hfinishedAs.2 hall
      rw [hremains rfl] at hstatus
      cases hstatus
    · -- a terminal task that has neither failed nor been cancelled has succeeded
      have hdone := hterminal key task htask
      have hnotCancelled := hcancelled key task htask
      have hnotFailed : task.status ≠ .failed := fun heq => hfailed ⟨key, task, htask, heq⟩
      revert hdone hnotCancelled hnotFailed
      cases task.status <;> decide

/-- In every state the service reaches, reconciling an active static workflow with terminal components only
returns, and it finishes the workflow as it should if and only if a component has failed or none was cancelled. -/
theorem settled_finishes {ι : Type} [DecidableEq ι]
    (hstatic : engine.registry.workflow staticKind = .ok staticMultiAutoResumable) {s : (services ι engine).State}
    (h : (services ι engine).Run (servicesInitial ι engine) s)
    (hrow : s.world.workflow? workflowId = some row) (hkind : row.kind = staticKind)
    (hactive : row.status = .active)
    (hterminal : ∀ key task, (s.world.getWorkflowComponents workflowId).get? key = some task →
      task.status.isTerminal = true) :
    (∃ trace outcome store', Session noCall (engine.reconcile workflowId) s.world trace outcome store') ∧
    ∀ trace outcome store', Session noCall (engine.reconcile workflowId) s.world trace outcome store' →
      ∃ row', store'.workflow? workflowId = some row' ∧ outcome = .ok row'.toRecord ∧
        (FinishedAs (s.world.getWorkflowComponents workflowId) row' ↔
          SomeFailed (s.world.getWorkflowComponents workflowId) ∨
            NoneCancelled (s.world.getWorkflowComponents workflowId)) := by
  have hhistory := service_history hstatic h
  have hlinked := linked_tasks hhistory
  refine ⟨Prog.exists_runs Answers.total _ _, fun trace outcome store' hrun => ?_⟩
  obtain ⟨plan, rfl, hhandler, hne, hcomponents⟩ := exists_static_plan hstatic hhistory hrow hkind hactive
  obtain ⟨rest, rfl, hremaining⟩ := plan.readsTo.session_iff.mp hrun
  have hnonempty : (s.world.getWorkflowComponents workflowId).entries ≠ [] := by
    obtain ⟨component, hcomponent⟩ := List.exists_mem_of_ne_nil _ hne
    obtain ⟨-, link, hlink, -⟩ := hcomponents component hcomponent
    obtain ⟨hmem, hplace⟩ := component?_eq_some.mp hlink
    obtain ⟨r, hr⟩ := hlinked link hmem
    exact List.ne_nil_of_mem (Dict.get?_eq_some_iff.mp (getWorkflowComponents_get?.mpr
      ⟨link, r, mem_joinComponents.mpr ⟨hmem, congrArg Prod.fst hplace, hr⟩, rfl, rfl⟩))
  rcases Action.runs_bind.mp hremaining with ⟨e, -, hloop⟩ | ⟨first, _, mid, second, rfl, hloop, hconclude⟩
  · cases (session_linked hlinked hcomponents hloop).1
  obtain ⟨-, rfl⟩ := session_linked hlinked hcomponents hloop
  rw [hhandler] at hconclude
  cases session_conclude hrow hconclude with
  | raised hwrites hverdict =>
    obtain ⟨verdict, hok, -⟩ := static_verdict hnonempty
    cases hverdict.symm.trans hok
  | remains hwrites hverdict =>
    obtain ⟨verdict, hok, hstaticVerdict⟩ := static_verdict hnonempty
    obtain rfl := Except.ok.inj (hok.symm.trans hverdict)
    exact ⟨_, hwrites.row, rfl, finishedAs_iff hstaticVerdict hterminal (fun _ => hactive) fun _ _ _ hsome =>
      (by cases hsome)⟩
  | finished hwrites hverdict =>
    obtain ⟨verdict, hok, hstaticVerdict⟩ := static_verdict hnonempty
    obtain rfl := Except.ok.inj (hok.symm.trans hverdict)
    refine ⟨_, hwrites.row, rfl, finishedAs_iff hstaticVerdict hterminal (fun hnone => by cases hnone) ?_⟩
    rintro status result reason hsome
    cases hsome
    exact ⟨rfl, rfl⟩

/-- A workflow with two components, whose jobs end as given. -/
def settlingCommands (first second : String) : List (ServiceCommand Unit) :=
  [.submit () (trainWorkflow "w1" ["a", "b"]), .store () 0, .other (.reserveSubmissions 8) 1,
    .other (.bindJob "w1-a-g0" "1" "RUNNING") 2, .other (.bindJob "w1-b-g0" "2" "RUNNING") 2,
    .other (.observeJob "w1-a-g0" { jobId := "1", name := "a", status := first }) 3,
    .other (.observeJob "w1-b-g0" { jobId := "2", name := "b", status := second }) 3]

/-- The workflow is active, and the tasks of its components have these statuses. -/
def settledCheck (statuses : List TaskStatus) (s : (services Unit staticEngine).State) : Bool :=
  (s.world.workflow? "w1").any (fun row => row.kind = staticKind && row.status = .active) &&
    (s.world.getWorkflowComponents "w1").entries.map (fun entry => entry.2.status) = statuses

/-- The check of a state says that the workflow is active and its children have the given statuses. -/
theorem settledCheck_eq_true {statuses : List TaskStatus} {s : (services Unit staticEngine).State}
    (h : settledCheck statuses s = true) :
    (∃ row, s.world.workflow? "w1" = some row ∧ row.kind = staticKind ∧ row.status = .active) ∧
      (s.world.getWorkflowComponents "w1").entries.map (fun entry => entry.2.status) = statuses := by
  obtain ⟨hrow, hstatuses⟩ := Bool.and_eq_true_iff.mp h
  obtain ⟨row, hrow, hcolumns⟩ := (Option.any_eq_true _ _).mp hrow
  obtain ⟨hkind, hactive⟩ := Bool.and_eq_true_iff.mp hcolumns
  exact ⟨⟨row, hrow, of_decide_eq_true hkind, of_decide_eq_true hactive⟩, of_decide_eq_true hstatuses⟩

/-- What holds of the statuses of all entries holds of all components. -/
theorem forall_status {components : Dict String TaskRecord} {P : TaskStatus → Prop}
    (h : ∀ status ∈ components.entries.map (fun entry => entry.2.status), P status) :
    ∀ key task, components.get? key = some task → P task.status := fun key task htask =>
  h _ (List.mem_map.mpr ⟨(key, task), Dict.get?_eq_some_iff.mp htask, rfl⟩)

/-- A status of the entries is one of a component. -/
theorem exists_status {components : Dict String TaskRecord} {status : TaskStatus}
    (h : status ∈ components.entries.map fun entry => entry.2.status) :
    ∃ key task, components.get? key = some task ∧ task.status = status := by
  obtain ⟨⟨key, task⟩, hentry, hstatus⟩ := List.mem_map.mp h
  exact ⟨key, task, Dict.get?_eq_some_iff.mpr hentry, hstatus⟩

/-- A component that has not succeeded. -/
theorem not_allSucceeded {components : Dict String TaskRecord} {status : TaskStatus}
    (h : status ∈ components.entries.map fun entry => entry.2.status) (hne : status ≠ .succeeded) :
    ¬ AllSucceeded components := by
  obtain ⟨key, task, htask, rfl⟩ := exists_status h
  exact fun hall => hne (hall key task htask)

/-- A component has succeeded and the other one has failed. The workflow fails. -/
theorem settled_finishes_failed : ∃ s : (services Unit staticEngine).State, ∃ trace outcome store' row',
    Session noCall (staticEngine.reconcile "w1") s.world trace outcome store' ∧
      store'.workflow? "w1" = some row' ∧ row'.status = .failed := by
  have hcheck : (Pool.plays (servicePlay staticEngine) (settlingCommands "SUCCEEDED" "FAILED")
      (servicesInitial Unit staticEngine)).any (settledCheck [.succeeded, .failed]) = true := by decide +kernel
  obtain ⟨s, hs, hsettled⟩ := (Option.any_eq_true _ _).mp hcheck
  obtain ⟨⟨row, hrow, hkind, hactive⟩, hstatuses⟩ := settledCheck_eq_true hsettled
  have hterminal := forall_status (P := fun status => status.isTerminal = true)
    (show ∀ status ∈ _, _ by rw [hstatuses]; decide)
  have hmem : TaskStatus.failed ∈ (s.world.getWorkflowComponents "w1").entries.map fun entry => entry.2.status := by
    rw [hstatuses]
    decide
  obtain ⟨⟨trace, outcome, store', hsession⟩, hends⟩ :=
    settled_finishes staticEngine_static (run_of_servicePlays hs) hrow hkind hactive hterminal
  obtain ⟨row', hrow', -, hiff⟩ := hends trace outcome store' hsession
  have hfinished := hiff.mpr (Or.inl (exists_status hmem))
  exact ⟨s, trace, outcome, store', row', hsession, hrow', hfinished.2 (not_allSucceeded hmem (by decide))⟩

/-- A component has succeeded and the other one was cancelled. The workflow stays active. -/
theorem settled_remains_active : ∃ s : (services Unit staticEngine).State,
    (services Unit staticEngine).Run (servicesInitial Unit staticEngine) s ∧
    (∃ row, s.world.workflow? "w1" = some row ∧ row.kind = staticKind ∧ row.status = .active) ∧
    (∀ key task, (s.world.getWorkflowComponents "w1").get? key = some task → task.status.isTerminal = true) ∧
    ∃ trace outcome store' row', Session noCall (staticEngine.reconcile "w1") s.world trace outcome store' ∧
      store'.workflow? "w1" = some row' ∧ row'.status = .active ∧
        ¬ FinishedAs (s.world.getWorkflowComponents "w1") row' := by
  have hcheck : (Pool.plays (servicePlay staticEngine) (settlingCommands "SUCCEEDED" "CANCELLED")
      (servicesInitial Unit staticEngine)).any (fun s => settledCheck [.succeeded, .cancelled] s &&
        (playSession noCall (staticEngine.reconcile "w1").run s.world
          [.store [] 4, .store [] 4, .store [] 4, .store [] 4, .store [] 4]).any fun (_, _, store') =>
            (store'.workflow? "w1").any fun row => row.status = .active) = true := by decide +kernel
  obtain ⟨s, hs, hchecks⟩ := (Option.any_eq_true _ _).mp hcheck
  obtain ⟨hsettled, hsession⟩ := Bool.and_eq_true_iff.mp hchecks
  obtain ⟨hrow, hstatuses⟩ := settledCheck_eq_true hsettled
  obtain ⟨⟨trace, outcome, store'⟩, hplay, hrow'⟩ := (Option.any_eq_true _ _).mp hsession
  obtain ⟨row', hrow', hstatus⟩ := (Option.any_eq_true _ _).mp hrow'
  have hterminal := forall_status (P := fun status => status.isTerminal = true)
    (show ∀ status ∈ _, _ by rw [hstatuses]; decide)
  have hmem :
      TaskStatus.cancelled ∈ (s.world.getWorkflowComponents "w1").entries.map fun entry => entry.2.status := by
    rw [hstatuses]
    decide
  refine ⟨s, run_of_servicePlays hs, hrow, hterminal, trace, outcome, store', row',
    runs_of_playSession hplay, hrow', of_decide_eq_true hstatus, fun hfinished => ?_⟩
  have hfailed := hfinished.2 (not_allSucceeded hmem (by decide))
  rw [of_decide_eq_true hstatus] at hfailed
  cases hfailed

end TPUSwarm
