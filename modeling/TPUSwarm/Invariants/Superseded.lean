import TPUSwarm.Invariants.LinkAgreement
import TPUSwarm.Store.Batch
import TPUSwarm.Engine.Schedule

/-!
# Superseded children

A replacement moves the link of a component to another task and leaves the old task as it
is. Admission looks at the status of a task alone. So a superseded task is never admitted
if no pending task is superseded and no superseded task goes back to pending.
-/

namespace TPUSwarm

open Common SwarmStore

/-- A task that belongs to a workflow is the one that the workflow links under its component key. -/
def IsCurrent (store : SwarmStore) (row : TaskRow) : Prop :=
  ∀ workflowId ∈ row.workflowId, ∃ link ∈ store.components.rows,
    link.workflowId = workflowId ∧ row.componentKey = some link.componentKey ∧ link.taskId = row.taskId

instance (store : SwarmStore) (row : TaskRow) : Decidable (IsCurrent store row) := by
  unfold IsCurrent
  infer_instance

/-- Every pending task is linked. -/
def PendingLinked (store : SwarmStore) : Prop :=
  ∀ row ∈ store.tasks.rows, row.status = .pending → IsCurrent store row

/-- The call takes no link away from a pending task, unless to give it back, and sends no task back to
pending that is not linked. -/
def supersedesNoPending : Discretion
  | store, .replaceComponent workflowId component =>
    ∀ link ∈ store.component? workflowId component.key, link.generation < component.generation →
      ∀ row ∈ store.task? link.taskId, row.status = .pending → store.standIn? component.task = some row
  | store, .resetSubmission taskId _ => ∀ row ∈ store.task? taskId, IsCurrent store row
  | _, _ => True

instance (store : SwarmStore) (call : Call) : Decidable (supersedesNoPending store call) :=
  match call with
  | .replaceComponent _ _ => inferInstanceAs (Decidable (∀ link ∈ _, _ → ∀ row ∈ _, _ → _))
  | .resetSubmission _ _ => inferInstanceAs (Decidable (∀ row ∈ _, _))
  | .submitTask _ | .getTask _ | .listTasks _ | .setResourcePolicy _ | .getResourcePolicies | .reserveSubmissions _
  | .bindJob _ _ _ | .failTask _ _ | .observeJob _ _ | .recordCheckpoint _ _ | .submitWorkflow _ _ _ |
    .getWorkflow _
  | .listWorkflows _ | .getWorkflowComponents _ | .getWorkflowEvents _ _ | .saveWorkflowState _ _ _
  | .completeWorkflow _ _ | .failWorkflow _ _ | .commitBarrier _ _ _ | .latestBarrier _ | .acquireLeadership _ _
  | .renewLeadership _ _ => isTrue trivial

variable {store mid store' : SwarmStore} {now : Time} {workflowId : String} {component : ComponentSpec}

/-- Being linked is a matter of the origin. -/
theorem IsCurrent.of_origin {a b : TaskRow} (h : IsCurrent store a) (horigin : a.origin = b.origin) :
    IsCurrent store b := by
  obtain ⟨hid, -, hw, hk, -⟩ := TaskOrigin.mk.inj horigin
  unfold IsCurrent
  rw [← hid, ← hw, ← hk]
  exact h

/-- A row stays current while the links stay. -/
theorem IsCurrent.of_components {row : TaskRow} (hcomponents : store'.components = store.components)
    (h : IsCurrent store row) : IsCurrent store' row := by
  unfold IsCurrent
  rw [hcomponents]
  exact h

namespace PendingLinked

/-- A rewrite that leaves a linked task, if a pending one, keeps pending tasks linked. -/
theorem rewrites {row row' : TaskRow} (h : PendingLinked store) (hrewrites : Rewrites store store' row row')
    (hcomponents : store'.components = store.components) (hrow : row'.status = .pending → IsCurrent store row') :
    PendingLinked store' := by
  intro r hr hstatus
  refine IsCurrent.of_components hcomponents ?_
  rcases hrewrites.mem_iff.mp hr with rfl | ⟨hold, -⟩
  · exact hrow hstatus
  · exact h r hold hstatus

/-- Placing a component keeps pending tasks linked, if the link leaves no pending task. -/
theorem places {row : TaskRow} {link : ComponentRow} (h : PendingLinked store)
    (hplaces : Places now workflowId component store mid row link)
    (hleft : ∀ other ∈ store.components.rows, other.place = (workflowId, component.key) →
      ∀ r ∈ store.tasks.rows, r.taskId = other.taskId → r.status = .pending → r = row) :
    PendingLinked mid := by
  have hplace := Prod.mk.inj hplaces.place
  have hlinked := congrArg Linkage.taskId hplaces.linkage
  have hold : ∀ r ∈ store.tasks.rows, r.status = .pending → IsCurrent mid r := by
    intro r hr hstatus w hw
    obtain ⟨other, hother, hworkflow, hkey, hid⟩ := h r hr hstatus w hw
    by_cases hsame : other.place = (workflowId, component.key)
    · have hrow := hleft other hother hsame r hr hid.symm hstatus
      have hsame' := Prod.mk.inj hsame
      refine ⟨link, hplaces.mem_link, ?_, ?_, hlinked.trans (congrArg TaskRow.taskId hrow).symm⟩
      · exact hplace.1.trans (hsame'.1.symm.trans hworkflow)
      · rw [hkey, hplace.2]
        exact congrArg some hsame'.2
    · exact ⟨other, (hplaces.mem_iff other).mpr (Or.inr ⟨hother, hsame⟩), hworkflow, hkey, hid⟩
  intro r hr hstatus
  rcases hplaces.tasks_iff.mp hr with hr | rfl
  · exact hold r hr hstatus
  · rcases hplaces.answers with ⟨hstand, -⟩ | ⟨-, rfl, -⟩
    · exact hold r (standIn?_mem hstand) hstatus
    · rintro w ⟨rfl⟩
      exact ⟨link, hplaces.mem_link, hplace.1, congrArg some hplace.2.symm, hlinked⟩

/-- Components of a new workflow are placed where no link was. -/
theorem insertComponents {components : List ComponentSpec} (h : PendingLinked store)
    (hrun : SwarmStore.insertComponents workflowId now components store = .ok store') : PendingLinked store' := by
  induction components generalizing store with
  | nil =>
    cases hrun
    exact h
  | cons component rest ih =>
    obtain ⟨mid, row, link, hplaces, hfresh, hrest⟩ := insertComponents_cons hrun
    exact ih (h.places hplaces fun other hother hplace => absurd hplace (hfresh other hother)) hrest

/-- A replacement that takes the link away from no pending task keeps pending tasks linked. -/
theorem replaceComponent {task : TaskRecord} (h : PendingLinked store)
    (hallowed : supersedesNoPending store (.replaceComponent workflowId component))
    (hrun : SwarmStore.replaceComponent workflowId component now store = .ok (task, store')) :
    PendingLinked store' := by
  rcases replaceComponent_cases hrun with ⟨_, _, -, -, -, -, rfl⟩ | ⟨hnewer, row, link, -, hplaces⟩
  · exact h
  · refine h.places hplaces fun other hother hplace r hr hid hstatus => ?_
    have hcurrent := component?_eq_some.mpr ⟨hother, hplace⟩
    have hstand := hallowed other hcurrent (hnewer other hcurrent) r (task?_eq_some.mpr ⟨hr, hid⟩) hstatus
    rcases hplaces.answers with ⟨hstand', -⟩ | ⟨hnone, -, -⟩
    · exact Option.some.inj (hstand.symm.trans hstand')
    · rw [hstand] at hnone
      cases hnone

/-- A checkpoint moves no task. -/
theorem recordCheckpoint {taskId : String} {checkpoint : CheckpointRef} {task : TaskRecord}
    (h : PendingLinked store)
    (hrun : SwarmStore.recordCheckpoint taskId checkpoint now store = .ok (task, store')) :
    PendingLinked store' := by
  obtain ⟨row, mid, hmem, -, hpublish, hadvance⟩ := recordCheckpoint_eq_ok hrun
  have hmid := publishCheckpoint_frame hpublish
  have hfirst : PendingLinked mid := by
    rw [hmid]
    exact h
  have hmem' : row ∈ mid.tasks.rows := by
    rw [hmid]
    exact hmem
  rcases advanceCheckpoint_eq_ok hmem' hadvance with ⟨rfl, -⟩ | ⟨-, hrewrites, hframe⟩
  · exact hfirst
  · refine hfirst.rewrites hrewrites (by rw [hframe]) fun hstatus => ?_
    exact (hfirst row hmem' hstatus).of_origin rfl

/-- An admission leaves fewer pending tasks. -/
theorem reserveSubmissions {limit : ℤ} {batch : List TaskRecord} (h : PendingLinked store)
    (hrun : SwarmStore.reserveSubmissions limit now store = .ok (batch, store')) : PendingLinked store' := by
  obtain ⟨admitted, -, hchain, -⟩ := reserveSubmissions_eq_ok hrun
  intro r hr hstatus
  rw [hchain.rows_eq] at hr
  obtain ⟨r₀, hr₀, rfl⟩ := List.mem_map.mp hr
  have hcomponents : store'.components = store.components := by rw [hchain.frame]
  split at hstatus
  · cases hstatus
  · rename_i hout
    rw [if_neg hout]
    exact (h r₀ hr₀ hstatus).of_components hcomponents

/-- A call that supersedes no pending task keeps pending tasks linked. -/
theorem run {call : Call} {result : call.Result} (h : PendingLinked store)
    (hallowed : supersedesNoPending store call) (hrun : call.run now store = .ok (result, store')) :
    PendingLinked store' := by
  by_cases htasks : StoreTable.tasks ∈ call.tables
  · have hobserved (executorStatus : String) : taskStatus executorStatus ≠ .pending :=
      (taskStatus_ne executorStatus).1
    cases call with
    | submitTask spec =>
      rcases insertTask_cases hrun with ⟨-, -, -, rfl⟩ | ⟨-, -, hrows, hframe⟩
      · exact h
      · intro r hr hstatus
        refine IsCurrent.of_components (by rw [hframe]) ?_
        rcases List.mem_append.mp (hrows ▸ hr) with hr | hr
        · exact h r hr hstatus
        · rw [List.mem_singleton.mp hr]
          rintro w ⟨⟩
    | reserveSubmissions limit => exact h.reserveSubmissions hrun
    | bindJob taskId jobId status =>
      obtain ⟨row, -, -, -, hrewrites, hframe⟩ := bindJob_eq_ok hrun
      exact h.rewrites hrewrites (by rw [hframe]) fun hstatus => by cases hstatus
    | resetSubmission taskId reason =>
      obtain ⟨row, hid, -, -, hrewrites, hframe⟩ := resetSubmission_eq_ok hrun
      refine h.rewrites hrewrites (by rw [hframe]) fun _ => ?_
      exact IsCurrent.of_origin (hallowed row (task?_eq_some.mpr ⟨hrewrites.mem, hid⟩)) rfl
    | failTask taskId reason =>
      obtain ⟨row, -, hreported⟩ := failTask_eq_ok hrun
      exact h.rewrites hreported.rewrites (by rw [hreported.frame]) fun hstatus => by cases hstatus
    | observeJob taskId job =>
      obtain ⟨row, -, hreported⟩ := observeJob_eq_ok hrun
      exact h.rewrites hreported.rewrites (by rw [hreported.frame]) fun hstatus => absurd hstatus (hobserved _)
    | recordCheckpoint taskId checkpoint => exact h.recordCheckpoint hrun
    | submitWorkflow spec components initialState =>
      obtain ⟨workflows, -, hinsert⟩ := submitWorkflow_steps hrun
      have hsame : PendingLinked { store with workflows } := h
      exact hsame.insertComponents hinsert
    | replaceComponent workflowId component => exact h.replaceComponent hallowed hrun
    | _ => simp [Call.tables] at htasks
  · have hsame : store'.tasks = store.tasks := Call.frame hrun htasks
    have htable : StoreTable.components ∉ call.tables := by
      cases call <;> first | exact htasks | simp [Call.tables] at htasks ⊢
    have hcomponents : store'.components = store.components := Call.frame hrun htable
    intro r hr hstatus
    exact (h r (hsame ▸ hr) hstatus).of_components hcomponents

end PendingLinked

/-- In every history whose replacements take no link away from a pending task and whose resets send no
superseded task back to pending, every admitted task of a workflow is the one that the workflow links
under its component key. -/
theorem admits_only_linked {store store' : SwarmStore} {limit : ℤ} {now : Time} {batch : List TaskRecord}
    (h : History supersedesNoPending .empty store)
    (hrun : (Call.reserveSubmissions limit).run now store = .ok (batch, store')) :
    ∀ task ∈ batch, ∀ workflowId, task.workflowId = some workflowId → ∃ link ∈ store'.components.rows,
      link.workflowId = workflowId ∧ task.componentKey = some link.componentKey ∧ link.taskId = task.taskId := by
  have hpending : PendingLinked store :=
    h.invariant (I := PendingLinked) (fun _ _ _ _ _ hallowed hrun hlinked => hlinked.run hallowed hrun)
      fun row hrow => by cases hrow
  obtain ⟨admitted, -, hchain, rfl⟩ := reserveSubmissions_eq_ok hrun
  intro task htask workflowId hworkflow
  obtain ⟨row, hrow, rfl⟩ := List.mem_map.mp htask
  obtain ⟨hmem, hstatus⟩ := hchain.mem_pending hrow
  have hcomponents : store'.components = store.components := by rw [hchain.frame]
  rw [hcomponents]
  exact hpending row hmem hstatus workflowId hworkflow

/-- A child that has a job is replaced, and the new child is admitted. -/
theorem admits_only_linked_replaced : ∃ (store : SwarmStore) (batch : List TaskRecord) (store' : SwarmStore),
    (Call.reserveSubmissions 32).run 5 store = .ok (batch, store') ∧ batch.map (·.taskId) = ["t1"] ∧
      ∀ task ∈ batch, ∀ workflowId, task.workflowId = some workflowId → ∃ link ∈ store'.components.rows,
        link.workflowId = workflowId ∧ task.componentKey = some link.componentKey ∧ link.taskId = task.taskId := by
  let calls : List (Call × Time) :=
    [(.submitWorkflow (treeWorkflow "w1") [trainComponent "t0" 0] Dict.empty, 0), (.reserveSubmissions 32, 1),
      (.bindJob "t0" "7" "PENDING", 2), (.replaceComponent "w1" (trainComponent "t1" 1), 3)]
  have hpermits : SwarmStore.empty.Permits supersedesNoPending calls := by decide +kernel
  have hcheck : ((Call.reserveSubmissions 32).run 5 (SwarmStore.empty.after calls)).toOption.any
      (fun p => decide (p.1.map (·.taskId) = ["t1"])) = true := by decide +kernel
  obtain ⟨⟨batch, store'⟩, hrun, hids⟩ := (Option.any_eq_true _ _).mp hcheck
  rw [toOption_eq_some] at hrun
  exact ⟨_, batch, store', hrun, of_decide_eq_true hids,
    admits_only_linked (SwarmStore.history_after hpermits) hrun⟩

/-- A handler that wants the next generation of its only child after each event. -/
def replacingHandler : MultiAutoResumable where
  initialState _ := .ok (Dict.ofList [("count", .int 0)])
  reduce state _ := .ok (state.set "count" (.int 1))
  desiredComponents _ state := .ok [if state.get? "count" = some (.int 0) then trainComponent "t0" 0
    else trainComponent "t1" 1]

/-- A registry with this handler and a handler for its tasks. -/
def replacingRegistry : TaskRegistry where
  tasks := Dict.ofList [("train", { managedJob := fun _ _ => .error ⟨.value, "undefined"⟩ })]
  workflows := Dict.ofList [("tree", replacingHandler)]

/-- The child reaches a barrier before it is launched, and the reconciliation replaces it. -/
def replacingCommands : List (EngineCommand Unit) :=
  [.other (.submitWorkflow (treeWorkflow "w1") [trainComponent "t0" 0] (Dict.ofList [("count", .int 0)])) 0,
    .other (.recordCheckpoint "t0" ⟨"gs://checkpoints/1", 1, Dict.empty⟩) 1, .other (.commitBarrier "w1" 1 none) 2,
    .begin () "w1", .store () 3, .store () 3, .store () 3, .store () 3, .store () 3]

/-- The next admission takes both the child and the one it was replaced by. -/
theorem superseded_child_admitted : ∃ s : (reconciliations Unit replacingRegistry).State,
    (reconciliations Unit replacingRegistry).Run (reconciliationsInitial Unit replacingRegistry) s ∧
    ∃ (batch : List TaskRecord) (store' : SwarmStore),
      (Call.reserveSubmissions 32).run 4 s.world.store = .ok (batch, store') ∧
      ∃ task ∈ batch, task.workflowId = some "w1" ∧ ∀ link ∈ store'.components.rows, link.taskId ≠ task.taskId := by
  have hcheck : (Pool.plays (enginePlay replacingRegistry) replacingCommands
      (reconciliationsInitial Unit replacingRegistry)).any (fun s =>
        ((Call.reserveSubmissions 32).run 4 s.world.store).toOption.any
          fun (p : List TaskRecord × SwarmStore) => decide (∃ task ∈ p.1, task.workflowId = some "w1" ∧
            ∀ link ∈ p.2.components.rows, link.taskId ≠ task.taskId)) = true := by
    decide +kernel
  obtain ⟨s, hs, hbatch⟩ := (Option.any_eq_true _ _).mp hcheck
  obtain ⟨⟨batch, store'⟩, hrun, htask⟩ := (Option.any_eq_true _ _).mp hbatch
  exact ⟨s, run_of_enginePlays hs, batch, store', toOption_eq_some.mp hrun, of_decide_eq_true htask⟩

end TPUSwarm
