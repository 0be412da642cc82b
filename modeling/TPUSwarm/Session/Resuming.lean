import TPUSwarm.Engine.Replay
import TPUSwarm.Session.Stopping
import TPUSwarm.Store.Timeless

/-!
# A reconciliation that is run again

A reconciliation that is run again after it was cut off finds the same plan, and reads the
components anew. A component that it finds outdated only now is linked already. So its loop
goes on as the first one would have, unless it finds a component up to date that is neither
linked nor was up to date before.
-/

namespace TPUSwarm

open Common SwarmStore

/-- What a handler decides does not depend on timestamps. -/
structure MultiAutoResumable.IgnoresTimes (handler : MultiAutoResumable) : Prop where
  desires : ∀ (workflow workflow' : WorkflowRecord) (state : Mapping), workflow.timeless = workflow'.timeless →
    handler.desiredComponents workflow state = handler.desiredComponents workflow' state
  completes : ∀ (workflow workflow' : WorkflowRecord) (state : Mapping) (tasks tasks' : Dict String TaskRecord),
    workflow.timeless = workflow'.timeless →
    tasks.mapValues TaskRecord.timeless = tasks'.mapValues TaskRecord.timeless →
    handler.completionResult workflow state tasks = handler.completionResult workflow' state tasks'
  fails : ∀ (workflow workflow' : WorkflowRecord) (state : Mapping) (tasks tasks' : Dict String TaskRecord),
    workflow.timeless = workflow'.timeless →
    tasks.mapValues TaskRecord.timeless = tasks'.mapValues TaskRecord.timeless →
    handler.failureReason workflow state tasks = handler.failureReason workflow' state tasks'

/-- The workflow's row, the links and the tasks are the same, timestamps aside. -/
structure SameButTimes (workflowId : String) (a b : SwarmStore) : Prop where
  alike : Alike a b
  workflow : (a.workflow? workflowId).map WorkflowRow.timeless = (b.workflow? workflowId).map WorkflowRow.timeless

/-- The component was to be replaced by the rows read at first. By the rows read now it is not, although it is
not linked in its generation. -/
def Overlooked (store left : SwarmStore) (workflowId : String) (component : ComponentSpec) : Prop :=
  outdated (store.getWorkflowComponents workflowId) component = true ∧
    outdated (left.getWorkflowComponents workflowId) component = false ∧ ¬ Materialized left workflowId component

variable {engine : WorkflowEngine} {store store' left a b a' b' : SwarmStore} {workflowId : String}
  {row row' : WorkflowRow} {current again : Dict String TaskRecord} {component : ComponentSpec}
  {components before after : List ComponentSpec} {trace : List (Sigma Operation.Reply)}
  {handler : MultiAutoResumable} {state : Mapping} {cursor : ℕ}

namespace MultiAutoResumable.IgnoresTimes

/-- Neither does its verdict. -/
theorem verdict (h : handler.IgnoresTimes) {workflow workflow' : WorkflowRecord}
    {tasks tasks' : Dict String TaskRecord}
    (hworkflow : workflow.timeless = workflow'.timeless)
    (htasks : tasks.mapValues TaskRecord.timeless = tasks'.mapValues TaskRecord.timeless) :
    handler.verdict workflow state tasks = handler.verdict workflow' state tasks' := by
  rw [MultiAutoResumable.verdict, MultiAutoResumable.verdict, h.completes _ _ state _ _ hworkflow htasks,
    h.fails _ _ state _ _ hworkflow htasks]

end MultiAutoResumable.IgnoresTimes

/-- Rows that differ in their times still do after they were finished. -/
theorem WorkflowRow.finished_timeless (h : row.timeless = row'.timeless) (status : WorkflowStatus)
    (result : Option Mapping)
    (reason : Option String) (now later : Time) :
    (row.finished status result reason now).timeless = (row'.finished status result reason later).timeless := by
  have hfinished := congrArg (fun row => (row.finished status result reason 0).timeless) h
  exact hfinished

/-- Conclusions of stores that are alike end alike, if the first one returns. -/
theorem Concludes.alike (hignores : handler.IgnoresTimes) (halike : Alike a b)
    (hrow : ∀ now, row.saved state cursor now = row'.saved state cursor now) {record : WorkflowRecord}
    {outcome : Except PyError WorkflowRecord} (h : Concludes handler workflowId state cursor row a (.ok record) a')
    (h' : Concludes handler workflowId state cursor row' b outcome b') :
    (∃ record', outcome = .ok record') ∧ SameButTimes workflowId a' b' := by
  have hsaved (now later : Time) :
      (row.saved state cursor now).timeless = (row'.saved state cursor later).timeless := by
    rw [hrow now]
    rfl
  have hverdicts (now later : Time) : handler.verdict (row.saved state cursor now).toRecord state
      (a.getWorkflowComponents workflowId) = handler.verdict (row'.saved state cursor later).toRecord state
        (b.getWorkflowComponents workflowId) :=
    hignores.verdict (WorkflowRow.toRecord_timeless (hsaved now later)) (halike.getWorkflowComponents workflowId)
  have hend {final final' : WorkflowRow} (hwrites : Updates a a' workflowId final)
      (hwrites' : Updates b b' workflowId final') (hsame : final.timeless = final'.timeless) :
      SameButTimes workflowId a' b' := by
    refine ⟨((Alike.of_tables hwrites.tasks hwrites.components).symm.trans halike).trans
      (.of_tables hwrites'.tasks hwrites'.components), ?_⟩
    rw [hwrites.row, hwrites'.row, Option.map_some, Option.map_some, hsame]
  cases h with
  | @remains clock _ hwrites hverdict =>
    cases h' with
    | raised _ hverdict' => cases hverdict.symm.trans ((hverdicts _ _).trans hverdict')
    | remains hwrites' _ => exact ⟨⟨_, rfl⟩, hend hwrites hwrites' (hsaved _ _)⟩
    | finished _ hverdict' => cases hverdict.symm.trans ((hverdicts _ _).trans hverdict')
  | @finished clock later status result reason _ hwrites hverdict =>
    cases h' with
    | raised _ hverdict' => cases hverdict.symm.trans ((hverdicts _ _).trans hverdict')
    | remains _ hverdict' => cases hverdict.symm.trans ((hverdicts _ _).trans hverdict')
    | finished hwrites' hverdict' =>
      cases hverdict.symm.trans ((hverdicts _ _).trans hverdict')
      exact ⟨⟨_, rfl⟩, hend hwrites hwrites' (WorkflowRow.finished_timeless (hsaved _ _) _ _ _ _ _)⟩

/-- A component that is not outdated has a task of its generation or a greater one. -/
theorem outdated_eq_false (h : outdated current component = false) :
    ∃ task, current.get? component.key = some task ∧ component.generation ≤ task.generation.getD 0 := by
  unfold outdated at h
  cases hget : current.get? component.key with
  | none =>
    rw [hget] at h
    cases h
  | some task =>
    rw [hget] at h
    exact ⟨task, rfl, Nat.not_lt.mp (of_decide_eq_false h)⟩

/-- An outdated component with a task is of a greater generation. -/
theorem outdated_lt {task : TaskRecord} (h : outdated current component = true)
    (htask : current.get? component.key = some task) : task.generation.getD 0 < component.generation := by
  unfold outdated at h
  rw [htask] at h
  exact of_decide_eq_true h

namespace Replaces

/-- The loop keeps the rows of the tasks. -/
theorem task?_kept (h : Replaces engine workflowId current components store store') {taskId : String} {r : TaskRow}
    (hrow : store.task? taskId = some r) : store'.task? taskId = some r := by
  induction h with
  | nil => exact hrow
  | skipped _ _ _ ih => exact ih hrow
  | replaced _ _ hrun _ ih =>
    rcases replaceComponent_cases hrun with ⟨_, _, -, -, -, -, rfl⟩ | ⟨-, placed, link, -, hplaces⟩
    · exact ih hrow
    · obtain ⟨hmem, hid⟩ := task?_eq_some.mp hrow
      exact ih (task?_eq_some.mpr ⟨hplaces.tasks_iff.mpr (Or.inl hmem), hid⟩)

/-- The loop keeps the link of a key for which no component is outdated. -/
theorem component?_kept (h : Replaces engine workflowId current components store store') {key : String}
    (hkey : ∀ component ∈ components, component.key = key → outdated current component = false) :
    store'.component? workflowId key = store.component? workflowId key := by
  induction h with
  | nil => rfl
  | skipped _ _ _ ih => exact ih fun c hc => hkey c (List.mem_cons_of_mem _ hc)
  | @replaced first desired rest _ mid _ task now hvalid houtdated hrun _ ih =>
    rw [ih fun c hc => hkey c (List.mem_cons_of_mem _ hc)]
    rcases replaceComponent_cases hrun with ⟨_, _, -, -, -, -, rfl⟩ | ⟨-, placed, link, -, hplaces⟩
    · rfl
    · rw [component?_places hplaces, if_neg]
      intro hplace
      have hfirst : first.key = key := by
        obtain ⟨payload, rfl⟩ := WorkflowEngine.validatedComponent_eq_ok hvalid
        exact (Prod.mk.inj hplace).2.symm
      rw [outdated_validated hvalid, hkey first List.mem_cons_self hfirst] at houtdated
      cases houtdated

/-- A component that is outdated after the loop only is linked. -/
theorem regress (h : Replaces engine workflowId (store.getWorkflowComponents workflowId) components store store')
    (hbefore : outdated (store.getWorkflowComponents workflowId) component = false)
    (hafter : outdated (store'.getWorkflowComponents workflowId) component = true) :
    Materialized store' workflowId component := by
  obtain ⟨task, htask, hle⟩ := outdated_eq_false hbefore
  by_cases hmoved : ∃ other ∈ components, other.key = component.key ∧
      outdated (store.getWorkflowComponents workflowId) other = true
  · -- the component that moved the link is newer than the task that was read, and this is not older than ours
    obtain ⟨other, hother, hkey, houtdated⟩ := hmoved
    obtain ⟨link, hlink, hgeneration⟩ := h.materialized hother houtdated
    have hlt := outdated_lt houtdated (hkey ▸ htask)
    exact ⟨link, hkey ▸ hlink, by omega⟩
  · have hkept : store'.component? workflowId component.key = store.component? workflowId component.key :=
      h.component?_kept fun other hother hkey =>
        Bool.eq_false_iff.mpr fun houtdated => hmoved ⟨other, hother, hkey, houtdated⟩
    have hsame : (store'.getWorkflowComponents workflowId).get? component.key = some task := by
      rw [getWorkflowComponents_lookup] at htask ⊢
      obtain ⟨link, hlink, hrecord⟩ := Option.bind_eq_some_iff.mp htask
      obtain ⟨r, hr, rfl⟩ := Option.map_eq_some_iff.mp hrecord
      rw [hkept, hlink, Option.bind_some, h.task?_kept hr, Option.map_some]
    exact absurd (outdated_lt hafter hsame) (Nat.not_lt.mpr hle)

end Replaces

end TPUSwarm
