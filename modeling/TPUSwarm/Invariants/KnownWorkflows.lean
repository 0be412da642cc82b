import TPUSwarm.Store.Generations
import TPUSwarm.Store.Progress

/-!
# Tasks and links of workflows that exist

The schema lets the column of a task's workflow hold anything. But tasks get their workflow
only where a component of it is linked, and links have a foreign key, so no task is ever of
a workflow that is not there. Reporting a status relies on it.
-/

namespace TPUSwarm

open Common SwarmStore

/-- The workflows that tasks and links name are there. -/
structure KnownWorkflows (store : SwarmStore) : Prop where
  tasks : ∀ row ∈ store.tasks.rows, ∀ workflowId, row.workflowId = some workflowId →
    ∃ workflow, store.workflow? workflowId = some workflow
  links : ∀ link ∈ store.components.rows, ∃ workflow, store.workflow? link.workflowId = some workflow

namespace KnownWorkflows

variable {store mid store' : SwarmStore} {workflowId : String} {component : ComponentSpec} {now : Time}
  {row : TaskRow} {link : ComponentRow}

/-- A rewrite of rows that keeps where they belong. -/
theorem of_kept (h : KnownWorkflows store)
    (hrows : store'.tasks.rows.map TaskRow.origin = store.tasks.rows.map TaskRow.origin)
    (hcomponents : store'.components = store.components)
    (hworkflows : ∀ w row, store.workflow? w = some row → ∃ row', store'.workflow? w = some row') :
    KnownWorkflows store' := by
  constructor
  · intro row' hrow' w hw
    have hmem : row'.origin ∈ store.tasks.rows.map TaskRow.origin := hrows ▸ List.mem_map_of_mem hrow'
    obtain ⟨row, hrow, hsame⟩ := List.mem_map.mp hmem
    have hworkflow : row.workflowId = row'.workflowId := congrArg TaskOrigin.workflowId hsame
    obtain ⟨workflow, hfound⟩ := h.tasks row hrow w (hworkflow.trans hw)
    exact hworkflows _ _ hfound
  · intro link hlink
    obtain ⟨workflow, hfound⟩ := h.links link (hcomponents ▸ hlink)
    exact hworkflows _ _ hfound

/-- Placing a component of a workflow that is there. -/
theorem places (h : KnownWorkflows store) (hworkflow : ∃ workflow, store.workflow? workflowId = some workflow)
    (hplaces : Places now workflowId component store mid row link) : KnownWorkflows mid := by
  have hsame : mid.workflows = store.workflows := by rw [hplaces.frame]
  constructor
  · intro r hr w hw
    rw [workflow?, hsame]
    rcases hplaces.answers with ⟨-, htasks⟩ | ⟨-, rfl, hrows⟩
    · exact h.tasks r (htasks ▸ hr) w hw
    · rw [hrows, List.mem_append, List.mem_singleton] at hr
      rcases hr with hold | rfl
      · exact h.tasks r hold w hw
      · cases hw
        exact hworkflow
  · intro other hother
    rw [workflow?, hsame]
    rcases (hplaces.mem_iff other).mp hother with rfl | ⟨hold, -⟩
    · rw [show other.workflowId = workflowId from (Prod.mk.inj hplaces.place).1]
      exact hworkflow
    · exact h.links other hold

/-- The components of a new workflow. -/
theorem insertComponents {components : List ComponentSpec} (h : KnownWorkflows store)
    (hworkflow : ∃ workflow, store.workflow? workflowId = some workflow)
    (hrun : SwarmStore.insertComponents workflowId now components store = .ok store') : KnownWorkflows store' := by
  induction components generalizing store with
  | nil =>
    cases hrun
    exact h
  | cons component rest ih =>
    obtain ⟨mid, row, link, hplaces, -, hrest⟩ := insertComponents_cons hrun
    have hsame : mid.workflows = store.workflows := by rw [hplaces.frame]
    apply ih (h.places hworkflow hplaces) _ hrest
    rw [workflow?, hsame]
    exact hworkflow

/-- Every call keeps the workflows known. -/
theorem run {call : Call} {result : call.Result} (h : KnownWorkflows store)
    (hrun : call.run now store = .ok (result, store')) : KnownWorkflows store' := by
  have hworkflows : ∀ w row, store.workflow? w = some row → ∃ row', store'.workflow? w = some row' := by
    intro w row hrow
    rcases Call.workflow_after hrun hrow with hkept | ⟨write, -, hwritten⟩
    · exact ⟨row, hkept⟩
    · exact ⟨write row, hwritten⟩
  cases hinserts : call.insertsTasks with
  | true =>
    cases call with
    | submitTask spec =>
      rcases insertTask_cases hrun with ⟨-, -, -, rfl⟩ | ⟨-, -, hrows, hframe⟩
      · exact h
      · have hcomponents : store'.components = store.components := by rw [hframe]
        refine ⟨fun r hr w hw => ?_, fun link hlink => ?_⟩
        · rw [hrows, List.mem_append, List.mem_singleton] at hr
          rcases hr with hold | rfl
          · obtain ⟨workflow, hfound⟩ := h.tasks r hold w hw
            exact hworkflows _ _ hfound
          · cases hw
        · obtain ⟨workflow, hfound⟩ := h.links link (hcomponents ▸ hlink)
          exact hworkflows _ _ hfound
    | submitWorkflow spec components initialState =>
      obtain ⟨workflows, hinsert, hrest⟩ := submitWorkflow_steps hrun
      have hrows := (Table.insert?_eq_some hinsert).1
      have hadded : KnownWorkflows { store with workflows } := h.of_kept rfl rfl fun w row hrow => by
        obtain ⟨hmem, hid⟩ := workflow?_eq_some.mp hrow
        exact ⟨row, workflow?_eq_some.mpr ⟨hrows ▸ List.mem_append_left _ hmem, hid⟩⟩
      apply hadded.insertComponents _ hrest
      refine ⟨newWorkflowRow spec initialState now, workflow?_eq_some.mpr ⟨?_, rfl⟩⟩
      exact hrows ▸ List.mem_append_right _ List.mem_cons_self
    | replaceComponent workflowId component =>
      rcases replaceComponent_cases hrun with ⟨-, -, -, -, -, -, rfl⟩ | ⟨-, row, link, -, hplaces⟩
      · exact h
      · exact h.places (replaceComponent_workflow h.links hrun) hplaces
    | _ => cases hinserts
  | false =>
    have htables : StoreTable.components ∉ call.tables := by
      cases call <;> first | (cases hinserts; done) | simp [Call.tables]
    exact h.of_kept (TaskRow.origin_untouched.kept (fun _ _ _ _ _ _ => rfl) hinserts hrun) (Call.frame hrun htables)
      hworkflows

end KnownWorkflows

/-- In every state that calls reach, the workflows of all tasks and links are there. -/
theorem known_workflows {store : SwarmStore} (h : History anyCall .empty store) : KnownWorkflows store :=
  h.invariant (I := KnownWorkflows) (fun _ _ _ _ _ _ hrun hs => hs.run hrun)
    ⟨fun _ hrow => (by cases hrow), fun _ hlink => (by cases hlink)⟩

end TPUSwarm
