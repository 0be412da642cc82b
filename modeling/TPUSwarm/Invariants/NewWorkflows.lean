import TPUSwarm.Invariants.Ownership

/-!
# Submitting a workflow whose names are new

When nothing in the store bears the names of a workflow and of its tasks, its submission
succeeds: every component gets a task of its own, and the link of the component leads to it.
-/

namespace TPUSwarm

open Common SwarmStore

/-- Nothing in the store stands at the place of a component or bears a name of its task. -/
structure Unused (store : SwarmStore) (workflowId : String) (component : ComponentSpec) : Prop where
  tasks : ∀ row ∈ store.tasks.rows, row.taskId ≠ component.task.taskId ∧
    row.jobName ≠ executorName component.task.taskId ∧
      row.slot ≠ some (workflowId, component.key, component.generation)
  links : ∀ link ∈ store.components.rows, link.taskId ≠ component.task.taskId ∧
    link.place ≠ (workflowId, component.key)

/-- Two components differ in key, task id and executor job name. -/
structure Differ (a b : ComponentSpec) : Prop where
  keys : a.key ≠ b.key
  ids : a.task.taskId ≠ b.task.taskId
  names : executorName a.task.taskId ≠ executorName b.task.taskId

/-- A workflow is linked to a task for each of its components, and to no task of another workflow. -/
structure LinkedToOwn (store : SwarmStore) (workflowId : String) (components : List ComponentSpec) : Prop where
  linked : ∀ component ∈ components, ∃ link, store.component? workflowId component.key = some link ∧
    link.taskId = component.task.taskId
  own : ∀ link ∈ store.components.rows, link.workflowId = workflowId →
    ∃ row, store.task? link.taskId = some row ∧ row.workflowId = some workflowId

/-- The link of a component to the task it inserts. -/
def componentLink (workflowId : String) (component : ComponentSpec) (now : Time) : ComponentRow :=
  newComponentRow workflowId component (componentRow workflowId component now).toRecord now

/-- What a submission adds to the tasks and the links of a store. -/
structure Adds (now : Time) (workflowId : String) (components : List ComponentSpec) (store store' : SwarmStore) :
    Prop where
  tasks : store'.tasks.rows = store.tasks.rows ++ components.map fun c => componentRow workflowId c now
  links : store'.components.rows = store.components.rows ++ components.map fun c => componentLink workflowId c now

variable {store mid store' : SwarmStore} {workflowId : String} {component : ComponentSpec}
  {components : List ComponentSpec} {now : Time}

namespace Unused

/-- The row of a component with new names clashes with none. -/
theorem no_clash (h : Unused store workflowId component) (hkey : component.task.idempotencyKey = none)
    (now : Time) :
    ∀ row ∈ store.tasks.rows, ¬ Constrained.clash row (componentRow workflowId component now) := by
  intro row hrow hclash
  obtain ⟨hid, hname, hslot⟩ := h.tasks row hrow
  rcases hclash with heq | hshares | hjob | heq | ⟨hw, hk, hg⟩
  · exact hid heq
  · exact hshares.1 (hshares.2.trans hkey)
  · exact hjob.1 hjob.2
  · exact hname heq
  · apply hslot
    rw [TaskRow.slot, hw.2, hk.2, hg.2]
    rfl

/-- So it is inserted. -/
theorem insert_ok (h : Unused store workflowId component) (hkey : component.task.idempotencyKey = none)
    (hfits : component.generation < 2 ^ 63) (now : Time) :
    ∃ tasks, tasks.rows = store.tasks.rows ++ [componentRow workflowId component now] ∧
      insertTask component.task (some workflowId) (some component.key) (some component.generation) now store =
        .ok ((componentRow workflowId component now).toRecord, { store with tasks }) := by
  obtain ⟨tasks, hinsert⟩ := Table.insert?_isSome (h.no_clash hkey now)
  refine ⟨tasks, (Table.insert?_eq_some hinsert).1, ?_⟩
  rw [componentRow] at hinsert
  rw [insertTask_eq _ _ _ (by simpa using hfits), hinsert]
  rfl

/-- And linked. -/
theorem link_ok (h : Unused store workflowId component) (hcomponents : mid.components = store.components)
    (hworkflow : (mid.workflow? workflowId).isSome) (now : Time) : ∃ components,
      components.rows = store.components.rows ++ [componentLink workflowId component now] ∧
        mid.insertComponent (componentLink workflowId component now) = .ok { mid with components } := by
  have hfresh : ∀ link ∈ store.components.rows,
      ¬ Constrained.clash link (componentLink workflowId component now) := by
    intro link hlink hclash
    obtain ⟨hid, hplace⟩ := h.links link hlink
    rcases hclash with hsame | hsame
    · exact hplace (Prod.ext hsame.1 hsame.2)
    · exact hid hsame
  obtain ⟨links, hinsert⟩ := Table.insert?_isSome hfresh
  refine ⟨links, (Table.insert?_eq_some hinsert).1, ?_⟩
  unfold insertComponent
  rw [hcomponents, hinsert]
  refine bind_eq_ok.mpr ⟨links, rfl, ?_⟩
  obtain ⟨row, hrow⟩ := Option.isSome_iff_exists.mp hworkflow
  have hfound : mid.workflow? (componentLink workflowId component now).workflowId = some row := hrow
  rw [hfound]
  rfl

/-- The names of a component stay unused when another one is added. -/
theorem added {other : ComponentSpec} (h : Unused store workflowId component) (hdiffer : Differ other component)
    (htasks : store'.tasks.rows = store.tasks.rows ++ [componentRow workflowId other now])
    (hlinks : store'.components.rows = store.components.rows ++ [componentLink workflowId other now]) :
    Unused store' workflowId component := by
  constructor
  · intro row hrow
    rw [htasks, List.mem_append, List.mem_singleton] at hrow
    rcases hrow with hold | rfl
    · exact h.tasks row hold
    · refine ⟨hdiffer.ids, hdiffer.names, ?_⟩
      rw [slot_componentRow]
      intro hslot
      exact hdiffer.keys (Prod.mk.inj (Prod.mk.inj (Option.some.inj hslot)).2).1
  · intro link hlink
    rw [hlinks, List.mem_append, List.mem_singleton] at hlink
    rcases hlink with hold | rfl
    · exact h.links link hold
    · exact ⟨hdiffer.ids, fun hplace => hdiffer.keys (Prod.mk.inj hplace).2⟩

end Unused

/-- The components of a workflow whose names are new are all inserted and linked. -/
theorem insertComponents_adds (hunused : ∀ c ∈ components, Unused store workflowId c)
    (hkeys : ∀ c ∈ components, c.task.idempotencyKey = none)
    (hfits : ∀ c ∈ components, c.generation < 2 ^ 63) (hdiffer : components.Pairwise Differ)
    (hworkflow : (store.workflow? workflowId).isSome) (now : Time) :
    ∃ store', insertComponents workflowId now components store = .ok store' ∧
      Adds now workflowId components store store' ∧ store'.workflows = store.workflows := by
  induction components generalizing store with
  | nil => exact ⟨store, rfl, ⟨(List.append_nil _).symm, (List.append_nil _).symm⟩, rfl⟩
  | cons c rest ih =>
    obtain ⟨hfirst, hrest⟩ := List.pairwise_cons.mp hdiffer
    have hfresh := hunused c List.mem_cons_self
    obtain ⟨tasks, htasks, hinsert⟩ := hfresh.insert_ok (hkeys c List.mem_cons_self)
      (hfits c List.mem_cons_self) now
    let written : SwarmStore := { store with tasks }
    have hfound : (written.workflow? workflowId).isSome := hworkflow
    have hsame : written.components = store.components := rfl
    obtain ⟨links, hlinks, hlink⟩ := hfresh.link_ok hsame hfound now
    have hothers : ∀ d ∈ rest, Unused { store with tasks := tasks, components := links } workflowId d :=
      fun d hd => (hunused d (List.mem_cons_of_mem c hd)).added (hfirst d hd) htasks hlinks
    obtain ⟨store', hrun, hadds, hsame⟩ :=
      ih hothers (fun d hd => hkeys d (List.mem_cons_of_mem c hd))
        (fun d hd => hfits d (List.mem_cons_of_mem c hd)) hrest hworkflow
    refine ⟨store', ?_, ⟨?_, ?_⟩, hsame⟩
    · exact bind_eq_ok.mpr ⟨_, hinsert, bind_eq_ok.mpr ⟨_, hlink, hrun⟩⟩
    · rw [hadds.tasks, htasks, List.append_assoc]
      rfl
    · rw [hadds.links, hlinks, List.append_assoc]
      rfl

/-- A workflow whose names are new can be submitted. -/
theorem submitWorkflow_adds {spec : WorkflowSpec} {initialState : Mapping}
    (hworkflow : ∀ row ∈ store.workflows.rows, row.workflowId ≠ spec.workflowId)
    (hunused : ∀ c ∈ components, Unused store spec.workflowId c)
    (hkeys : ∀ c ∈ components, c.task.idempotencyKey = none)
    (hfits : ∀ c ∈ components, c.generation < 2 ^ 63) (hdiffer : components.Pairwise Differ) (now : Time) :
    ∃ store', submitWorkflow spec components initialState now store =
        .ok ((newWorkflowRow spec initialState now).toRecord, store') ∧
      Adds now spec.workflowId components store store' ∧
        store'.workflows.rows = store.workflows.rows ++ [newWorkflowRow spec initialState now] := by
  have hfresh : ∀ row ∈ store.workflows.rows, ¬ Constrained.clash row (newWorkflowRow spec initialState now) :=
    hworkflow
  obtain ⟨workflows, hinsert⟩ := Table.insert?_isSome hfresh
  have hrows := (Table.insert?_eq_some hinsert).1
  have hfound : ∀ store' : SwarmStore, store'.workflows = workflows →
      store'.workflow? spec.workflowId = some (newWorkflowRow spec initialState now) := by
    intro store' hsame
    apply workflow?_eq_some.mpr
    rw [hsame, hrows]
    exact ⟨List.mem_append_right _ List.mem_cons_self, rfl⟩
  have hunused' : ∀ c ∈ components, Unused { store with workflows } spec.workflowId c :=
    fun c hc => ⟨(hunused c hc).tasks, (hunused c hc).links⟩
  obtain ⟨store', hrun, hadds, hsame⟩ := insertComponents_adds hunused' hkeys hfits hdiffer
    (Option.isSome_iff_exists.mpr ⟨_, hfound { store with workflows } rfl⟩) now
  refine ⟨store', ?_, ⟨hadds.tasks, hadds.links⟩, by rw [hsame, hrows]⟩
  unfold submitWorkflow
  rw [hinsert]
  refine bind_eq_ok.mpr ⟨workflows, rfl, bind_eq_ok.mpr ⟨store', hrun, ?_⟩⟩
  rw [hfound store' hsame]
  rfl

/-- Afterwards it is linked to its own tasks. -/
theorem Adds.linkedToOwn (h : Adds now workflowId components store store')
    (hnone : ∀ link ∈ store.components.rows, link.workflowId ≠ workflowId) :
    LinkedToOwn store' workflowId components := by
  have hlink : ∀ c ∈ components, componentLink workflowId c now ∈ store'.components.rows := by
    intro c hc
    rw [h.links]
    exact List.mem_append_right _ (List.mem_map_of_mem hc)
  have htask : ∀ c ∈ components, store'.task? c.task.taskId = some (componentRow workflowId c now) := by
    intro c hc
    apply task?_eq_some.mpr
    rw [h.tasks]
    exact ⟨List.mem_append_right _ (List.mem_map_of_mem hc), rfl⟩
  constructor
  · intro c hc
    exact ⟨componentLink workflowId c now, component?_eq_some.mpr ⟨hlink c hc, rfl⟩, rfl⟩
  · intro link hmem hworkflow
    rw [h.links, List.mem_append] at hmem
    rcases hmem with hold | hnew
    · exact absurd hworkflow (hnone link hold)
    · obtain ⟨c, hc, rfl⟩ := List.mem_map.mp hnew
      exact ⟨componentRow workflowId c now, htask c hc, rfl⟩

/-- It stays so when another workflow is submitted. -/
theorem LinkedToOwn.added {other : String} {others : List ComponentSpec}
    (h : LinkedToOwn store workflowId components) (hadds : Adds now other others store store')
    (hne : other ≠ workflowId) : LinkedToOwn store' workflowId components := by
  constructor
  · intro c hc
    obtain ⟨link, hlink, hid⟩ := h.linked c hc
    obtain ⟨hmem, hplace⟩ := component?_eq_some.mp hlink
    refine ⟨link, component?_eq_some.mpr ⟨?_, hplace⟩, hid⟩
    rw [hadds.links]
    exact List.mem_append_left _ hmem
  · intro link hmem hworkflow
    rw [hadds.links, List.mem_append] at hmem
    rcases hmem with hold | hnew
    · obtain ⟨row, hrow, hown⟩ := h.own link hold hworkflow
      obtain ⟨hrowMem, hid⟩ := task?_eq_some.mp hrow
      refine ⟨row, task?_eq_some.mpr ⟨?_, hid⟩, hown⟩
      rw [hadds.tasks]
      exact List.mem_append_left _ hrowMem
    · obtain ⟨c, -, rfl⟩ := List.mem_map.mp hnew
      exact absurd hworkflow hne

end TPUSwarm
