import TPUSwarm.Store.Links

/-!
# Links and task rows

Where a task belongs is written twice: in the link of its component and in its own row. The
two agree as long as every task that answers for a component is the component's own. An
insertion is answered with any row of the same key or identifier, so this is a condition on
the calls.
-/

namespace TPUSwarm

open Common SwarmStore

/-- The row names a workflow, a component key of it and a generation. -/
def TaskRow.StandsFor (workflowId key : String) (generation : ℕ) (row : TaskRow) : Prop :=
  row.workflowId = some workflowId ∧ row.componentKey = some key ∧ row.generation = some generation

instance (workflowId key : String) (generation : ℕ) (row : TaskRow) :
    Decidable (row.StandsFor workflowId key generation) := by
  unfold TaskRow.StandsFor
  infer_instance

/-- The task of a link names the place and the generation of the link. -/
def LinkAgrees (store : SwarmStore) (link : ComponentRow) : Prop :=
  ∃ row ∈ store.tasks.rows, row.taskId = link.taskId ∧
    row.StandsFor link.workflowId link.componentKey link.generation

/-- Every link agrees with its task. -/
def LinksAgree (store : SwarmStore) : Prop := ∀ link ∈ store.components.rows, LinkAgrees store link

/-- A row that answers for a component is the component's own. -/
def OwnTask (store : SwarmStore) (workflowId : String) (component : ComponentSpec) : Prop :=
  ∀ row ∈ store.standIn? component.task, row.StandsFor workflowId component.key component.generation

instance (store : SwarmStore) (workflowId : String) (component : ComponentSpec) :
    Decidable (OwnTask store workflowId component) := by
  unfold OwnTask
  infer_instance

/-- The call links no task that belongs elsewhere. -/
def linksOwnTasks : Discretion
  | store, .submitWorkflow spec components _ => ∀ component ∈ components, OwnTask store spec.workflowId component
  | store, .replaceComponent workflowId component =>
    (∀ link ∈ store.component? workflowId component.key, link.generation < component.generation) →
      OwnTask store workflowId component
  | _, _ => True

instance (store : SwarmStore) (call : Call) : Decidable (linksOwnTasks store call) := by
  cases call <;> unfold linksOwnTasks <;> infer_instance

variable {store mid store' : SwarmStore} {now : Time} {workflowId : String} {component : ComponentSpec}

/-- A task that keeps its origin keeps agreeing with its link. -/
theorem LinkAgrees.mono {link : ComponentRow} (h : LinkAgrees store link)
    (hkept : ∀ origin, store.HasOrigin origin → store'.HasOrigin origin) : LinkAgrees store' link := by
  obtain ⟨row, hrow, hid, hw, hk, hg⟩ := h
  obtain ⟨row', hrow', horigin⟩ := hkept row.origin ⟨row, hrow, rfl⟩
  exact ⟨row', hrow', (congrArg TaskOrigin.taskId horigin).trans hid,
    (congrArg TaskOrigin.workflowId horigin).trans hw, (congrArg TaskOrigin.componentKey horigin).trans hk,
    (congrArg TaskOrigin.generation horigin).trans hg⟩

/-- Placing a component whose task is its own keeps the links in agreement. -/
theorem LinksAgree.places {row : TaskRow} {link : ComponentRow} (h : LinksAgree store)
    (hplaces : Places now workflowId component store mid row link) (hown : OwnTask store workflowId component) :
    LinksAgree mid := by
  intro other hother
  rcases (hplaces.mem_iff other).mp hother with rfl | ⟨hold, -⟩
  · have hstands : row.StandsFor workflowId component.key component.generation := by
      rcases hplaces.answers with ⟨hstand, -⟩ | ⟨-, rfl, -⟩
      · exact hown row hstand
      · exact ⟨rfl, rfl, rfl⟩
    have hplace := Prod.mk.inj hplaces.place
    obtain ⟨hgeneration, hid, -⟩ := Linkage.mk.inj hplaces.linkage
    refine ⟨row, hplaces.tasks_iff.mpr (Or.inr rfl), hid.symm, ?_⟩
    rw [hplace.1, hplace.2, hgeneration]
    exact hstands
  · exact (h other hold).mono fun origin ⟨r, hr, horigin⟩ =>
      ⟨r, hplaces.tasks_iff.mpr (Or.inl hr), horigin⟩

/-- The tasks of a store to which components were added: every added one is linked. -/
def AddsLinked (base store : SwarmStore) : Prop :=
  ∀ row ∈ store.tasks.rows, row ∈ base.tasks.rows ∨ ∃ link ∈ store.components.rows, link.taskId = row.taskId

/-- A component that is linked for the first time is answered as it was before the components of its
workflow were added: those are linked already. -/
theorem OwnTask.of_base {base : SwarmStore} {row : TaskRow} {link : ComponentRow}
    (hbase : ∀ r ∈ base.tasks.rows, r ∈ store.tasks.rows) (hadds : AddsLinked base store)
    (hplaces : Places now workflowId component store mid row link)
    (hfresh : ∀ other ∈ store.components.rows, other.place ≠ (workflowId, component.key))
    (hown : OwnTask base workflowId component) : OwnTask store workflowId component := by
  intro found hfound
  rcases hplaces.answers with ⟨hstand, -⟩ | ⟨hnone, -, -⟩
  · obtain rfl := Option.some.inj (hstand.symm.trans hfound)
    obtain ⟨hmem, hkey⟩ := standIn?_eq_some.mp hstand
    rcases hadds row hmem with hold | ⟨other, hother, hid⟩
    · refine hown row (standIn?_eq_some.mpr ⟨hold, hkey.imp_right fun hrest => ⟨?_, hrest.2⟩⟩)
      exact keyed?_eq_none.mpr fun r hr => keyed?_eq_none.mp hrest.1 r (hbase r hr)
    · exact absurd hid (hplaces.only hother (hfresh other hother))
  · rw [hnone] at hfound
    cases hfound

/-- Placing a component keeps the added tasks linked. -/
theorem AddsLinked.places {base : SwarmStore} {row : TaskRow} {link : ComponentRow} (h : AddsLinked base store)
    (hplaces : Places now workflowId component store mid row link)
    (hfresh : ∀ other ∈ store.components.rows, other.place ≠ (workflowId, component.key)) :
    AddsLinked base mid := by
  intro r hr
  rcases hplaces.tasks_iff.mp hr with hr | rfl
  · refine (h r hr).imp_right ?_
    rintro ⟨other, hother, hid⟩
    exact ⟨other, (hplaces.mem_iff other).mpr (Or.inr ⟨hother, hfresh other hother⟩), hid⟩
  · exact Or.inr ⟨link, hplaces.mem_link, congrArg Linkage.taskId hplaces.linkage⟩

/-- Adding components whose tasks are their own keeps the links in agreement. -/
theorem LinksAgree.insertComponents {base : SwarmStore} {components : List ComponentSpec}
    (hbase : ∀ r ∈ base.tasks.rows, r ∈ store.tasks.rows) (hadds : AddsLinked base store)
    (hown : ∀ component ∈ components, OwnTask base workflowId component)
    (hrun : SwarmStore.insertComponents workflowId now components store = .ok store') (h : LinksAgree store) :
    LinksAgree store' := by
  induction components generalizing store with
  | nil =>
    cases hrun
    exact h
  | cons component rest ih =>
    obtain ⟨mid, row, link, hplaces, hfresh, hrest⟩ := insertComponents_cons hrun
    have hfirst := OwnTask.of_base hbase hadds hplaces hfresh (hown component List.mem_cons_self)
    refine ih (fun r hr => hplaces.tasks_iff.mpr (Or.inl (hbase r hr))) (hadds.places hplaces hfresh)
      (fun c hc => hown c (List.mem_cons_of_mem _ hc)) hrest (h.places hplaces hfirst)

/-- A call that links no task from elsewhere keeps the links in agreement. -/
theorem LinksAgree.run {call : Call} {result : call.Result} (h : LinksAgree store)
    (hown : linksOwnTasks store call) (hrun : call.run now store = .ok (result, store')) : LinksAgree store' := by
  by_cases hcomponents : StoreTable.components ∈ call.tables
  · cases call with
    | submitWorkflow spec components initialState =>
      obtain ⟨workflows, -, hinsert⟩ := submitWorkflow_steps hrun
      have hsame : LinksAgree { store with workflows } := h
      have hadds : AddsLinked { store with workflows } { store with workflows } := fun _ hr => Or.inl hr
      exact hsame.insertComponents (fun _ hr => hr) hadds hown hinsert
    | replaceComponent workflowId component =>
      rcases replaceComponent_cases hrun with ⟨_, _, -, -, -, -, rfl⟩ | ⟨hnewer, row, link, -, hplaces⟩
      · exact h
      · exact h.places hplaces (hown hnewer)
    | _ => simp [Call.tables] at hcomponents
  · have hsame : store'.components = store.components := Call.frame hrun hcomponents
    intro link hlink
    exact (h link (hsame ▸ hlink)).mono fun origin horigin => horigin.run hrun

/-- In every state reached by calls that link no task from elsewhere, every link names a task row with
its workflow, its key and its generation. -/
theorem links_agree {store : SwarmStore} (h : History linksOwnTasks .empty store) :
    ∀ link ∈ store.components.rows, ∃ row ∈ store.tasks.rows, row.taskId = link.taskId ∧
      row.workflowId = some link.workflowId ∧ row.componentKey = some link.componentKey ∧
        row.generation = some link.generation :=
  h.invariant (I := LinksAgree) (fun _ _ _ _ _ hown hrun hagree => hagree.run hown hrun)
    fun link hlink => by cases hlink

/-- A task to train, without a key. -/
def trainTask (taskId : String) : TaskSpec where
  kind := "train"
  resourceClass := "v6e"
  taskId := taskId
  kind_nonempty := isBlank_train
  resourceClass_nonempty := isBlank_v6e

/-- A component that a task stands for. -/
def trainComponent (taskId : String) (generation : ℕ) : ComponentSpec where
  key := "trainer"
  task := trainTask taskId
  generation := generation
  key_nonempty := by decide +kernel

/-- A workflow of a kind that decides its components itself. -/
def treeWorkflow (workflowId : String) : WorkflowSpec where
  kind := "tree"
  workflowId := workflowId
  kind_nonempty := isBlank_tree

/-- A workflow whose component is replaced, beside a task of its own. -/
theorem links_agree_replaced : ∃ store, History linksOwnTasks .empty store ∧
    (store.components.rows.map fun link => (link.place, link.generation, link.taskId)) =
      [(("w1", "trainer"), 1, "t1")] ∧
    ∀ link ∈ store.components.rows, ∃ row ∈ store.tasks.rows, row.taskId = link.taskId ∧
      row.workflowId = some link.workflowId ∧ row.componentKey = some link.componentKey ∧
        row.generation = some link.generation := by
  have hpermits : SwarmStore.empty.Permits linksOwnTasks
      [(.submitTask (trainTask "t"), 0),
        (.submitWorkflow (treeWorkflow "w1") [trainComponent "t0" 0] Dict.empty, 1),
        (.replaceComponent "w1" (trainComponent "t1" 1), 2)] := by decide +kernel
  refine ⟨_, SwarmStore.history_after hpermits, by decide +kernel, ?_⟩
  exact links_agree (SwarmStore.history_after hpermits)

/-- A workflow names the identifier of a task that was submitted on its own: its link is to a task that
belongs to no workflow. -/
theorem link_to_standalone_task : ∃ store, History anyCall .empty store ∧
    ∃ link ∈ store.components.rows, ∀ row ∈ store.tasks.rows, row.taskId = link.taskId → row.workflowId = none := by
  refine ⟨_, SwarmStore.history_any .empty [(.submitTask (trainTask "t"), 0),
    (.submitWorkflow (treeWorkflow "w1") [trainComponent "t" 0] Dict.empty, 1)], ?_⟩
  decide +kernel

end TPUSwarm
