import TPUSwarm.Store.Generations
import TPUSwarm.Store.Progress

/-!
# Names that belong to one generation of a component

Replacing a component collides with nothing as long as every task id and every idempotency
key in use belongs to one generation of one component, or to tasks outside of workflows. What
carries this over any calls is that a task row of a generation exists only once the link of
its component has reached this generation.
-/

namespace TPUSwarm

open Common SwarmStore

/-- A generation of a component of a workflow. -/
abbrev Slot := String × String × ℕ

/-- What each name in use belongs to. Executor names tell the task ids in use apart. -/
structure Ownership where
  ids : Set String
  tasks : String → Option Slot
  keys : String → Option Slot
  distinct : Set.InjOn executorName ids

namespace Ownership

/-- The names of a specification belong where it is used. -/
def Owns (o : Ownership) (slot : Option Slot) (spec : TaskSpec) : Prop :=
  spec.taskId ∈ o.ids ∧ o.tasks spec.taskId = slot ∧ ∀ key, spec.idempotencyKey = some key → o.keys key = slot

/-- The names of a component belong to it, and its generation fits the column of generations. -/
structure OwnsComponent (o : Ownership) (workflowId : String) (component : ComponentSpec) : Prop where
  names : o.Owns (some (workflowId, component.key, component.generation)) component.task
  fits : component.generation < 2 ^ 63

/-- The call uses names only where they belong. -/
def Respects (o : Ownership) : Discretion
  | _, .submitTask spec => o.Owns none spec
  | _, .submitWorkflow spec components _ => ∀ component ∈ components, o.OwnsComponent spec.workflowId component
  | _, .replaceComponent workflowId component => o.OwnsComponent workflowId component
  | _, _ => True

end Ownership

/-- The generation of a component that a task row is for. -/
def TaskRow.slot (row : TaskRow) : Option Slot :=
  match row.workflowId, row.componentKey, row.generation with
  | some workflowId, some key, some generation => some (workflowId, key, generation)
  | _, _, _ => none

/-- A row has a slot if it has a workflow, a component and a generation. -/
theorem TaskRow.slot_eq_some {row : TaskRow} {workflowId key : String} {generation : ℕ} :
    row.slot = some (workflowId, key, generation) ↔
      row.workflowId = some workflowId ∧ row.componentKey = some key ∧ row.generation = some generation := by
  unfold slot
  split
  · rename_i hw hk hg
    simp [hw, hk, hg]
  · rename_i hnone
    simp only [reduceCtorEq, false_iff, not_and]
    exact fun hw hk hg => hnone _ _ _ hw hk hg

/-- A generation of a component has at most one task. -/
theorem slot_unique {store : SwarmStore} {a b : TaskRow} (ha : a ∈ store.tasks.rows) (hb : b ∈ store.tasks.rows)
    {slot : Slot} (hslotA : a.slot = some slot) (hslotB : b.slot = some slot) : a = b := by
  obtain ⟨hwA, hkA, hgA⟩ := TaskRow.slot_eq_some.mp hslotA
  obtain ⟨hwB, hkB, hgB⟩ := TaskRow.slot_eq_some.mp hslotB
  apply store.tasks.eq_of_clash ha hb
  refine Or.inr (Or.inr (Or.inr (Or.inr ⟨?_, ?_, ?_⟩)))
  · rw [hwA, hwB, sharesValue_some]
  · rw [hkA, hkB, sharesValue_some]
  · rw [hgA, hgB, sharesValue_some]

/-- The columns that the insertion of a task writes and nothing writes again. -/
structure Inscription where
  origin : TaskOrigin
  kind : String
  resourceClass : String
  payloadJson : JsonText
  metadataJson : JsonText
  priority : Priority
  recoveryPriority : Priority
  jobName : String
  createdAt : Time

/-- The inscription of a row. -/
def TaskRow.inscription (row : TaskRow) : Inscription :=
  ⟨row.origin, row.kind, row.resourceClass, row.payloadJson, row.metadataJson, row.priority,
    row.recoveryPriority, row.jobName, row.createdAt⟩

/-- No call touches the inscription of a row. -/
theorem TaskRow.inscription_untouched : Untouched TaskRow.inscription :=
  ⟨fun _ _ => rfl, fun _ _ _ _ => rfl, fun _ _ _ => rfl, fun _ _ _ => rfl, fun _ _ _ => rfl⟩

/-- The row that a component inserts. -/
def componentRow (workflowId : String) (component : ComponentSpec) (now : Time) : TaskRow :=
  newTaskRow component.task (some workflowId) (some component.key) (some component.generation) now

/-- The row of a component has its slot. -/
@[simp] theorem slot_componentRow (workflowId : String) (component : ComponentSpec) (now : Time) :
    (componentRow workflowId component now).slot = some (workflowId, component.key, component.generation) := rfl

/-- A row with the same inscription is for the same generation. -/
theorem TaskRow.slot_congr {row row' : TaskRow} (h : row'.inscription = row.inscription) :
    row'.slot = row.slot := by
  have horigin : row'.origin = row.origin := congrArg Inscription.origin h
  have hw : row'.workflowId = row.workflowId := congrArg TaskOrigin.workflowId horigin
  have hk : row'.componentKey = row.componentKey := congrArg TaskOrigin.componentKey horigin
  have hg : row'.generation = row.generation := congrArg TaskOrigin.generation horigin
  rw [slot, slot, hw, hk, hg]

/-- The names of a row belong to what the row is for. -/
structure Ownership.Holds (o : Ownership) (row : TaskRow) : Prop where
  id : row.taskId ∈ o.ids
  task : o.tasks row.taskId = row.slot
  key : ∀ key, row.idempotencyKey = some key → o.keys key = row.slot
  name : row.jobName = executorName row.taskId

namespace Ownership

variable {o : Ownership}

/-- Ownership is about the inscription of a row. -/
theorem Holds.congr {row row' : TaskRow} (h : o.Holds row) (hsame : row'.inscription = row.inscription) :
    o.Holds row' := by
  have horigin : row'.origin = row.origin := congrArg Inscription.origin hsame
  have hid : row'.taskId = row.taskId := congrArg TaskOrigin.taskId horigin
  have hkey : row'.idempotencyKey = row.idempotencyKey := congrArg TaskOrigin.idempotencyKey horigin
  have hname : row'.jobName = row.jobName := congrArg Inscription.jobName hsame
  have hslot := TaskRow.slot_congr hsame
  exact ⟨hid ▸ h.id, by rw [hid, hslot, h.task], fun key hk => by rw [hslot, h.key key (hkey ▸ hk)],
    by rw [hname, hid, h.name]⟩

/-- A new row holds its names. -/
theorem Owns.holds {spec : TaskSpec} {workflowId componentKey : Option String} {generation : Option ℕ} {now : Time}
    (h : o.Owns (newTaskRow spec workflowId componentKey generation now).slot spec) :
    o.Holds (newTaskRow spec workflowId componentKey generation now) :=
  ⟨h.1, h.2.1, h.2.2, rfl⟩

end Ownership

/-- Names are where they belong, links have reached every generation that has a task, and lead to the
task of their own generation. -/
structure Orderly (o : Ownership) (store : SwarmStore) : Prop where
  rows : ∀ row ∈ store.tasks.rows, o.Holds row
  newest : ∀ row ∈ store.tasks.rows, ∀ workflowId key generation,
    row.slot = some (workflowId, key, generation) →
      ∃ link, store.component? workflowId key = some link ∧ generation ≤ link.generation
  links : ∀ link ∈ store.components.rows, ∃ row, store.task? link.taskId = some row ∧
    row.slot = some (link.workflowId, link.componentKey, link.generation)
  workflows : ∀ link ∈ store.components.rows, ∃ workflow, store.workflow? link.workflowId = some workflow

namespace Orderly

variable {o : Ownership} {store mid store' : SwarmStore} {workflowId : String} {component : ComponentSpec}
  {now : Time} {row : TaskRow} {link : ComponentRow}

/-- No task is of a generation that the link has not reached. -/
theorem slot_ne (h : Orderly o store) (hrow : row ∈ store.tasks.rows)
    (hnewer : ∀ link, store.component? workflowId component.key = some link →
      link.generation < component.generation) :
    row.slot ≠ some (workflowId, component.key, component.generation) := by
  intro hslot
  obtain ⟨link, hlink, hle⟩ := h.newest row hrow _ _ _ hslot
  exact absurd (hnewer link hlink) (Nat.not_lt.mpr hle)

/-- So none has the names of the component. -/
theorem names_free (h : Orderly o store) (howns : o.OwnsComponent workflowId component)
    (hnewer : ∀ link, store.component? workflowId component.key = some link →
      link.generation < component.generation) (hrow : row ∈ store.tasks.rows) :
    row.taskId ≠ component.task.taskId ∧ ¬ sharesValue component.task.idempotencyKey row.idempotencyKey := by
  have hholds := h.rows row hrow
  constructor
  · intro hid
    apply h.slot_ne hrow hnewer
    rw [← hholds.task, hid, howns.names.2.1]
  · intro hshares
    obtain ⟨key, hkey⟩ := Option.ne_none_iff_exists'.mp hshares.1
    apply h.slot_ne hrow hnewer
    rw [← hholds.key key (hshares.2 ▸ hkey), howns.names.2.2 key hkey]

/-- The row of a component that is newer than its link clashes with none. -/
theorem no_clash (h : Orderly o store) (howns : o.OwnsComponent workflowId component)
    (hnewer : ∀ link, store.component? workflowId component.key = some link →
      link.generation < component.generation) (now : Time) :
    ∀ row ∈ store.tasks.rows, ¬ Constrained.clash row (componentRow workflowId component now) := by
  intro row hrow hclash
  obtain ⟨hid, hkey⟩ := h.names_free howns hnewer hrow
  rcases hclash with heq | hshares | hjob | hname | ⟨hw, hk, hg⟩
  · exact hid heq
  · exact hkey hshares.symm
  · exact hjob.1 hjob.2
  · have hholds := h.rows row hrow
    exact hid (o.distinct hholds.id howns.names.1 (hholds.name.symm.trans hname))
  · apply h.slot_ne hrow hnewer
    rw [TaskRow.slot, hw.2, hk.2, hg.2]
    rfl

/-- A component that is newer than its link is replaced, by a task of its own. -/
theorem replace_ok (h : Orderly o store) (howns : o.OwnsComponent workflowId component)
    (hnewer : ∀ link, store.component? workflowId component.key = some link →
      link.generation < component.generation)
    (hworkflow : ∃ workflow, store.workflow? workflowId = some workflow) (now : Time) :
    ∃ written, replaceComponent workflowId component now store =
      .ok ((componentRow workflowId component now).toRecord, written) := by
  obtain ⟨tasks, hinsert⟩ := Table.insert?_isSome (h.no_clash howns hnewer now)
  have hinserted : insertTask component.task (some workflowId) (some component.key) (some component.generation)
      now store = .ok ((componentRow workflowId component now).toRecord, { store with tasks }) := by
    rw [insertTask_eq _ _ _ (by simpa using howns.fits)]
    rw [componentRow] at hinsert
    rw [hinsert]
    rfl
  have hfree : ∀ link ∈ store.components.rows, link.taskId ≠ component.task.taskId := by
    intro link hlink hid
    obtain ⟨row, hrow, -⟩ := h.links link hlink
    obtain ⟨hmem, hrowId⟩ := task?_eq_some.mp hrow
    exact (h.names_free howns hnewer hmem).1 (hrowId.trans hid)
  obtain ⟨written, hupsert⟩ : ∃ written, ({ store with tasks } : SwarmStore).upsertComponent
      (newComponentRow workflowId component (componentRow workflowId component now).toRecord now) = .ok written :=
    upsertComponent_ok hworkflow hfree
  have hstale : (store.component? workflowId component.key).any (component.generation ≤ ·.generation) = false := by
    cases hlink : store.component? workflowId component.key with
    | none => rfl
    | some link => simpa using hnewer link hlink
  refine ⟨written, ?_⟩
  unfold replaceComponent
  dsimp only
  rw [hstale]
  exact bind_eq_ok.mpr ⟨_, hinserted, bind_eq_ok.mpr ⟨written, hupsert, rfl⟩⟩

/-- A component that is not newer than its link is answered with the linked task. -/
theorem replace_stale (h : Orderly o store) (hlink : store.component? workflowId component.key = some link)
    (hle : component.generation ≤ link.generation) (now : Time) : ∃ row, store.task? link.taskId = some row ∧
      replaceComponent workflowId component now store = .ok (row.toRecord, store) := by
  obtain ⟨row, hrow, -⟩ := h.links link (component?_eq_some.mp hlink).1
  refine ⟨row, hrow, ?_⟩
  unfold replaceComponent
  rw [hlink]
  rw [if_pos (by simpa using hle)]
  exact bind_eq_ok.mpr ⟨row, orRaise_eq_ok.mpr hrow, rfl⟩

/-- Every replacement of a component in a workflow that exists returns. -/
theorem replace_returns (h : Orderly o store) (howns : o.OwnsComponent workflowId component)
    (hworkflow : ∃ workflow, store.workflow? workflowId = some workflow) (now : Time) :
    ∃ task written, replaceComponent workflowId component now store = .ok (task, written) := by
  by_cases hstale : ∃ link, store.component? workflowId component.key = some link ∧
      component.generation ≤ link.generation
  · obtain ⟨link, hlink, hle⟩ := hstale
    obtain ⟨row, -, hrun⟩ := h.replace_stale hlink hle now
    exact ⟨_, _, hrun⟩
  · have hnewer : ∀ link, store.component? workflowId component.key = some link →
        link.generation < component.generation :=
      fun link hlink => Nat.lt_of_not_le fun hle => hstale ⟨link, hlink, hle⟩
    obtain ⟨written, hrun⟩ := h.replace_ok howns hnewer hworkflow now
    exact ⟨_, _, hrun⟩

/-- Placing a component that is newer than its link inserts a task of its own and keeps the order. -/
theorem places (h : Orderly o store) (howns : o.OwnsComponent workflowId component)
    (hnewer : ∀ link, store.component? workflowId component.key = some link →
      link.generation < component.generation)
    (hworkflow : ∃ workflow, store.workflow? workflowId = some workflow)
    (hplaces : Places now workflowId component store mid row link) :
    row = componentRow workflowId component now ∧ Orderly o mid := by
  have hnone : store.standIn? component.task = none := by
    rw [Option.eq_none_iff_forall_ne_some]
    intro found hfound
    obtain ⟨hmem, hkey | ⟨-, hid⟩⟩ := standIn?_eq_some.mp hfound
    · exact (h.names_free howns hnewer hmem).2 hkey
    · exact (h.names_free howns hnewer hmem).1 hid
  have hrow : row = componentRow workflowId component now := by
    rcases hplaces.answers with ⟨hstand, -⟩ | ⟨-, hrow, -⟩
    · rw [hnone] at hstand
      cases hstand
    · exact hrow
  have hslot : row.slot = some (workflowId, component.key, component.generation) := by rw [hrow, slot_componentRow]
  have hlink := component?_places hplaces
  obtain ⟨hgeneration, hid, -⟩ := Linkage.mk.inj hplaces.linkage
  have hfound : ∀ r, r ∈ mid.tasks.rows → mid.task? r.taskId = some r := fun r hr => task?_eq_some.mpr ⟨hr, rfl⟩
  refine ⟨hrow, ?_, ?_, ?_, ?_⟩
  · intro r hr
    rcases hplaces.tasks_iff.mp hr with hold | rfl
    · exact h.rows r hold
    · rw [hrow]
      exact Ownership.Owns.holds howns.names
  · intro r hr w k g hg
    rw [hlink w k]
    rcases hplaces.tasks_iff.mp hr with hold | rfl
    · obtain ⟨old, hold, hle⟩ := h.newest r hold w k g hg
      split_ifs with hplace
      · obtain ⟨rfl, rfl⟩ := Prod.mk.inj hplace
        have hlt := hnewer old hold
        exact ⟨link, rfl, by omega⟩
      · exact ⟨old, hold, hle⟩
    · obtain ⟨rfl, hrest⟩ := Prod.mk.inj (Option.some.inj (hg.symm.trans hslot))
      obtain ⟨rfl, rfl⟩ := Prod.mk.inj hrest
      exact ⟨link, if_pos rfl, hgeneration.ge⟩
  · intro other hother
    rcases (hplaces.mem_iff other).mp hother with rfl | ⟨hold, -⟩
    · obtain ⟨hw, hk⟩ := Prod.mk.inj hplaces.place
      exact ⟨row, hid ▸ hfound row (hplaces.tasks_iff.mpr (Or.inr rfl)), by rw [hslot, hw, hk, hgeneration]⟩
    · obtain ⟨r, hr, hrslot⟩ := h.links other hold
      obtain ⟨hmem, hrid⟩ := task?_eq_some.mp hr
      exact ⟨r, task?_eq_some.mpr ⟨hplaces.tasks_iff.mpr (Or.inl hmem), hrid⟩, hrslot⟩
  · intro other hother
    have hsame : mid.workflows = store.workflows := by rw [hplaces.frame]
    rw [workflow?, hsame]
    rcases (hplaces.mem_iff other).mp hother with rfl | ⟨hold, -⟩
    · rw [(Prod.mk.inj hplaces.place).1]
      exact hworkflow
    · exact h.workflows other hold

/-- A call that adds neither tasks nor links keeps the order. -/
theorem of_kept (h : Orderly o store)
    (hrows : store'.tasks.rows.map TaskRow.inscription = store.tasks.rows.map TaskRow.inscription)
    (hcomponents : store'.components = store.components)
    (hworkflows : ∀ w row, store.workflow? w = some row → ∃ row', store'.workflow? w = some row') :
    Orderly o store' := by
  have hold : ∀ r' ∈ store'.tasks.rows, ∃ r ∈ store.tasks.rows, r'.inscription = r.inscription := by
    intro r' hr'
    have hmem : r'.inscription ∈ store.tasks.rows.map TaskRow.inscription := hrows ▸ List.mem_map_of_mem hr'
    obtain ⟨r, hr, heq⟩ := List.mem_map.mp hmem
    exact ⟨r, hr, heq.symm⟩
  have hnew : ∀ r ∈ store.tasks.rows, ∃ r' ∈ store'.tasks.rows, r'.inscription = r.inscription := by
    intro r hr
    have hmem : r.inscription ∈ store'.tasks.rows.map TaskRow.inscription := hrows ▸ List.mem_map_of_mem hr
    exact List.mem_map.mp hmem
  constructor
  · intro r' hr'
    obtain ⟨r, hr, hsame⟩ := hold r' hr'
    exact (h.rows r hr).congr hsame
  · intro r' hr' w k g hslot
    obtain ⟨r, hr, hsame⟩ := hold r' hr'
    rw [component?, hcomponents]
    exact h.newest r hr w k g (TaskRow.slot_congr hsame ▸ hslot)
  · intro link hlink
    obtain ⟨r, hr, hslot⟩ := h.links link (hcomponents ▸ hlink)
    obtain ⟨hmem, hid⟩ := task?_eq_some.mp hr
    obtain ⟨r', hr', hsame⟩ := hnew r hmem
    have hid' : r'.taskId = r.taskId := congrArg (fun i => i.origin.taskId) hsame
    exact ⟨r', task?_eq_some.mpr ⟨hr', hid'.trans hid⟩, (TaskRow.slot_congr hsame).trans hslot⟩
  · intro link hlink
    obtain ⟨workflow, hworkflow⟩ := h.workflows link (hcomponents ▸ hlink)
    exact hworkflows _ _ hworkflow

/-- A task outside of workflows keeps the order. -/
theorem submitTask {spec : TaskSpec} {task : TaskRecord} (h : Orderly o store) (howns : o.Owns none spec)
    (hrun : insertTask spec none none none now store = .ok (task, store')) : Orderly o store' := by
  rcases insertTask_cases hrun with ⟨-, -, -, rfl⟩ | ⟨-, -, hrows, hframe⟩
  · exact h
  · have hmem (r : TaskRow) :
        r ∈ store'.tasks.rows ↔ r ∈ store.tasks.rows ∨ r = newTaskRow spec none none none now := by
      rw [hrows, List.mem_append, List.mem_singleton]
    have hcomponents : store'.components = store.components := by rw [hframe]
    have hworkflows : store'.workflows = store.workflows := by rw [hframe]
    constructor
    · intro r hr
      rcases (hmem r).mp hr with hold | rfl
      · exact h.rows r hold
      · exact Ownership.Owns.holds howns
    · intro r hr w k g hslot
      rw [component?, hcomponents]
      rcases (hmem r).mp hr with hold | rfl
      · exact h.newest r hold w k g hslot
      · cases hslot
    · intro link hlink
      obtain ⟨r, hr, hslot⟩ := h.links link (hcomponents ▸ hlink)
      obtain ⟨hold, hid⟩ := task?_eq_some.mp hr
      exact ⟨r, task?_eq_some.mpr ⟨(hmem r).mpr (Or.inl hold), hid⟩, hslot⟩
    · intro link hlink
      rw [workflow?, hworkflows]
      exact h.workflows link (hcomponents ▸ hlink)

/-- The components of a new workflow keep the order. -/
theorem insertComponents {components : List ComponentSpec} (h : Orderly o store)
    (howns : ∀ component ∈ components, o.OwnsComponent workflowId component)
    (hworkflow : ∃ workflow, store.workflow? workflowId = some workflow)
    (hrun : SwarmStore.insertComponents workflowId now components store = .ok store') : Orderly o store' := by
  induction components generalizing store with
  | nil =>
    cases hrun
    exact h
  | cons component rest ih =>
    obtain ⟨mid, row, link, hplaces, hfresh, hrest⟩ := insertComponents_cons hrun
    have hnewer : ∀ link, store.component? workflowId component.key = some link →
        link.generation < component.generation := by
      intro link hlink
      obtain ⟨hmem, hplace⟩ := component?_eq_some.mp hlink
      exact absurd hplace (hfresh link hmem)
    obtain ⟨-, hmid⟩ := h.places (howns component List.mem_cons_self) hnewer hworkflow hplaces
    have hsame : mid.workflows = store.workflows := by rw [hplaces.frame]
    refine ih hmid (fun c hc => howns c (List.mem_cons_of_mem _ hc)) ?_ hrest
    rw [workflow?, hsame]
    exact hworkflow

/-- The row of a new workflow keeps the order, and is there for its components. -/
theorem addWorkflow {spec : WorkflowSpec} {initialState : Mapping} {workflows : Table WorkflowRow}
    (h : Orderly o store) (hinsert : store.workflows.insert? (newWorkflowRow spec initialState now) =
      some workflows) :
    Orderly o { store with workflows } ∧
      ∃ workflow, ({ store with workflows } : SwarmStore).workflow? spec.workflowId = some workflow := by
  have hrows := (Table.insert?_eq_some hinsert).1
  constructor
  · refine h.of_kept rfl rfl fun w row hrow => ⟨row, ?_⟩
    obtain ⟨hmem, hid⟩ := workflow?_eq_some.mp hrow
    exact workflow?_eq_some.mpr ⟨hrows ▸ List.mem_append_left _ hmem, hid⟩
  · refine ⟨newWorkflowRow spec initialState now, ?_⟩
    exact workflow?_eq_some.mpr ⟨hrows ▸ List.mem_append_right _ List.mem_cons_self, rfl⟩

/-- Every call that uses names where they belong keeps the order. -/
theorem run {call : Call} {result : call.Result} (h : Orderly o store) (howns : o.Respects store call)
    (hrun : call.run now store = .ok (result, store')) : Orderly o store' := by
  cases hinserts : call.insertsTasks with
  | true =>
    cases call with
    | submitTask spec => exact h.submitTask howns hrun
    | submitWorkflow spec components initialState =>
      obtain ⟨workflows, hinsert, hrest⟩ := submitWorkflow_steps hrun
      obtain ⟨hadded, hworkflow⟩ := h.addWorkflow hinsert
      exact hadded.insertComponents howns hworkflow hrest
    | replaceComponent workflowId component =>
      rcases replaceComponent_cases hrun with ⟨-, -, -, -, -, -, rfl⟩ | ⟨hnewer, row, link, -, hplaces⟩
      · exact h
      · exact (h.places howns hnewer (replaceComponent_workflow h.workflows hrun) hplaces).2
    | _ => cases hinserts
  | false =>
    have htables : StoreTable.components ∉ call.tables := by
      cases call <;> first | (cases hinserts; done) | simp [Call.tables]
    have hcomponents : store'.components = store.components := Call.frame hrun htables
    refine h.of_kept (TaskRow.inscription_untouched.kept (fun _ _ _ _ _ _ => rfl) hinserts hrun) hcomponents ?_
    intro w row hrow
    rcases Call.workflow_after hrun hrow with hkept | ⟨write, -, hwritten⟩
    · exact ⟨row, hkept⟩
    · exact ⟨write row, hwritten⟩

end Orderly

/-- A row keeps its inscription whatever is called. -/
theorem Call.keeps_inscription {call : Call} {now : Time} {store store' : SwarmStore} {result : call.Result}
    (hrun : call.run now store = .ok (result, store')) {row : TaskRow} (hrow : row ∈ store.tasks.rows) :
    ∃ row' ∈ store'.tasks.rows, row'.inscription = row.inscription := by
  obtain ⟨added, hadded, -⟩ := TaskRow.inscription_untouched.run (fun _ _ _ _ _ _ => rfl) hrun
  have hmem : row.inscription ∈ store'.tasks.rows.map TaskRow.inscription :=
    hadded ▸ List.mem_append_left _ (List.mem_map_of_mem hrow)
  exact List.mem_map.mp hmem

/-- Names stay where they belong along a history. -/
theorem orderly {o : Ownership} {store : SwarmStore} (h : History o.Respects .empty store) : Orderly o store :=
  h.invariant (I := Orderly o) (fun _ _ _ _ _ hallowed hrun hs => hs.run hallowed hrun)
    ⟨fun _ hrow => (by cases hrow), fun _ hrow => (by cases hrow), fun _ hlink => (by cases hlink),
      fun _ hlink => (by cases hlink)⟩

end TPUSwarm
