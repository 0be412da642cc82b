import TPUSwarm.Common.Erasure
import TPUSwarm.Store.Generations
import TPUSwarm.Store.Manifests

/-!
# Stores without their timestamps

Two stores are alike if their tasks and links are the same, timestamps aside. Nothing that a
replacement decides depends on a timestamp, so it has the same outcome in stores that are
alike, whatever the clock says, and leaves stores that are alike.
-/

namespace TPUSwarm

open Common SwarmStore

/-- The row with its times reset. -/
def TaskRow.timeless (row : TaskRow) : TaskRow :=
  { row with
    submissionStartedAt := row.submissionStartedAt.map fun _ => 0, createdAt := 0, updatedAt := 0,
    completedAt := row.completedAt.map fun _ => 0 }

/-- The record with its times reset. -/
def TaskRecord.timeless (task : TaskRecord) : TaskRecord :=
  { task with
    submissionStartedAt := task.submissionStartedAt.map fun _ => 0, createdAt := 0, updatedAt := 0,
    completedAt := task.completedAt.map fun _ => 0 }

/-- The link with its times reset. -/
def ComponentRow.timeless (link : ComponentRow) : ComponentRow := { link with createdAt := 0, updatedAt := 0 }

/-- The row with its times reset. -/
def WorkflowRow.timeless (row : WorkflowRow) : WorkflowRow :=
  { row with createdAt := 0, updatedAt := 0, completedAt := row.completedAt.map fun _ => 0 }

/-- The record with its times reset. -/
def WorkflowRecord.timeless (workflow : WorkflowRecord) : WorkflowRecord :=
  { workflow with createdAt := 0, updatedAt := 0, completedAt := workflow.completedAt.map fun _ => 0 }

/-- Rows that are the same, times aside, have records that are. -/
theorem WorkflowRow.toRecord_timeless {a b : WorkflowRow} (h : a.timeless = b.timeless) :
    a.toRecord.timeless = b.toRecord.timeless := congrArg WorkflowRow.toRecord h

/-- Times aside, a row has its id. -/
theorem TaskRow.taskId_timeless {a b : TaskRow} (h : a.timeless = b.timeless) : a.taskId = b.taskId := by
  have heq := congrArg TaskRow.taskId h
  exact heq

/-- Times aside, a row has its idempotency key. -/
theorem TaskRow.idempotencyKey_timeless {a b : TaskRow} (h : a.timeless = b.timeless) :
    a.idempotencyKey = b.idempotencyKey := by
  have heq := congrArg TaskRow.idempotencyKey h
  exact heq

/-- Times aside, a link has its place. -/
theorem ComponentRow.place_timeless {a b : ComponentRow} (h : a.timeless = b.timeless) : a.place = b.place := by
  have heq := congrArg ComponentRow.place h
  exact heq

/-- Times aside, a link has its linkage. -/
theorem ComponentRow.linkage_timeless {a b : ComponentRow} (h : a.timeless = b.timeless) :
    a.linkage = b.linkage := by
  have heq := congrArg ComponentRow.linkage h
  exact heq

/-- No constraint on tasks is about times. -/
theorem TaskRow.timeless_ignored : Table.Ignores TaskRow.timeless := .of_iff fun _ _ => Iff.rfl

/-- No constraint on links is about times. -/
theorem ComponentRow.timeless_ignored : Table.Ignores ComponentRow.timeless := .of_iff fun _ _ => Iff.rfl

/-- Links that are the same, times aside, are for the same place. -/
theorem samePlace_timeless (workflowId key : String) {a b : ComponentRow} (h : a.timeless = b.timeless) :
    (decide (a.workflowId = workflowId) && decide (a.componentKey = key)) =
      (decide (b.workflowId = workflowId) && decide (b.componentKey = key)) := by
  obtain ⟨hworkflow, hkey⟩ := Prod.mk.inj (ComponentRow.place_timeless h)
  rw [hworkflow, hkey]

/-- The tasks and the links of the stores are the same, timestamps aside. -/
structure Alike (a b : SwarmStore) : Prop where
  tasks : Table.SameUpTo TaskRow.timeless a.tasks b.tasks
  components : Table.SameUpTo ComponentRow.timeless a.components b.components

namespace Alike

variable {a b c a' : SwarmStore} {workflowId : String} {component : ComponentSpec}

/-- A store is like itself. -/
theorem refl (a : SwarmStore) : Alike a a := ⟨.refl _, .refl _⟩

/-- Being alike is symmetric. -/
theorem symm (h : Alike a b) : Alike b a := ⟨h.tasks.symm, h.components.symm⟩

/-- Being alike is transitive. -/
theorem trans (h : Alike a b) (h' : Alike b c) : Alike a c :=
  ⟨h.tasks.trans h'.tasks, h.components.trans h'.components⟩

/-- Stores with the same tables are alike. -/
theorem of_tables (htasks : b.tasks = a.tasks) (hcomponents : b.components = a.components) : Alike a b :=
  ⟨htasks ▸ .refl _, hcomponents ▸ .refl _⟩

/-- The rows of a task. -/
theorem task? (h : Alike a b) (taskId : String) :
    (a.task? taskId).map TaskRow.timeless = (b.task? taskId).map TaskRow.timeless :=
  find?_erased h.tasks fun _ _ hsame => by rw [TaskRow.taskId_timeless hsame]

/-- The links of a key. -/
theorem component? (h : Alike a b) (workflowId key : String) :
    (a.component? workflowId key).map ComponentRow.timeless =
      (b.component? workflowId key).map ComponentRow.timeless :=
  find?_erased h.components fun _ _ hsame => samePlace_timeless workflowId key hsame

/-- The rows that answer for a specification. -/
theorem standIn? (h : Alike a b) (spec : TaskSpec) :
    (a.standIn? spec).map TaskRow.timeless = (b.standIn? spec).map TaskRow.timeless := by
  have hkeyed : (a.keyed? spec.idempotencyKey).map TaskRow.timeless =
      (b.keyed? spec.idempotencyKey).map TaskRow.timeless := by
    cases hkey : spec.idempotencyKey with
    | none => rfl
    | some key => exact find?_erased h.tasks fun _ _ hsame => by rw [TaskRow.idempotencyKey_timeless hsame]
  rw [SwarmStore.standIn?, SwarmStore.standIn?, Option.orElse_eq_or, Option.orElse_eq_or, Option.map_or,
    Option.map_or, hkeyed, h.task?]

/-- A component is linked in both or in neither. -/
theorem materialized (h : Alike a b) (hlinked : Materialized a workflowId component) :
    Materialized b workflowId component := by
  obtain ⟨link, hlink, hle⟩ := hlinked
  have hsame := h.component? workflowId component.key
  rw [hlink, Option.map_some] at hsame
  obtain ⟨link', hlink', htimeless⟩ := Option.map_eq_some_iff.mp hsame.symm
  exact ⟨link', hlink', hle.trans_eq (congrArg Linkage.generation (ComponentRow.linkage_timeless htimeless)).symm⟩

/-- The components of a workflow. -/
theorem getWorkflowComponents (h : Alike a b) (workflowId : String) :
    (a.getWorkflowComponents workflowId).mapValues TaskRecord.timeless =
      (b.getWorkflowComponents workflowId).mapValues TaskRecord.timeless := by
  refine Dict.ext_get? fun key => ?_
  have hrecord (s : SwarmStore) (taskId : String) :
      ((s.task? taskId).map (TaskRow.linkedRecord key)).map TaskRecord.timeless =
        ((s.task? taskId).map TaskRow.timeless).map (TaskRow.linkedRecord key) := by
    rw [Option.map_map, Option.map_map]
    rfl
  have hlinks := h.component? workflowId key
  rw [Dict.get?_mapValues, Dict.get?_mapValues, getWorkflowComponents_lookup, getWorkflowComponents_lookup]
  cases hlink : a.component? workflowId key with
  | none =>
    rw [hlink, Option.map_none] at hlinks
    rw [Option.map_eq_none_iff.mp hlinks.symm, Option.bind_none, Option.bind_none]
  | some link =>
    rw [hlink, Option.map_some] at hlinks
    obtain ⟨link', hlink', hsame⟩ := Option.map_eq_some_iff.mp hlinks.symm
    have htask : link'.taskId = link.taskId := congrArg Linkage.taskId (ComponentRow.linkage_timeless hsame)
    rw [hlink', Option.bind_some, Option.bind_some, hrecord, hrecord, htask, h.task?]

/-- Inserting a task. -/
theorem insertTask (h : Alike a b) {spec : TaskSpec} {workflow key : Option String} {generation : Option ℕ}
    {now : Time}
    {task : TaskRecord} (hrun : SwarmStore.insertTask spec workflow key generation now a = .ok (task, a'))
    (later : Time) :
    ∃ task' b', SwarmStore.insertTask spec workflow key generation later b = .ok (task', b') ∧ Alike a' b' ∧
      task'.taskId = task.taskId ∧ b'.workflows = b.workflows := by
  have hfits := insertTask_fits hrun
  rw [insertTask_eq spec workflow key hfits] at hrun
  split at hrun
  · rename_i tasks hinsert
    cases hrun
    have hnew : (newTaskRow spec workflow key generation now).timeless =
      (newTaskRow spec workflow key generation later).timeless := rfl
    obtain ⟨tasks', hinsert', hsame⟩ := h.tasks.insert? TaskRow.timeless_ignored hnew hinsert
    refine ⟨(newTaskRow spec workflow key generation later).toRecord, { b with tasks := tasks' }, ?_,
      ⟨hsame, h.components⟩, rfl, rfl⟩
    rw [insertTask_eq spec workflow key hfits, hinsert']
  · split at hrun
    · rename_i row hrow
      cases hrun
      have hsame := h.standIn? spec
      rw [hrow, Option.map_some] at hsame
      obtain ⟨row', hrow', htimeless⟩ := Option.map_eq_some_iff.mp hsame.symm
      exact ⟨_, b, insertTask_standIn workflow key hfits later hrow', h, TaskRow.taskId_timeless htimeless, rfl⟩
    · cases hrun

/-- Writing a link of a workflow that is there. -/
theorem upsertComponent (h : Alike a b) {link link' : ComponentRow} (hsame : link.timeless = link'.timeless)
    (hworkflow : (b.workflow? link'.workflowId).isSome) (hrun : a.upsertComponent link = .ok a') :
    ∃ b', b.upsertComponent link' = .ok b' ∧ Alike a' b' := by
  have hplaces := ComponentRow.place_timeless hsame
  obtain ⟨hid, hkey⟩ := Prod.mk.inj hplaces
  unfold SwarmStore.upsertComponent at hrun ⊢
  dsimp only at hrun ⊢
  rw [hid, hkey, any_erased h.components fun _ _ => samePlace_timeless _ _] at hrun
  split at hrun
  · rename_i hany
    obtain ⟨components, hupdate, hrun⟩ := bind_eq_ok.mp hrun
    cases hrun
    have hwrite (found found' : ComponentRow) (hfound : found.timeless = found'.timeless) :
        ({ found with generation := link.generation, taskId := link.taskId, required := link.required,
                      updatedAt := link.updatedAt } : ComponentRow).timeless =
          ({ found' with generation := link'.generation, taskId := link'.taskId, required := link'.required,
                         updatedAt := link'.updatedAt } : ComponentRow).timeless := by
      obtain ⟨hfoundWorkflow, hfoundKey⟩ := Prod.mk.inj (ComponentRow.place_timeless hfound)
      have hlinkage := ComponentRow.linkage_timeless hsame
      simp only [ComponentRow.linkage, Linkage.mk.injEq] at hlinkage
      simp only [ComponentRow.timeless, hfoundWorkflow, hfoundKey, hlinkage]
    obtain ⟨components', hupdate', htables⟩ := h.components.update? ComponentRow.timeless_ignored
      (fun _ _ => samePlace_timeless _ _) hwrite (orRaise_eq_ok.mp hupdate)
    rw [if_pos hany]
    exact ⟨_, bind_eq_ok.mpr ⟨components', orRaise_eq_ok.mpr hupdate', rfl⟩, h.tasks, htables⟩
  · rename_i hany
    obtain ⟨components, hinsert, hrun⟩ := bind_eq_ok.mp hrun
    dsimp only at hrun
    split at hrun
    · cases hrun
    cases hrun
    obtain ⟨components', hinsert', htables⟩ := h.components.insert? ComponentRow.timeless_ignored hsame
      (orRaise_eq_ok.mp hinsert)
    rw [if_neg hany]
    refine ⟨{ b with components := components' }, bind_eq_ok.mpr ⟨components', orRaise_eq_ok.mpr hinsert', ?_⟩,
      h.tasks, htables⟩
    rw [if_neg (by simpa using Option.ne_none_iff_isSome.mpr hworkflow)]
    rfl

/-- Replacing a component of a workflow that is there. -/
theorem replaceComponent (h : Alike a b) (hworkflow : (b.workflow? workflowId).isSome) {now : Time}
    {task : TaskRecord}
    (hrun : SwarmStore.replaceComponent workflowId component now a = .ok (task, a')) (later : Time) :
    ∃ task' b', SwarmStore.replaceComponent workflowId component later b = .ok (task', b') ∧ Alike a' b' := by
  have hlinks := h.component? workflowId component.key
  have hcurrent : (a.component? workflowId component.key).any (component.generation ≤ ·.generation) =
      (b.component? workflowId component.key).any (component.generation ≤ ·.generation) := by
    have hsame := congrArg (Option.any fun link => decide (component.generation ≤ link.generation)) hlinks
    rw [Option.any_map, Option.any_map] at hsame
    exact hsame
  unfold SwarmStore.replaceComponent at hrun ⊢
  dsimp only at hrun ⊢
  rw [hcurrent] at hrun
  split at hrun
  · rename_i hlinked
    rw [if_pos hlinked]
    obtain ⟨row, hrow, hrun⟩ := bind_eq_ok.mp hrun
    cases hrun
    obtain ⟨link, hlink, htask⟩ := Option.bind_eq_some_iff.mp (orRaise_eq_ok.mp hrow)
    rw [hlink, Option.map_some] at hlinks
    obtain ⟨link', hlink', hsame⟩ := Option.map_eq_some_iff.mp hlinks.symm
    have hid : link'.taskId = link.taskId := congrArg Linkage.taskId (ComponentRow.linkage_timeless hsame)
    have hrows := h.task? link.taskId
    rw [htask, Option.map_some] at hrows
    obtain ⟨row', hrow', -⟩ := Option.map_eq_some_iff.mp hrows.symm
    exact ⟨row'.toRecord, b, bind_eq_ok.mpr ⟨row', by rw [hlink', Option.bind_some, hid, hrow']; rfl, rfl⟩, h⟩
  · rename_i hnewer
    rw [if_neg hnewer]
    obtain ⟨⟨inserted, mid⟩, hinsert, hrun⟩ := bind_eq_ok.mp hrun
    obtain ⟨final, hfinal, hrun⟩ := bind_eq_ok.mp hrun
    cases hrun
    obtain ⟨inserted', mid', hinsert', hmid, hid, hworkflows⟩ := h.insertTask hinsert later
    have hsame : (newComponentRow workflowId component inserted now).timeless =
        (newComponentRow workflowId component inserted' later).timeless := by
      simp only [newComponentRow, ComponentRow.timeless, hid]
    have hthere : (mid'.workflow? workflowId).isSome := by
      rw [workflow?, hworkflows]
      exact hworkflow
    obtain ⟨final', hfinal', halike⟩ := hmid.upsertComponent hsame hthere hfinal
    exact ⟨inserted', final', bind_eq_ok.mpr ⟨_, hinsert', bind_eq_ok.mpr ⟨_, hfinal', rfl⟩⟩, halike⟩

end Alike

end TPUSwarm
