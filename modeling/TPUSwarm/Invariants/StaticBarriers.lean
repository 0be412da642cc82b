import TPUSwarm.Invariants.Barriers
import TPUSwarm.Invariants.StaticWorkflows

/-!
# Barriers of static workflows

The links of a static workflow do not move, so every commit took its checkpoints from the same
tasks. A task never refers back to an earlier checkpoint; therefore each new barrier is greater
than all before, and the last one reported is the greatest.
-/

namespace TPUSwarm

open Common SwarmStore

/-- The barriers of a workflow, in the order in which they were committed. -/
def SwarmStore.barriers (store : SwarmStore) (workflowId : String) : List ℤ :=
  (store.commits.rows.filter (·.workflowId = workflowId)).map CommitRow.barrier

/-- The task of every required component has published a checkpoint for each barrier. -/
def Published (store : SwarmStore) (workflowId : String) : Prop :=
  ∀ commit ∈ store.commits.rows, commit.workflowId = workflowId →
    ∀ link ∈ store.components.rows, link.workflowId = workflowId → link.required = true →
      ∃ checkpoint ∈ store.checkpoints.rows, checkpoint.taskId = link.taskId ∧ checkpoint.sequence = commit.barrier

/-- The workflow has a required component. -/
def HasRequired (store : SwarmStore) (workflowId : String) : Prop :=
  ∃ link ∈ store.components.rows, link.workflowId = workflowId ∧ link.required = true

/-- The barriers of a workflow come from its links, in increasing order. -/
structure OrderedBarriers (store : SwarmStore) (workflowId : String) : Prop where
  published : Published store workflowId
  increasing : HasRequired store workflowId → (store.barriers workflowId).Pairwise (· < ·)

/-- Every commit is of a workflow in the table. -/
def CommitsKnown (store : SwarmStore) : Prop :=
  ∀ commit ∈ store.commits.rows, ∃ row, store.workflow? commit.workflowId = some row

variable {engine : WorkflowEngine} {store store' : SwarmStore} {now : Time} {workflowId : String}

/-- A call keeps commits known. -/
theorem CommitsKnown.run {call : Call} {result : call.Result} (h : CommitsKnown store)
    (hrun : call.run now store = .ok (result, store')) : CommitsKnown store' := by
  intro commit hcommit
  have hkept {w : String} (hrow : ∃ row, store.workflow? w = some row) : ∃ row, store'.workflow? w = some row := by
    obtain ⟨row, hrow⟩ := hrow
    obtain ⟨row', hrow', -⟩ := Call.workflow_kept hrun hrow
    exact ⟨row', hrow'⟩
  by_cases hcommits : StoreTable.commits ∈ call.tables
  · cases call with
    | commitBarrier w barrier uri =>
      obtain ⟨manifest, -, ⟨_, -, -, -, -, -, -, rfl⟩ | ⟨-, hsome, -, hrows, -⟩⟩ := commitBarrier_eq_ok hrun
      · exact h commit hcommit
      · rw [hrows, List.mem_append, List.mem_singleton] at hcommit
        rcases hcommit with hold | rfl
        · exact hkept (h commit hold)
        · exact hkept (Option.isSome_iff_exists.mp hsome)
    | _ => simp [Call.tables] at hcommits
  · have hsame : store'.commits = store.commits := Call.frame hrun hcommits
    exact hkept (h commit (hsame ▸ hcommit))

/-- A barrier that is committed anew is greater than all before. -/
theorem OrderedBarriers.commit {barrier : ℤ} {uri : Option String} {commit : BarrierCommit}
    (h : OrderedBarriers store workflowId) (hsettled : PointersSettled store) (hlinked : LinkedTasks store)
    (hrun : commitBarrier workflowId barrier uri now store = .ok (commit, store')) :
    OrderedBarriers store' workflowId := by
  obtain ⟨manifest, hmanifest, ⟨_, -, -, -, -, -, -, rfl⟩ | ⟨hfresh, -, -, hrows, hframe⟩⟩ :=
    commitBarrier_eq_ok hrun
  · exact h
  have hcomponents : store'.components = store.components := by rw [hframe]
  have hcheckpoints : store'.checkpoints = store.checkpoints := by rw [hframe]
  -- the task of a required link refers to a checkpoint of the barrier
  have hrefers : ∀ link ∈ store.components.rows, link.workflowId = workflowId → link.required = true →
      ∃ row ∈ store.tasks.rows, row.taskId = link.taskId ∧ row.checkpointSequence = some barrier ∧
        ∃ checkpoint ∈ store.checkpoints.rows, checkpoint.taskId = link.taskId ∧ checkpoint.sequence = barrier := by
    intro link hlink hworkflow hrequired
    obtain ⟨row, hrow⟩ := hlinked link hlink
    obtain ⟨hmem, hid⟩ := task?_eq_some.mp hrow
    obtain ⟨hsequence, huri⟩ := (barrierManifest_eq_ok.mp hmanifest).1 link row
      (mem_joinComponents.mpr ⟨hlink, hworkflow, hrow⟩) hrequired
    obtain ⟨reference, href⟩ : ∃ reference, row.checkpoint = some reference := by
      obtain ⟨found, hfound⟩ := Option.ne_none_iff_exists'.mp huri
      exact ⟨_, by rw [TaskRow.checkpoint, hfound, Option.map_some]⟩
    obtain ⟨checkpoint, hcheckpoint, hcid, hcsequence, -⟩ := hsettled.checkpoint hmem href
    refine ⟨row, hmem, hid, hsequence, checkpoint, hcheckpoint, hcid.trans hid, hcsequence.trans ?_⟩
    exact Option.some.inj ((hsettled.sequence hmem href).symm.trans hsequence)
  constructor
  · intro old hold hworkflow link hlink hlinkWorkflow hrequired
    rw [hcomponents] at hlink
    rw [hcheckpoints]
    rw [hrows, List.mem_append, List.mem_singleton] at hold
    rcases hold with hold | rfl
    · exact h.published old hold hworkflow link hlink hlinkWorkflow hrequired
    · obtain ⟨-, -, -, -, hcheckpoint⟩ := hrefers link hlink hlinkWorkflow hrequired
      exact hcheckpoint
  · rintro ⟨link, hlink, hworkflow, hrequired⟩
    rw [hcomponents] at hlink
    obtain ⟨row, hrow, hid, hsequence, -⟩ := hrefers link hlink hworkflow hrequired
    have hsplit : store'.barriers workflowId = store.barriers workflowId ++ [barrier] := by
      rw [barriers, hrows, List.filter_append, List.map_append, barriers]
      simp
    rw [hsplit]
    refine List.pairwise_append.mpr ⟨h.increasing ⟨link, hlink, hworkflow, hrequired⟩, List.pairwise_singleton _ _,
      fun old hold new hnew => ?_⟩
    obtain rfl := List.mem_singleton.mp hnew
    obtain ⟨commit', hcommit', rfl⟩ := List.mem_map.mp hold
    obtain ⟨hmem, hcommitWorkflow⟩ := List.mem_filter.mp hcommit'
    have hcommitId : commit'.workflowId = workflowId := of_decide_eq_true hcommitWorkflow
    obtain ⟨checkpoint, hcheckpoint, hcid, hcsequence⟩ :=
      h.published commit' hmem hcommitId link hlink hworkflow hrequired
    obtain ⟨r, hr, hrid, sequence, hrsequence, hle⟩ := hsettled.covered checkpoint hcheckpoint
    obtain rfl := store.task_unique hr hrow (hrid.trans (hcid.trans hid.symm))
    rw [hsequence] at hrsequence
    obtain rfl := Option.some.inj hrsequence
    have hne : commit'.barrier ≠ new := fun heq => hfresh commit' hmem ⟨hcommitId, heq⟩
    omega

/-- The same commits of the workflow, no new links of it and no lost checkpoints. -/
theorem OrderedBarriers.kept (h : OrderedBarriers store workflowId)
    (hcommits : store'.commits.rows.filter (·.workflowId = workflowId) =
      store.commits.rows.filter (·.workflowId = workflowId))
    (hlinks : ∀ link ∈ store'.components.rows, link.workflowId = workflowId → link ∈ store.components.rows)
    (hcheckpoints : ∀ checkpoint ∈ store.checkpoints.rows, checkpoint ∈ store'.checkpoints.rows) :
    OrderedBarriers store' workflowId := by
  constructor
  · intro commit hcommit hworkflow link hlink hlinkWorkflow hrequired
    have hmem : commit ∈ store.commits.rows.filter (·.workflowId = workflowId) :=
      hcommits ▸ List.mem_filter.mpr ⟨hcommit, decide_eq_true hworkflow⟩
    obtain ⟨checkpoint, hcheckpoint, hfound⟩ := h.published commit (List.mem_filter.mp hmem).1 hworkflow link
      (hlinks link hlink hlinkWorkflow) hlinkWorkflow hrequired
    exact ⟨checkpoint, hcheckpoints checkpoint hcheckpoint, hfound⟩
  · rintro ⟨link, hlink, hworkflow, hrequired⟩
    rw [barriers, hcommits]
    exact h.increasing ⟨link, hlinks link hlink hworkflow, hworkflow, hrequired⟩

/-- A workflow without commits. -/
theorem OrderedBarriers.of_none (h : ∀ commit ∈ store.commits.rows, commit.workflowId ≠ workflowId) :
    OrderedBarriers store workflowId := by
  refine ⟨fun commit hcommit hworkflow => absurd hworkflow (h commit hcommit), fun _ => ?_⟩
  have hnone : store.commits.rows.filter (·.workflowId = workflowId) = [] :=
    List.filter_eq_nil_iff.mpr fun commit hcommit => by simpa using h commit hcommit
  rw [barriers, hnone]
  exact List.Pairwise.nil

/-- A call that commits no barrier of a workflow keeps its commits. -/
theorem Call.keeps_commits {call : Call} {result : call.Result} (hrun : call.run now store = .ok (result, store'))
    (hcall : ∀ barrier uri, call ≠ .commitBarrier workflowId barrier uri) :
    store'.commits.rows.filter (·.workflowId = workflowId) =
      store.commits.rows.filter (·.workflowId = workflowId) := by
  by_cases hcommits : StoreTable.commits ∈ call.tables
  · cases call with
    | commitBarrier other barrier uri =>
      have hother : other ≠ workflowId := fun heq => hcall barrier uri (heq ▸ rfl)
      obtain ⟨manifest, -, ⟨_, -, -, -, -, -, -, rfl⟩ | ⟨-, -, -, hrows, -⟩⟩ := commitBarrier_eq_ok hrun
      · rfl
      · rw [hrows, List.filter_append, List.filter_singleton]
        simp [hother]
    | _ => simp [Call.tables] at hcommits
  · have hsame : store'.commits = store.commits := Call.frame hrun hcommits
    rw [hsame]

/-- The barriers of all static workflows come from their links, in increasing order. -/
def StaticBarriers (store : SwarmStore) : Prop :=
  ∀ row ∈ store.workflows.rows, row.kind = staticKind → OrderedBarriers store row.workflowId

/-- A call for static workflows keeps their barriers in order. -/
theorem StaticBarriers.run {call : Call} {result : call.Result} (h : StaticBarriers store)
    (hknown : CommitsKnown store) (hsettled : PointersSettled store) (hlinked : LinkedTasks store)
    (hallowed : servesStatic engine store call) (hrun : call.run now store = .ok (result, store')) :
    StaticBarriers store' := by
  intro row' hrow' hkind
  have hfound : store'.workflow? row'.workflowId = some row' := workflow?_eq_some.mpr ⟨hrow', rfl⟩
  cases hold : store.workflow? row'.workflowId with
  | none =>
    -- a new workflow: nothing was committed for it, and its submission commits nothing
    obtain ⟨spec, components, initialState, rfl, -⟩ := Call.workflow_new hrun hold hfound
    have huntouched : StoreTable.commits ∉ (Call.submitWorkflow spec components initialState).tables := by
      simp [Call.tables]
    have hcommits : store'.commits = store.commits := Call.frame hrun huntouched
    refine .of_none fun commit hcommit heq => ?_
    obtain ⟨row, hrow⟩ := hknown commit (hcommits ▸ hcommit)
    rw [heq, hold] at hrow
    cases hrow
  | some row =>
    obtain ⟨kept, hkept, horigin⟩ := Call.workflow_kept hrun hold
    obtain rfl := Option.some.inj (hkept.symm.trans hfound)
    obtain ⟨hmem, hid⟩ := workflow?_eq_some.mp hold
    have hkindOld : row.kind = staticKind := (congrArg WorkflowOrigin.kind horigin).symm.trans hkind
    have hordered : OrderedBarriers store kept.workflowId := hid ▸ h row hmem hkindOld
    by_cases hcommit : ∃ barrier uri, call = .commitBarrier kept.workflowId barrier uri
    · obtain ⟨barrier, uri, rfl⟩ := hcommit
      exact hordered.commit hsettled hlinked hrun
    · refine hordered.kept (Call.keeps_commits hrun fun barrier uri heq => hcommit ⟨barrier, uri, heq⟩)
        (fun link hlink hworkflow => ?_) fun checkpoint => Call.keeps_checkpoints hrun
      refine Call.link_old hrun hlink (fun spec components initialState hcall hsame => ?_) fun component hcall => ?_
      · -- the workflow is in the table, so it is not submitted again
        subst hcall
        obtain ⟨-, hfresh, -⟩ := submitWorkflow_eq_ok hrun
        exact hfresh row hmem (hid.trans (hworkflow.symm.trans hsame.symm))
      · subst hcall
        exact hallowed row (hworkflow ▸ hold) hkindOld

/-- In every state that calls for static workflows reach, their barriers are in order. -/
theorem static_barriers (h : History (servesStatic engine) .empty store) : StaticBarriers store :=
  (h.invariant (I := fun s => (History (servesStatic engine) .empty s ∧ CommitsKnown s) ∧ StaticBarriers s)
    (fun _ _ _ _ _ hallowed hrun hs => ⟨⟨hs.1.1.trans (History.of_run hallowed hrun), hs.1.2.run hrun⟩,
      hs.2.run hs.1.2 (pointers_settled hs.1.1) (linked_tasks hs.1.1) hallowed hrun⟩)
    ⟨⟨.refl, fun _ hcommit => (by cases hcommit)⟩, fun _ hrow => (by cases hrow)⟩).2

end TPUSwarm
