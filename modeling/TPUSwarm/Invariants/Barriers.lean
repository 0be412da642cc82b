import TPUSwarm.Invariants.Checkpoints
import TPUSwarm.Store.Manifests
import TPUSwarm.Invariants.LinkAgreement
import TPUSwarm.Store.Progress

/-!
# Committed barriers

A commit row is written once, together with its event, and never again. Its manifest holds
one checkpoint of its barrier for each required component of the moment, and reading it
back gives what the commit returned. Committing again recomputes the manifest, so it
succeeds exactly while the components still refer to the same checkpoints.
-/

namespace TPUSwarm

open Common SwarmStore

variable {store store' : SwarmStore} {now : Time}

/-- The workflow and the payload of each event that reports a committed barrier, in order. -/
def SwarmStore.barrierEvents (store : SwarmStore) : List (String × JsonText) :=
  (store.events.entries.filter (·.kind = "BarrierCommitted")).map fun event =>
    (event.workflowId, event.payloadJson)

/-- What the event of a commit says. -/
def CommitRow.report (row : CommitRow) : String × JsonText :=
  (row.workflowId, dumps (Dict.ofList [("barrier", .int row.barrier)]))

/-- No status of a task is reported like a barrier. -/
theorem TaskStatus.eventKind_ne_barrier (status : TaskStatus) : status.eventKind ≠ "BarrierCommitted" := by
  cases status <;> decide +kernel

/-- A call appends commits and their events, or neither. -/
theorem Call.commits_extend {call : Call} {result : call.Result}
    (hrun : call.run now store = .ok (result, store')) :
    ∃ added, store'.commits.rows = store.commits.rows ++ added ∧
      store'.barrierEvents = store.barrierEvents ++ added.map CommitRow.report := by
  have hreported {row row' : TaskRow} (hreported : Reported store store' row row') :
      ∃ added, store'.commits.rows = store.commits.rows ++ added ∧
        store'.barrierEvents = store.barrierEvents ++ added.map CommitRow.report := by
    refine ⟨[], by rw [hreported.frame, List.append_nil], ?_⟩
    rw [List.map_nil, List.append_nil]
    rcases hreported.reports with ⟨-, hsame⟩ | ⟨-, event, hnumber, happend, -, hkind, -⟩
    · rw [barrierEvents, hsame, barrierEvents]
    · have hother : ¬ event.kind = "BarrierCommitted" := hkind ▸ row'.status.eventKind_ne_barrier
      rw [barrierEvents, happend, Log.entries_append, List.filter_append, List.filter_singleton, barrierEvents]
      simp [hother]
  by_cases hevents : StoreTable.events ∈ call.tables
  · cases call with
    | failTask taskId reason =>
      obtain ⟨row, -, hrow⟩ := failTask_eq_ok hrun
      exact hreported hrow
    | observeJob taskId job =>
      obtain ⟨row, -, hrow⟩ := observeJob_eq_ok hrun
      exact hreported hrow
    | commitBarrier workflowId barrier uri =>
      obtain ⟨manifest, -, ⟨row, -, -, -, -, -, -, rfl⟩ | ⟨-, -, -, hrows, hframe⟩⟩ := commitBarrier_eq_ok hrun
      · exact ⟨[], by simp, by simp⟩
      · refine ⟨_, hrows, ?_⟩
        rw [hframe, barrierEvents, Log.entries_append, List.filter_append, List.map_append]
        rfl
    | _ => simp [Call.tables] at hevents
  · have hsame : store'.events = store.events := Call.frame hrun hevents
    have hcommits : StoreTable.commits ∉ call.tables := fun h => hevents (by
      cases call <;> simp_all [Call.tables])
    have hsame' : store'.commits = store.commits := Call.frame hrun hcommits
    exact ⟨[], by rw [hsame', List.append_nil], by rw [barrierEvents, hsame, barrierEvents]; simp⟩

/-- A commit row is in every later store. -/
theorem commit_kept {later : SwarmStore} {allowed : Discretion} (h : History allowed store later) {row : CommitRow}
    (hrow : row ∈ store.commits.rows) : row ∈ later.commits.rows :=
  h.invariant (I := fun s => row ∈ s.commits.rows) (fun _ _ _ _ _ _ hrun hs => by
    obtain ⟨added, hadded, -⟩ := Call.commits_extend hrun
    exact hadded ▸ List.mem_append_left _ hs) hrow

/-- A workflow is in every later store. -/
theorem workflow_lasts {later : SwarmStore} {allowed : Discretion} (h : History allowed store later)
    {workflowId : String} {row : WorkflowRow} (hrow : store.workflow? workflowId = some row) :
    ∃ row', later.workflow? workflowId = some row' ∧ row'.origin = row.origin :=
  h.invariant (I := fun s => ∃ row', s.workflow? workflowId = some row' ∧ row'.origin = row.origin)
    (fun _ _ _ _ _ _ hrun ⟨mid, hmid, horigin⟩ => by
      obtain ⟨row', hrow', horigin'⟩ := Call.workflow_kept hrun hmid
      exact ⟨row', hrow', horigin'.trans horigin⟩) ⟨row, hrow, rfl⟩

/-- How a commit came to be: the call that inserted its row, and the manifest it returned. -/
structure Committed (store : SwarmStore) (row : CommitRow) (before after : SwarmStore) (now : Time)
    (commit : BarrierCommit) : Prop where
  past : History anyCall .empty before
  commits : commitBarrier row.workflowId row.barrier row.controllerCheckpointUri now before = .ok (commit, after)
  fresh : row ∉ before.commits.rows
  inserted : row ∈ after.commits.rows
  future : History anyCall after store
  decodes : decodeManifest row.manifestJson = .ok commit.components

namespace Committed

variable {row : CommitRow} {before after : SwarmStore} {commit : BarrierCommit}

/-- The manifest of a commit names the required components that were linked, and a checkpoint of the
barrier for each. -/
theorem coherent (h : Committed store row before after now commit) :
    (∀ key, key ∈ commit.components.keys ↔ ∃ link ∈ before.components.rows,
      link.place = (row.workflowId, key) ∧ link.required = true) ∧
    ∀ key reference, commit.components.get? key = some reference → reference.sequence = row.barrier ∧
      ∃ link ∈ before.components.rows, link.place = (row.workflowId, key) ∧
        ∃ checkpoint ∈ store.checkpoints.rows, checkpoint.taskId = link.taskId ∧
          checkpoint.sequence = row.barrier ∧ checkpoint.uri = reference.uri ∧
            loads checkpoint.metadataJson = reference.metadata := by
  obtain ⟨-, -, -, hmanifest, -⟩ := commitBarrier_leaves h.commits
  obtain ⟨hcomplete, hentries⟩ := barrierManifest_eq_ok.mp hmanifest
  constructor
  · intro key
    rw [Dict.mem_keys_iff]
    constructor
    · rintro ⟨reference, hreference⟩
      obtain ⟨link, r, hjoin, hrequired, hkey, -⟩ := (hentries key reference).mp hreference
      obtain ⟨hlink, hworkflow, -⟩ := mem_joinComponents.mp hjoin
      exact ⟨link, hlink, Prod.ext hworkflow hkey, hrequired⟩
    · rintro ⟨link, hlink, hplace, hrequired⟩
      obtain ⟨r, hr⟩ := linked_tasks h.past link hlink
      have hjoin := mem_joinComponents.mpr ⟨hlink, congrArg Prod.fst hplace, hr⟩
      obtain ⟨uri, huri⟩ := Option.ne_none_iff_exists'.mp (hcomplete link r hjoin hrequired).2
      exact ⟨_, (hentries key _).mpr ⟨link, r, hjoin, hrequired, congrArg Prod.snd hplace,
        by rw [TaskRow.checkpoint, huri, Option.map_some]⟩⟩
  · intro key reference hreference
    obtain ⟨link, r, hjoin, hrequired, hkey, href⟩ := (hentries key reference).mp hreference
    obtain ⟨hlink, hworkflow, hr⟩ := mem_joinComponents.mp hjoin
    obtain ⟨hmem, hid⟩ := task?_eq_some.mp hr
    have hsequence : reference.sequence = row.barrier := by
      obtain ⟨uri, -, rfl⟩ := Option.map_eq_some_iff.mp href
      dsimp only
      rw [(hcomplete link r hjoin hrequired).1, Option.getD_some]
    obtain ⟨checkpoint, hcheckpoint, hid', hsequence', huri, hmetadata⟩ :=
      (pointers_settled h.past).checkpoint hmem href
    have hrun : (Call.commitBarrier row.workflowId row.barrier row.controllerCheckpointUri).run now before =
      .ok (commit, after) := h.commits
    have hlater : History anyCall before store := (History.of_run trivial hrun).trans h.future
    have hkept : checkpoint ∈ store.checkpoints.rows :=
      hlater.invariant (I := fun s => checkpoint ∈ s.checkpoints.rows)
        (fun _ _ _ _ _ _ hcall hs => Call.keeps_checkpoints hcall hs) hcheckpoint
    exact ⟨hsequence, link, hlink, Prod.ext hworkflow hkey, checkpoint, hkept, hid'.trans hid,
      hsequence'.trans hsequence, huri, hmetadata⟩

/-- A commit stays the commit of later stores. -/
theorem later {later : SwarmStore} (h : Committed store row before after now commit)
    (hlater : History anyCall store later) : Committed later row before after now commit :=
  ⟨h.past, h.commits, h.fresh, h.inserted, h.future.trans hlater, h.decodes⟩

end Committed

/-- Every commit row was inserted by a successful commit, which returned what the row spells. -/
theorem exists_committed (h : History anyCall .empty store) :
    ∀ row ∈ store.commits.rows, ∃ before after now commit, Committed store row before after now commit := by
  refine (h.invariant (I := fun s => History anyCall .empty s ∧
    ∀ row ∈ s.commits.rows, ∃ before after now commit, Committed s row before after now commit)
    (fun call now result s s' _ hrun hs => ?_) ⟨.refl, fun _ hrow => (by cases hrow)⟩).2
  have hstep : History anyCall s s' := .of_run trivial hrun
  refine ⟨hs.1.trans hstep, fun row hrow => ?_⟩
  have hold (hmem : row ∈ s.commits.rows) :
      ∃ before after now commit, Committed s' row before after now commit := by
    obtain ⟨before, after, time, commit, hcommitted⟩ := hs.2 row hmem
    exact ⟨before, after, time, commit, hcommitted.later hstep⟩
  by_cases hcommits : StoreTable.commits ∈ call.tables
  · cases call with
    | commitBarrier workflowId barrier uri =>
      obtain ⟨manifest, -, ⟨_, -, -, -, -, -, -, rfl⟩ | ⟨hclash, -, rfl, hrows, -⟩⟩ := commitBarrier_eq_ok hrun
      · exact hold hrow
      · rw [hrows, List.mem_append, List.mem_singleton] at hrow
        rcases hrow with hmem | rfl
        · exact hold hmem
        · exact ⟨s, s', now, _, hs.1, hrun, fun hmem => hclash _ hmem ⟨rfl, rfl⟩,
            hrows ▸ List.mem_append_right _ List.mem_cons_self, .refl, decodeManifest_encodeManifest manifest⟩
    | _ => simp [Call.tables] at hcommits
  · have hsame : s'.commits = s.commits := Call.frame hrun hcommits
    exact hold (hsame ▸ hrow)

/-- The events of barriers are the reports of the commits, in their order. -/
theorem barrierEvents_eq (h : History anyCall .empty store) :
    store.barrierEvents = store.commits.rows.map CommitRow.report :=
  h.invariant (I := fun s => s.barrierEvents = s.commits.rows.map CommitRow.report)
    (fun _ _ _ _ _ _ hrun hs => by
      obtain ⟨added, hrows, hevents⟩ := Call.commits_extend hrun
      rw [hevents, hrows, List.map_append, hs]) rfl

/-- The latest barrier of a later store is what the commit of the greatest barrier returned. -/
theorem latestBarrier_of_commit {before after : SwarmStore} {workflowId : String} {barrier : ℤ}
    {uri : Option String} {commit : BarrierCommit}
    (hcommit : commitBarrier workflowId barrier uri now before = .ok (commit, after))
    (hlater : History anyCall after store)
    (hgreatest : ∀ row ∈ store.commits.rows, row.workflowId = workflowId → row.barrier ≤ barrier) :
    latestBarrier workflowId store = .ok (some commit) := by
  obtain ⟨hw, hb, huri, -, hrow⟩ := commitBarrier_leaves hcommit
  rw [latestBarrier_eq (commit_kept hlater hrow) hgreatest, ← hw, ← hb, ← huri]

/-- Whatever is called, in whatever order: a commit row never changes; the events of barriers report the
commits, in their order; a manifest names the components required when it was committed, each with a
checkpoint of the barrier that a task linked then had and that is still there; and the latest barrier is
what the commit of the greatest one returned. -/
theorem barriers_coherent (h : History anyCall .empty store) :
    (∀ row ∈ store.commits.rows, ∀ later, History anyCall store later →
      later.commit? row.workflowId row.barrier = some row) ∧
    store.barrierEvents = store.commits.rows.map CommitRow.report ∧
    (∀ row ∈ store.commits.rows, ∃ before after now commit, Committed store row before after now commit ∧
      (∀ key, key ∈ commit.components.keys ↔ ∃ link ∈ before.components.rows,
        link.place = (row.workflowId, key) ∧ link.required = true) ∧
      ∀ key reference, commit.components.get? key = some reference → reference.sequence = row.barrier ∧
        ∃ link ∈ before.components.rows, link.place = (row.workflowId, key) ∧
          ∃ checkpoint ∈ store.checkpoints.rows, checkpoint.taskId = link.taskId ∧
            checkpoint.sequence = row.barrier ∧ checkpoint.uri = reference.uri ∧
              loads checkpoint.metadataJson = reference.metadata) ∧
    ∀ workflowId, ((∀ row ∈ store.commits.rows, row.workflowId ≠ workflowId) →
        latestBarrier workflowId store = .ok none) ∧
      ∀ before after barrier uri now commit, History anyCall .empty before →
        commitBarrier workflowId barrier uri now before = .ok (commit, after) → History anyCall after store →
          (∀ row ∈ store.commits.rows, row.workflowId = workflowId → row.barrier ≤ barrier) →
            latestBarrier workflowId store = .ok (some commit) := by
  refine ⟨fun row hrow later hlater => ?_, barrierEvents_eq h, fun row hrow => ?_,
    fun workflowId => ⟨fun hnone => ?_, ?_⟩⟩
  · exact commit?_eq_some.mpr ⟨commit_kept hlater hrow, rfl, rfl⟩
  · obtain ⟨before, after, now, commit, hcommitted⟩ := exists_committed h row hrow
    exact ⟨before, after, now, commit, hcommitted, hcommitted.coherent⟩
  · cases hfound : store.greatestCommit? workflowId with
    | none => rw [latestBarrier, hfound]
    | some found =>
      obtain ⟨hmem, hworkflow, -⟩ := greatestCommit?_eq_some hfound
      exact absurd hworkflow (hnone found hmem)
  · intro before after barrier uri now commit _ hcommit hlater hgreatest
    exact latestBarrier_of_commit hcommit hlater hgreatest

/-- A checkpoint of the trainer. -/
def trainerCheckpoint (uri : String) (sequence : ℤ) : CheckpointRef where
  uri := uri
  sequence := sequence

/-- Two barriers of one workflow, the second after its component was replaced. -/
def twoBarriers : List (Call × Time) :=
  [(.submitWorkflow (treeWorkflow "w1") [trainComponent "t0" 0] Dict.empty, 0),
    (.recordCheckpoint "t0" (trainerCheckpoint "gs://a" 1), 1), (.commitBarrier "w1" 1 none, 2),
    (.replaceComponent "w1" (trainComponent "t1" 1), 3),
    (.recordCheckpoint "t1" (trainerCheckpoint "gs://b" 2), 4), (.commitBarrier "w1" 2 (some "gs://c"), 5)]

/-- The barriers of a workflow whose component was replaced between them. -/
theorem barriers_coherent_replaced : ∃ store, History anyCall .empty store ∧
    store.commits.rows.map CommitRow.barrier = [1, 2] ∧
    store.barrierEvents = store.commits.rows.map CommitRow.report ∧
    ∀ row ∈ store.commits.rows, ∀ later, History anyCall store later →
      later.commit? row.workflowId row.barrier = some row := by
  have hhistory := SwarmStore.history_any .empty twoBarriers
  obtain ⟨hkept, hevents, -⟩ := barriers_coherent hhistory
  exact ⟨_, hhistory, by decide +kernel, hevents, hkept⟩

end TPUSwarm
