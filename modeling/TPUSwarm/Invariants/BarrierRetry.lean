import TPUSwarm.Invariants.Barriers

/-!
# Committing a barrier again

A client that lost the response commits the same barrier again. The store recomputes the
manifest before it looks for the commit row, so the call returns what it returned first
exactly while the required components refer to the checkpoints of that commit.
-/

namespace TPUSwarm

open Common SwarmStore

variable {before after later : SwarmStore} {workflowId : String} {barrier : ℤ} {uri : Option String}
  {now now' : Time} {commit : BarrierCommit}

/-- The required components of a workflow, each with the checkpoint that its task refers to. -/
def SwarmStore.references (store : SwarmStore) (workflowId : String) : Dict String (Option CheckpointRef) :=
  Dict.ofList (((store.joinComponents workflowId).filter (·.1.required)).map fun (link, row) =>
    (link.componentKey, row.checkpoint))

/-- The references are those of the required components. -/
theorem references_get? {store : SwarmStore} {key : String} {reference : Option CheckpointRef} :
    (store.references workflowId).get? key = some reference ↔ ∃ link row,
      (link, row) ∈ store.joinComponents workflowId ∧ link.required = true ∧ link.componentKey = key ∧
        row.checkpoint = reference := by
  unfold references
  rw [Dict.get?_ofList, List.mem_map]
  · constructor
    · rintro ⟨⟨link, row⟩, hmem, hpair⟩
      obtain ⟨hjoin, hrequired⟩ := List.mem_filter.mp hmem
      obtain ⟨hkey, href⟩ := Prod.mk.inj hpair
      exact ⟨link, row, hjoin, hrequired, hkey, href⟩
    · rintro ⟨link, row, hjoin, hrequired, rfl, rfl⟩
      exact ⟨(link, row), List.mem_filter.mpr ⟨hjoin, hrequired⟩, rfl⟩
  · rw [List.map_map]
    exact List.pairwise_map.mpr ((store.joinComponents_keys workflowId).filter _)

/-- With a manifest, the references are its entries. -/
theorem references_eq {store : SwarmStore} {manifest : Dict String CheckpointRef}
    (h : store.barrierManifest workflowId barrier = .ok manifest) :
    store.references workflowId = manifest.mapValues some := by
  obtain ⟨hcomplete, hentries⟩ := barrierManifest_eq_ok.mp h
  refine Dict.ext_get? fun key => Option.ext fun reference => ?_
  rw [references_get?, Dict.get?_mapValues, Option.map_eq_some_iff]
  constructor
  · rintro ⟨link, row, hjoin, hrequired, hkey, rfl⟩
    obtain ⟨checkpointUri, huri⟩ := Option.ne_none_iff_exists'.mp (hcomplete link row hjoin hrequired).2
    have href : row.checkpoint = some ⟨checkpointUri, row.checkpointSequence.getD 0,
        (row.checkpointMetadataJson.map loads).getD Dict.empty⟩ := by
      rw [TaskRow.checkpoint, huri, Option.map_some]
    exact ⟨_, (hentries key _).mpr ⟨link, row, hjoin, hrequired, hkey, href⟩, href.symm⟩
  · rintro ⟨found, hfound, rfl⟩
    exact (hentries key found).mp hfound

/-- A store whose references are the entries of a manifest of the barrier has this manifest. -/
theorem barrierManifest_of_references {store : SwarmStore} {manifest : Dict String CheckpointRef}
    (hsettled : PointersSettled store) (h : store.references workflowId = manifest.mapValues some)
    (hbarrier : ∀ key reference, manifest.get? key = some reference → reference.sequence = barrier) :
    store.barrierManifest workflowId barrier = .ok manifest := by
  have hget (key : String) (reference : CheckpointRef) :
      manifest.get? key = some reference ↔ store.Contributes workflowId key reference := by
    have heq : (store.references workflowId).get? key = (manifest.get? key).map some := by
      rw [h, Dict.get?_mapValues]
    unfold Contributes
    rw [← references_get?, heq, Option.map_eq_some_iff]
    exact ⟨fun hfound => ⟨_, hfound, rfl⟩, fun ⟨_, hfound, hsome⟩ => Option.some.inj hsome ▸ hfound⟩
  refine barrierManifest_eq_ok.mpr ⟨fun link row hjoin hrequired => ?_, hget⟩
  have hentry : (store.references workflowId).get? link.componentKey = some row.checkpoint :=
    references_get?.mpr ⟨link, row, hjoin, hrequired, rfl, rfl⟩
  rw [h, Dict.get?_mapValues, Option.map_eq_some_iff] at hentry
  obtain ⟨reference, hreference, href⟩ := hentry
  obtain ⟨hmem, -⟩ := task?_eq_some.mp (mem_joinComponents.mp hjoin).2.2
  refine ⟨?_, fun hnone => ?_⟩
  · rw [hsettled.sequence hmem href.symm, hbarrier _ _ hreference]
  · rw [TaskRow.checkpoint, hnone] at href
    cases href

/-- After a commit, the same commit returns the same result and changes nothing if and only if the
required components refer to the checkpoints they referred to then. -/
theorem retry_returns (hpast : History anyCall .empty before)
    (hcommit : commitBarrier workflowId barrier uri now before = .ok (commit, after))
    (hlater : History anyCall after later) :
    commitBarrier workflowId barrier uri now' later = .ok (commit, later) ↔
      later.references workflowId = before.references workflowId := by
  obtain ⟨hw, hb, huri, hmanifest, hrow⟩ := commitBarrier_leaves hcommit
  rw [references_eq hmanifest]
  constructor
  · intro hretry
    obtain ⟨-, -, -, hmanifest', -⟩ := commitBarrier_leaves hretry
    exact references_eq hmanifest'
  · intro hreferences
    have hrun : (Call.commitBarrier workflowId barrier uri).run now before = .ok (commit, after) := hcommit
    have hstep : History anyCall before after := History.of_run trivial hrun
    have hreached : History anyCall .empty later := (hpast.trans hstep).trans hlater
    obtain ⟨hcomplete, hentries⟩ := barrierManifest_eq_ok.mp hmanifest
    have hbarrier :
        ∀ key reference, commit.components.get? key = some reference → reference.sequence = barrier := by
      intro key reference hreference
      obtain ⟨link, row, hjoin, hrequired, -, href⟩ := (hentries key reference).mp hreference
      obtain ⟨checkpointUri, -, rfl⟩ := Option.map_eq_some_iff.mp href
      dsimp only
      rw [(hcomplete link row hjoin hrequired).1, Option.getD_some]
    have hmanifest' := barrierManifest_of_references (pointers_settled hreached) hreferences hbarrier
    have hexisting := commit?_eq_some.mpr ⟨commit_kept hlater hrow, rfl, rfl⟩
    obtain ⟨row, hworkflow⟩ : ∃ row, before.workflow? workflowId = some row := by
      obtain ⟨_, hworkflow, -⟩ := bind_eq_ok.mp hcommit
      exact ⟨_, orRaise_eq_ok.mp hworkflow⟩
    obtain ⟨row', hworkflow', -⟩ := workflow_lasts (hstep.trans hlater) hworkflow
    obtain ⟨w, b, u, components, createdAt⟩ := commit
    cases hw; cases hb; cases huri
    refine bind_eq_ok.mpr ⟨row', orRaise_eq_ok.mpr hworkflow', bind_eq_ok.mpr ⟨components, hmanifest', ?_⟩⟩
    dsimp only
    rw [hexisting, if_neg (by simp)]
    rfl

/-- A workflow whose trainer has published the checkpoint of the first barrier. -/
def readyForBarrier : List (Call × Time) :=
  [(.submitWorkflow (treeWorkflow "w1") [trainComponent "t0" 0] Dict.empty, 0),
    (.recordCheckpoint "t0" (trainerCheckpoint "gs://a" 1), 1)]

/-- What a successful first commit and further calls lead to. -/
def afterBarrier (calls : List (Call × Time)) : Option (BarrierCommit × SwarmStore × SwarmStore) :=
  (commitBarrier "w1" 1 none 2 (SwarmStore.empty.after readyForBarrier)).toOption.map fun (commit, after) =>
    (commit, after, after.after calls)

/-- The stores of the sample follow one another. -/
theorem afterBarrier_eq_some {calls : List (Call × Time)} (h : afterBarrier calls = some (commit, after, later)) :
    commitBarrier "w1" 1 none 2 (SwarmStore.empty.after readyForBarrier) = .ok (commit, after) ∧
      History anyCall after later := by
  obtain ⟨⟨_, _⟩, hcommit, heq⟩ := Option.map_eq_some_iff.mp h
  obtain ⟨rfl, rfl, rfl⟩ := heq
  exact ⟨toOption_eq_some.mp hcommit, history_any _ calls⟩

/-- A commit made again after the checkpoint was published again. -/
theorem retry_returns_repeated : ∃ before after commit later, History anyCall .empty before ∧
    commitBarrier "w1" 1 none 2 before = .ok (commit, after) ∧ History anyCall after later ∧
      commitBarrier "w1" 1 none 9 later = .ok (commit, later) := by
  have hany : ((afterBarrier [(.recordCheckpoint "t0" (trainerCheckpoint "gs://a" 1), 3)]).any fun (_, _, later) =>
      later.references "w1" = (SwarmStore.empty.after readyForBarrier).references "w1") = true := by decide +kernel
  obtain ⟨⟨commit, after, later⟩, hafter, hsame⟩ := (Option.any_eq_true _ _).mp hany
  obtain ⟨hcommit, hlater⟩ := afterBarrier_eq_some hafter
  have hpast := history_any .empty readyForBarrier
  exact ⟨_, after, commit, later, hpast, hcommit, hlater,
    (retry_returns hpast hcommit hlater).mpr (of_decide_eq_true hsame)⟩

/-- A commit made again after the next checkpoint was published: the barrier is committed, and the call
raises a conflict. -/
theorem retry_refused : ∃ before after commit later, History anyCall .empty before ∧
    commitBarrier "w1" 1 none 2 before = .ok (commit, after) ∧ History anyCall after later ∧
      commitBarrier "w1" 1 none 9 later = .error
        ⟨.barrierConflict, "barrier 1 missing matching checkpoints for: trainer"⟩ := by
  have hany : ((afterBarrier [(.recordCheckpoint "t0" (trainerCheckpoint "gs://b" 2), 3)]).any fun (_, _, later) =>
      match commitBarrier "w1" 1 none 9 later with
      | .error e => e = ⟨.barrierConflict, "barrier 1 missing matching checkpoints for: trainer"⟩
      | .ok _ => False) = true := by decide +kernel
  obtain ⟨⟨commit, after, later⟩, hafter, hraises⟩ := (Option.any_eq_true _ _).mp hany
  obtain ⟨hcommit, hlater⟩ := afterBarrier_eq_some hafter
  refine ⟨_, after, commit, later, history_any .empty readyForBarrier, hcommit, hlater, ?_⟩
  cases hretry : commitBarrier "w1" 1 none 9 later with
  | error e =>
    simp only [hretry] at hraises
    rw [of_decide_eq_true hraises]
  | ok _ => simp [hretry] at hraises

end TPUSwarm
