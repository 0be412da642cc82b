import TPUSwarm.Invariants.Barriers
import TPUSwarm.Store.Publications

/-!
# Monotone checkpoint references

A task refers to the greatest of its checkpoints, in every state that calls can reach. The
table decides it alone, and checkpoints of different numbers can be published in any order.
-/

namespace TPUSwarm

open Common SwarmStore

variable {store store' : SwarmStore}

/-- The checkpoints of a task as the table has them. -/
theorem mem_published_task {taskId : String} {reference : CheckpointRef} :
    reference ∈ (store.published.filter (·.1 = taskId)).map Prod.snd ↔
      ∃ c ∈ store.checkpoints.rows, c.taskId = taskId ∧ c.reference = reference := by
  simp [published, CheckpointRow.published]

/-- No two checkpoints of a task have the same number. -/
theorem published_distinct (taskId : String) :
    ∀ a ∈ (store.published.filter (·.1 = taskId)).map Prod.snd,
      ∀ b ∈ (store.published.filter (·.1 = taskId)).map Prod.snd, a.sequence = b.sequence → a = b := by
  intro a ha b hb heq
  obtain ⟨c, hc, hcid, rfl⟩ := mem_published_task.mp ha
  obtain ⟨d, hd, hdid, rfl⟩ := mem_published_task.mp hb
  rw [store.checkpoints.eq_of_clash hc hd ⟨hcid.trans hdid.symm, heq⟩]

/-- A task refers to the greatest of its checkpoints, and to none when it has none. -/
theorem PointersSettled.latest (h : PointersSettled store) {row : TaskRow} (hrow : row ∈ store.tasks.rows) :
    row.toRecord.checkpoint = store.latestCheckpoint row.taskId ∧
      row.checkpointSequence = (store.latestCheckpoint row.taskId).map (·.sequence) := by
  have hcovers : ∀ c ∈ store.checkpoints.rows, c.taskId = row.taskId →
      ∃ sequence, row.checkpointSequence = some sequence ∧ c.sequence ≤ sequence := by
    intro c hc hid
    obtain ⟨r, hr, hrid, hsequence⟩ := h.covered c hc
    exact store.task_unique hr hrow (hrid.trans hid) ▸ hsequence
  rcases h.valid row hrow with hempty | ⟨c, hc, hpointer⟩
  · have huri : row.checkpointUri = none := congrArg Pointer.uri hempty
    have hsequence : row.checkpointSequence = none := congrArg Pointer.sequence hempty
    have hlatest : store.latestCheckpoint row.taskId = none := by
      apply List.argmax_eq_none.mpr
      apply List.eq_nil_iff_forall_not_mem.mpr
      intro reference hreference
      obtain ⟨c, hc, hid, -⟩ := mem_published_task.mp hreference
      obtain ⟨sequence, hsome, -⟩ := hcovers c hc hid
      rw [hsequence] at hsome
      cases hsome
    rw [hlatest, hsequence]
    exact ⟨by simp [TaskRow.toRecord, TaskRow.checkpoint, huri], rfl⟩
  · have hid : row.taskId = c.taskId := congrArg Pointer.taskId hpointer
    have huri : row.checkpointUri = some c.uri := congrArg Pointer.uri hpointer
    have hsequence : row.checkpointSequence = some c.sequence := congrArg Pointer.sequence hpointer
    have hmetadata : row.checkpointMetadataJson = some c.metadataJson := congrArg Pointer.metadataJson hpointer
    have hlatest : store.latestCheckpoint row.taskId = some c.reference := by
      refine argmax_eq_some_of_le (mem_published_task.mpr ⟨c, hc, hid.symm, rfl⟩) ?_ (published_distinct _)
      intro reference hreference
      obtain ⟨d, hd, hdid, rfl⟩ := mem_published_task.mp hreference
      obtain ⟨sequence, hsome, hle⟩ := hcovers d hd hdid
      rw [hsequence] at hsome
      cases hsome
      exact hle
    rw [hlatest, hsequence]
    refine ⟨?_, rfl⟩
    simp [TaskRow.toRecord, TaskRow.checkpoint, huri, hsequence, hmetadata, CheckpointRow.reference]

/-- The references of all tasks. -/
def SwarmStore.checkpointRefs (store : SwarmStore) : List (String × Option CheckpointRef) :=
  store.tasks.rows.map fun row => (row.taskId, row.toRecord.checkpoint)

/-- What there is to know about checkpoint references in a state and a later one. -/
structure CheckpointsMonotone (store store' : SwarmStore) : Prop where
  /-- A task refers to the greatest of its checkpoints. -/
  latest : ∀ row ∈ store.tasks.rows, row.toRecord.checkpoint = store.latestCheckpoint row.taskId
  /-- No checkpoint changes or goes away. -/
  rowsKept : store.checkpoints.rows <+: store'.checkpoints.rows
  /-- The number that a task refers to never falls. -/
  neverFalls : ∀ row ∈ store.tasks.rows, ∃ row' ∈ store'.tasks.rows, row'.taskId = row.taskId ∧
    ∀ reference, row.toRecord.checkpoint = some reference →
      ∃ reference', row'.toRecord.checkpoint = some reference' ∧ reference.sequence ≤ reference'.sequence
  /-- A checkpoint that is published again changes nothing, whatever its metadata. -/
  repeated : ∀ c ∈ store.checkpoints.rows, ∀ (metadata : Mapping) (now : Time), ∃ row,
    store.task? c.taskId = some row ∧
      (Call.recordCheckpoint c.taskId ⟨c.uri, c.sequence, metadata⟩).perform now store = (.ok row.toRecord, store)
  /-- Another place for a number that is taken is refused, and nothing changes. -/
  conflicting : ∀ c ∈ store.checkpoints.rows, ∀ (checkpoint : CheckpointRef) (now : Time),
    checkpoint.sequence = c.sequence → checkpoint.uri ≠ c.uri →
      (Call.recordCheckpoint c.taskId checkpoint).perform now store = (.error ⟨.barrierConflict,
        "checkpoint " ++ c.taskId ++ "/" ++ toString c.sequence ++ " already has a different URI"⟩, store)
  /-- Checkpoints of different numbers can be published in any order and at any times. -/
  anyOrder : ∀ publications publications' : List (Publication × Time),
    (publications.map Prod.fst).Perm (publications'.map Prod.fst) → (publications.map (·.1.key)).Nodup →
      (store.publishAll publications).published.Perm (store.publishAll publications').published ∧
        (store.publishAll publications).checkpointRefs = (store.publishAll publications').checkpointRefs

/-- The row of a key is found by it. -/
theorem checkpoint?_of_mem {c : CheckpointRow} (hc : c ∈ store.checkpoints.rows) :
    store.checkpoint? c.taskId c.sequence = some c := by
  have hfound : (store.checkpoint? c.taskId c.sequence).isSome :=
    List.find?_isSome.mpr ⟨c, hc, by simp⟩
  obtain ⟨d, hd⟩ := Option.isSome_iff_exists.mp hfound
  have hkey : d.taskId = c.taskId ∧ d.sequence = c.sequence := by simpa using List.find?_some hd
  rw [hd, store.checkpoints.eq_of_clash (List.mem_of_find?_eq_some hd) hc hkey]

namespace PointersSettled

/-- The task of a checkpoint has a row. -/
theorem task (h : PointersSettled store) {c : CheckpointRow} (hc : c ∈ store.checkpoints.rows) :
    ∃ row, store.task? c.taskId = some row ∧
      ∃ sequence, row.checkpointSequence = some sequence ∧ c.sequence ≤ sequence := by
  obtain ⟨row, hrow, hid, hsequence⟩ := h.covered c hc
  exact ⟨row, task?_eq_some.mpr ⟨hrow, hid⟩, hsequence⟩

/-- A checkpoint that is published again is neither inserted nor referred to again. -/
theorem repeated (h : PointersSettled store) {c : CheckpointRow} (hc : c ∈ store.checkpoints.rows)
    (metadata : Mapping) (now : Time) : ∃ row, store.task? c.taskId = some row ∧
      (Call.recordCheckpoint c.taskId ⟨c.uri, c.sequence, metadata⟩).perform now store =
        (.ok row.toRecord, store) := by
  obtain ⟨row, hrow, sequence, hsequence, hle⟩ := h.task hc
  have hpublish : store.publishCheckpoint c.taskId ⟨c.uri, c.sequence, metadata⟩ now = .ok store := by
    rw [publishCheckpoint, checkpoint?_of_mem hc]
    exact if_neg (not_not.mpr rfl)
  have hadvance : store.advanceCheckpoint row ⟨c.uri, c.sequence, metadata⟩ now = .ok store := by
    have hlate : ¬ row.checkpointSequence.all (· < c.sequence) := by
      simpa [hsequence] using hle
    exact if_neg hlate
  have hrun : (Call.recordCheckpoint c.taskId ⟨c.uri, c.sequence, metadata⟩).run now store =
      .ok (row.toRecord, store) := by
    refine bind_eq_ok.mpr ⟨row, orRaise_eq_ok.mpr hrow, bind_eq_ok.mpr ⟨store, hpublish, ?_⟩⟩
    exact bind_eq_ok.mpr ⟨store, hadvance, bind_eq_ok.mpr ⟨row, orRaise_eq_ok.mpr hrow, rfl⟩⟩
  exact ⟨row, hrow, by rw [Call.perform, hrun]⟩

/-- A number that is taken with another place is refused. -/
theorem conflicting (h : PointersSettled store) {c : CheckpointRow} (hc : c ∈ store.checkpoints.rows)
    {checkpoint : CheckpointRef} (now : Time) (hsequence : checkpoint.sequence = c.sequence)
    (huri : checkpoint.uri ≠ c.uri) :
    (Call.recordCheckpoint c.taskId checkpoint).perform now store = (.error ⟨.barrierConflict,
      "checkpoint " ++ c.taskId ++ "/" ++ toString c.sequence ++ " already has a different URI"⟩, store) := by
  obtain ⟨row, hrow, -⟩ := h.task hc
  have hpublish : store.publishCheckpoint c.taskId checkpoint now = .error ⟨.barrierConflict,
      "checkpoint " ++ c.taskId ++ "/" ++ toString c.sequence ++ " already has a different URI"⟩ := by
    rw [publishCheckpoint, hsequence, checkpoint?_of_mem hc]
    exact if_pos huri.symm
  apply Call.perform_of_error
  show SwarmStore.recordCheckpoint c.taskId checkpoint now store = _
  rw [SwarmStore.recordCheckpoint, hrow]
  show (store.publishCheckpoint c.taskId checkpoint now >>= _) = _
  rw [hpublish]
  rfl

/-- The references follow from the checkpoints and from which tasks there are. -/
theorem checkpointRefs_eq (h : PointersSettled store) :
    store.checkpointRefs = store.taskIds.map fun taskId => (taskId, store.latestCheckpoint taskId) := by
  rw [checkpointRefs, taskIds, List.map_map]
  apply List.map_congr_left
  intro row hrow
  rw [Function.comp_apply, (h.latest hrow).1]

end PointersSettled

/-- The order of the records does not matter to the latest one of a task. -/
theorem latestCheckpoint_perm (hperm : store.published.Perm store'.published) (taskId : String) :
    store.latestCheckpoint taskId = store'.latestCheckpoint taskId :=
  argmax_perm ((hperm.filter _).map _) (published_distinct taskId)

/-- The checkpoint of a task only moves to greater numbers. -/
theorem latestCheckpoint_rises (hkept : store.checkpoints.rows <+: store'.checkpoints.rows) {taskId : String}
    {reference : CheckpointRef} (h : store.latestCheckpoint taskId = some reference) :
    ∃ reference', store'.latestCheckpoint taskId = some reference' ∧ reference.sequence ≤ reference'.sequence := by
  refine le_argmax_of_subset (fun r hr => ?_) h
  obtain ⟨c, hc, hid, heq⟩ := mem_published_task.mp hr
  exact mem_published_task.mpr ⟨c, hkept.subset hc, hid, heq⟩

/-- In any order, publications of different numbers leave the same checkpoints and references. -/
theorem publishAll_perm {publications publications' : List (Publication × Time)}
    (hstore : History anyCall .empty store)
    (hperm : (publications.map Prod.fst).Perm (publications'.map Prod.fst))
    (hdistinct : (publications.map (·.1.key)).Nodup) :
    (store.publishAll publications).published.Perm (store.publishAll publications').published ∧
      (store.publishAll publications).checkpointRefs = (store.publishAll publications').checkpointRefs := by
  have hkeys : (publications.map (·.1.key)).Perm (publications'.map (·.1.key)) := by
    have hmapped := hperm.map Publication.key
    rw [List.map_map, List.map_map] at hmapped
    exact hmapped
  obtain ⟨hids, hpublished⟩ := published_publishAll publications store hdistinct
  obtain ⟨hids', hpublished'⟩ := published_publishAll publications' store (hkeys.nodup_iff.mp hdistinct)
  have hsame : (store.publishAll publications).published.Perm (store.publishAll publications').published := by
    rw [hpublished, hpublished']
    exact (hperm.filter _).append_left _
  have hsettled (calls : List (Publication × Time)) : PointersSettled (store.publishAll calls) :=
    pointers_settled (hstore.trans (history_any store _))
  refine ⟨hsame, ?_⟩
  rw [(hsettled publications).checkpointRefs_eq, (hsettled publications').checkpointRefs_eq, hids, hids']
  apply List.map_congr_left
  intro taskId _
  rw [latestCheckpoint_perm hsame]

/-- Checkpoint references are monotone, and the order in which checkpoints arrive does not matter. -/
theorem checkpoints_monotone (hstore : History anyCall .empty store) (hlater : History anyCall store store') :
    CheckpointsMonotone store store' := by
  have hsettled := pointers_settled hstore
  have hsettled' := pointers_settled (hstore.trans hlater)
  have hkept : store.checkpoints.rows <+: store'.checkpoints.rows :=
    hlater.invariant (I := fun s => store.checkpoints.rows <+: s.checkpoints.rows)
      (fun _ _ _ _ _ _ hrun hs => hs.trans (Call.extends_checkpoints hrun)) List.prefix_rfl
  refine ⟨fun row hrow => (hsettled.latest hrow).1, hkept, ?_, fun c hc => hsettled.repeated hc,
    fun c hc checkpoint now => hsettled.conflicting hc now, fun _ _ => publishAll_perm hstore⟩
  intro row hrow
  obtain ⟨row', hrow', horigin⟩ := HasOrigin.history ⟨row, hrow, rfl⟩ hlater
  have hid : row'.taskId = row.taskId := congrArg TaskOrigin.taskId horigin
  refine ⟨row', hrow', hid, fun reference href => ?_⟩
  rw [(hsettled.latest hrow).1] at href
  rw [(hsettled'.latest hrow').1, hid]
  exact latestCheckpoint_rises hkept href

/-- A task with its second checkpoint. -/
def secondCheckpoint : SwarmStore :=
  SwarmStore.after .empty [(.submitTask (trainTask "t"), 0),
    (.recordCheckpoint "t" (trainerCheckpoint "gs://b" 2), 1)]

/-- The first checkpoint arrives after the second, is kept and is not referred to. -/
theorem checkpoints_monotone_late :
    let store' := secondCheckpoint.after [(.recordCheckpoint "t" (trainerCheckpoint "gs://a" 1), 2)]
    CheckpointsMonotone secondCheckpoint store' ∧ store'.published.map (·.2.sequence) = [2, 1] ∧
      store'.checkpointRefs = [("t", some (trainerCheckpoint "gs://b" 2))] :=
  ⟨checkpoints_monotone (history_any .empty _) (history_any secondCheckpoint _), by decide +kernel,
    by decide +kernel⟩

end TPUSwarm
