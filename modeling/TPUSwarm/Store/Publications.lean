import TPUSwarm.Store.Origins
import TPUSwarm.Common.Greatest

/-!
# Publishing checkpoints

What a row of the checkpoint table records, apart from its time, is the task and the reference
that were published. A call of `record_checkpoint` adds one such record when its task exists
and has no checkpoint of that number, and none otherwise.
-/

namespace TPUSwarm

open Common

/-- A checkpoint and the task it is published for. -/
abbrev Publication := String × CheckpointRef

/-- The key of a publication in the checkpoint table. -/
def Publication.key (p : Publication) : String × ℤ := (p.1, p.2.sequence)

/-- The reference that a row of the table records. -/
def CheckpointRow.reference (row : CheckpointRow) : CheckpointRef :=
  ⟨row.uri, row.sequence, loads row.metadataJson⟩

/-- What a row of the table records, apart from its time. -/
def CheckpointRow.published (row : CheckpointRow) : Publication := (row.taskId, row.reference)

namespace SwarmStore

variable {store store' : SwarmStore} {now : Time}

/-- The publications that the checkpoint table records. -/
def published (store : SwarmStore) : List Publication := store.checkpoints.rows.map CheckpointRow.published

/-- The task ids that have a row. -/
def taskIds (store : SwarmStore) : List String := store.tasks.rows.map (·.taskId)

/-- The checkpoint of a task with the greatest sequence number. -/
def latestCheckpoint (store : SwarmStore) (taskId : String) : Option CheckpointRef :=
  @List.argmax _ ℤ Int.instLinearOrder.toPreorder Int.instLinearOrder.toDecidableLT (·.sequence)
    ((store.published.filter (·.1 = taskId)).map Prod.snd)

/-- The task exists and has no checkpoint of this number. -/
def Accepts (store : SwarmStore) (p : Publication) : Prop :=
  p.1 ∈ store.taskIds ∧ p.key ∉ store.published.map Publication.key

instance (store : SwarmStore) (p : Publication) : Decidable (store.Accepts p) :=
  inferInstanceAs (Decidable (_ ∧ _))

/-- The store after a number of publications, each at its time. -/
def publishAll (store : SwarmStore) (publications : List (Publication × Time)) : SwarmStore :=
  store.after (publications.map fun p => (.recordCheckpoint p.1.1 p.1.2, p.2))

/-- The ids of the tasks are those under which a task is found. -/
theorem mem_taskIds {taskId : String} : taskId ∈ store.taskIds ↔ ∃ row, store.task? taskId = some row := by
  constructor
  · intro hmem
    obtain ⟨row, hrow, rfl⟩ := List.mem_map.mp hmem
    exact ⟨row, task?_eq_some.mpr ⟨hrow, rfl⟩⟩
  · rintro ⟨row, hrow⟩
    obtain ⟨hmem, rfl⟩ := task?_eq_some.mp hrow
    exact List.mem_map_of_mem hmem

/-- Looking a checkpoint up finds nothing exactly when its key is new. -/
theorem checkpoint?_eq_none {taskId : String} {sequence : ℤ} :
    store.checkpoint? taskId sequence = none ↔ (taskId, sequence) ∉ store.published.map Publication.key := by
  simp [checkpoint?, published, CheckpointRow.published, CheckpointRow.reference, Publication.key]

/-- No column of a key changes by a newer reference, so the update cannot fail. -/
theorem updateTasks_advanced (store : SwarmStore) (taskId : String) (checkpoint : CheckpointRef) (now : Time) :
    ∃ store', store.updateTasks (·.taskId = taskId) (TaskRow.advanced checkpoint now) = .ok store' := by
  obtain ⟨tasks, htasks⟩ := store.tasks.update?_isSome (·.taskId = taskId) (TaskRow.advanced checkpoint now)
    fun a b h => by split at h <;> split at h <;> exact h
  exact ⟨{ store with tasks }, by rw [updateTasks, htasks]; rfl⟩

/-- Advancing the reference of a task keeps its row in its place and writes no checkpoint. -/
theorem advanceCheckpoint_keeps {row : TaskRow} {checkpoint : CheckpointRef} (hmem : row ∈ store.tasks.rows)
    (hadvance : store.advanceCheckpoint row checkpoint now = .ok store') :
    store'.taskIds = store.taskIds ∧ store'.checkpoints = store.checkpoints := by
  rcases advanceCheckpoint_eq_ok hmem hadvance with ⟨rfl, -⟩ | ⟨-, hrewrites, hframe⟩
  · exact ⟨rfl, rfl⟩
  · exact ⟨Untouched.rewrites hrewrites rfl, by rw [hframe]⟩

/-- A publication whose task exists and whose number is new is made. -/
theorem recordCheckpoint_of_accepts {p : Publication} (h : store.Accepts p) (now : Time) :
    ∃ task written, recordCheckpoint p.1 p.2 now store = .ok (task, written) := by
  obtain ⟨row, hrow⟩ := mem_taskIds.mp h.1
  obtain ⟨hmem, hid⟩ := task?_eq_some.mp hrow
  have hnew : store.checkpoint? p.1 p.2.sequence = none := checkpoint?_eq_none.mpr h.2
  have hfresh : ∀ c ∈ store.checkpoints.rows, ¬ Constrained.clash c
      ⟨p.1, p.2.sequence, p.2.uri, dumps p.2.metadata, now⟩ := by
    intro c hc hclash
    apply h.2
    refine List.mem_map.mpr ⟨c.published, List.mem_map_of_mem hc, ?_⟩
    exact Prod.ext hclash.1 hclash.2
  obtain ⟨checkpoints, hinsert⟩ := Table.insert?_isSome hfresh
  have hpublish : store.publishCheckpoint p.1 p.2 now = .ok { store with checkpoints } := by
    simp only [publishCheckpoint, hnew, insertCheckpoint, hinsert]
    rfl
  obtain ⟨written, hadvance⟩ : ∃ written,
      SwarmStore.advanceCheckpoint { store with checkpoints } row p.2 now = .ok written := by
    unfold advanceCheckpoint
    split
    · exact updateTasks_advanced _ row.taskId p.2 now
    · exact ⟨_, rfl⟩
  have hmem' : row ∈ ({ store with checkpoints } : SwarmStore).tasks.rows := hmem
  have hids : written.taskIds = store.taskIds := (advanceCheckpoint_keeps hmem' hadvance).1
  obtain ⟨updated, hupdated⟩ := mem_taskIds.mp (hids ▸ h.1)
  refine ⟨updated.toRecord, written, ?_⟩
  refine bind_eq_ok.mpr ⟨row, orRaise_eq_ok.mpr hrow, bind_eq_ok.mpr ⟨_, hpublish, ?_⟩⟩
  exact bind_eq_ok.mpr ⟨written, hadvance, bind_eq_ok.mpr ⟨updated, orRaise_eq_ok.mpr hupdated, rfl⟩⟩

/-- What a publication that was made adds: nothing when its number was taken, else its record. -/
theorem published_recordCheckpoint {p : Publication} {task : TaskRecord}
    (hrun : recordCheckpoint p.1 p.2 now store = .ok (task, store')) :
    store'.taskIds = store.taskIds ∧
      store'.published = store.published ++ if store.Accepts p then [p] else [] := by
  obtain ⟨row, mid, hmem, hid, hpublish, hadvance⟩ := recordCheckpoint_eq_ok hrun
  have htasks : mid.tasks = store.tasks := by rw [publishCheckpoint_frame hpublish]
  obtain ⟨hids, hcheckpoints⟩ := advanceCheckpoint_keeps (htasks ▸ hmem) hadvance
  have hpublished : store'.published = mid.published := by rw [published, hcheckpoints, published]
  refine ⟨hids.trans (by rw [taskIds, htasks, taskIds]), ?_⟩
  rw [hpublished]
  rcases publishCheckpoint_eq_ok hpublish with ⟨rfl, c, hc, hcid, hsequence, -⟩ | ⟨hfresh, hrows, -⟩
  · have htaken : p.key ∈ mid.published.map Publication.key :=
      List.mem_map.mpr ⟨c.published, List.mem_map_of_mem hc, Prod.ext hcid hsequence⟩
    rw [if_neg fun haccepts => haccepts.2 htaken, List.append_nil]
  · have haccepts : store.Accepts p := by
      refine ⟨mem_taskIds.mpr ⟨row, task?_eq_some.mpr ⟨hmem, hid⟩⟩, fun htaken => ?_⟩
      obtain ⟨q, hq, heq⟩ := List.mem_map.mp htaken
      obtain ⟨c, hc, rfl⟩ := List.mem_map.mp hq
      exact hfresh c hc ⟨congrArg Prod.fst heq, congrArg Prod.snd heq⟩
    rw [if_pos haccepts, published, hrows, List.map_append]
    rfl

/-- What a call of `record_checkpoint` adds, also when it raises. -/
theorem published_perform (store : SwarmStore) (p : Publication) (now : Time) :
    ((Call.recordCheckpoint p.1 p.2).perform now store).2.taskIds = store.taskIds ∧
      ((Call.recordCheckpoint p.1 p.2).perform now store).2.published =
        store.published ++ if store.Accepts p then [p] else [] := by
  by_cases haccepts : store.Accepts p
  · obtain ⟨task, written, hrun⟩ := recordCheckpoint_of_accepts haccepts now
    have hperform : (Call.recordCheckpoint p.1 p.2).perform now store = (.ok task, written) := by
      simp only [Call.perform, Call.run, hrun]
    rw [hperform]
    exact published_recordCheckpoint hrun
  · rcases (Call.recordCheckpoint p.1 p.2).perform_store now store with hsame | ⟨task, hrun⟩
    · rw [hsame, if_neg haccepts, List.append_nil]
      exact ⟨rfl, rfl⟩
    · exact published_recordCheckpoint hrun

/-- A publication of another number does not decide whether one is accepted. -/
theorem accepts_perform (store : SwarmStore) {p q : Publication} (now : Time) (hkey : q.key ≠ p.key) :
    ((Call.recordCheckpoint p.1 p.2).perform now store).2.Accepts q ↔ store.Accepts q := by
  obtain ⟨hids, hpublished⟩ := published_perform store p now
  have hother : q.key ∉ (if store.Accepts p then [p] else []).map Publication.key := by
    split_ifs <;> simp [hkey]
  rw [Accepts, Accepts, hids, hpublished, List.map_append, List.mem_append]
  exact and_congr_right fun _ => not_congr (or_iff_left hother)

/-- The publications of pairwise different numbers that are accepted are exactly those added. -/
theorem published_publishAll (publications : List (Publication × Time)) (store : SwarmStore)
    (hdistinct : (publications.map fun p => p.1.key).Nodup) :
    (store.publishAll publications).taskIds = store.taskIds ∧ (store.publishAll publications).published =
      store.published ++ (publications.map Prod.fst).filter store.Accepts := by
  induction publications generalizing store with
  | nil => simp [publishAll, after]
  | cons p rest ih =>
    obtain ⟨hfirst, hrest⟩ := List.nodup_cons.mp hdistinct
    obtain ⟨hids, hpublished⟩ := published_perform store p.1 p.2
    obtain ⟨hids', hpublished'⟩ := ih ((Call.recordCheckpoint p.1.1 p.1.2).perform p.2 store).2 hrest
    refine ⟨hids'.trans hids, hpublished'.trans ?_⟩
    have hsame : (rest.map Prod.fst).filter ((Call.recordCheckpoint p.1.1 p.1.2).perform p.2 store).2.Accepts =
        (rest.map Prod.fst).filter store.Accepts := by
      apply List.filter_congr
      intro q hq
      obtain ⟨r, hr, rfl⟩ := List.mem_map.mp hq
      have hkey : r.1.key ≠ p.1.key := fun heq => hfirst (List.mem_map.mpr ⟨r, hr, heq⟩)
      rw [decide_eq_decide]
      exact accepts_perform store p.2 hkey
    rw [hsame, hpublished, List.map_cons, List.filter_cons, List.append_assoc]
    split_ifs <;> simp_all

end SwarmStore

end TPUSwarm
