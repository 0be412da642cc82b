import TPUSwarm.Store.Links

/-!
# Barrier manifests

The manifest of a barrier maps the key of every required component to the checkpoint that
its task refers to. It is stored as text and read back; reading gives the manifest that was
written, so stored manifests are equal exactly if the manifests are.
-/

namespace TPUSwarm

open Common

/-- A stored checkpoint reference is read back. -/
theorem decodeReference?_encodeReference (reference : CheckpointRef) :
    decodeReference? (encodeReference reference) = some reference := by
  have hnodup : ([("uri", Json.str reference.uri), ("sequence", .int reference.sequence),
      ("metadata", .obj reference.metadata)].map Prod.fst).Nodup :=
    show ["uri", "sequence", "metadata"].Nodup by decide
  have huri := (Dict.get?_ofList hnodup (k := "uri") (v := .str reference.uri)).mpr (by simp)
  have hsequence := (Dict.get?_ofList hnodup (k := "sequence") (v := .int reference.sequence)).mpr
    (by simp)
  have hmetadata := (Dict.get?_ofList hnodup (k := "metadata") (v := .obj reference.metadata)).mpr
    (by simp)
  have hkeys : (Dict.ofList [("uri", Json.str reference.uri), ("sequence", .int reference.sequence),
      ("metadata", .obj reference.metadata)]).keys.all (· ∈ ["uri", "sequence", "metadata"]) = true := by
    refine List.all_eq_true.mpr fun key hkey => ?_
    obtain ⟨value, hvalue⟩ := Dict.mem_keys_iff.mp hkey
    have hmem := (Dict.get?_ofList hnodup).mp hvalue
    simp only [List.mem_cons, Prod.mk.injEq, List.not_mem_nil, or_false] at hmem
    rcases hmem with ⟨rfl, -⟩ | ⟨rfl, -⟩ | ⟨rfl, -⟩ <;> decide
  unfold decodeReference? encodeReference
  rw [Json.view_obj]
  dsimp only
  rw [if_pos hkeys, huri, hsequence, hmetadata]
  simp only [Option.map_some, Option.getD_some, Json.view_str, Json.view_int, Json.view_obj]

/-- A stored manifest is read back. -/
theorem decodeManifest_encodeManifest (manifest : Dict String CheckpointRef) :
    decodeManifest (encodeManifest manifest) = .ok manifest := by
  have hentries (entries : List (String × CheckpointRef)) :
      (entries.map fun entry => (entry.1, encodeReference entry.2)).mapM (fun entry =>
        (orRaise ⟨.type, "CheckpointRef"⟩ (decodeReference? entry.2)).map fun reference =>
          (entry.1, reference)) = Except.ok entries := by
    induction entries with
    | nil => rfl
    | cons entry rest ih =>
      rw [List.map_cons, List.mapM_cons, ih, decodeReference?_encodeReference]
      rfl
  unfold decodeManifest
  rw [show (loads (encodeManifest manifest)).entries =
    manifest.entries.map fun entry => (entry.1, encodeReference entry.2) from rfl, hentries]
  change Except.ok (Dict.ofList manifest.entries) = _
  rw [Dict.ofList_entries]

namespace SwarmStore

variable {store store' : SwarmStore} {now : Time} {workflowId : String} {barrier : ℤ}

/-- The components of a workflow with the rows of their tasks. -/
theorem mem_joinComponents {link : ComponentRow} {row : TaskRow} :
    (link, row) ∈ store.joinComponents workflowId ↔
      link ∈ store.components.rows ∧ link.workflowId = workflowId ∧ store.task? link.taskId = some row := by
  unfold joinComponents
  rw [List.mem_filterMap]
  constructor
  · rintro ⟨found, hfound, hrow⟩
    obtain ⟨r, hr, hpair⟩ := Option.map_eq_some_iff.mp hrow
    obtain ⟨rfl, rfl⟩ := Prod.mk.inj hpair
    obtain ⟨hmem, hworkflow⟩ := List.mem_filter.mp hfound
    exact ⟨hmem, of_decide_eq_true hworkflow, hr⟩
  · rintro ⟨hmem, hworkflow, hrow⟩
    exact ⟨link, List.mem_filter.mpr ⟨hmem, decide_eq_true hworkflow⟩, by rw [hrow, Option.map_some]⟩

/-- A workflow has one component for each key. -/
theorem joinComponents_keys (store : SwarmStore) (workflowId : String) :
    (store.joinComponents workflowId).Pairwise fun a b => a.1.componentKey ≠ b.1.componentKey := by
  unfold joinComponents
  have hlinks : (store.components.rows.filter (·.workflowId = workflowId)).Pairwise
      fun a b => a.componentKey ≠ b.componentKey := by
    refine List.Pairwise.imp_of_mem (fun {a b} ha hb hclash hkey => ?_) (store.components.unique.filter _)
    have hworkflow := (of_decide_eq_true (List.mem_filter.mp ha).2 : a.workflowId = workflowId).trans
      (of_decide_eq_true (List.mem_filter.mp hb).2 : b.workflowId = workflowId).symm
    exact hclash (Or.inl ⟨hworkflow, hkey⟩)
  refine hlinks.filterMap _ fun a b hab x hx y hy => ?_
  obtain ⟨_, -, rfl⟩ := Option.map_eq_some_iff.mp hx
  obtain ⟨_, -, rfl⟩ := Option.map_eq_some_iff.mp hy
  exact hab

/-- The components of a workflow are its links with their tasks. -/
theorem getWorkflowComponents_get? {key : String} {task : TaskRecord} :
    (store.getWorkflowComponents workflowId).get? key = some task ↔
      ∃ link r, (link, r) ∈ store.joinComponents workflowId ∧ link.componentKey = key ∧
        r.linkedRecord key = task := by
  unfold getWorkflowComponents
  rw [Dict.get?_ofList, List.mem_map]
  · constructor
    · rintro ⟨⟨link, r⟩, hjoin, hpair⟩
      obtain ⟨rfl, htask⟩ := Prod.mk.inj hpair
      exact ⟨link, r, hjoin, rfl, htask⟩
    · rintro ⟨link, r, hjoin, rfl, rfl⟩
      exact ⟨(link, r), hjoin, rfl⟩
  · rw [List.map_map]
    exact List.pairwise_map.mpr (store.joinComponents_keys workflowId)

/-- The component of a key is the task of its link. -/
theorem getWorkflowComponents_lookup (store : SwarmStore) (workflowId key : String) :
    (store.getWorkflowComponents workflowId).get? key =
      (store.component? workflowId key).bind fun link =>
        (store.task? link.taskId).map (TaskRow.linkedRecord key) := by
  refine Option.ext fun task => ?_
  rw [getWorkflowComponents_get?, Option.bind_eq_some_iff]
  constructor
  · rintro ⟨link, row, hjoin, rfl, rfl⟩
    obtain ⟨hmem, hworkflow, hrow⟩ := mem_joinComponents.mp hjoin
    exact ⟨link, component?_eq_some.mpr ⟨hmem, Prod.ext hworkflow rfl⟩, by rw [hrow, Option.map_some]⟩
  · rintro ⟨link, hlink, htask⟩
    obtain ⟨row, hrow, rfl⟩ := Option.map_eq_some_iff.mp htask
    obtain ⟨hmem, hplace⟩ := component?_eq_some.mp hlink
    obtain ⟨hworkflow, hkey⟩ := Prod.mk.inj hplace
    exact ⟨link, row, mem_joinComponents.mpr ⟨hmem, hworkflow, hrow⟩, hkey, rfl⟩

/-- The checkpoint that a required component contributes to a barrier. -/
def Contributes (store : SwarmStore) (workflowId key : String) (reference : CheckpointRef) : Prop :=
  ∃ link row, (link, row) ∈ store.joinComponents workflowId ∧ link.required = true ∧
    link.componentKey = key ∧ row.checkpoint = some reference

/-- Every required component refers to a checkpoint of the barrier. -/
def RequiredAt (store : SwarmStore) (workflowId : String) (barrier : ℤ) : Prop :=
  ∀ link row, (link, row) ∈ store.joinComponents workflowId → link.required = true →
    row.checkpointSequence = some barrier ∧ row.checkpointUri ≠ none

/-- Nothing lacks the barrier if every required component refers to a checkpoint of it. -/
theorem filter_lacksBarrier_eq_nil :
    (store.joinComponents workflowId).filter (fun (link, row) => lacksBarrier barrier link row) = [] ↔
      store.RequiredAt workflowId barrier := by
  rw [List.filter_eq_nil_iff]
  constructor
  · intro h link row hmem hrequired
    have hlacks := h (link, row) hmem
    simp only [lacksBarrier, hrequired, Bool.true_and, Bool.or_eq_true, decide_eq_true_eq, not_or,
      not_not] at hlacks
    exact hlacks
  · rintro h ⟨link, row⟩ hmem
    by_cases hrequired : link.required = true
    · obtain ⟨hsequence, huri⟩ := h link row hmem hrequired
      simp [lacksBarrier, hsequence, huri]
    · simp [lacksBarrier, hrequired]

/-- The entries of the manifest are the contributions of the required components. -/
theorem get?_manifestEntries (hcomplete : store.RequiredAt workflowId barrier) (key : String)
    (reference : CheckpointRef) :
    (Dict.ofList (((store.joinComponents workflowId).filter (·.1.required)).map
      fun (link, row) => manifestEntry link row)).get? key = some reference ↔
        store.Contributes workflowId key reference := by
  have hentry : ∀ (link : ComponentRow) (row : TaskRow), row.checkpointUri ≠ none →
      (manifestEntry link row = (key, reference) ↔ link.componentKey = key ∧ row.checkpoint = some reference) := by
    intro link row huri
    obtain ⟨uri, huri⟩ := Option.ne_none_iff_exists'.mp huri
    rw [manifestEntry, TaskRow.checkpoint, huri, Option.getD_some, Option.map_some, Prod.mk.injEq,
      Option.some.injEq]
  rw [Dict.get?_ofList, List.mem_map]
  · constructor
    · rintro ⟨⟨link, row⟩, hmem, hpair⟩
      obtain ⟨hjoin, hrequired⟩ := List.mem_filter.mp hmem
      obtain ⟨hkey, href⟩ := (hentry link row (hcomplete link row hjoin hrequired).2).mp hpair
      exact ⟨link, row, hjoin, hrequired, hkey, href⟩
    · rintro ⟨link, row, hjoin, hrequired, hkey, href⟩
      exact ⟨(link, row), List.mem_filter.mpr ⟨hjoin, hrequired⟩,
        (hentry link row (hcomplete link row hjoin hrequired).2).mpr ⟨hkey, href⟩⟩
  · rw [List.map_map]
    exact List.pairwise_map.mpr ((store.joinComponents_keys workflowId).filter _)

/-- A barrier has a manifest if every required component refers to a checkpoint of the barrier; the
manifest holds these checkpoints. -/
theorem barrierManifest_eq_ok {manifest : Dict String CheckpointRef} :
    store.barrierManifest workflowId barrier = .ok manifest ↔
      (∀ link row, (link, row) ∈ store.joinComponents workflowId → link.required = true →
        row.checkpointSequence = some barrier ∧ row.checkpointUri ≠ none) ∧
      ∀ key reference, manifest.get? key = some reference ↔ store.Contributes workflowId key reference := by
  unfold barrierManifest
  dsimp only
  split
  · rename_i hmissing
    exact ⟨fun h => (by cases h), fun h => absurd (filter_lacksBarrier_eq_nil.mpr h.1) hmissing⟩
  · rename_i hnone
    have hcomplete := filter_lacksBarrier_eq_nil.mp (not_not.mp hnone)
    constructor
    · intro h
      rw [← Except.ok.inj h]
      exact ⟨hcomplete, get?_manifestEntries hcomplete⟩
    · rintro ⟨-, hmanifest⟩
      refine congrArg Except.ok (Dict.ext_get? fun key => Option.ext fun reference => ?_)
      rw [get?_manifestEntries hcomplete, hmanifest]

/-- The commit row of a workflow and a barrier. -/
theorem commit?_eq_some {row : CommitRow} : store.commit? workflowId barrier = some row ↔
    row ∈ store.commits.rows ∧ row.workflowId = workflowId ∧ row.barrier = barrier := by
  unfold commit?
  constructor
  · intro h
    have hkey := List.find?_some h
    rw [Bool.and_eq_true_iff, decide_eq_true_eq, decide_eq_true_eq] at hkey
    exact ⟨List.mem_of_find?_eq_some h, hkey⟩
  · rintro ⟨hmem, hkey⟩
    obtain ⟨found, hfound⟩ := Option.isSome_iff_exists.mp
      (List.find?_isSome.mpr ⟨row, hmem, by
        rw [Bool.and_eq_true_iff, decide_eq_true_eq, decide_eq_true_eq]
        exact hkey⟩ :
        (store.commits.rows.find? fun row => row.workflowId = workflowId && row.barrier = barrier).isSome)
    have hfoundKey := List.find?_some hfound
    rw [Bool.and_eq_true_iff, decide_eq_true_eq, decide_eq_true_eq] at hfoundKey
    have heq : found = row := store.commits.eq_of_clash (List.mem_of_find?_eq_some hfound) hmem
      ⟨hfoundKey.1.trans hkey.1.symm, hfoundKey.2.trans hkey.2.symm⟩
    rw [hfound, heq]

/-- A commit that returns leaves its row in the table. -/
theorem commitBarrier_leaves {uri : Option String} {commit : BarrierCommit}
    (h : commitBarrier workflowId barrier uri now store = .ok (commit, store')) :
    commit.workflowId = workflowId ∧ commit.barrier = barrier ∧ commit.controllerCheckpointUri = uri ∧
      store.barrierManifest workflowId barrier = .ok commit.components ∧
      ⟨workflowId, barrier, uri, encodeManifest commit.components, commit.createdAt⟩ ∈ store'.commits.rows := by
  obtain ⟨manifest, hmanifest, ⟨row, hrow, hw, hb, htext, huri, rfl, rfl⟩ | ⟨-, -, rfl, hrows, -⟩⟩ :=
    commitBarrier_eq_ok h
  · refine ⟨rfl, rfl, rfl, hmanifest, ?_⟩
    obtain ⟨w, b, u, text, createdAt⟩ := row
    cases hw; cases hb; cases htext; cases huri
    exact hrow
  · exact ⟨rfl, rfl, rfl, hmanifest, hrows ▸ List.mem_append_right _ List.mem_cons_self⟩

/-- The greatest commit of a workflow, if it has one. -/
theorem greatestCommit?_eq_some {row : CommitRow} (h : store.greatestCommit? workflowId = some row) :
    row ∈ store.commits.rows ∧ row.workflowId = workflowId ∧
      ∀ other ∈ store.commits.rows, other.workflowId = workflowId → other.barrier ≤ row.barrier := by
  have : Std.Total fun a b : CommitRow => b.barrier ≤ a.barrier := ⟨fun a b => le_total b.barrier a.barrier⟩
  have : IsTrans CommitRow fun a b => b.barrier ≤ a.barrier := ⟨fun _ _ _ hab hbc => le_trans hbc hab⟩
  have hsorted := List.pairwise_insertionSort (fun a b : CommitRow => b.barrier ≤ a.barrier)
    (store.commits.rows.filter (·.workflowId = workflowId))
  have hmem (other : CommitRow) : other ∈ (store.commits.rows.filter (·.workflowId = workflowId)).insertionSort
      (fun a b => b.barrier ≤ a.barrier) ↔ other ∈ store.commits.rows ∧ other.workflowId = workflowId := by
    rw [(List.perm_insertionSort _ _).mem_iff, List.mem_filter, decide_eq_true_eq]
  unfold greatestCommit? at h
  obtain ⟨rest, hlist⟩ := List.head?_eq_some_iff.mp h
  rw [hlist] at hsorted hmem
  obtain ⟨hrow, hworkflow⟩ := (hmem row).mp List.mem_cons_self
  refine ⟨hrow, hworkflow, fun other hother hsame => ?_⟩
  rcases List.mem_cons.mp ((hmem other).mpr ⟨hother, hsame⟩) with rfl | hrest
  · exact le_rfl
  · exact (List.pairwise_cons.mp hsorted).1 other hrest

/-- A workflow without a greatest commit has no commit. -/
theorem greatestCommit?_eq_none (h : store.greatestCommit? workflowId = none) :
    ∀ row ∈ store.commits.rows, row.workflowId ≠ workflowId := by
  unfold greatestCommit? at h
  have hperm := List.perm_insertionSort (fun a b : CommitRow => b.barrier ≤ a.barrier)
    (store.commits.rows.filter (·.workflowId = workflowId))
  rw [List.head?_eq_none_iff.mp h] at hperm
  intro row hrow
  simpa using List.filter_eq_nil_iff.mp hperm.nil_eq.symm row hrow

/-- The latest barrier is what the row of the greatest commit spells. -/
theorem latestBarrier_eq {manifest : Dict String CheckpointRef} {uri : Option String} {createdAt : Time}
    (hrow : (⟨workflowId, barrier, uri, encodeManifest manifest, createdAt⟩ : CommitRow) ∈ store.commits.rows)
    (hgreatest : ∀ other ∈ store.commits.rows, other.workflowId = workflowId → other.barrier ≤ barrier) :
    latestBarrier workflowId store = .ok (some ⟨workflowId, barrier, uri, manifest, createdAt⟩) := by
  cases hfound : store.greatestCommit? workflowId with
  | none => exact absurd rfl (greatestCommit?_eq_none hfound _ hrow)
  | some found =>
    obtain ⟨hmem, hworkflow, hmax⟩ := greatestCommit?_eq_some hfound
    have hbarrier : found.barrier = barrier := le_antisymm (hgreatest found hmem hworkflow) (hmax _ hrow rfl)
    obtain rfl := store.commits.eq_of_clash hmem hrow ⟨hworkflow, hbarrier⟩
    rw [latestBarrier, hfound]
    dsimp only
    rw [decodeManifest_encodeManifest]
    rfl

end SwarmStore

end TPUSwarm
