import TPUSwarm.Store.Workflows

/-!
# Algorithmic barriers and controller leadership

A barrier commit takes the current checkpoints of the required components as its manifest.
The manifest is stored as JSON and read back field by field. Leadership is a single row
with a fence token and an expiry time.
-/

namespace TPUSwarm

open Common

/-- The JSON value of one manifest entry. -/
def encodeReference (reference : CheckpointRef) : Json :=
  .obj (Dict.ofList [("uri", .str reference.uri), ("sequence", .int reference.sequence),
    ("metadata", .obj reference.metadata)])

/-- `CheckpointRef(**value)` for a value with text, integer and mapping fields. -/
def decodeReference? (value : Json) : Option CheckpointRef :=
  match value.view with
  | .obj fields =>
    if fields.keys.all (· ∈ ["uri", "sequence", "metadata"]) then
      match (fields.get? "uri").map Json.view, (fields.get? "sequence").map Json.view,
          ((fields.get? "metadata").getD (.obj Dict.empty)).view with
      | some (.str uri), some (.int sequence), .obj metadata => some ⟨uri, sequence, metadata⟩
      | _, _, _ => none
    else none
  | _ => none

/-- The stored text of a manifest. -/
def encodeManifest (manifest : Dict String CheckpointRef) : JsonText :=
  dumps (manifest.mapValues encodeReference)

/-- The manifest a stored text spells; entries that do not decode raise. -/
def decodeManifest (text : JsonText) : Except PyError (Dict String CheckpointRef) := do
  let entries ← (loads text).entries.mapM fun entry =>
    (orRaise ⟨.type, "CheckpointRef"⟩ (decodeReference? entry.2)).map fun reference =>
      (entry.1, reference)
  return Dict.ofList entries

/-- The required component has no checkpoint of the barrier. -/
def lacksBarrier (barrier : ℤ) (link : ComponentRow) (row : TaskRow) : Bool :=
  link.required && (row.checkpointSequence ≠ some barrier || row.checkpointUri = none)

/-- The manifest entry of a component: the checkpoint columns of its task. -/
def manifestEntry (link : ComponentRow) (row : TaskRow) : String × CheckpointRef :=
  (link.componentKey, ⟨row.checkpointUri.getD "", row.checkpointSequence.getD 0,
    (row.checkpointMetadataJson.map loads).getD Dict.empty⟩)

namespace SwarmStore

/-- The manifest of the required components, or the conflict that names what is missing. -/
def barrierManifest (workflowId : String) (barrier : ℤ) (store : SwarmStore) :
    Except PyError (Dict String CheckpointRef) :=
  let rows := store.joinComponents workflowId
  let missing := rows.filter fun (link, row) => lacksBarrier barrier link row
  if missing ≠ [] then
    .error ⟨.barrierConflict, "barrier " ++ toString barrier ++ " missing matching checkpoints for: " ++
      joinSorted (missing.map (·.1.componentKey))⟩
  else
    .ok (Dict.ofList ((rows.filter (·.1.required)).map fun (link, row) => manifestEntry link row))

/-- The commit row of a workflow and a barrier. -/
def commit? (store : SwarmStore) (workflowId : String) (barrier : ℤ) : Option CommitRow :=
  store.commits.rows.find? fun row => row.workflowId = workflowId && row.barrier = barrier

/-- `INSERT INTO workflow_commits`. -/
def insertCommit (store : SwarmStore) (row : CommitRow) : Except PyError SwarmStore := do
  let commits ← orRaise (integrityError "UNIQUE") (store.commits.insert? row)
  return { store with commits }

/-- The commit row and its event, written when the barrier was not committed before. -/
def recordCommit (store : SwarmStore) (existing : Option CommitRow) (row : CommitRow) :
    Except PyError SwarmStore :=
  match existing with
  | some _ => .ok store
  | none => do
    let store ← store.insertCommit row
    store.insertEvent row.workflowId "BarrierCommitted" none none
      (Dict.ofList [("barrier", .int row.barrier)]) row.createdAt

/-- `SwarmStore.commit_barrier`. -/
def commitBarrier (workflowId : String) (barrier : ℤ) (controllerCheckpointUri : Option String)
    (now : Time) : Transaction BarrierCommit := fun store => do
  let _ ← orRaise ⟨.workflowNotFound, workflowId⟩ (store.workflow? workflowId)
  let manifest ← store.barrierManifest workflowId barrier
  let encoded := encodeManifest manifest
  let existing := store.commit? workflowId barrier
  if existing.any fun row =>
      row.manifestJson ≠ encoded || row.controllerCheckpointUri ≠ controllerCheckpointUri then
    throw ⟨.barrierConflict, "barrier " ++ toString barrier ++ " already committed"⟩
  let store ← store.recordCommit existing ⟨workflowId, barrier, controllerCheckpointUri, encoded, now⟩
  return (⟨workflowId, barrier, controllerCheckpointUri, manifest,
    (existing.map CommitRow.createdAt).getD now⟩, store)

/-- `ORDER BY barrier DESC LIMIT 1`. -/
def greatestCommit? (store : SwarmStore) (workflowId : String) : Option CommitRow :=
  ((store.commits.rows.filter (·.workflowId = workflowId)).insertionSort
    fun a b => b.barrier ≤ a.barrier).head?

/-- `SwarmStore.latest_barrier`. -/
def latestBarrier (workflowId : String) (store : SwarmStore) : Except PyError (Option BarrierCommit) :=
  match store.greatestCommit? workflowId with
  | none => .ok none
  | some row => do
    let components ← decodeManifest row.manifestJson
    return some ⟨workflowId, row.barrier, row.controllerCheckpointUri, components, row.createdAt⟩

/-- `SwarmStore.acquire_leadership`. -/
def acquireLeadership (controllerId : String) (leaseSeconds : Time) (now : Time) :
    Transaction (Option ControllerLease) := fun store =>
  if store.leadership.any fun row => row.leaseExpiresAt > now && row.controllerId ≠ controllerId then
    .ok (none, store)
  else
    let token := (store.leadership.map fun row => row.fenceToken + 1).getD 1
    .ok (some ⟨controllerId, token, now + leaseSeconds⟩,
      { store with leadership := some ⟨controllerId, token, now + leaseSeconds, now⟩ })

/-- The row is the one a lease stands for, and it has not expired. -/
def holdsLeadership (lease : ControllerLease) (now : Time) (row : LeadershipRow) : Bool :=
  row.controllerId = lease.controllerId && row.fenceToken = lease.fenceToken &&
    row.leaseExpiresAt ≥ now

/-- `SwarmStore.renew_leadership`. -/
def renewLeadership (lease : ControllerLease) (leaseSeconds : Time) (now : Time) :
    Transaction ControllerLease := fun store =>
  match store.leadership.filter (holdsLeadership lease now) with
  | none => .error ⟨.leadershipLost, lease.controllerId⟩
  | some row =>
    .ok (⟨lease.controllerId, lease.fenceToken, now + leaseSeconds⟩,
      { store with leadership := some { row with leaseExpiresAt := now + leaseSeconds,
                                                 updatedAt := now } })

end SwarmStore

end TPUSwarm
