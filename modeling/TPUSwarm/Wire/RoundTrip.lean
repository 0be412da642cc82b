import TPUSwarm.Wire.Decode

/-!
# The decoders undo the encoder

The encoder is one recursion over any value, and the decoders rebuild the typed fields by
hand. A record or a specification that goes to the wire and comes back is the same value,
and the user data in it is never touched.
-/

namespace TPUSwarm

open PyValue

/-- A JSON value as Python code holds it. -/
def Json.toPy (v : Json) : PyValue := v.tree.toPy

/-- A value that may be absent. -/
def PyValue.orNone {α : Type} (f : α → PyValue) : Option α → PyValue
  | Option.none => .none
  | some x => f x

/-- The fields of a checkpoint as Python values. -/
def CheckpointRef.pyFields (c : CheckpointRef) : List (String × PyValue) :=
  [("uri", .str c.uri), ("sequence", .int c.sequence), ("metadata", (Json.obj c.metadata).toPy)]

/-- The object that a checkpoint is. -/
def CheckpointRef.toPy (c : CheckpointRef) : PyValue := .dataclass "CheckpointRef" c.pyFields

/-- The fields of a specification as Python values. -/
def TaskSpec.pyFields (s : TaskSpec) : List (String × PyValue) :=
  [("kind", .str s.kind), ("resource_class", .str s.resourceClass), ("payload", (Json.obj s.payload).toPy),
    ("task_id", .str s.taskId), ("priority", .enum (.priority s.priority)),
    ("recovery_priority", .enum (.priority s.recoveryPriority)),
    ("idempotency_key", orNone .str s.idempotencyKey), ("metadata", (Json.obj s.metadata).toPy)]

/-- The object that a specification is. -/
def TaskSpec.toPy (s : TaskSpec) : PyValue := .dataclass "TaskSpec" s.pyFields

/-- The fields of a task record as Python values. -/
def TaskRecord.pyFields (r : TaskRecord) : List (String × PyValue) :=
  [("task_id", .str r.taskId), ("kind", .str r.kind), ("resource_class", .str r.resourceClass),
    ("payload", (Json.obj r.payload).toPy), ("metadata", (Json.obj r.metadata).toPy),
    ("status", .enum (.taskStatus r.status)), ("priority", .enum (.priority r.priority)),
    ("recovery_priority", .enum (.priority r.recoveryPriority)),
    ("idempotency_key", orNone .str r.idempotencyKey), ("job_id", orNone .str r.jobId),
    ("job_name", .str r.jobName), ("executor_status", orNone .str r.executorStatus),
    ("recovery_count", .int r.recoveryCount), ("checkpoint", orNone CheckpointRef.toPy r.checkpoint),
    ("result", orNone (fun m => (Json.obj m).toPy) r.result), ("last_error", orNone .str r.lastError),
    ("workflow_id", orNone .str r.workflowId), ("component_key", orNone .str r.componentKey),
    ("generation", orNone (fun n : ℕ => .int n) r.generation),
    ("submission_started_at", orNone .float r.submissionStartedAt), ("created_at", .float r.createdAt),
    ("updated_at", .float r.updatedAt), ("completed_at", orNone .float r.completedAt)]

/-- The object that a task record is. -/
def TaskRecord.toPy (r : TaskRecord) : PyValue := .dataclass "TaskRecord" r.pyFields

namespace PyValue

/-- A value that may be absent goes to the wire as what it is when it is there. -/
theorem toJsonable_orNone {α : Type} (f : α → PyValue) (o : Option α) :
    toJsonable (asdict (orNone f o)) = orNone (fun x => toJsonable (asdict (f x))) o := by
  cases o with
  | none => simp [orNone, asdict]
  | some x => rfl

end PyValue

namespace Json

/-- `asdict` copies JSON values. -/
@[simp] theorem asdict_toPy (v : Json) : v.toPy.asdict = v.toPy := JsonTree.asdict_toPy v.tree

/-- `to_jsonable` is the identity on JSON values. -/
@[simp] theorem toJsonable_toPy (v : Json) : v.toPy.toJsonable = v.toPy := JsonTree.toJsonable_toPy v.tree

/-- The entries of a mapping as a Python dictionary has them. -/
theorem toPy_obj (m : Mapping) :
    (obj m).toPy = .dict (JsonTree.toPyEntries (m.entries.map fun e => (e.1, e.2.tree))) := rfl

end Json

/-- The fields of a checkpoint are JSON data. -/
theorem CheckpointRef.map_toJsonable (c : CheckpointRef) :
    (c.pyFields.map fun field => (field.1, toJsonable field.2)) = c.pyFields := by
  simp [CheckpointRef.pyFields]

/-- A checkpoint goes to the wire as the mapping of its fields. -/
@[simp] theorem CheckpointRef.toJsonable_toPy (c : CheckpointRef) : c.toPy.toJsonable = .dict c.pyFields := by
  simp [CheckpointRef.toPy, CheckpointRef.pyFields, asdict]

/-- `asdict` makes the mapping of its fields of a checkpoint. -/
@[simp] theorem CheckpointRef.asdict_toPy (c : CheckpointRef) : c.toPy.asdict = .dict c.pyFields := by
  simp [CheckpointRef.toPy, CheckpointRef.pyFields, asdict, asdictEntries]

/-- `CheckpointRef(**checkpoint)` gives the checkpoint back. -/
theorem checkpointRefInit_pyFields (c : CheckpointRef) :
    checkpointRefInit (.dict c.pyFields) = .ok c.toPy := by
  have hfields : bindFields "CheckpointRef" CheckpointRef.declared c.pyFields = .ok c.pyFields :=
    bindFields_self rfl (by decide)
  exact bind_eq_ok.mpr ⟨c.pyFields, hfields, rfl⟩

/-- A member is found by its value. -/
theorem toPriority_value (p : Priority) : (PyValue.int p.toInt).toPriority = .ok p := by
  simp [toPriority, plain, Priority.ofInt?_toInt]

/-- A status is looked up by its text. -/
theorem toTaskStatus_value (s : TaskStatus) : (PyValue.str s.value).toTaskStatus = .ok s := by
  simp [toTaskStatus, plain, TaskStatus.ofValue?_value]

/-- The mapping that a specification is on the wire. -/
def TaskSpec.wireFields (s : TaskSpec) : List (String × PyValue) :=
  assign "priority" (.int s.priority.toInt)
    (assign "recovery_priority" (.int s.recoveryPriority.toInt) s.pyFields)

/-- The mapping that a record is on the wire. -/
def TaskRecord.wireFields (r : TaskRecord) : List (String × PyValue) :=
  assign "status" (.str r.status.value) (assign "priority" (.int r.priority.toInt)
    (assign "recovery_priority" (.int r.recoveryPriority.toInt)
      (assign "checkpoint" (orNone (fun c => .dict c.pyFields) r.checkpoint) r.pyFields)))

/-- A specification goes to the wire as the mapping of its fields. -/
theorem TaskSpec.toJsonable_toPy (s : TaskSpec) : s.toPy.toJsonable = .dict s.wireFields := by
  simp [TaskSpec.toPy, TaskSpec.wireFields, TaskSpec.pyFields, assign, asdict, toJsonable_orNone,
    EnumMember.value]

/-- A record goes to the wire as the mapping of its fields. -/
theorem TaskRecord.toJsonable_toPy (r : TaskRecord) : r.toPy.toJsonable = .dict r.wireFields := by
  simp [TaskRecord.toPy, TaskRecord.wireFields, TaskRecord.pyFields, assign, asdict, toJsonable_orNone,
    CheckpointRef.map_toJsonable, EnumMember.value]

/-- Once the enumeration members are in place, placing the checkpoint gives the fields of the record. -/
theorem TaskRecord.placeCheckpoint_wireFields (r : TaskRecord) :
    placeCheckpoint (assign "recovery_priority" (.enum (.priority r.recoveryPriority))
      (assign "priority" (.enum (.priority r.priority))
        (assign "status" (.enum (.taskStatus r.status)) r.wireFields))) = .ok r.pyFields := by
  cases hcheckpoint : r.checkpoint with
  | none =>
    simp [placeCheckpoint, TaskRecord.wireFields, TaskRecord.pyFields, assign, hcheckpoint, orNone,
      List.lookup_cons]
  | some c =>
    simp [placeCheckpoint, TaskRecord.wireFields, TaskRecord.pyFields, assign, hcheckpoint, orNone,
      List.lookup_cons, checkpointRefInit_pyFields, Except.map]

/-- Decoding puts each enumeration member and the checkpoint back in its place. -/
theorem TaskRecord.decode_toJsonable (r : TaskRecord) : taskRecordFromDict r.toPy.toJsonable = .ok r.toPy := by
  have hfields : bindFields "TaskRecord" TaskRecord.declared r.pyFields = .ok r.pyFields :=
    bindFields_self rfl (by decide)
  have hstatus := toTaskStatus_value r.status
  have hpriority := toPriority_value r.priority
  have hrecovery := toPriority_value r.recoveryPriority
  rw [TaskRecord.toJsonable_toPy, taskRecordFromDict]
  refine bind_eq_ok.mpr ⟨r.wireFields, rfl, ?_⟩
  refine bind_eq_ok.mpr ⟨.str r.status.value, rfl, bind_eq_ok.mpr ⟨r.status, hstatus, ?_⟩⟩
  refine bind_eq_ok.mpr ⟨.int r.priority.toInt, rfl, bind_eq_ok.mpr ⟨r.priority, hpriority, ?_⟩⟩
  refine bind_eq_ok.mpr ⟨.int r.recoveryPriority.toInt, rfl, bind_eq_ok.mpr ⟨r.recoveryPriority, hrecovery, ?_⟩⟩
  refine bind_eq_ok.mpr ⟨r.pyFields, r.placeCheckpoint_wireFields, ?_⟩
  exact bind_eq_ok.mpr ⟨r.pyFields, hfields, rfl⟩

mutual
/-- `json.dumps` accepts JSON data. -/
theorem serializable_toPy : (t : JsonTree) → serializable t.toPy = true
  | .null | .bool _ | .int _ | .float _ | .inf _ | .str _ => rfl
  | .arr items => serializableItems_toPy items
  | .obj entries => serializableEntries_toPy entries

/-- `json.dumps` accepts items of JSON data. -/
theorem serializableItems_toPy : (items : List JsonTree) → serializableItems (JsonTree.toPyItems items) = true
  | [] => rfl
  | item :: rest => by
    simp [JsonTree.toPyItems, serializableItems, serializable_toPy item, serializableItems_toPy rest]

/-- `json.dumps` accepts entries of JSON data. -/
theorem serializableEntries_toPy : (entries : List (String × JsonTree)) →
    serializableEntries (JsonTree.toPyEntries entries) = true
  | [] => rfl
  | (_, item) :: rest => by
    simp [JsonTree.toPyEntries, serializableEntries, serializable_toPy item, serializableEntries_toPy rest]
end

/-- `_json_dict` accepts a JSON mapping and changes nothing. -/
theorem jsonDict_toPy (m : Mapping) (fieldName : String) :
    (Json.obj m).toPy.jsonDict fieldName = .ok (Json.obj m).toPy := by
  have hentries := serializableEntries_toPy (m.entries.map fun e => (e.1, e.2.tree))
  rw [Json.toPy_obj]
  refine bind_eq_ok.mpr ⟨_, rfl, ?_⟩
  rw [if_pos hentries]
  rfl

/-- The constructor accepts the fields of a specification and changes nothing. -/
theorem TaskSpec.init_pyFields (freshId : String) (s : TaskSpec) :
    taskSpecInit freshId s.pyFields = .ok s.toPy := by
  have hfields : bindFields "TaskSpec" (TaskSpec.declared freshId) s.pyFields = .ok s.pyFields :=
    bindFields_self rfl (by simp [TaskSpec.declared])
  have hkind : (PyValue.str s.kind).blank = .ok false := by simp [blank, plain, s.kind_nonempty]
  have hclass : (PyValue.str s.resourceClass).blank = .ok false := by
    simp [blank, plain, s.resourceClass_nonempty]
  have hrange := s.priority.toInt_inRange
  refine bind_eq_ok.mpr ⟨s.pyFields, hfields, ?_⟩
  refine bind_eq_ok.mpr ⟨false, hkind, ?_⟩
  refine bind_eq_ok.mpr ⟨false, hclass, ?_⟩
  refine bind_eq_ok.mpr ⟨s.priority.toInt, rfl, ?_⟩
  rw [if_neg (not_not.mpr hrange)]
  refine bind_eq_ok.mpr ⟨_, jsonDict_toPy s.payload "payload", ?_⟩
  refine bind_eq_ok.mpr ⟨_, jsonDict_toPy s.metadata "metadata", ?_⟩
  simp [TaskSpec.toPy, TaskSpec.pyFields, assign]
  rfl

/-- Decoding a specification puts its priorities back and passes the checks of the constructor. -/
theorem TaskSpec.decode_toJsonable (freshId : String) (s : TaskSpec) :
    taskSpecFromDict freshId s.toPy.toJsonable = .ok s.toPy := by
  have hpriority := toPriority_value s.priority
  have hrecovery := toPriority_value s.recoveryPriority
  have hfields : assign "recovery_priority" (.enum (.priority s.recoveryPriority))
      (assign "priority" (.enum (.priority s.priority)) s.wireFields) = s.pyFields := by
    simp [TaskSpec.wireFields, TaskSpec.pyFields, assign]
  rw [TaskSpec.toJsonable_toPy, taskSpecFromDict]
  refine bind_eq_ok.mpr ⟨s.wireFields, rfl, ?_⟩
  refine bind_eq_ok.mpr ⟨s.priority, hpriority, ?_⟩
  refine bind_eq_ok.mpr ⟨s.recoveryPriority, hrecovery, ?_⟩
  dsimp only
  rw [hfields]
  exact TaskSpec.init_pyFields freshId s

/-- Records and specifications survive the wire, and JSON data goes through it unaltered. -/
theorem wire_roundTrip :
    (∀ r : TaskRecord, taskRecordFromDict r.toPy.toJsonable = .ok r.toPy) ∧
      (∀ (freshId : String) (s : TaskSpec), taskSpecFromDict freshId s.toPy.toJsonable = .ok s.toPy) ∧
        ∀ v : Json, v.toPy.toJsonable = v.toPy :=
  ⟨TaskRecord.decode_toJsonable, TaskSpec.decode_toJsonable, Json.toJsonable_toPy⟩

end TPUSwarm
