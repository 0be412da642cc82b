import TPUSwarm.Store.Schema
import TPUSwarm.Wire.Value

/-!
# Typed records from the wire

The decoders copy the mapping they get, put enumeration members and the checkpoint in their
places and call the constructor of the class with what they have. A generated constructor
takes any value for a field; it only checks which fields are given.
-/

namespace TPUSwarm

/-- The status with a given text. -/
def TaskStatus.ofValue? (text : String) : Option TaskStatus :=
  [pending, submitting, submitted, running, succeeded, failed, cancelled].find? (·.value = text)

/-- Looking a status up by its text finds it. -/
theorem TaskStatus.ofValue?_value (s : TaskStatus) : ofValue? s.value = some s := by
  cases s <;> decide

namespace PyValue

/-- `type(value).__name__`. -/
def typeName : PyValue → String
  | .none => "NoneType"
  | .bool _ => "bool"
  | .int _ => "int"
  | .float _ | .inf _ => "float"
  | .str _ => "str"
  | .enum (.priority _) => "Priority"
  | .enum (.taskStatus _) => "TaskStatus"
  | .enum (.consistencyMode _) => "ConsistencyMode"
  | .enum (.workflowStatus _) => "WorkflowStatus"
  | .list _ => "list"
  | .tuple _ => "tuple"
  | .dict _ => "dict"
  | .dataclass name _ => name

/-- The integer or text that an enumeration member is; any other value is itself. -/
def plain : PyValue → PyValue
  | .enum member => member.value
  | value => value

/-- `repr(value)` of a scalar; other values are shown by their type. -/
def repr (value : PyValue) : String :=
  match value with
  | .none => "None"
  | .bool b => if b then "True" else "False"
  | .int n => toString n
  | .str s => reprText s
  | _ => value.typeName

/-- `fields[key] = value`: a key that is there keeps its place. -/
def assign (key : String) (value : PyValue) : List (String × PyValue) → List (String × PyValue)
  | [] => [(key, value)]
  | entry :: rest => if entry.1 = key then (key, value) :: rest else entry :: assign key value rest

/-- The entry that an element of a sequence stands for in `dict(sequence)`. -/
def entry? : PyValue → Option (String × PyValue)
  | .list [.str key, item] | .tuple [.str key, item] => some (key, item)
  | .str s => match s.toList with
    | [a, b] => some (String.singleton a, .str (String.singleton b))
    | _ => Option.none
  | _ => Option.none

/-- `dict(value)`, where all keys are texts. -/
def toDict (value : PyValue) : Except PyError (List (String × PyValue)) :=
  let fromItems (items : List PyValue) : Except PyError (List (String × PyValue)) :=
    match items.mapM entry? with
    | some entries => .ok (entries.foldl (fun fields entry => assign entry.1 entry.2 fields) [])
    | Option.none => .error ⟨.value, "dictionary update sequence element has no length 2"⟩
  match value.plain with
  | .dict entries => .ok entries
  | .list items | .tuple items => fromItems items
  | .str s => fromItems (s.toList.map fun c => .str (String.singleton c))
  | _ => .error ⟨.type, "'" ++ value.typeName ++ "' object is not iterable"⟩

/-- `value.strip()` is empty. -/
def blank (value : PyValue) : Except PyError Bool :=
  match value.plain with
  | .str s => .ok (isBlank s)
  | _ => .error ⟨.other "AttributeError", "'" ++ value.typeName ++ "' object has no attribute 'strip'"⟩

/-- `int(value)`. -/
def toInt (value : PyValue) : Except PyError ℤ :=
  match value.plain with
  | .bool b => .ok (if b then 1 else 0)
  | .int n => .ok n
  | .float x => .ok (x.num.tdiv x.den)
  | .inf _ => .error ⟨.other "OverflowError", "cannot convert float infinity to integer"⟩
  | .str s => (spelledInt s).elim (.error (intError s)) .ok
  | _ => .error ⟨.type, "int() argument must be a string, a bytes-like object or a real number, not '" ++
      value.typeName ++ "'"⟩

/-- `Priority(value)`. -/
def toPriority (value : PyValue) : Except PyError Priority :=
  let member := match value.plain with
    | .int n => Priority.ofInt? n
    | .float x => if x.den = 1 then Priority.ofInt? x.num else Option.none
    | .bool b => Priority.ofInt? (if b then 1 else 0)
    | _ => Option.none
  member.elim (.error ⟨.value, value.repr ++ " is not a valid Priority"⟩) .ok

/-- `TaskStatus(value)`. -/
def toTaskStatus (value : PyValue) : Except PyError TaskStatus :=
  let member := match value.plain with
    | .str s => TaskStatus.ofValue? s
    | _ => Option.none
  member.elim (.error ⟨.value, value.repr ++ " is not a valid TaskStatus"⟩) .ok

mutual
/-- `json.dumps` accepts the value. -/
def serializable : PyValue → Bool
  | .list items | .tuple items => serializableItems items
  | .dict entries => serializableEntries entries
  | .dataclass _ _ => false
  | _ => true

/-- `json.dumps` accepts the elements of a sequence. -/
def serializableItems : List PyValue → Bool
  | [] => true
  | item :: rest => serializable item && serializableItems rest

/-- `json.dumps` accepts the values of a mapping. -/
def serializableEntries : List (String × PyValue) → Bool
  | [] => true
  | (_, item) :: rest => serializable item && serializableEntries rest
end

/-- `_json_dict`. -/
def jsonDict (value : PyValue) (fieldName : String) : Except PyError PyValue := do
  let result ← value.toDict
  if serializableEntries result then return .dict result
  else throw ⟨.value, fieldName ++ " must be JSON serializable"⟩

/-- The names of missing arguments as an error lists them. -/
def joinNames : List String → String
  | [] => ""
  | [a] => "'" ++ a ++ "'"
  | [a, b] => "'" ++ a ++ "' and '" ++ b ++ "'"
  | [a, b, c] => "'" ++ a ++ "', '" ++ b ++ "', and '" ++ c ++ "'"
  | a :: rest => "'" ++ a ++ "', " ++ joinNames rest

/-- The arguments of a generated `__init__` as the fields of the record.

Each declared field comes with its default, if it has one. -/
def bindFields (name : String) (declared : List (String × Option PyValue))
    (given : List (String × PyValue)) : Except PyError (List (String × PyValue)) :=
  match given.find? fun entry => entry.1 ∉ declared.map Prod.fst with
  | some entry => .error ⟨.type, name ++ ".__init__() got an unexpected keyword argument '" ++ entry.1 ++ "'"⟩
  | Option.none =>
    let missing := declared.filter fun field => ((given.lookup field.1).or field.2).isNone
    if missing = [] then
      .ok (declared.map fun field => (field.1, ((given.lookup field.1).or field.2).getD .none))
    else .error ⟨.type, name ++ ".__init__() missing " ++ toString missing.length ++
      " required positional argument" ++
      (if missing.length = 1 then "" else "s") ++ ": " ++ joinNames (missing.map Prod.fst)⟩

/-- Looking up the key of an entry finds its value when keys occur once. -/
theorem lookup_eq_some {entry : String × PyValue} {fields : List (String × PyValue)} (hmem : entry ∈ fields)
    (hnodup : (fields.map Prod.fst).Nodup) : fields.lookup entry.1 = some entry.2 := by
  induction fields with
  | nil => simp at hmem
  | cons first rest ih =>
    obtain ⟨hfirst, hrest⟩ := List.nodup_cons.mp hnodup
    rcases List.mem_cons.mp hmem with rfl | hmem
    · exact List.lookup_cons_self
    · have hne : (entry.1 == first.1) = false := by
        rw [beq_eq_false_iff_ne]
        exact fun heq => hfirst (heq ▸ List.mem_map_of_mem hmem)
      rw [List.lookup_cons, hne]
      exact ih hmem hrest

/-- With each declared field given once, in order, the fields are what was given. -/
theorem bindFields_self {name : String} {declared : List (String × Option PyValue)}
    {given : List (String × PyValue)} (hnames : given.map Prod.fst = declared.map Prod.fst)
    (hnodup : (declared.map Prod.fst).Nodup) : bindFields name declared given = .ok given := by
  have hlookup : ∀ entry ∈ given, given.lookup entry.1 = some entry.2 :=
    fun entry hentry => lookup_eq_some hentry (hnames ▸ hnodup)
  have hgiven : ∀ field ∈ declared, ∃ value, given.lookup field.1 = some value := by
    intro field hfield
    have hmem : field.1 ∈ given.map Prod.fst := hnames ▸ List.mem_map_of_mem hfield
    obtain ⟨entry, hentry, heq⟩ := List.mem_map.mp hmem
    exact ⟨entry.2, heq ▸ hlookup entry hentry⟩
  have hknown : (given.find? fun entry => entry.1 ∉ declared.map Prod.fst) = Option.none := by
    apply List.find?_eq_none.mpr
    intro entry hentry
    simpa [← hnames] using ⟨entry.2, hentry⟩
  have hpresent : (declared.filter fun field => ((given.lookup field.1).or field.2).isNone) = [] := by
    apply List.filter_eq_nil_iff.mpr
    intro field hfield
    obtain ⟨value, hvalue⟩ := hgiven field hfield
    simp [hvalue]
  have hfields : (declared.map fun field => (field.1, ((given.lookup field.1).or field.2).getD .none)) = given := by
    calc declared.map (fun field => (field.1, ((given.lookup field.1).or field.2).getD .none))
        = (declared.map Prod.fst).map fun key => (key, (given.lookup key).getD .none) := by
          rw [List.map_map]
          apply List.map_congr_left
          intro field hfield
          obtain ⟨value, hvalue⟩ := hgiven field hfield
          simp [hvalue]
      _ = given.map fun entry => (entry.1, (given.lookup entry.1).getD .none) := by
          rw [← hnames, List.map_map]
          rfl
      _ = given.map id := by
          apply List.map_congr_left
          intro entry hentry
          simp [hlookup entry hentry]
      _ = given := List.map_id given
  simp only [bindFields, hknown, hpresent, hfields, if_pos]

end PyValue

/-- The fields of `CheckpointRef`. -/
def CheckpointRef.declared : List (String × Option PyValue) :=
  [("uri", none), ("sequence", none), ("metadata", some (.dict []))]

/-- The fields of `TaskRecord`. -/
def TaskRecord.declared : List (String × Option PyValue) :=
  ["task_id", "kind", "resource_class", "payload", "metadata", "status", "priority", "recovery_priority",
    "idempotency_key", "job_id", "job_name", "executor_status", "recovery_count", "checkpoint", "result",
    "last_error", "workflow_id", "component_key", "generation", "submission_started_at", "created_at",
    "updated_at", "completed_at"].map fun name => (name, none)

/-- The fields of `TaskSpec`; a task id that is not given is a fresh one. -/
def TaskSpec.declared (freshId : String) : List (String × Option PyValue) :=
  [("kind", none), ("resource_class", none), ("payload", some (.dict [])), ("task_id", some (.str freshId)),
    ("priority", some (.enum (.priority .normal))),
    ("recovery_priority", some (.enum (.priority .blockingRecovery))), ("idempotency_key", some .none),
    ("metadata", some (.dict []))]

/-- `CheckpointRef(**checkpoint)`. -/
def checkpointRefInit (checkpoint : PyValue) : Except PyError PyValue :=
  match checkpoint with
  | .dict entries => do
    return .dataclass "CheckpointRef" (← PyValue.bindFields "CheckpointRef" CheckpointRef.declared entries)
  | _ => .error ⟨.type, "tpuswarm.types.CheckpointRef() argument after ** must be a mapping, not " ++
      checkpoint.typeName⟩

/-- `TaskSpec(**fields)`, with the checks of its constructor. -/
def taskSpecInit (freshId : String) (given : List (String × PyValue)) : Except PyError PyValue := do
  let fields ← PyValue.bindFields "TaskSpec" (TaskSpec.declared freshId) given
  let self (name : String) : PyValue := (fields.lookup name).getD .none
  if ← (self "kind").blank then throw ⟨.value, "kind must not be empty"⟩
  if ← (self "resource_class").blank then throw ⟨.value, "resource_class must not be empty"⟩
  let priority ← (self "priority").toInt
  if ¬ (-1000 ≤ priority ∧ priority ≤ 1000) then throw ⟨.value, "priority must be between -1000 and 1000"⟩
  let payload ← (self "payload").jsonDict "payload"
  let fields := PyValue.assign "payload" payload fields
  let metadata ← (self "metadata").jsonDict "metadata"
  return .dataclass "TaskSpec" (PyValue.assign "metadata" metadata fields)

/-- `task_spec_from_dict`. -/
def taskSpecFromDict (freshId : String) (value : PyValue) : Except PyError PyValue := do
  let fields ← value.toDict
  let priority ← ((fields.lookup "priority").getD (.enum (.priority .normal))).toPriority
  let fields := PyValue.assign "priority" (.enum (.priority priority)) fields
  let recoveryPriority ←
    ((fields.lookup "recovery_priority").getD (.enum (.priority .blockingRecovery))).toPriority
  let fields := PyValue.assign "recovery_priority" (.enum (.priority recoveryPriority)) fields
  taskSpecInit freshId fields

/-- A checkpoint that is there becomes a `CheckpointRef`. -/
def placeCheckpoint (fields : List (String × PyValue)) : Except PyError (List (String × PyValue)) :=
  match (fields.lookup "checkpoint").getD .none with
  | .none => .ok fields
  | checkpoint => (checkpointRefInit checkpoint).map fun ref => PyValue.assign "checkpoint" ref fields

/-- `task_record_from_dict`. -/
def taskRecordFromDict (value : PyValue) : Except PyError PyValue := do
  let fields ← value.toDict
  let status ← (← orRaise ⟨.key, "status"⟩ (fields.lookup "status")).toTaskStatus
  let fields := PyValue.assign "status" (.enum (.taskStatus status)) fields
  let priority ← (← orRaise ⟨.key, "priority"⟩ (fields.lookup "priority")).toPriority
  let fields := PyValue.assign "priority" (.enum (.priority priority)) fields
  let recoveryPriority ←
    (← orRaise ⟨.key, "recovery_priority"⟩ (fields.lookup "recovery_priority")).toPriority
  let fields := PyValue.assign "recovery_priority" (.enum (.priority recoveryPriority)) fields
  let fields ← placeCheckpoint fields
  return .dataclass "TaskRecord" (← PyValue.bindFields "TaskRecord" TaskRecord.declared fields)

end TPUSwarm
