import TPUSwarm.Common.Replay
import TPUSwarm.Common.Table
import TPUSwarm.Types

/-!
# The tables of the store

One structure for each table of the schema, with its columns, and the uniqueness
constraints as the clash relation of its rows. A store is the content of all tables. The
row of the task table becomes a `TaskRecord` by decoding its text columns.
-/

namespace TPUSwarm

open Common

/-- Two nullable columns of a unique index agree; nulls are distinct from each other. -/
def sharesValue {α : Type} (a b : Option α) : Prop := a ≠ none ∧ a = b

instance {α : Type} [DecidableEq α] : DecidableRel (sharesValue (α := α)) := fun a b =>
  inferInstanceAs (Decidable (a ≠ none ∧ a = b))

/-- Sharing a value is symmetric. -/
theorem sharesValue.symm {α : Type} {a b : Option α} (h : sharesValue a b) : sharesValue b a :=
  ⟨h.2 ▸ h.1, h.2.symm⟩

/-- Something shares its value with what has the same. -/
theorem sharesValue_some {α : Type} {x : α} {b : Option α} : sharesValue (some x) b ↔ b = some x := by
  simp [sharesValue, eq_comm]

/-- A row of `tasks`. -/
structure TaskRow where
  taskId : String
  idempotencyKey : Option String
  kind : String
  resourceClass : String
  payloadJson : JsonText
  metadataJson : JsonText
  status : TaskStatus
  priority : Priority
  recoveryPriority : Priority
  jobId : Option String
  jobName : String
  executorStatus : Option String
  recoveryCount : ℤ
  checkpointUri : Option String
  checkpointSequence : Option ℤ
  checkpointMetadataJson : Option JsonText
  resultJson : Option JsonText
  lastError : Option String
  workflowId : Option String
  componentKey : Option String
  generation : Option ℕ
  submissionStartedAt : Option Time
  createdAt : Time
  updatedAt : Time
  completedAt : Option Time
deriving DecidableEq

/-- The primary key, the unique columns and the unique index of `tasks`. -/
def TaskRow.clash (a b : TaskRow) : Prop :=
  a.taskId = b.taskId ∨ sharesValue a.idempotencyKey b.idempotencyKey ∨ sharesValue a.jobId b.jobId ∨
    a.jobName = b.jobName ∨
    (sharesValue a.workflowId b.workflowId ∧ sharesValue a.componentKey b.componentKey ∧
      sharesValue a.generation b.generation)

instance : Constrained TaskRow where
  clash := TaskRow.clash
  clash_symm := by
    rintro a b (h | h | h | h | ⟨hw, hc, hg⟩)
    · exact Or.inl h.symm
    · exact Or.inr (Or.inl h.symm)
    · exact Or.inr (Or.inr (Or.inl h.symm))
    · exact Or.inr (Or.inr (Or.inr (Or.inl h.symm)))
    · exact Or.inr (Or.inr (Or.inr (Or.inr ⟨hw.symm, hc.symm, hg.symm⟩)))
  decidableClash := fun a b => by unfold TaskRow.clash; infer_instance

/-- A row of `checkpoints`. -/
structure CheckpointRow where
  taskId : String
  sequence : ℤ
  uri : String
  metadataJson : JsonText
  createdAt : Time
deriving DecidableEq

instance : Constrained CheckpointRow where
  clash a b := a.taskId = b.taskId ∧ a.sequence = b.sequence
  clash_symm _ _ h := ⟨h.1.symm, h.2.symm⟩
  decidableClash := fun _ _ => inferInstance

/-- A row of `workflows`. -/
structure WorkflowRow where
  workflowId : String
  kind : String
  payloadJson : JsonText
  metadataJson : JsonText
  stateJson : JsonText
  status : WorkflowStatus
  consistencyMode : ConsistencyMode
  eventCursor : ℕ
  resultJson : Option JsonText
  lastError : Option String
  createdAt : Time
  updatedAt : Time
  completedAt : Option Time
deriving DecidableEq

instance : Constrained WorkflowRow where
  clash a b := a.workflowId = b.workflowId
  clash_symm _ _ h := h.symm
  decidableClash := fun _ _ => inferInstance

/-- A row of `workflow_components`. -/
structure ComponentRow where
  workflowId : String
  componentKey : String
  generation : ℕ
  taskId : String
  required : Bool
  createdAt : Time
  updatedAt : Time
deriving DecidableEq

instance : Constrained ComponentRow where
  clash a b := (a.workflowId = b.workflowId ∧ a.componentKey = b.componentKey) ∨ a.taskId = b.taskId
  clash_symm _ _ h := h.imp (fun h => ⟨h.1.symm, h.2.symm⟩) Eq.symm
  decidableClash := fun _ _ => inferInstance

/-- A row of `workflow_events`. -/
structure EventRow where
  eventId : ℕ
  workflowId : String
  kind : String
  componentKey : Option String
  generation : Option ℕ
  payloadJson : JsonText
  createdAt : Time
deriving DecidableEq

instance : Numbered EventRow := ⟨EventRow.eventId⟩

/-- A row of `workflow_commits`. -/
structure CommitRow where
  workflowId : String
  barrier : ℤ
  controllerCheckpointUri : Option String
  manifestJson : JsonText
  createdAt : Time
deriving DecidableEq

instance : Constrained CommitRow where
  clash a b := a.workflowId = b.workflowId ∧ a.barrier = b.barrier
  clash_symm _ _ h := ⟨h.1.symm, h.2.symm⟩
  decidableClash := fun _ _ => inferInstance

/-- A row of `resource_policies`. Only validated policies are ever stored. -/
structure PolicyRow where
  policy : ResourcePolicy
  updatedAt : Time
deriving DecidableEq

instance : Constrained PolicyRow where
  clash a b := a.policy.resourceClass = b.policy.resourceClass
  clash_symm _ _ h := h.symm
  decidableClash := fun _ _ => inferInstance

/-- The single row of `controller_leadership`. -/
structure LeadershipRow where
  controllerId : String
  fenceToken : ℕ
  leaseExpiresAt : Time
  updatedAt : Time
deriving DecidableEq

/-- Durable task admission, executor mapping, and workflow event log. -/
structure SwarmStore where
  tasks : Table TaskRow
  checkpoints : Table CheckpointRow
  workflows : Table WorkflowRow
  components : Table ComponentRow
  events : Log EventRow
  commits : Table CommitRow
  policies : Table PolicyRow
  leadership : Option LeadershipRow

/-- The store right after the schema was created. -/
def SwarmStore.empty : SwarmStore where
  tasks := .empty
  checkpoints := .empty
  workflows := .empty
  components := .empty
  events := .empty
  commits := .empty
  policies := .empty
  leadership := none

/-- `sqlite3.IntegrityError`. -/
def integrityError (constraint : String) : PyError := ⟨.integrity, constraint ++ " constraint failed"⟩

/-- What binding an integer that no column holds raises. -/
def overflowError : PyError := ⟨.other "OverflowError", "Python int too large to convert to SQLite INTEGER"⟩

/-- The integers that an `INTEGER` column holds. -/
def fitsInteger (n : ℤ) : Bool := -(2 ^ 63 : ℕ) ≤ n && n < (2 ^ 63 : ℕ)

/-- A natural number fits if it is below the bound. -/
@[simp] theorem fitsInteger_natCast {n : ℕ} : fitsInteger n = true ↔ n < 2 ^ 63 := by
  simp only [fitsInteger, Bool.and_eq_true, decide_eq_true_eq]
  omega

/-- A failed `assert`. -/
def assertionError : PyError := ⟨.assertion, ""⟩

/-- A value, or the error to raise without one. -/
def orRaise {α : Type} (e : PyError) : Option α → Except PyError α
  | some a => .ok a
  | none => .error e

/-- A value that may be absent is there if nothing is raised. -/
@[simp] theorem orRaise_eq_ok {α : Type} {e : PyError} {x : Option α} {a : α} :
    orRaise e x = .ok a ↔ x = some a := by
  cases x <;> simp [orRaise]

/-- Go on if a condition holds, and raise an error otherwise. -/
def ensure (condition : Bool) (e : PyError) : Except PyError Unit := if condition then .ok () else .error e

/-- A check passes if its condition holds. -/
@[simp] theorem ensure_eq_ok {condition : Bool} {e : PyError} {u : Unit} :
    ensure condition e = .ok u ↔ condition = true := by
  cases condition <;> simp [ensure]

/-- A sequence of two computations returns when both do. -/
theorem bind_eq_ok {ε α β : Type} {x : Except ε α} {f : α → Except ε β} {b : β} :
    x >>= f = .ok b ↔ ∃ a, x = .ok a ∧ f a = .ok b := by
  cases x with
  | error e =>
    constructor
    · intro h
      cases h
    · rintro ⟨_, h, _⟩
      cases h
  | ok a =>
    constructor
    · exact fun h => ⟨a, rfl, h⟩
    · rintro ⟨_, h, hf⟩
      cases h
      exact hf

/-- A sequence of two computations returns something when the first does, and the second on its value. -/
theorem exists_bind_eq_ok {ε α β : Type} {x : Except ε α} {f : α → Except ε β} :
    (∃ b, x >>= f = .ok b) ↔ ∃ a, x = .ok a ∧ ∃ b, f a = .ok b := by
  simp only [bind_eq_ok]
  exact ⟨fun ⟨b, a, ha, hb⟩ => ⟨a, ha, b, hb⟩, fun ⟨a, ha, b, hb⟩ => ⟨b, a, ha, hb⟩⟩

/-- A computation for each element returns when all do, with their values in order. -/
theorem mapM_eq_ok {ε α β : Type} {f : α → Except ε β} {as : List α} {bs : List β} :
    as.mapM f = .ok bs ↔ List.Forall₂ (fun a b => f a = .ok b) as bs := by
  induction as generalizing bs with
  | nil =>
    rw [List.mapM_nil, List.forall₂_nil_left_iff]
    exact ⟨fun h => (Except.ok.inj h).symm, fun h => congrArg Except.ok h.symm⟩
  | cons a rest ih =>
    rw [List.mapM_cons, bind_eq_ok]
    constructor
    · rintro ⟨b, hb, h⟩
      obtain ⟨others, hothers, h⟩ := bind_eq_ok.mp h
      cases h
      exact .cons hb (ih.mp hothers)
    · rintro (_ | ⟨hb, hothers⟩)
      exact ⟨_, hb, bind_eq_ok.mpr ⟨_, ih.mpr hothers, rfl⟩⟩

/-- A list is mapped if each of its elements is. -/
theorem exists_mapM_eq_ok {ε α β : Type} {f : α → Except ε β} {as : List α} :
    (∃ bs, as.mapM f = .ok bs) ↔ ∀ a ∈ as, ∃ b, f a = .ok b := by
  simp only [mapM_eq_ok]
  induction as with
  | nil => simp
  | cons a rest ih =>
    rw [List.forall_mem_cons, ← ih]
    constructor
    · rintro ⟨_, hall⟩
      cases hall with
      | cons hb hrest => exact ⟨⟨_, hb⟩, ⟨_, hrest⟩⟩
    · rintro ⟨⟨b, hb⟩, bs, hrest⟩
      exact ⟨b :: bs, .cons hb hrest⟩

/-- Elements of lists that are related one by one are related to an element of the other list. -/
theorem forall₂_mem {α β : Type} {related : α → β → Prop} {as : List α} {bs : List β}
    (h : List.Forall₂ related as bs) :
    (∀ a ∈ as, ∃ b ∈ bs, related a b) ∧ ∀ b ∈ bs, ∃ a ∈ as, related a b := by
  induction h with
  | nil => simp
  | @cons a b _ _ hab _ ih =>
    refine ⟨fun x hx => ?_, fun y hy => ?_⟩
    · rcases List.mem_cons.mp hx with rfl | hx
      · exact ⟨b, List.mem_cons_self, hab⟩
      · obtain ⟨y, hy, hxy⟩ := ih.1 x hx
        exact ⟨y, List.mem_cons_of_mem _ hy, hxy⟩
    · rcases List.mem_cons.mp hy with rfl | hy
      · exact ⟨a, List.mem_cons_self, hab⟩
      · obtain ⟨x, hx, hxy⟩ := ih.2 y hy
        exact ⟨x, List.mem_cons_of_mem _ hx, hxy⟩

/-- The checkpoint a task row refers to. The three columns are only ever written together. -/
def TaskRow.checkpoint (row : TaskRow) : Option CheckpointRef :=
  row.checkpointUri.map fun uri =>
    ⟨uri, row.checkpointSequence.getD 0, (row.checkpointMetadataJson.map loads).getD Dict.empty⟩

/-- `_task_from_row`. -/
def TaskRow.toRecord (row : TaskRow) : TaskRecord where
  taskId := row.taskId
  kind := row.kind
  resourceClass := row.resourceClass
  payload := loads row.payloadJson
  metadata := loads row.metadataJson
  status := row.status
  priority := row.priority
  recoveryPriority := row.recoveryPriority
  idempotencyKey := row.idempotencyKey
  jobId := row.jobId
  jobName := row.jobName
  executorStatus := row.executorStatus
  recoveryCount := row.recoveryCount
  checkpoint := row.checkpoint
  result := row.resultJson.map loads
  lastError := row.lastError
  workflowId := row.workflowId
  componentKey := row.componentKey
  generation := row.generation
  submissionStartedAt := row.submissionStartedAt
  createdAt := row.createdAt
  updatedAt := row.updatedAt
  completedAt := row.completedAt

/-- `_task_from_row` on a row of a join whose first column is the component key of a link. -/
def TaskRow.linkedRecord (key : String) (row : TaskRow) : TaskRecord :=
  { row.toRecord with componentKey := some key }

/-- `_workflow_from_row`. -/
def WorkflowRow.toRecord (row : WorkflowRow) : WorkflowRecord where
  workflowId := row.workflowId
  kind := row.kind
  payload := loads row.payloadJson
  metadata := loads row.metadataJson
  state := loads row.stateJson
  status := row.status
  consistencyMode := row.consistencyMode
  eventCursor := row.eventCursor
  result := row.resultJson.map loads
  lastError := row.lastError
  createdAt := row.createdAt
  updatedAt := row.updatedAt
  completedAt := row.completedAt

/-- The event a row of the log spells. -/
def EventRow.toEvent (row : EventRow) : WorkflowEvent where
  eventId := row.eventId
  workflowId := row.workflowId
  kind := row.kind
  componentKey := row.componentKey
  generation := row.generation
  payload := loads row.payloadJson
  createdAt := row.createdAt

namespace SwarmStore

/-- `SELECT * FROM tasks WHERE task_id = ?`. -/
def task? (store : SwarmStore) (taskId : String) : Option TaskRow :=
  store.tasks.rows.find? (·.taskId = taskId)

/-- `SELECT * FROM workflows WHERE workflow_id = ?`. -/
def workflow? (store : SwarmStore) (workflowId : String) : Option WorkflowRow :=
  store.workflows.rows.find? (·.workflowId = workflowId)

/-- The row a primary key selects. -/
theorem task?_eq_some {store : SwarmStore} {taskId : String} {row : TaskRow} :
    store.task? taskId = some row ↔ row ∈ store.tasks.rows ∧ row.taskId = taskId := by
  constructor
  · intro h
    exact ⟨List.mem_of_find?_eq_some h, by simpa using List.find?_some h⟩
  · rintro ⟨hmem, rfl⟩
    obtain ⟨found, hfound⟩ := Option.isSome_iff_exists.mp
      (List.find?_isSome.mpr ⟨row, hmem, by simp⟩ :
        (store.tasks.rows.find? (·.taskId = row.taskId)).isSome)
    have hid : found.taskId = row.taskId := by simpa using List.find?_some hfound
    have heq := store.tasks.eq_of_clash (List.mem_of_find?_eq_some hfound) hmem (Or.inl hid)
    rw [task?, hfound, heq]

/-- Rows of one task identifier are the same row. -/
theorem task_unique (store : SwarmStore) {a b : TaskRow} (ha : a ∈ store.tasks.rows)
    (hb : b ∈ store.tasks.rows) (h : a.taskId = b.taskId) : a = b :=
  store.tasks.eq_of_clash ha hb (Or.inl h)

/-- Rows of one job name are the same row. -/
theorem jobName_unique (store : SwarmStore) {a b : TaskRow} (ha : a ∈ store.tasks.rows)
    (hb : b ∈ store.tasks.rows) (h : a.jobName = b.jobName) : a = b :=
  store.tasks.eq_of_clash ha hb (Or.inr (Or.inr (Or.inr (Or.inl h))))

/-- The workflow row a primary key selects. -/
theorem workflow?_eq_some {store : SwarmStore} {workflowId : String} {row : WorkflowRow} :
    store.workflow? workflowId = some row ↔ row ∈ store.workflows.rows ∧ row.workflowId = workflowId := by
  constructor
  · intro h
    exact ⟨List.mem_of_find?_eq_some h, by simpa using List.find?_some h⟩
  · rintro ⟨hmem, rfl⟩
    obtain ⟨found, hfound⟩ := Option.isSome_iff_exists.mp
      (List.find?_isSome.mpr ⟨row, hmem, by simp⟩ :
        (store.workflows.rows.find? (·.workflowId = row.workflowId)).isSome)
    have hid : found.workflowId = row.workflowId := by simpa using List.find?_some hfound
    have heq : found = row :=
      store.workflows.eq_of_clash (List.mem_of_find?_eq_some hfound) hmem hid
    rw [workflow?, hfound, heq]

end SwarmStore

end TPUSwarm
