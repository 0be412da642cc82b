import TPUSwarm.Json
import TPUSwarm.Text

/-!
# Contracts shared by clients and controllers

The enumerations and records of the control plane. A specification carries the checks its
constructor makes as fields, so a value that the source would refuse to build does not
exist here. Times are rational seconds.
-/

namespace TPUSwarm

open Common

/-- Clock readings and `REAL` columns, in seconds. -/
abbrev Time := ℚ

/-- A JSON mapping as Python code holds it. -/
abbrev Mapping := Dict String Json

/-- The exception classes that the modelled code raises or catches by name. -/
inductive ErrorKind
  | taskNotFound
  | workflowNotFound
  | barrierConflict
  | leadershipLost
  | backendUnavailable
  | integrity
  | value
  | type
  | key
  | runtime
  | assertion
  | other (name : String)
deriving DecidableEq

/-- `type(exc).__name__`. -/
def ErrorKind.name : ErrorKind → String
  | taskNotFound => "TaskNotFoundError"
  | workflowNotFound => "WorkflowNotFoundError"
  | barrierConflict => "BarrierConflictError"
  | leadershipLost => "LeadershipLostError"
  | backendUnavailable => "BackendUnavailableError"
  | integrity => "IntegrityError"
  | value => "ValueError"
  | type => "TypeError"
  | key => "KeyError"
  | runtime => "RuntimeError"
  | assertion => "AssertionError"
  | other name => name

/-- A raised exception: its class and its argument. -/
structure PyError where
  kind : ErrorKind
  message : String
deriving DecidableEq

/-- `str(exc)`, which for a `KeyError` is the `repr` of its argument. -/
def PyError.text (e : PyError) : String :=
  if e.kind = .key then reprText e.message else e.message

/-- SkyPilot-compatible priorities; larger values launch first. -/
inductive Priority
  | speculative
  | normal
  | workflowStart
  | ordinaryRecovery
  | blockingRecovery
deriving DecidableEq

/-- The integer value of a priority. -/
def Priority.toInt : Priority → ℤ
  | speculative => 100
  | normal => 500
  | workflowStart => 600
  | ordinaryRecovery => 800
  | blockingRecovery => 900

/-- `Priority(value)`: the member with a given value. -/
def Priority.ofInt? (value : ℤ) : Option Priority :=
  [speculative, normal, workflowStart, ordinaryRecovery, blockingRecovery].find? (·.toInt = value)

/-- Every member passes the range check of `TaskSpec.__post_init__`. -/
theorem Priority.toInt_inRange (p : Priority) : -1000 ≤ p.toInt ∧ p.toInt ≤ 1000 := by
  cases p <;> decide

/-- Looking a member up by its value finds it. -/
theorem Priority.ofInt?_toInt (p : Priority) : ofInt? p.toInt = some p := by
  cases p <;> decide

inductive TaskStatus
  | pending
  | submitting
  | submitted
  | running
  | succeeded
  | failed
  | cancelled
deriving DecidableEq

namespace TaskStatus

/-- The text of a status, as the column and the API have it. -/
def value : TaskStatus → String
  | pending => "PENDING"
  | submitting => "SUBMITTING"
  | submitted => "SUBMITTED"
  | running => "RUNNING"
  | succeeded => "SUCCEEDED"
  | failed => "FAILED"
  | cancelled => "CANCELLED"

def isTerminal (s : TaskStatus) : Bool := s = succeeded || s = failed || s = cancelled

def occupiesSlot (s : TaskStatus) : Bool := s = submitting || s = submitted || s = running

end TaskStatus

inductive ConsistencyMode
  | allAtBarrier
  | independent
deriving DecidableEq

inductive WorkflowStatus
  | active
  | succeeded
  | failed
  | cancelled
deriving DecidableEq

/-- One logical task whose process lifecycle is delegated to SkyPilot. -/
structure TaskSpec where
  kind : String
  resourceClass : String
  payload : Mapping := Dict.empty
  taskId : String
  priority : Priority := .normal
  recoveryPriority : Priority := .blockingRecovery
  idempotencyKey : Option String := none
  metadata : Mapping := Dict.empty
  kind_nonempty : isBlank kind = false
  resourceClass_nonempty : isBlank resourceClass = false
deriving DecidableEq

/-- Trusted SkyPilot job definition emitted by an `AutoResumable` handler. The constructor does not look
at the types of `pool`, `setup` and `workdir`, nor of a `numNodes` that can be compared with a number. -/
structure ManagedJobSpec where
  name : String
  run : String
  resources : Mapping
  pool : Option Json := none
  setup : Option Json := none
  workdir : Option Json := none
  numNodes : Json := .int 1
  envs : Mapping := Dict.empty
  secrets : Dict String String := Dict.empty
  fileMounts : Mapping := Dict.empty
  config : Mapping := Dict.empty
  apiServerAccess : Bool := false
deriving DecidableEq

structure CheckpointRef where
  uri : String
  sequence : ℤ
  metadata : Mapping := Dict.empty
deriving DecidableEq

structure TaskRecord where
  taskId : String
  kind : String
  resourceClass : String
  payload : Mapping
  metadata : Mapping
  status : TaskStatus
  priority : Priority
  recoveryPriority : Priority
  idempotencyKey : Option String
  jobId : Option String
  jobName : String
  executorStatus : Option String
  recoveryCount : ℤ
  checkpoint : Option CheckpointRef
  result : Option Mapping
  lastError : Option String
  workflowId : Option String
  componentKey : Option String
  generation : Option ℕ
  submissionStartedAt : Option Time
  createdAt : Time
  updatedAt : Time
  completedAt : Option Time
deriving DecidableEq

structure ComponentSpec where
  key : String
  task : TaskSpec
  generation : ℕ := 0
  required : Bool := true
  key_nonempty : isBlank key = false
deriving DecidableEq

structure WorkflowSpec where
  kind : String
  payload : Mapping := Dict.empty
  workflowId : String
  consistencyMode : ConsistencyMode := .independent
  metadata : Mapping := Dict.empty
  kind_nonempty : isBlank kind = false
deriving DecidableEq

structure WorkflowRecord where
  workflowId : String
  kind : String
  payload : Mapping
  metadata : Mapping
  state : Mapping
  status : WorkflowStatus
  consistencyMode : ConsistencyMode
  eventCursor : ℕ
  result : Option Mapping
  lastError : Option String
  createdAt : Time
  updatedAt : Time
  completedAt : Option Time
deriving DecidableEq

structure WorkflowEvent where
  eventId : ℕ
  workflowId : String
  kind : String
  componentKey : Option String
  generation : Option ℕ
  payload : Mapping
  createdAt : Time
deriving DecidableEq

structure BarrierCommit where
  workflowId : String
  barrier : ℤ
  controllerCheckpointUri : Option String
  components : Dict String CheckpointRef
  createdAt : Time
deriving DecidableEq

/-- Limits admitted jobs while retaining warm pool capacity for recovery. -/
structure ResourcePolicy where
  resourceClass : String
  targetWorkers : ℤ
  recoveryReserve : ℤ := 0
  target_positive : 1 ≤ targetWorkers
  reserve_bounds : 0 ≤ recoveryReserve ∧ recoveryReserve < targetWorkers
deriving DecidableEq

structure ExecutorJob where
  jobId : String
  name : String
  status : String
  recoveryCount : ℤ := 0
  failureReason : Option String := none
deriving DecidableEq

structure ControllerLease where
  controllerId : String
  fenceToken : ℕ
  leaseExpiresAt : Time
deriving DecidableEq

end TPUSwarm
