import TPUSwarm.Backend
import TPUSwarm.Wire.Decode
import Mathlib.Logic.Function.Basic

/-!
# The job queue of SkyPilot

The adapter reads the managed jobs of the account from the queue of SkyPilot. What SkyPilot answers is a parameter;
the records may be mappings, models or sequences of pairs, and their columns may have any values.
-/

namespace TPUSwarm

namespace PyValue

/-- `bool(value)`. -/
def truthy (value : PyValue) : Bool :=
  match value.plain with
  | .none => false
  | .bool b => b
  | .int n => n ≠ 0
  | .float x => x ≠ 0
  | .str s => s ≠ ""
  | .list items | .tuple items => !items.isEmpty
  | .dict entries => !entries.isEmpty
  | _ => true

/-- `value or other`. -/
def orElse (value other : PyValue) : PyValue := if value.truthy then value else other

/-- `str(value)` of a scalar; other values are shown by their type. -/
def text (value : PyValue) : String :=
  match value.plain with
  | .str s => s
  | plain => plain.repr

/-- `getattr(value, "value", value)`. -/
def attributeValue : PyValue → PyValue
  | .enum member => member.value
  | .dataclass name fields => (fields.lookup "value").getD (.dataclass name fields)
  | value => value

end PyValue

/-- Different numbers have different texts. -/
theorem toString_int_injective : Function.Injective (fun n : ℤ => toString n) := by
  have hdigits : ∀ n m : ℕ, n.repr ≠ "-" ++ m.repr := by
    intro n m heq
    have hmem : '-' ∈ Nat.toDigits 10 n := by
      rw [← Nat.toList_repr, heq]
      simp
    exact absurd (Nat.isDigit_of_mem_toDigits (by decide) (by decide) hmem) (by decide)
  intro a b heq
  simp only [Int.toString_eq_repr, Int.repr_eq_if] at heq
  split at heq <;> split at heq
  · have hnat : a.toNat = b.toNat := numeral_injective (by simpa using congrArg String.toList heq)
    omega
  · exact absurd heq (hdigits _ _)
  · exact absurd heq.symm (hdigits _ _)
  · have hnat : (-a).toNat = (-b).toNat := numeral_injective (by simpa using congrArg String.toList heq)
    omega

/-- A record of the queue: a mapping, an object with `model_dump`, or anything else. -/
inductive SkyRecord
  | dict (entries : List (String × PyValue))
  | model (entries : List (String × PyValue))
  | other (value : PyValue)

/-- What SkyPilot answers to a lookup: the records, alone or in front of totals. -/
inductive SkyQueueResponse
  | tuple (records : List SkyRecord)
  | value (records : List SkyRecord)

/-- `response[0] if isinstance(response, tuple) else response`. -/
def SkyQueueResponse.records : SkyQueueResponse → List SkyRecord
  | tuple records | value records => records

/-- The parts of SkyPilot that a lookup uses. `σ` is the state of its API server. -/
structure SkyQueue (σ : Type) where
  Request : Type
  queueV2 : σ → Except PyError Request × σ
  get : Request → σ → Except PyError SkyQueueResponse × σ

namespace SkyPilotBackend

variable {σ : Type}

/-- `SkyPilotBackend._record_dict`. -/
def recordDict : SkyRecord → Except PyError (List (String × PyValue))
  | .dict entries | .model entries => .ok entries
  | .other value => value.toDict

/-- `SkyPilotBackend._status`. -/
def status (value : PyValue) : String := value.attributeValue.text

/-- `record.get(key)`. -/
def column (record : List (String × PyValue)) (key : String) : PyValue := (record.lookup key).getD .none

/-- The job that a record is for. -/
def executorJob (raw : SkyRecord) : Except PyError ExecutorJob := do
  let record ← recordDict raw
  let failureReason := (column record "failure_reason").orElse (column record "failure_message")
  let jobId ← orRaise ⟨.key, "job_id"⟩ (record.lookup "job_id")
  let recoveryCount ← ((column record "recovery_count").orElse (.int 0)).toInt
  return {
    jobId := jobId.text
    name := ((column record "job_name").orElse (column record "name")).text
    status := status (column record "status")
    recoveryCount := recoveryCount
    failureReason := match failureReason with
      | .none => none
      | reason => some reason.text }

/-- The error that says that there is no controller of managed jobs yet. -/
def clusterMissing : ErrorKind := .other "ClusterDoesNotExist"

/-- The part of `SkyPilotBackend._list_jobs` inside of its `try`. -/
def lookup (queue : SkyQueue σ) (server : σ) : Except PyError SkyQueueResponse × σ :=
  match queue.queueV2 server with
  | (.error e, server) => (.error e, server)
  | (.ok requestId, server) => queue.get requestId server

/-- `SkyPilotBackend.list_jobs`, which runs `_list_jobs`. -/
def listJobs (installed : Option (SkyQueue σ)) (server : σ) : Except PyError (List ExecutorJob) × σ :=
  match installed with
  | none => (.error skyMissing, server)
  | some queue =>
    match lookup queue server with
    | (.error e, server) =>
      if e.kind = clusterMissing then (.ok [], server)
      else (.error ⟨.backendUnavailable, "SkyPilot queue lookup failed: " ++ e.text⟩, server)
    | (.ok response, server) => (response.records.mapM executorJob, server)

/-- The record describes a managed job: its id, and a name that is not empty. -/
def Describes (raw : SkyRecord) (jobId : ℤ) (name : String) : Prop :=
  name ≠ "" ∧ ∃ record, recordDict raw = .ok record ∧ record.lookup "job_id" = some (.int jobId) ∧
    record.lookup "job_name" = some (.str name)

/-- The job read from a record has the id and the name that the record describes. -/
theorem Describes.read {raw : SkyRecord} {jobId : ℤ} {name : String} (h : Describes raw jobId name)
    {job : ExecutorJob}
    (hjob : executorJob raw = .ok job) : job.jobId = toString jobId ∧ job.name = name := by
  obtain ⟨hname, record, hrecord, hid, hcolumn⟩ := h
  obtain ⟨found, hfound, hjob⟩ := bind_eq_ok.mp hjob
  obtain rfl : record = found := Except.ok.inj (hrecord.symm.trans hfound)
  obtain ⟨value, hvalue, hjob⟩ := bind_eq_ok.mp hjob
  obtain rfl : PyValue.int jobId = value := Option.some.inj (hid.symm.trans (orRaise_eq_ok.mp hvalue))
  obtain ⟨recoveries, -, hjob⟩ := bind_eq_ok.mp hjob
  cases hjob
  refine ⟨rfl, ?_⟩
  simp [column, hcolumn, PyValue.orElse, PyValue.truthy, PyValue.plain, PyValue.text, hname]

end SkyPilotBackend

end TPUSwarm
