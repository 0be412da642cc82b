import TPUSwarm.Dynamic
import TPUSwarm.Handlers

/-!
# The built-in static workflow

A static workflow names its components in its payload, and they never change. Its reducer
keeps the kind of the last event of each component and the last committed barrier; the
workflow is completed when all components have succeeded and fails when one has failed.
-/

namespace TPUSwarm

open Common

/-- The registered kind of static workflows. -/
def staticKind : String := "static_multi.v1"

namespace StaticMultiAutoResumable

/-- The item is a mapping with a key, which may be missing. -/
def itemKey? (item : Json) : Option Json :=
  match item.view with
  | .obj d => some ((d.get? "key").getD .null)
  | _ => none

/-- A text that is not empty. -/
def isKey (key : Json) : Bool :=
  match key.view with
  | .str s => s ≠ ""
  | _ => false

/-- `StaticMultiAutoResumable.validate_payload`. -/
def validatePayload (payload : Mapping) : Except PyError Mapping :=
  match (payload.get? "components").map Json.view with
  | some (.arr components) =>
    let keys := components.filterMap itemKey?
    if components = [] then .error ⟨.value, "components must be a non-empty list"⟩
    else if keys.length ≠ components.length || keys.any fun key => !isKey key then
      .error ⟨.value, "each component must have a non-empty string key"⟩
    else if ¬ keys.Nodup then .error ⟨.value, "component keys must be unique"⟩
    else .ok payload
  | _ => .error ⟨.value, "components must be a non-empty list"⟩

/-- What validation accepts: it changes nothing, and the components are a list of mappings with different keys. -/
theorem validatePayload_eq_ok {payload accepted : Mapping} (h : validatePayload payload = .ok accepted) :
    accepted = payload ∧ ∃ value components, payload.get? "components" = some value ∧ value.view = .arr components ∧
      components ≠ [] ∧ (components.filterMap itemKey?).length = components.length ∧
        (∀ key ∈ components.filterMap itemKey?, isKey key = true) ∧ (components.filterMap itemKey?).Nodup := by
  unfold validatePayload at h
  split at h
  · rename_i components hcomponents
    obtain ⟨value, hvalue, hview⟩ := Option.map_eq_some_iff.mp hcomponents
    dsimp only at h
    by_cases hnil : components = []
    · rw [if_pos hnil] at h
      cases h
    rw [if_neg hnil] at h
    by_cases hkeys : ((components.filterMap itemKey?).length ≠ components.length ||
        (components.filterMap itemKey?).any fun key => !isKey key) = true
    · rw [if_pos hkeys] at h
      cases h
    rw [if_neg hkeys] at h
    by_cases hnodup : ¬ (components.filterMap itemKey?).Nodup
    · rw [if_pos hnodup] at h
      cases h
    rw [if_neg hnodup] at h
    cases h
    simp only [Bool.or_eq_true, decide_eq_true_eq, List.any_eq_true, not_or, not_not, not_exists, not_and,
      Bool.not_eq_true, Bool.not_eq_false'] at hkeys
    exact ⟨rfl, value, components, hvalue, hview, hnil, hkeys.1, hkeys.2, not_not.mp hnodup⟩
  · cases h

/-- `StaticMultiAutoResumable.initial_state`. -/
def initialState : Mapping := Dict.ofList [("component_status", .obj Dict.empty), ("last_barrier", .null)]

/-- `StaticMultiAutoResumable.reduce`. -/
def reduce (state : Mapping) (event : WorkflowEvent) : Except PyError Mapping := do
  let statuses ← ((state.get? "component_status").getD (.obj Dict.empty)).toDict
  let statuses := match event.componentKey with
    | some key => statuses.set key (.str event.kind)
    | none => statuses
  let result := state.set "component_status" (.obj statuses)
  if event.kind = "BarrierCommitted" then
    let barrier ← orRaise ⟨.key, "barrier"⟩ (event.payload.get? "barrier")
    return result.set "last_barrier" barrier
  else return result

/-- `TaskSpec(…)`, with the checks of its constructor, where the entries are of the types that it declares. -/
def buildTask (taskId kind resourceClass payload : Json) (priority recoveryPriority : Priority)
    (idempotencyKey metadata : Json) : Except PyError TaskSpec := do
  let kind ← kind.text
  if hkind : isBlank kind = false then
    let resourceClass ← resourceClass.text
    if hresource : isBlank resourceClass = false then
      return { kind := kind, resourceClass := resourceClass, payload := ← payload.toDict,
               metadata := ← metadata.toDict, taskId := ← taskId.text, priority := priority,
               recoveryPriority := recoveryPriority, idempotencyKey := ← idempotencyKey.optionalText,
               kind_nonempty := hkind, resourceClass_nonempty := hresource }
    else throw ⟨.value, "resource_class must not be empty"⟩
  else throw ⟨.value, "kind must not be empty"⟩

/-- `ComponentSpec(…)`, with the checks of its constructor. -/
def buildComponent (key : Json) (generation : ℤ) (required : Bool) (task : TaskSpec) :
    Except PyError ComponentSpec := do
  let key ← key.text
  if hkey : isBlank key = false then
    if generation < 0 then throw ⟨.value, "component generation must be non-negative"⟩
    return { key := key, task := task, generation := generation.toNat, required := required, key_nonempty := hkey }
  else throw ⟨.value, "component key must not be empty"⟩

/-- The component that an item of the payload describes. -/
def desiredComponent (workflowId : String) (value : Json) : Except PyError ComponentSpec := do
  let task ← value.subscript "task"
  let generation ← (← value.getOr "generation" (.int 0)).toInt
  let key ← value.subscript "key"
  let required ← value.getOr "required" (.bool true)
  let taskId ← task.getOr "task_id" (.str (workflowId ++ "-" ++ key.format ++ "-g" ++ toString generation))
  let kind ← task.subscript "kind"
  let resourceClass ← task.subscript "resource_class"
  let payload ← task.getOr "payload" (.obj Dict.empty)
  let priority ← (← task.getOr "priority" (.int Priority.workflowStart.toInt)).toPriority
  let recoveryPriority ← (← task.getOr "recovery_priority" (.int Priority.blockingRecovery.toInt)).toPriority
  let idempotencyKey ← task.getOr "idempotency_key" .null
  let metadata ← task.getOr "metadata" (.obj Dict.empty)
  let task ← buildTask taskId kind resourceClass payload priority recoveryPriority idempotencyKey metadata
  buildComponent key generation required.truthy task

/-- The components that a payload describes. -/
def payloadComponents (workflowId : String) (payload : Mapping) : Except PyError (List ComponentSpec) := do
  let components ← orRaise ⟨.key, "components"⟩ (payload.get? "components")
  (← components.items).mapM (desiredComponent workflowId)

/-- `StaticMultiAutoResumable.completion_result`. -/
def completionResult (state : Mapping) (components : Dict String TaskRecord) : Option Mapping :=
  if components.entries ≠ [] ∧ components.entries.all fun entry => entry.2.status = .succeeded then
    some (Dict.ofList [
      ("components", .obj (components.mapValues fun component => .obj (component.result.getD Dict.empty))),
      ("last_barrier", (state.get? "last_barrier").getD .null)])
  else none

/-- `StaticMultiAutoResumable.failure_reason`. -/
def failureReason (components : Dict String TaskRecord) : Option String :=
  let failed := (components.entries.filter fun entry => entry.2.status = .failed).map Prod.fst
  if failed ≠ [] then some ("components failed after SkyPilot recovery: " ++ joinSorted failed) else none

end StaticMultiAutoResumable

/-- What the state of a static workflow says. -/
structure StaticProgress where
  statuses : Dict String Json
  lastBarrier : Json

namespace StaticProgress

/-- The state that spells it. -/
def encode (progress : StaticProgress) : Mapping :=
  (Dict.empty.set "component_status" (.obj progress.statuses)).set "last_barrier" progress.lastBarrier

/-- What an event changes. -/
def step (progress : StaticProgress) (event : WorkflowEvent) : StaticProgress where
  statuses := match event.componentKey with
    | some key => progress.statuses.set key (.str event.kind)
    | none => progress.statuses
  lastBarrier := if event.kind = "BarrierCommitted" then (event.payload.get? "barrier").getD .null
    else progress.lastBarrier

/-- The statuses are written under their key. -/
@[simp] theorem get?_encode_status (progress : StaticProgress) :
    progress.encode.get? "component_status" = some (.obj progress.statuses) := by
  simp [encode]

/-- The last barrier is written under its key. -/
@[simp] theorem get?_encode_barrier (progress : StaticProgress) :
    progress.encode.get? "last_barrier" = some progress.lastBarrier := by
  simp [encode]

/-- Writing the key of the statuses writes the statuses. -/
theorem set_encode_status (progress : StaticProgress) (statuses : Dict String Json) :
    progress.encode.set "component_status" (.obj statuses) =
      (⟨statuses, progress.lastBarrier⟩ : StaticProgress).encode := by
  refine Dict.ext_get? fun k => ?_
  simp only [encode, Dict.get?_set]
  split_ifs <;> simp_all

/-- Writing the key of the last barrier writes the last barrier. -/
theorem set_encode_barrier (progress : StaticProgress) (barrier : Json) :
    progress.encode.set "last_barrier" barrier = (⟨progress.statuses, barrier⟩ : StaticProgress).encode := by
  refine Dict.ext_get? fun k => ?_
  simp only [encode, Dict.get?_set]
  split_ifs <;> rfl

/-- Reducing an event makes its change. An event of a barrier has to name the barrier. -/
theorem reduce_encode (progress : StaticProgress) {event : WorkflowEvent}
    (hbarrier : event.kind = "BarrierCommitted" → ∃ barrier, event.payload.get? "barrier" = some barrier) :
    StaticMultiAutoResumable.reduce progress.encode event = .ok (progress.step event).encode := by
  unfold StaticMultiAutoResumable.reduce
  rw [get?_encode_status, Option.getD_some]
  have hstatuses : (Json.obj progress.statuses).toDict = .ok progress.statuses := by
    rw [Json.toDict, Json.view_obj]
  refine bind_eq_ok.mpr ⟨progress.statuses, hstatuses, ?_⟩
  dsimp only
  rw [set_encode_status, step]
  by_cases hkind : event.kind = "BarrierCommitted"
  · obtain ⟨barrier, hpayload⟩ := hbarrier hkind
    rw [if_pos hkind, if_pos hkind, hpayload]
    exact congrArg Except.ok (set_encode_barrier _ _)
  · rw [if_neg hkind, if_neg hkind]
    rfl

/-- Reducing events makes their changes in order. -/
theorem foldlM_reduce {events : List WorkflowEvent} (progress : StaticProgress)
    (hbarrier : ∀ event ∈ events, event.kind = "BarrierCommitted" →
      ∃ barrier, event.payload.get? "barrier" = some barrier) :
    events.foldlM StaticMultiAutoResumable.reduce progress.encode = .ok (events.foldl step progress).encode := by
  induction events generalizing progress with
  | nil => rfl
  | cons event rest ih =>
    rw [List.foldlM_cons, List.foldl_cons, reduce_encode progress (hbarrier event List.mem_cons_self)]
    exact ih _ fun e he => hbarrier e (List.mem_cons_of_mem _ he)

/-- The last barrier is what the last event of a barrier names. -/
theorem lastBarrier_foldl (events : List WorkflowEvent) (progress : StaticProgress) :
    (events.foldl step progress).lastBarrier =
      ((events.filter (·.kind = "BarrierCommitted")).getLast?.map fun event =>
        (event.payload.get? "barrier").getD .null).getD progress.lastBarrier := by
  induction events generalizing progress with
  | nil => rfl
  | cons event rest ih =>
    rw [List.foldl_cons, ih]
    by_cases hkind : event.kind = "BarrierCommitted"
    · rw [List.filter_cons_of_pos (by simpa using hkind), List.getLast?_cons, step, if_pos hkind]
      cases (rest.filter (·.kind = "BarrierCommitted")).getLast? <;> rfl
    · rw [List.filter_cons_of_neg (by simpa using hkind), step, if_neg hkind]

end StaticProgress

/-- `StaticMultiAutoResumable`. -/
def staticMultiAutoResumable : MultiAutoResumable where
  validatePayload := StaticMultiAutoResumable.validatePayload
  initialState _ := .ok StaticMultiAutoResumable.initialState
  reduce := StaticMultiAutoResumable.reduce
  desiredComponents workflow _ := StaticMultiAutoResumable.payloadComponents workflow.workflowId workflow.payload
  completionResult _ state components := .ok (StaticMultiAutoResumable.completionResult state components)
  failureReason _ _ components := .ok (StaticMultiAutoResumable.failureReason components)

end TPUSwarm
