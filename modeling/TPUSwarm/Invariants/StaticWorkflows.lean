import TPUSwarm.Builtin
import TPUSwarm.Engine.Replay
import TPUSwarm.Store.Generations
import TPUSwarm.Store.Progress

/-!
# Static workflows in the store

Only the workflow engine submits, replaces, saves and finishes. What it asks of the store for a
static workflow is a restriction on calls. Under it the links of such a workflow stay as its
payload describes them, and its saved state is the reduction of its events up to its cursor.
-/

namespace TPUSwarm

open Common SwarmStore

/-- A state is the reduction of the events of a workflow up to a cursor. -/
def StaticReplayed (store : SwarmStore) (workflowId : String) (state : Mapping) (cursor : ℕ) : Prop :=
  Replayed staticMultiAutoResumable.reduceRow StaticMultiAutoResumable.initialState (·.workflowId = workflowId)
    store.events state cursor

/-- What the engine submits for a static workflow: a validated payload, the components it describes, each
validated, and the initial state. -/
structure StaticSubmission (engine : WorkflowEngine) (spec : WorkflowSpec) (components : List ComponentSpec)
    (initialState : Mapping) : Prop where
  accepted : ∃ payload, StaticMultiAutoResumable.validatePayload payload = .ok spec.payload
  initial : initialState = StaticMultiAutoResumable.initialState
  valid : ∃ desired, StaticMultiAutoResumable.payloadComponents spec.workflowId spec.payload = .ok desired ∧
    desired.mapM engine.validatedComponent = .ok components

/-- What the engine asks of the store for static workflows: it submits them as their payload describes them,
replaces only what is linked, and saves only what it has reduced. -/
def servesStatic (engine : WorkflowEngine) : Discretion
  | _, .submitWorkflow spec components initialState =>
    spec.kind = staticKind → StaticSubmission engine spec components initialState
  | store, .replaceComponent workflowId component => ∀ row, store.workflow? workflowId = some row →
      row.kind = staticKind → Materialized store workflowId component
  | store, .saveWorkflowState workflowId state cursor => ∀ row, store.workflow? workflowId = some row →
      row.kind = staticKind → StaticReplayed store workflowId state cursor
  | _, _ => True

/-- The row of a static workflow agrees with the links and the events of the store. -/
structure StaticWorkflow (engine : WorkflowEngine) (store : SwarmStore) (row : WorkflowRow) : Prop where
  components : ∃ desired, StaticMultiAutoResumable.payloadComponents row.workflowId (loads row.payloadJson) =
    .ok desired ∧ desired ≠ [] ∧ ∀ component ∈ desired,
      (∃ valid, engine.validatedComponent component = .ok valid) ∧
      ∃ link, store.component? row.workflowId component.key = some link ∧
        link.generation = component.generation ∧ link.required = component.required
  replayed : StaticReplayed store row.workflowId (loads row.stateJson) row.eventCursor

/-- All static workflows are as they should be. -/
def StaticWorkflows (engine : WorkflowEngine) (store : SwarmStore) : Prop :=
  ∀ row ∈ store.workflows.rows, row.kind = staticKind → StaticWorkflow engine store row

variable {engine : WorkflowEngine} {store store' : SwarmStore} {now : Time}

/-- A validated payload describes at least one component. -/
theorem payloadComponents_ne_nil {payload accepted : Mapping} {workflowId : String} {desired : List ComponentSpec}
    (haccepted : StaticMultiAutoResumable.validatePayload payload = .ok accepted)
    (hdesired : StaticMultiAutoResumable.payloadComponents workflowId accepted = .ok desired) : desired ≠ [] := by
  obtain ⟨rfl, value, components, hvalue, hview, hnil, -⟩ :=
    StaticMultiAutoResumable.validatePayload_eq_ok haccepted
  obtain ⟨found, hfound, hdesired⟩ := bind_eq_ok.mp hdesired
  obtain rfl := Option.some.inj (hvalue.symm.trans (orRaise_eq_ok.mp hfound))
  obtain ⟨items, hitems, hdesired⟩ := bind_eq_ok.mp hdesired
  rw [Json.items, hview] at hitems
  cases hitems
  intro hempty
  have hlength := (mapM_eq_ok.mp hdesired).length_eq
  rw [hempty, List.length_nil] at hlength
  exact hnil (List.eq_nil_of_length_eq_zero hlength)

/-- A workflow that is new in the table was submitted. -/
theorem Call.workflow_new {call : Call} {result : call.Result} (hrun : call.run now store = .ok (result, store'))
    {workflowId : String} {row : WorkflowRow} (hnone : store.workflow? workflowId = none)
    (hrow : store'.workflow? workflowId = some row) : ∃ spec components initialState,
      call = .submitWorkflow spec components initialState ∧ row = newWorkflowRow spec initialState now := by
  by_cases hworkflows : StoreTable.workflows ∈ call.tables
  · cases hupdate : call.update? now with
    | some update =>
      have hselect := (Call.update_selects hupdate hrun).2 workflowId
      rw [hnone, hrow] at hselect
      cases hselect
    | none =>
      cases call with
      | submitWorkflow spec components initialState =>
        refine ⟨spec, components, initialState, rfl, ?_⟩
        obtain ⟨-, -, hrows, -⟩ := submitWorkflow_eq_ok hrun
        obtain ⟨hmem, hid⟩ := workflow?_eq_some.mp hrow
        rw [hrows, List.mem_append, List.mem_singleton] at hmem
        exact hmem.resolve_left fun hold => workflow?_eq_none.mp hnone row hold hid
      | saveWorkflowState _ _ _ | completeWorkflow _ _ | failWorkflow _ _ => cases hupdate
      | _ => simp [Call.tables] at hworkflows
  · have hsame : store'.workflows = store.workflows := Call.frame hrun hworkflows
    rw [workflow?, hsame] at hrow
    rw [workflow?, hrow] at hnone
    cases hnone

/-- A submitted static workflow is as it should be. -/
theorem StaticWorkflow.submitted {spec : WorkflowSpec} {components : List ComponentSpec} {initialState : Mapping}
    {workflow : WorkflowRecord} (hsubmission : StaticSubmission engine spec components initialState)
    (hrun : submitWorkflow spec components initialState now store = .ok (workflow, store')) :
    StaticWorkflow engine store' (newWorkflowRow spec initialState now) := by
  obtain ⟨⟨payload, haccepted⟩, rfl, desired, hdesired, hvalid⟩ := hsubmission
  obtain ⟨workflows, -, hinsert⟩ := submitWorkflow_steps hrun
  have hmembers := (forall₂_mem (mapM_eq_ok.mp hvalid)).1
  refine ⟨⟨desired, hdesired, payloadComponents_ne_nil haccepted hdesired, fun component hmem => ?_⟩, ?_⟩
  · obtain ⟨valid, hmem', hcomponent⟩ := hmembers component hmem
    obtain ⟨link, hlink, hgeneration, hrequired⟩ := insertComponents_links hinsert valid hmem'
    refine ⟨⟨valid, hcomponent⟩, link, ?_⟩
    obtain ⟨payload, rfl⟩ := WorkflowEngine.validatedComponent_eq_ok hcomponent
    exact ⟨hlink, hgeneration, hrequired⟩
  · exact Replayed.start _ _ _ _

/-- A call for static workflows keeps them as they should be. -/
theorem StaticWorkflows.run {call : Call} {result : call.Result} (h : StaticWorkflows engine store)
    (hallowed : servesStatic engine store call) (hrun : call.run now store = .ok (result, store')) :
    StaticWorkflows engine store' := by
  intro row' hrow' hkind
  have hfound : store'.workflow? row'.workflowId = some row' := workflow?_eq_some.mpr ⟨hrow', rfl⟩
  cases hold : store.workflow? row'.workflowId with
  | none =>
    obtain ⟨spec, components, initialState, rfl, rfl⟩ := Call.workflow_new hrun hold hfound
    exact StaticWorkflow.submitted (hallowed hkind) hrun
  | some row =>
    obtain ⟨kept, hkept, horigin⟩ := Call.workflow_kept hrun hold
    obtain rfl := Option.some.inj (hkept.symm.trans hfound)
    obtain ⟨hmem, hid⟩ := workflow?_eq_some.mp hold
    have hkindOld : row.kind = staticKind := (congrArg WorkflowOrigin.kind horigin).symm.trans hkind
    have hpayload : kept.payloadJson = row.payloadJson := congrArg WorkflowOrigin.payloadJson horigin
    obtain ⟨⟨desired, hdesired, hne, hlinked⟩, hreplayed⟩ := h row hmem hkindOld
    refine ⟨⟨desired, ?_, hne, fun component hcomponent => ?_⟩, ?_⟩
    · rw [← hid, hpayload]
      exact hdesired
    · obtain ⟨hvalid, link, hlink, hlinkage⟩ := hlinked component hcomponent
      refine ⟨hvalid, link, Call.keeps_link hrun (hid ▸ hlink) fun moved hcall => ?_, hlinkage⟩
      subst hcall
      exact hallowed row hold hkindOld
    · rcases Call.workflow_after hrun hold with hsame | ⟨write, hupdate, hwritten⟩
      · obtain rfl := Option.some.inj (hsame.symm.trans hfound)
        exact hreplayed.of_extends (Call.events_extend hrun)
      · obtain rfl := Option.some.inj (hwritten.symm.trans hfound)
        cases call with
        | saveWorkflowState workflowId state cursor =>
          obtain ⟨rfl, rfl⟩ := Prod.mk.inj (Option.some.inj hupdate)
          exact (hallowed row hold hkindOld).of_extends (Call.events_extend hrun)
        | completeWorkflow _ _ | failWorkflow _ _ =>
          obtain ⟨rfl, rfl⟩ := Prod.mk.inj (Option.some.inj hupdate)
          exact hreplayed.of_extends (Call.events_extend hrun)
        | _ => cases hupdate

/-- In every state that calls for static workflows reach, these are as they should be. -/
theorem static_workflows (h : History (servesStatic engine) .empty store) : StaticWorkflows engine store :=
  h.invariant (I := StaticWorkflows engine) (fun _ _ _ _ _ hallowed hrun hs => hs.run hallowed hrun)
    fun _ hrow => (by cases hrow)

/-- An engine that knows how to train and how to run static workflows. -/
def staticEngine : WorkflowEngine where
  registry :=
    { tasks := Dict.ofList [("train", { managedJob := fun _ _ => .error ⟨.runtime, ""⟩ })]
      workflows := Dict.ofList [(staticKind, staticMultiAutoResumable)] }

/-- A component of a payload. -/
def trainItem (key : String) : Json :=
  .obj (Dict.ofList [("key", .str key),
    ("task", .obj (Dict.ofList [("kind", .str "train"), ("resource_class", .str "v6e")]))])

/-- A static workflow with such components. -/
def trainWorkflow (workflowId : String) (keys : List String) : WorkflowSpec where
  kind := staticKind
  payload := Dict.ofList [("components", .arr (keys.map trainItem))]
  workflowId := workflowId
  kind_nonempty := by decide +kernel

/-- The sample engine has the static handler. -/
theorem staticEngine_static : staticEngine.registry.workflow staticKind = .ok staticMultiAutoResumable := rfl

end TPUSwarm
