import TPUSwarm.Invariants.Barriers
import TPUSwarm.Session.Replacing

/-!
# Rejected components

Submitting a workflow validates all its components before it calls the store. Reconciling
validates each when its turn comes, after the ones before it were replaced. So a rejected
component leaves the components as they were only if there was nothing to replace before it.
-/

namespace TPUSwarm

open Common SwarmStore

/-- The event is a call of the store that raised. -/
def callRaises : Sigma Operation.Reply → Bool
  | ⟨.store _ _, .error _⟩ => true
  | _ => false

variable {engine : WorkflowEngine} {store store' : SwarmStore} {workflowId : String} {bad : ComponentSpec}
  {before after : List ComponentSpec} {trace : List (Sigma Operation.Reply)} {e : PyError}

/-- Submitting a workflow with a rejected component calls nothing. -/
theorem rejected_submit {spec : WorkflowSpec} {allowed : Discretion} {handler : MultiAutoResumable}
    {payload state : Mapping} {desired : List ComponentSpec} {outcome : Except PyError WorkflowRecord}
    (hhandler : engine.registry.workflow spec.kind = .ok handler)
    (hpayload : handler.validatePayload spec.payload = .ok payload)
    (hstate : handler.initialState payload = .ok state)
    (hdesired : handler.desiredComponents
      (WorkflowEngine.placeholder { spec with payload := payload } state) state =
      .ok desired)
    (hbad : bad ∈ desired) (hrejected : engine.validatedComponent bad = .error e)
    (hrun : Session allowed (engine.submit spec) store trace outcome store') : trace = [] ∧ store' = store := by
  obtain ⟨raised, hraised⟩ : ∃ raised, desired.mapM engine.validatedComponent = .error raised := by
    cases hvalid : desired.mapM engine.validatedComponent with
    | error raised => exact ⟨raised, rfl⟩
    | ok components =>
      obtain ⟨valid, -, h⟩ := (forall₂_mem (mapM_eq_ok.mp hvalid)).1 bad hbad
      rw [hrejected] at h
      cases h
  unfold WorkflowEngine.submit at hrun
  simp only [hhandler, hpayload, hstate, hdesired, hraised, Action.ofExcept_bind] at hrun
  obtain ⟨rfl, -, rfl⟩ := Prog.runs_pure.mp hrun
  exact ⟨rfl, rfl⟩

/-- A list with one rejected component after valid ones is divided at its first rejected component. -/
theorem split_at_rejected {done rest : List ComponentSpec} {component : ComponentSpec} {e' : PyError}
    (heq : before ++ bad :: after = done ++ component :: rest)
    (hbefore : ∀ c ∈ before, ∃ valid, engine.validatedComponent c = .ok valid)
    (hdone : ∀ c ∈ done, ∃ valid, engine.validatedComponent c = .ok valid)
    (hbad : engine.validatedComponent bad = .error e)
    (hcomponent : engine.validatedComponent component = .error e') :
    before = done ∧ bad = component := by
  induction before generalizing done with
  | nil =>
    cases done with
    | nil => exact ⟨rfl, (List.cons.inj heq).1⟩
    | cons first others =>
      obtain ⟨valid, hvalid⟩ := hdone first List.mem_cons_self
      rw [← (List.cons.inj heq).1, hbad] at hvalid
      cases hvalid
  | cons first others ih =>
    cases done with
    | nil =>
      obtain ⟨valid, hvalid⟩ := hbefore first List.mem_cons_self
      rw [(List.cons.inj heq).1, hcomponent] at hvalid
      cases hvalid
    | cons found rest' =>
      obtain ⟨rfl, htail⟩ := List.cons.inj heq
      obtain ⟨rfl, rfl⟩ := ih htail (fun c hc => hbefore c (List.mem_cons_of_mem _ hc))
        fun c hc => hdone c (List.mem_cons_of_mem _ hc)
      exact ⟨rfl, rfl⟩

/-- A reconciliation that raises because a desired component is rejected leaves tasks, components and the row
of the workflow as they were if and only if every desired component before the rejected one is linked in its
generation or a greater one, or is not older in the rows that were read. -/
theorem rejected_reconcile (plan : Plan engine store workflowId) (hdesired : plan.desired = before ++ bad :: after)
    (hbefore : ∀ component ∈ before, ∃ valid, engine.validatedComponent component = .ok valid)
    (hbad : engine.validatedComponent bad = .error e) {outcome : Except PyError WorkflowRecord}
    (hrun : Session noCall (engine.reconcile workflowId) store trace outcome store')
    (hreturned : ∀ event ∈ trace, callRaises event = false) : outcome = .error e ∧
      ((store'.tasks = store.tasks ∧ store'.components = store.components ∧
          store'.workflow? workflowId = store.workflow? workflowId) ↔
        ∀ component ∈ before, outdated (store.getWorkflowComponents workflowId) component = true →
          Materialized store workflowId component) := by
  obtain ⟨rest, rfl, hremaining⟩ := plan.readsTo.session_iff.mp hrun
  rcases Action.runs_bind.mp hremaining with ⟨e', rfl, hloop⟩ | ⟨first, _, mid, second, rfl, hloop, -⟩
  · obtain ⟨done, others, hsplit, hreplaces, ⟨herror, -⟩ | ⟨_, component, tail, herror, rfl, hraised⟩⟩ :=
      session_replaceComponents hloop
    · cases herror
    cases herror
    rcases hraised with hrejected | ⟨call, time, raised, hmem⟩
    · obtain ⟨rfl, rfl⟩ := split_at_rejected (hdesired.symm.trans hsplit) hbefore hreplaces.valid hbad hrejected
      rw [hbad] at hrejected
      refine ⟨by rw [Except.error.inj hrejected], ?_⟩
      rw [← hreplaces.unchanged_iff, workflow?, workflow?, hreplaces.workflows]
      exact ⟨fun h => ⟨h.1, h.2.1⟩, fun h => ⟨h.1, h.2, rfl⟩⟩
    · have hquiet := hreturned _ (List.mem_append_right _ hmem)
      cases hquiet
  · obtain ⟨done, others, hsplit, hreplaces, ⟨-, rfl⟩ | ⟨_, _, _, herror, -⟩⟩ := session_replaceComponents hloop
    · rw [List.append_nil] at hsplit
      obtain ⟨valid, hvalid⟩ := hreplaces.valid bad (hsplit ▸ hdesired ▸ by simp)
      rw [hbad] at hvalid
      cases hvalid
    · cases herror

/-- A component of a kind that is not registered. -/
def unknownComponent : ComponentSpec where
  key := "evaluator"
  task := { trainTask "t9" with kind := "unknown", kind_nonempty := by decide +kernel }
  key_nonempty := isBlank_evaluator

/-- A handler that desires a trainer, and after an event an unknown component behind it. The trainer may be
desired in a new generation then. -/
def growingHandler (newer : Bool) : MultiAutoResumable where
  initialState _ := .ok (Dict.ofList [("grown", .bool false)])
  reduce state _ := .ok (state.set "grown" (.bool true))
  desiredComponents _ state :=
    .ok (if state.get? "grown" = some (.bool true) then
      [if newer then trainComponent "t1" 1 else trainComponent "t0" 0, unknownComponent]
    else [trainComponent "t0" 0])

/-- An engine with this handler, which knows how to train. -/
def growingEngine (newer : Bool) : WorkflowEngine where
  registry :=
    { tasks := Dict.ofList [("train", { managedJob := fun _ _ => .error ⟨.runtime, ""⟩ })]
      workflows := Dict.ofList [("tree", growingHandler newer)] }

/-- A workflow of this kind was submitted, and has committed a barrier. -/
def grownStore : SwarmStore :=
  SwarmStore.empty.after
    [(.submitWorkflow (treeWorkflow "w1") [trainComponent "t0" 0] (Dict.ofList [("grown", .bool false)]), 0),
      (.recordCheckpoint "t0" (trainerCheckpoint "gs://a" 1), 1), (.commitBarrier "w1" 1 none, 2)]

/-- The plan of its reconciliation. -/
def grownPlan (newer : Bool) : Plan (growingEngine newer) grownStore "w1" where
  row := (grownStore.workflow? "w1").get (by decide +kernel)
  handler := growingHandler newer
  state := Dict.ofList [("grown", .bool true)]
  cursor := 1
  desired := [if newer then trainComponent "t1" 1 else trainComponent "t0" 0, unknownComponent]
  found := (Option.some_get _).symm
  active := by decide +kernel
  handles := rfl
  replays := by cases newer <;> decide +kernel
  desires := rfl

/-- The unknown component is rejected. -/
theorem unknownComponent_rejected (newer : Bool) : (growingEngine newer).validatedComponent unknownComponent =
    .error ⟨.key, "unknown task kind: unknown"⟩ := rfl

/-- The trainer is desired as it is linked. The reconciliation raises, and has changed nothing. -/
theorem rejected_reconcile_linked : ∃ trace store',
    Session noCall ((growingEngine false).reconcile "w1") grownStore trace
      (.error ⟨.key, "unknown task kind: unknown"⟩) store' ∧
    store'.tasks = grownStore.tasks ∧ store'.components = grownStore.components ∧
      store'.workflow? "w1" = grownStore.workflow? "w1" := by
  have hcheck : ((playSession noCall ((growingEngine false).reconcile "w1").run grownStore
      [.store [] 3, .store [] 3, .store [] 3]).any fun (trace, _, _) =>
        trace.all fun event => !callRaises event) = true := by decide +kernel
  obtain ⟨⟨trace, outcome, store'⟩, hplay, hquiet⟩ := (Option.any_eq_true _ _).mp hcheck
  have hrun : Session noCall ((growingEngine false).reconcile "w1") grownStore trace outcome store' :=
    runs_of_playSession hplay
  have hdesired : (grownPlan false).desired = [trainComponent "t0" 0] ++ unknownComponent :: [] := rfl
  obtain ⟨rfl, hiff⟩ := rejected_reconcile (grownPlan false) hdesired
    (List.forall_mem_singleton.mpr ⟨_, rfl⟩) (unknownComponent_rejected false) hrun
    fun event hevent => by simpa using List.all_eq_true.mp hquiet event hevent
  refine ⟨trace, store', hrun, hiff.mpr (List.forall_mem_singleton.mpr fun houtdated => ?_)⟩
  exact absurd houtdated (by decide +kernel)

/-- The trainer is desired in a new generation. The reconciliation raises after it has replaced the trainer. -/
theorem rejected_reconcile_newer : History anyCall .empty grownStore ∧ ∃ trace store',
    Session noCall ((growingEngine true).reconcile "w1") grownStore trace
      (.error ⟨.key, "unknown task kind: unknown"⟩) store' ∧
    store'.components.rows.map ComponentRow.taskId ≠ grownStore.components.rows.map ComponentRow.taskId := by
  have hcheck : ((playSession noCall ((growingEngine true).reconcile "w1").run grownStore
      [.store [] 3, .store [] 3, .store [] 3, .store [] 3]).any fun (_, outcome, store') =>
        outcome = .error ⟨.key, "unknown task kind: unknown"⟩ &&
          store'.components.rows.map ComponentRow.taskId ≠ grownStore.components.rows.map ComponentRow.taskId) =
            true := by decide +kernel
  obtain ⟨⟨trace, outcome, store'⟩, hplay, hchecks⟩ := (Option.any_eq_true _ _).mp hcheck
  obtain ⟨houtcome, hmoved⟩ := Bool.and_eq_true_iff.mp hchecks
  obtain rfl := of_decide_eq_true houtcome
  refine ⟨SwarmStore.history_any _ _, trace, store', runs_of_playSession hplay, of_decide_eq_true hmoved⟩

end TPUSwarm
