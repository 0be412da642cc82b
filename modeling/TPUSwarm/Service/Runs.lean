import TPUSwarm.Common.Shared
import TPUSwarm.Invariants.ReportedBarriers
import TPUSwarm.Service.System

/-!
# Runs of the service

Between its calls the engine holds what it read of a workflow, and this lasts: its kind and
payload never change, what was replayed stays exact, and what is linked stays linked. So all it
asks of the store for a static workflow is allowed, and the barriers of the workflow agree.
-/

namespace TPUSwarm

open Common Relation SwarmStore

/-- When the engine may issue an operation. -/
def ServicePermitted (engine : WorkflowEngine) : Operation → SwarmStore → Prop
  | .store call _, store => servesStatic engine store call
  | _, _ => True

/-- All parties make calls that are allowed for static workflows. -/
def serviceSimulation (ι : Type) (engine : WorkflowEngine) : (services ι engine).Simulation SwarmStore :=
  Pool.shared _ (History (servesStatic engine) .empty) (Served (servesStatic engine)) (ServicePermitted engine)
    fun _ _ hhistory hserved => hhistory.tail hserved

/-- What one program of the engine has to follow. -/
abbrev serviceProgram {ι : Type} (i : ι) (engine : WorkflowEngine) := (serviceSimulation ι engine).abstraction i

/-- A fact that no allowed call changes. -/
abbrev Enduring (engine : WorkflowEngine) (fact : SwarmStore → Prop) : Prop :=
  Lasts (Served (servesStatic engine)) fact

variable {ι : Type} {i : ι} {engine : WorkflowEngine} {store : SwarmStore}

/-- What every call keeps endures. -/
theorem Enduring.of_calls {fact : SwarmStore → Prop} (h : ∀ (call : Call) (now : Time) (result : call.Result)
    (s s' : SwarmStore), call.run now s = .ok (result, s') → fact s → fact s') : Enduring engine fact := by
  rintro s s' ⟨call, now, -, rfl⟩ hs
  rcases call.perform_store now s with hsame | ⟨result, hrun⟩
  · rw [hsame]
    exact hs
  · exact h call now result _ _ hrun hs

/-- A call of the engine, from an enduring fact to enduring facts about its result. -/
theorem service_call (call : Call) {now : Option Time} {fact : SwarmStore → Prop}
    {returned : call.Result → SwarmStore → Prop} (hfact : Enduring engine fact)
    (hreturned : ∀ r, Enduring engine (returned r)) (hallowed : ∀ s, fact s → servesStatic engine s call)
    (h : ∀ clock result s s', History (servesStatic engine) .empty s → fact s →
      call.run clock s = .ok (result, s') → returned result s') (hstore : fact store) :
    (callStore call now).Follows (serviceProgram i engine) returned (fun _ _ => True) store := by
  refine Pool.shared_issue (c := Operation.store call now) hfact (fun r => ?_) (fun s _ hs => hallowed s hs)
    (fun s r s' hhistory hs hexec => ?_) hstore
  · cases r with
    | ok r => exact hreturned r
    | error e => exact Lasts.const True
  · cases hexec with
    | store clock =>
      refine ⟨⟨call, now.getD clock, fun _ _ _ => hallowed s hs, rfl⟩, ?_⟩
      rcases Call.perform_cases (Prod.mk.eta (p := call.perform (now.getD clock) s)).symm with
        ⟨e, he, -⟩ | ⟨result, hresult, hrun⟩
      · rw [he]
        trivial
      · rw [hresult]
        exact h _ result s _ hhistory hs hrun

/-- A computation without operations. -/
theorem service_ofExcept {α : Type} (r : Except PyError α) {returned : α → SwarmStore → Prop}
    (hreturned : ∀ a, Enduring engine (returned a)) (h : ∀ a, r = .ok a → returned a store) :
    (Action.ofExcept r : Effect α).Follows (serviceProgram i engine) returned (fun _ _ => True) store := by
  cases r with
  | ok a => exact Prog.Follows.pure (Q := Action.post returned _) (Pool.shared_stable (hreturned a)) (h a rfl)
  | error e =>
    exact Prog.Follows.pure (Q := Action.post returned fun _ _ => True)
      (Pool.shared_stable (Lasts.const True)) trivial

/-- A raised error skips the rest of the program. -/
theorem service_bind {α β : Type} {p : Effect α} {f : α → Effect β} {K : α → SwarmStore → Prop}
    {returned : β → SwarmStore → Prop} (h : p.Follows (serviceProgram i engine) K (fun _ _ => True) store)
    (hf : ∀ a s, History (servesStatic engine) .empty s → K a s →
      (f a).Follows (serviceProgram i engine) returned (fun _ _ => True) s) :
    (p >>= f).Follows (serviceProgram i engine) returned (fun _ _ => True) store :=
  Action.Follows.bind (fun _ => Pool.shared_stable (Lasts.const True)) h hf

/-- What the engine submits for a static workflow is a static submission. -/
theorem service_submit (hstatic : engine.registry.workflow staticKind = .ok staticMultiAutoResumable)
    (spec : WorkflowSpec) : (engine.submit spec).Follows (serviceProgram i engine) (fun _ _ => True)
      (fun _ _ => True) store := by
  unfold WorkflowEngine.submit
  refine service_bind (service_ofExcept _ (fun _ => Lasts.const _) fun _ h => h) fun handler s _ hhandler => ?_
  refine service_bind (service_ofExcept _ (fun _ => Lasts.const _) fun _ h => h) fun payload s _ hpayload => ?_
  refine service_bind (service_ofExcept _ (fun _ => Lasts.const _) fun _ h => h) fun state s _ hstate => ?_
  refine service_bind (service_ofExcept _ (fun _ => Lasts.const _) fun _ h => h) fun desired s _ hdesired => ?_
  refine service_bind (service_ofExcept _ (fun _ => Lasts.const _) fun _ h => h)
    fun components s _ hcomponents => ?_
  refine service_call _ (Lasts.const True) (fun _ => Lasts.const True) (fun s _ hkind => ?_)
    (fun _ _ _ _ _ _ _ => trivial) trivial
  obtain rfl : handler = staticMultiAutoResumable := by
    rw [show spec.kind = staticKind from hkind, hstatic] at hhandler
    exact (Except.ok.inj hhandler).symm
  exact ⟨⟨spec.payload, hpayload⟩, (Except.ok.inj hstate).symm, desired, hdesired, hcomponents⟩

/-- The loop over components that are linked asks only for what is allowed. -/
theorem service_replaceComponents {fact : SwarmStore → Prop} (hfact : Enduring engine fact) (workflowId : String)
    (current : Dict String TaskRecord) {components : List ComponentSpec}
    (hlinked : ∀ s, fact s → ∀ component ∈ components, ∀ row, s.workflow? workflowId = some row →
      row.kind = staticKind → Materialized s workflowId component) (hstore : fact store) :
    (engine.replaceComponents workflowId current components).Follows (serviceProgram i engine) (fun _ => fact)
      (fun _ _ => True) store := by
  induction components generalizing store with
  | nil => exact Action.Follows.pure (Q := fun _ => fact) (Pool.shared_stable hfact) hstore
  | cons component rest ih =>
    have hrest (s : SwarmStore) (hs : fact s) :=
      @ih s (fun s hs c hc => hlinked s hs c (List.mem_cons_of_mem _ hc)) hs
    refine service_bind (service_ofExcept _ (fun _ => (Lasts.const _).and hfact) fun _ h => ⟨h, hstore⟩)
      fun desired s _ hdesired => ?_
    obtain ⟨hvalid, hs⟩ := hdesired
    have hallowed (s : SwarmStore) (hs : fact s) :
        servesStatic engine s (.replaceComponent workflowId desired) := by
      intro row hrow hkind
      obtain ⟨payload, rfl⟩ := WorkflowEngine.validatedComponent_eq_ok hvalid
      exact hlinked s hs component List.mem_cons_self row hrow hkind
    dsimp only
    split
    · exact service_bind (service_call (.replaceComponent workflowId desired) hfact (fun _ => hfact) hallowed
        (fun _ _ s s' _ hs hrun => hfact s s' (.of_run (hallowed s hs) hrun) hs) hs) fun _ s _ hs => hrest s hs
    · exact hrest s hs

/-- What the engine holds of a workflow it read: the row is there; and if it is static, then the state is
replayed up to the cursor and the components of the payload are linked. -/
structure StaticHold (workflow : WorkflowRecord) (state : Mapping) (cursor : ℕ) (store : SwarmStore) : Prop where
  row : ∃ row, store.workflow? workflow.workflowId = some row ∧ row.kind = workflow.kind
  replayed : workflow.kind = staticKind → StaticReplayed store workflow.workflowId state cursor
  linked : workflow.kind = staticKind → ∀ desired,
    StaticMultiAutoResumable.payloadComponents workflow.workflowId workflow.payload = .ok desired →
      ∀ component ∈ desired, Materialized store workflow.workflowId component

namespace StaticHold

variable {workflow : WorkflowRecord} {state : Mapping} {cursor : ℕ}

/-- No call changes what the engine holds. -/
theorem enduring : Enduring engine (StaticHold workflow state cursor) := by
  refine Enduring.of_calls fun call now result s s' hrun h =>
    ⟨?_, fun hkind => ?_, fun hkind desired hdesired c hc => ?_⟩
  · obtain ⟨row, hrow, hkind⟩ := h.row
    obtain ⟨row', hrow', horigin⟩ := Call.workflow_kept hrun hrow
    exact ⟨row', hrow', (congrArg WorkflowOrigin.kind horigin).trans hkind⟩
  · exact (h.replayed hkind).of_extends (Call.events_extend hrun)
  · exact (h.linked hkind desired hdesired c hc).run hrun

/-- The workflow of a static row is static. -/
theorem kind_eq (h : StaticHold workflow state cursor store) {row : WorkflowRow}
    (hrow : store.workflow? workflow.workflowId = some row) (hkind : row.kind = staticKind) :
    workflow.kind = staticKind := by
  obtain ⟨row', hrow', hsame⟩ := h.row
  obtain rfl := Option.some.inj (hrow.symm.trans hrow')
  exact hsame.symm.trans hkind

/-- Reading a workflow holds its saved state. -/
theorem of_read (h : History (servesStatic engine) .empty store) {row : WorkflowRow}
    (hrow : store.workflow? row.workflowId = some row) :
    StaticHold row.toRecord row.toRecord.state row.toRecord.eventCursor store := by
  have hmem := (workflow?_eq_some.mp hrow).1
  refine ⟨⟨row, hrow, rfl⟩, fun hkind => (static_workflows h row hmem hkind).replayed, ?_⟩
  intro hkind desired hdesired component hcomponent
  obtain ⟨found, hfound, -, hlinked⟩ := (static_workflows h row hmem hkind).components
  obtain rfl := Except.ok.inj (hdesired.symm.trans hfound)
  obtain ⟨-, link, hlink, hgeneration, -⟩ := hlinked component hcomponent
  exact ⟨link, hlink, le_of_eq hgeneration.symm⟩

end StaticHold

/-- What the engine asks of the store while it reconciles is allowed. -/
theorem service_reconcile (hstatic : engine.registry.workflow staticKind = .ok staticMultiAutoResumable)
    (workflowId : String) : (engine.reconcile workflowId).Follows (serviceProgram i engine) (fun _ _ => True)
      (fun _ _ => True) store := by
  have hlast (call : Call) (hcall : ∀ s, servesStatic engine s call) (s : SwarmStore) :
      (callStore call none).Follows
      (serviceProgram i engine) (fun _ _ => True) (fun _ _ => True) s :=
    service_call call (Lasts.const True) (fun _ => Lasts.const True) (fun s _ => hcall s)
      (fun _ _ _ _ _ _ _ => trivial) trivial
  unfold WorkflowEngine.reconcile
  refine service_bind (K := fun (workflow : WorkflowRecord) s => workflow.workflowId = workflowId ∧
      StaticHold workflow workflow.state workflow.eventCursor s)
    (service_call (.getWorkflow workflowId) (Lasts.const True) (fun _ => (Lasts.const _).and StaticHold.enduring)
      (fun _ _ => trivial) (fun clock workflow s s' hhistory _ hrun => ?_) trivial) fun workflow s _ hheld => ?_
  · obtain ⟨hget, rfl⟩ := Call.reading_eq_ok.mp hrun
    obtain ⟨row, hrow, rfl⟩ := Option.map_eq_some_iff.mp (orRaise_eq_ok.mp hget)
    obtain ⟨-, rfl⟩ := workflow?_eq_some.mp hrow
    exact ⟨rfl, .of_read hhistory hrow⟩
  obtain ⟨rfl, hheld⟩ := hheld
  dsimp only
  split
  · exact Action.Follows.pure (Q := fun _ _ => True) (Pool.shared_stable (Lasts.const True)) trivial
  refine service_bind (service_ofExcept _ (fun _ => (Lasts.const _).and StaticHold.enduring) fun _ h => ⟨h, hheld⟩)
    fun handler s _ hhandled => ?_
  obtain ⟨hhandler, hheld⟩ := hhandled
  have hreduces (hkind : workflow.kind = staticKind) : handler = staticMultiAutoResumable := by
    rw [hkind, hstatic] at hhandler
    exact (Except.ok.inj hhandler).symm
  -- replaying what was read advances what is held
  refine service_bind (K := fun (events : List WorkflowEvent) s => ∀ replayed : Mapping × ℕ,
      WorkflowEngine.replay handler workflow.state workflow.eventCursor events = .ok replayed →
        StaticHold workflow replayed.1 replayed.2 s)
    (service_call (.getWorkflowEvents workflow.workflowId workflow.eventCursor) StaticHold.enduring
      (fun _ => Lasts.all fun _ => Lasts.all fun _ => StaticHold.enduring)
      (fun _ _ => trivial) (fun clock events s s' _ hheld hrun replayed hreplay => ?_) hheld)
        fun events s _ hheld => ?_
  · have hread : Call.reading (fun store => .ok (store.getWorkflowEvents workflow.workflowId
        workflow.eventCursor)) s = .ok (events, s') := hrun
    obtain ⟨hevents, rfl⟩ := Call.reading_eq_ok.mp hread
    rw [← Except.ok.inj hevents] at hreplay
    obtain ⟨state, cursor⟩ := replayed
    obtain ⟨hfold, rfl⟩ := WorkflowEngine.replay_eq_ok hreplay
    refine ⟨hheld.row, fun hkind => ?_, hheld.linked⟩
    rw [hreduces hkind] at hfold
    exact (hheld.replayed hkind).advance hfold
  refine service_bind (service_ofExcept _ (fun _ => StaticHold.enduring) hheld) fun replayed s _ hheld => ?_
  obtain ⟨state, cursor⟩ := replayed
  dsimp only at hheld ⊢
  refine service_bind (K := fun _ => StaticHold workflow state cursor)
    (service_call (.getWorkflowComponents workflow.workflowId) StaticHold.enduring (fun _ => StaticHold.enduring)
      (fun _ _ => trivial) (fun clock current s s' _ hheld hrun => ?_) hheld) fun current s _ hheld => ?_
  · rw [Call.read_unchanged rfl hrun]
    exact hheld
  refine service_bind (service_ofExcept _ (fun _ => (Lasts.const _).and StaticHold.enduring) fun _ h => ⟨h, hheld⟩)
    fun desired s _ hdesires => ?_
  obtain ⟨hdesired, hheld⟩ := hdesires
  refine service_bind (service_replaceComponents StaticHold.enduring _ _
    (fun s hheld c hc row hrow hkind => ?_) hheld)
    fun _ s _ hheld => ?_
  · have hstaticKind := hheld.kind_eq hrow hkind
    rw [hreduces hstaticKind] at hdesired
    exact hheld.linked hstaticKind desired hdesired c hc
  refine service_bind (K := fun _ _ => True) (service_call (.saveWorkflowState workflow.workflowId state cursor)
    StaticHold.enduring (fun _ => Lasts.const True) (fun s hheld row hrow hkind => ?_)
    (fun _ _ _ _ _ _ _ => trivial) hheld) fun saved s _ _ => ?_
  · exact hheld.replayed (hheld.kind_eq hrow hkind)
  refine service_bind (hlast (.getWorkflowComponents workflow.workflowId) (fun _ => trivial) s)
    fun components s _ _ => ?_
  refine service_bind (K := fun _ _ => True) (service_ofExcept _ (fun _ => Lasts.const True) fun _ _ => trivial)
    fun result s _ _ => ?_
  split
  · exact hlast (.completeWorkflow _ _) (fun _ => trivial) s
  · refine service_bind (K := fun _ _ => True) (service_ofExcept _ (fun _ => Lasts.const True) fun _ _ => trivial)
      fun reason s _ _ => ?_
    split
    · exact hlast (.failWorkflow _ _) (fun _ => trivial) s
    · exact Action.Follows.pure (Q := fun _ _ => True) (Pool.shared_stable (Lasts.const True)) trivial

/-- The service matches the machine: the calls of others, crashes, and new programs of the engine. -/
theorem serviceSimulation_matches (ι : Type)
    (hstatic : engine.registry.workflow staticKind = .ok staticMultiAutoResumable) :
    (serviceSimulation ι engine).Matches where
  env s s' _ henv := by
    obtain ⟨call, now, hcall, rfl⟩ := henv
    refine ⟨_, ⟨call, now, fun _ _ _ => ?_, rfl⟩, rfl⟩
    cases call <;> trivial
  crash i s _ s' _ hcrash := ⟨s, .refl, hcrash.symm, fun _ _ _ => trivial⟩
  begins i _ s program s' _ _ hbegins := by
    obtain ⟨hsame, ⟨spec, rfl⟩ | ⟨workflowId, rfl⟩⟩ := hbegins
    · exact ⟨s, .refl, hsame.symm, Prog.Follows.mono (service_submit hstatic spec) fun _ _ _ _ => trivial⟩
    · exact ⟨s, .refl, hsame.symm, Prog.Follows.mono (service_reconcile hstatic workflowId) fun _ _ _ _ => trivial⟩

/-- The store of the service has a history of allowed calls. -/
theorem service_history [DecidableEq ι]
    (hstatic : engine.registry.workflow staticKind = .ok staticMultiAutoResumable)
    {s : (services ι engine).State} (h : (services ι engine).Run (servicesInitial ι engine) s) :
    History (servesStatic engine) .empty s.world := by
  have hstart : (serviceSimulation ι engine).Related .empty (servicesInitial ι engine) :=
    Pool.Simulation.Related.of_finished _ rfl .refl fun _ => ⟨_, rfl, fun _ => trivial⟩
  obtain ⟨m, -, hrelated⟩ := Pool.Simulation.run (serviceSimulation_matches ι hstatic) hstart h
  obtain rfl : m = s.world := hrelated.view
  exact hrelated.inv

/-- Whatever is submitted, checkpointed, committed, reconciled and abandoned, in any interleaving: the barriers
of a static workflow with a required component increase in the order of their commits; its saved state names
the greatest barrier that its events report up to its cursor; and with the cursor at the end of its events this is
its latest barrier. -/
theorem static_barriers_agree [DecidableEq ι]
    (hstatic : engine.registry.workflow staticKind = .ok staticMultiAutoResumable)
    {s : (services ι engine).State} (h : (services ι engine).Run (servicesInitial ι engine) s)
    {row : WorkflowRow} (hrow : row ∈ s.world.workflows.rows) (hkind : row.kind = staticKind)
    (hrequired : HasRequired s.world row.workflowId) :
    (s.world.barriers row.workflowId).Pairwise (· < ·) ∧
    (loads row.stateJson).get? "last_barrier" =
      some (barrierJson (s.world.reportedBarriers row.workflowId row.eventCursor).max?) ∧
    ((∀ event ∈ s.world.events.entries, event.workflowId = row.workflowId → event.eventId ≤ row.eventCursor) →
      ∃ latest, latestBarrier row.workflowId s.world = .ok latest ∧
        (loads row.stateJson).get? "last_barrier" = some (barrierJson (latest.map BarrierCommit.barrier))) := by
  have hhistory := service_history hstatic h
  have hany : History anyCall .empty s.world := hhistory.mono fun _ _ _ => trivial
  have hincreasing := (static_barriers hhistory row hrow hkind).increasing hrequired
  have hlast : (loads row.stateJson).get? "last_barrier" =
      some (barrierJson (s.world.reportedBarriers row.workflowId row.eventCursor).max?) := by
    rw [max?_eq_getLast? (hincreasing.sublist (reported_sublist hany))]
    exact (static_workflows hhistory row hrow hkind).replayed.lastBarrier hany
  refine ⟨hincreasing, hlast, fun hend => ?_⟩
  obtain ⟨latest, hlatest, hgreatest⟩ := latestBarrier_greatest hany row.workflowId
  exact ⟨latest, hlatest, by rw [hlast, reported_end hany hend, hgreatest]⟩

/-- A static workflow commits two barriers. A reconciliation saves the first; one that has read both is
abandoned before it saves. -/
def abandonedCommands : List (ServiceCommand Unit) :=
  [.submit () (trainWorkflow "w1" ["a"]), .store () 0,
    .other (.recordCheckpoint "w1-a-g0" (trainerCheckpoint "gs://a" 1)) 1, .other (.commitBarrier "w1" 1 none) 2,
    .reconcile () "w1", .store () 3, .store () 3, .store () 3, .store () 3, .store () 3,
    .other (.recordCheckpoint "w1-a-g0" (trainerCheckpoint "gs://b" 2)) 4, .other (.commitBarrier "w1" 2 none) 5,
    .reconcile () "w1", .store () 6, .store () 6, .store () 6, .crash ()]

/-- The state of an abandoned reconciliation is that of the barrier before. -/
theorem static_barriers_agree_abandoned : ∃ s : (services Unit staticEngine).State,
    ∃ row ∈ s.world.workflows.rows, row.eventCursor = 1 ∧ s.world.barriers row.workflowId = [1, 2] ∧
      (s.world.barriers row.workflowId).Pairwise (· < ·) ∧
      (loads row.stateJson).get? "last_barrier" =
        some (barrierJson (s.world.reportedBarriers row.workflowId row.eventCursor).max?) := by
  have hcheck : (Pool.plays (servicePlay staticEngine) abandonedCommands (servicesInitial Unit staticEngine)).any
      (fun s => s.world.workflows.rows.any fun row => row.kind = staticKind && row.eventCursor = 1 &&
        s.world.barriers row.workflowId = [1, 2] && s.world.components.rows.any fun link =>
          link.workflowId = row.workflowId && link.required) = true := by decide +kernel
  obtain ⟨s, hs, hrows⟩ := (Option.any_eq_true _ _).mp hcheck
  obtain ⟨row, hrow, hcolumns⟩ := List.any_eq_true.mp hrows
  simp only [Bool.and_eq_true, decide_eq_true_eq, List.any_eq_true] at hcolumns
  obtain ⟨⟨⟨hkind, hcursor⟩, hbarriers⟩, hrequired⟩ := hcolumns
  obtain ⟨hincreasing, hlast, -⟩ :=
    static_barriers_agree staticEngine_static (run_of_servicePlays hs) hrow hkind hrequired
  exact ⟨s, row, hrow, hcursor, hbarriers, hincreasing, hlast⟩

end TPUSwarm
