import TPUSwarm.Engine.Replay
import TPUSwarm.Engine.Schedule

/-!
# Runs of reconciliations

The machine that reconciliations follow makes any call, and saves only exact progress. A
reconciliation knows one thing between its calls: the progress it holds is exact. This
survives all calls of others, so it still holds when the progress is saved.
-/

namespace TPUSwarm

open Common Relation SwarmStore

/-- A call returns, and saves only exact progress. -/
def EngineMove (registry : TaskRegistry) (records records' : Records) : Prop :=
  ∃ (call : Call) (now : Time) (result : call.Result), records.Returns call now result records' ∧
    SavesExact registry records call

/-- When a reconciliation may issue an operation. -/
def EnginePermitted (registry : TaskRegistry) : Operation → Records → Prop
  | .store call _, records => SavesExact registry records call
  | _, _ => True

variable {ι : Type} {registry : TaskRegistry}

/-- The records themselves are the machine. -/
def engineSimulation (ι : Type) (registry : TaskRegistry) :
    (reconciliations ι registry).Simulation Records where
  view := id
  inv := Replaying registry
  move _ := EngineMove registry
  envMove records records' := records' = records ∨ EngineMove registry records records'
  permitted _ := EnginePermitted registry
  inv_move _ _ _ hinv := by
    rintro ⟨call, now, result, hreturns, hsaves⟩
    exact hinv.returns hreturns hsaves
  inv_env _ _ hinv := by
    rintro (rfl | ⟨call, now, result, hreturns, hsaves⟩)
    · exact hinv
    · exact hinv.returns hreturns hsaves

/-- What one reconciliation has to follow. -/
abbrev reconciliation (i : ι) (registry : TaskRegistry) := (engineSimulation ι registry).abstraction i

/-- A fact that no call changes. -/
def Lasting (fact : Records → Prop) : Prop :=
  ∀ (call : Call) (now : Time) (result : call.Result) (records records' : Records),
    records.Returns call now result records' → fact records → fact records'

/-- A lasting fact is stable. -/
theorem Lasting.stable {i : ι} {fact : Records → Prop} (h : Lasting fact) :
    (reconciliation i registry).Stable fact := by
  rintro records records' ((rfl | ⟨call, now, result, hreturns, -⟩) | ⟨_, -, call, now, result, hreturns, -⟩) hfact
  · exact hfact
  · exact h call now result _ _ hreturns hfact
  · exact h call now result _ _ hreturns hfact

/-- Truth is lasting. -/
theorem Lasting.true : Lasting fun _ => True := fun _ _ _ _ _ _ _ => trivial

/-- A lasting fact is lasting beside a proposition. -/
theorem Lasting.and_const {fact : Records → Prop} (h : Lasting fact) (p : Prop) :
    Lasting fun m => p ∧ fact m :=
  fun call now result m m' hreturns hm => ⟨hm.1, h call now result m m' hreturns hm.2⟩

/-- A lasting fact is lasting under a hypothesis. -/
theorem Lasting.imp_const {fact : Records → Prop} (h : Lasting fact) (p : Prop) :
    Lasting fun m => p → fact m :=
  fun call now result m m' hreturns hm hp => h call now result m m' hreturns (hm hp)

/-- A family of lasting facts is lasting. -/
theorem Lasting.forall {α : Type} {fact : α → Records → Prop} (h : ∀ a, Lasting (fact a)) :
    Lasting fun m => ∀ a, fact a m :=
  fun call now result m m' hreturns hm a => h a call now result m m' hreturns (hm a)

/-- That the progress of a workflow is tracked is lasting. -/
theorem Tracked.lasting (p : WorkflowProgress) : Lasting (Tracked registry p) :=
  fun _ _ _ _ _ hreturns hp => hp.returns hreturns

/-- A call of a reconciliation, from a lasting fact to lasting facts about its result. -/
theorem engine_call {i : ι} (call : Call) {now : Option Time} {fact : Records → Prop}
    {returned : call.Result → Records → Prop} (hfact : Lasting fact) (hreturned : ∀ r, Lasting (returned r))
    (hsaves : ∀ records, fact records → SavesExact registry records call)
    (h : ∀ clock result records records', Replaying registry records → fact records →
      records.Returns call clock result records' → returned result records') {records : Records}
    (hrecords : fact records) :
    (callStore call now).Follows (reconciliation i registry) returned (fun _ _ => True) records := by
  refine Prog.Follows.issue (S := reconciliation i registry) (c := .store call now) hfact.stable (fun r => ?_)
    (fun m hinv hm => ⟨hsaves m hm, fun outcome m' hexec => ?_⟩) hrecords
  · cases r with
    | ok r => exact (hreturned r).stable
    | error e => exact Lasting.true.stable
  · obtain ⟨hperforms⟩ := hexec
    cases hperforms with
    | returns hreturns =>
      exact ⟨m', .single ⟨call, _, _, hreturns, hsaves m hm⟩, rfl, h _ _ m m' hinv hm hreturns⟩
    | raises => exact ⟨m, .refl, rfl, trivial⟩

/-- A call that saves nothing keeps what lasts. -/
theorem engine_other {i : ι} (call : Call) {now : Option Time} (hcall : call.isSave = false)
    {fact : Records → Prop} (hfact : Lasting fact) {records : Records} (hrecords : fact records) :
    (callStore call now).Follows (reconciliation i registry) (fun _ => fact) (fun _ _ => True) records := by
  refine engine_call call hfact (fun _ => hfact) (fun m _ => ?_)
    (fun clock result m m' _ hm hreturns => hfact call clock result m m' hreturns hm) hrecords
  cases call <;> trivial

/-- A computation without operations. -/
theorem engine_ofExcept {i : ι} {α : Type} (r : Except PyError α) {returned : α → Records → Prop}
    (hlasting : ∀ a, Lasting (returned a)) {records : Records} (h : ∀ a, r = .ok a → returned a records) :
    (Action.ofExcept r : Effect α).Follows (reconciliation i registry) returned (fun _ _ => True) records := by
  cases r with
  | ok a => exact Prog.Follows.pure (Q := Action.post returned _) (hlasting a).stable (h a rfl)
  | error e =>
    exact Prog.Follows.pure (Q := Action.post returned fun _ _ => True) Lasting.true.stable trivial

/-- The loop over the desired components saves nothing. -/
theorem engine_replaceComponents {i : ι} {fact : Records → Prop} (hfact : Lasting fact) (workflowId : String)
    (current : Dict String TaskRecord) (components : List ComponentSpec) {records : Records} (h : fact records) :
    ((⟨registry⟩ : WorkflowEngine).replaceComponents workflowId current components).Follows
      (reconciliation i registry) (fun _ => fact) (fun _ _ => True) records := by
  induction components generalizing records with
  | nil => exact Action.Follows.pure (Q := fun _ => fact) hfact.stable h
  | cons component rest ih =>
    refine Action.Follows.bind (fun _ => Lasting.true.stable) (K := fun _ => fact)
      (engine_ofExcept _ (fun _ => hfact) fun _ _ => h) fun desired m _ hm => ?_
    dsimp only
    split
    · exact Action.Follows.bind (fun _ => Lasting.true.stable)
        (engine_other (.replaceComponent workflowId desired) rfl hfact hm) fun _ m _ hm => ih hm
    · exact ih hm

/-- The progress a reconciliation holds of the workflow it read. -/
def held (workflow : WorkflowRecord) (state : Mapping) (cursor : ℕ) : WorkflowProgress :=
  ⟨workflow.workflowId, workflow.kind, dumps state, cursor⟩

/-- A reconciliation saves only exact progress. -/
theorem engine_reconcile {i : ι} (workflowId : String) {records : Records} :
    (WorkflowEngine.reconcile ⟨registry⟩ workflowId).Follows (reconciliation i registry)
      (fun _ _ => True) (fun _ _ => True) records := by
  have hend : ∀ {α : Type} (a : α) (m : Records), (pure a : Effect α).Follows (reconciliation i registry)
      (fun _ _ => True) (fun _ _ => True) m := fun a m =>
    Action.Follows.pure (Q := fun _ _ => True) Lasting.true.stable trivial
  have hlast : ∀ (call : Call), call.isSave = false → ∀ m, (callStore call none).Follows
      (reconciliation i registry) (fun _ _ => True) (fun _ _ => True) m := fun call hcall m =>
    engine_other call hcall Lasting.true trivial
  unfold WorkflowEngine.reconcile
  -- The row read is exact, and it is the row of the workflow asked for.
  refine Action.Follows.bind (fun _ => Lasting.true.stable)
    (K := fun (workflow : WorkflowRecord) m => workflow.workflowId = workflowId ∧
      Tracked registry (held workflow workflow.state workflow.eventCursor) m)
    (engine_call (.getWorkflow workflowId) Lasting.true (fun _ => (Tracked.lasting _).and_const _)
      (fun _ _ => trivial) (fun clock workflow m m' hinv _ hreturns => ?_) trivial) fun workflow m _ hm => ?_
  · obtain ⟨hget, hstore⟩ := Call.reading_eq_ok.mp hreturns.run
    obtain ⟨row, hrow, rfl⟩ := Option.map_eq_some_iff.mp (orRaise_eq_ok.mp hget)
    obtain ⟨hmem, hid⟩ := workflow?_eq_some.mp hrow
    exact ⟨hid, (hinv.tracked (List.mem_map_of_mem hmem)).returns hreturns⟩
  obtain ⟨rfl, hm⟩ := hm
  dsimp only
  split
  · exact hend _ _
  refine Action.Follows.bind (fun _ => Lasting.true.stable)
    (K := fun handler m => registry.workflow workflow.kind = .ok handler ∧
      Tracked registry (held workflow workflow.state workflow.eventCursor) m)
    (engine_ofExcept _ (fun _ => (Tracked.lasting _).and_const _) fun handler hhandler => ⟨hhandler, hm⟩)
    fun handler m _ hm => ?_
  obtain ⟨hhandler, hm⟩ := hm
  -- Folding the events read gives exact progress again, whatever is called meanwhile.
  refine Action.Follows.bind (fun _ => Lasting.true.stable)
    (K := fun (events : List WorkflowEvent) m => ∀ state cursor,
      WorkflowEngine.replay handler workflow.state workflow.eventCursor events = .ok (state, cursor) →
        Tracked registry (held workflow state cursor) m)
    (engine_call (.getWorkflowEvents workflow.workflowId workflow.eventCursor) (Tracked.lasting _)
      (fun _ => Lasting.forall fun _ => Lasting.forall fun _ => (Tracked.lasting _).imp_const _)
      (fun _ _ => trivial) (fun clock events m m' hinv hm hreturns state cursor hreplay => ?_) hm)
    fun events m _ hm => ?_
  · have hread : Call.reading (fun store => .ok (store.getWorkflowEvents workflow.workflowId
        workflow.eventCursor)) m.store = .ok (events, m'.store) := hreturns.run
    obtain ⟨hevents, -⟩ := Call.reading_eq_ok.mp hread
    rw [← Except.ok.inj hevents] at hreplay
    obtain ⟨hfold, rfl⟩ := WorkflowEngine.replay_eq_ok hreplay
    refine Tracked.returns hreturns ⟨hm.exists_row, ?_⟩
    obtain ⟨initialState, hsubmitted, hreplayed⟩ := hm.exact
    refine ⟨initialState, hsubmitted, fun other hother => ?_⟩
    obtain rfl : other = handler := Except.ok.inj (hother.symm.trans hhandler)
    have hadvanced := (hreplayed other hother).advance hfold
    rw [held, loads_dumps]
    exact hadvanced
  refine Action.Follows.bind (fun _ => Lasting.true.stable)
    (K := fun (replayed : Mapping × ℕ) m => Tracked registry (held workflow replayed.1 replayed.2) m)
    (engine_ofExcept _ (fun replayed => Tracked.lasting _) fun replayed hreplayed => hm _ _ hreplayed)
    fun replayed m _ hm => ?_
  obtain ⟨state, cursor⟩ := replayed
  dsimp only at hm ⊢
  refine Action.Follows.bind (fun _ => Lasting.true.stable)
    (engine_other (.getWorkflowComponents workflow.workflowId) rfl (Tracked.lasting _) hm) fun current m _ hm => ?_
  refine Action.Follows.bind (fun _ => Lasting.true.stable)
    (K := fun _ => Tracked registry (held workflow state cursor))
    (engine_ofExcept _ (fun _ => Tracked.lasting _) fun _ _ => hm) fun desired m _ hm => ?_
  refine Action.Follows.bind (fun _ => Lasting.true.stable)
    (engine_replaceComponents (Tracked.lasting _) _ _ _ hm) fun _ m _ hm => ?_
  refine Action.Follows.bind (fun _ => Lasting.true.stable) (K := fun _ _ => True)
    (engine_call (.saveWorkflowState workflow.workflowId state cursor) (Tracked.lasting _)
      (fun _ => Lasting.true) (fun m hm p hp hid => ?_) (fun _ _ _ _ _ _ _ => trivial) hm) fun saved m _ _ => ?_
  · obtain ⟨q, hq, hqid, hkind⟩ := hm.exists_row
    obtain rfl := m.progress_unique hp hq (hid.trans hqid.symm)
    rw [hkind]
    exact hm.exact
  refine Action.Follows.bind (fun _ => Lasting.true.stable) (K := fun _ _ => True)
    (hlast _ rfl m) fun components m _ _ => ?_
  refine Action.Follows.bind (fun _ => Lasting.true.stable) (K := fun _ _ => True)
    (engine_ofExcept _ (fun _ => Lasting.true) fun _ _ => trivial) fun result m _ _ => ?_
  split
  · exact hlast _ rfl m
  · refine Action.Follows.bind (fun _ => Lasting.true.stable) (K := fun _ _ => True)
      (engine_ofExcept _ (fun _ => Lasting.true) fun _ _ => trivial) fun reason m _ _ => ?_
    split
    · exact hlast _ rfl m
    · exact hend _ _

/-- A performed call that saves nothing is matched by a move or by none. -/
theorem EngineMove.of_performs {call : Call} {now : Time} {outcome : Except PyError call.Result}
    {records records' : Records} (hcall : call.isSave = false)
    (h : records.Performs call now outcome records') :
    records' = records ∨ EngineMove registry records records' := by
  cases h with
  | returns hreturns =>
    refine Or.inr ⟨call, now, _, hreturns, ?_⟩
    cases call <;> trivial
  | raises => exact Or.inl rfl

/-- The records match the pool: its operations, crashes, new reconciliations and other calls. -/
theorem engineSimulation_matches (ι : Type) (registry : TaskRegistry) :
    (engineSimulation ι registry).Matches where
  env m m' _ henv := by
    obtain ⟨call, now, outcome, hcall, hperforms⟩ := henv
    exact ⟨m', EngineMove.of_performs hcall hperforms, rfl⟩
  crash i m _ m' _ hcrash := ⟨m, .refl, hcrash.symm, fun _ _ _ => trivial⟩
  begins i _ m program m' _ _ hbegins := by
    obtain ⟨hsame, workflowId, rfl⟩ := hbegins
    refine ⟨m, .refl, hsame.symm, Prog.Follows.mono (engine_reconcile workflowId) fun _ _ _ _ => trivial⟩

/-- Nothing is recorded and nothing is wrong before anything happened. -/
theorem Replaying.initial : Replaying registry Records.initial :=
  ⟨fun _ hp => absurd hp List.not_mem_nil, fun _ hs => absurd hs List.not_mem_nil⟩

/-- In every state that any interleaving reaches, the state saved for a workflow is the fold of
`reduce`, from the initial state of its submission, over the events of this workflow up to the
saved cursor, in the order of their numbers. -/
theorem replay_exact {ι : Type} [DecidableEq ι] {registry : TaskRegistry} {s : (reconciliations ι registry).State}
    (h : (reconciliations ι registry).Run (reconciliationsInitial ι registry) s) :
    (s.world.store.events.entries.Pairwise fun a b => a.eventId < b.eventId) ∧
    ∀ row ∈ s.world.store.workflows.rows, ∃ initialState,
      s.world.submitted.filter (·.workflowId = row.workflowId) = [⟨row.workflowId, initialState⟩] ∧
      ∀ handler, registry.workflow row.kind = .ok handler →
        (s.world.store.events.entries.filter fun event =>
          event.workflowId = row.workflowId && decide (event.eventId ≤ row.eventCursor)).foldlM
            (fun state event => handler.reduce state event.toEvent) initialState = .ok (loads row.stateJson) := by
  have hstart : (engineSimulation ι registry).Related Records.initial (reconciliationsInitial ι registry) :=
    Pool.Simulation.Related.of_finished _ rfl Replaying.initial fun _ => ⟨_, rfl, fun _ => trivial⟩
  obtain ⟨m, -, hrelated⟩ := Pool.Simulation.run (engineSimulation_matches ι registry) hstart h
  obtain rfl : m = s.world := hrelated.view
  refine ⟨s.world.store.events.increasing, fun row hrow => ?_⟩
  obtain ⟨initialState, hsubmitted, hreplayed⟩ := hrelated.inv.exact _ (List.mem_map_of_mem hrow)
  exact ⟨initialState, hsubmitted, fun handler hhandler => (hreplayed handler hhandler).2⟩

/-- Two reconciliations of one workflow. The slower one saves last, what it had read before the
second event. -/
theorem replay_exact_stale : ∃ s : (reconciliations Bool countingRegistry).State,
    ∃ row ∈ s.world.store.workflows.rows, row.eventCursor = 1 ∧ s.world.store.events.entries.length = 2 ∧
      ∃ initialState, (s.world.store.events.entries.filter fun event =>
        event.workflowId = row.workflowId && decide (event.eventId ≤ row.eventCursor)).foldlM
          (fun state event => countingHandler.reduce state event.toEvent) initialState =
            .ok (loads row.stateJson) := by
  have hcheck : (Pool.plays (enginePlay countingRegistry) staleCommands
      (reconciliationsInitial Bool countingRegistry)).any (fun s => s.world.store.events.entries.length = 2 &&
        s.world.store.workflows.rows.any fun row => row.eventCursor = 1 && row.kind = "tree") = true := by
    decide +kernel
  obtain ⟨s, hs, hcheck⟩ := (Option.any_eq_true _ _).mp hcheck
  obtain ⟨hlength, hrow⟩ := Bool.and_eq_true_iff.mp hcheck
  obtain ⟨row, hrow, hcolumns⟩ := List.any_eq_true.mp hrow
  obtain ⟨hcursor, hkind⟩ := Bool.and_eq_true_iff.mp hcolumns
  obtain ⟨initialState, -, hexact⟩ := (replay_exact (run_of_enginePlays hs)).2 row hrow
  refine ⟨s, row, hrow, of_decide_eq_true hcursor, of_decide_eq_true hlength, initialState, hexact _ ?_⟩
  rw [of_decide_eq_true hkind]
  exact countingRegistry_tree

end TPUSwarm
