import TPUSwarm.Invariants.Barriers
import TPUSwarm.Session.Reruns

/-!
# Reconciling again after a crash

A reconciliation that is cut off anywhere and run again ends as one that was not cut off,
timestamps aside, unless it overlooks a component: the generation that the engine compares
is the one recorded with the task, the store compares the one of the link. With one desired
component for each key nothing is overlooked.
-/

namespace TPUSwarm

open Common SwarmStore

/-- Reconciling from here returns, and ends as given, timestamps aside. -/
def EndsAs (engine : WorkflowEngine) (workflowId : String) (left final : SwarmStore) : Prop :=
  (∃ trace outcome store', Session noCall (engine.reconcile workflowId) left trace outcome store') ∧
    ∀ trace outcome store', Session noCall (engine.reconcile workflowId) left trace outcome store' →
      (∃ record, outcome = .ok record) ∧ SameButTimes workflowId final store'

variable {engine : WorkflowEngine} {store left final done mid : SwarmStore} {workflowId : String}
  {row : WorkflowRow}
  {component : ComponentSpec} {before after : List ComponentSpec} {trace : List (Sigma Operation.Reply)}
  {record : WorkflowRecord}

/-- The loop logs no event. -/
theorem Replaces.events {current : Dict String TaskRecord} {components : List ComponentSpec}
    (h : Replaces engine workflowId current components store left) : left.events = store.events := by
  induction h with
  | nil => rfl
  | skipped _ _ _ ih => exact ih
  | replaced _ _ hrun _ ih => rw [ih, (replaceComponent_eq_ok hrun).2]

/-- A conclusion writes neither tasks nor links. -/
theorem Concludes.tables {handler : MultiAutoResumable} {state : Mapping} {cursor : ℕ}
    {outcome : Except PyError WorkflowRecord}
    (h : Concludes handler workflowId state cursor row done outcome final) :
    final.tasks = done.tasks ∧ final.components = done.components := by
  cases h with
  | raised hwrites _ => exact ⟨hwrites.tasks, hwrites.components⟩
  | remains hwrites _ => exact ⟨hwrites.tasks, hwrites.components⟩
  | finished hwrites _ => exact ⟨hwrites.tasks, hwrites.components⟩

/-- After the whole loop no component is overlooked. -/
theorem Plan.not_overlooked (plan : Plan engine store workflowId)
    (hall : Replaces engine workflowId (store.getWorkflowComponents workflowId) plan.desired store done)
    (htables : left.tasks = done.tasks ∧ left.components = done.components) (hmem : component ∈ plan.desired) :
    ¬ Overlooked store left workflowId component := fun hoverlooked =>
  hoverlooked.2.2 ((Alike.of_tables htables.1 htables.2).materialized (hall.materialized hmem hoverlooked.1))

/-- A reconciliation that was cut off and is run again ends as it would have, unless a component is overlooked. -/
theorem Interrupted.endsAs {plan : Plan engine store workflowId} (h : Interrupted plan left)
    (hignores : plan.handler.IgnoresTimes) (hlinked : LinkedTasks store)
    (hall : Replaces engine workflowId (store.getWorkflowComponents workflowId) plan.desired store done)
    (hconcludes : Concludes plan.handler workflowId plan.state plan.cursor plan.row done (.ok record) final)
    (hnone : ∀ component ∈ plan.desired, ¬ Overlooked store left workflowId component) :
    EndsAs engine workflowId left final := by
  refine ⟨Prog.exists_runs Answers.total _ _, fun trace outcome store' hrun => ?_⟩
  cases h with
  | replacing hdesired hreplaces =>
    obtain ⟨plan', hagain⟩ := plan.exists_again hreplaces.workflows hreplaces.events
    exact hagain.resumes hignores hlinked hdesired hreplaces hall hconcludes rfl rfl hnone hrun
  | saved hreplaces hwrites =>
    obtain ⟨plan', hagain⟩ := plan.exists_again_saved hignores hwrites.row (hwrites.events.trans hreplaces.events)
    exact hagain.resumes hignores hlinked (List.append_nil _).symm hreplaces hall hconcludes hwrites.tasks
      hwrites.components hnone hrun
  | @finished reached _ record' hreplaces hfinished hinactive hleft =>
    obtain ⟨row', hrow', rfl⟩ := hleft
    obtain ⟨rfl, rfl⟩ := session_inactive hrow' hinactive hrun
    have hworkflow : (store.workflow? workflowId).isSome := by rw [plan.found]; rfl
    obtain ⟨_, hsession⟩ := hreplaces.session
    have halike : Alike done reached :=
      (hall.rerun (.refl store) hworkflow hlinked (fun _ _ hne => absurd rfl hne) hsession).2
    exact ⟨⟨_, rfl⟩, (hconcludes.alike hignores halike (fun _ => rfl) hfinished).2⟩

/-- With one desired component for each key none is overlooked. -/
theorem Interrupted.not_overlooked {plan : Plan engine store workflowId} (h : Interrupted plan left)
    (hlinked : LinkedTasks store) (hkeys : (plan.desired.map ComponentSpec.key).Nodup)
    (hmem : component ∈ plan.desired) :
    ¬ Overlooked store left workflowId component := by
  cases h with
  | saved hreplaces hwrites => exact plan.not_overlooked hreplaces ⟨hwrites.tasks, hwrites.components⟩ hmem
  | finished hreplaces hfinished _ _ => exact plan.not_overlooked hreplaces hfinished.tables hmem
  | @replacing before after _ hdesired hreplaces =>
    rintro ⟨hfirst, hnow, hmissing⟩
    rw [hdesired] at hmem hkeys
    rcases List.mem_append.mp hmem with hbefore | hafter
    · exact hmissing (hreplaces.materialized hbefore hfirst)
    -- the link of the key was left alone, so its task is the one that was read at first
    have hlink : left.component? workflowId component.key = store.component? workflowId component.key :=
      hreplaces.component?_kept fun other hother hkey => by
        rw [List.map_append, List.nodup_append] at hkeys
        exact absurd hkey (hkeys.2.2 _ (List.mem_map_of_mem hother) _ (List.mem_map_of_mem hafter))
    obtain ⟨task, htask, hle⟩ := outdated_eq_false hnow
    rw [getWorkflowComponents_lookup, hlink] at htask
    obtain ⟨link, hfound, hrecord⟩ := Option.bind_eq_some_iff.mp htask
    obtain ⟨r, hr⟩ := hlinked link (component?_eq_some.mp hfound).1
    rw [hreplaces.task?_kept hr] at hrecord
    have hread : (store.getWorkflowComponents workflowId).get? component.key = some task := by
      rw [getWorkflowComponents_lookup, hfound, Option.bind_some, hr]
      exact hrecord
    exact absurd (outdated_lt hfirst hread) (Nat.not_lt.mpr hle)

/-- Where the second run ends as it should although a component is overlooked, it replaces another component of
the same key. -/
theorem Interrupted.replaces_other {plan : Plan engine store workflowId} (h : Interrupted plan left)
    (hall : Replaces engine workflowId (store.getWorkflowComponents workflowId) plan.desired store done)
    (hconcludes : Concludes plan.handler workflowId plan.state plan.cursor plan.row done (.ok record) final)
    (hends : EndsAs engine workflowId left final) (hmem : component ∈ plan.desired)
    (hoverlooked : Overlooked store left workflowId component) : ∃ other ∈ plan.desired, other.key = component.key ∧
      outdated (left.getWorkflowComponents workflowId) other = true := by
  cases h with
  | saved hreplaces hwrites =>
    exact absurd hoverlooked (plan.not_overlooked hreplaces ⟨hwrites.tasks, hwrites.components⟩ hmem)
  | finished hreplaces hfinished _ _ =>
    exact absurd hoverlooked (plan.not_overlooked hreplaces hfinished.tables hmem)
  | replacing hdesired hreplaces =>
    by_contra hnone
    have hcurrent : ∀ other ∈ plan.desired, other.key = component.key →
        outdated (left.getWorkflowComponents workflowId) other = false := fun other hother hkey =>
      Bool.eq_false_of_not_eq_true fun houtdated => hnone ⟨other, hother, hkey, houtdated⟩
    obtain ⟨plan', hagain⟩ := plan.exists_again hreplaces.workflows hreplaces.events
    obtain ⟨⟨rerun, outcome, store', hrun⟩, hreruns⟩ := hends
    obtain ⟨⟨record', rfl⟩, hsame⟩ := hreruns rerun outcome store' hrun
    obtain ⟨done', hloop, hend⟩ := plan'.returned hrun
    rw [hagain.desired] at hloop
    have hfinal : Materialized final workflowId component :=
      (Alike.of_tables hconcludes.tables.1 hconcludes.tables.2).materialized (hall.materialized hmem hoverlooked.1)
    obtain ⟨link, hlink, hle⟩ := (Alike.of_tables hend.tables.1 hend.tables.2).symm.materialized
      (hsame.alike.materialized hfinal)
    rw [hloop.component?_kept hcurrent] at hlink
    exact hoverlooked.2.2 ⟨link, hlink, hle⟩

/-- In every state, take an active workflow whose reconciliation would return, with a handler that ignores
timestamps. Run again after a crash at any point at which no desired component is overlooked, the reconciliation
ends as it would have. A second complete one changes nothing. With one desired component for each key none is
overlooked; and a run that overlooks one ends as it should only if it replaces another one of its key. -/
theorem reconcile_resumes (h : History anyCall .empty store) (hrow : store.workflow? workflowId = some row)
    (hactive : row.status = .active)
    (hignores : ∀ handler, engine.registry.workflow row.kind = .ok handler → handler.IgnoresTimes)
    (hrun : Session noCall (engine.reconcile workflowId) store trace (.ok record) final) :
    ∃ plan : Plan engine store workflowId, plan.row = row ∧
      (∀ cut left, (engine.reconcile workflowId).Stops (Answers noCall) store cut left →
        (∀ component ∈ plan.desired, ¬ Overlooked store left workflowId component) →
        EndsAs engine workflowId left final) ∧
      EndsAs engine workflowId final final ∧
      ((plan.desired.map ComponentSpec.key).Nodup →
        ∀ cut left, (engine.reconcile workflowId).Stops (Answers noCall) store cut left →
          ∀ component ∈ plan.desired, ¬ Overlooked store left workflowId component) ∧
      ∀ cut left, (engine.reconcile workflowId).Stops (Answers noCall) store cut left →
        EndsAs engine workflowId left final → ∀ component ∈ plan.desired,
          Overlooked store left workflowId component → ∃ other ∈ plan.desired, other.key = component.key ∧
            outdated (left.getWorkflowComponents workflowId) other = true := by
  have hlinked := linked_tasks h
  obtain ⟨plan, rfl⟩ := exists_plan hrow hactive hrun
  obtain ⟨done, hall, hconcludes⟩ := plan.returned hrun
  have hhandler := hignores plan.handler plan.handles
  refine ⟨plan, rfl, fun cut left hstops hnone => ?_, ?_, fun hkeys cut left hstops component hmem => ?_,
    fun cut left hstops hends component hmem hoverlooked => ?_⟩
  · exact (plan.interrupted hstops).endsAs hhandler hlinked hall hconcludes hnone
  · exact (plan.interrupted hrun.stops).endsAs hhandler hlinked hall hconcludes fun component hmem =>
      plan.not_overlooked hall hconcludes.tables hmem
  · exact (plan.interrupted hstops).not_overlooked hlinked hkeys hmem
  · exact (plan.interrupted hstops).replaces_other hall hconcludes hends hmem hoverlooked

/-- A handler that always desires the same components. -/
def constantHandler (desired : List ComponentSpec) : MultiAutoResumable where
  initialState _ := .ok Dict.empty
  reduce state _ := .ok state
  desiredComponents _ _ := .ok desired

/-- An engine with this handler, which knows how to train. -/
def constantEngine (desired : List ComponentSpec) : WorkflowEngine where
  registry :=
    { tasks := Dict.ofList [("train", { managedJob := fun _ _ => .error ⟨.runtime, ""⟩ })]
      workflows := Dict.ofList [("tree", constantHandler desired)] }

/-- Such a handler reads no timestamps. -/
theorem constantEngine_ignores {desired : List ComponentSpec} {handler : MultiAutoResumable}
    (h : (constantEngine desired).registry.workflow "tree" = .ok handler) :
    handler = constantHandler desired ∧ handler.IgnoresTimes := by
  have hfound : (constantEngine desired).registry.workflow "tree" = .ok (constantHandler desired) := rfl
  obtain rfl := Except.ok.inj (h.symm.trans hfound)
  exact ⟨rfl, fun _ _ _ _ => rfl, fun _ _ _ _ _ _ _ => rfl, fun _ _ _ _ _ _ _ => rfl⟩

/-- The component of another key. -/
def evaluatorComponent (taskId : String) (generation : ℕ) : ComponentSpec :=
  { trainComponent taskId generation with key := "evaluator", key_nonempty := isBlank_evaluator }

/-- A workflow whose evaluator was replaced. Its first task records generation 5, and is linked no more. -/
def movedStore : SwarmStore :=
  SwarmStore.empty.after [(.submitWorkflow (treeWorkflow "w1") [evaluatorComponent "t5" 5] Dict.empty, 0),
    (.replaceComponent "w1" (evaluatorComponent "t6" 6), 1)]

/-- The row of this workflow. -/
def movedRow : WorkflowRow := (movedStore.workflow? "w1").get (by decide +kernel)

/-- The sample store has the sample row. -/
theorem movedStore_row : movedStore.workflow? "w1" = some movedRow := (Option.some_get _).symm

/-- Calls that are answered at once, by a clock that goes on. -/
def answeredAt (clock : List Time) : List Choice := clock.map fun now => .store [] now

/-- The links of a store: the place, the generation and the task of each. -/
def linkList (store : SwarmStore) : List ((String × String) × ℕ × String) :=
  store.components.rows.map fun link => (link.place, link.generation, link.taskId)

/-- Stores with different links differ in more than their times. -/
theorem not_same_of_links {a b : SwarmStore} (h : linkList a ≠ linkList b) : ¬ SameButTimes workflowId a b :=
  fun hsame => by
  have hlinks := congrArg (List.map fun link : ComponentRow => (link.place, link.generation, link.taskId))
    hsame.alike.components
  rw [List.map_map, List.map_map] at hlinks
  exact h hlinks

/-- A reconciliation that returns, and one that is cut off after its first replacement. -/
theorem exists_cut (desired : List ComponentSpec) (check : SwarmStore → SwarmStore → Bool)
    (h : ((playSession noCall ((constantEngine desired).reconcile "w1").run movedStore
      (answeredAt [2, 3, 4, 5, 6, 7, 8])).any
      fun (_, outcome, final) => outcome.isOk &&
        (playPart noCall ((constantEngine desired).reconcile "w1").run movedStore (answeredAt [2, 3, 4, 5])).any
          fun left => check left final) = true) :
    ∃ trace record final cut left,
      Session noCall ((constantEngine desired).reconcile "w1") movedStore trace (.ok record) final ∧
      ((constantEngine desired).reconcile "w1").Stops (Answers noCall) movedStore cut left ∧
        check left final = true := by
  obtain ⟨⟨trace, outcome, final⟩, hplay, hchecks⟩ := (Option.any_eq_true _ _).mp h
  obtain ⟨hok, hcut⟩ := Bool.and_eq_true_iff.mp hchecks
  obtain ⟨left, hleft, hcheck⟩ := (Option.any_eq_true _ _).mp hcut
  obtain ⟨cut, hstops⟩ := stops_of_playPart hleft
  cases outcome with
  | error e => cases hok
  | ok record => exact ⟨trace, record, final, cut, left, runs_of_playSession hplay, hstops, hcheck⟩

/-- A trainer, and a newer evaluator. -/
def newerDesired : List ComponentSpec := [trainComponent "t1" 1, evaluatorComponent "t7" 7]

/-- The trainer is missing, and the evaluator is older than desired. Cut off between the two replacements and run
again, the reconciliation ends as one that was not cut off. -/
theorem reconcile_resumes_between : ∃ trace record final cut left,
    Session noCall ((constantEngine newerDesired).reconcile "w1") movedStore trace (.ok record) final ∧
    ((constantEngine newerDesired).reconcile "w1").Stops (Answers noCall) movedStore cut left ∧
    linkList left ≠ linkList final ∧ EndsAs (constantEngine newerDesired) "w1" left final := by
  obtain ⟨trace, record, final, cut, left, hrun, hstops, hlinks⟩ :=
    exists_cut newerDesired (fun left final => linkList left ≠ linkList final) (by decide +kernel)
  have hkind : movedRow.kind = "tree" := by decide +kernel
  obtain ⟨plan, hrow, hends, -, hkeys, -⟩ := reconcile_resumes (SwarmStore.history_any _ _) movedStore_row
    (by decide +kernel) (fun handler hhandler => (constantEngine_ignores (hkind ▸ hhandler)).2) hrun
  have hhandler : plan.handler = constantHandler newerDesired :=
    (constantEngine_ignores (by rw [← hkind, ← hrow]; exact plan.handles)).1
  have hdesires := plan.desires
  rw [hhandler] at hdesires
  have hdesired : newerDesired = plan.desired := Except.ok.inj hdesires
  exact ⟨trace, record, final, cut, left, hrun, hstops, of_decide_eq_true hlinks, hends cut left hstops
    (hkeys (by rw [← hdesired]; decide +kernel) cut left hstops)⟩

/-- The trainer in two generations, first with the task that was linked to the evaluator. -/
def twiceDesired : List ComponentSpec := [trainComponent "t5" 3, trainComponent "t4" 4]

/-- The trainer is desired in generation 3 and again in generation 4, and the task of generation 3 records
generation 5. Cut off between the two replacements and run again, the reconciliation overlooks generation 4. -/
theorem reconcile_overlooks : History anyCall .empty movedStore ∧
    (movedStore.workflow? "w1" = some movedRow ∧ movedRow.status = .active ∧ ∀ handler,
      (constantEngine twiceDesired).registry.workflow movedRow.kind = .ok handler → handler.IgnoresTimes) ∧
    ∃ trace record final cut left rerun outcome store',
      Session noCall ((constantEngine twiceDesired).reconcile "w1") movedStore trace (.ok record) final ∧
      ((constantEngine twiceDesired).reconcile "w1").Stops (Answers noCall) movedStore cut left ∧
      Session noCall ((constantEngine twiceDesired).reconcile "w1") left rerun outcome store' ∧
      linkList store' = [(("w1", "evaluator"), 6, "t6"), (("w1", "trainer"), 3, "t5")] ∧
        ¬ SameButTimes "w1" final store' := by
  refine ⟨SwarmStore.history_any _ _, ⟨movedStore_row, by decide +kernel, fun handler hhandler => ?_⟩, ?_⟩
  · have hkind : movedRow.kind = "tree" := by decide +kernel
    exact (constantEngine_ignores (hkind ▸ hhandler)).2
  obtain ⟨trace, record, final, cut, left, hrun, hstops, hcheck⟩ :=
    exists_cut twiceDesired (fun left final =>
      (playSession noCall ((constantEngine twiceDesired).reconcile "w1").run left
        (answeredAt [9, 10, 11, 12, 13])).any fun (_, _, store') =>
          linkList store' = [(("w1", "evaluator"), 6, "t6"), (("w1", "trainer"), 3, "t5")] &&
            linkList final ≠ linkList store') (by decide +kernel)
  obtain ⟨⟨rerun, outcome, store'⟩, hplay, hlinks⟩ := (Option.any_eq_true _ _).mp hcheck
  obtain ⟨hends, hdiffers⟩ := Bool.and_eq_true_iff.mp hlinks
  exact ⟨trace, record, final, cut, left, rerun, outcome, store', hrun, hstops, runs_of_playSession hplay,
    of_decide_eq_true hends, not_same_of_links (of_decide_eq_true hdiffers)⟩

end TPUSwarm
