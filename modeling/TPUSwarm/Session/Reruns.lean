import TPUSwarm.Session.Resuming

/-!
# Running a reconciliation again

The loop of the second run differs from the first one in the components that it compares
with. Where they disagree on a component, the component is linked already, and replacing it
changes nothing. So from stores that are alike both loops lead to stores that are alike.
-/

namespace TPUSwarm

open Common SwarmStore

variable {engine : WorkflowEngine} {store store' left left' final : SwarmStore} {workflowId : String}
  {current again : Dict String TaskRecord} {component desired : ComponentSpec}
  {components before after : List ComponentSpec} {trace : List (Sigma Operation.Reply)}

/-- A replacement in a store that is alike. -/
theorem session_replaceComponent_alike {mid mid' : SwarmStore} {now : Time} {task : TaskRecord}
    {reply : Except PyError TaskRecord} (halike : Alike store left) (hworkflow : (left.workflow? workflowId).isSome)
    (hreplaced : replaceComponent workflowId desired now store = .ok (task, mid))
    (h : Session noCall (callStore (.replaceComponent workflowId desired) none) left trace reply mid') :
    ∃ task', reply = .ok task' ∧ Alike mid mid' ∧
      ∃ clock, replaceComponent workflowId desired clock left = .ok (task', mid') := by
  obtain ⟨clock, hperform⟩ := session_replaceComponent h
  obtain ⟨task', next, hreturns, hsame⟩ := halike.replaceComponent hworkflow hreplaced clock
  have hcall : (Call.replaceComponent workflowId desired).run clock left = .ok (task', next) := hreturns
  rw [Call.perform, hcall] at hperform
  obtain ⟨rfl, rfl⟩ := Prod.mk.inj hperform
  exact ⟨task', rfl, hsame, clock, hreturns⟩

namespace Replaces

/-- The parts of a loop. -/
theorem split (h : Replaces engine workflowId current (before ++ after) store store') :
    ∃ mid, Replaces engine workflowId current before store mid ∧
      Replaces engine workflowId current after mid store' := by
  induction before generalizing store with
  | nil => exact ⟨store, .nil, h⟩
  | cons first rest ih =>
    cases h with
    | skipped hvalid hcurrent hrest =>
      obtain ⟨mid, hdone, hafter⟩ := ih hrest
      exact ⟨mid, .skipped hvalid hcurrent hdone, hafter⟩
    | replaced hvalid houtdated hrun hrest =>
      obtain ⟨mid, hdone, hafter⟩ := ih hrest
      exact ⟨mid, .replaced hvalid houtdated hrun hdone, hafter⟩

/-- What the loop did is a session of the loop. -/
theorem session (h : Replaces engine workflowId current components store store') :
    ∃ trace, Session noCall (engine.replaceComponents workflowId current components) store trace
      (.ok ()) store' := by
  induction h with
  | nil => exact ⟨[], Action.runs_pure.mpr ⟨rfl, rfl, rfl⟩⟩
  | skipped hvalid hcurrent _ ih =>
    obtain ⟨trace, hrest⟩ := ih
    refine ⟨trace, ?_⟩
    rw [replaceComponents_cons hvalid, if_neg (Bool.eq_false_iff.mp hcurrent)]
    exact hrest
  | @replaced _ desired _ _ _ _ task now hvalid houtdated hrun _ ih =>
    obtain ⟨trace, hrest⟩ := ih
    have hcall : (Call.replaceComponent workflowId desired).run now _ = .ok (task, _) := hrun
    refine ⟨⟨.store (.replaceComponent workflowId desired) none, .ok task⟩ :: trace, ?_⟩
    rw [replaceComponents_cons hvalid, if_pos houtdated]
    exact Action.runs_bind_ok.mpr ⟨_, task, _, trace, rfl,
      session_callStore_ok.mpr ⟨rfl, _, now, .refl, hcall⟩, hrest⟩

/-- The loop over the same components, from a store that is alike, compared with other components. Where the
comparison has another result, the component is linked. -/
theorem rerun (h : Replaces engine workflowId current components store store') (halike : Alike store left)
    (hworkflow : (left.workflow? workflowId).isSome) (hlinked : LinkedTasks left)
    (hagree : ∀ component ∈ components, outdated current component ≠ outdated again component →
      Materialized left workflowId component) {outcome : Except PyError Unit}
    (hrun : Session noCall (engine.replaceComponents workflowId again components) left trace outcome left') :
    outcome = .ok () ∧ Alike store' left' := by
  induction h generalizing left trace with
  | nil =>
    obtain ⟨-, rfl, rfl⟩ := Action.runs_pure.mp hrun
    exact ⟨rfl, halike⟩
  | @skipped first desired rest _ _ hvalid hcurrent _ ih =>
    have hnext :=
      fun {trace} => @ih left trace halike hworkflow hlinked fun c hc => hagree c (List.mem_cons_of_mem _ hc)
    cases hagain : outdated again first with
    | false =>
      rw [← outdated_validated hvalid] at hagain
      rw [replaceComponents_cons hvalid, if_neg (Bool.eq_false_iff.mp hagain)] at hrun
      exact hnext hrun
    | true =>
      have hthere := hagree first List.mem_cons_self (by rw [← outdated_validated hvalid, hcurrent, hagain]; decide)
      obtain ⟨remaining, hrest⟩ :=
        session_front hlinked (List.forall_mem_singleton.mpr ⟨⟨desired, hvalid⟩, fun _ => hthere⟩)
        (show Session noCall (engine.replaceComponents workflowId again ([first] ++ rest)) _ _ _ _ from hrun)
      exact hnext hrest
  | @replaced first desired rest store mid _ task now hvalid houtdated hreplaced hrest ih =>
    rw [outdated_validated hvalid] at houtdated
    cases hagain : outdated again first with
    | false =>
      have hthere := hagree first List.mem_cons_self (by rw [houtdated, hagain]; decide)
      obtain rfl := ((materialized_validated hvalid).mpr (halike.symm.materialized hthere)).unchanged hreplaced
      rw [← outdated_validated hvalid] at hagain
      rw [replaceComponents_cons hvalid, if_neg (Bool.eq_false_iff.mp hagain)] at hrun
      exact ih halike hworkflow hlinked (fun c hc => hagree c (List.mem_cons_of_mem _ hc)) hrun
    | true =>
      rw [← outdated_validated hvalid] at hagain
      rw [replaceComponents_cons hvalid, if_pos hagain] at hrun
      rcases Action.runs_bind.mp hrun with ⟨e, rfl, hraised⟩ | ⟨first, _, mid', second, rfl, hreturned, hloop⟩
      · obtain ⟨_, herror, -⟩ := session_replaceComponent_alike halike hworkflow hreplaced hraised
        cases herror
      · obtain ⟨task', -, hsame, clock, hreturns⟩ :=
          session_replaceComponent_alike halike hworkflow hreplaced hreturned
        have hkept : mid'.workflow? workflowId = left.workflow? workflowId := by
          rw [workflow?, (replaceComponent_eq_ok hreturns).2]
          rfl
        have hcall : (Call.replaceComponent workflowId desired).run clock left = .ok (task', mid') := hreturns
        refine ih hsame (hkept ▸ hworkflow) (hlinked.run hcall) (fun c hc hne => ?_) hloop
        exact (hagree c (List.mem_cons_of_mem _ hc) hne).replaced hreturns

/-- The loop links only tasks that have a row. -/
theorem linkedTasks (h : Replaces engine workflowId current components store store') (hlinked : LinkedTasks store) :
    LinkedTasks store' := by
  induction h with
  | nil => exact hlinked
  | skipped _ _ _ ih => exact ih hlinked
  | @replaced _ desired _ _ mid _ task now _ _ hrun _ ih =>
    have hcall : (Call.replaceComponent workflowId desired).run now _ = .ok (task, mid) := hrun
    exact ih (hlinked.run hcall)

/-- The loop that is run again where it was cut off goes on as it would have, unless a component is overlooked. -/
theorem resumes {mid : SwarmStore} (hlinked : LinkedTasks store) (hworkflow : (store.workflow? workflowId).isSome)
    (hdone : Replaces engine workflowId (store.getWorkflowComponents workflowId) before store mid)
    (hall : Replaces engine workflowId (store.getWorkflowComponents workflowId) (before ++ after) store final)
    (htasks : left.tasks = mid.tasks) (hcomponents : left.components = mid.components)
    (hleft : (left.workflow? workflowId).isSome)
    (hnone : ∀ component ∈ before ++ after, ¬ Overlooked store left workflowId component)
    {outcome : Except PyError Unit}
    (hrun : Session noCall (engine.replaceComponents workflowId (left.getWorkflowComponents workflowId)
      (before ++ after))
      left trace outcome left') : outcome = .ok () ∧ Alike final left' := by
  obtain ⟨reached, hfirst, hrest⟩ := hall.split
  have hmid : Alike mid left := .of_tables htasks hcomponents
  have hreached : Alike reached mid := by
    obtain ⟨_, hsession⟩ := hdone.session
    exact (hfirst.rerun (.refl store) hworkflow hlinked (fun _ _ hne => absurd rfl hne) hsession).2
  have hleftLinked : LinkedTasks left := fun link hlink => by
    rw [task?, htasks]
    exact hdone.linkedTasks hlinked link (hcomponents ▸ hlink)
  have hregress (component : ComponentSpec)
      (hbefore : outdated (store.getWorkflowComponents workflowId) component = false)
      (hafter : outdated (left.getWorkflowComponents workflowId) component = true) :
      Materialized left workflowId component := by
    rw [getWorkflowComponents_congr htasks hcomponents] at hafter
    exact hmid.materialized (hdone.regress hbefore hafter)
  have hfront : ∀ component ∈ before, (∃ valid, engine.validatedComponent component = .ok valid) ∧
      (outdated (left.getWorkflowComponents workflowId) component = true →
        Materialized left workflowId component) := by
    refine fun component hmem => ⟨hdone.valid component hmem, fun hafter => ?_⟩
    cases hbefore : outdated (store.getWorkflowComponents workflowId) component with
    | true => exact hmid.materialized (hdone.materialized hmem hbefore)
    | false => exact hregress component hbefore hafter
  obtain ⟨_, hremaining⟩ := session_front hleftLinked hfront hrun
  refine hrest.rerun (hreached.trans hmid) hleft hleftLinked (fun component hmem hne => ?_) hremaining
  cases hbefore : outdated (store.getWorkflowComponents workflowId) component with
  | false =>
    rw [hbefore] at hne
    exact hregress component hbefore (Bool.eq_true_of_not_eq_false hne.symm)
  | true =>
    rw [hbefore] at hne
    by_contra hmissing
    exact hnone component (List.mem_append_right _ hmem) ⟨hbefore, Bool.eq_false_of_not_eq_true hne.symm, hmissing⟩

end Replaces

/-- The second run has the plan of the first one. The rows that the two plans were read from are the same but
for the state and the cursor. -/
structure Plan.Again (plan : Plan engine store workflowId) (plan' : Plan engine left workflowId) : Prop where
  handler : plan'.handler = plan.handler
  state : plan'.state = plan.state
  cursor : plan'.cursor = plan.cursor
  desired : plan'.desired = plan.desired
  saved : ∀ now, plan'.row.saved plan.state plan.cursor now = plan.row.saved plan.state plan.cursor now

/-- A plan is found again where its row and the events are as they were. -/
theorem Plan.exists_again (plan : Plan engine store workflowId) (hworkflows : left.workflows = store.workflows)
    (hevents : left.events = store.events) : ∃ plan' : Plan engine left workflowId, plan.Again plan' := by
  have hfound : left.workflow? workflowId = some plan.row := by
    rw [workflow?, hworkflows]
    exact plan.found
  have hreplays : WorkflowEngine.replay plan.handler (loads plan.row.stateJson) plan.row.eventCursor
      (left.getWorkflowEvents workflowId plan.row.eventCursor) = .ok (plan.state, plan.cursor) := by
    rw [getWorkflowEvents, hevents]
    exact plan.replays
  exact ⟨⟨plan.row, plan.handler, plan.state, plan.cursor, plan.desired, hfound, plan.active, plan.handles,
    hreplays, plan.desires⟩, rfl, rfl, rfl, rfl, fun _ => rfl⟩

/-- A plan is found again after its state was saved: nothing is left to replay. -/
theorem Plan.exists_again_saved (plan : Plan engine store workflowId) (hignores : plan.handler.IgnoresTimes)
    {clock : Time}
    (hrow : left.workflow? workflowId = some (plan.row.saved plan.state plan.cursor clock))
    (hevents : left.events = store.events) : ∃ plan' : Plan engine left workflowId, plan.Again plan' := by
  obtain ⟨-, hcursor⟩ := WorkflowEngine.replay_eq_ok plan.replays
  have hnothing : left.getWorkflowEvents workflowId plan.cursor = [] := by
    rw [getWorkflowEvents, hevents, hcursor, Log.after_reached]
    rfl
  have hdesires := hignores.desires { plan.row.toRecord with state := plan.state, eventCursor := plan.cursor }
    (plan.row.saved plan.state plan.cursor clock).toRecord plan.state rfl
  exact ⟨⟨_, plan.handler, plan.state, plan.cursor, plan.desired, hrow, plan.active, plan.handles,
    by rw [show (plan.row.saved plan.state plan.cursor clock).eventCursor = plan.cursor from rfl, hnothing]; rfl,
    hdesires.symm.trans plan.desires⟩, rfl, rfl, rfl, rfl, fun _ => rfl⟩

/-- A reconciliation that is run again with the plan of one that was cut off, and would have returned, ends as
that one would have, unless a component is overlooked. -/
theorem Plan.Again.resumes {plan : Plan engine store workflowId} {plan' : Plan engine left workflowId}
    (h : plan.Again plan') (hignores : plan.handler.IgnoresTimes) (hlinked : LinkedTasks store)
    {mid done : SwarmStore}
    (hdesired : plan.desired = before ++ after)
    (hdone : Replaces engine workflowId (store.getWorkflowComponents workflowId) before store mid)
    (hall : Replaces engine workflowId (store.getWorkflowComponents workflowId) plan.desired store done)
    {record : WorkflowRecord}
    (hconcludes : Concludes plan.handler workflowId plan.state plan.cursor plan.row done (.ok record) final)
    (htasks : left.tasks = mid.tasks) (hcomponents : left.components = mid.components)
    (hnone : ∀ component ∈ plan.desired, ¬ Overlooked store left workflowId component)
    {outcome : Except PyError WorkflowRecord}
    (hrun : Session noCall (engine.reconcile workflowId) left trace outcome left') :
    (∃ record', outcome = .ok record') ∧ SameButTimes workflowId final left' := by
  have hworkflow : (store.workflow? workflowId).isSome := by rw [plan.found]; rfl
  have hleft : (left.workflow? workflowId).isSome := by rw [plan'.found]; rfl
  obtain ⟨_, -, hremaining⟩ := plan'.readsTo.session_iff.mp hrun
  rw [Plan.remaining, h.handler, h.state, h.cursor, h.desired, hdesired] at hremaining
  rw [hdesired] at hall hnone
  have hloop {loopTrace} {loopOutcome : Except PyError Unit} {next : SwarmStore}
      (hsession : Session noCall (engine.replaceComponents workflowId (left.getWorkflowComponents workflowId)
        (before ++ after)) left loopTrace loopOutcome next) : loopOutcome = .ok () ∧ Alike done next :=
    Replaces.resumes hlinked hworkflow hdone hall htasks hcomponents hleft hnone hsession
  rcases Action.runs_bind.mp hremaining with ⟨e, -, hraised⟩ | ⟨_, _, next, _, -, hreturned, hconclude⟩
  · cases (hloop hraised).1
  · have hnext : next.workflow? workflowId = some plan'.row :=
      plan'.found_after (session_replaceComponents_ok hreturned)
    exact hconcludes.alike hignores (hloop hreturned).2 (fun now => (h.saved now).symm)
      (session_conclude hnext hconclude)

end TPUSwarm
