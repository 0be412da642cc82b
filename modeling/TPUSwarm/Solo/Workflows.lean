import TPUSwarm.Engine.Replay
import TPUSwarm.Invariants.StaticWorkflows
import TPUSwarm.Session.Finishing
import TPUSwarm.Solo.Schedule

/-!
# The life of a workflow

A workflow row is active until the one update that finishes it. The store does not check this: its calls
that save and finish a workflow rewrite the row whatever its status is. It holds because the one controller
has read the row as active, and nobody beside it writes the row.
-/

namespace TPUSwarm

open Common Relation SwarmStore

/-- The columns of a workflow row fit its status. -/
def WorkflowRow.Coherent (row : WorkflowRow) : Prop :=
  match row.status with
  | .active => row.resultJson = none ∧ row.lastError = none ∧ row.completedAt = none
  | .succeeded => row.resultJson ≠ none ∧ row.lastError = none ∧ row.completedAt = some row.updatedAt
  | .failed => row.resultJson = none ∧ row.lastError ≠ none ∧ row.completedAt = some row.updatedAt
  | .cancelled => False

/-- What may become of a workflow row: what was submitted stays, the cursor does not go back, and a row
that is finished stays as it is. -/
structure WorkflowRow.Evolves (row row' : WorkflowRow) : Prop where
  origin : row'.origin = row.origin
  cursor : row.eventCursor ≤ row'.eventCursor
  frozen : row.status ≠ .active → row' = row

/-- A workflow evolves to itself. -/
theorem WorkflowRow.Evolves.refl (row : WorkflowRow) : row.Evolves row := ⟨rfl, le_rfl, fun _ => rfl⟩

/-- Evolving is transitive. -/
theorem WorkflowRow.Evolves.trans {row row' row'' : WorkflowRow} (h : row.Evolves row') (h' : row'.Evolves row'') :
    row.Evolves row'' := by
  refine ⟨h'.origin.trans h.origin, h.cursor.trans h'.cursor, fun hfinished => ?_⟩
  have hsame := h.frozen hfinished
  rw [hsame] at h'
  exact h'.frozen hfinished

/-- A submitted workflow is coherent. -/
theorem WorkflowRow.Coherent.new (spec : WorkflowSpec) (initialState : Mapping) (now : Time) :
    (newWorkflowRow spec initialState now).Coherent := ⟨rfl, rfl, rfl⟩

/-- An update of an active row leaves a coherent row. -/
theorem WorkflowRow.Coherent.update {call : Call} {now : Time} {workflowId : String}
    {write : WorkflowRow → WorkflowRow}
    {row : WorkflowRow} (h : row.Coherent) (hactive : row.status = .active)
    (hupdate : call.update? now = some (workflowId, write)) : (write row).Coherent := by
  cases call with
  | saveWorkflowState _ _ _ =>
    obtain ⟨-, rfl⟩ := Prod.mk.inj (Option.some.inj hupdate)
    simpa only [Coherent, saved, hactive] using h
  | completeWorkflow _ _ =>
    obtain ⟨-, rfl⟩ := Prod.mk.inj (Option.some.inj hupdate)
    exact ⟨nofun, rfl, rfl⟩
  | failWorkflow _ _ =>
    obtain ⟨-, rfl⟩ := Prod.mk.inj (Option.some.inj hupdate)
    exact ⟨rfl, nofun, rfl⟩
  | _ => cases hupdate

/-- A call that updates a workflow finds it active, and moves its cursor forward up to events that exist. -/
def Timely (call : Call) (store : SwarmStore) : Prop :=
  ∀ now workflowId write row, call.update? now = some (workflowId, write) → store.workflow? workflowId = some row →
    row.status = .active ∧ row.eventCursor ≤ (write row).eventCursor ∧ (write row).eventCursor ≤ store.events.seq

/-- The workflow rows are coherent, and have read only events that exist. -/
def WorkflowsSound (store : SwarmStore) : Prop :=
  ∀ workflowId row, store.workflow? workflowId = some row → row.Coherent ∧ row.eventCursor ≤ store.events.seq

section Step

variable {call : Call} {now : Time} {store store' : SwarmStore} {result : call.Result}

/-- A call that updates no workflow is timely. -/
theorem Timely.of_leaves (h : call.isUpdate = false) : Timely call store := by
  intro now workflowId write row hupdate
  rw [Call.update?_eq_none h] at hupdate
  cases hupdate

/-- What a timely call makes of a row. -/
theorem Timely.evolves (h : Timely call store) (hrun : call.run now store = .ok (result, store'))
    {workflowId : String}
    {row : WorkflowRow} (hrow : store.workflow? workflowId = some row) :
    ∃ row', store'.workflow? workflowId = some row' ∧ row.Evolves row' := by
  rcases Call.workflow_after hrun hrow with hsame | ⟨write, hupdate, hrow'⟩
  · exact ⟨row, hsame, .refl row⟩
  · obtain ⟨hactive, hcursor, -⟩ := h now workflowId write row hupdate hrow
    exact ⟨write row, hrow', Call.update_origin hupdate row, hcursor, fun hfinished => absurd hactive hfinished⟩

/-- A timely call keeps the rows coherent. -/
theorem WorkflowsSound.run (h : WorkflowsSound store) (htimely : Timely call store)
    (hrun : call.run now store = .ok (result, store')) : WorkflowsSound store' := by
  intro workflowId row' hrow'
  have hseq : store.events.seq ≤ store'.events.seq := (Call.events_extend hrun).choose_spec.2.2
  cases hold : store.workflow? workflowId with
  | none =>
    obtain ⟨spec, components, initialState, rfl, rfl⟩ := Call.workflow_new hrun hold hrow'
    exact ⟨.new spec initialState now, Nat.zero_le _⟩
  | some row =>
    obtain ⟨hcoherent, hcursor⟩ := h workflowId row hold
    rcases Call.workflow_after hrun hold with hsame | ⟨write, hupdate, hwritten⟩
    · obtain rfl := Option.some.inj (hsame.symm.trans hrow')
      exact ⟨hcoherent, hcursor.trans hseq⟩
    · obtain rfl := Option.some.inj (hwritten.symm.trans hrow')
      obtain ⟨hactive, -, hread⟩ := htimely now workflowId write row hupdate hold
      exact ⟨hcoherent.update hactive hupdate, hread.trans hseq⟩

end Step

/-- The effect of the API on the store: that of a call that updates no workflow, or none. -/
def WorkflowsLeft (site site' : Site) : Prop :=
  site'.store = site.store ∨ ∃ (call : Call) (now : Time) (result : call.Result), call.isUpdate = false ∧
    call.run now site.store = .ok (result, site'.store)

/-- The effect of the controller on the store: that of a timely call, or none. -/
def WorkflowsMove (site site' : Site) : Prop :=
  site'.store = site.store ∨ ∃ (call : Call) (now : Time) (result : call.Result), Timely call site.store ∧
    call.run now site.store = .ok (result, site'.store)

/-- What leaves the workflows alone moves them nowhere. -/
theorem WorkflowsLeft.move {site site' : Site} (h : WorkflowsLeft site site') : WorkflowsMove site site' := by
  rcases h with hsame | ⟨call, now, result, hleaves, hrun⟩
  · exact Or.inl hsame
  · exact Or.inr ⟨call, now, result, .of_leaves hleaves, hrun⟩

/-- A move keeps the rows coherent. -/
theorem WorkflowsMove.sound {site site' : Site} (h : WorkflowsMove site site')
    (hsound : WorkflowsSound site.store) :
    WorkflowsSound site'.store := by
  rcases h with hsame | ⟨call, now, result, htimely, hrun⟩
  · rw [hsame]
    exact hsound
  · exact hsound.run htimely hrun

/-- A move keeps every row or lets it evolve. -/
theorem WorkflowsMove.evolves {site site' : Site} (h : WorkflowsMove site site') {workflowId : String}
    {row : WorkflowRow} (hrow : site.store.workflow? workflowId = some row) :
    ∃ row', site'.store.workflow? workflowId = some row' ∧ row.Evolves row' := by
  rcases h with hsame | ⟨call, now, result, htimely, hrun⟩
  · exact ⟨row, hsame ▸ hrow, .refl row⟩
  · exact htimely.evolves hrun hrow

/-- When the controller may issue an operation. -/
def TimelyOperation : Operation → Site → Prop
  | .store call _, site => Timely call site.store
  | _, _ => True

/-- The sites themselves are the machine. -/
def workflowSimulation (D : Deployment) : D.system.Simulation Site where
  view := id
  inv site := WorkflowsSound site.store
  move _ := WorkflowsMove
  envMove := WorkflowsLeft
  permitted _ := TimelyOperation
  inv_move _ _ _ hinv h := h.sound hinv
  inv_env _ _ hinv h := h.move.sound hinv

/-- What the program of the one controller has to follow. -/
abbrev timely (D : Deployment) := (workflowSimulation D).abstraction ()

/-- A fact that lasts while no workflow is updated. -/
def Undisturbed (fact : Site → Prop) : Prop := ∀ site site', WorkflowsLeft site site' → fact site → fact site'

/-- Truth is not disturbed. -/
theorem Undisturbed.true : Undisturbed fun _ => True := fun _ _ _ _ => trivial

/-- The row of a workflow stays while no workflow is updated, and so do the numbers of events. -/
theorem Undisturbed.row (workflowId : String) (row : WorkflowRow) (p : ℕ → Prop) (hp : ∀ a b, a ≤ b → p a → p b) :
    Undisturbed fun site => site.store.workflow? workflowId = some row ∧ p site.store.events.seq := by
  rintro site site' (hsame | ⟨call, now, result, hleaves, hrun⟩) ⟨hrow, hseq⟩
  · rw [hsame]
    exact ⟨hrow, hseq⟩
  · exact ⟨Call.workflow_unchanged (Call.update?_eq_none hleaves now) hrun hrow,
      hp _ _ (Call.events_extend hrun).choose_spec.2.2 hseq⟩

section Follows

variable {D : Deployment} {fact : Site → Prop} {site : Site}

/-- Nothing but the API acts beside the one controller. -/
theorem Undisturbed.stable (h : Undisturbed fact) : (timely D).Stable fact := by
  rintro site site' (hleft | ⟨_, hne, -⟩) hfact
  · exact h _ _ hleft hfact
  · exact absurd rfl hne

/-- A timely call, from a fact to facts about its result. -/
theorem timely_call (call : Call) {now : Option Time} {returned : call.Result → Site → Prop}
    (hfact : Undisturbed fact)
    (hreturned : ∀ r, Undisturbed (returned r))
    (htimely : ∀ site, WorkflowsSound site.store → fact site → Timely call site.store)
    (h : ∀ (site : Site) clock result store', fact site → call.run clock site.store = .ok (result, store') →
      returned result { site with store := store' }) (hsite : fact site) :
    (callStore call now).Follows (timely D) returned (fun _ _ => True) site := by
  refine Prog.Follows.issue (S := timely D) (c := .store call now) hfact.stable (fun r => ?_)
    (fun m hinv hm => ?_) hsite
  · cases r with
    | ok r => exact (hreturned r).stable
    | error e => exact Undisturbed.true.stable
  · refine ⟨htimely m hinv hm, fun outcome m' hexec => ?_⟩
    obtain ⟨-, hperform⟩ := hexec
    rcases Call.perform_cases hperform with ⟨e, rfl, rfl⟩ | ⟨result, rfl, hrun⟩
    · exact ⟨m, .refl, rfl, trivial⟩
    · exact ⟨_, .single (Or.inr ⟨call, _, result, htimely m hinv hm, hrun⟩), rfl, h m _ result _ hm hrun⟩

/-- Operations that update no workflow keep what lasts without updates. -/
theorem timely_leaves {α : Type} {p : Effect α} (hfact : Undisturbed fact) (huses : p.Uses LeavesWorkflows)
    (hsite : fact site) : p.Follows (timely D) (fun _ => fact) (fun _ _ => True) site := by
  refine Action.Follows.mono (Action.Follows.of_uses fact hfact.stable (fun op hop m _ hm => ?_) huses hsite)
    (fun _ _ _ h => h) fun _ _ _ _ => trivial
  have hpermitted : TimelyOperation op m := by
    cases op with
    | store call now => exact .of_leaves hop
    | _ => trivial
  refine ⟨hpermitted, fun reply m' hexec => ?_⟩
  have hleft : WorkflowsLeft m m' := by
    cases hexec with
    | store _ hperform =>
      rcases Call.perform_cases hperform with ⟨e, -, rfl⟩ | ⟨result, -, hrun⟩
      · exact Or.inl rfl
      · exact Or.inr ⟨_, _, result, hop, hrun⟩
    | _ => exact Or.inl rfl
  exact ⟨m', .single hleft.move, rfl, hfact _ _ hleft hm⟩

/-- A call that updates no workflow. -/
theorem callStore_leaves (call : Call) (now : Option Time) (h : call.isUpdate = false) :
    (callStore call now).Uses LeavesWorkflows := Prog.Uses.issue h

/-- A computation without operations. -/
theorem timely_ofExcept {α : Type} (r : Except PyError α) {returned : α → Site → Prop}
    (hreturned : ∀ a, Undisturbed (returned a)) (h : ∀ a, r = .ok a → returned a site) :
    (Action.ofExcept r : Effect α).Follows (timely D) returned (fun _ _ => True) site := by
  cases r with
  | ok a => exact Prog.Follows.pure (Q := Action.post returned _) (hreturned a).stable (h a rfl)
  | error e =>
    exact Prog.Follows.pure (Q := Action.post returned fun _ _ => True) Undisturbed.true.stable trivial

end Follows

/-- The workflow is active. -/
def ActiveWorkflow (workflowId : String) (site : Site) : Prop :=
  ∃ row, site.store.workflow? workflowId = some row ∧ row.status = .active

/-- That a workflow is active is not disturbed. -/
theorem ActiveWorkflow.undisturbed (workflowId : String) : Undisturbed (ActiveWorkflow workflowId) := by
  rintro site site' hleft ⟨row, hrow, hactive⟩
  exact ⟨row, (Undisturbed.row workflowId row (fun _ => True) (fun _ _ _ h => h) site site' hleft
    ⟨hrow, trivial⟩).1, hactive⟩

/-- An update of an active workflow that leaves the cursor alone is timely. -/
theorem ActiveWorkflow.timely {call : Call} {workflowId : String} {site : Site} (h : ActiveWorkflow workflowId site)
    (hsound : WorkflowsSound site.store) (hupdate : ∀ now w write, call.update? now = some (w, write) →
      w = workflowId ∧ ∀ row, (write row).eventCursor = row.eventCursor) : Timely call site.store := by
  intro now w write row hcall hrow
  obtain ⟨rfl, hcursor⟩ := hupdate now w write hcall
  obtain ⟨other, hother, hactive⟩ := h
  obtain rfl := Option.some.inj (hother.symm.trans hrow)
  exact ⟨hactive, (hcursor other).ge, (hcursor other).trans_le (hsound w other hrow).2⟩

section Cycle

variable {D : Deployment} {site : Site}

/-- Replaying the events read moves the cursor forward, up to events that exist. -/
theorem replay_cursor {handler : MultiAutoResumable} {store : SwarmStore} {workflowId : String} {cursor reached : ℕ}
    {state state' : Mapping} (hcursor : cursor ≤ store.events.seq)
    (h : WorkflowEngine.replay handler state cursor (store.getWorkflowEvents workflowId cursor) = .ok
      (state', reached)) :
    cursor ≤ reached ∧ reached ≤ store.events.seq := by
  obtain ⟨-, rfl⟩ := WorkflowEngine.replay_eq_ok h
  constructor
  · apply (Log.le_reached (store.events.increasing.filter _) _).1
    intro event hevent
    exact of_decide_eq_true (Bool.and_eq_true_iff.mp (List.mem_filter.mp hevent).2).2
  · apply Log.reached_le hcursor
    intro event hevent
    exact (store.events.bounded event (List.mem_filter.mp hevent).1).2

/-- A reconciliation updates its workflow only while it is active. -/
theorem timely_reconcile (engine : WorkflowEngine) (workflowId : String) :
    (engine.reconcile workflowId).Follows (timely D) (fun _ _ => True) (fun _ _ => True) site := by
  have hend {α : Type} (a : α) (m : Site) :
      (pure a : Effect α).Follows (timely D) (fun _ _ => True) (fun _ _ => True) m :=
    Action.Follows.pure (Q := fun _ _ => True) Undisturbed.true.stable trivial
  have hfinish (call : Call) (hupdate : ∀ now w write, call.update? now = some (w, write) →
      w = workflowId ∧ ∀ row, (write row).eventCursor = row.eventCursor) (m : Site)
        (hm : ActiveWorkflow workflowId m) :
      (callStore call none).Follows (timely D) (fun _ _ => True) (fun _ _ => True) m :=
    timely_call call (ActiveWorkflow.undisturbed workflowId) (fun _ => Undisturbed.true)
      (fun _ hsound hactive => hactive.timely hsound hupdate) (fun _ _ _ _ _ _ => trivial) hm
  unfold WorkflowEngine.reconcile
  -- The row read stays what it is until the state is saved: nobody else updates it.
  refine Action.Follows.bind (fun _ => Undisturbed.true.stable)
    (K := fun (workflow : WorkflowRecord) m => ∃ row, workflow = row.toRecord ∧
      m.store.workflow? workflowId = some row)
    (timely_call (.getWorkflow workflowId) Undisturbed.true (fun workflow m m' hleft => ?_)
      (fun _ _ _ => .of_leaves rfl) (fun m clock workflow store' _ hrun => ?_) trivial)
        fun workflow m hsound hm => ?_
  · rintro ⟨row, rfl, hrow⟩
    exact ⟨row, rfl, (Undisturbed.row workflowId row (fun _ => True) (fun _ _ _ h => h) m m' hleft
      ⟨hrow, trivial⟩).1⟩
  · obtain ⟨hget, rfl⟩ := Call.reading_eq_ok.mp hrun
    obtain ⟨row, hrow, rfl⟩ := Option.map_eq_some_iff.mp (orRaise_eq_ok.mp hget)
    exact ⟨row, rfl, hrow⟩
  obtain ⟨row, rfl, hrow⟩ := hm
  dsimp only
  split
  · exact hend _ _
  rename_i hopen
  have hactive : row.status = .active := not_not.mp hopen
  refine Action.Follows.bind (fun _ => Undisturbed.true.stable)
    (K := fun _ m => m.store.workflow? workflowId = some row ∧ row.eventCursor ≤ m.store.events.seq)
    (timely_leaves (Undisturbed.row workflowId row _ fun _ _ hle h => h.trans hle) (Action.Uses.ofExcept _)
      ⟨hrow, (hsound workflowId row hrow).2⟩) fun handler m _ hm => ?_
  refine Action.Follows.bind (fun _ => Undisturbed.true.stable)
    (K := fun events m => m.store.workflow? workflowId = some row ∧ ∀ state cursor,
      WorkflowEngine.replay handler row.toRecord.state row.eventCursor events = .ok (state, cursor) →
        row.eventCursor ≤ cursor ∧ cursor ≤ m.store.events.seq)
    (timely_call (.getWorkflowEvents workflowId row.eventCursor)
      (Undisturbed.row workflowId row _ fun _ _ hle h => h.trans hle)
      (fun events => Undisturbed.row workflowId row (fun n => ∀ state cursor,
        WorkflowEngine.replay handler row.toRecord.state row.eventCursor events = .ok (state, cursor) →
          row.eventCursor ≤ cursor ∧ cursor ≤ n) fun _ _ hle h state cursor hreplay =>
            ⟨(h state cursor hreplay).1, (h state cursor hreplay).2.trans hle⟩)
      (fun _ _ _ => .of_leaves rfl) (fun m clock events store' hm hrun => ?_) hm) fun events m _ hm => ?_
  · have hread : Call.reading (fun store => .ok (store.getWorkflowEvents workflowId row.eventCursor)) m.store =
        .ok (events, store') := hrun
    obtain ⟨hevents, rfl⟩ := Call.reading_eq_ok.mp hread
    obtain rfl := Except.ok.inj hevents
    exact ⟨hm.1, fun state cursor hreplay => replay_cursor hm.2 hreplay⟩
  refine Action.Follows.bind (fun _ => Undisturbed.true.stable)
    (K := fun (replayed : Mapping × ℕ) m => m.store.workflow? workflowId = some row ∧
      row.eventCursor ≤ replayed.2 ∧ replayed.2 ≤ m.store.events.seq)
    (timely_ofExcept _ (fun replayed => Undisturbed.row workflowId row
      (fun n => row.eventCursor ≤ replayed.2 ∧ replayed.2 ≤ n) fun _ _ hle h => ⟨h.1, h.2.trans hle⟩)
      fun replayed hreplayed => ⟨hm.1, hm.2 _ _ hreplayed⟩) fun replayed m _ hm => ?_
  obtain ⟨state, cursor⟩ := replayed
  dsimp only at hm ⊢
  have hkept := Undisturbed.row workflowId row (fun n => row.eventCursor ≤ cursor ∧ cursor ≤ n)
    fun _ _ hle h => ⟨h.1, h.2.trans hle⟩
  refine Action.Follows.bind (fun _ => Undisturbed.true.stable)
    (timely_leaves hkept (callStore_leaves (.getWorkflowComponents workflowId) none rfl) hm)
    fun current m _ hm => ?_
  refine Action.Follows.bind (fun _ => Undisturbed.true.stable)
    (timely_leaves hkept (Action.Uses.ofExcept _) hm) fun desired m _ hm => ?_
  refine Action.Follows.bind (fun _ => Undisturbed.true.stable)
    (timely_leaves hkept (replaceComponents_leaves _ _ _ _) hm) fun _ m _ hm => ?_
  -- The save keeps the workflow active, so that it may be finished.
  refine Action.Follows.bind (fun _ => Undisturbed.true.stable) (K := fun _ => ActiveWorkflow workflowId)
    (timely_call (.saveWorkflowState workflowId state cursor) hkept (fun _ => ActiveWorkflow.undisturbed workflowId)
      (fun m _ hm now w write other hupdate hother => ?_) (fun m clock saved store' hm hrun => ?_) hm)
        fun saved m _ hm => ?_
  · obtain ⟨rfl, rfl⟩ := Prod.mk.inj (Option.some.inj hupdate)
    obtain rfl := Option.some.inj (hm.1.symm.trans hother)
    exact ⟨hactive, hm.2⟩
  · have hwritten := (Call.update_selects (by rfl) hrun).2 workflowId
    rw [hm.1, Option.map_some, if_pos rfl] at hwritten
    exact ⟨_, hwritten, hactive⟩
  have hlasts := ActiveWorkflow.undisturbed workflowId
  refine Action.Follows.bind (fun _ => Undisturbed.true.stable)
    (timely_leaves hlasts (callStore_leaves (.getWorkflowComponents workflowId) none rfl) hm)
    fun components m _ hm => ?_
  refine Action.Follows.bind (fun _ => Undisturbed.true.stable)
    (timely_leaves hlasts (Action.Uses.ofExcept _) hm) fun result m _ hm => ?_
  split
  · rename_i result
    apply hfinish (.completeWorkflow workflowId result) _ m hm
    rintro now w write hupdate
    obtain ⟨rfl, rfl⟩ := Prod.mk.inj (Option.some.inj hupdate)
    exact ⟨rfl, fun _ => rfl⟩
  · refine Action.Follows.bind (fun _ => Undisturbed.true.stable)
      (timely_leaves hlasts (Action.Uses.ofExcept _) hm) fun reason m _ hm => ?_
    split
    · rename_i reason
      apply hfinish (.failWorkflow workflowId reason) _ m hm
      rintro now w write hupdate
      obtain ⟨rfl, rfl⟩ := Prod.mk.inj (Option.some.inj hupdate)
      exact ⟨rfl, fun _ => rfl⟩
    · exact hend _ _

/-- What the loop over the tasks does: it observes jobs that were listed, and binds or resets submissions. -/
def Settling (jobs : List ExecutorJob) : Operation → Prop
  | .store (.observeJob _ job) _ => job ∈ jobs
  | .store (.bindJob _ _ _) _ | .store (.resetSubmission _ _) _ | .store (.getTask _) _ => True
  | _ => False

/-- What the loop over a batch does: it launches jobs, binds or resets submissions, and fails the tasks of which
no job can be made. -/
def Admitting (controller : TPUSwarmController) (batch : List TaskRecord) : Operation → Prop
  | .store (.failTask taskId reason) _ => ∃ task ∈ batch, task.taskId = taskId ∧ ∃ e,
      controller.compileJob task = .error e ∧
        reason = "invalid managed-job definition: " ++ e.kind.name ++ ": " ++ e.text
  | .store (.bindJob _ _ _) _ | .store (.resetSubmission _ _) _ | .launch _ _ _ => True
  | _ => False

/-- Settling leaves the workflows alone. -/
theorem Settling.leaves {jobs : List ExecutorJob} {op : Operation} (h : Settling jobs op) : LeavesWorkflows op := by
  cases op with
  | store call now => cases call <;> first | rfl | exact False.elim h
  | _ => trivial

/-- Launching a batch leaves the workflows alone. -/
theorem Admitting.leaves {controller : TPUSwarmController} {batch : List TaskRecord} {op : Operation}
    (h : Admitting controller batch op) : LeavesWorkflows op := by
  cases op with
  | store call now => cases call <;> first | rfl | exact False.elim h
  | _ => trivial

/-- The loop over the tasks. -/
theorem reconcileTasks_settles (controller : TPUSwarmController) (jobs : List ExecutorJob) (now : Time)
    (tasks : List TaskRecord) (adopted observed : List String) :
    (controller.reconcileTasks jobs now tasks adopted observed).Uses (Settling jobs) := by
  have hcall (call : Call) (now : Option Time) (h : Settling jobs (.store call now)) :
      (callStore call now).Uses (Settling jobs) := Prog.Uses.issue h
  have hsettle (task : TaskRecord) (adopted : List String) :
      (controller.settleSubmission jobs now task adopted).Uses (Settling jobs) := by
    unfold TPUSwarmController.settleSubmission
    split
    · split
      · exact Action.Uses.bind (hcall _ _ trivial) fun _ =>
          Action.Uses.bind (hcall _ _ trivial) fun _ => Action.Uses.pure _
      · split
        · exact Action.Uses.bind (hcall _ _ trivial) fun _ => Action.Uses.pure _
        · exact Action.Uses.pure _
    · exact Action.Uses.pure _
  have hobserve (task : TaskRecord) (observed : List String) :
      (TPUSwarmController.observeTask jobs now task observed).Uses (Settling jobs) := by
    unfold TPUSwarmController.observeTask
    split
    · exact Action.Uses.pure _
    · split
      · exact Action.Uses.pure _
      · split
        · rename_i job hlisted
          exact Action.Uses.bind (hcall _ _ (listedJob_mem hlisted)) fun _ => Action.Uses.pure _
        · exact Action.Uses.pure _
  induction tasks generalizing adopted observed with
  | nil => exact Action.Uses.pure _
  | cons task rest ih =>
    apply Action.Uses.bind (hsettle task adopted)
    rintro ⟨_ | settled, adopted'⟩
    · exact ih _ _
    · exact Action.Uses.bind (hobserve settled observed) fun _ => ih _ _

/-- The loop over a batch. -/
theorem launchTasks_admits (controller : TPUSwarmController) (now : Time) {batch rest : List TaskRecord}
    (hrest : rest ⊆ batch) (submitted : List String) :
    (controller.launchTasks now rest submitted).Uses (Admitting controller batch) := by
  have hcall (call : Call) (h : Admitting controller batch (.store call (some now))) :
      (callStore call (some now)).Uses (Admitting controller batch) := Prog.Uses.issue h
  induction rest generalizing submitted with
  | nil => exact Action.Uses.pure _
  | cons task rest ih =>
    have hnext (submitted : List String) := ih (fun t ht => hrest (List.mem_cons_of_mem _ ht)) submitted
    unfold TPUSwarmController.launchTasks
    split
    · rename_i e hcompile
      exact Action.Uses.bind (hcall _ ⟨task, hrest List.mem_cons_self, rfl, e, hcompile, rfl⟩) fun _ => hnext _
    · rename_i spec _
      have hlaunch : (launch task spec task.priority).Uses (Admitting controller batch) := Prog.Uses.issue trivial
      apply Action.Uses.bind hlaunch.attempt
      rintro (e | job)
      · dsimp only
        split
        · exact Action.Uses.bind (hcall _ trivial) fun _ => Action.Uses.pure _
        · exact trivial
      · exact Action.Uses.bind (hcall _ trivial) fun _ => hnext _

/-- The loop over the workflows. -/
theorem timely_reconcileWorkflows (controller : TPUSwarmController) (workflows : List WorkflowRecord)
    (reconciled : List String) : (controller.reconcileWorkflows workflows reconciled).Follows (timely D)
      (fun _ _ => True) (fun _ _ => True) site := by
  induction workflows generalizing reconciled site with
  | nil => exact Action.Follows.pure (Q := fun _ _ => True) Undisturbed.true.stable trivial
  | cons workflow rest ih =>
    refine Action.Follows.bind (fun _ => Undisturbed.true.stable) (K := fun _ _ => True)
      (Action.Follows.attempt (fun _ => Undisturbed.true.stable) (timely_reconcile _ _)) fun outcome m _ _ => ?_
    cases outcome with
    | ok _ => exact ih _
    | error _ => exact ih _

/-- The part of a cycle that only a leader reaches. -/
theorem timely_cycle (controller : TPUSwarmController) (now : Time) :
    (controller.cycle now).Follows (timely D) (fun _ _ => True) (fun _ _ => True) site := by
  have hleaves {α : Type} {p : Effect α} (huses : p.Uses LeavesWorkflows) (m : Site) :
      p.Follows (timely D) (fun _ _ => True) (fun _ _ => True) m := timely_leaves Undisturbed.true huses trivial
  have hlist : listJobs.Uses LeavesWorkflows := Prog.Uses.issue trivial
  unfold TPUSwarmController.cycle
  refine Action.Follows.bind (fun _ => Undisturbed.true.stable) (hleaves hlist.attempt _) fun outcome m _ _ => ?_
  cases outcome with
  | error e =>
    dsimp only
    split
    · exact hleaves (Action.Uses.pure _) m
    · exact Action.Follows.throw Undisturbed.true.stable trivial
  | ok jobs =>
    refine Action.Follows.bind (fun _ => Undisturbed.true.stable)
      (hleaves (callStore_leaves (.listTasks none) none rfl) m) fun tasks m _ _ => ?_
    refine Action.Follows.bind (fun _ => Undisturbed.true.stable)
      (hleaves (Prog.Uses.mono (fun _ => Settling.leaves)
        (reconcileTasks_settles controller jobs now tasks [] [])) m)
      fun reports m _ _ => ?_
    refine Action.Follows.bind (fun _ => Undisturbed.true.stable)
      (hleaves (callStore_leaves (.listWorkflows (some .active)) none rfl) m) fun workflows m _ _ => ?_
    refine Action.Follows.bind (fun _ => Undisturbed.true.stable)
      (timely_reconcileWorkflows controller workflows []) fun reconciled m _ _ => ?_
    refine Action.Follows.bind (fun _ => Undisturbed.true.stable)
      (hleaves (callStore_leaves (.reserveSubmissions controller.submissionBatchSize) (some now) rfl) m)
      fun batch m _ _ => ?_
    have hlaunches := launchTasks_admits controller now (List.Subset.refl batch) []
    exact hleaves (Action.Uses.bind (Prog.Uses.mono (fun _ => Admitting.leaves) hlaunches) fun _ =>
      Action.Uses.pure _) m

/-- A call of `reconcile_once`. -/
theorem timely_reconcileOnce (controller : TPUSwarmController) (lease : Option ControllerLease) (now : Time) :
    (controller.reconcileOnce lease now).Follows (timely D) (fun _ _ => True) site := by
  have hdone (outcome : CycleOutcome) (m : Site) :
      (pure outcome : Prog Operation Operation.Reply CycleOutcome).Follows (timely D) (fun _ _ => True) m :=
    Prog.Follows.pure (Q := fun _ _ => True) Undisturbed.true.stable trivial
  have hany {α : Type} {p : Effect α} (huses : p.Uses LeavesWorkflows) (m : Site) :
      p.run.Follows (timely D) (fun _ _ => True) m :=
    Prog.Follows.mono (timely_leaves Undisturbed.true huses trivial) fun _ _ _ _ => trivial
  have hheld : (controller.heldLease lease now).Uses LeavesWorkflows := by
    cases lease with
    | some held => exact Action.Uses.pure _
    | none => exact callStore_leaves (.acquireLeadership _ _) (some now) rfl
  refine Prog.Follows.bind (hany hheld _) fun started m _ _ => ?_
  rcases started with e | _ | held
  · exact hdone _ _
  · exact hdone _ _
  · refine Prog.Follows.bind (hany (callStore_leaves (.renewLeadership held controller.leadershipLeaseSeconds)
      (some now) rfl) m) fun renewed m _ _ => ?_
    rcases renewed with e | renewed
    · dsimp only
      split
      · exact hdone _ _
      · exact hdone _ _
    · exact Prog.Follows.bind (timely_cycle controller now) fun result m _ _ => hdone _ _

end Cycle

/-- The machine matches the system: its operations, crashes, new cycles and API calls. -/
theorem workflowSimulation_matches (D : Deployment) : (workflowSimulation D).Matches where
  env site site' _ henv := by
    obtain ⟨call, now, hapi, rfl⟩ := henv
    have hleaves : call.isUpdate = false := by
      cases call <;> first | rfl | cases hapi
    refine ⟨_, ?_, rfl⟩
    rcases call.perform_store now site.store with hsame | ⟨result, hrun⟩
    · exact Or.inl hsame
    · exact Or.inr ⟨call, now, result, hleaves, hrun⟩
  crash _ site _ site' _ hcrash := ⟨site, .refl, hcrash.1.symm, fun _ _ _ => trivial⟩
  begins _ last site program site' _ _ hbegins := by
    obtain ⟨rfl, controller, now, -, rfl⟩ := hbegins
    exact ⟨site', .refl, rfl, timely_reconcileOnce controller last.2 now⟩

section Runs

variable {D : Deployment} {s s' : D.SystemState}

/-- The machine follows every run. -/
theorem Deployment.Reachable.workflows (h : D.Reachable s) : (workflowSimulation D).Related s.world s := by
  have hstart : (workflowSimulation D).Related Site.initial D.initial :=
    Pool.Simulation.Related.of_finished _ rfl
      (fun w row hrow => absurd (workflow?_eq_some.mp hrow).1 List.not_mem_nil)
      fun _ => ⟨_, rfl, fun _ => trivial⟩
  obtain ⟨m, -, hrelated⟩ := Pool.Simulation.run (workflowSimulation_matches D) hstart h
  obtain rfl : m = s.world := hrelated.view
  exact hrelated

/-- Every workflow row evolves along a run. -/
theorem Deployment.workflow_evolves (h : D.Reachable s) (hrun : D.system.Run s s') {row : WorkflowRow}
    (hrow : row ∈ s.world.store.workflows.rows) :
    ∃ row' ∈ s'.world.store.workflows.rows, row'.workflowId = row.workflowId ∧ row.Evolves row' := by
  obtain ⟨m, hmoves, hrelated⟩ := Pool.Simulation.run (workflowSimulation_matches D) h.workflows hrun
  obtain rfl : m = s'.world := hrelated.view
  have hlast : ∃ row', s'.world.store.workflow? row.workflowId = some row' ∧ row.Evolves row' := by
    refine Pool.Simulation.keeps (workflowSimulation D)
      (K := fun site => ∃ row', site.store.workflow? row.workflowId = some row' ∧ row.Evolves row')
      (fun site site' _ hmove hold => ?_) hmoves h.workflows.inv ⟨row, workflow?_eq_some.mpr ⟨hrow, rfl⟩, .refl row⟩
    have hany : WorkflowsMove site site' := hmove.elim WorkflowsLeft.move fun ⟨_, hown⟩ => hown
    obtain ⟨mid, hmid, hevolves⟩ := hold
    obtain ⟨row', hrow', hevolves'⟩ := hany.evolves hmid
    exact ⟨row', hrow', hevolves.trans hevolves'⟩
  obtain ⟨row', hrow', hevolves⟩ := hlast
  obtain ⟨hmem, hid⟩ := workflow?_eq_some.mp hrow'
  exact ⟨row', hmem, hid, hevolves⟩

end Runs

/-- Along every run of one controller with the API, and wherever it crashes, the columns of a workflow row fit
its status and its cursor covers only events that exist. What was submitted never changes, the cursor never goes
back, and a finished row stays exactly as it is. -/
theorem workflow_lifecycle {D : Deployment} {s s' : D.SystemState} (h : D.Reachable s) (hrun : D.system.Run s s') :
    (∀ row ∈ s.world.store.workflows.rows, row.Coherent ∧ row.eventCursor ≤ s.world.store.events.seq) ∧
      ∀ row ∈ s.world.store.workflows.rows, ∃ row' ∈ s'.world.store.workflows.rows,
        row'.workflowId = row.workflowId ∧ row.Evolves row' :=
  ⟨fun _ hrow => h.workflows.inv _ _ (workflow?_eq_some.mpr ⟨hrow, rfl⟩),
    fun _ => Deployment.workflow_evolves h hrun⟩

/-- A handler that finishes its workflow at once. -/
def closingHandler : MultiAutoResumable where
  initialState _ := .ok Dict.empty
  reduce state _ := .ok state
  desiredComponents _ _ := .ok []
  completionResult _ _ _ := .ok (some Dict.empty)

/-- A controller with this handler. -/
def closingController : TPUSwarmController where
  registry.workflows := Dict.ofList [("tree", closingHandler)]
  controllerId := "controller"

/-- The workflow is finished before a barrier is committed, and the cycle after that leaves it alone. -/
theorem workflow_lifecycle_finished : ∃ s s' : (Deployment.anyBackend closingController).SystemState,
    s'.world.store.events.seq = 1 ∧ ∃ row ∈ s.world.store.workflows.rows, row.status = .succeeded ∧ row.Coherent ∧
      row ∈ s'.world.store.workflows.rows := by
  let cycle (now : Time) (reads : ℕ) : List (Deployment.anyBackend closingController).Command :=
    [.begin ⟨closingController, rfl⟩ now] ++ List.replicate reads (.store now) ++ [.list []] ++
      List.replicate 8 (.store now)
  obtain ⟨s, s', hreachable, hrun, hcheck⟩ := (Deployment.anyBackend closingController).run_of_check
    ([.api (.submitWorkflow sampleWorkflow [] Dict.empty) 0] ++ cycle 1 2 ++ [.store 1])
    ([.api (.commitBarrier "w1" 0 none) 2, .begin ⟨closingController, rfl⟩ 2, .store 2, .list [], .store 2,
      .store 2])
    (fun s s' => s'.world.store.events.seq = 1 && s.world.store.workflows.rows.any (·.status = .succeeded))
    (by decide +kernel)
  obtain ⟨hseq, hrow⟩ := Bool.and_eq_true_iff.mp hcheck
  obtain ⟨row, hrow, hstatus⟩ := List.any_eq_true.mp hrow
  have hsucceeded : row.status = .succeeded := of_decide_eq_true hstatus
  obtain ⟨hsound, hkept⟩ := workflow_lifecycle hreachable hrun
  obtain ⟨row', hrow', -, hevolves⟩ := hkept row hrow
  obtain rfl := hevolves.frozen (by rw [hsucceeded]; nofun)
  exact ⟨s, s', of_decide_eq_true hseq, row', hrow, hsucceeded, (hsound row' hrow).1, hrow'⟩

end TPUSwarm
