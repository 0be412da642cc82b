import TPUSwarm.Session.Concluding

/-!
# Finishing a workflow among other calls

A reconciliation reads the events, saves the state and finishes the workflow in separate
transactions. Other calls, of the API or of a controller, may come between any two of them.
They write no workflow row, so the row is at the end what the two updates have made of it.
-/

namespace TPUSwarm

open Common SwarmStore

/-- The call updates the row of a workflow. -/
def Call.isUpdate : Call → Bool
  | .saveWorkflowState _ _ _ | .completeWorkflow _ _ | .failWorkflow _ _ => true
  | _ => false

/-- Only calls that update no workflow may be made: all of the API, and all of a controller about its jobs. -/
def leavesWorkflows : Discretion := fun _ call => call.isUpdate = false

instance (store : SwarmStore) (call : Call) : Decidable (leavesWorkflows store call) :=
  inferInstanceAs (Decidable (call.isUpdate = false))

/-- The operation updates no workflow. -/
def LeavesWorkflows : Operation → Prop
  | .store call _ => call.isUpdate = false
  | _ => True

variable {store mid store' : SwarmStore} {workflowId : String} {row row' : WorkflowRow}
  {trace : List (Sigma Operation.Reply)}

/-- A call that is no update writes no workflow. -/
theorem Call.update?_eq_none {call : Call} (h : call.isUpdate = false) (now : Time) : call.update? now = none := by
  cases call <;> first | rfl | cases h

/-- Such calls keep every workflow row. -/
theorem History.keeps_row (h : History leavesWorkflows store store')
    (hrow : store.workflow? workflowId = some row) :
    store'.workflow? workflowId = some row :=
  h.invariant (I := fun s => s.workflow? workflowId = some row)
    (fun _ now _ _ _ hcall hrun hs => Call.workflow_unchanged (Call.update?_eq_none hcall now) hrun hs) hrow

/-- Any calls only add events. -/
theorem History.events_extend {allowed : Discretion} (h : History allowed store store') :
    store.events.Extends store'.events :=
  h.invariant (I := fun s => store.events.Extends s.events)
    (fun _ _ _ _ _ _ hrun hs => hs.trans (Call.events_extend hrun)) (.refl _)

/-- A session of operations that may be made among others that may is a history of such calls. -/
theorem Session.history {α : Type} {p : Effect α} {outcome : Except PyError α} {allowed wider : Discretion}
    {issues : Operation → Prop} (hallowed : ∀ s call, allowed s call → wider s call)
    (hissues : ∀ s call now, issues (.store call now) → wider s call) (huses : p.Uses issues)
    (h : Session allowed p store trace outcome store') : History wider store store' := by
  refine Prog.Runs.invariant (I := fun s => History wider store s) h huses ?_ .refl
  rintro op s reply s' hop hanswers hs
  cases hanswers with
  | @store call now clock _ mid outcome _ hothers hperform =>
    have hserved : Served wider mid s' :=
      ⟨call, now.getD clock, fun _ _ _ => hissues mid call now hop, (congrArg Prod.snd hperform).symm⟩
    exact (hs.trans (hothers.mono hallowed)).tail hserved
  | listJobs hothers => exact hs.trans (hothers.mono hallowed)
  | launch hothers => exact hs.trans (hothers.mono hallowed)

/-- A session that updates no workflow. -/
theorem Session.leaves {α : Type} {p : Effect α} {outcome : Except PyError α} (huses : p.Uses LeavesWorkflows)
    (h : Session leavesWorkflows p store trace outcome store') : History leavesWorkflows store store' :=
  Session.history (fun _ _ hcall => hcall) (fun _ _ _ hop => hop) huses h

/-- The session of a sequence after which a workflow row is not as before has gone past its first part, if this
part updates no workflow. -/
theorem Session.passes {α β : Type} {p : Effect α} {f : α → Effect β} {outcome : Except PyError β}
    (huses : p.Uses LeavesWorkflows) (hrow : store.workflow? workflowId = some row)
    (hchanged : store'.workflow? workflowId ≠ some row)
    (h : Session leavesWorkflows (p >>= f) store trace outcome store') :
    ∃ first a mid second, trace = first ++ second ∧ Session leavesWorkflows p store first (.ok a) mid ∧
      History leavesWorkflows store mid ∧ mid.workflow? workflowId = some row ∧
        Session leavesWorkflows (f a) mid second outcome store' := by
  rcases Action.runs_bind.mp h with ⟨e, rfl, hraised⟩ | ⟨first, a, mid, second, rfl, hfirst, hsecond⟩
  · exact absurd ((Session.leaves huses hraised).keeps_row hrow) hchanged
  · have hhistory := Session.leaves huses hfirst
    exact ⟨first, a, mid, second, rfl, hfirst, hhistory, hhistory.keeps_row hrow, hsecond⟩

/-- A call of a session reads the store at its moment. -/
theorem session_read {call : Call} {f : SwarmStore → Except PyError call.Result} {result : call.Result}
    (hread : ∀ now, call.run now = Call.reading f)
    (h : Session leavesWorkflows (callStore call none) store trace (.ok result) store') :
    trace = [⟨.store call none, .ok result⟩] ∧ History leavesWorkflows store store' ∧ f store' = .ok result := by
  obtain ⟨rfl, before, clock, hothers, hrun⟩ := session_callStore_ok.mp h
  rw [hread] at hrun
  obtain ⟨hresult, rfl⟩ := Call.reading_eq_ok.mp hrun
  exact ⟨rfl, hothers, hresult⟩

/-- The loop over the desired components updates no workflow. -/
theorem replaceComponents_leaves (engine : WorkflowEngine) (workflowId : String) (current : Dict String TaskRecord)
    (components : List ComponentSpec) :
    (engine.replaceComponents workflowId current components).Uses LeavesWorkflows := by
  induction components with
  | nil => exact Action.Uses.pure ()
  | cons component rest ih =>
    refine Action.Uses.bind (Action.Uses.ofExcept _) fun desired => ?_
    dsimp only
    split
    · exact Action.Uses.bind (Prog.Uses.issue rfl) fun _ => ih
    · exact ih

/-- A reconciliation that has finished an active workflow among other calls: it has read the events behind the
cursor at some moment; it has saved what they lead to; and a result was computed from that state. -/
theorem session_finishing {engine : WorkflowEngine} {handler : MultiAutoResumable}
    {outcome : Except PyError WorkflowRecord} (hrow : store.workflow? workflowId = some row)
    (hactive : row.status = .active) (hhandler : engine.registry.workflow row.kind = .ok handler)
    (h : Session leavesWorkflows (engine.reconcile workflowId) store trace outcome store')
    (hrow' : store'.workflow? workflowId = some row') (hfinished : row'.status ≠ .active) :
    ∃ read state cursor, History leavesWorkflows store read ∧
      (⟨.store (.getWorkflowEvents workflowId row.eventCursor) none,
        .ok (read.getWorkflowEvents workflowId row.eventCursor)⟩ : Sigma Operation.Reply) ∈ trace ∧
      WorkflowEngine.replay handler (loads row.stateJson) row.eventCursor
        (read.getWorkflowEvents workflowId row.eventCursor) = .ok (state, cursor) ∧
      read.events.Extends store'.events ∧ row'.eventCursor = cursor ∧
      (row'.status = .succeeded → ∃ saved components result,
        handler.completionResult saved state components = .ok (some result) ∧
          row'.resultJson = some (dumps result)) := by
  -- a row that is still active is not the final one
  have hchanged {r : WorkflowRow} (hr : r.status = .active) : store'.workflow? workflowId ≠ some r := fun heq =>
    hfinished (Option.some.inj (hrow'.symm.trans heq) ▸ hr)
  have hpure {α : Type} (r : Except PyError α) : (Action.ofExcept r : Effect α).Uses LeavesWorkflows :=
    Action.Uses.ofExcept r
  have hcall (call : Call) (hquiet : call.isUpdate = false) : (callStore call none).Uses LeavesWorkflows :=
    Prog.Uses.issue hquiet
  unfold WorkflowEngine.reconcile at h
  obtain ⟨t₁, workflow, s₁, u₁, rfl, hget, -, hrow₁, h₁⟩ :=
    Session.passes (hcall (.getWorkflow workflowId) rfl) hrow (hchanged hactive) h
  obtain ⟨-, hhistory₁, hworkflow⟩ := session_read (fun _ => rfl) hget
  obtain rfl : row.toRecord = workflow := by
    rw [getWorkflow, hrow₁] at hworkflow
    exact Except.ok.inj hworkflow
  have hopen : ¬ row.toRecord.status ≠ .active := not_not.mpr hactive
  dsimp only at h₁
  rw [if_neg hopen, show engine.registry.workflow row.toRecord.kind = _ from hhandler, Action.ofExcept_bind] at h₁
  obtain ⟨t₂, events, s₂, u₂, rfl, hread, hhistory₂, hrow₂, h₂⟩ :=
    Session.passes (hcall (.getWorkflowEvents workflowId row.eventCursor) rfl) hrow₁ (hchanged hactive) h₁
  obtain ⟨rfl, -, hevents⟩ := session_read (fun _ => rfl) hread
  obtain rfl := Except.ok.inj hevents
  obtain ⟨t₃, replayed, read, u₃, rfl, hreplay, hhistory₃, hrow₃, h₃⟩ :=
    Session.passes (hpure _) hrow₂ (hchanged hactive) h₂
  obtain ⟨rfl, hreplays, rfl⟩ := Action.runs_ofExcept.mp hreplay
  obtain ⟨state, cursor⟩ := replayed
  dsimp only at h₃
  obtain ⟨t₄, current, s₄, u₄, rfl, -, hhistory₄, hrow₄, h₄⟩ :=
    Session.passes (hcall (.getWorkflowComponents workflowId) rfl) hrow₃ (hchanged hactive) h₃
  obtain ⟨t₅, desired, s₅, u₅, rfl, -, hhistory₅, hrow₅, h₅⟩ :=
    Session.passes (hpure _) hrow₄ (hchanged hactive) h₄
  obtain ⟨t₆, _, s₆, u₆, rfl, -, hhistory₆, hrow₆, h₆⟩ :=
    Session.passes (replaceComponents_leaves _ _ _ _) hrow₅ (hchanged hactive) h₅
  -- the state is saved: the row of the workflow is another one from here on
  rcases Action.runs_bind.mp h₆ with ⟨e, rfl, hsave⟩ | ⟨t₇, saved, s₇, u₇, rfl, hsave, h₇⟩
  · obtain ⟨_, clock, -, -, _, houtcome, -⟩ :=
      session_writes (fun _ => rfl) (fun _ hothers => hothers.keeps_row hrow₆) hsave
    cases houtcome
  obtain ⟨before, clock, hothers₇, hsaves, -⟩ :=
    session_writes (fun _ => rfl) (fun _ hothers => hothers.keeps_row hrow₆) hsave
  have hactive' : (row.saved state cursor clock).status = .active := hactive
  have hsaved : read.events.Extends s₇.events := by
    rw [hsaves.events]
    exact History.events_extend (hhistory₄.trans (hhistory₅.trans (hhistory₆.trans hothers₇)))
  obtain ⟨t₈, components, s₈, u₈, rfl, -, hhistory₈, hrow₈, h₈⟩ :=
    Session.passes (hcall (.getWorkflowComponents workflowId) rfl) hsaves.row (hchanged hactive') h₇
  obtain ⟨t₉, completed, s₉, u₉, rfl, hcompleted, hhistory₉, hrow₉, h₉⟩ :=
    Session.passes (hpure _) hrow₈ (hchanged hactive') h₈
  obtain ⟨rfl, hresult, rfl⟩ := Action.runs_ofExcept.mp hcompleted
  have hreached : read.events.Extends s₉.events := hsaved.trans hhistory₈.events_extend
  refine ⟨read, state, cursor, hhistory₁.trans hhistory₂, by simp, hreplays.symm, ?_⟩
  cases completed with
  | some result =>
    obtain ⟨final, later, hothers, hfinishes, -⟩ :=
      session_writes (fun _ => rfl) (fun _ hothers => hothers.keeps_row hrow₉) h₉
    obtain rfl := Option.some.inj (hrow'.symm.trans hfinishes.row)
    refine ⟨?_, rfl, fun _ => ⟨_, components, result, hresult.symm, rfl⟩⟩
    rw [hfinishes.events]
    exact hreached.trans hothers.events_extend
  | none =>
    obtain ⟨t₁₀, failed, s₁₀, u₁₀, rfl, -, hhistory₁₀, hrow₁₀, h₁₀⟩ :=
      Session.passes (hpure _) hrow₉ (hchanged hactive') h₉
    cases failed with
    | some reason =>
      obtain ⟨final, later, hothers, hfinishes, -⟩ :=
        session_writes (fun _ => rfl) (fun _ hothers => hothers.keeps_row hrow₁₀) h₁₀
      obtain rfl := Option.some.inj (hrow'.symm.trans hfinishes.row)
      refine ⟨?_, rfl, fun hsucceeded => by cases hsucceeded⟩
      rw [hfinishes.events]
      exact hreached.trans (History.events_extend (hhistory₁₀.trans hothers))
    | none =>
      obtain ⟨-, -, rfl⟩ := Action.runs_pure.mp h₁₀
      exact absurd hrow₁₀ (hchanged hactive')

end TPUSwarm
