import TPUSwarm.Session.Calls
import TPUSwarm.Store.Links

/-!
# A reconciliation on its own

A reconciliation reads the workflow, its new events and its components before it writes
anything. What it reads and computes then is its plan. With nobody else around, the rest of
it is determined by the plan: the loop over the desired components, and the conclusion.
-/

namespace TPUSwarm

open Common SwarmStore

/-- The part of `reconcile` after the loop: what was replayed is saved, and the workflow finished. -/
def MultiAutoResumable.conclude (handler : MultiAutoResumable) (workflowId : String) (state : Mapping)
    (cursor : ℕ) : Effect WorkflowRecord := do
  let workflow : WorkflowRecord ← callStore (.saveWorkflowState workflowId state cursor) none
  let components ← callStore (.getWorkflowComponents workflowId) none
  match ← Action.ofExcept (handler.completionResult workflow state components) with
  | some result => callStore (.completeWorkflow workflowId result) none
  | none =>
    match ← Action.ofExcept (handler.failureReason workflow state components) with
    | some reason => callStore (.failWorkflow workflowId reason) none
    | none => return workflow

/-- What a reconciliation has before it writes anything: an active workflow, its handler, the state after
the events behind the cursor, and the components desired then. -/
structure Plan (engine : WorkflowEngine) (store : SwarmStore) (workflowId : String) where
  row : WorkflowRow
  handler : MultiAutoResumable
  state : Mapping
  cursor : ℕ
  desired : List ComponentSpec
  found : store.workflow? workflowId = some row
  active : row.status = .active
  handles : engine.registry.workflow row.kind = .ok handler
  replays : WorkflowEngine.replay handler (loads row.stateJson) row.eventCursor
    (store.getWorkflowEvents workflowId row.eventCursor) = .ok (state, cursor)
  desires : handler.desiredComponents { row.toRecord with state := state, eventCursor := cursor } state =
    .ok desired

variable {engine : WorkflowEngine} {store mid store' : SwarmStore} {workflowId : String}
  {trace : List (Sigma Operation.Reply)}

/-- What the plan was read from. -/
def Plan.reads (plan : Plan engine store workflowId) : List (Sigma Operation.Reply) :=
  [⟨.store (.getWorkflow workflowId) none, .ok plan.row.toRecord⟩,
    ⟨.store (.getWorkflowEvents workflowId plan.row.eventCursor) none,
      .ok (store.getWorkflowEvents workflowId plan.row.eventCursor)⟩,
    ⟨.store (.getWorkflowComponents workflowId) none, .ok (store.getWorkflowComponents workflowId)⟩]

/-- What the plan leaves to do. -/
def Plan.remaining (plan : Plan engine store workflowId) : Effect WorkflowRecord := do
  engine.replaceComponents workflowId (store.getWorkflowComponents workflowId) plan.desired
  plan.handler.conclude workflowId plan.state plan.cursor

/-- An answer with nobody else around. -/
theorem answers_noCall {call : Call} {now : Option Time} {outcome : Except PyError call.Result} :
    Answers noCall (.store call now) store outcome store' ↔
      ∃ clock, call.perform (now.getD clock) store = (outcome, store') := by
  constructor
  · rintro (⟨hothers, hperform⟩ | _)
    rw [History.of_noCall hothers] at hperform
    exact ⟨_, hperform⟩
  · rintro ⟨clock, hperform⟩
    exact .store .refl hperform

/-- A read with nobody else around. -/
theorem answers_read {call : Call} {result : call.Result} (h : ∀ now, call.run now store = .ok (result, store))
    {outcome : Except PyError call.Result} :
    Answers noCall (.store call none) store outcome store' ↔ outcome = .ok result ∧ store' = store := by
  rw [answers_noCall]
  constructor
  · rintro ⟨clock, hperform⟩
    rw [Call.perform, h] at hperform
    exact ⟨(Prod.mk.inj hperform).1.symm, (Prod.mk.inj hperform).2.symm⟩
  · rintro ⟨rfl, rfl⟩
    exact ⟨0, by rw [Call.perform, h]⟩

/-- With nobody else around, a program reads the store a few times, and goes on with another program. -/
inductive ReadsTo (store : SwarmStore) {α : Type} : Effect α → List (Sigma Operation.Reply) → Effect α → Prop
  | done {program : Effect α} : ReadsTo store program [] program
  | read {call : Call} {result : call.Result} {f : call.Result → Effect α} {reads : List (Sigma Operation.Reply)}
      {program : Effect α} (hread : ∀ now, call.run now store = .ok (result, store))
      (hrest : ReadsTo store (f result) reads program) :
      ReadsTo store (callStore call none >>= f) (⟨.store call none, .ok result⟩ :: reads) program

namespace ReadsTo

variable {α : Type} {program next : Effect α} {reads : List (Sigma Operation.Reply)}

/-- A session is what is read, and a session of what the program goes on with. -/
theorem session_iff (h : ReadsTo store program reads next) {outcome : Except PyError α} :
    Session noCall program store trace outcome store' ↔
      ∃ rest, trace = reads ++ rest ∧ Session noCall next store rest outcome store' := by
  induction h generalizing trace with
  | done => simp
  | read hread _ ih =>
    constructor
    · intro hrun
      cases hrun with
      | op hexec hrest =>
        obtain ⟨rfl, rfl⟩ := (answers_read hread).mp hexec
        obtain ⟨rest, rfl, hrun⟩ := ih.mp hrest
        exact ⟨rest, rfl, hrun⟩
    · rintro ⟨rest, rfl, hrun⟩
      exact .op ((answers_read hread).mpr ⟨rfl, rfl⟩) (ih.mpr ⟨rest, rfl, hrun⟩)

/-- A program that stops has stopped among its reads, or in what it goes on with. -/
theorem stops (h : ReadsTo store program reads next)
    (hstops : program.Stops (Answers noCall) store trace store') :
    store' = store ∨ ∃ rest, next.Stops (Answers noCall) store rest store' := by
  induction h generalizing trace with
  | done => exact Or.inr ⟨trace, hstops⟩
  | read hread _ ih =>
    cases hstops with
    | here => exact Or.inl rfl
    | op hexec hrest =>
      obtain ⟨rfl, rfl⟩ := (answers_read hread).mp hexec
      exact ih hrest

end ReadsTo

/-- A reconciliation reads its plan, and goes on with what the plan leaves to do. -/
theorem Plan.readsTo (plan : Plan engine store workflowId) :
    ReadsTo store (engine.reconcile workflowId) plan.reads plan.remaining := by
  have hactive : ¬ plan.row.toRecord.status ≠ .active := not_not.mpr plan.active
  have hhandles : engine.registry.workflow plan.row.toRecord.kind = .ok plan.handler := plan.handles
  have hreplays : WorkflowEngine.replay plan.handler plan.row.toRecord.state plan.row.toRecord.eventCursor
      (store.getWorkflowEvents workflowId plan.row.eventCursor) = .ok (plan.state, plan.cursor) := plan.replays
  have hdesires := plan.desires
  unfold WorkflowEngine.reconcile
  have hread (now : Time) : (Call.getWorkflow workflowId).run now store = .ok (plan.row.toRecord, store) := by
    exact Call.reading_eq_ok.mpr ⟨by rw [getWorkflow, plan.found]; rfl, rfl⟩
  refine .read hread ?_
  simp only [if_neg hactive, hhandles, Action.ofExcept_bind]
  refine .read (fun _ => rfl) ?_
  rw [hreplays]
  simp only [Action.ofExcept_bind]
  refine .read (fun _ => rfl) ?_
  rw [show plan.handler.desiredComponents _ _ = _ from hdesires]
  exact .done

end TPUSwarm
