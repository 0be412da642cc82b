import TPUSwarm.Common.Pool
import TPUSwarm.Handlers

/-!
# The service around one workflow engine

All workflows are submitted and reconciled by one workflow engine. Any number of its calls run
transaction by transaction among the other calls of the store, and each may be abandoned anywhere.
-/

namespace TPUSwarm

open Common

/-- The call is one that only the workflow engine makes. -/
def Call.isEngine : Call → Bool
  | .submitWorkflow _ _ _ | .replaceComponent _ _ | .saveWorkflowState _ _ _ | .completeWorkflow _ _ |
    .failWorkflow _ _ => true
  | _ => false

/-- The effect of one operation of the workflow engine, which only calls the store. -/
inductive Issues : (op : Operation) → SwarmStore → op.Reply → SwarmStore → Prop
  | store {call now store} (clock : Time) :
      Issues (.store call now) store (call.perform (now.getD clock) store).1 (call.perform (now.getD clock) store).2

/-- Submissions and reconciliations of one engine, indexed by `ι`. Beside them, any call that is not the
engine's may happen at any time. -/
def services (ι : Type) (engine : WorkflowEngine) :
    Pool ι SwarmStore (Except PyError WorkflowRecord) Operation Operation.Reply where
  exec _ := Issues
  begins _ _ store program store' := store' = store ∧
    ((∃ spec, program = (engine.submit spec).run) ∨ ∃ workflowId, program = (engine.reconcile workflowId).run)
  crash _ store _ store' := store' = store
  env store store' := ∃ (call : Call) (now : Time), call.isEngine = false ∧ store' = (call.perform now store).2

/-- The store is empty, and nothing is under way. -/
def servicesInitial (ι : Type) (engine : WorkflowEngine) : (services ι engine).State :=
  ⟨.empty, fun _ => .pure (.error ⟨.runtime, ""⟩)⟩

variable {ι : Type} [DecidableEq ι] {engine : WorkflowEngine}

/-- A choice of the next step of the service. -/
inductive ServiceCommand (ι : Type)
  | submit (i : ι) (spec : WorkflowSpec)
  | reconcile (i : ι) (workflowId : String)
  | store (i : ι) (clock : Time)
  | crash (i : ι)
  | other (call : Call) (now : Time)

/-- The step a command chooses, if it is possible. -/
def servicePlay (engine : WorkflowEngine) : ServiceCommand ι → (services ι engine).State →
    Option (services ι engine).State
  | .submit i spec, s =>
    if (s.progs i).finished then some ⟨s.world, Function.update s.progs i (engine.submit spec).run⟩ else none
  | .reconcile i workflowId, s =>
    if (s.progs i).finished then some ⟨s.world, Function.update s.progs i (engine.reconcile workflowId).run⟩
      else none
  | .store i clock, s =>
    match s.progs i with
    | .op (.store call now) next =>
      let performed := call.perform (now.getD clock) s.world
      some ⟨performed.2, Function.update s.progs i (next performed.1)⟩
    | _ => none
  | .crash i, s => some ⟨s.world, Function.update s.progs i (.pure (.error ⟨.runtime, ""⟩))⟩
  | .other call now, s => if call.isEngine = false then some ⟨(call.perform now s.world).2, s.progs⟩ else none

/-- Commands choose steps of the service. -/
theorem servicePlay_step {command : ServiceCommand ι} {s s' : (services ι engine).State}
    (h : servicePlay engine command s = some s') : (services ι engine).Step s s' := by
  have hidle {i : ι} (hfinished : (s.progs i).finished = true) : ∃ last, s.progs i = .pure last := by
    cases hprog : s.progs i with
    | pure last => exact ⟨last, rfl⟩
    | op c next =>
      rw [hprog] at hfinished
      cases hfinished
  cases command with
  | submit i spec =>
    obtain ⟨hfinished, heq⟩ := Option.ite_none_right_eq_some.mp h
    obtain ⟨last, hlast⟩ := hidle hfinished
    cases heq
    exact .begin i hlast ⟨rfl, Or.inl ⟨spec, rfl⟩⟩
  | reconcile i workflowId =>
    obtain ⟨hfinished, heq⟩ := Option.ite_none_right_eq_some.mp h
    obtain ⟨last, hlast⟩ := hidle hfinished
    cases heq
    exact .begin i hlast ⟨rfl, Or.inr ⟨workflowId, rfl⟩⟩
  | store i clock =>
    simp only [servicePlay] at h
    split at h
    · rename_i call now next hop
      cases h
      exact .act i hop (.store clock)
    · cases h
  | crash i =>
    cases h
    exact .crash i rfl
  | other call now =>
    obtain ⟨hcall, heq⟩ := Option.ite_none_right_eq_some.mp h
    cases heq
    exact .env ⟨call, now, hcall, rfl⟩

/-- What commands lead to is reached by a run. -/
theorem run_of_servicePlays {commands : List (ServiceCommand ι)} {s s' : (services ι engine).State}
    (h : Pool.plays (servicePlay engine) commands s = some s') : (services ι engine).Run s s' :=
  Pool.star_of_plays (fun _ _ _ => servicePlay_step) h

end TPUSwarm
