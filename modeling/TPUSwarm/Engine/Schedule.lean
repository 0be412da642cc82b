import TPUSwarm.Engine.System

/-!
# Scheduled runs of reconciliations

An executable way to choose the steps of a run of reconciliations and other calls.
-/

namespace TPUSwarm

open Common

variable {ι : Type} [DecidableEq ι] {registry : TaskRegistry}

/-- A choice of the next step of a pool of reconciliations. -/
inductive EngineCommand (ι : Type)
  | begin (i : ι) (workflowId : String)
  | store (i : ι) (clock : Time)
  | other (call : Call) (now : Time)

/-- The records after a call, whatever its outcome. -/
def Records.after (records : Records) (call : Call) (now : Time) : Except PyError call.Result × Records :=
  match call.run now records.store with
  | .ok (result, store') => (.ok result, ⟨store', records.submitted ++ call.submission?.toList⟩)
  | .error e => (.error e, records)

/-- The records after a call are those that it leaves. -/
theorem Records.performs_after (records : Records) (call : Call) (now : Time) :
    records.Performs call now (records.after call now).1 (records.after call now).2 := by
  unfold Records.after
  split
  · rename_i result store' hrun
    exact .returns ⟨hrun, rfl⟩
  · rename_i e hrun
    exact .raises hrun

/-- The step a command chooses, if it is possible. -/
def enginePlay (registry : TaskRegistry) :
    EngineCommand ι → (reconciliations ι registry).State → Option (reconciliations ι registry).State
  | .begin i workflowId, s =>
    match s.progs i with
    | .pure _ => some ⟨s.world, Function.update s.progs i (WorkflowEngine.reconcile ⟨registry⟩ workflowId).run⟩
    | .op _ _ => none
  | .store i clock, s =>
    match s.progs i with
    | .op (.store call now) next =>
      let performed := s.world.after call (now.getD clock)
      some ⟨performed.2, Function.update s.progs i (next performed.1)⟩
    | _ => none
  | .other call now, s =>
    if call.isSave = false then some ⟨(s.world.after call now).2, s.progs⟩ else none

/-- Commands choose steps of the pool. -/
theorem enginePlay_step {command : EngineCommand ι} {s s' : (reconciliations ι registry).State}
    (h : enginePlay registry command s = some s') : (reconciliations ι registry).Step s s' := by
  cases command with
  | begin i workflowId =>
    simp only [enginePlay] at h
    split at h
    · rename_i last hlast
      cases h
      exact .begin i hlast ⟨rfl, workflowId, rfl⟩
    · cases h
  | store i clock =>
    simp only [enginePlay] at h
    split at h
    · rename_i call now next hop
      cases h
      exact .act i hop (.store (s.world.performs_after call _))
    · cases h
  | other call now =>
    simp only [enginePlay] at h
    split at h
    · rename_i hcall
      cases h
      exact .env ⟨call, now, _, hcall, s.world.performs_after call now⟩
    · cases h

/-- What commands lead to is reached by a run. -/
theorem run_of_enginePlays {commands : List (EngineCommand ι)} {s s' : (reconciliations ι registry).State}
    (h : Pool.plays (enginePlay registry) commands s = some s') : (reconciliations ι registry).Run s s' := by
  refine Pool.star_of_plays ?_ h
  exact fun _ _ _ hplay => enginePlay_step hplay

/-- A handler that counts the events of its workflow and never finishes. -/
def countingHandler : MultiAutoResumable where
  initialState _ := .ok (Dict.ofList [("count", .int 0)])
  reduce state _ := .ok (state.set "count" (.int (match (state.get? "count").map Json.view with
    | some (.int n) => n + 1
    | _ => 0)))
  desiredComponents _ _ := .ok []

/-- A registry with this handler. -/
def countingRegistry : TaskRegistry where
  workflows := Dict.ofList [("tree", countingHandler)]

/-- The sample registry knows the sample handler. -/
theorem countingRegistry_tree : countingRegistry.workflow "tree" = .ok countingHandler := rfl

/-- A workflow of this kind without components is submitted. One reconciliation reads its first
event and stops before it saves; another one saves after a second event; then the first one saves. -/
def staleCommands : List (EngineCommand Bool) :=
  [.other (.submitWorkflow ⟨"tree", Dict.empty, "w1", .independent, Dict.empty, by decide +kernel⟩ []
      (Dict.ofList [("count", .int 0)])) 0,
    .other (.commitBarrier "w1" 1 none) 1, .begin false "w1", .store false 2, .store false 2, .store false 2,
    .other (.commitBarrier "w1" 2 none) 3, .begin true "w1", .store true 4, .store true 4, .store true 4,
    .store true 4, .store true 4, .store false 5]

end TPUSwarm
