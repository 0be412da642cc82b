import TPUSwarm.Common.Pool
import TPUSwarm.Controller
import TPUSwarm.Invariants.EventTruth

/-!
# One controller, the HTTP API and the backend

The runs of a single controller: its cycles, operation by operation, crashes between any
two operations, and API calls in between. A deployment says which controllers are
configured, how the backend answers, and in which states a batch is admitted.
-/

namespace TPUSwarm

open Common Relation

/-- A job that a launch created. -/
structure RemoteJob where
  jobId : String
  name : String
deriving DecidableEq

/-- The store, the jobs created so far, and the list of jobs received last. -/
structure Site where
  store : SwarmStore
  created : List RemoteJob
  listed : List ExecutorJob

/-- The site before anything happened. -/
def Site.initial : Site := ⟨SwarmStore.empty, [], []⟩

/-- What surrounds the controller. A launch answers and creates jobs. -/
structure Deployment where
  controllers : TPUSwarmController → Prop
  lists : Site → List ExecutorJob → Prop
  launches : Site → ManagedJobSpec → Except PyError ExecutorJob → List RemoteJob → Prop
  admits : Site → Prop := fun _ => True

namespace Deployment

variable (D : Deployment)

/-- The effect of one operation. A listing may fail with any exception. -/
inductive Executes : (op : Operation) → Site → op.Reply → Site → Prop
  | store {site call now clock outcome store'}
      (hadmits : call.isAdmission = true → D.admits site)
      (hperform : call.perform (now.getD clock) site.store = (outcome, store')) :
      Executes (.store call now) site outcome { site with store := store' }
  | listJobs {site jobs} (hlists : D.lists site jobs) :
      Executes .listJobs site (.ok jobs) { site with listed := jobs }
  | listFails {site e} : Executes .listJobs site (.error e) site
  | launch {site task spec priority outcome jobs} (hlaunches : D.launches site spec outcome jobs) :
      Executes (.launch task spec priority) site outcome { site with created := site.created ++ jobs }

/-- A call of the HTTP API. -/
def ApiCall (site site' : Site) : Prop :=
  ∃ (call : Call) (now : Time), call.isApi = true ∧
    site' = { site with store := (call.perform now site.store).2 }

/-- The pool of a single controller. A cycle starts from the lease the last one left; a crash
loses it. -/
def system : Pool Unit Site CycleOutcome Operation Operation.Reply where
  exec _ := D.Executes
  begins _ last site program site' :=
    site' = site ∧ ∃ controller now, D.controllers controller ∧
      program = controller.reconcileOnce last.2 now
  crash _ site outcome site' := site' = site ∧ outcome.2 = none
  env := ApiCall

/-- A state of the single controller system. -/
abbrev SystemState : Type := D.system.State

/-- The outcome of a process that has not run a cycle yet. -/
def notRun : CycleOutcome := (.error ⟨.runtime, ""⟩, none)

/-- No cycle is under way and nothing happened yet. -/
def initial : D.SystemState := ⟨Site.initial, fun _ => .pure notRun⟩

/-- A state that a run from the beginning reaches. -/
def Reachable (s : D.SystemState) : Prop := D.system.Run D.initial s

variable {D}

/-- What a step does to the store: nothing, or what a call of the API or of the controller does. -/
theorem step_call {s s' : D.SystemState} (h : D.system.Step s s') : s'.world.store = s.world.store ∨
    ∃ (call : Call) (now : Time) (result : call.Result), call.run now s.world.store = .ok (result, s'.world.store) ∧
      (call.isApi = true ∨ ∃ time next, s.progs () = .op (.store call time) next) := by
  cases h with
  | act i hop hexec =>
    cases hexec with
    | store _ hperform =>
      rcases Call.perform_cases hperform with ⟨_, -, hsame⟩ | ⟨result, -, hrun⟩
      · exact Or.inl hsame
      · exact Or.inr ⟨_, _, result, hrun, Or.inr ⟨_, _, hop⟩⟩
    | _ => exact Or.inl rfl
  | begin i hidle hbegin => exact Or.inl (congrArg Site.store hbegin.1)
  | crash i hcrash => exact Or.inl (congrArg Site.store hcrash.1)
  | env henv =>
    obtain ⟨call, now, hapi, rfl⟩ := henv
    rcases call.perform_store now s.world.store with hsame | ⟨result, hrun⟩
    · exact Or.inl hsame
    · exact Or.inr ⟨call, now, result, hrun, Or.inl hapi⟩

end Deployment

end TPUSwarm
