import TPUSwarm.Common.Pool
import TPUSwarm.Controller
import TPUSwarm.Invariants.Leadership

/-!
# Many controllers over one store

The cycles of any number of controllers, operation by operation, with API calls in between
and a clock that never goes back. An operation may take any time. The site remembers which
leases were handed out, and the lease each controller renewed in its current cycle.
-/

namespace TPUSwarm

open Common Relation

/-- The store, the clock, the leases handed out, and the lease renewed in each current cycle. -/
structure FleetSite (ι : Type) where
  store : SwarmStore
  clock : Time
  issued : List Issue
  renewed : ι → Option ControllerLease

/-- The site before anything happened. -/
def FleetSite.initial (ι : Type) : FleetSite ι := ⟨.empty, 0, [], fun _ => none⟩

variable {ι : Type} [DecidableEq ι]

/-- Remember what a call for leadership returned. -/
def FleetSite.noting (site : FleetSite ι) (i : ι) (now : Time) :
    (call : Call) → Except PyError call.Result → FleetSite ι
  | .acquireLeadership _ _, .ok (some lease) =>
    { site with issued := site.issued ++ [⟨lease, now, true⟩] }
  | .renewLeadership _ _, .ok lease =>
    { site with issued := site.issued ++ [⟨lease, now, false⟩],
                renewed := Function.update site.renewed i (some lease) }
  | _, _ => site

/-- The effect of one operation of a controller, at a later reading of the clock. The backend may
answer anything. -/
inductive FleetExecutes (i : ι) : (op : Operation) → FleetSite ι → op.Reply → FleetSite ι → Prop
  | store {site call now clock outcome store'} (hclock : site.clock ≤ clock)
      (hperform : call.perform (now.getD clock) site.store = (outcome, store')) :
      FleetExecutes i (.store call now) site outcome
        (FleetSite.noting { site with store := store', clock := clock } i (now.getD clock) call outcome)
  | listJobs {site clock outcome} (hclock : site.clock ≤ clock) :
      FleetExecutes i .listJobs site outcome { site with clock := clock }
  | launch {site clock task spec priority outcome} (hclock : site.clock ≤ clock) :
      FleetExecutes i (.launch task spec priority) site outcome { site with clock := clock }

/-- Controllers indexed by `ι`. A cycle reads the clock when it starts. -/
def fleet (controllers : ι → TPUSwarmController) :
    Pool ι (FleetSite ι) CycleOutcome Operation Operation.Reply where
  exec := FleetExecutes
  begins i last site program site' := ∃ now, site.clock ≤ now ∧
    site' = { site with clock := now, renewed := Function.update site.renewed i none } ∧
      program = (controllers i).reconcileOnce last.2 now
  crash _ site outcome site' := site' = site ∧ outcome.2 = none
  env site site' := ∃ (call : Call) (now : Time), call.isApi = true ∧ site.clock ≤ now ∧
    site' = { site with store := (call.perform now site.store).2, clock := now }

/-- No controller has run yet. -/
def fleetInitial (controllers : ι → TPUSwarmController) : (fleet controllers).State :=
  ⟨FleetSite.initial ι, fun _ => .pure (.error ⟨.runtime, ""⟩, none)⟩

/-- A choice of the next step of a fleet. -/
inductive FleetCommand (ι : Type)
  | begin (i : ι) (now : Time)
  | store (i : ι) (clock : Time)
  | list (i : ι) (jobs : List ExecutorJob) (clock : Time)
  | api (call : Call) (now : Time)

/-- The step a command chooses, if it is possible. -/
def fleetPlay (controllers : ι → TPUSwarmController) :
    FleetCommand ι → (fleet controllers).State → Option (fleet controllers).State
  | .begin i now, s =>
    match s.progs i with
    | .pure last =>
      if s.world.clock ≤ now then
        some ⟨{ s.world with clock := now, renewed := Function.update s.world.renewed i none },
          Function.update s.progs i ((controllers i).reconcileOnce last.2 now)⟩
      else none
    | .op _ _ => none
  | .store i clock, s =>
    match s.progs i with
    | .op (.store call now) next =>
      if s.world.clock ≤ clock then
        let performed := call.perform (now.getD clock) s.world.store
        some ⟨FleetSite.noting { s.world with store := performed.2, clock := clock } i (now.getD clock) call
          performed.1, Function.update s.progs i (next performed.1)⟩
      else none
    | _ => none
  | .list i jobs clock, s =>
    match s.progs i with
    | .op .listJobs next =>
      if s.world.clock ≤ clock then
        some ⟨{ s.world with clock := clock }, Function.update s.progs i (next (.ok jobs))⟩
      else none
    | _ => none
  | .api call now, s =>
    if call.isApi = true ∧ s.world.clock ≤ now then
      some ⟨{ s.world with store := (call.perform now s.world.store).2, clock := now }, s.progs⟩
    else none

/-- Commands choose steps of the fleet. -/
theorem fleetPlay_step {controllers : ι → TPUSwarmController} {command : FleetCommand ι}
    {s s' : (fleet controllers).State} (h : fleetPlay controllers command s = some s') :
    (fleet controllers).Step s s' := by
  cases command with
  | begin i now =>
    simp only [fleetPlay] at h
    split at h
    · rename_i last hlast
      split at h
      · rename_i hclock
        cases h
        exact .begin i hlast ⟨now, hclock, rfl, rfl⟩
      · cases h
    · cases h
  | store i clock =>
    simp only [fleetPlay] at h
    split at h
    · rename_i call now next hop
      split at h
      · rename_i hclock
        cases h
        exact .act i hop (.store hclock rfl)
      · cases h
    · cases h
  | list i jobs clock =>
    simp only [fleetPlay] at h
    split at h
    · rename_i next hop
      split at h
      · rename_i hclock
        cases h
        exact .act i hop (.listJobs hclock)
      · cases h
    · cases h
  | api call now =>
    simp only [fleetPlay] at h
    split at h
    · rename_i hcall
      cases h
      exact .env ⟨call, now, hcall.1, hcall.2, rfl⟩
    · cases h

/-- What commands lead to is reached by a run. -/
theorem run_of_fleetPlays {controllers : ι → TPUSwarmController} {commands : List (FleetCommand ι)}
    {s s' : (fleet controllers).State} (h : Pool.plays (fleetPlay controllers) commands s = some s') :
    (fleet controllers).Run s s' := by
  refine Pool.star_of_plays ?_ h
  exact fun _ _ _ hplay => fleetPlay_step hplay

end TPUSwarm
