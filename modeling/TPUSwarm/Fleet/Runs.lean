import TPUSwarm.Fleet.Fencing
import TPUSwarm.Solo.Schedule

/-!
# Runs of many controllers

A cycle asks for leadership, renews, and goes on with operations that look at no lease. While
it does, every other party keeps the lease fenced: another controller takes over only when
it has ended. So an effect is covered by the row, or comes from a superseded controller.
-/

namespace TPUSwarm

open Common Relation

variable {ι : Type} [DecidableEq ι]

/-- A controller makes a permitted operation, or starts a cycle. -/
def FleetMove (controllers : ι → TPUSwarmController) (i : ι) (site site' : FleetSite ι) : Prop :=
  (∃ (op : Operation) (reply : op.Reply), FleetPermitted controllers i op site ∧
      FleetExecutes i op site reply site') ∨
    ∃ now, site.clock ≤ now ∧
      site' = { site with clock := now, renewed := Function.update site.renewed i none }

/-- A call of the HTTP API. -/
def FleetApi (site site' : FleetSite ι) : Prop :=
  ∃ (call : Call) (now : Time), call.isApi = true ∧ site.clock ≤ now ∧
    site' = { site with store := (call.perform now site.store).2, clock := now }

/-- The site itself is the machine. A controller keeps no lease but its own. -/
def fleetSimulation (controllers : ι → TPUSwarmController) : (fleet controllers).Simulation (FleetSite ι) where
  view := id
  inv _ := True
  move := FleetMove controllers
  envMove := FleetApi
  permitted := FleetPermitted controllers
  leaves i last _ := ∀ lease, last.2 = some lease → lease.controllerId = (controllers i).controllerId
  inv_move _ _ _ _ _ := trivial
  inv_env _ _ _ _ := trivial

/-- What the cycles of one controller have to follow. -/
abbrev fleetCycle (controllers : ι → TPUSwarmController) (i : ι) := (fleetSimulation controllers).abstraction i

variable {controllers : ι → TPUSwarmController} {site site' : FleetSite ι} {i : ι} {lease : ControllerLease}

/-- Noting a call leaves the clock alone. -/
theorem FleetSite.clock_noting (site : FleetSite ι) (i : ι) (now : Time) (call : Call)
    (outcome : Except PyError call.Result) : (site.noting i now call outcome).clock = site.clock := by
  unfold noting
  split <;> rfl

/-- The clock never goes back. -/
theorem FleetMove.clock (h : FleetMove controllers i site site') : site.clock ≤ site'.clock := by
  rcases h with ⟨op, reply, -, hexec⟩ | ⟨now, hnow, rfl⟩
  · cases hexec with
    | store hclock hperform => exact le_trans hclock (FleetSite.clock_noting _ i _ _ _).ge
    | listJobs hclock => exact hclock
    | launch hclock => exact hclock
  · exact hnow

/-- A reading of the clock stays in the past. -/
theorem read_stable (now : Time) : (fleetCycle controllers i).Stable fun site => now ≤ site.clock := by
  rintro site site' (⟨call, time, -, hclock, rfl⟩ | ⟨j, -, hmove⟩) hnow
  · exact le_trans hnow hclock
  · exact le_trans hnow hmove.clock

/-- Nothing that others do ends a lead. -/
theorem Leads.stable (hids : Function.Injective fun i => (controllers i).controllerId) :
    (fleetCycle controllers i).Stable (Leads controllers i lease) := by
  rintro site site' (⟨call, now, hcall, hclock, rfl⟩ |
    ⟨j, hij, ⟨op, reply, hpermitted, hexec⟩ | ⟨now, hclock, rfl⟩⟩) h
  · have hleadership : call.isLeadership = false := by cases call <;> first | rfl | cases hcall
    exact ⟨h.renewed, h.owner,
      h.fenced.mono (Call.perform_leadership hleadership now site.store) (List.Subset.refl _) hclock⟩
  · exact h.other hids hij hpermitted hexec
  · exact ⟨(Function.update_of_ne (Ne.symm hij) _ _).trans h.renewed, h.owner,
      h.fenced.mono rfl (List.Subset.refl _) hclock⟩

omit [DecidableEq ι] in
/-- A controller that leads may do what a cycle does after its renewal. -/
theorem Leads.permits (h : Leads controllers i lease site) {op : Operation} (hop : op.isLeadership = false) :
    FleetPermitted controllers i op site := by
  cases op with
  | store call now => cases call <;> first | exact fun _ => ⟨lease, h⟩ | cases hop
  | listJobs => exact fun _ => ⟨lease, h⟩
  | launch task job priority => exact fun _ => ⟨lease, h⟩

/-- After its renewal a cycle leads, whatever others do. -/
theorem fleet_cycle (hids : Function.Injective fun i => (controllers i).controllerId) (now : Time)
    (h : Leads controllers i lease site) :
    ((controllers i).cycle now).Follows (fleetCycle controllers i) (fun _ => Leads controllers i lease)
      (fun _ => Leads controllers i lease) site := by
  refine Action.Follows.of_uses _ (Leads.stable hids) (fun op hop m _ hm => ⟨hm.permits hop, fun r m' hexec => ?_⟩)
    ((controllers i).uses_cycle now) h
  exact ⟨m', .single (Or.inl ⟨op, r, hm.permits hop, hexec⟩), rfl, hm.frame hop hexec⟩

/-- A controller that holds a lease holds one of its own. -/
def OwnLease (controllers : ι → TPUSwarmController) (i : ι) (lease : Option ControllerLease) : Prop :=
  ∀ held, lease = some held → held.controllerId = (controllers i).controllerId

/-- The lease that a cycle goes on with is the controller's own. -/
theorem fleet_heldLease {held : Option ControllerLease} (hheld : OwnLease controllers i held) {now : Time}
    (hnow : now ≤ site.clock) :
    ((controllers i).heldLease held now).Follows (fleetCycle controllers i)
      (fun lease m => OwnLease controllers i lease ∧ now ≤ m.clock) (fun _ _ => True) site := by
  have hstable (lease : Option ControllerLease) :
      (fleetCycle controllers i).Stable fun m => OwnLease controllers i lease ∧ now ≤ m.clock :=
    fun m m' hothers hm => ⟨hm.1, read_stable now m m' hothers hm.2⟩
  cases held with
  | some held =>
    exact Action.Follows.pure (Q := fun lease (m : FleetSite ι) => OwnLease controllers i lease ∧ now ≤ m.clock)
      (hstable _) ⟨hheld, hnow⟩
  | none =>
    refine Prog.Follows.issue (S := fleetCycle controllers i) (c := .store (.acquireLeadership _ _) (some now))
      (read_stable now) (fun r => ?_) (fun m _ hm => ⟨⟨rfl, now, rfl, hm⟩, fun r m' hexec => ?_⟩) hnow
    · cases r with
      | ok lease => exact hstable lease
      | error e => exact fun _ _ _ _ => trivial
    · have hmove : FleetMove controllers i m m' := Or.inl ⟨_, r, ⟨rfl, now, rfl, hm⟩, hexec⟩
      refine ⟨m', .single hmove, rfl, ?_⟩
      cases r with
      | error e => trivial
      | ok lease =>
        refine ⟨fun held hsome => ?_, ?_⟩
        · subst hsome
          cases hexec with
          | store hclock hperform =>
            rcases Call.perform_cases hperform with ⟨e, heq, -⟩ | ⟨result, heq, hrun⟩
            · cases heq
            · cases heq
              exact (SwarmStore.acquireLeadership_some hrun).1
        · exact le_trans hm hmove.clock

/-- A renewal that succeeds makes the controller lead. -/
theorem fleet_renew (hids : Function.Injective fun i => (controllers i).controllerId) {held : ControllerLease}
    (hheld : held.controllerId = (controllers i).controllerId) {seconds now : Time} (hnow : now ≤ site.clock) :
    (callStore (.renewLeadership held seconds) (some now)).Follows (fleetCycle controllers i)
      (fun lease => Leads controllers i lease) (fun _ _ => True) site := by
  refine Prog.Follows.issue (S := fleetCycle controllers i) (c := .store (.renewLeadership held seconds) (some now))
    (read_stable now) (fun r => ?_) (fun m _ hm => ⟨⟨hheld, now, rfl, hm⟩, fun r m' hexec => ?_⟩) hnow
  · cases r with
    | ok lease => exact Leads.stable hids
    | error e => exact fun _ _ _ _ => trivial
  · refine ⟨m', .single (Or.inl ⟨_, r, ⟨hheld, now, rfl, hm⟩, hexec⟩), rfl, ?_⟩
    cases r with
    | error e => trivial
    | ok renewed =>
      cases hexec with
      | store hclock hperform =>
        rcases Call.perform_cases hperform with ⟨e, heq, -⟩ | ⟨result, heq, hrun⟩
        · cases heq
        · cases heq
          exact Leads.of_renewed hheld hrun

/-- A cycle has effects only while its controller leads. -/
theorem fleet_reconcileOnce (hids : Function.Injective fun i => (controllers i).controllerId)
    {held : Option ControllerLease} (hheld : OwnLease controllers i held) {now : Time} (hnow : now ≤ site.clock) :
    ((controllers i).reconcileOnce held now).Follows (fleetCycle controllers i)
      ((fleetSimulation controllers).leaves i) site := by
  have hleaves (last : CycleOutcome) (hlast : OwnLease controllers i last.2) (m : FleetSite ι) :
      (pure last : Prog Operation Operation.Reply CycleOutcome).Follows (fleetCycle controllers i)
        ((fleetSimulation controllers).leaves i) m := fun _ _ _ => hlast
  unfold TPUSwarmController.reconcileOnce
  refine Prog.Follows.bind (fleet_heldLease hheld hnow) fun outcome m _ hm => ?_
  cases outcome with
  | error e => exact hleaves _ hheld m
  | ok lease =>
    obtain ⟨hown, hnow⟩ := hm
    cases lease with
    | none => exact hleaves _ (fun _ h => (by cases h)) m
    | some held =>
      refine Prog.Follows.bind (fleet_renew hids (hown held rfl) hnow) fun renewal m _ hm => ?_
      cases renewal with
      | error e =>
        dsimp only
        split
        · exact hleaves _ (fun _ h => (by cases h)) m
        · exact hleaves _ hown m
      | ok renewed =>
        refine Prog.Follows.bind (fleet_cycle hids now hm) fun result m' _ _ => hleaves (result, some renewed) ?_ m'
        exact fun _ h => Option.some.inj h ▸ hm.owner

/-- The site matches the pool: operations, crashes, new cycles and API calls. -/
theorem fleetSimulation_matches (hids : Function.Injective fun i => (controllers i).controllerId) :
    (fleetSimulation controllers).Matches where
  env _ site' _ henv := ⟨site', henv, rfl⟩
  crash i site outcome site' _ hcrash := by
    obtain ⟨rfl, hlost⟩ := hcrash
    refine ⟨site', .refl, rfl, fun _ _ _ lease hlease => ?_⟩
    rw [hlost] at hlease
    cases hlease
  begins i last site program site' _ hleft hbegins := by
    obtain ⟨now, hclock, rfl, rfl⟩ := hbegins
    exact ⟨_, .single (Or.inr ⟨now, hclock, rfl⟩), rfl, fleet_reconcileOnce hids hleft le_rfl⟩

/-- In every interleaving, a controller that is about to write tasks, workflows, components or events,
or to launch a job, is in a cycle in which it renewed a lease, and the row carries this lease unless
another controller has acquired leadership, with a larger token, after the lease had ended. -/
theorem effects_fenced (hids : Function.Injective fun i => (controllers i).controllerId)
    {s : (fleet controllers).State} (h : (fleet controllers).Run (fleetInitial controllers) s) {i : ι}
    {op : Operation} {next : op.Reply → Prog Operation Operation.Reply CycleOutcome}
    (hop : s.progs i = .op op next) (heffect : op.isEffect = true) :
    ∃ lease, Leads controllers i lease s.world := by
  have hstart : (fleetSimulation controllers).Related (FleetSite.initial ι) (fleetInitial controllers) :=
    Pool.Simulation.Related.of_finished _ rfl trivial fun i => ⟨_, rfl, fun _ _ hlease => (by cases hlease)⟩
  obtain ⟨m, -, hrelated⟩ := Pool.Simulation.run (fleetSimulation_matches hids) hstart h
  obtain rfl : m = s.world := hrelated.view
  have hpermitted := hrelated.permitted hop
  cases op with
  | store call now => cases call <;> first | exact hpermitted heffect | cases heffect
  | listJobs => cases heffect
  | launch task job priority => exact hpermitted heffect

/-- Two controllers with the sample handlers. -/
def twoControllers (second : Bool) : TPUSwarmController :=
  { sampleController with controllerId := if second then "b" else "a" }

/-- The two controllers have different ids. -/
theorem twoControllers_ids : Function.Injective fun i => (twoControllers i).controllerId := by
  intro i j
  cases i <;> cases j <;> decide

/-- A task is submitted, and the first controller renews a lease that ends at 30. -/
def renewCommands : List (FleetCommand Bool) :=
  [.api (.submitTask sampleTask) 0, .begin false 0, .store false 0, .store false 0]

/-- The first controller receives the job list and goes on until it launches the task. -/
def proceedCommands (clock : Time) : List (FleetCommand Bool) :=
  [.list false [] clock, .store false clock, .store false clock, .store false clock]

/-- The second controller takes over. -/
def takeoverCommands : List (FleetCommand Bool) := [.begin true 31, .store true 31, .store true 31]

/-- Commands of two controllers after which the first one is about to have an effect, while the row
names a controller. -/
def launchesUnder (controllerId : String) (commands : List (FleetCommand Bool)) : Bool :=
  (Pool.plays (fleetPlay twoControllers) commands (fleetInitial twoControllers)).any fun s =>
    (match s.progs false with
      | .op op _ => op.isEffect
      | .pure _ => false) && s.world.store.leadership.any (·.controllerId = controllerId)

/-- The check gives a run to an effect of the first controller, while the row names the given one. -/
theorem launchesUnder_run {controllerId : String} {commands : List (FleetCommand Bool)}
    (h : launchesUnder controllerId commands = true) :
    ∃ s, (fleet twoControllers).Run (fleetInitial twoControllers) s ∧
      (∃ op next, s.progs false = .op op next ∧ op.isEffect = true) ∧
        ∃ row, s.world.store.leadership = some row ∧ row.controllerId = controllerId := by
  obtain ⟨s, hs, hcheck⟩ := (Option.any_eq_true _ _).mp h
  obtain ⟨hprog, hrow⟩ := Bool.and_eq_true_iff.mp hcheck
  obtain ⟨row, hrow, hid⟩ := (Option.any_eq_true _ _).mp hrow
  refine ⟨s, run_of_fleetPlays hs, ?_, row, hrow, of_decide_eq_true hid⟩
  split at hprog
  · rename_i op next hop
    exact ⟨op, next, hop, hprog⟩
  · cases hprog

/-- A controller that launches before its lease ends. -/
theorem effects_fenced_launch : ∃ s, (fleet twoControllers).Run (fleetInitial twoControllers) s ∧
    ∃ op next, s.progs false = .op op next ∧ op.isEffect = true ∧
      ∃ lease, Leads twoControllers false lease s.world := by
  obtain ⟨s, hrun, ⟨op, next, hop, heffect⟩, -⟩ :=
    launchesUnder_run (show launchesUnder "a" (renewCommands ++ proceedCommands 20) = true by decide +kernel)
  exact ⟨s, hrun, op, next, hop, heffect, effects_fenced twoControllers_ids hrun hop heffect⟩

/-- A controller waits for the job list until another one has taken over, and then launches. -/
theorem superseded_launches : (Function.Injective fun i => (twoControllers i).controllerId) ∧
    ∃ s, (fleet twoControllers).Run (fleetInitial twoControllers) s ∧
      (∃ op next, s.progs false = .op op next ∧ op.isEffect = true) ∧
        ∃ row, s.world.store.leadership = some row ∧ row.controllerId ≠ (twoControllers false).controllerId := by
  obtain ⟨s, hrun, heffect, row, hrow, hid⟩ := launchesUnder_run
    (show launchesUnder "b" (renewCommands ++ takeoverCommands ++ proceedCommands 32) = true by decide +kernel)
  refine ⟨twoControllers_ids, s, hrun, heffect, row, hrow, ?_⟩
  rw [hid]
  decide

end TPUSwarm
