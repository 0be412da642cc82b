import TPUSwarm.Solo.System

/-!
# Scheduled runs of the single controller

An executable way to choose the steps of a run. What a schedule leads to is reachable, so
the general theorems about runs can be looked at on concrete ones.
-/

namespace TPUSwarm

open Common

namespace Deployment

/-- A choice of the next step, with the answer of whoever is asked. -/
inductive Command (D : Deployment)
  | begin (controller : { controller // D.controllers controller }) (now : Time)
  | store (clock : Time)
  | list (jobs : List ExecutorJob)
  | launch (outcome : Except PyError ExecutorJob) (jobs : List RemoteJob)
  | crash
  | api (call : Call) (now : Time)

variable (D : Deployment) [∀ site jobs, Decidable (D.lists site jobs)] [∀ site, Decidable (D.admits site)]
  [∀ site spec outcome jobs, Decidable (D.launches site spec outcome jobs)]

/-- The step a command chooses, if it is possible. -/
def play : D.Command → D.SystemState → Option D.SystemState
  | .begin controller now, s =>
    match s.progs () with
    | .pure last => some ⟨s.world, Function.update s.progs () (controller.1.reconcileOnce last.2 now)⟩
    | .op _ _ => none
  | .store clock, s =>
    match s.progs () with
    | .op (.store call now) next =>
      if call.isAdmission = true → D.admits s.world then
        let result := call.perform (now.getD clock) s.world.store
        some ⟨{ s.world with store := result.2 }, Function.update s.progs () (next result.1)⟩
      else none
    | _ => none
  | .list jobs, s =>
    match s.progs () with
    | .op .listJobs next =>
      if D.lists s.world jobs then
        some ⟨{ s.world with listed := jobs }, Function.update s.progs () (next (.ok jobs))⟩
      else none
    | _ => none
  | .launch outcome jobs, s =>
    match s.progs () with
    | .op (.launch _ spec _) next =>
      if D.launches s.world spec outcome jobs then
        some ⟨{ s.world with created := s.world.created ++ jobs },
          Function.update s.progs () (next outcome)⟩
      else none
    | _ => none
  | .crash, s => some ⟨s.world, Function.update s.progs () (.pure notRun)⟩
  | .api call now, s =>
    if call.isApi = true then
      some ⟨{ s.world with store := (call.perform now s.world.store).2 }, s.progs⟩
    else none

/-- Commands choose steps of the system. -/
theorem play_step {command : D.Command} {s s' : D.SystemState} (h : D.play command s = some s') :
    D.system.Step s s' := by
  cases command with
  | begin controller now =>
    simp only [play] at h
    split at h
    · rename_i last hlast
      cases h
      exact .begin () hlast ⟨rfl, controller.1, now, controller.2, rfl⟩
    · cases h
  | store clock =>
    simp only [play] at h
    split at h
    · rename_i call now next hop
      split at h
      · rename_i hadmits
        cases h
        exact .act () hop (.store hadmits rfl)
      · cases h
    · cases h
  | list jobs =>
    simp only [play] at h
    split at h
    · rename_i next hop
      split at h
      · rename_i hlists
        cases h
        exact .act () hop (.listJobs hlists)
      · cases h
    · cases h
  | launch outcome jobs =>
    simp only [play] at h
    split at h
    · rename_i spec _ next hop
      split at h
      · rename_i hlaunches
        cases h
        exact .act () hop (.launch hlaunches)
      · cases h
    · cases h
  | crash =>
    cases h
    exact .crash () ⟨rfl, rfl⟩
  | api call now =>
    simp only [play] at h
    split at h
    · rename_i hapi
      cases h
      exact .env ⟨call, now, hapi, rfl⟩
    · cases h

/-- The state a schedule leads to from the beginning. -/
def schedule (commands : List D.Command) : Option D.SystemState :=
  Pool.plays D.play commands D.initial

/-- What commands lead to is reached by a run. -/
theorem run_of_plays {commands : List D.Command} {s s' : D.SystemState}
    (h : Pool.plays D.play commands s = some s') : D.system.Run s s' := by
  refine Pool.star_of_plays ?_ h
  exact fun _ _ _ hplay => D.play_step hplay

/-- What a schedule leads to is reachable. -/
theorem reachable_of_schedule {commands : List D.Command} {s : D.SystemState}
    (h : D.schedule commands = some s) : D.Reachable s := D.run_of_plays h

/-- A check that holds after a schedule holds of a reachable state. -/
theorem reachable_of_check (commands : List D.Command) (check : D.SystemState → Bool)
    (h : (D.schedule commands).any check = true) : ∃ s, D.Reachable s ∧ check s = true := by
  obtain ⟨s, hs, hcheck⟩ := (Option.any_eq_true _ _).mp h
  exact ⟨s, D.reachable_of_schedule hs, hcheck⟩

/-- Follow a command if the step it chooses passes a check. -/
def playWhile (check : D.SystemState → D.SystemState → Bool) (command : D.Command) (s : D.SystemState) :
    Option D.SystemState := (D.play command s).filter (check s)

/-- A command that is played makes a step that passes the check. -/
theorem playWhile_step {check : D.SystemState → D.SystemState → Bool} {command : D.Command}
    {s s' : D.SystemState} (h : D.playWhile check command s = some s') :
    D.system.Step s s' ∧ check s s' = true := by
  obtain ⟨hplay, hcheck⟩ := Option.filter_eq_some_iff.mp h
  exact ⟨D.play_step hplay, hcheck⟩

/-- Two schedules in a row lead to a reachable state and on by a run. -/
theorem run_of_check (first second : List D.Command) (check : D.SystemState → D.SystemState → Bool)
    (h : ((D.schedule first).any fun s => (Pool.plays D.play second s).any (check s)) = true) :
    ∃ s s', D.Reachable s ∧ D.system.Run s s' ∧ check s s' = true := by
  obtain ⟨s, hs, h⟩ := (Option.any_eq_true _ _).mp h
  obtain ⟨s', hs', hcheck⟩ := (Option.any_eq_true _ _).mp h
  exact ⟨s, s', D.reachable_of_schedule hs, D.run_of_plays hs', hcheck⟩

end Deployment

/-- A sample handler that names its job as the task says. -/
def sampleHandler : AutoResumable where
  managedJob _ task := .ok { name := task.jobName, run := "true", resources := Dict.empty }

/-- A sample controller that knows one task kind. -/
def sampleController : TPUSwarmController where
  registry.tasks := Dict.ofList [("echo", sampleHandler)]
  controllerId := "controller"

/-- The sample controller names every job as its task says. -/
theorem sampleController_names {task : TaskRecord} {spec : ManagedJobSpec}
    (h : sampleController.compileJob task = .ok spec) : spec.name = task.jobName := by
  obtain ⟨handler, hhandler, hspec⟩ := bind_eq_ok.mp h
  have hsample : handler = sampleHandler := by
    obtain ⟨entry, hentry, rfl⟩ := Option.map_eq_some_iff.mp (orRaise_eq_ok.mp hhandler)
    exact congrArg Prod.snd (List.mem_singleton.mp (List.mem_of_find?_eq_some hentry))
  rw [hsample] at hspec
  cases hspec
  rfl

/-- A task of the sample kind. -/
def sampleTask : TaskSpec where
  kind := "echo"
  resourceClass := "v4"
  taskId := "t1"
  kind_nonempty := by decide +kernel
  resourceClass_nonempty := by decide +kernel

/-- A component that stands for the sample task. -/
def sampleComponent : ComponentSpec where
  key := "leaf"
  task := sampleTask
  key_nonempty := by decide +kernel

/-- A workflow of a kind the sample controller does not know. -/
def sampleWorkflow : WorkflowSpec where
  kind := "tree"
  workflowId := "w1"
  kind_nonempty := isBlank_tree

/-- The job of the sample task, as the backend reports it. -/
def sampleJob (status : String) : ExecutorJob := ⟨"7", SwarmStore.executorName "t1", status, 0, none⟩

namespace Deployment

/-- The deployment of a controller with an arbitrary backend. -/
def anyBackend (controller : TPUSwarmController) : Deployment where
  controllers := (· = controller)
  lists _ _ := True
  launches _ _ _ _ := True

variable (controller : TPUSwarmController)

instance (site : Site) (jobs : List ExecutorJob) : Decidable ((anyBackend controller).lists site jobs) :=
  isTrue trivial

instance (site : Site) : Decidable ((anyBackend controller).admits site) := isTrue trivial

instance (site : Site) (spec : ManagedJobSpec) (outcome : Except PyError ExecutorJob)
    (jobs : List RemoteJob) : Decidable ((anyBackend controller).launches site spec outcome jobs) :=
  isTrue trivial

variable {D : Deployment} (h : D.controllers sampleController)

/-- The API submits the sample workflow, and a cycle gets ready to launch its task. -/
def admitCommands (jobs : List ExecutorJob) : List D.Command :=
  [.api (.submitWorkflow sampleWorkflow [sampleComponent] Dict.empty) 0,
    .begin ⟨sampleController, h⟩ 1, .store 1, .store 1, .list jobs, .store 1, .store 1, .store 1, .store 1]

/-- The cycle launches the task of the sample workflow. -/
def launchCommands (outcome : Except PyError ExecutorJob) (jobs : List RemoteJob) : List D.Command :=
  admitCommands h [] ++ [.launch outcome jobs]

/-- The next cycle starts from the lease it holds and receives a list of jobs. -/
def listCommands (now : Time) (jobs : List ExecutorJob) : List D.Command :=
  [.begin ⟨sampleController, h⟩ now, .store now, .list jobs, .store now]

end Deployment

end TPUSwarm
