import TPUSwarm.Compiling
import TPUSwarm.Secrecy.System

/-!
# Resolved secrets never reach the store

A cycle reads the environment only where it compiles a task. Under two environments with the same names it is a twin
of itself: its operations are the same, but for the values of secrets in the jobs it launches. With a backend that
is blind to these values, two servers on the same choices have the same store after every step.
-/

namespace TPUSwarm

open Common

/-- The controller in another environment. -/
def TPUSwarmController.within (controller : TPUSwarmController) (environ : Environ) : TPUSwarmController :=
  { controller with environ := environ }

/-- Every task kind of the registry is handled by the command handler. -/
def CommandsOnly (registry : TaskRegistry) : Prop :=
  ∀ kind handler, registry.tasks.get? kind = some handler → handler = commandAutoResumable

section Twins

variable {controller : TPUSwarmController} {environ environ' : Environ}

/-- A controller compiles a task to the same job in both environments, but for the values of its secrets. -/
theorem compileJob_map (hcommands : CommandsOnly controller.registry) (hnames : environ.keys = environ'.keys)
    (task : TaskRecord) :
    ((controller.within environ).compileJob task).map ManagedJobSpec.blinded =
      ((controller.within environ').compileJob task).map .blinded := by
  unfold TPUSwarmController.compileJob
  change (controller.registry.task task.kind >>= _).map _ = (controller.registry.task task.kind >>= _).map _
  cases hhandler : controller.registry.task task.kind with
  | error e => rfl
  | ok handler =>
    rw [hcommands task.kind handler (orRaise_eq_ok.mp hhandler)]
    exact managedJob_map hnames task

/-- The loop over all tasks does not read the environment. -/
theorem reconcileTasks_within (jobs : List ExecutorJob) (now : Time) (tasks : List TaskRecord)
    (adopted observed : List String) :
    (controller.within environ).reconcileTasks jobs now tasks adopted observed =
      (controller.within environ').reconcileTasks jobs now tasks adopted observed := by
  induction tasks generalizing adopted observed with
  | nil => rfl
  | cons task rest ih =>
    unfold TPUSwarmController.reconcileTasks
    simp only [ih]
    rfl

/-- The loop over the active workflows does not read the environment. -/
theorem reconcileWorkflows_within (workflows : List WorkflowRecord) (reconciled : List String) :
    (controller.within environ).reconcileWorkflows workflows reconciled =
      (controller.within environ').reconcileWorkflows workflows reconciled := by
  induction workflows generalizing reconciled with
  | nil => rfl
  | cons workflow rest ih =>
    unfold TPUSwarmController.reconcileWorkflows
    simp only [ih]
    rfl

/-- Launches of jobs that differ in the values of their secrets are twins. -/
theorem launch_twins {task : TaskRecord} {job job' : ManagedJobSpec} {priority : Priority}
    (h : job.blinded = job'.blinded) :
    (launch task job priority).Twins SameButSecrets (launch task job' priority) := by
  refine Prog.Twins.op (.launch h) fun r r' heq => ?_
  cases heq
  exact .pure r

/-- The launch loops of the two environments are twins. -/
theorem launchTasks_twins (hcommands : CommandsOnly controller.registry) (hnames : environ.keys = environ'.keys)
    (now : Time) (batch : List TaskRecord) (submitted : List String) :
    ((controller.within environ).launchTasks now batch submitted).Twins SameButSecrets
      ((controller.within environ').launchTasks now batch submitted) := by
  induction batch generalizing submitted with
  | nil => exact Action.Twins.refl .refl _
  | cons task rest ih =>
    unfold TPUSwarmController.launchTasks
    rcases map_eq_map_iff.mp (compileJob_map hcommands hnames task) with ⟨e, he, he'⟩ |
      ⟨job, job', hjob, hjob', hsame⟩
    · rw [he, he']
      exact Action.Twins.bind (Action.Twins.refl .refl _) fun _ => ih _
    · rw [hjob, hjob']
      apply Action.Twins.bind (Action.Twins.attempt (launch_twins hsame))
      intro outcome
      cases outcome with
      | error e => exact Action.Twins.refl .refl _
      | ok launched => exact Action.Twins.bind (Action.Twins.refl .refl _) fun _ => ih _

/-- The cycles of the two environments are twins. -/
theorem cycle_twins (hcommands : CommandsOnly controller.registry) (hnames : environ.keys = environ'.keys)
    (now : Time) :
    ((controller.within environ).cycle now).Twins SameButSecrets ((controller.within environ').cycle now) := by
  unfold TPUSwarmController.cycle
  apply Action.Twins.bind (Action.Twins.refl .refl _)
  intro outcome
  cases outcome with
  | error e => exact Action.Twins.refl .refl _
  | ok jobs =>
    apply Action.Twins.bind (Action.Twins.refl .refl _)
    intro tasks
    apply Action.Twins.bind (Action.Twins.of_eq .refl (reconcileTasks_within jobs now tasks [] []))
    rintro ⟨adopted, observed⟩
    apply Action.Twins.bind (Action.Twins.refl .refl _)
    intro workflows
    apply Action.Twins.bind (Action.Twins.of_eq .refl (reconcileWorkflows_within workflows []))
    intro reconciled
    apply Action.Twins.bind (Action.Twins.refl .refl _)
    intro batch
    apply Action.Twins.bind (launchTasks_twins hcommands hnames now batch [])
    intro submitted
    exact Action.Twins.refl .refl _

/-- The calls of `reconcile_once` in the two environments are twins. -/
theorem reconcileOnce_twins (hcommands : CommandsOnly controller.registry) (hnames : environ.keys = environ'.keys)
    (lease : Option ControllerLease) (now : Time) :
    ((controller.within environ).reconcileOnce lease now).Twins SameButSecrets
      ((controller.within environ').reconcileOnce lease now) := by
  unfold TPUSwarmController.reconcileOnce
  apply Prog.Twins.bind (Prog.Twins.refl .refl _)
  intro outcome
  split
  · exact .pure _
  · exact .pure _
  · apply Prog.Twins.bind (Prog.Twins.refl .refl _)
    intro renewal
    cases renewal with
    | error e => exact Prog.Twins.refl .refl _
    | ok renewed =>
      apply Prog.Twins.bind (cycle_twins hcommands hnames now)
      intro result
      exact .pure _

end Twins

section Servers

variable {ι : Type} [DecidableEq ι] {controllers : ι → TPUSwarmController} {environ environ' : ι → Environ}
  {backend : JobBackend}

omit [DecidableEq ι] in
/-- A blind backend answers alike operations alike. -/
theorem perform_alike (hblind : backend.Blind) {op op' : Operation} (hop : SameButSecrets op op') (clock : Time)
    (store : SwarmStore) {asked asked' : List BackendRequest}
    (hasked : asked.map BackendRequest.blinded = asked'.map BackendRequest.blinded) :
    HEq (backend.perform clock store asked op).1 (backend.perform clock store asked' op').1 ∧
      (backend.perform clock store asked op).2.1 = (backend.perform clock store asked' op').2.1 ∧
        (backend.perform clock store asked op).2.2.map BackendRequest.blinded =
          (backend.perform clock store asked' op').2.2.map BackendRequest.blinded := by
  cases hop with
  | refl op =>
    cases op with
    | store call now => exact ⟨.rfl, rfl, hasked⟩
    | listJobs =>
      refine ⟨heq_of_eq (hblind.listJobs asked asked' clock hasked), rfl, ?_⟩
      simp only [JobBackend.perform, List.map_append, hasked]
    | launch task job priority =>
      refine ⟨heq_of_eq (hblind.launch asked asked' clock job job priority hasked rfl), rfl, ?_⟩
      simp only [JobBackend.perform, List.map_append, hasked]
  | @launch task job job' priority hsame =>
    refine ⟨heq_of_eq (hblind.launch asked asked' clock job job' priority hasked hsame), rfl, ?_⟩
    simp only [JobBackend.perform, List.map_append, hasked, List.map_cons, List.map_nil,
      BackendRequest.blinded, hsame]

/-- On the same command, servers that are alike take steps to servers that are alike. -/
theorem serverStep_alike (hcommands : ∀ i, CommandsOnly (controllers i).registry)
    (hnames : ∀ i, (environ i).keys = (environ' i).keys) (hblind : backend.Blind) (command : ServerCommand ι)
    {s s' : ServerState ι} (h : AlikeButSecrets s s') :
    AlikeButSecrets (serverStep (fun i => (controllers i).within (environ i)) backend command s)
      (serverStep (fun i => (controllers i).within (environ' i)) backend command s') := by
  obtain ⟨store, asked, progs⟩ := s
  obtain ⟨store', asked', progs'⟩ := s'
  obtain rfl : store = store' := h.store
  have hasked : asked.map BackendRequest.blinded = asked'.map BackendRequest.blinded := h.asked
  cases command with
  | begin i now =>
    have htwins : (progs i).Twins SameButSecrets (progs' i) := h.progs i
    simp only [serverStep]
    generalize progs i = p at htwins ⊢
    generalize progs' i = p' at htwins ⊢
    cases htwins with
    | pure last => exact h.update i rfl hasked (reconcileOnce_twins (hcommands i) (hnames i) last.2 now)
    | op _ _ => exact h
  | act i clock =>
    have htwins : (progs i).Twins SameButSecrets (progs' i) := h.progs i
    simp only [serverStep]
    generalize progs i = p at htwins ⊢
    generalize progs' i = p' at htwins ⊢
    cases htwins with
    | pure _ => exact h
    | op hop hnext =>
      obtain ⟨hreply, hstore, hrequests⟩ := perform_alike hblind hop clock store hasked
      exact h.update i hstore hrequests (hnext _ _ hreply)
  | crash i => exact h.update i rfl hasked (.pure _)
  | api call now => exact ⟨rfl, hasked, h.progs⟩

/-- The values of secrets never reach the store. Two servers whose environments define the same names, with a
backend that is blind to the values of secrets, have the same store after every step of every run on the same
commands. What their controllers do is the same but for the values of secrets in the jobs handed to the backend. -/
theorem secrets_never_stored (hcommands : ∀ i, CommandsOnly (controllers i).registry)
    (hnames : ∀ i, (environ i).keys = (environ' i).keys) (hblind : backend.Blind) (store : SwarmStore)
    (commands : List (ServerCommand ι)) :
    List.Forall₂ (fun s s' => s.store = s'.store ∧ AlikeButSecrets s s')
      (serverStates (fun i => (controllers i).within (environ i)) backend commands store)
      (serverStates (fun i => (controllers i).within (environ' i)) backend commands store) := by
  have hstart : AlikeButSecrets (ServerState.initial ι store) (ServerState.initial ι store) :=
    ⟨rfl, rfl, fun _ => .pure _⟩
  exact (forall₂_states (serverStep_alike hcommands hnames hblind) commands hstart).imp fun _ _ h => ⟨h.store, h⟩

end Servers

/-- A sample backend that numbers the jobs it is given. -/
def numberingBackend : JobBackend where
  listJobs _ _ := .ok []
  launch asked _ job _ := .ok { jobId := toString asked.length, name := job.name, status := "PENDING" }

/-- It does not look at secrets. -/
theorem numberingBackend_blind : numberingBackend.Blind where
  listJobs _ _ _ _ := rfl
  launch asked asked' _ job job' _ hasked hjob := by
    have hlength : asked.length = asked'.length := by simpa using congrArg List.length hasked
    have hname : job.name = job'.name := by
      change job.blinded.name = job'.blinded.name
      rw [hjob]
    simp only [numberingBackend, hlength, hname]

/-- A command task is submitted, and a controller goes through a cycle that launches it. -/
def launchingCommands : List (ServerCommand Unit) :=
  [.api (.submitTask (commandTask pooledCommand)) 0, .begin () 1] ++ List.replicate 8 (.act () 1)

/-- The backend is given the secret in the end. -/
def launchedWith (secret : String) : Bool :=
  ((serverStates (fun _ => (commandController "").within (tokenEnviron secret)) numberingBackend launchingCommands
    .empty).getLast?.any fun s => s.asked.any fun request =>
      match request with
      | .launch job _ => job.secrets.get? "TOKEN" = some secret
      | .listJobs => false)

/-- The secrets of two environments reach the backend, but not the store. -/
theorem secrets_never_stored_sample : launchedWith "first" = true ∧ launchedWith "second" = true ∧
    List.Forall₂ (fun s s' => s.store = s'.store ∧ AlikeButSecrets s s')
      (serverStates (fun _ => (commandController "").within (tokenEnviron "first")) numberingBackend
        launchingCommands
        .empty)
      (serverStates (fun _ => (commandController "").within (tokenEnviron "second")) numberingBackend
        launchingCommands
        .empty) :=
  ⟨by decide +kernel, by decide +kernel, @secrets_never_stored Unit _ (fun _ => commandController "")
    (fun _ => tokenEnviron "first") (fun _ => tokenEnviron "second") numberingBackend
    (fun _ _ _ => builtinRegistry_task) (fun _ => rfl) numberingBackend_blind .empty launchingCommands⟩

end TPUSwarm
