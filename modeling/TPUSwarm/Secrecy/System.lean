import TPUSwarm.Common.Twins
import TPUSwarm.Secrecy.Compiled
import Mathlib.Logic.Function.Basic

/-!
# Servers that differ in their environments

Controllers, API calls and a backend around one store, as a machine whose steps are chosen by commands: which party
goes on, what is called, and what the clock shows. So two servers can be run on the same choices. The backend
answers from what it has been asked and when; what it knows of a job is the definition it was given.
-/

namespace TPUSwarm

open Common

/-- What a controller asks of the backend. -/
inductive BackendRequest
  | listJobs
  | launch (job : ManagedJobSpec) (priority : Priority)

/-- The request with the values of secrets left out. -/
def BackendRequest.blinded : BackendRequest → BackendRequest
  | listJobs => listJobs
  | launch job priority => launch job.blinded priority

/-- `JobBackend`: the answers to a request, after earlier requests and at a reading of the clock. -/
structure JobBackend where
  listJobs : List BackendRequest → Time → Except PyError (List ExecutorJob)
  launch : List BackendRequest → Time → ManagedJobSpec → Priority → Except PyError ExecutorJob

/-- The jobs and errors that the backend returns do not depend on the values of secrets. -/
structure JobBackend.Blind (backend : JobBackend) : Prop where
  listJobs : ∀ asked asked' now, asked.map BackendRequest.blinded = asked'.map BackendRequest.blinded →
    backend.listJobs asked now = backend.listJobs asked' now
  launch : ∀ asked asked' now job job' priority,
    asked.map BackendRequest.blinded = asked'.map BackendRequest.blinded →
    job.blinded = job'.blinded → backend.launch asked now job priority = backend.launch asked' now job' priority

/-- The store, what the backend has been asked, and what each controller still has to do. -/
structure ServerState (ι : Type) where
  store : SwarmStore
  asked : List BackendRequest
  progs : ι → Prog Operation Operation.Reply CycleOutcome

/-- The server before any controller has run. -/
def ServerState.initial (ι : Type) (store : SwarmStore) : ServerState ι :=
  ⟨store, [], fun _ => .pure (.error ⟨.runtime, ""⟩, none)⟩

/-- A choice of the next step of a server. -/
inductive ServerCommand (ι : Type)
  | begin (i : ι) (now : Time)
  | act (i : ι) (clock : Time)
  | crash (i : ι)
  | api (call : Call) (now : Time)

/-- What an operation returns, and what it leaves of the store and the requests. -/
def JobBackend.perform (backend : JobBackend) (clock : Time) (store : SwarmStore) (asked : List BackendRequest) :
    (op : Operation) → op.Reply × SwarmStore × List BackendRequest
  | .store call now => ((call.perform (now.getD clock) store).1, (call.perform (now.getD clock) store).2, asked)
  | .listJobs => (backend.listJobs asked clock, store, asked ++ [.listJobs])
  | .launch _ job priority => (backend.launch asked clock job priority, store, asked ++ [.launch job priority])

variable {ι : Type} [DecidableEq ι]

/-- The step a command chooses. A cycle begins when the last one has ended, and one operation is one step. -/
def serverStep (controllers : ι → TPUSwarmController) (backend : JobBackend) :
    ServerCommand ι → ServerState ι → ServerState ι
  | .begin i now, s =>
    match s.progs i with
    | .pure last => { s with progs := Function.update s.progs i ((controllers i).reconcileOnce last.2 now) }
    | .op _ _ => s
  | .act i clock, s =>
    match s.progs i with
    | .pure _ => s
    | .op op next =>
      let performed := backend.perform clock s.store s.asked op
      ⟨performed.2.1, performed.2.2, Function.update s.progs i (next performed.1)⟩
  | .crash i, s => { s with progs := Function.update s.progs i (.pure (.error ⟨.runtime, ""⟩, none)) }
  | .api call now, s => { s with store := (call.perform now s.store).2 }

/-- The states a server goes through on commands, from a given store on. -/
def serverStates (controllers : ι → TPUSwarmController) (backend : JobBackend) (commands : List (ServerCommand ι))
    (store : SwarmStore) : List (ServerState ι) :=
  states (serverStep controllers backend) commands (.initial ι store)

/-- Operations that are the same, except that launches may differ in the values of secrets. -/
inductive SameButSecrets : Operation → Operation → Prop
  | refl (op : Operation) : SameButSecrets op op
  | launch {task : TaskRecord} {job job' : ManagedJobSpec} {priority : Priority} (h : job.blinded = job'.blinded) :
      SameButSecrets (.launch task job priority) (.launch task job' priority)

/-- Servers with the same store. What they have asked the backend and will do is the same but for the values of
secrets in launches. -/
structure AlikeButSecrets (s s' : ServerState ι) : Prop where
  store : s.store = s'.store
  asked : s.asked.map BackendRequest.blinded = s'.asked.map BackendRequest.blinded
  progs : ∀ i, (s.progs i).Twins SameButSecrets (s'.progs i)

/-- Replacing the programs of one controller by twins. -/
theorem AlikeButSecrets.update {s s' : ServerState ι} (h : AlikeButSecrets s s') (i : ι)
    {store store' : SwarmStore} {asked asked' : List BackendRequest}
    {p p' : Prog Operation Operation.Reply CycleOutcome} (hstore : store = store')
    (hasked : asked.map BackendRequest.blinded = asked'.map BackendRequest.blinded)
    (hp : p.Twins SameButSecrets p') :
    AlikeButSecrets ⟨store, asked, Function.update s.progs i p⟩
      ⟨store', asked', Function.update s'.progs i p'⟩ := by
  refine ⟨hstore, hasked, fun j => ?_⟩
  by_cases hij : j = i
  · subst hij
    simpa only [Function.update_self] using hp
  · simp only [Function.update_of_ne hij]
    exact h.progs j

end TPUSwarm
