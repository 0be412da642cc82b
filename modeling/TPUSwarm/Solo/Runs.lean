import TPUSwarm.Invariants.WarmReserve
import TPUSwarm.Solo.Cycle
import TPUSwarm.Solo.Schedule

/-!
# Runs of one controller with the API

What holds in every reachable state of the single controller system, whatever the backend
answers and wherever the controller crashes: the columns of a task row agree with its
status, a finished task never changes again, the event log tells the status of every
component, and the warm reserve is kept.
-/

namespace TPUSwarm

open Common Relation SwarmStore

/-- A fact about stores that guarded steps keep holds along every run. -/
theorem Deployment.forall_of_guarded {D : Deployment} {K : SwarmStore → Prop}
    (hkeep : ∀ store store', Guarded store store' → K store → K store') {s s' : D.SystemState}
    (h : D.Reachable s) (hrun : D.system.Run s s') (hs : K s.world.store) : K s'.world.store := by
  obtain ⟨m, -, hrelated⟩ := h.related
  obtain ⟨m', hmoves, hrelated'⟩ := Pool.Simulation.run (simulation_matches D) hrelated hrun
  have hstar : ∀ store store', ReflTransGen Guarded store store' → K store → K store' := by
    intro store store' hsteps hfact
    induction hsteps with
    | refl => exact hfact
    | tail _ hstep ih => exact hkeep _ _ hstep ih
  have hfact : K m'.site.store := by
    refine Pool.Simulation.keeps (simulation D) (K := fun m => K m.site.store)
      (fun m m' hinv hmove hm => ?_) hmoves hrelated.inv ?_
    · rcases hmove with ⟨store', hquiet, rfl⟩ | ⟨_, hmove⟩
      · exact hkeep _ _ (.quiet hquiet) hm
      · exact hstar _ _ (hmove.guarded hinv) hm
    · change K ((simulation D).view m).store
      rw [hrelated.view]
      exact hs
  change K ((simulation D).view m').store at hfact
  rw [hrelated'.view] at hfact
  exact hfact

/-- The invariant of the machine, read off a reachable state. -/
theorem Deployment.Reachable.invariant {D : Deployment} {s : D.SystemState} (h : D.Reachable s) :
    (∀ row ∈ s.world.store.tasks.rows, row.Coherent) ∧ EventsTruthful s.world.store := by
  obtain ⟨m, -, hrelated⟩ := h.related
  have hcoherent := hrelated.inv.coherent
  have htruthful := hrelated.inv.truthful
  rw [show m.site = s.world from hrelated.view] at hcoherent htruthful
  exact ⟨hcoherent, htruthful⟩

/-- A row that is over keeps its columns along every run, up to its checkpoints. -/
theorem Deployment.terminal_core {D : Deployment} {s s' : D.SystemState} (h : D.Reachable s)
    (hrun : D.system.Run s s') {row : TaskRow} (hrow : row ∈ s.world.store.tasks.rows)
    (hterminal : row.status.isTerminal = true) : ∃ row' ∈ s'.world.store.tasks.rows, row'.core = row.core := by
  refine Deployment.forall_of_guarded (K := fun store => ∃ row' ∈ store.tasks.rows, row'.core = row.core)
    (fun store store' hstep ⟨row', hrow', hcore⟩ => ?_) h hrun ⟨row, hrow, rfl⟩
  obtain ⟨row'', hrow'', hcore'⟩ := hstep.terminal_kept hrow'
    (by rw [TaskRow.column_eq hcore TaskRow.status fun _ => rfl]; exact hterminal)
  exact ⟨row'', hrow'', hcore'.trans hcore⟩

/-- Two rows with the same outcome: status, job, result, error and completion time. -/
def SameOutcome (a b : TaskRow) : Prop :=
  a.status = b.status ∧ a.jobId = b.jobId ∧ a.resultJson = b.resultJson ∧
    a.lastError = b.lastError ∧ a.completedAt = b.completedAt

/-- The columns of every task row fit its status, and a task that is over stays as it is. -/
theorem task_lifecycle {D : Deployment} {s s' : D.SystemState} (h : D.Reachable s)
    (hrun : D.system.Run s s') :
    (∀ row ∈ s.world.store.tasks.rows, row.Coherent) ∧
      ∀ row ∈ s.world.store.tasks.rows, row.status.isTerminal = true →
        ∃ row' ∈ s'.world.store.tasks.rows, row'.taskId = row.taskId ∧ SameOutcome row' row := by
  refine ⟨h.invariant.1, fun row hrow hterminal => ?_⟩
  obtain ⟨row', hrow', hcore⟩ := Deployment.terminal_core h hrun hrow hterminal
  exact ⟨row', hrow', TaskRow.column_eq hcore TaskRow.taskId fun _ => rfl,
    TaskRow.column_eq hcore TaskRow.status fun _ => rfl, TaskRow.column_eq hcore TaskRow.jobId fun _ => rfl,
    TaskRow.column_eq hcore TaskRow.resultJson fun _ => rfl,
    TaskRow.column_eq hcore TaskRow.lastError fun _ => rfl,
    TaskRow.column_eq hcore TaskRow.completedAt fun _ => rfl⟩

/-- The sample task succeeds, and a cycle that lists its job as running again leaves it so. -/
theorem task_lifecycle_succeeded : ∃ s s' : (Deployment.anyBackend sampleController).SystemState,
    ∃ row ∈ s.world.store.tasks.rows, row.status = .succeeded ∧ row.Coherent ∧
      ∃ row' ∈ s'.world.store.tasks.rows, row'.taskId = row.taskId ∧ SameOutcome row' row := by
  obtain ⟨s, s', hreachable, hrun, hcheck⟩ := (Deployment.anyBackend sampleController).run_of_check
    (Deployment.launchCommands rfl (.ok (sampleJob "PENDING")) [] ++ [.store 1] ++
      Deployment.listCommands rfl 2 [sampleJob "SUCCEEDED"] ++ [.store 2, .store 2, .store 2, .store 2])
    (Deployment.listCommands rfl 3 [sampleJob "RUNNING"] ++ [.store 3, .store 3, .store 3])
    (fun s _ => s.world.store.tasks.rows.any (·.status = .succeeded)) (by decide +kernel)
  obtain ⟨row, hrow, hstatus⟩ := List.any_eq_true.mp hcheck
  rw [decide_eq_true_eq] at hstatus
  obtain ⟨hcoherent, hkept⟩ := task_lifecycle hreachable hrun
  exact ⟨s, s', row, hrow, hstatus, hcoherent row hrow, hkept row hrow (by rw [hstatus]; rfl)⟩

/-- The events of a component tell the status of its task: no event while it is pending,
being submitted or only submitted; otherwise the last event names the status, no two events
in a row have the same kind, and a terminal event is the last one. -/
theorem events_tell_status {D : Deployment} {s : D.SystemState} (h : D.Reachable s) :
    ∀ row ∈ s.world.store.tasks.rows, row.workflowId ≠ none →
      let events := taskEvents s.world.store row
      (events = [] → row.status = .pending ∨ row.status = .submitting ∨ row.status = .submitted) ∧
        (∀ event, events.getLast? = some event → event.kind = "Task" ++ title row.status.value) ∧
        (events.IsChain fun a b => a.kind ≠ b.kind) ∧
        ∀ event ∈ events.dropLast, event.kind ∉ ["TaskSucceeded", "TaskFailed", "TaskCancelled"] := by
  intro row hrow hworkflow
  have htruth := h.invariant.2.truthful row hrow hworkflow
  refine ⟨htruth.started, htruth.last, htruth.alternating, fun event hevent => ?_⟩
  have hfinal := htruth.final event hevent
  rw [EventRow.isFinal, decide_eq_false_iff_not] at hfinal
  exact hfinal

/-- The sample task runs and then fails, and its last event says so. -/
theorem events_tell_status_failed : ∃ s : (Deployment.anyBackend sampleController).SystemState,
    ∃ row ∈ s.world.store.tasks.rows, row.status = .failed ∧
      ∃ event, (taskEvents s.world.store row).getLast? = some event ∧
        event.kind = "Task" ++ title TaskStatus.failed.value := by
  obtain ⟨s, hreachable, hcheck⟩ := (Deployment.anyBackend sampleController).reachable_of_check
    (Deployment.launchCommands rfl (.ok (sampleJob "PENDING")) [] ++ [.store 1] ++
      Deployment.listCommands rfl 2 [sampleJob "RUNNING"] ++ [.store 2, .store 2, .store 2, .store 2] ++
      Deployment.listCommands rfl 3 [sampleJob "FAILED"] ++ [.store 3])
    (fun s => s.world.store.tasks.rows.any fun row =>
      row.status = .failed && row.workflowId ≠ none && (taskEvents s.world.store row).length = 2)
    (by decide +kernel)
  obtain ⟨row, hrow, hstatus⟩ := List.any_eq_true.mp hcheck
  simp only [Bool.and_eq_true, decide_eq_true_eq] at hstatus
  obtain ⟨⟨hfailed, hworkflow⟩, hlength⟩ := hstatus
  obtain ⟨-, hlast, -⟩ := events_tell_status hreachable row hrow hworkflow
  have hne : taskEvents s.world.store row ≠ [] := List.ne_nil_of_length_eq_add_one hlength
  rw [hfailed] at hlast
  exact ⟨s, row, hrow, hfailed, _, List.getLast?_eq_some_getLast hne, hlast _ (List.getLast?_eq_some_getLast hne)⟩

/-- Moves of the controller stay within the reserve of a policy in force. -/
theorem WithinReserve.moves {D : Deployment} {policy : ResourcePolicy} {m m' : Machine} (hinv : Invariant m)
    (h : WithinReserve policy m.site.store)
    (hpolicy : m.site.store.policy? policy.resourceClass = some policy)
    (hmoves : ReflTransGen (Move D) m m') : WithinReserve policy m'.site.store := by
  have hkey : Invariant m' ∧ WithinReserve policy m'.site.store ∧
      m'.site.store.policy? policy.resourceClass = some policy := by
    induction hmoves with
    | refl => exact ⟨hinv, h, hpolicy⟩
    | tail _ hmove ih =>
      obtain ⟨hinv', h', hpolicy'⟩ := ih
      exact ⟨hinv'.move hmove, h'.steadily hpolicy' (hmove.steady hinv')⟩
  exact hkey.2.1

/-- The counts of a class stay within its policy as long as the policy stays in force. -/
theorem warm_reserve {D : Deployment} {policy : ResourcePolicy} {s s' : D.SystemState} (h : D.Reachable s)
    (hpolicy : s.world.store.policy? policy.resourceClass = some policy)
    (hstart : WithinReserve policy s.world.store)
    (hrun : ReflTransGen (fun a b => D.system.Step a b ∧
      b.world.store.policy? policy.resourceClass = some policy) s s') :
    WithinReserve policy s'.world.store := by
  obtain ⟨m, -, hrelated⟩ := h.related
  have hkey : ∃ m', (simulation D).Related m' s' ∧ WithinReserve policy s'.world.store ∧
      s'.world.store.policy? policy.resourceClass = some policy := by
    induction hrun with
    | refl => exact ⟨m, hrelated, hstart, hpolicy⟩
    | tail _ hstep ih =>
      obtain ⟨m₁, hrelated₁, hwithin, hforce⟩ := ih
      obtain ⟨m₂, hmoves, hrelated₂⟩ := Pool.Simulation.step (simulation_matches D) hrelated₁ hstep.1
      refine ⟨m₂, hrelated₂, ?_, hstep.2⟩
      rw [← hrelated₁.view] at hwithin hforce
      rw [← hrelated₂.view]
      rcases hmoves with ⟨store', hquiet, rfl⟩ | ⟨_, hmoves⟩
      · exact hwithin.guarded hforce (.quiet hquiet)
      · exact hwithin.moves hrelated₁.inv hforce hmoves
  obtain ⟨-, -, hwithin, -⟩ := hkey
  exact hwithin

/-- A policy of one worker for the class of the sample task. -/
def samplePolicy : ResourcePolicy := ⟨"v4", 1, 0, by decide, by decide⟩

/-- The policy is set, the sample task takes the only slot, and the counts are within it. -/
theorem warm_reserve_full : ∃ s' : (Deployment.anyBackend sampleController).SystemState,
    s'.world.store.activeCount "v4" = 1 ∧ WithinReserve samplePolicy s'.world.store := by
  let force (s : (Deployment.anyBackend sampleController).SystemState) : Bool :=
    s.world.store.policy? samplePolicy.resourceClass = some samplePolicy
  have hcheck : (((Deployment.anyBackend sampleController).schedule
      [.api (.setResourcePolicy samplePolicy) 0]).any fun s => force s &&
        s.world.store.activeCount "v4" = 0 && ordinaryCount s.world.store "v4" = 0 &&
        (Pool.plays ((Deployment.anyBackend sampleController).playWhile fun _ => force)
          (Deployment.launchCommands rfl (.ok (sampleJob "PENDING")) []) s).any fun s' =>
            s'.world.store.activeCount "v4" = 1) = true := by
    decide +kernel
  obtain ⟨s, hs, hcheck⟩ := (Option.any_eq_true _ _).mp hcheck
  simp only [Bool.and_eq_true, decide_eq_true_eq] at hcheck
  obtain ⟨⟨⟨hforce, hactive⟩, hordinary⟩, hcheck⟩ := hcheck
  obtain ⟨s', hs', hcheck⟩ := (Option.any_eq_true _ _).mp hcheck
  rw [decide_eq_true_eq] at hcheck
  refine ⟨s', hcheck, warm_reserve (Deployment.reachable_of_schedule _ hs) (of_decide_eq_true hforce) ?_
    (Pool.star_of_plays (fun _ _ _ h => ?_) hs')⟩
  · rw [WithinReserve, show samplePolicy.resourceClass = "v4" from rfl, hactive, hordinary]
    decide
  · obtain ⟨hstep, hcheck⟩ := Deployment.playWhile_step _ h
    exact ⟨hstep, of_decide_eq_true hcheck⟩

end TPUSwarm
