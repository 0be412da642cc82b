import TPUSwarm.Invariants.Barriers
import TPUSwarm.Solo.Progress
import TPUSwarm.Solo.Workflows

/-!
# What lasts along a run

A record read from the store describes one moment. How much of it a reader may still rely on later is one relation
between the stores of a run: tasks and workflows advance and stay as they are once they have ended, and commits of
barriers stay for good.
-/

namespace TPUSwarm

open Common Relation

/-- A store has come from another one along a run. -/
structure SwarmStore.Advances (store store' : SwarmStore) : Prop where
  tasks : ∀ row ∈ store.tasks.rows, ∃ row' ∈ store'.tasks.rows, row'.taskId = row.taskId ∧ row.Advances row' ∧
    (row.status.isTerminal = true → row'.core = row.core)
  workflows : ∀ row ∈ store.workflows.rows, ∃ row' ∈ store'.workflows.rows, row'.workflowId = row.workflowId ∧
    row.Evolves row'
  commits : ∀ row ∈ store.commits.rows, row ∈ store'.commits.rows

/-- Commits stay along every run. -/
theorem Deployment.commits_stay {D : Deployment} {s s' : D.SystemState} (hrun : D.system.Run s s') {row : CommitRow}
    (hrow : row ∈ s.world.store.commits.rows) : row ∈ s'.world.store.commits.rows := by
  induction hrun with
  | refl => exact hrow
  | tail _ hstep ih =>
    rcases Deployment.step_call hstep with hsame | ⟨call, now, result, hcall, -⟩
    · rw [hsame]
      exact ih
    · obtain ⟨added, hadded, -⟩ := Call.commits_extend hcall
      rw [hadded]
      exact List.mem_append_left _ ih

/-- The store advances along every run. -/
theorem Deployment.advances {D : Deployment} {s s' : D.SystemState} (h : D.Reachable s) (hrun : D.system.Run s s') :
    s.world.store.Advances s'.world.store where
  tasks row hrow := by
    obtain ⟨row', hrow', hid, hadvances⟩ := Deployment.row_advances h hrun hrow
    refine ⟨row', hrow', hid, hadvances, fun hterminal => ?_⟩
    obtain ⟨ended, hended, hcore⟩ := Deployment.terminal_core h hrun hrow hterminal
    have hsame : ended.taskId = row.taskId := TaskRow.column_eq hcore TaskRow.taskId fun _ => rfl
    rw [s'.world.store.task_unique hrow' hended (hid.trans hsame.symm)]
    exact hcore
  workflows _ := Deployment.workflow_evolves h hrun
  commits _ := Deployment.commits_stay hrun

end TPUSwarm
