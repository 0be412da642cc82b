import TPUSwarm.Store.Frames

/-!
# Guarded steps of the store

A controller calls `observe_job` and `fail_task` without a guard in the statement; the order
of its checks supplies one. A guarded step is a store step together with the status it may
start from. What holds along guarded steps is proved here and in the modules below without
looking at the controller again.
-/

namespace TPUSwarm

open Common SwarmStore

/-- A quiet step, or one task moved from a status the controller has established. -/
inductive Guarded (store store' : SwarmStore) : Prop
  | quiet (h : Quiet store store')
  | reserve {now row} (h : Admission now store row store')
  | bind {now row jobId executorStatus} (hstatus : row.status = .submitting)
      (h : Rewrites store store' row (row.bound jobId executorStatus now))
      (hevents : store'.events = store.events)
  | reset {now row reason} (hstatus : row.status = .submitting)
      (h : Rewrites store store' row (row.reset reason now)) (hevents : store'.events = store.events)
  | refuse {now row reason} (hstatus : row.status = .submitting)
      (h : Reported store store' row (row.refused reason now))
  | observe {now row job} (hstatus : row.status = .submitted ∨ row.status = .running)
      (h : Reported store store' row (row.observed job now))

/-- A guarded step that sets no policy. -/
def Steady (store store' : SwarmStore) : Prop := Guarded store store' ∧ store'.policies = store.policies

/-- A move of one task: the row before and after, and the status it starts from. -/
inductive Moves : TaskRow → TaskRow → Prop
  | reserve {now row} (hstatus : row.status = .pending) : Moves row (row.admitted now)
  | bind {now row jobId executorStatus} (hstatus : row.status = .submitting) :
      Moves row (row.bound jobId executorStatus now)
  | reset {now row reason} (hstatus : row.status = .submitting) : Moves row (row.reset reason now)
  | refuse {now row reason} (hstatus : row.status = .submitting) : Moves row (row.refused reason now)
  | observe {now row job} (hstatus : row.status = .submitted ∨ row.status = .running) :
      Moves row (row.observed job now)

/-- A guarded step is quiet, or it rewrites one row by a move. -/
theorem Guarded.quiet_or_moves {store store' : SwarmStore} (h : Guarded store store') :
    Quiet store store' ∨ ∃ row row', Rewrites store store' row row' ∧ Moves row row' := by
  cases h with
  | quiet h => exact Or.inl h
  | reserve h => exact Or.inr ⟨_, _, h.rewrites, .reserve h.pending⟩
  | bind hstatus h => exact Or.inr ⟨_, _, h, .bind hstatus⟩
  | reset hstatus h => exact Or.inr ⟨_, _, h, .reset hstatus⟩
  | refuse hstatus h => exact Or.inr ⟨_, _, h.rewrites, .refuse hstatus⟩
  | observe hstatus h => exact Or.inr ⟨_, _, h.rewrites, .observe hstatus⟩

/-- No move starts from a terminal status. -/
theorem Moves.not_terminal {row row' : TaskRow} (h : Moves row row') : row.status.isTerminal = false := by
  cases h with
  | reserve hstatus => rw [hstatus]; rfl
  | bind hstatus => rw [hstatus]; rfl
  | reset hstatus => rw [hstatus]; rfl
  | refuse hstatus => rw [hstatus]; rfl
  | observe hstatus => rcases hstatus with h | h <;> rw [h] <;> rfl

/-- What a guarded step cannot change of a row that is over. -/
theorem Guarded.terminal_kept {store store' : SwarmStore} (h : Guarded store store') {row : TaskRow}
    (hrow : row ∈ store.tasks.rows) (hterminal : row.status.isTerminal = true) :
    ∃ row' ∈ store'.tasks.rows, row'.core = row.core := by
  rcases h.quiet_or_moves with hquiet | ⟨old, new, hrewrites, hmoves⟩
  · exact hquiet.tasks.kept hrow
  · refine ⟨row, hrewrites.mem_iff.mpr (Or.inr ⟨hrow, fun hid => ?_⟩), rfl⟩
    have hlive := hmoves.not_terminal
    rw [← store.task_unique hrow hrewrites.mem hid, hterminal] at hlive
    cases hlive

/-- A property of rows that checkpoints do not touch, fresh rows have and moves keep, holds
after every guarded step. -/
theorem Guarded.forall_rows {P : TaskRow → Prop} (hcore : ∀ row : TaskRow, P row.core ↔ P row)
    (hfresh : ∀ row : TaskRow, row.Fresh → P row) (hmoves : ∀ row row', Moves row row' → P row → P row')
    {store store' : SwarmStore} (h : Guarded store store') (hrows : ∀ row ∈ store.tasks.rows, P row) :
    ∀ row ∈ store'.tasks.rows, P row := by
  intro row hrow
  rcases h.quiet_or_moves with hquiet | ⟨old, new, hrewrites, hmove⟩
  · rcases hquiet.tasks.old_or_fresh hrow with ⟨r, hr, heq⟩ | hnew
    · rw [← hcore, ← heq, hcore]
      exact hrows r hr
    · exact hfresh row hnew
  · rcases hrewrites.mem_iff.mp hrow with rfl | ⟨hold, -⟩
    · exact hmoves _ _ hmove (hrows _ hrewrites.mem)
    · exact hrows row hold

/-- What the columns of a task row say about each other. -/
structure TaskRow.Coherent (row : TaskRow) : Prop where
  pending : row.status = .pending → row.jobId = none ∧ row.submissionStartedAt = none
  submitting : row.status = .submitting → row.jobId = none ∧ row.submissionStartedAt ≠ none
  active : row.status = .submitted ∨ row.status = .running → row.jobId ≠ none
  completed : row.completedAt ≠ none ↔ row.status.isTerminal = true
  result : row.resultJson ≠ none ↔ row.status = .succeeded
  failed : row.status = .failed → row.lastError ≠ none

namespace TaskRow.Coherent

/-- Coherence is about the core of a row. -/
theorem core_iff (row : TaskRow) : row.core.Coherent ↔ row.Coherent :=
  ⟨fun h => ⟨h.pending, h.submitting, h.active, h.completed, h.result, h.failed⟩,
    fun h => ⟨h.pending, h.submitting, h.active, h.completed, h.result, h.failed⟩⟩

/-- A fresh row is coherent. -/
theorem of_fresh {row : TaskRow} (h : row.Fresh) : row.Coherent := by
  have hnew (spec : TaskSpec) (w k : Option String) (g : Option ℕ) (now : Time) :
      (newTaskRow spec w k g now).Coherent := by
    constructor <;> simp [newTaskRow, TaskStatus.isTerminal]
  obtain ⟨spec, now, hcore | ⟨w, k, g, hcore⟩⟩ := h
  · rw [← core_iff, hcore, core_iff]
    exact hnew _ _ _ _ _
  · rw [← core_iff, hcore, core_iff]
    exact hnew _ _ _ _ _

/-- A task that has a job and is not over is submitted or running. -/
theorem active_of_job {row : TaskRow} (h : row.Coherent) (hjob : row.jobId ≠ none)
    (hlive : row.status.isTerminal = false) : row.status = .submitted ∨ row.status = .running := by
  cases hstatus : row.status with
  | pending => exact absurd (h.pending hstatus).1 hjob
  | submitting => exact absurd (h.submitting hstatus).1 hjob
  | submitted => exact Or.inl rfl
  | running => exact Or.inr rfl
  | succeeded | failed | cancelled => rw [hstatus] at hlive; cases hlive

/-- An observation of a live task leaves a coherent row. -/
theorem observed {row : TaskRow} (h : row.Coherent) (hlive : row.status = .submitted ∨ row.status = .running)
    (job : ExecutorJob) (now : Time) : (row.observed job now).Coherent := by
  have hresult : row.resultJson = none := by
    have hiff := h.result
    rcases hlive with hs | hs <;> rw [hs] at hiff <;> simpa using hiff
  have houtcome := taskStatus_cases job.status
  constructor <;> simp only [TaskRow.observed, observedOutcome, TaskRow.toRecord, hresult] <;>
    rcases houtcome with hs | hs | hs | hs | hs <;> simp [hs, TaskStatus.isTerminal]

/-- A move along the lifecycle keeps a row coherent. -/
theorem moves {row row' : TaskRow} (hmove : Moves row row') (h : row.Coherent) : row'.Coherent := by
  cases hmove with
  | reserve hstatus =>
    obtain ⟨hjob, -⟩ := h.pending hstatus
    have hresult := h.result
    have hcompleted := h.completed
    rw [hstatus] at hresult hcompleted
    constructor <;> simp_all [TaskRow.admitted, TaskStatus.isTerminal]
  | bind hstatus =>
    have hresult := h.result
    have hcompleted := h.completed
    rw [hstatus] at hresult hcompleted
    constructor <;> simp_all [TaskRow.bound, TaskStatus.isTerminal]
  | reset hstatus =>
    obtain ⟨hjob, -⟩ := h.submitting hstatus
    have hresult := h.result
    have hcompleted := h.completed
    rw [hstatus] at hresult hcompleted
    constructor <;> simp_all [TaskRow.reset, TaskStatus.isTerminal]
  | refuse hstatus =>
    have hresult := h.result
    rw [hstatus] at hresult
    constructor <;> simp_all [TaskRow.refused, TaskStatus.isTerminal]
  | observe hstatus => exact h.observed hstatus _ _

end TaskRow.Coherent

end TPUSwarm
