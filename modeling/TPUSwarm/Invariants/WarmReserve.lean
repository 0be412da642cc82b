import TPUSwarm.Invariants.Discipline

/-!
# The warm reserve

Two counts of the active tasks of one class: all of them, and those below the recovery
priorities. A guarded step raises a count only by an admission, and an admission has found
the count of all active tasks below the capacity for its own priority.
-/

namespace TPUSwarm

open Common SwarmStore

/-- The tasks of a class that occupy a slot and have a priority below `ORDINARY_RECOVERY`. -/
def ordinaryCount (store : SwarmStore) (resourceClass : String) : ℕ :=
  store.tasks.rows.countP fun row => takesSlot resourceClass row && !isRecovery row.priority

/-- The counts of a class respect a policy. -/
def WithinReserve (policy : ResourcePolicy) (store : SwarmStore) : Prop :=
  (store.activeCount policy.resourceClass : ℤ) ≤ policy.targetWorkers ∧
    (ordinaryCount store policy.resourceClass : ℤ) ≤ policy.targetWorkers - policy.recoveryReserve

/-- Ordinary active tasks are active tasks. -/
theorem ordinaryCount_le (store : SwarmStore) (resourceClass : String) :
    ordinaryCount store resourceClass ≤ store.activeCount resourceClass :=
  List.countP_mono_left fun _ _ h => (Bool.and_eq_true_iff.mp h).1

namespace WithinReserve

variable {policy : ResourcePolicy} {store store' : SwarmStore}

/-- Counts that do not rise stay within the reserve. -/
theorem of_le (h : WithinReserve policy store)
    (hactive : store'.activeCount policy.resourceClass ≤ store.activeCount policy.resourceClass)
    (hordinary : ordinaryCount store' policy.resourceClass ≤ ordinaryCount store policy.resourceClass) :
    WithinReserve policy store' :=
  ⟨le_trans (Int.ofNat_le.mpr hactive) h.1, le_trans (Int.ofNat_le.mpr hordinary) h.2⟩

/-- A rewrite that takes no new slot stays within the reserve. -/
theorem of_rewrite (h : WithinReserve policy store) {row row' : TaskRow}
    (hrewrites : Rewrites store store' row row') (hclass : row'.resourceClass = row.resourceClass)
    (hpriority : row'.priority = row.priority)
    (hslot : row'.status.occupiesSlot = true → row.status.occupiesSlot = true) :
    WithinReserve policy store' := by
  have htakes : takesSlot policy.resourceClass row' = true → takesSlot policy.resourceClass row = true := by
    simp only [takesSlot, Bool.and_eq_true, hclass]
    exact And.imp_left hslot
  have hcount {p : TaskRow → Bool} (hp : p row' = true → p row = true) :
      store'.tasks.rows.countP p ≤ store.tasks.rows.countP p := by
    have hadd := hrewrites.countP_add p
    by_cases hnew : p row' = true
    · rw [if_pos hnew, if_pos (hp hnew)] at hadd
      omega
    · rw [if_neg hnew] at hadd
      omega
  refine h.of_le (hcount htakes) (hcount ?_)
  simp only [Bool.and_eq_true, hpriority]
  exact And.imp_left htakes

/-- An admission stays within the reserve of its own policy, and of every other class. -/
theorem reserve (h : WithinReserve policy store) (hpolicy : store.policy? policy.resourceClass = some policy)
    {now : Time} {row : TaskRow} (hadmission : Admission now store row store') :
    WithinReserve policy store' := by
  have hactive := congrFun hadmission.activeCount_eq policy.resourceClass
  have hordinary := hadmission.rewrites.countP_add fun r =>
    takesSlot policy.resourceClass r && !isRecovery r.priority
  have hbefore : takesSlot policy.resourceClass row = false := by
    simp [takesSlot, TaskStatus.occupiesSlot, hadmission.pending]
  have hafter : takesSlot policy.resourceClass (row.admitted now) =
      decide (row.resourceClass = policy.resourceClass) := rfl
  simp only [hbefore, hafter, Bool.false_and, Bool.false_eq_true, if_false, Nat.add_zero] at hordinary
  change ordinaryCount store' policy.resourceClass = ordinaryCount store policy.resourceClass + _ at hordinary
  by_cases hclass : row.resourceClass = policy.resourceClass
  · have hfree := hadmission.free policy (by rw [hclass]; exact hpolicy)
    have hle := ordinaryCount_le store policy.resourceClass
    have hreserve := policy.reserve_bounds
    have hpriority : (row.admitted now).priority = row.priority := rfl
    rw [hclass, Function.update_self] at hactive
    rw [hclass] at hfree
    simp only [hclass, decide_true, Bool.true_and, hpriority] at hordinary
    unfold capacity at hfree
    by_cases hrecovery : isRecovery row.priority = true
    · rw [if_pos hrecovery] at hfree
      rw [hrecovery] at hordinary
      simp only [Bool.not_true, Bool.false_eq_true, if_false, Nat.add_zero] at hordinary
      exact ⟨by omega, by rw [hordinary]; exact h.2⟩
    · rw [if_neg hrecovery] at hfree
      rw [Bool.eq_false_iff.mpr hrecovery] at hordinary
      simp only [Bool.not_false, if_true] at hordinary
      exact ⟨by omega, by omega⟩
  · rw [Function.update_of_ne (Ne.symm hclass)] at hactive
    simp only [hclass, decide_false, Bool.false_and, Bool.false_eq_true, if_false, Nat.add_zero]
      at hordinary
    exact h.of_le hactive.le hordinary.le

/-- Guarded steps stay within the reserve of a policy that is in force before the step. -/
theorem guarded (h : WithinReserve policy store) (hpolicy : store.policy? policy.resourceClass = some policy)
    (hstep : Guarded store store') : WithinReserve policy store' := by
  cases hstep with
  | quiet hquiet =>
    have hfresh : ∀ row : TaskRow, row.Fresh → takesSlot policy.resourceClass row = false :=
      fun row hrow => by simp [takesSlot, TaskStatus.occupiesSlot, hrow.columns.1]
    exact h.of_le
      (hquiet.tasks.countP_eq (p := takesSlot policy.resourceClass) (fun _ => rfl) hfresh).le
      (hquiet.tasks.countP_eq (p := fun row => takesSlot policy.resourceClass row && !isRecovery row.priority)
        (fun _ => rfl) fun row hrow => by simp [hfresh row hrow]).le
  | reserve hadmission => exact h.reserve hpolicy hadmission
  | bind hstatus hrewrites => exact h.of_rewrite hrewrites rfl rfl fun _ => by rw [hstatus]; rfl
  | reset hstatus hrewrites => exact h.of_rewrite hrewrites rfl rfl fun hslot => by cases hslot
  | refuse hstatus hreported => exact h.of_rewrite hreported.rewrites rfl rfl fun hslot => by cases hslot
  | observe hstatus hreported =>
    exact h.of_rewrite hreported.rewrites rfl rfl fun _ => by rcases hstatus with hs | hs <;> rw [hs] <;> rfl

/-- Any number of steps that set no policy stay within the reserve of a policy in force. -/
theorem steadily (h : WithinReserve policy store) (hpolicy : store.policy? policy.resourceClass = some policy)
    (hsteps : Relation.ReflTransGen Steady store store') :
    WithinReserve policy store' ∧ store'.policy? policy.resourceClass = some policy := by
  induction hsteps with
  | refl => exact ⟨h, hpolicy⟩
  | tail _ hstep ih =>
    refine ⟨ih.1.guarded ih.2 hstep.1, ?_⟩
    rw [policy?, hstep.2]
    exact ih.2

end WithinReserve

end TPUSwarm
