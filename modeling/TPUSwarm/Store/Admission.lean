import TPUSwarm.Common.Greedy
import TPUSwarm.Store.Transitions

/-!
# What an admission of pending tasks writes

`reserve_submissions` is a chain of single admissions. Its in-memory counts agree with the
SQL counts of the store after every link of the chain, so every admitted task had a free
slot of its class at its own moment, whatever the batch mixes.
-/

namespace TPUSwarm

open Common

namespace SwarmStore

/-- One pending task was admitted, and its policy left a slot for it. -/
structure Admission (now : Time) (store : SwarmStore) (row : TaskRow) (store' : SwarmStore) : Prop where
  rewrites : Rewrites store store' row (row.admitted now)
  pending : row.status = .pending
  free : ∀ policy, store.policy? row.resourceClass = some policy →
    (store.activeCount row.resourceClass : ℤ) < capacity policy row.priority
  frame : store' = { store with tasks := store'.tasks }

/-- A chain of admissions, with the rows as they were before their admission. -/
inductive Admissions (now : Time) : SwarmStore → List TaskRow → SwarmStore → Prop
  | nil (store) : Admissions now store [] store
  | cons {store mid store' row rest} (first : Admission now store row mid)
      (others : Admissions now mid rest store') : Admissions now store (row :: rest) store'

/-- The predicate `activeCount` counts. -/
def takesSlot (resourceClass : String) (row : TaskRow) : Bool :=
  row.status.occupiesSlot && row.resourceClass = resourceClass

/-- An admission takes one slot of its class. -/
theorem Admission.activeCount_eq {now : Time} {store store' : SwarmStore} {row : TaskRow}
    (h : Admission now store row store') :
    store'.activeCount =
      Function.update store.activeCount row.resourceClass (store.activeCount row.resourceClass + 1) := by
  funext resourceClass
  have hcount := h.rewrites.countP_add (takesSlot resourceClass)
  have hbefore : takesSlot resourceClass row = false := by
    simp [takesSlot, TaskStatus.occupiesSlot, h.pending]
  have hafter : takesSlot resourceClass (row.admitted now) = decide (row.resourceClass = resourceClass) := rfl
  rw [hbefore, hafter] at hcount
  change store'.tasks.rows.countP (takesSlot resourceClass) = _
  by_cases hclass : row.resourceClass = resourceClass
  · subst hclass
    rw [Function.update_self]
    simp only [decide_true, if_true, Bool.false_eq_true, if_false, Nat.add_zero] at hcount
    exact hcount
  · rw [Function.update_of_ne (Ne.symm hclass)]
    simp only [hclass, decide_false, Bool.false_eq_true, if_false, Nat.add_zero] at hcount
    exact hcount

/-- The policies a chain of admissions leaves. -/
theorem Admissions.frame {now : Time} {store store' : SwarmStore} {rows : List TaskRow}
    (h : Admissions now store rows store') : store' = { store with tasks := store'.tasks } := by
  induction h with
  | nil => rfl
  | cons first _ ih =>
    rw [ih, first.frame]

/-- No column of a key changes by an admission, so the update cannot fail. -/
theorem updateTasks_admitted (store : SwarmStore) (taskId : String) (now : Time) :
    ∃ store', store.updateTasks (·.taskId = taskId) (TaskRow.admitted now) = .ok store' := by
  obtain ⟨tasks, htasks⟩ := store.tasks.update?_isSome (·.taskId = taskId) (TaskRow.admitted now)
    fun a b h => by split at h <;> split at h <;> exact h
  exact ⟨{ store with tasks }, by rw [updateTasks, htasks]; rfl⟩

/-- The policy of its class leaves no place for a task when a number of tasks is active. -/
def classFull (policies : String → Option ResourcePolicy) (row : TaskRow) (count : ℕ) : Bool :=
  (policies row.resourceClass).any fun policy => capacity policy row.priority ≤ count

/-- The rows that `reserve_submissions` admits from a list. -/
def admits (policies : String → Option ResourcePolicy) (room : ℕ) (active : String → ℕ)
    (rows : List TaskRow) : List TaskRow := greedy TaskRow.resourceClass (classFull policies) room active rows

/-- The loop of `reserve_submissions` is the greedy selection, and a chain of admissions. -/
theorem reserveLoop_eq {limit : ℤ} {now : Time} {rows : List TaskRow} {selected : List TaskRecord}
    {store : SwarmStore} (hrows : ∀ row ∈ rows, row ∈ store.tasks.rows ∧ row.status = .pending)
    (hdistinct : rows.Pairwise fun a b => a.taskId ≠ b.taskId) :
    ∃ store', Admissions now store
        (admits store.policy? (limit - selected.length).toNat store.activeCount rows) store' ∧
      reserveLoop store.policy? limit now rows store.activeCount selected store =
        .ok (selected ++ (admits store.policy? (limit - selected.length).toNat store.activeCount rows).map
          fun row => (row.admitted now).toRecord, store') := by
  induction rows generalizing selected store with
  | nil =>
    refine ⟨store, ?_, ?_⟩
    · rw [admits, greedy]
      exact .nil _
    · rw [admits, greedy, reserveLoop, List.map_nil, List.append_nil]
  | cons row rest ih =>
    obtain ⟨hfirst, hrest⟩ := List.pairwise_cons.mp hdistinct
    obtain ⟨hmem, hpending⟩ := hrows row List.mem_cons_self
    have hothers := fun r hr => hrows r (List.mem_cons_of_mem row hr)
    rw [reserveLoop]
    dsimp only
    by_cases hlimit : limit ≤ selected.length
    · have hroom : (limit - selected.length).toNat = 0 := by omega
      rw [if_pos hlimit, hroom, admits, Greedy.zero]
      exact ⟨store, .nil _, by rw [List.map_nil, List.append_nil]⟩
    · rw [if_neg hlimit]
      change ∃ store', _ ∧ (if classFull store.policy? row (store.activeCount row.resourceClass) = true
        then _ else _) = _
      by_cases hfull : classFull store.policy? row (store.activeCount row.resourceClass) = true
      · have hskip : admits store.policy? (limit - selected.length).toNat store.activeCount (row :: rest) =
            admits store.policy? (limit - selected.length).toNat store.activeCount rest :=
          Greedy.cons_full hfull
        rw [hskip, if_pos hfull]
        exact ih hothers hrest
      · obtain ⟨room, hroom⟩ : ∃ room, (limit - selected.length).toNat = room + 1 :=
          ⟨(limit - selected.length).toNat - 1, by omega⟩
        obtain ⟨mid, hmid⟩ := store.updateTasks_admitted row.taskId now
        have hrewrites : Rewrites store mid row (row.admitted now) :=
          Rewrites.of_update hmid hmem (fun r _ => by simp) rfl
        have hframe := (updateTasks_eq_ok hmid).2
        have hadmission : Admission now store row mid := by
          refine ⟨hrewrites, hpending, fun policy hpolicy => ?_, hframe⟩
          rw [classFull, hpolicy] at hfull
          simpa using hfull
        have hupdated : mid.task? row.taskId = some (row.admitted now) := by
          rw [hrewrites.task?_eq, if_pos rfl]
        have hpolicies : mid.policy? = store.policy? := by
          rw [hframe]
          rfl
        have hkept : ∀ r ∈ rest, r ∈ mid.tasks.rows ∧ r.status = .pending := fun r hr =>
          ⟨hrewrites.mem_iff.mpr (Or.inr ⟨(hothers r hr).1, (hfirst r hr).symm⟩), (hothers r hr).2⟩
        obtain ⟨store', hchain, hloop⟩ := @ih (selected ++ [(row.admitted now).toRecord]) mid hkept hrest
        have hleft : (limit - ((selected ++ [(row.admitted now).toRecord]).length : ℕ)).toNat = room := by
          rw [List.length_append, List.length_singleton]
          omega
        have htake : admits store.policy? (limit - selected.length).toNat store.activeCount (row :: rest) =
            row :: admits mid.policy? room mid.activeCount rest := by
          rw [hroom, hpolicies, hadmission.activeCount_eq]
          exact Greedy.cons_free hfull
        rw [hleft] at hchain hloop
        rw [htake, if_neg hfull]
        refine ⟨store', .cons hadmission hchain, ?_⟩
        rw [bind_eq_ok]
        refine ⟨mid, hmid, bind_eq_ok.mpr ⟨row.admitted now, orRaise_eq_ok.mpr hupdated, ?_⟩⟩
        rw [← hpolicies, ← hadmission.activeCount_eq, hloop, List.map_cons, List.append_assoc,
          List.singleton_append]

/-- The pending tasks of a store in the order of their admission. -/
def ranked (store : SwarmStore) : List TaskRow :=
  (store.tasks.rows.filter (·.status = .pending)).insertionSort admissionOrder

/-- The tasks in the order of admission are the pending ones. -/
theorem mem_ranked {store : SwarmStore} {row : TaskRow} :
    row ∈ store.ranked ↔ row ∈ store.tasks.rows ∧ row.status = .pending := by
  rw [ranked, (List.perm_insertionSort admissionOrder _).mem_iff, List.mem_filter, decide_eq_true_eq]

/-- No task is ranked twice. -/
theorem ranked_distinct (store : SwarmStore) : store.ranked.Pairwise fun a b => a.taskId ≠ b.taskId := by
  have hids : (store.tasks.rows.filter (·.status = .pending)).Pairwise fun a b => a.taskId ≠ b.taskId :=
    (store.tasks.unique.imp fun hclash heq => hclash (Or.inl heq)).filter _
  exact ((List.perm_insertionSort admissionOrder _).pairwise_iff fun h => h.symm).mpr hids

/-- `reserve_submissions` returns the greedy selection from the ranked tasks, for any limit above zero. -/
theorem reserveSubmissions_eq {limit : ℤ} (hlimit : ¬ limit < 1) (now : Time) (store : SwarmStore) :
    ∃ store', Admissions now store (admits store.policy? limit.toNat store.activeCount store.ranked) store' ∧
      reserveSubmissions limit now store =
        .ok ((admits store.policy? limit.toNat store.activeCount store.ranked).map
          fun row => (row.admitted now).toRecord, store') := by
  have hrows : ∀ row ∈ store.ranked, row ∈ store.tasks.rows ∧ row.status = .pending := fun row hrow =>
    mem_ranked.mp hrow
  obtain ⟨store', hchain, hloop⟩ := @reserveLoop_eq limit now store.ranked [] store hrows store.ranked_distinct
  have hroom : (limit - (([] : List TaskRecord).length : ℕ)).toNat = limit.toNat := by simp
  rw [hroom] at hchain hloop
  rw [reserveSubmissions, if_neg hlimit]
  exact ⟨store', hchain, hloop⟩

/-- What `reserve_submissions` writes: a chain of admissions, whose rows it returns. -/
theorem reserveSubmissions_eq_ok {limit : ℤ} {now : Time} {batch : List TaskRecord}
    {store store' : SwarmStore} (h : reserveSubmissions limit now store = .ok (batch, store')) :
    ∃ admitted, admitted.Pairwise (fun a b => a.taskId ≠ b.taskId) ∧
      Admissions now store admitted store' ∧
        batch = admitted.map fun row => (row.admitted now).toRecord := by
  by_cases hlimit : limit < 1
  · rw [reserveSubmissions, if_pos hlimit] at h
    cases h
    exact ⟨[], List.Pairwise.nil, .nil _, rfl⟩
  · obtain ⟨written, hchain, hrun⟩ := reserveSubmissions_eq hlimit now store
    cases hrun.symm.trans h
    exact ⟨_, store.ranked_distinct.sublist (Greedy.sublist _ _ _), hchain, rfl⟩

/-- A row that is no longer pending is not touched by admissions. -/
theorem Admissions.mem_of_not_pending {now : Time} {store store' : SwarmStore} {rows : List TaskRow}
    (h : Admissions now store rows store') {r : TaskRow} (hmem : r ∈ store.tasks.rows)
    (hstatus : r.status ≠ .pending) : r ∈ store'.tasks.rows := by
  induction h with
  | nil => exact hmem
  | cons first _ ih =>
    refine ih (first.rewrites.mem_iff.mpr (Or.inr ⟨hmem, fun hid => hstatus ?_⟩))
    rw [SwarmStore.task_unique _ hmem first.rewrites.mem hid]
    exact first.pending

/-- Every row of a chain of admissions was a pending row of the store it started from. -/
theorem Admissions.mem_pending {now : Time} {store store' : SwarmStore} {rows : List TaskRow}
    (h : Admissions now store rows store') {row : TaskRow} (hrow : row ∈ rows) :
    row ∈ store.tasks.rows ∧ row.status = .pending := by
  induction h with
  | nil => cases hrow
  | cons first _ ih =>
    rcases List.mem_cons.mp hrow with rfl | hrow
    · exact ⟨first.rewrites.mem, first.pending⟩
    · obtain ⟨hmem, hpending⟩ := ih hrow
      rcases first.rewrites.mem_iff.mp hmem with rfl | ⟨hold, -⟩
      · simp [TaskRow.admitted] at hpending
      · exact ⟨hold, hpending⟩

/-- Every admitted row stands in the final table with its new status. -/
theorem Admissions.mem_admitted {now : Time} {store store' : SwarmStore} {rows : List TaskRow}
    (h : Admissions now store rows store') {row : TaskRow} (hrow : row ∈ rows) :
    row.admitted now ∈ store'.tasks.rows := by
  induction h with
  | nil => cases hrow
  | cons first others ih =>
    rcases List.mem_cons.mp hrow with rfl | hrow
    · exact others.mem_of_not_pending first.rewrites.mem' (by simp [TaskRow.admitted])
    · exact ih hrow

/-- An admission cannot fail. -/
theorem reserveSubmissions_succeeds (limit : ℤ) (now : Time) (store : SwarmStore) :
    ∃ batch store', reserveSubmissions limit now store = .ok (batch, store') := by
  by_cases hlimit : limit < 1
  · exact ⟨[], store, if_pos hlimit⟩
  · obtain ⟨store', -, hrun⟩ := reserveSubmissions_eq hlimit now store
    exact ⟨_, store', hrun⟩

end SwarmStore

end TPUSwarm
