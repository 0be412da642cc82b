import TPUSwarm.Store.Admission
import TPUSwarm.Store.History
import Mathlib.Algebra.Order.Ring.Rat

/-!
# Which batch is admitted

The greedy selection of `reserve_submissions` in terms of the ranking. A class never
becomes free again while the ranking is scanned, and a lower priority never has the larger
capacity, so within a class a task is admitted only if all tasks ranked before it are.
-/

namespace TPUSwarm

open Common

namespace SwarmStore

/-- The capacity of a policy does not fall with the priority. -/
theorem capacity_mono (policy : ResourcePolicy) {p q : Priority} (h : q.toInt ≤ p.toInt) :
    capacity policy q ≤ capacity policy p := by
  have hreserve := policy.reserve_bounds.1
  unfold capacity isRecovery
  by_cases hq : Priority.ordinaryRecovery.toInt ≤ q.toInt
  · rw [if_pos (by simpa using hq), if_pos (by simpa using le_trans hq h)]
  · rw [if_neg (by simpa using hq)]
    split <;> omega

/-- The ranking is total. -/
theorem admissionOrder_total (a b : TaskRow) : admissionOrder a b ∨ admissionOrder b a := by
  unfold admissionOrder
  rcases lt_trichotomy a.priority.toInt b.priority.toInt with hlt | heq | hlt
  · exact Or.inr (Or.inl hlt)
  · rcases lt_trichotomy a.createdAt b.createdAt with hbefore | hsame | hafter
    · exact Or.inl (Or.inr ⟨heq, Or.inl hbefore⟩)
    · exact (le_total a.taskId b.taskId).imp (fun hid => Or.inr ⟨heq, Or.inr ⟨hsame, hid⟩⟩)
        fun hid => Or.inr ⟨heq.symm, Or.inr ⟨hsame.symm, hid⟩⟩
    · exact Or.inr (Or.inr ⟨heq.symm, Or.inl hafter⟩)
  · exact Or.inl (Or.inl hlt)

/-- The ranking is transitive. -/
theorem admissionOrder_trans {a b c : TaskRow} (hab : admissionOrder a b) (hbc : admissionOrder b c) :
    admissionOrder a c := by
  rcases hab with hab | ⟨hab, hab'⟩
  · rcases hbc with hbc | ⟨hbc, -⟩
    · exact Or.inl (hbc.trans hab)
    · exact Or.inl (hbc ▸ hab)
  · rcases hbc with hbc | ⟨hbc, hbc'⟩
    · exact Or.inl (hab ▸ hbc)
    · refine Or.inr ⟨hab.trans hbc, ?_⟩
      rcases hab' with hab' | ⟨hab', hid⟩
      · rcases hbc' with hbc' | ⟨hbc', -⟩
        · exact Or.inl (hab'.trans hbc')
        · exact Or.inl (hbc' ▸ hab')
      · rcases hbc' with hbc' | ⟨hbc', hid'⟩
        · exact Or.inl (hab' ▸ hbc')
        · exact Or.inr ⟨hab'.trans hbc', hid.trans hid'⟩

/-- A task ranked before another one has at least its priority. -/
theorem admissionOrder.priority_le {a b : TaskRow} (h : admissionOrder a b) :
    b.priority.toInt ≤ a.priority.toInt := by
  rcases h with hlt | ⟨heq, -⟩
  · exact le_of_lt hlt
  · exact heq.symm.le

/-- The pending tasks are ranked by priority, then by age, then by identifier. -/
theorem ranked_ordered (store : SwarmStore) : store.ranked.Pairwise admissionOrder := by
  have : Std.Total admissionOrder := ⟨admissionOrder_total⟩
  have : IsTrans TaskRow admissionOrder := ⟨fun _ _ _ => admissionOrder_trans⟩
  exact List.pairwise_insertionSort admissionOrder _

/-- A class that is full stays full. -/
theorem classFull_mono (policies : String → Option ResourcePolicy) (row : TaskRow) (n m : ℕ) (hle : n ≤ m)
    (h : classFull policies row n = true) : classFull policies row m = true := by
  obtain ⟨policy, hpolicy, hfull⟩ := (Option.any_eq_true _ _).mp h
  refine (Option.any_eq_true _ _).mpr ⟨policy, hpolicy, ?_⟩
  rw [decide_eq_true_eq] at hfull ⊢
  omega

/-- A class that is full for a task is full for the tasks of the class ranked below it. -/
theorem classFull_ranked {policies : String → Option ResourcePolicy} {a b : TaskRow} (hab : admissionOrder a b)
    (hclass : a.resourceClass = b.resourceClass) {n : ℕ} (h : classFull policies a n = true) :
    classFull policies b n = true := by
  unfold classFull at h ⊢
  rw [hclass] at h
  obtain ⟨policy, hpolicy, hfull⟩ := (Option.any_eq_true _ _).mp h
  refine (Option.any_eq_true _ _).mpr ⟨policy, hpolicy, ?_⟩
  rw [decide_eq_true_eq] at hfull ⊢
  exact le_trans (capacity_mono policy hab.priority_le) hfull

namespace Admissions

variable {now : Time} {store store' : SwarmStore} {rows : List TaskRow}

/-- The active tasks of each class after a chain of admissions. -/
theorem activeCount_eq (h : Admissions now store rows store') :
    store'.activeCount = Greedy.countAfter TaskRow.resourceClass store.activeCount rows := by
  induction h with
  | nil => rw [Greedy.countAfter_nil]
  | cons first _ ih => rw [ih, Greedy.countAfter_cons, first.activeCount_eq]

/-- A chain of admissions rewrites exactly its rows. -/
theorem rows_eq (h : Admissions now store rows store') :
    store'.tasks.rows = store.tasks.rows.map fun r => if r ∈ rows then r.admitted now else r := by
  induction h with
  | nil => simp
  | @cons store mid store' row rest first others ih =>
    rw [ih, first.rewrites.rows, List.map_map]
    refine List.map_congr_left fun r hr => ?_
    rw [Function.comp_apply]
    by_cases hid : r.taskId = row.taskId
    · obtain rfl := store.task_unique hr first.rewrites.mem hid
      have hdone : r.admitted now ∉ rest := fun hmem => by
        cases (others.mem_pending hmem).2
      rw [if_pos rfl, if_neg hdone, if_pos List.mem_cons_self]
    · have hne : r ≠ row := fun heq => hid (by rw [heq])
      rw [if_neg hid]
      simp only [List.mem_cons, hne, false_or]

end Admissions

end SwarmStore

open SwarmStore in
/-- For every store and every positive limit: the admitted tasks are at most so many and come in
ranking order; each class gives a prefix of its ranked tasks; while the limit is not reached, every
pending task left behind has a policy under which its own class is full; and exactly the rows of the
admitted tasks change. -/
theorem admission_batch (store : SwarmStore) (limit : ℤ) (hlimit : 1 ≤ limit) (now : Time) :
    ∃ (admitted : List TaskRow) (store' : SwarmStore), (Call.reserveSubmissions limit).run now store =
        .ok (admitted.map fun row => (row.admitted now).toRecord, store') ∧
      (admitted.length ≤ limit ∧ admitted.Sublist store.ranked ∧ store.ranked.Pairwise admissionOrder) ∧
      (∀ resourceClass, (admitted.filter fun row => row.resourceClass = resourceClass) <+:
        store.ranked.filter fun row => row.resourceClass = resourceClass) ∧
      (admitted.length < limit → ∀ row ∈ store.tasks.rows, row.status = .pending → row ∉ admitted →
        ∃ policy, store.policy? row.resourceClass = some policy ∧
          (if isRecovery row.priority then policy.targetWorkers
            else policy.targetWorkers - policy.recoveryReserve) ≤ store'.activeCount row.resourceClass) ∧
      store' = { store with tasks := store'.tasks } ∧
      store'.tasks.rows = store.tasks.rows.map fun row =>
        if row ∈ admitted then
          { row with status := .submitting, submissionStartedAt := some now, updatedAt := now, lastError := none }
        else row := by
  obtain ⟨store', hchain, hrun⟩ := reserveSubmissions_eq (not_lt.mpr hlimit) now store
  have hlength : (admits store.policy? limit.toNat store.activeCount store.ranked).length ≤ limit.toNat :=
    Greedy.length_le _ _ _
  refine ⟨_, store', hrun, ⟨?_, Greedy.sublist _ _ _, store.ranked_ordered⟩, fun resourceClass => ?_,
    fun hroom row hrow hpending hleft => ?_, hchain.frame, hchain.rows_eq⟩
  · omega
  · exact Greedy.filter_prefix (store.ranked_ordered.imp fun hab hclass _ => classFull_ranked hab hclass) _ _ _
  · have hleast : (admits store.policy? limit.toNat store.activeCount store.ranked).length < limit.toNat := by omega
    have hcases := Greedy.full_of_room (classFull_mono store.policy?) hleast (mem_ranked.mpr ⟨hrow, hpending⟩)
    obtain ⟨policy, hpolicy, hfull⟩ := (Option.any_eq_true _ _).mp (hcases.resolve_left hleft)
    refine ⟨policy, hpolicy, ?_⟩
    rw [hchain.activeCount_eq]
    exact of_decide_eq_true hfull

/-- A task of a class at a priority. -/
def queuedTask (taskId resourceClass : String) (priority : Priority) (h : isBlank resourceClass = false) :
    TaskSpec where
  kind := "train"
  resourceClass := resourceClass
  taskId := taskId
  priority := priority
  kind_nonempty := isBlank_train
  resourceClass_nonempty := h

/-- Two places with one kept in reserve, two ordinary tasks, a recovery, and a task of another class. -/
def queuedStore : SwarmStore := SwarmStore.empty.after
  [(.setResourcePolicy ⟨"v6e", 2, 1, by decide, by decide⟩, 0),
    (.submitTask (queuedTask "a" "v6e" .normal (by decide +kernel)), 1),
    (.submitTask (queuedTask "b" "v6e" .normal (by decide +kernel)), 2),
    (.submitTask (queuedTask "c" "cpu" .speculative (by decide +kernel)), 3),
    (.submitTask (queuedTask "r" "v6e" .ordinaryRecovery (by decide +kernel)), 4)]

open SwarmStore in
/-- With room for more, the recovery is admitted and fills the class for the ordinary tasks, but not
the other class. -/
theorem admission_batch_reserve : ∃ (batch : List TaskRecord) (store' : SwarmStore),
    (Call.reserveSubmissions 32).run 9 queuedStore = .ok (batch, store') ∧
      batch.map (·.taskId) = ["r", "c"] ∧ 1 ≤ store'.activeCount "v6e" := by
  obtain ⟨admitted, store', hrun, -, -, hleft, -, -⟩ := admission_batch queuedStore 32 (by decide) 9
  have hcheck : (match (Call.reserveSubmissions 32).run 9 queuedStore with
      | .ok (batch, _) => decide (batch.map (·.taskId) = ["r", "c"])
      | .error _ => false) = true := by decide +kernel
  rw [hrun] at hcheck
  have hbatch := of_decide_eq_true hcheck
  refine ⟨_, store', hrun, hbatch, ?_⟩
  have hids : admitted.map (·.taskId) = ["r", "c"] := by
    rw [← hbatch, List.map_map]
    rfl
  have hpending : (queuedStore.task? "a").any (fun row => row.status = .pending && row.resourceClass = "v6e" &&
      !isRecovery row.priority) = true := by decide +kernel
  obtain ⟨row, hrow, hcolumns⟩ := (Option.any_eq_true _ _).mp hpending
  simp only [Bool.and_eq_true, decide_eq_true_eq, Bool.not_eq_true'] at hcolumns
  obtain ⟨⟨hstatus, hclass⟩, hordinary⟩ := hcolumns
  obtain ⟨hmem, hid⟩ := task?_eq_some.mp hrow
  have hout : row ∉ admitted := fun hin => by
    have := List.mem_map_of_mem (f := TaskRow.taskId) hin
    rw [hids, hid] at this
    revert this
    decide
  have hlength : (admitted.length : ℤ) < 32 := by
    rw [← List.length_map (f := TaskRow.taskId), hids]
    decide
  obtain ⟨policy, hpolicy, hfull⟩ := hleft hlength row hmem hstatus hout
  have hpolicies : queuedStore.policy? "v6e" = some ⟨"v6e", 2, 1, by decide, by decide⟩ := by decide +kernel
  rw [hclass] at hpolicy hfull
  obtain rfl := Option.some.inj (hpolicies.symm.trans hpolicy)
  rw [if_neg (by rw [hordinary]; decide)] at hfull
  exact Int.ofNat_le.mp hfull

end TPUSwarm
