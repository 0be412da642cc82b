import TPUSwarm.Store.Origins

/-!
# Idempotency keys

A submission is answered with the row that records its key, if there is one. Otherwise it
records the key in a new row, unless its task identifier is taken: then it is answered with
the row of that identifier, and the key is recorded nowhere. The next submission with the
key is free to insert another task.
-/

namespace TPUSwarm

open Common SwarmStore

variable {store store' : SwarmStore} {spec : TaskSpec} {key : String} {task : TaskRecord} {now : Time}

/-- The answer to a submission: the row of its key, or a row of its own identifier. -/
theorem submitTask_answer (hrun : (Call.submitTask spec).run now store = .ok (task, store')) :
    (∃ row, store.keyed? spec.idempotencyKey = some row ∧ task = row.toRecord) ∨
      (store.keyed? spec.idempotencyKey = none ∧ task.taskId = spec.taskId) := by
  rcases insertTask_cases hrun with ⟨row, hstand, rfl, -⟩ | ⟨hnone, rfl, -, -⟩
  · obtain ⟨hmem, hkey | ⟨hkeyed, hid⟩⟩ := standIn?_eq_some.mp hstand
    · exact Or.inl ⟨row, keyed?_eq_some.mpr ⟨hmem, hkey⟩, rfl⟩
    · exact Or.inr ⟨hkeyed, hid⟩
  · rw [standIn?, Option.orElse_eq_or, Option.or_eq_none_iff] at hnone
    exact Or.inr ⟨hnone.1, rfl⟩

/-- A submission that found its key recorded or its identifier free leaves the key recorded, with the
identifier it returned. -/
theorem submitTask_records (hrun : (Call.submitTask spec).run now store = .ok (task, store'))
    (hkey : spec.idempotencyKey = some key)
    (hfree : store.keyed? (some key) ≠ none ∨ store.task? spec.taskId = none) :
    ∃ row ∈ store'.tasks.rows, row.idempotencyKey = some key ∧ task.taskId = row.taskId := by
  rw [← hkey] at hfree
  rcases insertTask_cases hrun with ⟨row, hstand, rfl, rfl⟩ | ⟨-, rfl, hrows, -⟩
  · refine ⟨row, standIn?_mem hstand, ?_, rfl⟩
    obtain ⟨hmem, hshared | ⟨hkeyed, hid⟩⟩ := standIn?_eq_some.mp hstand
    · rw [hkey, sharesValue_some] at hshared
      exact hshared
    · rcases hfree with hfree | hfree
      · exact absurd hkeyed hfree
      · exact absurd hid (task?_eq_none.mp hfree row hmem)
  · refine ⟨_, hrows ▸ List.mem_append_right _ List.mem_cons_self, hkey, rfl⟩

/-- Two submissions with one key, with any calls in between, return the same task if and only if the
first one found its key recorded or its task identifier free, or the second one names the same
identifier while the key is still recorded nowhere. -/
theorem one_task_per_key {store₁ store₁' store₂ store₂' : SwarmStore} {spec₁ spec₂ : TaskSpec} {key : String}
    {task₁ task₂ : TaskRecord} {now₁ now₂ : Time} (hkey₁ : spec₁.idempotencyKey = some key)
    (hkey₂ : spec₂.idempotencyKey = some key)
    (hfirst : (Call.submitTask spec₁).run now₁ store₁ = .ok (task₁, store₁'))
    (hbetween : History anyCall store₁' store₂)
    (hsecond : (Call.submitTask spec₂).run now₂ store₂ = .ok (task₂, store₂')) :
    task₁.taskId = task₂.taskId ↔
      (store₁.keyed? (some key) ≠ none ∨ store₁.task? spec₁.taskId = none) ∨
        (spec₂.taskId = spec₁.taskId ∧ store₂.keyed? (some key) = none) := by
  by_cases hfree : store₁.keyed? (some key) ≠ none ∨ store₁.task? spec₁.taskId = none
  · refine iff_of_true ?_ (Or.inl hfree)
    obtain ⟨row, hrow, hrecorded, hid⟩ := submitTask_records hfirst hkey₁ hfree
    have hkept : store₁'.HasOrigin row.origin := ⟨row, hrow, rfl⟩
    obtain ⟨row', hrow', horigin⟩ := hkept.history hbetween
    have hkeyed : store₂.keyed? spec₂.idempotencyKey = some row' := by
      refine keyed?_eq_some.mpr ⟨hrow', ?_⟩
      rw [hkey₂, sharesValue_some, ← hrecorded]
      exact congrArg TaskOrigin.idempotencyKey horigin
    rcases submitTask_answer hsecond with ⟨found, hfound, rfl⟩ | ⟨hnone, -⟩
    · obtain rfl := Option.some.inj (hkeyed.symm.trans hfound)
      exact hid.trans (congrArg TaskOrigin.taskId horigin).symm
    · rw [hkeyed] at hnone
      cases hnone
  · obtain ⟨hunkeyed, htaken⟩ := not_or.mp hfree
    rw [or_iff_right hfree]
    have hunkeyed := not_not.mp hunkeyed
    -- The first answer is the row of the identifier, which records another key or none.
    obtain ⟨row, hrow⟩ := Option.ne_none_iff_exists'.mp htaken
    obtain ⟨hmem, hid⟩ := task?_eq_some.mp hrow
    have hfirstId : task₁.taskId = spec₁.taskId := by
      rcases submitTask_answer hfirst with ⟨found, hfound, -⟩ | ⟨-, hsame⟩
      · rw [hkey₁, hunkeyed] at hfound
        cases hfound
      · exact hsame
    rcases submitTask_answer hsecond with ⟨found, hfound, rfl⟩ | ⟨hnone, hsecondId⟩
    · rw [hkey₂] at hfound
      refine iff_of_false (fun hsame => ?_) fun h => by rw [hfound] at h; cases h.2
      obtain ⟨hfoundMem, hshares⟩ := keyed?_eq_some.mp hfound
      have hrecords := keyed?_eq_none.mp hunkeyed row hmem
      have hkept : store₁'.HasOrigin row.origin := HasOrigin.run ⟨row, hmem, rfl⟩ hfirst
      obtain ⟨row', hrow', horigin⟩ := hkept.history hbetween
      have hrowId : row'.taskId = found.taskId :=
        (congrArg TaskOrigin.taskId horigin).trans (hid.trans (hfirstId.symm.trans hsame))
      rw [← store₂.task_unique hrow' hfoundMem hrowId] at hshares
      have hsameKey : row'.idempotencyKey = row.idempotencyKey := congrArg TaskOrigin.idempotencyKey horigin
      exact hrecords (hsameKey ▸ hshares)
    · rw [hkey₂] at hnone
      rw [hfirstId, hsecondId]
      exact ⟨fun h => ⟨h.symm, hnone⟩, fun h => h.1.symm⟩

/-- A submission of a task, with an idempotency key or without. -/
def requestedTask (taskId : String) (key : Option String) : TaskSpec where
  kind := "train"
  resourceClass := "v6e"
  taskId := taskId
  idempotencyKey := key
  kind_nonempty := isBlank_train
  resourceClass_nonempty := isBlank_v6e

/-- A repeated request is answered with the task of the first one. -/
theorem one_task_per_key_repeated : ∃ task₁ store₁ task₂ store₂,
    (Call.submitTask (requestedTask "first" (some "request-1"))).run 0 .empty = .ok (task₁, store₁) ∧
    (Call.submitTask (requestedTask "second" (some "request-1"))).run 1 store₁ = .ok (task₂, store₂) ∧
      task₁.taskId = task₂.taskId := by
  have hcheck : (((Call.submitTask (requestedTask "first" (some "request-1"))).run 0 .empty).toOption.any fun p =>
      ((Call.submitTask (requestedTask "second" (some "request-1"))).run 1 p.2).toOption.isSome) = true := by
    decide +kernel
  obtain ⟨⟨task₁, store₁⟩, hfirst, hsome⟩ := (Option.any_eq_true _ _).mp hcheck
  obtain ⟨⟨task₂, store₂⟩, hsecond⟩ := Option.isSome_iff_exists.mp hsome
  rw [toOption_eq_some] at hfirst hsecond
  refine ⟨task₁, store₁, task₂, store₂, hfirst, hsecond, ?_⟩
  exact (one_task_per_key rfl rfl hfirst .refl hsecond).mpr (Or.inl (Or.inr rfl))

/-- A task is submitted without a key, and again with a key. The next request with this key gets
another task. -/
theorem key_answered_twice : ∃ store task₁ store₁ task₂ store₂, History anyCall .empty store ∧
    (Call.submitTask (requestedTask "first" (some "request-1"))).run 1 store = .ok (task₁, store₁) ∧
    (Call.submitTask (requestedTask "second" (some "request-1"))).run 2 store₁ = .ok (task₂, store₂) ∧
      task₁.taskId ≠ task₂.taskId := by
  let store := SwarmStore.empty.after [(.submitTask (requestedTask "first" none), 0)]
  have hcheck : (((Call.submitTask (requestedTask "first" (some "request-1"))).run 1 store).toOption.any fun p =>
      ((Call.submitTask (requestedTask "second" (some "request-1"))).run 2 p.2).toOption.any fun q =>
        decide (p.1.taskId = "first" ∧ q.1.taskId = "second")) = true := by
    decide +kernel
  obtain ⟨⟨task₁, store₁⟩, hfirst, hrest⟩ := (Option.any_eq_true _ _).mp hcheck
  obtain ⟨⟨task₂, store₂⟩, hsecond, hids⟩ := (Option.any_eq_true _ _).mp hrest
  rw [toOption_eq_some] at hfirst hsecond
  obtain ⟨hid₁, hid₂⟩ := of_decide_eq_true hids
  refine ⟨store, task₁, store₁, task₂, store₂, SwarmStore.history_any _ _, hfirst, hsecond, ?_⟩
  dsimp only at hid₁ hid₂
  rw [hid₁, hid₂]
  decide

end TPUSwarm
