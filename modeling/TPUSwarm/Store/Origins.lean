import TPUSwarm.Store.History

/-!
# Where a task came from

The identifier, the idempotency key and the place in a workflow are written when a task row
is inserted and never again, and rows are never deleted. An insertion that collides with an
existing row is answered with that row, whatever its columns say; the row is determined by
the store before the call.
-/

namespace TPUSwarm

open Common

/-- The columns of a task row that only its insertion writes. -/
structure TaskOrigin where
  taskId : String
  idempotencyKey : Option String
  workflowId : Option String
  componentKey : Option String
  generation : Option ℕ
deriving DecidableEq

/-- The origin of a row. -/
def TaskRow.origin (row : TaskRow) : TaskOrigin :=
  ⟨row.taskId, row.idempotencyKey, row.workflowId, row.componentKey, row.generation⟩

/-- The row is as some insertion writes it. -/
def TaskRow.New (row : TaskRow) : Prop :=
  ∃ spec workflowId componentKey generation now,
    row = SwarmStore.newTaskRow spec workflowId componentKey generation now

namespace SwarmStore

variable {store store' : SwarmStore} {now : Time}

/-- An insertion adds at most its new row. -/
theorem insertTask_rows {spec : TaskSpec} {workflowId componentKey : Option String} {generation : Option ℕ}
    {task : TaskRecord}
    (h : insertTask spec workflowId componentKey generation now store = .ok (task, store')) :
    ∃ added, store'.tasks.rows = store.tasks.rows ++ added ∧ ∀ row ∈ added, row.New := by
  rcases (insertTask_eq_ok h).2 with rfl | ⟨-, hrows, -⟩
  · exact ⟨[], (List.append_nil _).symm, by simp⟩
  · refine ⟨_, hrows, fun row hrow => ?_⟩
    rw [List.mem_singleton.mp hrow]
    exact ⟨_, _, _, _, _, rfl⟩

/-- The components of a new workflow add new rows. -/
theorem insertComponents_rows {workflowId : String} {components : List ComponentSpec}
    (h : insertComponents workflowId now components store = .ok store') :
    ∃ added, store'.tasks.rows = store.tasks.rows ++ added ∧ ∀ row ∈ added, row.New := by
  induction components generalizing store with
  | nil =>
    cases h
    exact ⟨[], (List.append_nil _).symm, by simp⟩
  | cons component rest ih =>
    obtain ⟨⟨task, mid⟩, hinsert, h⟩ := bind_eq_ok.mp h
    obtain ⟨linked, hlinked, h⟩ := bind_eq_ok.mp h
    obtain ⟨first, hfirst, hnew⟩ := insertTask_rows hinsert
    obtain ⟨others, hothers, hnew'⟩ := ih h
    have hsame : linked.tasks = mid.tasks := by rw [(insertComponent_eq_ok hlinked).2.2]
    refine ⟨first ++ others, by rw [hothers, hsame, hfirst, List.append_assoc], fun row hrow => ?_⟩
    exact (List.mem_append.mp hrow).elim (hnew row) (hnew' row)

/-- Submitting a workflow places its components in a store that has the workflow's row. -/
theorem submitWorkflow_steps {spec : WorkflowSpec} {components : List ComponentSpec} {initialState : Mapping}
    {workflow : WorkflowRecord}
    (h : submitWorkflow spec components initialState now store = .ok (workflow, store')) :
    ∃ workflows, store.workflows.insert? (newWorkflowRow spec initialState now) = some workflows ∧
      insertComponents spec.workflowId now components { store with workflows } = .ok store' := by
  unfold submitWorkflow at h
  obtain ⟨workflows, hinsert, h⟩ := bind_eq_ok.mp h
  obtain ⟨final, hfinal, h⟩ := bind_eq_ok.mp h
  obtain ⟨row, -, h⟩ := bind_eq_ok.mp h
  cases h
  exact ⟨workflows, orRaise_eq_ok.mp hinsert, hfinal⟩

/-- A replacement adds at most one new row. -/
theorem replaceComponent_rows {workflowId : String} {component : ComponentSpec} {task : TaskRecord}
    (h : replaceComponent workflowId component now store = .ok (task, store')) :
    ∃ added, store'.tasks.rows = store.tasks.rows ++ added ∧ ∀ row ∈ added, row.New := by
  unfold replaceComponent at h
  dsimp only at h
  split at h
  · obtain ⟨row, -, h⟩ := bind_eq_ok.mp h
    cases h
    exact ⟨[], (List.append_nil _).symm, by simp⟩
  · obtain ⟨⟨inserted, mid⟩, hinsert, h⟩ := bind_eq_ok.mp h
    obtain ⟨final, hfinal, h⟩ := bind_eq_ok.mp h
    cases h
    obtain ⟨added, hadded, hnew⟩ := insertTask_rows hinsert
    exact ⟨added, by rw [upsertComponent_frame hfinal]; exact hadded, hnew⟩

end SwarmStore

/-- The call inserts tasks. -/
def Call.insertsTasks : Call → Bool
  | .submitTask _ | .submitWorkflow _ _ _ | .replaceComponent _ _ => true
  | _ => false

/-- Columns of a task row that no transition of its task writes. -/
structure Untouched {β : Type} (columns : TaskRow → β) : Prop where
  admitted : ∀ row now, columns (row.admitted now) = columns row
  bound : ∀ row jobId executorStatus now, columns (row.bound jobId executorStatus now) = columns row
  reset : ∀ row reason now, columns (row.reset reason now) = columns row
  refused : ∀ row reason now, columns (row.refused reason now) = columns row
  observed : ∀ row job now, columns (row.observed job now) = columns row

namespace Untouched

variable {β : Type} {columns : TaskRow → β} {store store' : SwarmStore} {now : Time}

/-- A rewrite that leaves the columns leaves them in the table. -/
theorem rewrites {row row' : TaskRow} (h : SwarmStore.Rewrites store store' row row')
    (hrow : columns row' = columns row) :
    store'.tasks.rows.map columns = store.tasks.rows.map columns := by
  rw [h.rows, List.map_map]
  refine List.map_congr_left fun r hr => ?_
  rw [Function.comp_apply]
  split
  · rename_i hid
    rw [store.task_unique hr h.mem hid, hrow]
  · rfl

/-- An admission leaves the columns in the table. -/
theorem admissions (hcolumns : Untouched columns) {rows : List TaskRow}
    (h : SwarmStore.Admissions now store rows store') :
    store'.tasks.rows.map columns = store.tasks.rows.map columns := by
  induction h with
  | nil => rfl
  | cons first _ ih => rw [ih, rewrites first.rewrites (hcolumns.admitted _ _)]

/-- A transition inserts no row and leaves such columns alone. -/
theorem transition (hcolumns : Untouched columns) {call : Call} (hcall : call.isTransition = true)
    {result : call.Result} (h : call.run now store = .ok (result, store')) :
    store'.tasks.rows.map columns = store.tasks.rows.map columns := by
  cases call with
  | reserveSubmissions limit =>
    obtain ⟨admitted, -, hchain, -⟩ := SwarmStore.reserveSubmissions_eq_ok h
    exact hcolumns.admissions hchain
  | bindJob taskId jobId status =>
    obtain ⟨row, -, -, -, hrewrites, -⟩ := SwarmStore.bindJob_eq_ok h
    exact rewrites hrewrites (hcolumns.bound _ _ _ _)
  | resetSubmission taskId reason =>
    obtain ⟨row, -, -, -, hrewrites, -⟩ := SwarmStore.resetSubmission_eq_ok h
    exact rewrites hrewrites (hcolumns.reset _ _ _)
  | failTask taskId reason =>
    obtain ⟨row, -, hreported⟩ := SwarmStore.failTask_eq_ok h
    exact rewrites hreported.rewrites (hcolumns.refused _ _ _)
  | observeJob taskId job =>
    obtain ⟨row, -, hreported⟩ := SwarmStore.observeJob_eq_ok h
    exact rewrites hreported.rewrites (hcolumns.observed _ _ _)
  | _ => cases hcall

/-- A checkpoint inserts no row and leaves alone the columns that it does not write. -/
theorem recordCheckpoint (hadvanced : ∀ row checkpoint now, columns (row.advanced checkpoint now) = columns row)
    {taskId : String} {checkpoint : CheckpointRef} {task : TaskRecord}
    (h : SwarmStore.recordCheckpoint taskId checkpoint now store = .ok (task, store')) :
    store'.tasks.rows.map columns = store.tasks.rows.map columns := by
  obtain ⟨row, mid, hmem, -, hpublish, hadvance⟩ := SwarmStore.recordCheckpoint_eq_ok h
  have hmid := SwarmStore.publishCheckpoint_frame hpublish
  have hsame : mid.tasks = store.tasks := by rw [hmid]
  rcases SwarmStore.advanceCheckpoint_eq_ok (hsame ▸ hmem) hadvance with ⟨rfl, -⟩ | ⟨-, hrewrites, -⟩
  · rw [hsame]
  · rw [rewrites hrewrites (hadvanced _ _ _), hsame]

/-- A call that inserts no task keeps such columns of all rows, in their order. A checkpoint has to leave
the columns alone, too. -/
theorem kept (hcolumns : Untouched columns) {call : Call} {result : call.Result}
    (hcheckpoint : ∀ taskId checkpoint, call = .recordCheckpoint taskId checkpoint →
      ∀ row checkpoint now, columns (row.advanced checkpoint now) = columns row)
    (hinserts : call.insertsTasks = false) (h : call.run now store = .ok (result, store')) :
    store'.tasks.rows.map columns = store.tasks.rows.map columns := by
  cases htransition : call.isTransition with
  | true => exact hcolumns.transition htransition h
  | false =>
    by_cases htasks : StoreTable.tasks ∈ call.tables
    · cases call with
      | recordCheckpoint taskId checkpoint => exact recordCheckpoint (hcheckpoint _ _ rfl) h
      | submitTask _ | submitWorkflow _ _ _ | replaceComponent _ _ => cases hinserts
      | reserveSubmissions _ | bindJob _ _ _ | resetSubmission _ _ | failTask _ _ | observeJob _ _ =>
        cases htransition
      | _ => simp [Call.tables] at htasks
    · have hsame : store'.tasks = store.tasks := Call.frame h htasks
      rw [hsame]

/-- Every call keeps such columns of all rows, in their order, and adds new rows. -/
theorem run (hcolumns : Untouched columns) {call : Call} {result : call.Result}
    (hcheckpoint : ∀ taskId checkpoint, call = .recordCheckpoint taskId checkpoint →
      ∀ row checkpoint now, columns (row.advanced checkpoint now) = columns row)
    (h : call.run now store = .ok (result, store')) :
    ∃ added : List TaskRow, store'.tasks.rows.map columns = store.tasks.rows.map columns ++ added.map columns ∧
      ∀ row ∈ added, row.New := by
  have hadds {added : List TaskRow} (hadded : store'.tasks.rows = store.tasks.rows ++ added ∧
      ∀ row ∈ added, row.New) : ∃ added : List TaskRow, store'.tasks.rows.map columns =
        store.tasks.rows.map columns ++ added.map columns ∧ ∀ row ∈ added, row.New :=
    ⟨added, by rw [hadded.1, List.map_append], hadded.2⟩
  cases hinserts : call.insertsTasks with
  | true =>
    cases call with
    | submitTask spec => exact hadds (SwarmStore.insertTask_rows h).choose_spec
    | submitWorkflow spec components initialState =>
      obtain ⟨workflows, -, hinsert⟩ := SwarmStore.submitWorkflow_steps h
      exact hadds (SwarmStore.insertComponents_rows hinsert).choose_spec
    | replaceComponent workflowId component => exact hadds (SwarmStore.replaceComponent_rows h).choose_spec
    | _ => cases hinserts
  | false => exact ⟨[], by simpa using hcolumns.kept hcheckpoint hinserts h, by simp⟩

end Untouched

/-- No transition writes the origin. -/
theorem TaskRow.origin_untouched : Untouched TaskRow.origin :=
  ⟨fun _ _ => rfl, fun _ _ _ _ => rfl, fun _ _ _ => rfl, fun _ _ _ => rfl, fun _ _ _ => rfl⟩

/-- Every call keeps the origins of all rows, in their order. -/
theorem Call.origins {call : Call} {now : Time} {store store' : SwarmStore} {result : call.Result}
    (h : call.run now store = .ok (result, store')) :
    ∃ added, store'.tasks.rows.map TaskRow.origin = store.tasks.rows.map TaskRow.origin ++ added := by
  obtain ⟨added, hadded, -⟩ := TaskRow.origin_untouched.run (fun _ _ _ _ _ _ => rfl) h
  exact ⟨_, hadded⟩

namespace SwarmStore

variable {store store' : SwarmStore} {now : Time}

/-- Some row has this origin. -/
def HasOrigin (store : SwarmStore) (origin : TaskOrigin) : Prop := ∃ row ∈ store.tasks.rows, row.origin = origin

/-- A row keeps its origin whatever is called. -/
theorem HasOrigin.run {origin : TaskOrigin} (h : store.HasOrigin origin) {call : Call} {result : call.Result}
    (hrun : call.run now store = .ok (result, store')) : store'.HasOrigin origin := by
  obtain ⟨added, hadded⟩ := Call.origins hrun
  obtain ⟨row, hrow, rfl⟩ := h
  have hmem : row.origin ∈ store'.tasks.rows.map TaskRow.origin :=
    hadded ▸ List.mem_append_left _ (List.mem_map_of_mem hrow)
  exact List.mem_map.mp hmem

/-- A row keeps its origin along a history. -/
theorem HasOrigin.history {origin : TaskOrigin} {allowed : Discretion} (h : store.HasOrigin origin)
    (hhistory : History allowed store store') : store'.HasOrigin origin :=
  hhistory.invariant (I := fun s => s.HasOrigin origin) (fun _ _ _ _ _ _ hrun hs => hs.run hrun) h

/-- The row recorded under an idempotency key. -/
def keyed? (store : SwarmStore) (key : Option String) : Option TaskRow :=
  key.bind fun key => store.tasks.rows.find? (·.idempotencyKey = some key)

/-- The row that answers for a specification whose insertion collides. -/
def standIn? (store : SwarmStore) (spec : TaskSpec) : Option TaskRow :=
  (store.keyed? spec.idempotencyKey).orElse fun _ => store.task? spec.taskId

/-- A task is found by a key that it shares. -/
theorem keyed?_eq_some {key : Option String} {row : TaskRow} :
    store.keyed? key = some row ↔ row ∈ store.tasks.rows ∧ sharesValue key row.idempotencyKey := by
  unfold keyed?
  cases key with
  | none => simp [sharesValue]
  | some key =>
    rw [Option.bind_some, sharesValue_some]
    constructor
    · intro h
      exact ⟨List.mem_of_find?_eq_some h, by simpa using List.find?_some h⟩
    · rintro ⟨hmem, hkey⟩
      obtain ⟨found, hfound⟩ := Option.isSome_iff_exists.mp
        (List.find?_isSome.mpr ⟨row, hmem, by simpa using hkey⟩ :
          (store.tasks.rows.find? (·.idempotencyKey = some key)).isSome)
      have hfoundKey : found.idempotencyKey = some key := by simpa using List.find?_some hfound
      rw [hfound, store.tasks.eq_of_clash (List.mem_of_find?_eq_some hfound) hmem
        (Or.inr (Or.inl ⟨by simp [hfoundKey], hfoundKey.trans hkey.symm⟩))]

/-- No task is found by a key that none shares. -/
theorem keyed?_eq_none {key : Option String} :
    store.keyed? key = none ↔ ∀ row ∈ store.tasks.rows, ¬ sharesValue key row.idempotencyKey := by
  rw [Option.eq_none_iff_forall_ne_some]
  simp only [ne_eq, keyed?_eq_some, not_and]

/-- No task is found by an id that none has. -/
theorem task?_eq_none {taskId : String} :
    store.task? taskId = none ↔ ∀ row ∈ store.tasks.rows, row.taskId ≠ taskId := by
  rw [Option.eq_none_iff_forall_ne_some]
  simp only [ne_eq, task?_eq_some, not_and]

/-- What answers is the row of the key, or else the row of the identifier. -/
theorem standIn?_eq_some {spec : TaskSpec} {row : TaskRow} :
    store.standIn? spec = some row ↔ row ∈ store.tasks.rows ∧ (sharesValue spec.idempotencyKey row.idempotencyKey ∨
      (store.keyed? spec.idempotencyKey = none ∧ row.taskId = spec.taskId)) := by
  rw [standIn?, Option.orElse_eq_or, Option.or_eq_some_iff, keyed?_eq_some, task?_eq_some]
  constructor
  · rintro (⟨hmem, hkey⟩ | ⟨hnone, hmem, hid⟩)
    · exact ⟨hmem, Or.inl hkey⟩
    · exact ⟨hmem, Or.inr ⟨hnone, hid⟩⟩
  · rintro ⟨hmem, hkey | ⟨hnone, hid⟩⟩
    · exact Or.inl ⟨hmem, hkey⟩
    · exact Or.inr ⟨hnone, hmem, hid⟩

/-- A stand-in is a row of the store. -/
theorem standIn?_mem {spec : TaskSpec} {row : TaskRow} (h : store.standIn? spec = some row) :
    row ∈ store.tasks.rows := (standIn?_eq_some.mp h).1

variable {spec : TaskSpec} {workflowId componentKey : Option String} {generation : Option ℕ} {task : TaskRecord}

/-- An insertion that returns has a generation that fits its column. -/
theorem insertTask_fits (h : insertTask spec workflowId componentKey generation now store = .ok (task, store')) :
    ∀ n ∈ generation, n < 2 ^ 63 := by
  obtain ⟨_, hfits, -⟩ := bind_eq_ok.mp h
  simpa only [Option.all_eq_true, fitsInteger_natCast, Option.mem_def] using ensure_eq_ok.mp hfits

/-- The components of a workflow that was submitted have generations that fit. -/
theorem insertComponents_fits {workflowId : String} {components : List ComponentSpec}
    (h : insertComponents workflowId now components store = .ok store') :
    ∀ component ∈ components, component.generation < 2 ^ 63 := by
  induction components generalizing store with
  | nil => exact fun _ hcomponent => absurd hcomponent List.not_mem_nil
  | cons component rest ih =>
    obtain ⟨⟨task, mid⟩, hinsert, h⟩ := bind_eq_ok.mp h
    obtain ⟨linked, -, h⟩ := bind_eq_ok.mp h
    exact List.forall_mem_cons.mpr ⟨insertTask_fits hinsert _ rfl, ih h⟩

/-- An insertion adds the new row if it clashes with none, and otherwise returns the row that answers for it. -/
theorem insertTask_eq (spec : TaskSpec) (workflowId componentKey : Option String) {generation : Option ℕ}
    (hfits : ∀ n ∈ generation, n < 2 ^ 63) (now : Time) (store : SwarmStore) :
    insertTask spec workflowId componentKey generation now store =
      match store.tasks.insert? (newTaskRow spec workflowId componentKey generation now) with
      | some tasks => .ok ((newTaskRow spec workflowId componentKey generation now).toRecord, { store with tasks })
      | none =>
        match store.standIn? spec with
        | some row => .ok (row.toRecord, store)
        | none => .error (integrityError "UNIQUE") := by
  have hall : (generation.all fun (n : ℕ) => fitsInteger n) = true := by
    simpa only [Option.all_eq_true, fitsInteger_natCast, Option.mem_def] using hfits
  unfold insertTask
  rw [hall]
  change (match store.tasks.insert? (newTaskRow spec workflowId componentKey generation now) with
    | some tasks => _
    | none => _) = _
  cases hinsert : store.tasks.insert? (newTaskRow spec workflowId componentKey generation now) with
  | none => rfl
  | some tasks =>
    have hfound : ({ store with tasks } : SwarmStore).task? spec.taskId =
        some (newTaskRow spec workflowId componentKey generation now) := by
      refine task?_eq_some.mpr ⟨?_, rfl⟩
      rw [(Table.insert?_eq_some hinsert).1]
      exact List.mem_append_right _ List.mem_cons_self
    dsimp only
    rw [hfound]
    rfl

/-- An insertion returns the row that answers for it and changes nothing, or it adds the new row. -/
theorem insertTask_cases (h : insertTask spec workflowId componentKey generation now store = .ok (task, store')) :
    (∃ row, store.standIn? spec = some row ∧ task = row.toRecord ∧ store' = store) ∨
      (store.standIn? spec = none ∧ task = (newTaskRow spec workflowId componentKey generation now).toRecord ∧
        store'.tasks.rows = store.tasks.rows ++ [newTaskRow spec workflowId componentKey generation now] ∧
          store' = { store with tasks := store'.tasks }) := by
  rw [insertTask_eq spec workflowId componentKey (insertTask_fits h)] at h
  cases hinsert : store.tasks.insert? (newTaskRow spec workflowId componentKey generation now) with
  | some tasks =>
    rw [hinsert] at h
    cases h
    obtain ⟨hrows, hclash⟩ := Table.insert?_eq_some hinsert
    have hkeyed : store.keyed? spec.idempotencyKey = none := keyed?_eq_none.mpr fun r hr hshares =>
      hclash r hr (Or.inr (Or.inl hshares.symm))
    have hid : store.task? spec.taskId = none := task?_eq_none.mpr fun r hr hsame =>
      hclash r hr (Or.inl hsame)
    refine Or.inr ⟨?_, rfl, hrows, rfl⟩
    rw [standIn?, hkeyed, hid]
    rfl
  | none =>
    rw [hinsert] at h
    cases hstand : store.standIn? spec with
    | some row =>
      rw [hstand] at h
      cases h
      exact Or.inl ⟨row, rfl, rfl, rfl⟩
    | none =>
      rw [hstand] at h
      cases h

/-- A specification for which a row answers is answered with it. -/
theorem insertTask_standIn (workflowId componentKey : Option String) (hfits : ∀ n ∈ generation, n < 2 ^ 63)
    (now : Time) {row : TaskRow} (h : store.standIn? spec = some row) :
    insertTask spec workflowId componentKey generation now store = .ok (row.toRecord, store) := by
  have hclash : store.tasks.insert? (newTaskRow spec workflowId componentKey generation now) = none := by
    by_contra hsome
    obtain ⟨tasks, htasks⟩ := Option.ne_none_iff_exists'.mp hsome
    have hfree := (Table.insert?_eq_some htasks).2
    obtain ⟨hmem, hkey | ⟨-, hid⟩⟩ := standIn?_eq_some.mp h
    · exact hfree row hmem (Or.inr (Or.inl hkey.symm))
    · exact hfree row hmem (Or.inl hid)
  rw [insertTask_eq spec workflowId componentKey hfits, hclash]
  dsimp only
  rw [h]

end SwarmStore

end TPUSwarm
