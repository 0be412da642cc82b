import TPUSwarm.Solo.System

/-!
# The machine that a controller follows

An abstract controller with a phase: idle, observing what the backend listed, launching an
admitted batch, or holding the answer of a launch. Its moves carry the guards that the
program of a cycle establishes. The results about runs are invariants of these moves.
-/

namespace TPUSwarm

open Common Relation SwarmStore

/-- Where a controller is in its cycle. -/
inductive Phase
  | idle
  | observing
  | launching (batch : List TaskRecord)
  | launched (task : TaskRecord) (outcome : Except PyError ExecutorJob) (rest : List TaskRecord)

/-- The admitted tasks that a phase still has to settle. -/
def Phase.batch : Phase → List TaskRecord
  | launching batch => batch
  | launched task _ rest => task :: rest
  | _ => []

/-- A site and the phase of its controller. -/
structure Machine where
  site : Site
  phase : Phase

/-- The moves of a controller. -/
inductive Move (D : Deployment) : Machine → Machine → Prop
  | quiet {site store' phase} (h : Quiet site.store store') (hpolicies : store'.policies = site.store.policies) :
      Move D ⟨site, phase⟩ ⟨{ site with store := store' }, phase⟩
  | list {site jobs} (h : D.lists site jobs) :
      Move D ⟨site, .idle⟩ ⟨{ site with listed := jobs }, .observing⟩
  | adopt {site store' row job now} (hstatus : row.status = .submitting)
      (hlisted : byName site.listed row.jobName = some job)
      (h : Rewrites site.store store' row (row.bound job.jobId job.status now))
      (hframe : store' = { site.store with tasks := store'.tasks }) :
      Move D ⟨site, .observing⟩ ⟨{ site with store := store' }, .observing⟩
  | expire {site store' row reason now} (hstatus : row.status = .submitting)
      (hlisted : byName site.listed row.jobName = none)
      (h : Rewrites site.store store' row (row.reset reason now))
      (hframe : store' = { site.store with tasks := store'.tasks }) :
      Move D ⟨site, .observing⟩ ⟨{ site with store := store' }, .observing⟩
  | observe {site store' row jobId job now} (hstatus : row.status = .submitted ∨ row.status = .running)
      (hjob : row.jobId = some jobId) (hlisted : listedJob site.listed jobId row.jobName = some job)
      (h : Reported site.store store' row (row.observed job now)) :
      Move D ⟨site, .observing⟩ ⟨{ site with store := store' }, .observing⟩
  | reserve {site store' now admitted} (hadmits : D.admits site)
      (hdistinct : admitted.Pairwise fun a b => a.taskId ≠ b.taskId)
      (h : Admissions now site.store admitted store') :
      Move D ⟨site, .observing⟩ ⟨{ site with store := store' },
        .launching (admitted.map fun row => (row.admitted now).toRecord)⟩
  | refuse {site store' task rest row reason now} (hid : row.taskId = task.taskId)
      (h : Reported site.store store' row (row.refused reason now)) :
      Move D ⟨site, .launching (task :: rest)⟩ ⟨{ site with store := store' }, .launching rest⟩
  | launch {site task rest controller spec outcome jobs} (hcontroller : D.controllers controller)
      (hspec : controller.compileJob task = .ok spec) (h : D.launches site spec outcome jobs) :
      Move D ⟨site, .launching (task :: rest)⟩
        ⟨{ site with created := site.created ++ jobs }, .launched task outcome rest⟩
  | bind {site store' task job rest row now} (hid : row.taskId = task.taskId)
      (h : Rewrites site.store store' row (row.bound job.jobId job.status now))
      (hframe : store' = { site.store with tasks := store'.tasks }) :
      Move D ⟨site, .launched task (.ok job) rest⟩ ⟨{ site with store := store' }, .launching rest⟩
  | giveUp {site store' task e rest row reason now} (hid : row.taskId = task.taskId)
      (h : Rewrites site.store store' row (row.reset reason now))
      (hframe : store' = { site.store with tasks := store'.tasks }) :
      Move D ⟨site, .launched task (.error e) rest⟩ ⟨{ site with store := store' }, .idle⟩
  | stop {site phase} : Move D ⟨site, phase⟩ ⟨site, .idle⟩

/-- A move of the API: a quiet step that may also set policies. -/
def ApiMove (m m' : Machine) : Prop :=
  ∃ store', Quiet m.site.store store' ∧ m' = ⟨{ m.site with store := store' }, m.phase⟩

/-- A row of the store stands for a task that awaits its launch. -/
def Awaits (store : SwarmStore) (task : TaskRecord) : Prop :=
  ∃ row ∈ store.tasks.rows, row.taskId = task.taskId ∧ row.status = .submitting ∧
    row.jobName = task.jobName

/-- What holds in every state of the machine. -/
structure Invariant (m : Machine) : Prop where
  coherent : ∀ row ∈ m.site.store.tasks.rows, row.Coherent
  truthful : EventsTruthful m.site.store
  awaits : ∀ task ∈ m.phase.batch, Awaits m.site.store task
  distinct : m.phase.batch.Pairwise fun a b => a.taskId ≠ b.taskId

/-- Admissions are steady steps. -/
theorem SwarmStore.Admissions.steady {now : Time} {store store' : SwarmStore} {rows : List TaskRow}
    (h : Admissions now store rows store') : ReflTransGen Steady store store' := by
  induction h with
  | nil => exact .refl
  | cons first _ ih => exact .head ⟨.reserve first, by rw [first.frame]⟩ ih

namespace Awaits

/-- The row of an awaiting task is being submitted. -/
theorem submitting {store : SwarmStore} {task : TaskRecord} (h : Awaits store task) {row : TaskRow}
    (hrow : row ∈ store.tasks.rows) (hid : row.taskId = task.taskId) : row.status = .submitting := by
  obtain ⟨r, hr, hrid, hstatus, -⟩ := h
  rw [store.task_unique hrow hr (hid.trans hrid.symm)]
  exact hstatus

/-- A quiet change of the store keeps a task waiting. -/
theorem quiet {store store' : SwarmStore} {task : TaskRecord} (h : Awaits store task)
    (hquiet : Quiet store store') : Awaits store' task := by
  obtain ⟨row, hrow, hid, hstatus, hname⟩ := h
  obtain ⟨row', hrow', hcore⟩ := hquiet.tasks.kept hrow
  exact ⟨row', hrow', (TaskRow.column_eq hcore TaskRow.taskId fun _ => rfl).trans hid,
    (TaskRow.column_eq hcore TaskRow.status fun _ => rfl).trans hstatus,
    (TaskRow.column_eq hcore TaskRow.jobName fun _ => rfl).trans hname⟩

/-- A rewrite of another task keeps a task waiting. -/
theorem rewrite {store store' : SwarmStore} {task : TaskRecord} (h : Awaits store task) {row row' : TaskRow}
    (hrewrites : Rewrites store store' row row') (hne : row.taskId ≠ task.taskId) : Awaits store' task := by
  obtain ⟨r, hr, hid, hrest⟩ := h
  exact ⟨r, hrewrites.mem_iff.mpr (Or.inr ⟨hr, fun heq => hne (heq.symm.trans hid)⟩), hid, hrest⟩

end Awaits

/-- The store changes of a move are steady steps. -/
theorem Move.steady {D : Deployment} {m m' : Machine} (hinv : Invariant m) (h : Move D m m') :
    ReflTransGen Steady m.site.store m'.site.store := by
  cases h with
  | quiet h hpolicies => exact .single ⟨.quiet h, hpolicies⟩
  | list => exact .refl
  | adopt hstatus _ h hframe => exact .single ⟨.bind hstatus h (by rw [hframe]), by rw [hframe]⟩
  | expire hstatus _ h hframe => exact .single ⟨.reset hstatus h (by rw [hframe]), by rw [hframe]⟩
  | observe hstatus _ _ h => exact .single ⟨.observe hstatus h, by rw [h.frame]⟩
  | reserve _ _ h => exact h.steady
  | refuse hid h =>
    have hstatus := (hinv.awaits _ List.mem_cons_self).submitting h.rewrites.mem hid
    exact .single ⟨.refuse hstatus h, by rw [h.frame]⟩
  | launch => exact .refl
  | bind hid h hframe =>
    have hstatus := (hinv.awaits _ List.mem_cons_self).submitting h.mem hid
    exact .single ⟨.bind hstatus h (by rw [hframe]), by rw [hframe]⟩
  | giveUp hid h hframe =>
    have hstatus := (hinv.awaits _ List.mem_cons_self).submitting h.mem hid
    exact .single ⟨.reset hstatus h (by rw [hframe]), by rw [hframe]⟩
  | stop => exact .refl

/-- The store changes of a move are guarded steps. -/
theorem Move.guarded {D : Deployment} {m m' : Machine} (hinv : Invariant m) (h : Move D m m') :
    ReflTransGen Guarded m.site.store m'.site.store :=
  ReflTransGen.mono (fun _ _ hstep => hstep.1) _ _ (h.steady hinv)

/-- Guarded steps keep what the invariant says of the store. -/
theorem Invariant.store_guarded {store store' : SwarmStore} (hcoherent : ∀ row ∈ store.tasks.rows, row.Coherent)
    (htruthful : EventsTruthful store) (h : ReflTransGen Guarded store store') :
    (∀ row ∈ store'.tasks.rows, row.Coherent) ∧ EventsTruthful store' := by
  induction h with
  | refl => exact ⟨hcoherent, htruthful⟩
  | tail _ hstep ih =>
    exact ⟨hstep.forall_rows TaskRow.Coherent.core_iff (fun _ => TaskRow.Coherent.of_fresh)
      (fun _ _ => TaskRow.Coherent.moves) ih.1, ih.2.guarded hstep⟩

/-- The rest of a batch awaits its launch after its first task was settled. -/
theorem Invariant.awaits_rest {store store' : SwarmStore} {task : TaskRecord} {rest : List TaskRecord}
    (hawaits : ∀ t ∈ task :: rest, Awaits store t)
    (hdistinct : (task :: rest).Pairwise fun a b => a.taskId ≠ b.taskId) {row row' : TaskRow}
    (h : Rewrites store store' row row') (hid : row.taskId = task.taskId) :
    ∀ t ∈ rest, Awaits store' t := by
  intro t ht
  exact (hawaits t (List.mem_cons_of_mem _ ht)).rewrite h
    (hid ▸ (List.pairwise_cons.mp hdistinct).1 t ht)

/-- Every move keeps the invariant. -/
theorem Invariant.move {D : Deployment} {m m' : Machine} (hinv : Invariant m) (h : Move D m m') :
    Invariant m' := by
  obtain ⟨hcoherent, htruthful⟩ :=
    Invariant.store_guarded hinv.coherent hinv.truthful (h.guarded hinv)
  refine ⟨hcoherent, htruthful, ?_, ?_⟩
  · cases h with
    | quiet h => exact fun task htask => (hinv.awaits task htask).quiet h
    | list | adopt | expire | observe | giveUp | stop => exact fun task htask => absurd htask List.not_mem_nil
    | reserve _ _ h =>
      intro task htask
      obtain ⟨row, hrow, rfl⟩ := List.mem_map.mp htask
      exact ⟨_, h.mem_admitted hrow, rfl, rfl, rfl⟩
    | refuse hid h => exact Invariant.awaits_rest hinv.awaits hinv.distinct h.rewrites hid
    | launch => exact hinv.awaits
    | bind hid h => exact Invariant.awaits_rest hinv.awaits hinv.distinct h hid
  · cases h with
    | quiet => exact hinv.distinct
    | list | adopt | expire | observe | giveUp | stop => exact List.Pairwise.nil
    | reserve _ hdistinct _ => exact List.pairwise_map.mpr hdistinct
    | refuse => exact (List.pairwise_cons.mp hinv.distinct).2
    | launch => exact hinv.distinct
    | bind => exact (List.pairwise_cons.mp hinv.distinct).2

/-- The API keeps the invariant. -/
theorem Invariant.apiMove {m m' : Machine} (hinv : Invariant m) (h : ApiMove m m') : Invariant m' := by
  obtain ⟨store', hquiet, rfl⟩ := h
  obtain ⟨hcoherent, htruthful⟩ :=
    Invariant.store_guarded hinv.coherent hinv.truthful (.single (.quiet hquiet))
  exact ⟨hcoherent, htruthful, fun task htask => (hinv.awaits task htask).quiet hquiet, hinv.distinct⟩

end TPUSwarm
