import TPUSwarm.Store.Quiet

/-!
# Which tables a call writes

Every call leaves alone the tables it does not name. Most invariants read one or two
tables, so this is all they have to know of most calls.
-/

namespace TPUSwarm

open Common

/-- The tables of the schema. -/
inductive StoreTable
  | tasks
  | checkpoints
  | workflows
  | components
  | events
  | commits
  | policies
  | leadership
deriving DecidableEq

/-- One table is the same in two stores. -/
def StoreTable.Same : StoreTable → SwarmStore → SwarmStore → Prop
  | tasks, a, b => b.tasks = a.tasks
  | checkpoints, a, b => b.checkpoints = a.checkpoints
  | workflows, a, b => b.workflows = a.workflows
  | components, a, b => b.components = a.components
  | events, a, b => b.events = a.events
  | commits, a, b => b.commits = a.commits
  | policies, a, b => b.policies = a.policies
  | leadership, a, b => b.leadership = a.leadership

namespace Call

/-- The tables a call may write. -/
def tables : Call → List StoreTable
  | submitTask _ => [.tasks]
  | setResourcePolicy _ => [.policies]
  | reserveSubmissions _ | bindJob _ _ _ | resetSubmission _ _ => [.tasks]
  | failTask _ _ | observeJob _ _ => [.tasks, .events]
  | recordCheckpoint _ _ => [.tasks, .checkpoints]
  | submitWorkflow _ _ _ => [.tasks, .workflows, .components]
  | replaceComponent _ _ => [.tasks, .components]
  | saveWorkflowState _ _ _ | completeWorkflow _ _ | failWorkflow _ _ => [.workflows]
  | commitBarrier _ _ _ => [.commits, .events]
  | acquireLeadership _ _ | renewLeadership _ _ => [.leadership]
  | _ => []

/-- A call leaves all other tables as they were. -/
theorem frame {call : Call} {now : Time} {store store' : SwarmStore} {result : call.Result}
    (h : call.run now store = .ok (result, store')) {table : StoreTable} (htable : table ∉ call.tables) :
    table.Same store store' := by
  by_cases hread : call.isRead
  · rw [Call.read_unchanged hread h]
    cases table <;> rfl
  · cases call with
    | submitTask spec =>
      rcases (SwarmStore.insertTask_eq_ok h).2 with rfl | ⟨-, -, hframe⟩
      · cases table <;> rfl
      · rw [hframe]
        cases table <;> first | rfl | exact absurd (by simp [tables]) htable
    | setResourcePolicy policy =>
      obtain ⟨policies, -, h⟩ := bind_eq_ok.mp h
      cases h
      cases table <;> first | rfl | exact absurd (by simp [tables]) htable
    | reserveSubmissions limit =>
      obtain ⟨admitted, -, hchain, -⟩ := SwarmStore.reserveSubmissions_eq_ok h
      rw [hchain.frame]
      cases table <;> first | rfl | exact absurd (by simp [tables]) htable
    | bindJob taskId jobId status =>
      obtain ⟨row, -, -, -, -, hframe⟩ := SwarmStore.bindJob_eq_ok h
      rw [hframe]
      cases table <;> first | rfl | exact absurd (by simp [tables]) htable
    | resetSubmission taskId reason =>
      obtain ⟨row, -, -, -, -, hframe⟩ := SwarmStore.resetSubmission_eq_ok h
      rw [hframe]
      cases table <;> first | rfl | exact absurd (by simp [tables]) htable
    | failTask taskId reason =>
      obtain ⟨row, -, hreported⟩ := SwarmStore.failTask_eq_ok h
      rw [hreported.frame]
      cases table <;> first | rfl | exact absurd (by simp [tables]) htable
    | observeJob taskId job =>
      obtain ⟨row, -, hreported⟩ := SwarmStore.observeJob_eq_ok h
      rw [hreported.frame]
      cases table <;> first | rfl | exact absurd (by simp [tables]) htable
    | recordCheckpoint taskId checkpoint =>
      obtain ⟨row, mid, hmem, -, hpublish, hadvance⟩ := SwarmStore.recordCheckpoint_eq_ok h
      have hmid := SwarmStore.publishCheckpoint_frame hpublish
      have hframe : store' = { store with tasks := store'.tasks, checkpoints := mid.checkpoints } := by
        rcases SwarmStore.advanceCheckpoint_eq_ok (by rw [hmid]; exact hmem) hadvance with
          ⟨rfl, -⟩ | ⟨-, -, hframe⟩
        · rw [hmid]
        · rw [hframe, hmid]
      rw [hframe]
      cases table <;> first | rfl | exact absurd (by simp [tables]) htable
    | submitWorkflow spec components initialState =>
      rw [(SwarmStore.submitWorkflow_eq_ok h).2.2.2]
      cases table <;> first | rfl | exact absurd (by simp [tables]) htable
    | replaceComponent workflowId component =>
      rw [(SwarmStore.replaceComponent_eq_ok h).2]
      cases table <;> first | rfl | exact absurd (by simp [tables]) htable
    | saveWorkflowState workflowId state cursor =>
      rw [(SwarmStore.updateWorkflow_eq_ok h).2.1]
      cases table <;> first | rfl | exact absurd (by simp [tables]) htable
    | completeWorkflow workflowId result =>
      rw [(SwarmStore.updateWorkflow_eq_ok h).2.1]
      cases table <;> first | rfl | exact absurd (by simp [tables]) htable
    | failWorkflow workflowId reason =>
      rw [(SwarmStore.updateWorkflow_eq_ok h).2.1]
      cases table <;> first | rfl | exact absurd (by simp [tables]) htable
    | commitBarrier workflowId barrier uri =>
      obtain ⟨manifest, -, ⟨row, -, -, -, -, -, -, rfl⟩ | ⟨-, -, -, -, hframe⟩⟩ :=
        SwarmStore.commitBarrier_eq_ok h
      · cases table <;> rfl
      · rw [hframe]
        cases table <;> first | rfl | exact absurd (by simp [tables]) htable
    | acquireLeadership controllerId seconds =>
      rw [SwarmStore.acquireLeadership_frame h]
      cases table <;> first | rfl | exact absurd (by simp [tables]) htable
    | renewLeadership lease seconds =>
      rw [SwarmStore.renewLeadership_frame h]
      cases table <;> first | rfl | exact absurd (by simp [tables]) htable
    | _ => exact absurd rfl hread

/-- Every call only appends to the event log. -/
theorem events_extend {call : Call} {now : Time} {store store' : SwarmStore} {result : call.Result}
    (h : call.run now store = .ok (result, store')) : store.events.Extends store'.events := by
  have hreported {row row' : TaskRow} (hreported : SwarmStore.Reported store store' row row') :
      store.events.Extends store'.events := by
    rcases hreported.reports with ⟨-, hsame⟩ | ⟨-, event, hnumber, happend, -⟩
    · rw [hsame]
      exact .refl _
    · rw [happend]
      exact Log.extends_append _ event hnumber
  by_cases hevents : StoreTable.events ∈ call.tables
  · cases call with
    | failTask taskId reason =>
      obtain ⟨row, -, hrow⟩ := SwarmStore.failTask_eq_ok h
      exact hreported hrow
    | observeJob taskId job =>
      obtain ⟨row, -, hrow⟩ := SwarmStore.observeJob_eq_ok h
      exact hreported hrow
    | commitBarrier workflowId barrier uri =>
      obtain ⟨manifest, -, ⟨row, -, -, -, -, -, -, rfl⟩ | ⟨-, -, -, -, hframe⟩⟩ :=
        SwarmStore.commitBarrier_eq_ok h
      · exact .refl _
      · rw [hframe]
        exact Log.extends_append _ _ rfl
    | _ => simp [tables] at hevents
  · have hsame : store'.events = store.events := frame h hevents
    rw [hsame]
    exact .refl _

end Call

end TPUSwarm
