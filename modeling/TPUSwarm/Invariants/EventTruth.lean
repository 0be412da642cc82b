import TPUSwarm.Invariants.Discipline
import Mathlib.Data.List.Chain

/-!
# The event log and the status of its tasks

Only observations and refusals append an event of a task, while admissions, bindings and
resets change the status silently. Because a task whose status can change silently has no
event yet, the last event of a task tells its status, and a terminal event ends its story.
-/

namespace TPUSwarm

open Common SwarmStore

/-- The event belongs to the component and generation that a task row stands for. -/
def EventRow.concerns (event : EventRow) (row : TaskRow) : Bool :=
  row.workflowId = some event.workflowId && event.componentKey = row.componentKey &&
    event.generation = row.generation

/-- The events of a task's workflow with its component key and generation, in id order. -/
def taskEvents (store : SwarmStore) (row : TaskRow) : List EventRow :=
  store.events.entries.filter (·.concerns row)

/-- The event reports a terminal status. -/
def EventRow.isFinal (event : EventRow) : Bool :=
  event.kind ∈ [TaskStatus.succeeded.eventKind, TaskStatus.failed.eventKind,
    TaskStatus.cancelled.eventKind]

/-- What the events of a task tell about its status. -/
structure Truthful (status : TaskStatus) (events : List EventRow) : Prop where
  silent : status = .pending ∨ status = .submitting → events = []
  started : events = [] → status = .pending ∨ status = .submitting ∨ status = .submitted
  last : ∀ event, events.getLast? = some event → event.kind = status.eventKind
  alternating : events.IsChain fun a b => a.kind ≠ b.kind
  final : ∀ event ∈ events.dropLast, event.isFinal = false

/-- Different statuses have different events. -/
theorem TaskStatus.eventKind_injective : Function.Injective TaskStatus.eventKind := by
  intro a b h
  cases a <;> cases b <;> first | rfl | exact absurd h (by decide)

/-- The kind of an event of a live status is not final. -/
theorem TaskStatus.eventKind_live {status : TaskStatus} (h : status.isTerminal = false) :
    status.eventKind ∉ [TaskStatus.succeeded.eventKind, TaskStatus.failed.eventKind,
      TaskStatus.cancelled.eventKind] := by
  cases status <;> first | decide | cases h

namespace Truthful

variable {status status' : TaskStatus} {events : List EventRow}

/-- A live task that gets a new status and its event keeps a truthful log. -/
theorem append (h : Truthful status events) (hlive : status.isTerminal = false)
    (hne : status' ≠ status) (hsilent : status' ≠ .pending ∧ status' ≠ .submitting) {event : EventRow}
    (hkind : event.kind = status'.eventKind) : Truthful status' (events ++ [event]) where
  silent h := absurd h (not_or.mpr hsilent)
  started h := absurd h (by simp)
  last e he := by
    rw [List.getLast?_concat] at he
    cases he
    exact hkind
  alternating := by
    refine List.isChain_append.mpr ⟨h.alternating, List.isChain_singleton _, fun a ha b hb => ?_⟩
    cases hb
    rw [h.last a ha, hkind]
    exact fun heq => hne (TaskStatus.eventKind_injective heq).symm
  final e he := by
    rw [List.dropLast_concat] at he
    rcases List.eq_nil_or_concat events with rfl | ⟨first, last, rfl⟩
    · cases he
    · rw [List.concat_eq_append] at h he
      rcases List.mem_append.mp he with he | he
      · exact h.final e (by rw [List.dropLast_concat]; exact he)
      · rw [List.mem_singleton.mp he, EventRow.isFinal, h.last last List.getLast?_concat]
        exact decide_eq_false (TaskStatus.eventKind_live hlive)

/-- Without events, the three first statuses are interchangeable. -/
theorem silently (h : Truthful status []) (hstatus : status' = .pending ∨ status' = .submitting ∨
    status' = .submitted) : Truthful status' [] where
  silent _ := rfl
  started _ := hstatus
  last _ he := by cases he
  alternating := h.alternating
  final _ he := by cases he

end Truthful

/-- Every task with a workflow has a component key and a generation. -/
def Linked (store : SwarmStore) : Prop :=
  ∀ row ∈ store.tasks.rows, row.workflowId ≠ none → row.componentKey ≠ none ∧ row.generation ≠ none

/-- The events of every task tell its status, and every event of a component belongs to a task. -/
structure EventsTruthful (store : SwarmStore) : Prop where
  linked : Linked store
  owned : ∀ event ∈ store.events.entries, event.componentKey ≠ none →
    ∃ row ∈ store.tasks.rows, event.concerns row = true
  truthful : ∀ row ∈ store.tasks.rows, row.workflowId ≠ none →
    Truthful row.status (taskEvents store row)

/-- An event concerns the task of its workflow, component and generation. -/
theorem EventRow.concerns_iff {event : EventRow} {row : TaskRow} : event.concerns row = true ↔
    row.workflowId = some event.workflowId ∧ event.componentKey = row.componentKey ∧
      event.generation = row.generation := by
  simp [EventRow.concerns, and_assoc]

/-- An event concerns at most one task of a table. -/
theorem concerns_unique {store : SwarmStore} (hlinked : Linked store) {event : EventRow} {a b : TaskRow}
    (ha : a ∈ store.tasks.rows) (hb : b ∈ store.tasks.rows)
    (hconcernsA : event.concerns a = true) (hconcernsB : event.concerns b = true) : a = b := by
  obtain ⟨hwa, hka, hga⟩ := EventRow.concerns_iff.mp hconcernsA
  obtain ⟨hwb, hkb, hgb⟩ := EventRow.concerns_iff.mp hconcernsB
  obtain ⟨hkey, hgeneration⟩ := hlinked a ha (by rw [hwa]; simp)
  exact store.tasks.eq_of_clash ha hb (Or.inr (Or.inr (Or.inr (Or.inr
    ⟨⟨by rw [hwa]; simp, hwa.trans hwb.symm⟩, ⟨hkey, hka.symm.trans hkb⟩, ⟨hgeneration, hga.symm.trans hgb⟩⟩))))

/-- Two rows stand for the same component and generation. -/
def SameComponent (a b : TaskRow) : Prop :=
  a.workflowId = b.workflowId ∧ a.componentKey = b.componentKey ∧ a.generation = b.generation

/-- The events of a task depend on its component and generation only. -/
theorem SameComponent.concerns_eq {a b : TaskRow} (h : SameComponent a b) (event : EventRow) :
    event.concerns a = event.concerns b := by
  rw [EventRow.concerns, EventRow.concerns, h.1, h.2.1, h.2.2]

/-- Checkpoints do not change what a task stands for. -/
theorem SameComponent.of_core {a b : TaskRow} (h : a.core = b.core) : SameComponent a b :=
  ⟨TaskRow.column_eq h TaskRow.workflowId fun _ => rfl,
    TaskRow.column_eq h TaskRow.componentKey fun _ => rfl,
    TaskRow.column_eq h TaskRow.generation fun _ => rfl⟩

namespace EventsTruthful

variable {store store' : SwarmStore}

/-- The empty store. -/
theorem empty : EventsTruthful SwarmStore.empty :=
  ⟨fun _ hrow => absurd hrow List.not_mem_nil, fun _ hevent => absurd hevent List.not_mem_nil,
    fun _ hrow => absurd hrow List.not_mem_nil⟩

/-- A rewrite of one row keeps the log truthful when its own events do; what it appends
concerns no other task. -/
theorem rewrite (h : EventsTruthful store) {row row' : TaskRow} (hrewrites : Rewrites store store' row row')
    (hsame : SameComponent row' row) {A : List EventRow}
    (hadded : store'.events.entries = store.events.entries ++ A)
    (hconcern : ∀ event ∈ A, event.concerns row = true)
    (htruth : row.workflowId ≠ none → Truthful row'.status (taskEvents store row ++ A)) :
    EventsTruthful store' := by
  obtain ⟨hw, hk, hg⟩ := hsame
  have hsame : ∀ event : EventRow, event.concerns row' = event.concerns row :=
    SameComponent.concerns_eq ⟨hw, hk, hg⟩
  refine ⟨?_, ?_, ?_⟩
  · intro r hr
    rcases hrewrites.mem_iff.mp hr with rfl | ⟨hold, -⟩
    · rw [hw, hk, hg]
      exact h.linked row hrewrites.mem
    · exact h.linked r hold
  · intro event hevent hkey
    rw [hadded] at hevent
    rcases List.mem_append.mp hevent with hevent | hevent
    · obtain ⟨owner, howner, hconcerns⟩ := h.owned event hevent hkey
      by_cases hid : owner.taskId = row.taskId
      · rw [store.task_unique howner hrewrites.mem hid, ← hsame] at hconcerns
        exact ⟨row', hrewrites.mem', hconcerns⟩
      · exact ⟨owner, hrewrites.mem_iff.mpr (Or.inr ⟨howner, hid⟩), hconcerns⟩
    · exact ⟨row', hrewrites.mem', by rw [hsame]; exact hconcern event hevent⟩
  · intro r hr hworkflow
    rcases hrewrites.mem_iff.mp hr with rfl | ⟨hold, hid⟩
    · have hself : A.filter (·.concerns r) = A :=
        List.filter_eq_self.mpr fun e he => by rw [hsame]; exact hconcern e he
      have hevents : taskEvents store' r = taskEvents store row ++ A := by
        rw [taskEvents, hadded, List.filter_append, hself, taskEvents, List.filter_congr fun e _ => hsame e]
      rw [hevents]
      exact htruth (by rw [← hw]; exact hworkflow)
    · have hnone : A.filter (·.concerns r) = [] := by
        rw [List.filter_eq_nil_iff]
        intro event hevent hconcerns
        exact hid (congrArg TaskRow.taskId (concerns_unique h.linked hold hrewrites.mem hconcerns
          (hconcern event hevent)))
      have hevents : taskEvents store' r = taskEvents store r := by
        rw [taskEvents, hadded, List.filter_append, hnone, List.append_nil, taskEvents]
      rw [hevents]
      exact h.truthful r hold hworkflow

/-- A silent rewrite: the task had no event and keeps one of the three first statuses. -/
theorem silently (h : EventsTruthful store) {row row' : TaskRow} (hrewrites : Rewrites store store' row row')
    (hsame : SameComponent row' row) (hevents : store'.events = store.events)
    (hbefore : row.status = .pending ∨ row.status = .submitting)
    (hafter : row'.status = .pending ∨ row'.status = .submitting ∨ row'.status = .submitted) :
    EventsTruthful store' := by
  refine h.rewrite hrewrites hsame (A := []) (by rw [hevents, List.append_nil]) (by simp)
    fun hworkflow => ?_
  have htruth := h.truthful row hrewrites.mem hworkflow
  have hnil := htruth.silent hbefore
  rw [hnil] at htruth
  rw [hnil, List.append_nil]
  exact htruth.silently hafter

/-- A reported rewrite of a live task to a status that is not silent. -/
theorem reported (h : EventsTruthful store) {row row' : TaskRow} (hreported : Reported store store' row row')
    (hsame : SameComponent row' row) (hlive : row.status.isTerminal = false)
    (hafter : row'.status ≠ .pending ∧ row'.status ≠ .submitting) : EventsTruthful store' := by
  rcases hreported.reports with ⟨hquiet, hevents⟩ | ⟨hne, event, hnumber, hevents, hw, hkind, hk, hg⟩
  · refine h.rewrite hreported.rewrites hsame (A := [])
      (by rw [hevents, List.append_nil]) (by simp) fun hworkflow => ?_
    have htruth := h.truthful row hreported.rewrites.mem hworkflow
    rw [hquiet.resolve_right hworkflow, List.append_nil]
    exact htruth
  · refine h.rewrite hreported.rewrites hsame (A := [event]) (by rw [hevents]; rfl) ?_
      fun hworkflow => (h.truthful row hreported.rewrites.mem hworkflow).append hlive hne hafter hkind
    intro e he
    rw [List.mem_singleton.mp he]
    exact EventRow.concerns_iff.mpr ⟨hw, hk, hg⟩

end EventsTruthful

namespace EventsTruthful

variable {store store' : SwarmStore}

/-- Quiet steps keep the log truthful: the events they append concern no task. -/
theorem quiet (h : EventsTruthful store) (hquiet : Quiet store store') : EventsTruthful store' := by
  obtain ⟨added, hadded, hnone⟩ := hquiet.events
  have hlinked : Linked store' := by
    intro row hrow
    rcases hquiet.tasks.old_or_fresh hrow with ⟨r, hr, hcore⟩ | hfresh
    · obtain ⟨hw, hk, hg⟩ := SameComponent.of_core hcore
      rw [← hw, ← hk, ← hg]
      exact h.linked r hr
    · exact hfresh.columns.2
  have howned : ∀ event ∈ store'.events.entries, event.componentKey ≠ none →
      ∃ row ∈ store'.tasks.rows, event.concerns row = true := by
    intro event hevent hkey
    rw [hadded] at hevent
    rcases List.mem_append.mp hevent with hold | hnew
    · obtain ⟨row, hrow, hconcerns⟩ := h.owned event hold hkey
      obtain ⟨row', hrow', hcore⟩ := hquiet.tasks.kept hrow
      exact ⟨row', hrow', by rw [(SameComponent.of_core hcore).concerns_eq]; exact hconcerns⟩
    · exact absurd (hnone event hnew) hkey
  refine ⟨hlinked, howned, fun row hrow hworkflow => ?_⟩
  have hadds : ∀ r : TaskRow, r.componentKey ≠ none → added.filter (·.concerns r) = [] := by
    intro r hkey
    rw [List.filter_eq_nil_iff]
    intro event hevent hconcerns
    rw [← (EventRow.concerns_iff.mp hconcerns).2.1] at hkey
    exact hkey (hnone event hevent)
  have hevents : taskEvents store' row = taskEvents store row := by
    rw [taskEvents, hadded, List.filter_append, hadds row (hlinked row hrow hworkflow).1,
      List.append_nil, taskEvents]
  rw [hevents]
  by_cases hold : ∃ r ∈ store.tasks.rows, r.core = row.core
  · obtain ⟨r, hr, hcore⟩ := hold
    have htruth := h.truthful r hr
      (by rw [(SameComponent.of_core hcore).1]; exact hworkflow)
    rw [TaskRow.column_eq hcore TaskRow.status fun _ => rfl] at htruth
    rw [show taskEvents store row = taskEvents store r from
      List.filter_congr fun e _ => ((SameComponent.of_core hcore).concerns_eq e).symm]
    exact htruth
  · -- A fresh row has no events: an old owner of one would clash with it.
    have hnil : taskEvents store row = [] := by
      rw [taskEvents, List.filter_eq_nil_iff]
      intro event hevent hconcerns
      have hkey := (hlinked row hrow hworkflow).1
      rw [← (EventRow.concerns_iff.mp hconcerns).2.1] at hkey
      obtain ⟨owner, howner, hconcernsOwner⟩ := h.owned event hevent hkey
      obtain ⟨owner', howner', hcore⟩ := hquiet.tasks.kept howner
      rw [← (SameComponent.of_core hcore).concerns_eq] at hconcernsOwner
      rw [concerns_unique hlinked howner' hrow hconcernsOwner hconcerns] at hcore
      exact hold ⟨owner, howner, hcore.symm⟩
    rcases hquiet.tasks.old_or_fresh hrow with hkept | hfresh
    · exact absurd hkept hold
    · rw [hnil, hfresh.columns.1]
      exact ⟨fun _ => rfl, fun _ => Or.inl rfl, by simp, .nil, by simp⟩

/-- Guarded steps keep the log truthful. -/
theorem guarded (h : EventsTruthful store) (hstep : Guarded store store') : EventsTruthful store' := by
  cases hstep with
  | quiet hquiet => exact h.quiet hquiet
  | reserve hadmission =>
    exact h.silently hadmission.rewrites ⟨rfl, rfl, rfl⟩ (by rw [hadmission.frame])
      (Or.inl hadmission.pending) (Or.inr (Or.inl rfl))
  | bind hstatus hrewrites hevents =>
    exact h.silently hrewrites ⟨rfl, rfl, rfl⟩ hevents (Or.inr hstatus)
      (Or.inr (Or.inr rfl))
  | reset hstatus hrewrites hevents =>
    exact h.silently hrewrites ⟨rfl, rfl, rfl⟩ hevents (Or.inr hstatus) (Or.inl rfl)
  | refuse hstatus hreported =>
    exact h.reported hreported ⟨rfl, rfl, rfl⟩ (by rw [hstatus]; rfl)
      ⟨TaskStatus.noConfusion, TaskStatus.noConfusion⟩
  | @observe now row job hstatus hreported =>
    have hlive : row.status.isTerminal = false := by rcases hstatus with hs | hs <;> rw [hs] <;> rfl
    exact h.reported hreported ⟨rfl, rfl, rfl⟩ hlive (taskStatus_ne job.status)

end EventsTruthful

end TPUSwarm
