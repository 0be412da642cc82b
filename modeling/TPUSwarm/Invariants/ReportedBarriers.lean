import TPUSwarm.Invariants.StaticBarriers

/-!
# Barriers that a static workflow has reduced

Every event of a barrier reports a commit, and the commits of a static workflow increase. So
the last barrier its reducer has seen is the greatest one reported up to its cursor, and it is
the latest barrier of the store once the cursor covers the events of the workflow.
-/

namespace TPUSwarm

open Common SwarmStore

/-- The barrier that a stored payload names. -/
def payloadBarrier? (payload : JsonText) : Option ℤ :=
  match ((loads payload).get? "barrier").map Json.view with
  | some (.int barrier) => some barrier
  | _ => none

/-- The barrier that an event names. -/
def EventRow.barrier? (event : EventRow) : Option ℤ := payloadBarrier? event.payloadJson

/-- The barriers that the events of a workflow report up to a cursor. -/
def SwarmStore.reportedBarriers (store : SwarmStore) (workflowId : String) (cursor : ℕ) : List ℤ :=
  ((store.events.upTo (·.workflowId = workflowId) cursor).filter (·.kind = "BarrierCommitted")).filterMap
    EventRow.barrier?

/-- How a state spells the last barrier. -/
def barrierJson (barrier : Option ℤ) : Json := (barrier.map Json.int).getD .null

/-- The last of increasing numbers is the greatest. -/
theorem max?_eq_getLast? {l : List ℤ} (h : l.Pairwise (· < ·)) : l.max? = l.getLast? := by
  rcases List.eq_nil_or_concat l with rfl | ⟨init, last, rfl⟩
  · rfl
  · rw [List.concat_eq_append] at h ⊢
    rw [List.getLast?_concat, List.max?_eq_some_iff]
    refine ⟨List.mem_append_right _ List.mem_cons_self, fun b hb => ?_⟩
    rcases List.mem_append.mp hb with hb | hb
    · exact le_of_lt ((List.pairwise_append.mp h).2.2 b hb last List.mem_cons_self)
    · exact le_of_eq (List.mem_singleton.mp hb)

variable {engine : WorkflowEngine} {store : SwarmStore} {workflowId : String} {cursor : ℕ}

/-- The payload of a report names the barrier. -/
theorem CommitRow.report_barrier (commit : CommitRow) :
    (loads commit.report.2).get? "barrier" = some (.int commit.barrier) := by
  rw [report, loads_dumps]
  rfl

/-- The report of a barrier has its number. -/
theorem CommitRow.payloadBarrier?_report (commit : CommitRow) :
    payloadBarrier? commit.report.2 = some commit.barrier := by
  rw [payloadBarrier?, report_barrier]
  rfl

/-- An event of a barrier names it. -/
theorem exists_barrier? (h : History anyCall .empty store) {event : EventRow} (hmem : event ∈ store.events.entries)
    (hkind : event.kind = "BarrierCommitted") : ∃ barrier, event.barrier? = some barrier ∧
      (loads event.payloadJson).get? "barrier" = some (.int barrier) := by
  have hevent : (event.workflowId, event.payloadJson) ∈ store.barrierEvents :=
    List.mem_map.mpr ⟨event, List.mem_filter.mpr ⟨hmem, decide_eq_true hkind⟩, rfl⟩
  rw [barrierEvents_eq h] at hevent
  obtain ⟨commit, -, hreport⟩ := List.mem_map.mp hevent
  have hpayload : event.payloadJson = commit.report.2 := (congrArg Prod.snd hreport).symm
  rw [EventRow.barrier?, hpayload]
  exact ⟨commit.barrier, commit.payloadBarrier?_report, commit.report_barrier⟩

/-- All events of a workflow together report its barriers, in the order of the commits. -/
theorem reported_all (h : History anyCall .empty store) (workflowId : String) :
    ((store.events.entries.filter (·.workflowId = workflowId)).filter (·.kind = "BarrierCommitted")).filterMap
      EventRow.barrier? = store.barriers workflowId := by
  -- both sides read the reports of this workflow
  let pick (report : String × JsonText) : Option ℤ :=
    if report.1 = workflowId then payloadBarrier? report.2 else none
  have hcommits : store.barriers workflowId = (store.commits.rows.map CommitRow.report).filterMap pick := by
    rw [barriers, List.filterMap_map, ← List.filterMap_eq_map, List.filterMap_filter]
    refine List.filterMap_congr fun commit _ => ?_
    dsimp only [pick, Function.comp_apply]
    rw [commit.payloadBarrier?_report]
    by_cases hid : commit.workflowId = workflowId <;> simp [CommitRow.report, hid]
  rw [hcommits, ← barrierEvents_eq h, barrierEvents, List.filterMap_map, List.filterMap_filter,
    List.filterMap_filter, List.filterMap_filter]
  refine List.filterMap_congr fun event _ => ?_
  by_cases hid : event.workflowId = workflowId
  · simp [pick, hid, EventRow.barrier?]
  · simp [pick, hid]

/-- What is reported up to a cursor is part of what was committed. -/
theorem reported_sublist (h : History anyCall .empty store) :
    (store.reportedBarriers workflowId cursor).Sublist (store.barriers workflowId) := by
  rw [← reported_all h]
  have hupTo : (store.events.upTo (fun event => decide (event.workflowId = workflowId)) cursor).Sublist
      (store.events.entries.filter (·.workflowId = workflowId)) :=
    List.monotone_filter_right _ fun event hselected => (Bool.and_eq_true_iff.mp hselected).1
  exact (hupTo.filter _).filterMap _

/-- With the cursor at the end, everything committed is reported. -/
theorem reported_end (h : History anyCall .empty store)
    (hend : ∀ event ∈ store.events.entries, event.workflowId = workflowId → event.eventId ≤ cursor) :
    store.reportedBarriers workflowId cursor = store.barriers workflowId := by
  have hupTo : store.events.upTo (fun event => decide (event.workflowId = workflowId)) cursor =
      store.events.entries.filter (·.workflowId = workflowId) := by
    refine List.filter_congr fun event hevent => ?_
    by_cases hid : event.workflowId = workflowId
    · simp [hid, Numbered.number, hend event hevent hid]
    · simp [hid]
  rw [← reported_all h, reportedBarriers, hupTo]

/-- The last event of a barrier is the last one reported. -/
theorem getLast?_barrier {events : List EventRow} (h : ∀ event ∈ events, ∃ barrier, event.barrier? = some barrier ∧
      (loads event.payloadJson).get? "barrier" = some (.int barrier)) :
    (events.getLast?.map fun event => (event.toEvent.payload.get? "barrier").getD .null).getD .null =
      barrierJson (events.filterMap EventRow.barrier?).getLast? := by
  rcases List.eq_nil_or_concat events with rfl | ⟨init, last, rfl⟩
  · rfl
  · rw [List.concat_eq_append] at h ⊢
    obtain ⟨barrier, hbarrier, hpayload⟩ := h last (List.mem_append_right _ List.mem_cons_self)
    have htoEvent : last.toEvent.payload.get? "barrier" = some (.int barrier) := hpayload
    rw [List.getLast?_concat, List.filterMap_append, List.filterMap_cons_some hbarrier, List.filterMap_nil,
      List.getLast?_concat, Option.map_some, htoEvent]
    rfl

/-- Reducing events of the log makes their changes in order. -/
theorem foldlM_reduceRow (h : History anyCall .empty store) {events : List EventRow}
    (hevents : ∀ event ∈ events, event ∈ store.events.entries) (progress : StaticProgress) :
    events.foldlM staticMultiAutoResumable.reduceRow progress.encode =
      .ok ((events.map EventRow.toEvent).foldl StaticProgress.step progress).encode := by
  have hfold : events.foldlM staticMultiAutoResumable.reduceRow progress.encode =
      (events.map EventRow.toEvent).foldlM StaticMultiAutoResumable.reduce progress.encode := by
    rw [List.foldlM_map]
    rfl
  rw [hfold]
  refine StaticProgress.foldlM_reduce progress fun event hevent hkind => ?_
  obtain ⟨row, hrow, rfl⟩ := List.mem_map.mp hevent
  obtain ⟨barrier, -, hpayload⟩ := exists_barrier? h (hevents row hrow) hkind
  exact ⟨_, hpayload⟩

/-- A reduced state spells the changes of the events up to its cursor. -/
theorem StaticReplayed.eq_encode {state : Mapping} (h : History anyCall .empty store)
    (hreplayed : StaticReplayed store workflowId state cursor) :
    state = (((store.events.upTo (fun event => decide (event.workflowId = workflowId)) cursor).map
      EventRow.toEvent).foldl StaticProgress.step ⟨Dict.empty, .null⟩).encode := by
  have hevents : ∀ event ∈ store.events.upTo (fun event => decide (event.workflowId = workflowId)) cursor,
      event ∈ store.events.entries := fun event hevent => (List.mem_filter.mp hevent).1
  exact Except.ok.inj (hreplayed.2.symm.trans (foldlM_reduceRow h hevents ⟨Dict.empty, .null⟩))

/-- A reduced state names the last barrier that is reported up to its cursor. -/
theorem StaticReplayed.lastBarrier {state : Mapping} (h : History anyCall .empty store)
    (hreplayed : StaticReplayed store workflowId state cursor) :
    state.get? "last_barrier" = some (barrierJson (store.reportedBarriers workflowId cursor).getLast?) := by
  rw [hreplayed.eq_encode h, StaticProgress.get?_encode_barrier, StaticProgress.lastBarrier_foldl, List.filter_map,
    List.getLast?_map, Option.map_map]
  refine congrArg some ?_
  exact getLast?_barrier fun event hevent => exists_barrier? h (List.mem_filter.mp (List.mem_filter.mp hevent).1).1
    (of_decide_eq_true (List.mem_filter.mp hevent).2)

/-- The latest barrier of a workflow is its greatest. -/
theorem latestBarrier_greatest (h : History anyCall .empty store) (workflowId : String) :
    ∃ latest, latestBarrier workflowId store = .ok latest ∧
      latest.map BarrierCommit.barrier = (store.barriers workflowId).max? := by
  cases hfound : store.greatestCommit? workflowId with
  | none =>
    refine ⟨none, by rw [latestBarrier, hfound], ?_⟩
    have hnone : store.commits.rows.filter (·.workflowId = workflowId) = [] :=
      List.filter_eq_nil_iff.mpr fun row hrow => by simpa using greatestCommit?_eq_none hfound row hrow
    rw [barriers, hnone]
    rfl
  | some row =>
    obtain ⟨hmem, hworkflow, hgreatest⟩ := greatestCommit?_eq_some hfound
    obtain ⟨before, after, now, commit, hcommitted⟩ := exists_committed h row hmem
    refine ⟨some ⟨workflowId, row.barrier, row.controllerCheckpointUri, commit.components, row.createdAt⟩, ?_, ?_⟩
    · rw [latestBarrier, hfound]
      dsimp only
      rw [hcommitted.decodes]
      rfl
    · refine (List.max?_eq_some_iff.mpr ⟨?_, fun barrier hbarrier => ?_⟩).symm
      · exact List.mem_map_of_mem (List.mem_filter.mpr ⟨hmem, decide_eq_true hworkflow⟩)
      · obtain ⟨other, hother, rfl⟩ := List.mem_map.mp hbarrier
        obtain ⟨hrow, hsame⟩ := List.mem_filter.mp hother
        exact hgreatest other hrow (of_decide_eq_true hsame)

end TPUSwarm
