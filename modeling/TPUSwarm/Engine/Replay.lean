import TPUSwarm.Engine.System

/-!
# Replay is exact

What a reconciliation saves is the fold of `reduce` over the events of its workflow up to
the cursor it saves. It stays so whatever happens between the reads and the save, because
events read are never removed and new events get larger numbers. A late save is older, never wrong.
-/

namespace TPUSwarm

open Common Relation SwarmStore

/-- `reduce` on a row of the event log. -/
def MultiAutoResumable.reduceRow (handler : MultiAutoResumable) (state : Mapping) (row : EventRow) :
    Except PyError Mapping := handler.reduce state row.toEvent

/-- The loop of `reconcile` over the events it read is the fold, up to the last of them. -/
theorem WorkflowEngine.replay_eq_ok {handler : MultiAutoResumable} {state state' : Mapping} {cursor cursor' : ℕ}
    {rows : List EventRow} (h : replay handler state cursor (rows.map EventRow.toEvent) = .ok (state', cursor')) :
    rows.foldlM handler.reduceRow state = .ok state' ∧ cursor' = Log.reached cursor rows := by
  induction rows generalizing state cursor with
  | nil =>
    cases h
    exact ⟨rfl, rfl⟩
  | cons row rest ih =>
    obtain ⟨next, hnext, h⟩ := bind_eq_ok.mp h
    obtain ⟨hfold, hcursor⟩ := ih h
    refine ⟨?_, hcursor⟩
    rw [List.foldlM_cons]
    exact bind_eq_ok.mpr ⟨next, hnext, hfold⟩

/-- Where the fold returns, so does the loop. -/
theorem WorkflowEngine.replay_of_fold {handler : MultiAutoResumable} {state state' : Mapping} {cursor : ℕ}
    {rows : List EventRow} (h : rows.foldlM handler.reduceRow state = .ok state') :
    replay handler state cursor (rows.map EventRow.toEvent) = .ok (state', Log.reached cursor rows) := by
  induction rows generalizing state cursor with
  | nil =>
    cases h
    rfl
  | cons row rest ih =>
    rw [List.foldlM_cons] at h
    obtain ⟨next, hnext, hrest⟩ := bind_eq_ok.mp h
    exact bind_eq_ok.mpr ⟨next, hnext, ih hrest⟩

/-- The progress is the fold over exactly the events up to its cursor, from the initial state
that its workflow was submitted with. -/
def Exact (registry : TaskRegistry) (records : Records) (p : WorkflowProgress) : Prop :=
  ∃ initialState, records.submitted.filter (·.workflowId = p.workflowId) = [⟨p.workflowId, initialState⟩] ∧
    ∀ handler, registry.workflow p.kind = .ok handler →
      Replayed handler.reduceRow initialState (·.workflowId = p.workflowId) records.store.events
        (loads p.stateJson) p.eventCursor

/-- Exact progress of a workflow that exists. -/
structure Tracked (registry : TaskRegistry) (p : WorkflowProgress) (records : Records) : Prop where
  exists_row : ∃ q ∈ records.progresses, q.workflowId = p.workflowId ∧ q.kind = p.kind
  exact : Exact registry records p

/-- What holds of the records all the time. -/
structure Replaying (registry : TaskRegistry) (records : Records) : Prop where
  exact : ∀ p ∈ records.progresses, Exact registry records p
  known : ∀ submission ∈ records.submitted, ∃ p ∈ records.progresses, p.workflowId = submission.workflowId

/-- A call saves progress that is exact. -/
def SavesExact (registry : TaskRegistry) (records : Records) : Call → Prop
  | .saveWorkflowState workflowId state cursor => ∀ p ∈ records.progresses, p.workflowId = workflowId →
      Exact registry records ⟨workflowId, p.kind, dumps state, cursor⟩
  | _ => True

namespace Tracked

variable {registry : TaskRegistry} {call : Call} {now : Time} {result : call.Result} {records records' : Records}

/-- Every call keeps the workflows that exist, with their kinds. -/
theorem exists_row' (h : Progresses call records records') {p : WorkflowProgress}
    (hp : ∃ q ∈ records.progresses, q.workflowId = p.workflowId ∧ q.kind = p.kind) :
    ∃ q ∈ records'.progresses, q.workflowId = p.workflowId ∧ q.kind = p.kind := by
  obtain ⟨q, hq, hid, hkind⟩ := hp
  cases h with
  | kept _ _ hsame => exact ⟨q, hsame ▸ hq, hid, hkind⟩
  | submitted _ _ _ happend => exact ⟨q, happend ▸ List.mem_append_left _ hq, hid, hkind⟩
  | @saved workflowId state cursor _ _ hmap =>
    rw [hmap]
    refine ⟨_, List.mem_map_of_mem hq, ?_⟩
    split
    · exact ⟨hid, hkind⟩
    · exact ⟨hid, hkind⟩

/-- Exact progress stays exact whatever call returns. -/
theorem returns (h : records.Returns call now result records') {p : WorkflowProgress}
    (hp : Tracked registry p records) : Tracked registry p records' := by
  obtain ⟨q, hq, hid, -⟩ := hp.exists_row
  obtain ⟨initialState, hsubmitted, hreplayed⟩ := hp.exact
  refine ⟨exists_row' h.progresses hp.exists_row, initialState, ?_, fun handler hhandler =>
    (hreplayed handler hhandler).of_extends (Call.events_extend h.run)⟩
  cases h.progresses with
  | kept _ hsame => rw [hsame, hsubmitted]
  | saved _ hsame => rw [hsame, hsubmitted]
  | submitted _ happend hfresh =>
    rw [happend, List.filter_append, hsubmitted, List.filter_cons_of_neg, List.filter_nil, List.append_nil]
    simpa [hid] using (hfresh q hq).symm

end Tracked

namespace Replaying

variable {registry : TaskRegistry} {call : Call} {now : Time} {result : call.Result} {records records' : Records}

/-- The progress of a workflow that exists is tracked. -/
theorem tracked (h : Replaying registry records) {p : WorkflowProgress} (hp : p ∈ records.progresses) :
    Tracked registry p records := ⟨⟨p, hp, rfl, rfl⟩, h.exact p hp⟩

/-- A call that saves only exact progress keeps all progress exact. -/
theorem returns (h : Replaying registry records) (hreturns : records.Returns call now result records')
    (hsaves : SavesExact registry records call) : Replaying registry records' := by
  have hknown : ∀ {p : WorkflowProgress}, p ∈ records.progresses →
      ∃ q ∈ records'.progresses, q.workflowId = p.workflowId := fun hp => by
    obtain ⟨q, hq, hid, -⟩ := Tracked.exists_row' hreturns.progresses ⟨_, hp, rfl, rfl⟩
    exact ⟨q, hq, hid⟩
  have hprogresses := hreturns.progresses
  cases hprogresses with
  | kept _ hsame hrows =>
    refine ⟨fun p hp => ((h.tracked (hrows ▸ hp)).returns hreturns).exact, fun submission hsubmission => ?_⟩
    obtain ⟨p, hp, hid⟩ := h.known submission (hsame ▸ hsubmission)
    obtain ⟨q, hq, hqid⟩ := hknown hp
    exact ⟨q, hq, hqid.trans hid⟩
  | @submitted submission kind _ happend hfresh hrows =>
    refine ⟨fun p hp => ?_, fun s hs => ?_⟩
    · rw [hrows] at hp
      rcases List.mem_append.mp hp with hp | hp
      · exact ((h.tracked hp).returns hreturns).exact
      · obtain rfl := List.mem_singleton.mp hp
        refine ⟨submission.initialState, ?_, fun handler _ => ?_⟩
        · have hnone : records.submitted.filter (·.workflowId = submission.workflowId) = [] := by
            refine List.filter_eq_nil_iff.mpr fun s hs hsame => ?_
            obtain ⟨p, hp, hid⟩ := h.known s hs
            exact hfresh p hp (hid.trans (of_decide_eq_true hsame))
          rw [happend, List.filter_append, hnone]
          simp
        · rw [loads_dumps]
          exact Replayed.start _ _ _ _
    · rw [happend] at hs
      rcases List.mem_append.mp hs with hs | hs
      · obtain ⟨p, hp, hid⟩ := h.known s hs
        obtain ⟨q, hq, hqid⟩ := hknown hp
        exact ⟨q, hq, hqid.trans hid⟩
      · obtain rfl := List.mem_singleton.mp hs
        exact ⟨_, hrows ▸ List.mem_append_right _ List.mem_cons_self, rfl⟩
  | @saved workflowId state cursor hcall hsame hrows =>
    refine ⟨fun p hp => ?_, fun submission hsubmission => ?_⟩
    · rw [hrows] at hp
      obtain ⟨q, hq, rfl⟩ := List.mem_map.mp hp
      split
      · rename_i hid
        rw [hcall] at hsaves
        have hexact := hsaves q hq hid
        rw [← hid] at hexact
        have htracked : Tracked registry ⟨q.workflowId, q.kind, dumps state, cursor⟩ records :=
          ⟨⟨q, hq, rfl, rfl⟩, hexact⟩
        exact (htracked.returns hreturns).exact
      · exact ((h.tracked hq).returns hreturns).exact
    · obtain ⟨p, hp, hid⟩ := h.known submission (hsame ▸ hsubmission)
      obtain ⟨q, hq, hqid⟩ := hknown hp
      exact ⟨q, hq, hqid.trans hid⟩

end Replaying

end TPUSwarm
