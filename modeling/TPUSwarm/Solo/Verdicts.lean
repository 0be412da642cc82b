import TPUSwarm.Invariants.Checkpoints
import TPUSwarm.Service.Settling
import TPUSwarm.Solo.Progress
import TPUSwarm.Solo.Workflows

/-!
# What the end of a workflow says of its tasks

A workflow ends by a verdict of its handler on the components read last. Between the read and the end the API may
do what it likes, and the tasks go on after it, yet the verdict stays right: the links of a workflow that has ended
are never moved, and a task that has ended never changes. So a static workflow that has succeeded is one whose tasks
have all succeeded, in every later state.
-/

namespace TPUSwarm

open Common Relation SwarmStore

/-- Two records of one task agree on how it has ended. -/
def TaskRecord.SameEnd (task task' : TaskRecord) : Prop :=
  task'.status = task.status ∧ task'.result = task.result ∧ task'.lastError = task.lastError

/-- A store keeps what a verdict on a workflow rests on: its links, and the tasks that have ended. -/
structure KeepsEnds (workflowId : String) (store store' : SwarmStore) : Prop where
  links : ∀ key, store'.component? workflowId key = store.component? workflowId key
  tasks : ∀ row ∈ store.tasks.rows, ∃ row' ∈ store'.tasks.rows, row'.taskId = row.taskId ∧
    (row.status.isTerminal = true → row'.core = row.core)

/-- Components that were read are those of the workflow, and the ones that had ended then are as they were. -/
structure Witnessed (components : Dict String TaskRecord) (store : SwarmStore) (workflowId : String) : Prop where
  kept : ∀ key task, components.get? key = some task → ∃ task',
    (store.getWorkflowComponents workflowId).get? key = some task' ∧
      (task.status.isTerminal = true → task.SameEnd task')
  all : ∀ key, components.get? key = none → store.component? workflowId key = none

namespace Witnessed

variable {components : Dict String TaskRecord} {store store' : SwarmStore} {workflowId : String}

/-- The components are read where every link has its task. -/
theorem read (hlinked : LinkedTasks store) :
    Witnessed (store.getWorkflowComponents workflowId) store workflowId := by
  refine ⟨fun key task htask => ⟨task, htask, fun _ => ⟨rfl, rfl, rfl⟩⟩, fun key hnone => ?_⟩
  rw [getWorkflowComponents_lookup] at hnone
  cases hlink : store.component? workflowId key with
  | none => rfl
  | some link =>
    obtain ⟨row, hrow⟩ := hlinked link (component?_eq_some.mp hlink).1
    rw [hlink, Option.bind_some, hrow] at hnone
    cases hnone

/-- What was witnessed is kept as long as the ends are. -/
theorem keeps (h : Witnessed components store workflowId) (hkeeps : KeepsEnds workflowId store store') :
    Witnessed components store' workflowId := by
  refine ⟨fun key task htask => ?_, fun key hnone => (hkeeps.links key).trans (h.all key hnone)⟩
  obtain ⟨task', htask', hend⟩ := h.kept key task htask
  rw [getWorkflowComponents_lookup] at htask' ⊢
  obtain ⟨link, hlink, hfound⟩ := Option.bind_eq_some_iff.mp htask'
  obtain ⟨row, hrow, rfl⟩ := Option.map_eq_some_iff.mp hfound
  obtain ⟨hmem, hid⟩ := task?_eq_some.mp hrow
  obtain ⟨row', hmem', hid', hcore⟩ := hkeeps.tasks row hmem
  refine ⟨row'.linkedRecord key, ?_, fun hterminal => ?_⟩
  · rw [hkeeps.links, hlink, Option.bind_some, task?_eq_some.mpr ⟨hmem', hid'.trans hid⟩]
    rfl
  · obtain ⟨hstatus, hresult, herror⟩ := hend hterminal
    have hsame := hcore (by rw [show row.status = task.status from hstatus]; exact hterminal)
    have hresults : row'.resultJson = row.resultJson := TaskRow.column_eq hsame TaskRow.resultJson fun _ => rfl
    refine ⟨(TaskRow.column_eq hsame TaskRow.status fun _ => rfl).trans hstatus, ?_,
      (TaskRow.column_eq hsame TaskRow.lastError fun _ => rfl).trans herror⟩
    rw [← hresult]
    exact congrArg (Option.map loads) hresults

/-- A component there is now was read. -/
theorem exists_read (h : Witnessed components store workflowId) {key : String} {task' : TaskRecord}
    (htask' : (store.getWorkflowComponents workflowId).get? key = some task') :
    ∃ task, components.get? key = some task ∧ (task.status.isTerminal = true → task.SameEnd task') := by
  cases htask : components.get? key with
  | none =>
    rw [getWorkflowComponents_lookup, h.all key htask] at htask'
    cases htask'
  | some task =>
    obtain ⟨found, hfound, hend⟩ := h.kept key task htask
    obtain rfl := Option.some.inj (hfound.symm.trans htask')
    exact ⟨task, rfl, hend⟩

end Witnessed

/-- The links of a workflow stay while no component of it is replaced. -/
theorem Call.component?_eq {call : Call} {now : Time} {store store' : SwarmStore} {result : call.Result}
    (hrun : call.run now store = .ok (result, store')) {workflowId : String} {row : WorkflowRow}
    (hrow : store.workflow? workflowId = some row)
    (hreplace : ∀ component, call ≠ .replaceComponent workflowId component)
    (key : String) : store'.component? workflowId key = store.component? workflowId key := by
  cases hlink : store.component? workflowId key with
  | some link => exact Call.keeps_link hrun hlink fun component hcall => absurd hcall (hreplace component)
  | none =>
    apply Option.eq_none_iff_forall_ne_some.mpr
    intro link hlink'
    obtain ⟨hmem, hplace⟩ := component?_eq_some.mp hlink'
    obtain ⟨rfl, rfl⟩ := Prod.mk.inj hplace
    have hold := Call.link_old hrun hmem (fun spec components initialState hcall => ?_)
      fun component hcall => absurd hcall (hreplace component)
    · rw [component?_eq_some.mpr ⟨hold, rfl⟩] at hlink
      cases hlink
    · subst hcall
      obtain ⟨-, hnew, -, -⟩ := submitWorkflow_eq_ok hrun
      obtain ⟨hworkflow, hid⟩ := workflow?_eq_some.mp hrow
      exact fun hsame => hnew row hworkflow (hid.trans hsame.symm)

/-- A handler has decided how an active workflow ends, on components that are still as they were read. -/
def Decided (kind : String) (handler : MultiAutoResumable) (store : SwarmStore) (workflowId : String)
    (verdict : WorkflowStatus × Option Mapping × Option String) : Prop :=
  ∃ row components, store.workflow? workflowId = some row ∧ row.status = .active ∧
    (row.kind = kind → handler.verdict row.toRecord (loads row.stateJson) components = .ok (some verdict)) ∧
      Witnessed components store workflowId

/-- What makes a call of the controller sound: it replaces components of active workflows only, and ends a workflow
as its handler has decided. -/
def Grounded (kind : String) (handler : MultiAutoResumable) (store : SwarmStore) : Call → Prop
  | .replaceComponent workflowId _ => ∃ row, store.workflow? workflowId = some row ∧ row.status = .active
  | .completeWorkflow workflowId result => Decided kind handler store workflowId (.succeeded, some result, none)
  | .failWorkflow workflowId reason => Decided kind handler store workflowId (.failed, none, some reason)
  | _ => True

/-- A workflow row has ended by a verdict of its handler, on components that are still as they were read. -/
def EndedBy (handler : MultiAutoResumable) (store : SwarmStore) (row : WorkflowRow) : Prop :=
  ∃ before now result reason components, row = WorkflowRow.finished row.status result reason now before ∧
    before.status = .active ∧ handler.verdict before.toRecord (loads row.stateJson) components =
      .ok (some (row.status, result, reason)) ∧ Witnessed components store row.workflowId

/-- Every workflow of a kind that has ended has ended by a verdict. -/
def Verdicts (kind : String) (handler : MultiAutoResumable) (store : SwarmStore) : Prop :=
  ∀ row ∈ store.workflows.rows, row.kind = kind → row.status ≠ .active → EndedBy handler store row

/-- A sound call keeps verdicts right, where tasks that have ended and workflows that have ended do not change. -/
theorem Verdicts.run {kind : String} {handler : MultiAutoResumable} {store store' : SwarmStore} {call : Call}
    {now : Time}
    {result : call.Result} (h : Verdicts kind handler store) (hgrounded : Grounded kind handler store call)
    (hrun : call.run now store = .ok (result, store'))
    (htasks : ∀ row ∈ store.tasks.rows, ∃ row' ∈ store'.tasks.rows, row'.taskId = row.taskId ∧
      (row.status.isTerminal = true → row'.core = row.core))
    (hworkflows : ∀ row ∈ store.workflows.rows, ∃ row' ∈ store'.workflows.rows,
      row'.workflowId = row.workflowId ∧ row.Evolves row') : Verdicts kind handler store' := by
  intro row' hrow' hkind hended
  have hfound : store'.workflow? row'.workflowId = some row' := workflow?_eq_some.mpr ⟨hrow', rfl⟩
  cases hold : store.workflow? row'.workflowId with
  | none =>
    obtain ⟨spec, components, initialState, -, rfl⟩ := Call.workflow_new hrun hold hfound
    exact absurd rfl hended
  | some row =>
    obtain ⟨hmem, hid⟩ := workflow?_eq_some.mp hold
    by_cases hactive : row.status = .active
    · rcases Call.workflow_after hrun hold with hsame | ⟨write, hupdate, hwritten⟩
      · obtain rfl := Option.some.inj (hsame.symm.trans hfound)
        exact absurd hactive hended
      · obtain rfl := Option.some.inj (hwritten.symm.trans hfound)
        have hframe := Call.update_frame hupdate hrun
        have hkeeps : KeepsEnds row.workflowId store store' := by
          rw [hframe]
          exact ⟨fun _ => rfl, fun task htask => ⟨task, htask, rfl, fun _ => rfl⟩⟩
        cases call with
        | saveWorkflowState _ _ _ =>
          obtain ⟨-, rfl⟩ := Prod.mk.inj (Option.some.inj hupdate)
          exact absurd hactive hended
        | completeWorkflow _ _ | failWorkflow _ _ =>
          obtain ⟨rfl, rfl⟩ := Prod.mk.inj (Option.some.inj hupdate)
          obtain ⟨before, components, hbefore, -, hverdict, hwitnessed⟩ := hgrounded
          obtain rfl := Option.some.inj (hbefore.symm.trans hold)
          exact ⟨before, now, _, _, components, rfl, hactive, hverdict hkind, hwitnessed.keeps hkeeps⟩
        | _ => cases hupdate
    · obtain ⟨later, hlater, hlaterId, hevolves⟩ := hworkflows row hmem
      have hfoundLater : store'.workflow? row'.workflowId = some later :=
        workflow?_eq_some.mpr ⟨hlater, hlaterId.trans hid⟩
      obtain rfl := Option.some.inj (hfoundLater.symm.trans hfound)
      obtain rfl := hevolves.frozen hactive
      obtain ⟨before, ended, result, reason, components, hrow, hbefore, hverdict, hwitnessed⟩ :=
        h _ hmem hkind hended
      have hreplace : ∀ component, call ≠ .replaceComponent later.workflowId component := by
        rintro component rfl
        obtain ⟨row, hrow, hopen⟩ := hgrounded
        obtain rfl := Option.some.inj (hrow.symm.trans hold)
        exact hactive hopen
      exact ⟨before, ended, result, reason, components, hrow, hbefore, hverdict,
        hwitnessed.keeps ⟨Call.component?_eq hrun hold hreplace, htasks⟩⟩

/-- The effect of a call on a site, or none. -/
def CallMove (allowed : Call → Prop) (site site' : Site) : Prop :=
  site'.store = site.store ∨ ∃ (call : Call) (now : Time) (result : call.Result), allowed call ∧
    call.run now site.store = .ok (result, site'.store)

/-- A performed call is a move. -/
theorem CallMove.of_perform {allowed : Call → Prop} {site site' : Site} {call : Call} {now : Time}
    {outcome : Except PyError call.Result} (hcall : allowed call)
    (h : call.perform now site.store = (outcome, site'.store)) : CallMove allowed site site' := by
  rcases Call.perform_cases h with ⟨e, -, hsame⟩ | ⟨result, -, hrun⟩
  · exact Or.inl hsame
  · exact Or.inr ⟨call, now, result, hcall, hrun⟩

/-- Every link has its task after a call, too. -/
theorem CallMove.linked {allowed : Call → Prop} {site site' : Site} (h : CallMove allowed site site')
    (hlinked : LinkedTasks site.store) : LinkedTasks site'.store := by
  rcases h with hsame | ⟨call, now, result, -, hrun⟩
  · rw [hsame]
    exact hlinked
  · exact hlinked.run hrun

/-- When the controller may issue an operation. -/
def GroundedOperation (kind : String) (handler : MultiAutoResumable) : Operation → Site → Prop
  | .store call _, site => Grounded kind handler site.store call
  | _, _ => True

/-- The machine of a controller whose verdicts are to be sound. -/
def verdictSimulation (D : Deployment) (kind : String) (handler : MultiAutoResumable) :
    D.system.Simulation Site where
  view := id
  inv site := LinkedTasks site.store
  move _ := CallMove fun _ => True
  envMove := CallMove (·.isApi = true)
  permitted _ := GroundedOperation kind handler
  inv_move _ _ _ hinv h := h.linked hinv
  inv_env _ _ hinv h := h.linked hinv

/-- What the program of the one controller has to follow. -/
abbrev grounded (D : Deployment) (kind : String) (handler : MultiAutoResumable) :=
  (verdictSimulation D kind handler).abstraction ()

/-- A fact that calls of the API do not change. -/
def LeftByApi (fact : Site → Prop) : Prop :=
  ∀ site site', CallMove (·.isApi = true) site site' → fact site → fact site'

/-- Truth is left by the API. -/
theorem LeftByApi.true : LeftByApi fun _ => True := fun _ _ _ _ => trivial

/-- The API updates no workflow and replaces no component. -/
theorem Call.isApi_cases {call : Call} (h : call.isApi = true) : call.isUpdate = false ∧ call.isTransition = false ∧
    ∀ workflowId component, call ≠ .replaceComponent workflowId component := by
  cases call <;> first | (cases h; done) | exact ⟨rfl, rfl, fun _ _ => nofun⟩

/-- The API keeps the row of a workflow. -/
theorem LeftByApi.row (workflowId : String) (row : WorkflowRow) :
    LeftByApi fun site => site.store.workflow? workflowId = some row := by
  rintro site site' (hsame | ⟨call, now, result, hapi, hrun⟩) hrow
  · rw [hsame]
    exact hrow
  · exact Call.workflow_unchanged (Call.update?_eq_none (Call.isApi_cases hapi).1 now) hrun hrow

/-- The API keeps what a verdict on a workflow rests on. -/
theorem LeftByApi.witnessed (workflowId : String) (row : WorkflowRow) (components : Dict String TaskRecord) :
    LeftByApi fun site => site.store.workflow? workflowId = some row ∧
      Witnessed components site.store workflowId := by
  intro site site' hmove ⟨hrow, hwitnessed⟩
  refine ⟨LeftByApi.row workflowId row site site' hmove hrow, ?_⟩
  rcases hmove with hsame | ⟨call, now, result, hapi, hrun⟩
  · rw [hsame]
    exact hwitnessed
  · obtain ⟨-, htransition, hreplace⟩ := Call.isApi_cases hapi
    refine hwitnessed.keeps ⟨Call.component?_eq hrun hrow (hreplace workflowId), fun task htask => ?_⟩
    obtain ⟨task', htask', hcore⟩ := (Call.quiet htransition hrun).tasks.kept htask
    exact ⟨task', htask', TaskRow.column_eq hcore TaskRow.taskId fun _ => rfl, fun _ => hcore⟩

section Follows

variable {D : Deployment} {kind : String} {handler : MultiAutoResumable} {fact : Site → Prop} {site : Site}

/-- Nothing but the API acts beside the one controller. -/
theorem LeftByApi.stable (h : LeftByApi fact) : (grounded D kind handler).Stable fact := by
  rintro site site' (hleft | ⟨_, hne, -⟩) hfact
  · exact h _ _ hleft hfact
  · exact absurd rfl hne

/-- A sound call, from a fact to facts about its result. -/
theorem grounded_call (call : Call) {returned : call.Result → Site → Prop} (hfact : LeftByApi fact)
    (hreturned : ∀ r, LeftByApi (returned r))
    (hgrounded : ∀ site, fact site → Grounded kind handler site.store call)
    (h : ∀ (site : Site) clock result store', LinkedTasks site.store → fact site →
      call.run clock site.store = .ok (result, store') → returned result { site with store := store' })
    (hsite : fact site) :
    (callStore call none).Follows (grounded D kind handler) returned (fun _ _ => True) site := by
  refine Prog.Follows.issue (S := grounded D kind handler) (c := .store call none) hfact.stable (fun r => ?_)
    (fun m hinv hm => ?_) hsite
  · cases r with
    | ok r => exact (hreturned r).stable
    | error e => exact LeftByApi.true.stable
  · refine ⟨hgrounded m hm, fun outcome m' hexec => ?_⟩
    obtain ⟨-, hperform⟩ := hexec
    refine ⟨_, .single (.of_perform trivial hperform), rfl, ?_⟩
    rcases Call.perform_cases hperform with ⟨e, rfl, rfl⟩ | ⟨result, rfl, hrun⟩
    · exact trivial
    · exact h m _ result _ hinv hm hrun

/-- A computation without operations. -/
theorem grounded_ofExcept {α : Type} (r : Except PyError α) {returned : α → Site → Prop}
    (hreturned : ∀ a, LeftByApi (returned a)) (h : ∀ a, r = .ok a → returned a site) :
    (Action.ofExcept r : Effect α).Follows (grounded D kind handler) returned (fun _ _ => True) site := by
  cases r with
  | ok a => exact Prog.Follows.pure (Q := Action.post returned _) (hreturned a).stable (h a rfl)
  | error e =>
    exact Prog.Follows.pure (Q := Action.post returned fun _ _ => True) LeftByApi.true.stable trivial

/-- Operations that are sound whatever the store is. -/
def Harmless (op : Operation) : Prop := ∀ kind handler site, GroundedOperation kind handler op site

/-- A program of such operations. -/
theorem grounded_harmless {α : Type} {p : Effect α} (huses : p.Uses Harmless) :
    p.Follows (grounded D kind handler) (fun _ _ => True) (fun _ _ => True) site := by
  refine Action.Follows.of_uses (fun _ => True) LeftByApi.true.stable (fun op hop m _ _ => ⟨hop kind handler m, ?_⟩)
    huses trivial
  intro reply m' hexec
  refine ⟨m', .single ?_, rfl, trivial⟩
  cases hexec with
  | store _ hperform => exact .of_perform trivial hperform
  | _ => exact Or.inl rfl

/-- The loop over the components of a workflow that stays active. -/
theorem grounded_replaceComponents (engine : WorkflowEngine) {workflowId : String} {row : WorkflowRow}
    (hactive : row.status = .active) (current : Dict String TaskRecord) (components : List ComponentSpec)
    (hrow : site.store.workflow? workflowId = some row) :
    (engine.replaceComponents workflowId current components).Follows (grounded D kind handler)
      (fun _ (m : Site) => m.store.workflow? workflowId = some row) (fun _ _ => True) site := by
  have hkept := LeftByApi.row workflowId row
  induction components generalizing site with
  | nil =>
    exact Action.Follows.pure (Q := fun _ (m : Site) => m.store.workflow? workflowId = some row) hkept.stable hrow
  | cons component rest ih =>
    refine Action.Follows.bind (fun _ => LeftByApi.true.stable)
      (K := fun _ (m : Site) => m.store.workflow? workflowId = some row)
      (grounded_ofExcept _ (fun _ => hkept) fun _ _ => hrow) fun desired m _ hm => ?_
    dsimp only
    split
    · refine Action.Follows.bind (fun _ => LeftByApi.true.stable)
        (grounded_call (.replaceComponent workflowId desired) hkept (fun _ => hkept)
          (fun m hm => ⟨row, hm, hactive⟩) (fun m clock result store' _ hm hrun => ?_) hm) fun _ m _ hm => ih hm
      exact Call.workflow_unchanged rfl hrun hm
    · exact ih hm

/-- The end of a reconciliation: the state is saved, the components are read, and the handler decides. -/
theorem grounded_conclude (own : MultiAutoResumable) {workflowId : String} {row : WorkflowRow} (state : Mapping)
    (cursor : ℕ) (hactive : row.status = .active) (hown : row.kind = kind → own = handler)
    (hrow : site.store.workflow? workflowId = some row) :
    (own.conclude workflowId state cursor).Follows (grounded D kind handler) (fun _ _ => True)
      (fun _ _ => True) site := by
  have hkept (row : WorkflowRow) := LeftByApi.row workflowId row
  unfold MultiAutoResumable.conclude
  refine Action.Follows.bind (fun _ => LeftByApi.true.stable)
    (K := fun (workflow : WorkflowRecord) m => ∃ now, workflow = (row.saved state cursor now).toRecord ∧
      m.store.workflow? workflowId = some (row.saved state cursor now))
    (grounded_call (.saveWorkflowState workflowId state cursor) (hkept row) (fun workflow m m' hmove => ?_)
      (fun _ _ => trivial) (fun m now workflow store' _ hm hrun => ?_) hrow) fun workflow m _ hm => ?_
  · rintro ⟨now, hrecord, hsaved⟩
    exact ⟨now, hrecord, hkept _ m m' hmove hsaved⟩
  · have hwritten := (Call.update_selects (by rfl) hrun).2 workflowId
    rw [hm, Option.map_some, if_pos rfl] at hwritten
    exact ⟨now, updateWorkflow_record _ (fun _ => rfl) hm hrun, hwritten⟩
  obtain ⟨now, rfl, hrow⟩ := hm
  -- from here on the row stays as it was saved, and what is read stays right
  let judged (components : Dict String TaskRecord) (m : Site) : Prop :=
    m.store.workflow? workflowId = some (row.saved state cursor now) ∧ Witnessed components m.store workflowId
  have hjudged (components : Dict String TaskRecord) : LeftByApi (judged components) :=
    LeftByApi.witnessed workflowId _ components
  have hdecided {components : Dict String TaskRecord} {verdict : WorkflowStatus × Option Mapping × Option String}
      (hverdict : own.verdict (row.saved state cursor now).toRecord state components = .ok (some verdict))
      (m : Site)
      (hm : judged components m) : Decided kind handler m.store workflowId verdict := by
    refine ⟨_, components, hm.1, hactive, fun hkind => ?_, hm.2⟩
    rw [← hown hkind]
    exact hverdict
  refine Action.Follows.bind (fun _ => LeftByApi.true.stable) (K := judged)
    (grounded_call (.getWorkflowComponents workflowId) (hkept _) hjudged (fun _ _ => trivial)
      (fun m clock components store' hlinked hm hrun => ?_) hrow) fun components m _ hm => ?_
  · have hread : Call.reading (fun store => .ok (store.getWorkflowComponents workflowId)) m.store =
        .ok (components, store') := hrun
    obtain ⟨hcomponents, rfl⟩ := Call.reading_eq_ok.mp hread
    obtain rfl := Except.ok.inj hcomponents
    exact ⟨hm, .read hlinked⟩
  refine Action.Follows.bind (fun _ => LeftByApi.true.stable)
    (K := fun result m => own.completionResult (row.saved state cursor now).toRecord state components = .ok result ∧
      judged components m)
    (grounded_ofExcept _ (fun _ m m' hmove h => ⟨h.1, hjudged components m m' hmove h.2⟩) fun _ h => ⟨h, hm⟩)
    fun result m _ hm => ?_
  obtain ⟨hresult, hm⟩ := hm
  cases result with
  | some result =>
    refine grounded_call (.completeWorkflow workflowId result) (hjudged components) (fun _ => LeftByApi.true)
      (hdecided ?_) (fun _ _ _ _ _ _ _ => trivial) hm
    rw [MultiAutoResumable.verdict, hresult]
    rfl
  | none =>
    refine Action.Follows.bind (fun _ => LeftByApi.true.stable)
      (K := fun reason m => own.failureReason (row.saved state cursor now).toRecord state components = .ok reason ∧
        judged components m)
      (grounded_ofExcept _ (fun _ m m' hmove h => ⟨h.1, hjudged components m m' hmove h.2⟩) fun _ h => ⟨h, hm⟩)
      fun reason m _ hm => ?_
    obtain ⟨hreason, hm⟩ := hm
    cases reason with
    | some reason =>
      refine grounded_call (.failWorkflow workflowId reason) (hjudged components) (fun _ => LeftByApi.true)
        (hdecided ?_) (fun _ _ _ _ _ _ _ => trivial) hm
      rw [MultiAutoResumable.verdict_of_none hresult, hreason]
      rfl
    | none => exact Action.Follows.pure (Q := fun _ _ => True) LeftByApi.true.stable trivial

/-- A reconciliation replaces components while its workflow is active, and ends it as its handler decides. -/
theorem grounded_reconcile {engine : WorkflowEngine} (hhandler : engine.registry.workflow kind = .ok handler)
    (workflowId : String) : (engine.reconcile workflowId).Follows (grounded D kind handler) (fun _ _ => True)
      (fun _ _ => True) site := by
  have hkept (row : WorkflowRow) := LeftByApi.row workflowId row
  unfold WorkflowEngine.reconcile
  refine Action.Follows.bind (fun _ => LeftByApi.true.stable)
    (K := fun (workflow : WorkflowRecord) m => ∃ row, workflow = row.toRecord ∧
      m.store.workflow? workflowId = some row)
    (grounded_call (.getWorkflow workflowId) LeftByApi.true (fun workflow m m' hmove => ?_) (fun _ _ => trivial)
      (fun m clock workflow store' _ _ hrun => ?_) trivial) fun workflow m _ hm => ?_
  · rintro ⟨row, hrecord, hrow⟩
    exact ⟨row, hrecord, hkept row m m' hmove hrow⟩
  · obtain ⟨hget, rfl⟩ := Call.reading_eq_ok.mp hrun
    obtain ⟨row, hrow, rfl⟩ := Option.map_eq_some_iff.mp (orRaise_eq_ok.mp hget)
    exact ⟨row, rfl, hrow⟩
  obtain ⟨row, rfl, hrow⟩ := hm
  dsimp only
  split
  · exact Action.Follows.pure (Q := fun _ _ => True) LeftByApi.true.stable trivial
  rename_i hopen
  have hactive : row.status = .active := not_not.mp hopen
  refine Action.Follows.bind (fun _ => LeftByApi.true.stable)
    (K := fun own m => engine.registry.workflow row.kind = .ok own ∧ m.store.workflow? workflowId = some row)
    (grounded_ofExcept _ (fun _ m m' hmove h => ⟨h.1, hkept row m m' hmove h.2⟩) fun _ h => ⟨h, hrow⟩)
    fun own m _ hm => ?_
  obtain ⟨howns, hrow⟩ := hm
  have hown (hkind : row.kind = kind) : own = handler := by
    rw [hkind, hhandler] at howns
    exact (Except.ok.inj howns).symm
  refine Action.Follows.bind (fun _ => LeftByApi.true.stable)
    (grounded_call (.getWorkflowEvents workflowId row.eventCursor) (hkept row) (fun _ => hkept row)
      (fun _ _ => trivial)
      (fun m clock events store' _ hm hrun => Call.workflow_unchanged rfl hrun hm) hrow) fun events m _ hrow => ?_
  refine Action.Follows.bind (fun _ => LeftByApi.true.stable)
    (grounded_ofExcept _ (fun _ => hkept row) fun _ _ => hrow) fun replayed m _ hrow => ?_
  obtain ⟨state, cursor⟩ := replayed
  dsimp only
  refine Action.Follows.bind (fun _ => LeftByApi.true.stable)
    (grounded_call (.getWorkflowComponents workflowId) (hkept row) (fun _ => hkept row) (fun _ _ => trivial)
      (fun m clock current store' _ hm hrun => Call.workflow_unchanged rfl hrun hm) hrow) fun current m _ hrow => ?_
  refine Action.Follows.bind (fun _ => LeftByApi.true.stable)
    (grounded_ofExcept _ (fun _ => hkept row) fun _ _ => hrow) fun desired m _ hrow => ?_
  exact Action.Follows.bind (fun _ => LeftByApi.true.stable)
    (grounded_replaceComponents engine hactive current desired hrow) fun _ m _ hrow =>
      grounded_conclude own state cursor hactive hown hrow

/-- Settling is harmless. -/
theorem Settling.harmless {jobs : List ExecutorJob} {op : Operation} (h : Settling jobs op) : Harmless op := by
  intro kind handler site
  cases op with
  | store call now => cases call <;> trivial
  | _ => trivial

/-- Launching a batch is harmless. -/
theorem Admitting.harmless {controller : TPUSwarmController} {batch : List TaskRecord} {op : Operation}
    (h : Admitting controller batch op) : Harmless op := by
  intro kind handler site
  cases op with
  | store call now => cases call <;> trivial
  | _ => trivial

/-- The loop over the workflows. -/
theorem grounded_reconcileWorkflows {controller : TPUSwarmController}
    (hhandler : controller.registry.workflow kind = .ok handler) (workflows : List WorkflowRecord)
    (reconciled : List String) :
    (controller.reconcileWorkflows workflows reconciled).Follows (grounded D kind handler)
      (fun _ _ => True) (fun _ _ => True) site := by
  induction workflows generalizing reconciled site with
  | nil => exact Action.Follows.pure (Q := fun _ _ => True) LeftByApi.true.stable trivial
  | cons workflow rest ih =>
    refine Action.Follows.bind (fun _ => LeftByApi.true.stable) (K := fun _ _ => True)
      (Action.Follows.attempt (fun _ => LeftByApi.true.stable) (grounded_reconcile hhandler _))
        fun outcome m _ _ => ?_
    cases outcome with
    | ok _ => exact ih _
    | error _ => exact ih _

/-- The part of a cycle that only a leader reaches. -/
theorem grounded_cycle {controller : TPUSwarmController}
    (hhandler : controller.registry.workflow kind = .ok handler)
    (now : Time) :
    (controller.cycle now).Follows (grounded D kind handler) (fun _ _ => True) (fun _ _ => True) site := by
  have hpasses {α : Type} {p : Effect α} (huses : p.Uses Harmless) (m : Site) :
      p.Follows (grounded D kind handler) (fun _ _ => True) (fun _ _ => True) m := grounded_harmless huses
  have hlist : listJobs.Uses Harmless := Prog.Uses.issue fun _ _ _ => trivial
  have hcall (call : Call) (now : Option Time) (h : Harmless (.store call now)) :
      (callStore call now).Uses Harmless :=
    Prog.Uses.issue h
  unfold TPUSwarmController.cycle
  refine Action.Follows.bind (fun _ => LeftByApi.true.stable) (hpasses hlist.attempt _) fun outcome m _ _ => ?_
  cases outcome with
  | error e =>
    dsimp only
    split
    · exact hpasses (Action.Uses.pure _) m
    · exact Action.Follows.throw LeftByApi.true.stable trivial
  | ok jobs =>
    refine Action.Follows.bind (fun _ => LeftByApi.true.stable)
      (hpasses (hcall (.listTasks none) none fun _ _ _ => trivial) m) fun tasks m _ _ => ?_
    refine Action.Follows.bind (fun _ => LeftByApi.true.stable)
      (hpasses (Prog.Uses.mono (fun _ => Settling.harmless)
        (reconcileTasks_settles controller jobs now tasks [] [])) m)
      fun reports m _ _ => ?_
    refine Action.Follows.bind (fun _ => LeftByApi.true.stable)
      (hpasses (hcall (.listWorkflows (some .active)) none fun _ _ _ => trivial) m) fun workflows m _ _ => ?_
    refine Action.Follows.bind (fun _ => LeftByApi.true.stable)
      (grounded_reconcileWorkflows hhandler workflows []) fun reconciled m _ _ => ?_
    refine Action.Follows.bind (fun _ => LeftByApi.true.stable)
      (hpasses (hcall (.reserveSubmissions controller.submissionBatchSize) (some now) fun _ _ _ => trivial) m)
      fun batch m _ _ => ?_
    have hlaunches := launchTasks_admits controller now (List.Subset.refl batch) []
    exact hpasses (Action.Uses.bind (Prog.Uses.mono (fun _ => Admitting.harmless) hlaunches) fun _ =>
      Action.Uses.pure _) m

/-- A call of `reconcile_once`. -/
theorem grounded_reconcileOnce {controller : TPUSwarmController}
    (hhandler : controller.registry.workflow kind = .ok handler) (lease : Option ControllerLease) (now : Time) :
    (controller.reconcileOnce lease now).Follows (grounded D kind handler) (fun _ _ => True) site := by
  have hdone (outcome : CycleOutcome) (m : Site) :
      (pure outcome : Prog Operation Operation.Reply CycleOutcome).Follows (grounded D kind handler)
        (fun _ _ => True) m :=
    Prog.Follows.pure (Q := fun _ _ => True) LeftByApi.true.stable trivial
  have hany {α : Type} {p : Effect α} (huses : p.Uses Harmless) (m : Site) :
      p.run.Follows (grounded D kind handler) (fun _ _ => True) m :=
    Prog.Follows.mono (grounded_harmless huses) fun _ _ _ _ => trivial
  have hheld : (controller.heldLease lease now).Uses Harmless := by
    cases lease with
    | some held => exact Action.Uses.pure _
    | none => exact Prog.Uses.issue fun _ _ _ => trivial
  refine Prog.Follows.bind (hany hheld _) fun started m _ _ => ?_
  rcases started with e | _ | held
  · exact hdone _ _
  · exact hdone _ _
  · have hrenew : (callStore (.renewLeadership held controller.leadershipLeaseSeconds) (some now)).Uses Harmless :=
      Prog.Uses.issue fun _ _ _ => trivial
    refine Prog.Follows.bind (hany hrenew m) fun renewed m _ _ => ?_
    rcases renewed with e | renewed
    · dsimp only
      split
      · exact hdone _ _
      · exact hdone _ _
    · exact Prog.Follows.bind (grounded_cycle hhandler now) fun result m _ _ => hdone _ _

end Follows

/-- The machine matches the system: its operations, crashes, new cycles and API calls. -/
theorem verdictSimulation_matches {D : Deployment} {kind : String} {handler : MultiAutoResumable}
    (hhandler : ∀ controller, D.controllers controller → controller.registry.workflow kind = .ok handler) :
    (verdictSimulation D kind handler).Matches where
  env site site' _ henv := by
    obtain ⟨call, now, hapi, rfl⟩ := henv
    exact ⟨_, .of_perform hapi (Prod.mk.eta (p := call.perform now site.store)).symm, rfl⟩
  crash _ site _ site' _ hcrash := ⟨site, .refl, hcrash.1.symm, fun _ _ _ => trivial⟩
  begins _ last site program site' _ _ hbegins := by
    obtain ⟨rfl, controller, now, hcontroller, rfl⟩ := hbegins
    exact ⟨site', .refl, rfl, grounded_reconcileOnce (hhandler controller hcontroller) last.2 now⟩

/-- A step of the system keeps verdicts right. -/
theorem Verdicts.step {D : Deployment} {kind : String} {handler : MultiAutoResumable} {s s' : D.SystemState}
    (h : D.Reachable s) (hrelated : (verdictSimulation D kind handler).Related s.world s)
    (hstep : D.system.Step s s')
    (hverdicts : Verdicts kind handler s.world.store) : Verdicts kind handler s'.world.store := by
  rcases Deployment.step_call hstep with hsame | ⟨call, now, result, hrun, hissued⟩
  · rw [hsame]
    exact hverdicts
  have hgrounded : Grounded kind handler s.world.store call := by
    rcases hissued with hapi | ⟨time, next, hop⟩
    · cases call <;> trivial
    · exact hrelated.permitted hop
  refine hverdicts.run hgrounded hrun (fun row hrow => ?_) fun row hrow =>
    Deployment.workflow_evolves h (.single hstep) hrow
  by_cases hterminal : row.status.isTerminal = true
  · obtain ⟨row', hrow', hcore⟩ := Deployment.terminal_core h (.single hstep) hrow hterminal
    exact ⟨row', hrow', TaskRow.column_eq hcore TaskRow.taskId fun _ => rfl, fun _ => hcore⟩
  · obtain ⟨row', hrow', hid, -⟩ := Deployment.row_advances h (.single hstep) hrow
    exact ⟨row', hrow', hid, fun hended => absurd hended hterminal⟩

/-- In every reachable state the workflows that have ended have ended by a verdict that is still right. -/
theorem Deployment.Reachable.verdicts {D : Deployment} {kind : String} {handler : MultiAutoResumable}
    (hhandler : ∀ controller, D.controllers controller → controller.registry.workflow kind = .ok handler)
    {s : D.SystemState} (h : D.Reachable s) : Verdicts kind handler s.world.store := by
  have hstart : (verdictSimulation D kind handler).Related Site.initial D.initial :=
    Pool.Simulation.Related.of_finished _ rfl (fun link hlink => absurd hlink List.not_mem_nil)
      fun _ => ⟨_, rfl, fun _ => trivial⟩
  induction h with
  | refl => exact fun row hrow => absurd hrow List.not_mem_nil
  | tail hrun hstep ih =>
    obtain ⟨m, -, hrelated⟩ := Pool.Simulation.run (verdictSimulation_matches hhandler) hstart hrun
    obtain rfl := hrelated.view
    exact Verdicts.step hrun hrelated hstep ih

/-- How a static workflow that has ended stands to its components. -/
structure StaticEnd (components : Dict String TaskRecord) (row : WorkflowRow) : Prop where
  ended : row.status ≠ .cancelled
  succeeded : row.status = .succeeded →
    components.entries ≠ [] ∧ AllSucceeded components ∧ SucceededWith components row
  failed : row.status = .failed → ∃ failed, failed ≠ [] ∧
    row.lastError = some ("components failed after SkyPilot recovery: " ++ joinSorted failed) ∧
      ∀ key ∈ failed, ∃ task, components.get? key = some task ∧ task.status = .failed

/-- The verdicts of the static handler: success of all components, or failure of those that it names. -/
theorem static_verdict_cases {workflow : WorkflowRecord} {state : Mapping} {components : Dict String TaskRecord}
    {status : WorkflowStatus} {result : Option Mapping} {reason : Option String}
    (h : staticMultiAutoResumable.verdict workflow state components = .ok (some (status, result, reason))) :
    (status = .succeeded ∧ components.entries ≠ [] ∧ AllSucceeded components ∧ ∃ values, result = some values ∧
      values.get? "components" = some (.obj
        (components.mapValues fun task => .obj (task.result.getD Dict.empty)))) ∨
    (status = .failed ∧ ∃ failed, failed ≠ [] ∧
      reason = some ("components failed after SkyPilot recovery: " ++ joinSorted failed) ∧
        ∀ key ∈ failed, ∃ task, components.get? key = some task ∧ task.status = .failed) := by
  cases hresult : StaticMultiAutoResumable.completionResult state components with
  | some values =>
    have hcompletes : staticMultiAutoResumable.completionResult workflow state components = .ok (some values) :=
      congrArg Except.ok hresult
    rw [MultiAutoResumable.verdict, hcompletes] at h
    obtain ⟨rfl, rfl, -⟩ : WorkflowStatus.succeeded = status ∧ some values = result ∧ none = reason := by
      simpa using Option.some.inj (Except.ok.inj h)
    rw [StaticMultiAutoResumable.completionResult] at hresult
    split at hresult
    · rename_i hall
      obtain ⟨hne, hall⟩ := hall
      refine Or.inl ⟨rfl, hne, fun key task htask => ?_, values, rfl, ?_⟩
      · exact of_decide_eq_true (List.all_eq_true.mp hall _ (Dict.get?_eq_some_iff.mp htask))
      · rw [← Option.some.inj hresult]
        exact (Dict.get?_ofList (by simp)).mpr List.mem_cons_self
    · cases hresult
  | none =>
    have hremains : staticMultiAutoResumable.completionResult workflow state components = .ok none :=
      congrArg Except.ok hresult
    rw [MultiAutoResumable.verdict_of_none hremains] at h
    change Except.ok ((StaticMultiAutoResumable.failureReason components).map _) = _ at h
    obtain ⟨text, htext, hverdict⟩ := Option.map_eq_some_iff.mp (Except.ok.inj h)
    obtain ⟨rfl, -, rfl⟩ : WorkflowStatus.failed = status ∧ none = result ∧ some text = reason := by
      simpa using hverdict
    rw [StaticMultiAutoResumable.failureReason] at htext
    split at htext
    · rename_i hne
      refine Or.inr ⟨rfl, _, hne, htext.symm, fun key hkey => ?_⟩
      obtain ⟨⟨key, task⟩, hentry, rfl⟩ := List.mem_map.mp hkey
      obtain ⟨hmem, hstatus⟩ := List.mem_filter.mp hentry
      exact ⟨task, Dict.get?_eq_some_iff.mpr hmem, of_decide_eq_true hstatus⟩
    · cases htext

/-- A static workflow that has ended by a verdict stands so to its components now. -/
theorem EndedBy.static {store : SwarmStore} {row : WorkflowRow} (h : EndedBy staticMultiAutoResumable store row) :
    StaticEnd (store.getWorkflowComponents row.workflowId) row := by
  obtain ⟨before, now, result, reason, components, hrow, -, hverdict, hwitnessed⟩ := h
  have hresult : row.resultJson = result.map dumps := congrArg WorkflowRow.resultJson hrow
  have herror : row.lastError = reason := congrArg WorkflowRow.lastError hrow
  rcases static_verdict_cases hverdict with ⟨hstatus, hne, hall, values, rfl, hvalues⟩ |
    ⟨hstatus, failed, hne, rfl, hfailed⟩
  · have hread {key : String} {task' : TaskRecord}
        (htask' : (store.getWorkflowComponents row.workflowId).get? key = some task') :
        ∃ task, components.get? key = some task ∧ task.SameEnd task' ∧ task.status = .succeeded := by
      obtain ⟨task, htask, hend⟩ := hwitnessed.exists_read htask'
      have hsucceeded := hall key task htask
      exact ⟨task, htask, hend (by rw [hsucceeded]; rfl), hsucceeded⟩
    have hother {status : WorkflowStatus} (heq : row.status = status) : status = .succeeded :=
      heq.symm.trans hstatus
    refine ⟨fun heq => (nomatch hother heq), fun _ => ⟨?_, fun key task' htask' => ?_, hstatus, values, _, hresult,
      hvalues, ?_⟩, fun heq => (nomatch hother heq)⟩
    · obtain ⟨⟨key, task⟩, hentry⟩ := List.exists_mem_of_ne_nil _ hne
      obtain ⟨task', htask', -⟩ := hwitnessed.kept key task (Dict.get?_eq_some_iff.mpr hentry)
      exact List.ne_nil_of_mem (Dict.get?_eq_some_iff.mp htask')
    · obtain ⟨task, -, hend, hsucceeded⟩ := hread htask'
      exact hend.1.trans hsucceeded
    · intro key task' htask'
      obtain ⟨task, htask, hend, -⟩ := hread htask'
      rw [Dict.get?_mapValues, htask, Option.map_some, hend.2.1]
  · have hother {status : WorkflowStatus} (heq : row.status = status) : status = .failed := heq.symm.trans hstatus
    refine ⟨fun heq => (nomatch hother heq), fun heq => (nomatch hother heq),
      fun _ => ⟨failed, hne, herror, fun key hkey => ?_⟩⟩
    obtain ⟨task, htask, hfailure⟩ := hfailed key hkey
    obtain ⟨task', htask', hend⟩ := hwitnessed.kept key task htask
    exact ⟨task', htask', (hend (by rw [hfailure]; rfl)).1.trans hfailure⟩

/-- In every state that a run of the one controller with the API reaches, whatever the backend answered and wherever
the controller crashed, a static workflow that has succeeded has components, their tasks have all succeeded, and its
result holds the result of each. One that has failed names tasks in its error that have failed. -/
theorem static_verdicts {D : Deployment} (hstatic : ∀ controller, D.controllers controller →
      controller.registry.workflow staticKind = .ok staticMultiAutoResumable)
    {s : D.SystemState} (h : D.Reachable s) : ∀ row ∈ s.world.store.workflows.rows, row.kind = staticKind →
      row.status ≠ .active → StaticEnd (s.world.store.getWorkflowComponents row.workflowId) row :=
  fun row hrow hkind hended => (h.verdicts hstatic row hrow hkind hended).static

/-- A controller that knows the sample task and static workflows. -/
def echoController : TPUSwarmController where
  registry.tasks := Dict.ofList [("echo", sampleHandler)]
  registry.workflows := Dict.ofList [(staticKind, staticMultiAutoResumable)]
  controllerId := "controller"

/-- A static workflow of the sample task. -/
def echoWorkflow : WorkflowSpec :=
  { trainWorkflow "w1" [] with
    payload := Dict.ofList [("components", .arr [.obj (Dict.ofList [("key", .str "leaf"),
      ("task", .obj (Dict.ofList [("kind", .str "echo"), ("resource_class", .str "v4")]))])])] }

/-- The task of the workflow is launched, its job ends so, and the next cycle ends the workflow. -/
def echoCommands (status : String) : List (Deployment.anyBackend echoController).Command :=
  [.api (.submitWorkflow echoWorkflow [sampleComponent] Dict.empty) 0, .begin ⟨echoController, rfl⟩ 1, .store 1,
    .store 1, .list []] ++ List.replicate 8 (.store 1) ++ [.launch (.ok (sampleJob "PENDING")) [], .store 1,
    .begin ⟨echoController, rfl⟩ 2, .store 2, .list [sampleJob status]] ++ List.replicate 9 (.store 2)

/-- The sample workflow fails, and its error names the component that has failed. -/
theorem static_verdicts_failed : ∃ s : (Deployment.anyBackend echoController).SystemState,
    ∃ row ∈ s.world.store.workflows.rows, row.status = .failed ∧
      StaticEnd (s.world.store.getWorkflowComponents row.workflowId) row := by
  obtain ⟨s, hreachable, hcheck⟩ :=
    (Deployment.anyBackend echoController).reachable_of_check (echoCommands "FAILED")
    (fun s => s.world.store.workflows.rows.any fun row => row.kind = staticKind && row.status = .failed)
    (by decide +kernel)
  obtain ⟨row, hrow, hcolumns⟩ := List.any_eq_true.mp hcheck
  obtain ⟨hkind, hstatus⟩ := Bool.and_eq_true_iff.mp hcolumns
  have hfailed : row.status = .failed := of_decide_eq_true hstatus
  refine ⟨s, row, hrow, hfailed, static_verdicts (fun controller hcontroller => ?_) hreachable row hrow
    (of_decide_eq_true hkind) (by rw [hfailed]; nofun)⟩
  obtain rfl : controller = echoController := hcontroller
  rfl

end TPUSwarm
