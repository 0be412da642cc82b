import TPUSwarm.Common.Greatest
import TPUSwarm.Invariants.LinkAgreement
import TPUSwarm.Invariants.Ownership

/-!
# Generations only move forward

However replacements of the components of a workflow are ordered, repeated and replayed, the
link of a component is where the first call of the greatest generation put it.
-/

namespace TPUSwarm

open Common SwarmStore

/-- A component and the time of the call that carried it. -/
abbrev CarriedComponent := ComponentSpec × Time

/-- The generation that was carried. -/
def CarriedComponent.generation (c : CarriedComponent) : ℕ := c.1.generation

/-- The link that a component asks for. -/
def ComponentSpec.linkage (component : ComponentSpec) : Linkage :=
  ⟨component.generation, component.task.taskId, component.required⟩

/-- What a call carries for a component key of a workflow. -/
def carries (workflowId key : String) (call : Call × Time) : Option CarriedComponent :=
  match call.1 with
  | .replaceComponent other component =>
    if other = workflowId ∧ component.key = key then some (component, call.2) else none
  | _ => none

/-- The link of a key is the one that the first call of the greatest generation asked for, and its task
is the one that this call inserted. -/
structure Tracks (store : SwarmStore) (workflowId key : String) (carried : List CarriedComponent) : Prop where
  unlinked : store.component? workflowId key = none → carried = []
  linked : ∀ link, store.component? workflowId key = some link →
    ∃ c, FirstGreatest CarriedComponent.generation carried c ∧ link.linkage = c.1.linkage ∧
      ∃ row, store.task? link.taskId = some row ∧ row.inscription = (componentRow workflowId c.1 c.2).inscription

namespace Tracks

variable {o : Ownership} {store mid store' : SwarmStore} {workflowId other key : String} {component : ComponentSpec}
  {now : Time} {carried : List CarriedComponent}

/-- A call that leaves the link alone leaves it where it was asked for. -/
theorem of_kept (h : Tracks store workflowId key carried)
    (hlink : store'.component? workflowId key = store.component? workflowId key)
    (hrows : ∀ row ∈ store.tasks.rows, ∃ row' ∈ store'.tasks.rows, row'.inscription = row.inscription) :
    Tracks store' workflowId key carried := by
  refine ⟨fun hnone => h.unlinked (hlink ▸ hnone), fun link hsome => ?_⟩
  obtain ⟨c, hfirst, hlinkage, row, hrow, hinscription⟩ := h.linked link (hlink ▸ hsome)
  obtain ⟨hmem, hid⟩ := task?_eq_some.mp hrow
  obtain ⟨row', hrow', hsame⟩ := hrows row hmem
  have hid' : row'.taskId = row.taskId := congrArg (fun i => i.origin.taskId) hsame
  exact ⟨c, hfirst, hlinkage, row', task?_eq_some.mpr ⟨hrow', hid'.trans hid⟩, hsame.trans hinscription⟩

/-- Placing a component of the key that is newer than its link puts the link where it asks for. -/
theorem places {row : TaskRow} {link : ComponentRow} (h : Tracks store workflowId component.key carried)
    (hnewer : ∀ link, store.component? workflowId component.key = some link →
      link.generation < component.generation)
    (hplaces : Places now workflowId component store mid row link)
    (hrow : row = componentRow workflowId component now) :
    Tracks mid workflowId component.key (carried ++ [(component, now)]) := by
  have hlink : mid.component? workflowId component.key = some link := by
    rw [component?_places hplaces, if_pos rfl]
  have hbelow : ∀ c ∈ carried, c.generation < component.generation := by
    intro c hc
    cases hold : store.component? workflowId component.key with
    | none =>
      rw [h.unlinked hold] at hc
      cases hc
    | some old =>
      obtain ⟨first, hfirst, hlinkage, -⟩ := h.linked old hold
      have hgeneration : old.generation = first.1.generation := congrArg Linkage.generation hlinkage
      have hle : c.generation ≤ first.1.generation := hfirst.le hc
      have hlt := hnewer old hold
      omega
  refine ⟨fun hnone => ?_, fun found hfound => ?_⟩
  · rw [hlink] at hnone
    cases hnone
  · rw [hlink] at hfound
    cases hfound
    obtain ⟨-, hid, -⟩ := Linkage.mk.inj hplaces.linkage
    refine ⟨(component, now), FirstGreatest.concat_lt hbelow, ?_, row, ?_, congrArg _ hrow⟩
    · rw [hplaces.linkage, hrow]
      rfl
    · exact task?_eq_some.mpr ⟨hplaces.tasks_iff.mpr (Or.inr rfl), hid.symm⟩

/-- A component that is not newer than its link is carried in vain. -/
theorem stale {link : ComponentRow} (h : Tracks store workflowId component.key carried)
    (hlink : store.component? workflowId component.key = some link) (hle : component.generation ≤ link.generation)
    (now : Time) : Tracks store workflowId component.key (carried ++ [(component, now)]) := by
  refine ⟨fun hnone => ?_, fun found hfound => ?_⟩
  · rw [hlink] at hnone
    cases hnone
  · rw [hlink] at hfound
    cases hfound
    obtain ⟨c, hfirst, hlinkage, hrow⟩ := h.linked link hlink
    have hgeneration : link.generation = c.1.generation := congrArg Linkage.generation hlinkage
    exact ⟨c, hfirst.concat_le (hle.trans hgeneration.le), hlinkage, hrow⟩

/-- The components of a new workflow are linked as the submission asks. -/
theorem insertComponents {components : List ComponentSpec} (h : Tracks store workflowId key carried)
    (horderly : Orderly o store) (howns : ∀ component ∈ components, o.OwnsComponent workflowId component)
    (hworkflow : ∃ workflow, store.workflow? workflowId = some workflow)
    (hrun : SwarmStore.insertComponents workflowId now components store = .ok store') :
    Tracks store' workflowId key (carried ++ (components.filter (·.key = key)).map fun c => (c, now)) := by
  induction components generalizing store carried with
  | nil =>
    cases hrun
    simpa using h
  | cons component rest ih =>
    obtain ⟨mid, row, link, hplaces, hfresh, hrest⟩ := insertComponents_cons hrun
    have hnewer : ∀ link, store.component? workflowId component.key = some link →
        link.generation < component.generation := by
      intro link hlink
      obtain ⟨hmem, hplace⟩ := component?_eq_some.mp hlink
      exact absurd hplace (hfresh link hmem)
    obtain ⟨hrow, hmid⟩ := horderly.places (howns component List.mem_cons_self) hnewer hworkflow hplaces
    have hworkflow' : ∃ workflow, mid.workflow? workflowId = some workflow := by
      have hsame : mid.workflows = store.workflows := by rw [hplaces.frame]
      rw [workflow?, hsame]
      exact hworkflow
    have howns' : ∀ c ∈ rest, o.OwnsComponent workflowId c := fun c hc => howns c (List.mem_cons_of_mem _ hc)
    by_cases hkey : component.key = key
    · subst hkey
      have hnext := ih (h.places hnewer hplaces hrow) hmid howns' hworkflow' hrest
      simpa using hnext
    · have hkept : Tracks mid workflowId key carried := by
        refine h.of_kept ?_ fun r hr => ⟨r, hplaces.tasks_iff.mpr (Or.inl hr), rfl⟩
        rw [component?_places hplaces, if_neg fun heq => hkey (Prod.mk.inj heq).2.symm]
      have hnext := ih hkept hmid howns' hworkflow' hrest
      simpa [hkey] using hnext

end Tracks

/-- Adding the components of another workflow leaves a link alone. -/
theorem component?_insertComponents_other {components : List ComponentSpec} {store store' : SwarmStore}
    {workflowId other key : String} {now : Time} (hne : other ≠ workflowId)
    (hrun : insertComponents other now components store = .ok store') :
    store'.component? workflowId key = store.component? workflowId key := by
  induction components generalizing store with
  | nil =>
    cases hrun
    rfl
  | cons component rest ih =>
    obtain ⟨mid, row, link, hplaces, -, hrest⟩ := insertComponents_cons hrun
    rw [ih hrest, component?_places hplaces, if_neg fun heq => hne (Prod.mk.inj heq).1.symm]

/-- Only a replacement moves the link of a component in a workflow that exists. -/
theorem Call.component?_same {call : Call} {now : Time} {store store' : SwarmStore} {result : call.Result}
    {workflowId key : String} (hworkflow : ∃ workflow, store.workflow? workflowId = some workflow)
    (hrun : call.run now store = .ok (result, store')) (hother : carries workflowId key (call, now) = none) :
    store'.component? workflowId key = store.component? workflowId key := by
  by_cases hcomponents : StoreTable.components ∈ call.tables
  · cases call with
    | submitWorkflow spec components initialState =>
      obtain ⟨workflows, hinsert, hrest⟩ := submitWorkflow_steps hrun
      have hne : spec.workflowId ≠ workflowId := by
        intro heq
        obtain ⟨row, hrow⟩ := hworkflow
        obtain ⟨hmem, hid⟩ := workflow?_eq_some.mp hrow
        exact (Table.insert?_eq_some hinsert).2 row hmem (hid.trans heq.symm)
      have hsame : store'.component? workflowId key =
          ({ store with workflows } : SwarmStore).component? workflowId key :=
        component?_insertComponents_other hne hrest
      exact hsame
    | replaceComponent other component =>
      rcases replaceComponent_cases hrun with ⟨-, -, -, -, -, -, rfl⟩ | ⟨-, row, link, -, hplaces⟩
      · rfl
      · have hplace : (workflowId, key) ≠ (other, component.key) := by
          intro heq
          obtain ⟨rfl, rfl⟩ := Prod.mk.inj heq
          simp [carries] at hother
        rw [component?_places hplaces, if_neg hplace]
    | _ => simp [Call.tables] at hcomponents
  · have hsame : store'.components = store.components := Call.frame hrun hcomponents
    rw [component?, component?, hsame]

/-- A workflow that exists stays, whatever is called. -/
theorem Call.keeps_workflow {call : Call} {store : SwarmStore} {workflowId : String} (now : Time)
    (hworkflow : ∃ workflow, store.workflow? workflowId = some workflow) :
    ∃ workflow, (call.perform now store).2.workflow? workflowId = some workflow := by
  rcases call.perform_store now store with hsame | ⟨result, hrun⟩
  · rw [hsame]
    exact hworkflow
  · obtain ⟨row, hrow⟩ := hworkflow
    rcases Call.workflow_after hrun hrow with hkept | ⟨write, -, hwritten⟩
    · exact ⟨row, hkept⟩
    · exact ⟨write row, hwritten⟩

/-- A workflow that exists stays along any calls. -/
theorem keeps_workflow_after {store : SwarmStore} {workflowId : String} (calls : List (Call × Time))
    (hworkflow : ∃ workflow, store.workflow? workflowId = some workflow) :
    ∃ workflow, (store.after calls).workflow? workflowId = some workflow := by
  induction calls generalizing store with
  | nil => exact hworkflow
  | cons call rest ih => exact ih (Call.keeps_workflow call.2 hworkflow)

namespace Tracks

variable {o : Ownership} {store : SwarmStore} {workflowId key : String} {carried : List CarriedComponent}

/-- What one call does to a link: it follows what the call carries for it. -/
theorem perform (h : Tracks store workflowId key carried) (horderly : Orderly o store)
    (hworkflow : ∃ workflow, store.workflow? workflowId = some workflow) {call : Call} (now : Time)
    (hrespects : o.Respects store call) : Tracks (call.perform now store).2 workflowId key
      (carried ++ (carries workflowId key (call, now)).toList) := by
  cases hcarries : carries workflowId key (call, now) with
  | none =>
    rw [Option.toList_none, List.append_nil]
    rcases call.perform_store now store with hsame | ⟨result, hrun⟩
    · rw [hsame]
      exact h
    · exact h.of_kept (Call.component?_same hworkflow hrun hcarries) fun _ => Call.keeps_inscription hrun
  | some c =>
    cases call with
    | replaceComponent other component =>
      simp only [carries] at hcarries
      split_ifs at hcarries with hplace
      obtain ⟨rfl, rfl⟩ := hplace
      cases hcarries
      by_cases hstale : ∃ link, store.component? other component.key = some link ∧
          component.generation ≤ link.generation
      · obtain ⟨link, hlink, hle⟩ := hstale
        obtain ⟨row, -, hrun⟩ := horderly.replace_stale hlink hle now
        have hperform : (Call.replaceComponent other component).perform now store = (.ok row.toRecord, store) := by
          simp only [Call.perform, Call.run, hrun]
        rw [hperform]
        exact h.stale hlink hle now
      · have hnewer : ∀ link, store.component? other component.key = some link →
            link.generation < component.generation :=
          fun link hlink => Nat.lt_of_not_le fun hle => hstale ⟨link, hlink, hle⟩
        obtain ⟨written, hrun⟩ := horderly.replace_ok hrespects hnewer hworkflow now
        have hperform : (Call.replaceComponent other component).perform now store =
            (.ok (componentRow other component now).toRecord, written) := by
          simp only [Call.perform, Call.run, hrun]
        rw [hperform]
        rcases replaceComponent_cases hrun with ⟨link, -, hlink, hle, -⟩ | ⟨-, row, link, -, hplaces⟩
        · exact absurd ⟨link, hlink, hle⟩ hstale
        · exact h.places hnewer hplaces (horderly.places hrespects hnewer hworkflow hplaces).1
    | _ => simp [carries] at hcarries

/-- What any calls do to a link: it follows what they carry for it, in their order. -/
theorem after (calls : List (Call × Time)) (h : Tracks store workflowId key carried)
    (hhistory : History o.Respects .empty store)
    (hworkflow : ∃ workflow, store.workflow? workflowId = some workflow)
    (hrespects : store.Permits o.Respects calls) :
    Tracks (store.after calls) workflowId key (carried ++ calls.filterMap (carries workflowId key)) := by
  induction calls generalizing store carried with
  | nil => simpa [SwarmStore.after] using h
  | cons call rest ih =>
    have hnext := h.perform (orderly hhistory) hworkflow call.2 hrespects.1
    have hserved : Served o.Respects store (call.1.perform call.2 store).2 :=
      ⟨call.1, call.2, fun _ _ _ => hrespects.1, rfl⟩
    have hrest := ih hnext (hhistory.tail hserved) (Call.keeps_workflow call.2 hworkflow) hrespects.2
    have hcarried : carried ++ (call :: rest).filterMap (carries workflowId key) =
        carried ++ (carries workflowId key call).toList ++ rest.filterMap (carries workflowId key) := by
      cases hcarries : carries workflowId key call <;> simp [hcarries]
    rw [hcarried]
    exact hrest

end Tracks

/-- What the submission of a workflow and later calls carry for a component key, in their order. -/
def carriedFor (workflowId key : String) (components : List ComponentSpec) (submitted : Time)
    (calls : List (Call × Time)) : List CarriedComponent :=
  (components.filter (·.key = key)).map (fun component => (component, submitted)) ++
    calls.filterMap (carries workflowId key)

/-- The submission of a workflow links its components as it asks. -/
theorem Tracks.submitted {o : Ownership} {before store : SwarmStore} {spec : WorkflowSpec}
    {components : List ComponentSpec} {initialState : Mapping} {submitted : Time} {workflow : WorkflowRecord}
    (h : Orderly o before) (howns : ∀ component ∈ components, o.OwnsComponent spec.workflowId component)
    (hsubmit : submitWorkflow spec components initialState submitted before = .ok (workflow, store))
    (key : String) :
    Tracks store spec.workflowId key ((components.filter (·.key = key)).map fun c => (c, submitted)) := by
  obtain ⟨workflows, hinsert, hrest⟩ := submitWorkflow_steps hsubmit
  obtain ⟨hadded, hworkflow⟩ := h.addWorkflow hinsert
  have hunlinked : Tracks { before with workflows } spec.workflowId key [] := by
    refine ⟨fun _ => rfl, fun link hlink => ?_⟩
    -- A link of the workflow would be one of a workflow that was there before.
    obtain ⟨hmem, hplace⟩ := component?_eq_some.mp hlink
    obtain ⟨row, hrow⟩ := h.workflows link hmem
    obtain ⟨hrowMem, hid⟩ := workflow?_eq_some.mp hrow
    have htaken : row.workflowId = spec.workflowId := hid.trans (Prod.mk.inj hplace).1
    exact absurd htaken ((Table.insert?_eq_some hinsert).2 row hrowMem)
  exact hunlinked.insertComponents hadded howns hworkflow hrest

/-- What is certain of the components of a workflow after its submission and any calls. -/
structure GenerationsForward (o : Ownership) (workflowId : String) (components : List ComponentSpec)
    (submitted : Time) (calls : List (Call × Time)) (reached : SwarmStore) : Prop where
  /-- No replacement raises. -/
  returns : ∀ component, o.OwnsComponent workflowId component → ∀ now, ∃ task,
    ((Call.replaceComponent workflowId component).perform now reached).1 = .ok task
  /-- A replacement that is not newer than the link changes nothing and returns the linked task. -/
  stale : ∀ component link, reached.component? workflowId component.key = some link →
    component.generation ≤ link.generation → ∀ now, ∃ row, reached.task? link.taskId = some row ∧
      (Call.replaceComponent workflowId component).perform now reached = (.ok row.toRecord, reached)
  /-- The link is where the first call of the greatest generation put it. -/
  linked : ∀ key, Tracks reached workflowId key (carriedFor workflowId key components submitted calls)
  /-- Later calls do not take the link back. -/
  forward : ∀ later, reached.Permits o.Respects later → ∀ key link,
    reached.component? workflowId key = some link →
      ∃ link', (reached.after later).component? workflowId key = some link' ∧ link.generation ≤ link'.generation
  /-- A generation has one task, and none that is newer than the link. -/
  rows : ∀ row ∈ reached.tasks.rows, ∀ key generation, row.slot = some (workflowId, key, generation) →
    (∃ link, reached.component? workflowId key = some link ∧ generation ≤ link.generation) ∧
      ∀ other ∈ reached.tasks.rows, other.slot = row.slot → other = row

/-- Where names belong to one generation of a component, generations only move forward. -/
theorem generations_forward {o : Ownership} {before store : SwarmStore} {spec : WorkflowSpec}
    {components : List ComponentSpec} {initialState : Mapping} {submitted : Time} {workflow : WorkflowRecord}
    (hbefore : History o.Respects .empty before)
    (howns : ∀ component ∈ components, o.OwnsComponent spec.workflowId component)
    (hsubmit : submitWorkflow spec components initialState submitted before = .ok (workflow, store))
    {calls : List (Call × Time)} (hrespects : store.Permits o.Respects calls) :
    GenerationsForward o spec.workflowId components submitted calls (store.after calls) := by
  have hrun : (Call.submitWorkflow spec components initialState).run submitted before = .ok (workflow, store) :=
    hsubmit
  have hrespectsSubmit : o.Respects before (.submitWorkflow spec components initialState) := howns
  have hstore : History o.Respects .empty store := hbefore.tail (.of_run hrespectsSubmit hrun)
  have hreached : History o.Respects .empty (store.after calls) := hstore.trans (history_after hrespects)
  have horderly := orderly hreached
  have hworkflow : ∃ row, store.workflow? spec.workflowId = some row := by
    obtain ⟨-, -, hrows, -⟩ := submitWorkflow_eq_ok hsubmit
    exact ⟨_, workflow?_eq_some.mpr ⟨hrows ▸ List.mem_append_right _ List.mem_cons_self, rfl⟩⟩
  have hworkflow' := keeps_workflow_after calls hworkflow
  have htracks (key : String) : Tracks (store.after calls) spec.workflowId key
      (carriedFor spec.workflowId key components submitted calls) :=
    (Tracks.submitted (orderly hbefore) howns hsubmit key).after calls hstore hworkflow hrespects
  refine ⟨fun component hcomponent now => ?_, fun component link hlink hle now => ?_, htracks, ?_, ?_⟩
  · obtain ⟨task, written, hreturns⟩ := horderly.replace_returns hcomponent hworkflow' now
    exact ⟨task, by simp only [Call.perform, Call.run, hreturns]⟩
  · obtain ⟨row, hrow, hstale⟩ := horderly.replace_stale hlink hle now
    exact ⟨row, hrow, by simp only [Call.perform, Call.run, hstale]⟩
  · intro later hlater key link hlink
    obtain ⟨c, hfirst, hlinkage, -⟩ := (htracks key).linked link hlink
    have hnext := (htracks key).after later hreached hworkflow' hlater
    have hcarried := List.mem_append_left (later.filterMap (carries spec.workflowId key)) hfirst.mem
    cases hlink' : ((store.after calls).after later).component? spec.workflowId key with
    | none =>
      rw [hnext.unlinked hlink'] at hcarried
      cases hcarried
    | some link' =>
      obtain ⟨c', hfirst', hlinkage', -⟩ := hnext.linked link' hlink'
      have hle : c.1.generation ≤ c'.1.generation := hfirst'.le hcarried
      have hgeneration : link.generation = c.1.generation := congrArg Linkage.generation hlinkage
      have hgeneration' : link'.generation = c'.1.generation := congrArg Linkage.generation hlinkage'
      exact ⟨link', rfl, by omega⟩
  · intro row hrow key generation hslot
    refine ⟨horderly.newest row hrow _ key generation hslot, fun other hother hsame => ?_⟩
    exact slot_unique hother hrow (hsame.trans hslot) hslot

/-- Three tasks, one for each generation of a component. -/
def trainerOwnership : Ownership where
  ids := { taskId | taskId ∈ ["t0", "t1", "t2"] }
  tasks taskId := some ("w1", "trainer", if taskId = "t0" then 0 else if taskId = "t1" then 1 else 2)
  keys _ := none
  distinct := by
    have hdistinct : ∀ a ∈ ["t0", "t1", "t2"], ∀ b ∈ ["t0", "t1", "t2"],
        executorName a = executorName b → a = b := by decide +kernel
    exact fun a ha b hb => hdistinct a ha b hb

/-- The sample ownership has the components of its three tasks. -/
theorem trainerOwnership_owns {taskId : String} {generation : ℕ} (hid : taskId ∈ ["t0", "t1", "t2"])
    (hfits : generation < 2 ^ 63)
    (hgeneration : trainerOwnership.tasks taskId = some ("w1", "trainer", generation)) :
    trainerOwnership.OwnsComponent "w1" (trainComponent taskId generation) :=
  ⟨⟨hid, hgeneration, fun _ hkey => by cases hkey⟩, hfits⟩

/-- The second generation arrives before the first, and twice. -/
def outOfOrder : List (Call × Time) :=
  [(.replaceComponent "w1" (trainComponent "t2" 2), 1), (.replaceComponent "w1" (trainComponent "t1" 1), 2),
    (.replaceComponent "w1" (trainComponent "t2" 2), 3)]

/-- The late first generation changes nothing, and the link stays where the second one put it. -/
theorem generations_forward_outOfOrder : ∃ workflow store,
    submitWorkflow (treeWorkflow "w1") [trainComponent "t0" 0] Dict.empty 0 .empty = .ok (workflow, store) ∧
      GenerationsForward trainerOwnership "w1" [trainComponent "t0" 0] 0 outOfOrder (store.after outOfOrder) ∧
        ((store.after outOfOrder).component? "w1" "trainer").map ComponentRow.linkage = some ⟨2, "t2", true⟩ := by
  have hcheck : ((submitWorkflow (treeWorkflow "w1") [trainComponent "t0" 0] Dict.empty 0 .empty).toOption.any
      fun p => decide (((p.2.after outOfOrder).component? "w1" "trainer").map ComponentRow.linkage =
        some ⟨2, "t2", true⟩)) = true := by
    decide +kernel
  obtain ⟨⟨workflow, store⟩, hsubmit, hlink⟩ := (Option.any_eq_true _ _).mp hcheck
  rw [toOption_eq_some] at hsubmit
  have hfirst :=
    trainerOwnership_owns (by decide : "t0" ∈ ["t0", "t1", "t2"]) (by omega) (rfl : _ = some ("w1", "trainer", 0))
  have hsecond :=
    trainerOwnership_owns (by decide : "t1" ∈ ["t0", "t1", "t2"]) (by omega) (rfl : _ = some ("w1", "trainer", 1))
  have hthird :=
    trainerOwnership_owns (by decide : "t2" ∈ ["t0", "t1", "t2"]) (by omega) (rfl : _ = some ("w1", "trainer", 2))
  have hrespects : store.Permits trainerOwnership.Respects outOfOrder := ⟨hthird, hsecond, hthird, trivial⟩
  have howns : ∀ component ∈ [trainComponent "t0" 0], trainerOwnership.OwnsComponent "w1" component := by
    intro component hcomponent
    rw [List.mem_singleton.mp hcomponent]
    exact hfirst
  exact ⟨workflow, store, hsubmit, generations_forward .refl howns hsubmit hrespects, of_decide_eq_true hlink⟩

/-- The call raises because an integer fits no column. -/
def overflows (call : Call) (now : Time) (store : SwarmStore) : Bool :=
  match (call.perform now store).1 with
  | .error e => e = overflowError
  | .ok _ => false

/-- A replacement whose names belong to its generation raises, because no column holds the generation. -/
theorem replacement_overflows : ∃ (o : Ownership) (component : ComponentSpec) (workflow : WorkflowRecord)
    (store : SwarmStore), submitWorkflow (treeWorkflow "w1") [trainComponent "t0" 0] Dict.empty 0 .empty =
        .ok (workflow, store) ∧ o.OwnsComponent "w1" (trainComponent "t0" 0) ∧
      o.Owns (some ("w1", component.key, component.generation)) component.task ∧
        overflows (.replaceComponent "w1" component) 1 store = true := by
  have hcheck : ((submitWorkflow (treeWorkflow "w1") [trainComponent "t0" 0] Dict.empty 0 .empty).toOption.any
      fun p => overflows (.replaceComponent "w1" (trainComponent "t1" (2 ^ 63))) 1 p.2) = true := by
    decide +kernel
  obtain ⟨⟨workflow, store⟩, hsubmit, hraises⟩ := (Option.any_eq_true _ _).mp hcheck
  let o : Ownership :=
    { trainerOwnership with tasks := fun taskId => some ("w1", "trainer", if taskId = "t0" then 0 else 2 ^ 63) }
  refine ⟨o, trainComponent "t1" (2 ^ 63), workflow, store, toOption_eq_some.mp hsubmit, ⟨⟨?_, rfl, ?_⟩, by decide⟩,
    ⟨?_, rfl, ?_⟩, hraises⟩
  · exact (by decide : "t0" ∈ ["t0", "t1", "t2"])
  · exact fun _ hkey => by cases hkey
  · exact (by decide : "t1" ∈ ["t0", "t1", "t2"])
  · exact fun _ hkey => by cases hkey

end TPUSwarm
