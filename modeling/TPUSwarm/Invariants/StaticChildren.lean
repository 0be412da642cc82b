import TPUSwarm.Common.Runs
import TPUSwarm.Common.Separator
import TPUSwarm.Invariants.NewWorkflows
import TPUSwarm.Invariants.StaticWorkflows

/-!
# The children of static workflows

A component that names no task of its own gets an id that joins the id of its workflow, its
key and its generation with hyphens. Workflow ids and keys may have hyphens too, so children
of two workflows are apart only when the two pairs cannot slide into each other.
-/

namespace TPUSwarm

open Common SwarmStore

/-- The task id that a static workflow derives for a component. -/
def childId (workflowId key : String) (generation : ℕ) : String :=
  workflowId ++ "-" ++ key ++ "-g" ++ toString generation

/-- An item of a payload names neither the task of its component nor an idempotency key for it. -/
def Unnamed (item : Json) : Prop :=
  ∀ task d, item.subscript "task" = .ok task → task.view = .obj d →
    d.get? "task_id" = none ∧ d.get? "idempotency_key" = none

/-- No item of a payload names its task. -/
def NamesNoTasks (payload : Mapping) : Prop :=
  ∀ value items, payload.get? "components" = some value → value.view = .arr items → ∀ item ∈ items, Unnamed item

/-- The characters of a derived id: the last one that is no digit ends what stands before the generation. -/
theorem toList_childId (workflowId key : String) (generation : ℕ) : (childId workflowId key generation).toList =
    (workflowId.toList ++ '-' :: key.toList ++ ['-']) ++ 'g' :: Nat.toDigits 10 generation := by
  simp [childId]

/-- No digit of a numeral is the letter before it. -/
theorem notMem_toDigits (n : ℕ) : 'g' ∉ Nat.toDigits 10 n := by
  intro hmem
  have hdigit := Nat.isDigit_of_mem_toDigits (by omega) (by omega) hmem
  revert hdigit
  decide

/-- Derived ids are equal when the generations are, and one pair of a workflow id and a key is the other one or
slides into it. -/
theorem childId_eq_iff {w k w' k' : String} {g g' : ℕ} : childId w k g = childId w' k' g' ↔
    g = g' ∧ ((w = w' ∧ k = k') ∨ Separator.Slides '-' w.toList k.toList w'.toList k'.toList ∨
      Separator.Slides '-' w'.toList k'.toList w.toList k.toList) := by
  have hlists : childId w k g = childId w' k' g' ↔ (childId w k g).toList = (childId w' k' g').toList :=
    String.toList_inj.symm
  rw [hlists, toList_childId, toList_childId]
  have hjoin : w.toList ++ '-' :: k.toList = w'.toList ++ '-' :: k'.toList ↔ _ := Separator.join_eq_iff
  rw [String.toList_inj, String.toList_inj] at hjoin
  rw [← hjoin]
  constructor
  · intro h
    obtain ⟨hfront, hdigits⟩ := Separator.join_inj_of_notMem (notMem_toDigits g) (notMem_toDigits g') h
    exact ⟨numeral_injective hdigits, List.append_cancel_right hfront⟩
  · rintro ⟨rfl, hfront⟩
    rw [hfront]

/-- The id of one workflow is that of another with a hyphen and a text behind it, and a component of the other
has this text and a hyphen before the key of a component of the first, in the same generation. -/
def Extends (workflowId other : String) (components others : List ComponentSpec) : Prop :=
  ∃ a ∈ components, ∃ b ∈ others, a.generation = b.generation ∧
    ∃ text, other = workflowId ++ "-" ++ text ∧ a.key = text ++ "-" ++ b.key

/-- The ids of the children of a static workflow. -/
def childIds (workflowId : String) (components : List ComponentSpec) : List String :=
  components.map fun component => childId workflowId component.key component.generation

/-- Nothing in a store bears a name of a workflow or of its children. -/
structure UnusedBy (store : SwarmStore) (workflowId : String) (components : List ComponentSpec) : Prop where
  workflows : ∀ row ∈ store.workflows.rows, row.workflowId ≠ workflowId
  links : ∀ link ∈ store.components.rows, link.workflowId ≠ workflowId
  children : ∀ component ∈ components, Unused store workflowId component

/-- Two static workflows have no task id in common. So after the first one the second can be submitted, and then
each of them is linked to its own tasks only. -/
structure ChildrenApart (first second : WorkflowSpec) (ours theirs : List ComponentSpec) : Prop where
  disjoint : ∀ a ∈ ours, ∀ b ∈ theirs, a.task.taskId ≠ b.task.taskId
  submitted : ∀ (store : SwarmStore) (earlier later : Time), UnusedBy store first.workflowId ours →
    UnusedBy store second.workflowId theirs → ∃ workflow mid workflow' store',
      submitWorkflow first ours StaticMultiAutoResumable.initialState earlier store = .ok (workflow, mid) ∧
        submitWorkflow second theirs StaticMultiAutoResumable.initialState later mid = .ok (workflow', store') ∧
          LinkedToOwn store' first.workflowId ours ∧ LinkedToOwn store' second.workflowId theirs

/-- A text value is determined by its text. -/
theorem Json.eq_str {value : Json} {s : String} (h : value.view = .str s) : value = .str s := by
  obtain ⟨tree, hcanonical⟩ := value
  cases tree with
  | str t =>
    cases h
    rfl
  | _ => cases h

/-- The numeral of an integer that is not negative. -/
theorem toString_int {n : ℤ} (h : ¬ n < 0) : toString n = toString n.toNat := by
  obtain ⟨m, rfl⟩ := Int.eq_ofNat_of_zero_le (Int.not_lt.mp h)
  rfl

namespace StaticMultiAutoResumable

variable {workflowId : String} {item : Json} {component : ComponentSpec}

/-- What the constructor of a component keeps of its arguments. -/
theorem buildComponent_eq_ok {key : Json} {generation : ℤ} {required : Bool} {task : TaskSpec}
    (h : buildComponent key generation required task = .ok component) :
    key = .str component.key ∧ ¬ generation < 0 ∧ component.generation = generation.toNat ∧
      component.task = task := by
  unfold buildComponent at h
  obtain ⟨text, htext, h⟩ := bind_eq_ok.mp h
  have hkey : key = .str text := by
    apply Json.eq_str
    unfold Json.text at htext
    split at htext
    · rename_i hview
      cases htext
      exact hview
    · cases htext
  split at h
  · split at h
    · cases h
    · rename_i hgeneration
      cases h
      exact ⟨hkey, hgeneration, rfl, rfl⟩
  · cases h

/-- What the constructor of a task keeps of its names. -/
theorem buildTask_eq_ok {taskId kind resourceClass payload idempotencyKey metadata : Json}
    {priority recoveryPriority : Priority} {task : TaskSpec}
    (h : buildTask taskId kind resourceClass payload priority recoveryPriority idempotencyKey metadata = .ok task) :
    taskId.text = .ok task.taskId ∧ idempotencyKey.optionalText = .ok task.idempotencyKey := by
  unfold buildTask at h
  obtain ⟨kind, -, h⟩ := bind_eq_ok.mp h
  split at h
  · obtain ⟨resourceClass, -, h⟩ := bind_eq_ok.mp h
    split at h
    · obtain ⟨payload, -, h⟩ := bind_eq_ok.mp h
      obtain ⟨metadata, -, h⟩ := bind_eq_ok.mp h
      obtain ⟨id, hid, h⟩ := bind_eq_ok.mp h
      obtain ⟨key, hkey, h⟩ := bind_eq_ok.mp h
      cases h
      exact ⟨hid, hkey⟩
    · cases h
  · cases h

/-- A component that names no task gets the derived id, and no idempotency key. -/
theorem desiredComponent_derived (h : desiredComponent workflowId item = .ok component) (hunnamed : Unnamed item) :
    itemKey? item = some (.str component.key) ∧
      component.task.taskId = childId workflowId component.key component.generation ∧
        component.task.idempotencyKey = none := by
  unfold desiredComponent at h
  obtain ⟨task, htask, h⟩ := bind_eq_ok.mp h
  obtain ⟨rawGeneration, -, h⟩ := bind_eq_ok.mp h
  obtain ⟨generation, -, h⟩ := bind_eq_ok.mp h
  obtain ⟨key, hkey, h⟩ := bind_eq_ok.mp h
  obtain ⟨required, -, h⟩ := bind_eq_ok.mp h
  obtain ⟨taskId, htaskId, h⟩ := bind_eq_ok.mp h
  obtain ⟨kind, -, h⟩ := bind_eq_ok.mp h
  obtain ⟨resourceClass, -, h⟩ := bind_eq_ok.mp h
  obtain ⟨payload, -, h⟩ := bind_eq_ok.mp h
  obtain ⟨rawPriority, -, h⟩ := bind_eq_ok.mp h
  obtain ⟨priority, -, h⟩ := bind_eq_ok.mp h
  obtain ⟨rawRecovery, -, h⟩ := bind_eq_ok.mp h
  obtain ⟨recoveryPriority, -, h⟩ := bind_eq_ok.mp h
  obtain ⟨idempotencyKey, hidempotency, h⟩ := bind_eq_ok.mp h
  obtain ⟨metadata, -, h⟩ := bind_eq_ok.mp h
  obtain ⟨spec, hspec, h⟩ := bind_eq_ok.mp h
  obtain ⟨rfl, hgeneration, hcomponent, rfl⟩ := buildComponent_eq_ok h
  obtain ⟨hid, hnone⟩ := buildTask_eq_ok hspec
  have hitem : itemKey? item = some (.str component.key) := by
    unfold Json.subscript at hkey
    unfold itemKey?
    split at hkey
    · rename_i d hview
      cases hfound : d.get? "key" with
      | none =>
        rw [hfound] at hkey
        cases hkey
      | some value =>
        rw [hfound] at hkey
        cases hkey
        simp only [hview, hfound, Option.getD_some]
    · cases hkey
    · cases hkey
    · cases hkey
  unfold Json.getOr at htaskId hidempotency
  split at htaskId
  · rename_i d hview
    obtain ⟨hnoId, hnoKey⟩ := hunnamed task d htask hview
    rw [hview] at hidempotency
    dsimp only at hidempotency
    rw [hnoId] at htaskId
    rw [hnoKey] at hidempotency
    cases htaskId
    cases hidempotency
    refine ⟨hitem, ?_, (Except.ok.inj hnone).symm⟩
    have hderived := (Except.ok.inj hid).symm
    rw [toString_int hgeneration, ← hcomponent] at hderived
    exact hderived
  · cases htaskId

end StaticMultiAutoResumable

/-- The children of a static workflow that names none of them: all have derived ids and keys of their own. -/
structure Derived (workflowId : String) (components : List ComponentSpec) : Prop where
  ids : ∀ c ∈ components, c.task.taskId = childId workflowId c.key c.generation
  unkeyed : ∀ c ∈ components, c.task.idempotencyKey = none
  keys : components.Pairwise fun a b => a.key ≠ b.key

/-- The components that a payload describes have the keys of its items, in order. -/
theorem keys_of_desired {workflowId : String} {items : List Json} {desired : List ComponentSpec}
    (h : List.Forall₂ (fun item c => StaticMultiAutoResumable.desiredComponent workflowId item = .ok c) items
      desired)
    (hunnamed : ∀ item ∈ items, Unnamed item) :
    items.filterMap StaticMultiAutoResumable.itemKey? = desired.map fun c => .str c.key := by
  induction h with
  | nil => rfl
  | @cons item c items desired hfirst _ ih =>
    obtain ⟨hkey, -⟩ := StaticMultiAutoResumable.desiredComponent_derived hfirst (hunnamed item List.mem_cons_self)
    rw [List.filterMap_cons_some hkey, List.map_cons, ih fun i hi => hunnamed i (List.mem_cons_of_mem item hi)]

/-- Validation keeps the keys of the components. -/
theorem keys_of_validated {engine : WorkflowEngine} {desired components : List ComponentSpec}
    (h : List.Forall₂ (fun d c => engine.validatedComponent d = .ok c) desired components) :
    components.map ComponentSpec.key = desired.map ComponentSpec.key := by
  induction h with
  | nil => rfl
  | cons hfirst _ ih =>
    obtain ⟨payload, rfl⟩ := WorkflowEngine.validatedComponent_eq_ok hfirst
    rw [List.map_cons, List.map_cons, ih]

/-- What the engine submits for a static workflow that names none of its tasks. -/
theorem StaticSubmission.derived {engine : WorkflowEngine} {spec : WorkflowSpec} {components : List ComponentSpec}
    {initialState : Mapping} (h : StaticSubmission engine spec components initialState)
    (hnames : NamesNoTasks spec.payload) : Derived spec.workflowId components := by
  obtain ⟨⟨payload, haccepted⟩, -, desired, hdesired, hvalid⟩ := h
  obtain ⟨rfl, value, items, hvalue, hview, -, -, -, hnodup⟩ :=
    StaticMultiAutoResumable.validatePayload_eq_ok haccepted
  obtain ⟨found, hfound, hdesired⟩ := bind_eq_ok.mp hdesired
  obtain rfl := Option.some.inj (hvalue.symm.trans (orRaise_eq_ok.mp hfound))
  obtain ⟨found, hitems, hdesired⟩ := bind_eq_ok.mp hdesired
  rw [Json.items, hview] at hitems
  cases hitems
  have hall := hnames value items hvalue hview
  have hmade := mapM_eq_ok.mp hdesired
  have hchecked := mapM_eq_ok.mp hvalid
  have hkeys := keys_of_validated hchecked
  have hderived : ∀ c ∈ components, c.task.taskId = childId spec.workflowId c.key c.generation ∧
      c.task.idempotencyKey = none := by
    intro c hc
    obtain ⟨d, hd, hvalidated⟩ := (forall₂_mem hchecked).2 c hc
    obtain ⟨item, hitem, hdesiredItem⟩ := (forall₂_mem hmade).2 d hd
    obtain ⟨payload, rfl⟩ := WorkflowEngine.validatedComponent_eq_ok hvalidated
    exact (StaticMultiAutoResumable.desiredComponent_derived hdesiredItem (hall item hitem)).2
  refine ⟨fun c hc => (hderived c hc).1, fun c hc => (hderived c hc).2, ?_⟩
  rw [keys_of_desired hmade hall] at hnodup
  have hdistinct : (desired.map ComponentSpec.key).Nodup := by
    have hcomp : (desired.map fun c => Json.str c.key) = (desired.map ComponentSpec.key).map Json.str := by simp
    rw [hcomp] at hnodup
    exact hnodup.of_map Json.str
  rw [← hkeys] at hdistinct
  exact List.pairwise_map.mp hdistinct

/-- It is what `WorkflowEngine.submit` asks of the store. -/
theorem StaticSubmission.submit_eq {engine : WorkflowEngine} {spec : WorkflowSpec} {components : List ComponentSpec}
    {initialState : Mapping} (h : StaticSubmission engine spec components initialState)
    (hkind : engine.registry.workflow spec.kind = .ok staticMultiAutoResumable) :
    engine.submit spec = callStore (.submitWorkflow spec components initialState) none := by
  obtain ⟨⟨payload, haccepted⟩, rfl, desired, hdesired, hvalid⟩ := h
  obtain ⟨rfl, -⟩ := StaticMultiAutoResumable.validatePayload_eq_ok haccepted
  have haccepts : staticMultiAutoResumable.validatePayload spec.payload = .ok spec.payload := haccepted
  have hdesires : staticMultiAutoResumable.desiredComponents
      (WorkflowEngine.placeholder spec StaticMultiAutoResumable.initialState)
        StaticMultiAutoResumable.initialState = .ok desired := hdesired
  unfold WorkflowEngine.submit
  rw [hkind]
  have hinitial : staticMultiAutoResumable.initialState spec.payload =
      .ok StaticMultiAutoResumable.initialState := rfl
  simp only [haccepts, hinitial, hdesires, hvalid, Action.ofExcept_bind]
  exact Action.ofExcept_bind components _

namespace Derived

variable {workflowId other : String} {components others : List ComponentSpec}

/-- Two workflows have a task id in common exactly when one extends the other. -/
theorem ids_meet_iff (h : Derived workflowId components) (h' : Derived other others) (hne : workflowId ≠ other) :
    (∃ a ∈ components, ∃ b ∈ others, a.task.taskId = b.task.taskId) ↔
      Extends workflowId other components others ∨ Extends other workflowId others components := by
  have hslides : ∀ {w w' k k' : String}, Separator.Slides '-' w.toList k.toList w'.toList k'.toList ↔
      ∃ text, w' = w ++ "-" ++ text ∧ k = text ++ "-" ++ k' := by
    intro w w' k k'
    constructor
    · rintro ⟨s, hw, hk⟩
      exact ⟨String.ofList s, String.toList_inj.mp (by simp [hw]), String.toList_inj.mp (by simp [hk])⟩
    · rintro ⟨text, rfl, rfl⟩
      exact ⟨text.toList, by simp, by simp⟩
  constructor
  · rintro ⟨a, ha, b, hb, hid⟩
    rw [h.ids a ha, h'.ids b hb, childId_eq_iff, hslides, hslides] at hid
    obtain ⟨hgeneration, ⟨hsame, -⟩ | hslide | hslide⟩ := hid
    · exact absurd hsame hne
    · exact Or.inl ⟨a, ha, b, hb, hgeneration, hslide⟩
    · exact Or.inr ⟨b, hb, a, ha, hgeneration.symm, hslide⟩
  · rintro (⟨a, ha, b, hb, hgeneration, hslide⟩ | ⟨b, hb, a, ha, hgeneration, hslide⟩)
    · refine ⟨a, ha, b, hb, ?_⟩
      rw [h.ids a ha, h'.ids b hb]
      exact childId_eq_iff.mpr ⟨hgeneration, Or.inr (Or.inl (hslides.mpr hslide))⟩
    · refine ⟨a, ha, b, hb, ?_⟩
      rw [h.ids a ha, h'.ids b hb]
      exact childId_eq_iff.mpr ⟨hgeneration.symm, Or.inr (Or.inr (hslides.mpr hslide))⟩

/-- Children of one workflow have ids of their own. -/
theorem ids_distinct (h : Derived workflowId components) :
    components.Pairwise fun a b => a.task.taskId ≠ b.task.taskId := by
  refine h.keys.imp_of_mem fun {a b} ha hb hkey hid => hkey ?_
  rw [h.ids a ha, h.ids b hb, childId_eq_iff] at hid
  obtain ⟨-, ⟨-, hsame⟩ | ⟨s, hslide, -⟩ | ⟨s, hslide, -⟩⟩ := hid
  · exact hsame
  · simp at hslide
  · simp at hslide

/-- The derived ids are the ids of the children. -/
theorem childIds_eq (h : Derived workflowId components) :
    childIds workflowId components = components.map fun c => c.task.taskId :=
  List.map_congr_left fun c hc => (h.ids c hc).symm

end Derived

/-- Every row has the executor job name of its task id. -/
def NamedByIds (store : SwarmStore) : Prop := ∀ row ∈ store.tasks.rows, row.jobName = executorName row.taskId

/-- A submission keeps it so. -/
theorem NamedByIds.submitted {store store' : SwarmStore} {spec : WorkflowSpec} {components : List ComponentSpec}
    {initialState : Mapping} {now : Time} {workflow : WorkflowRecord} (h : NamedByIds store)
    (hrun : submitWorkflow spec components initialState now store = .ok (workflow, store')) :
    NamedByIds store' := by
  obtain ⟨workflows, -, hinsert⟩ := submitWorkflow_steps hrun
  obtain ⟨added, hrows, hnew⟩ := insertComponents_rows hinsert
  intro row hrow
  rw [hrows, List.mem_append] at hrow
  rcases hrow with hold | hadded
  · exact h row hold
  · obtain ⟨_, _, _, _, _, rfl⟩ := hnew row hadded
    rfl

/-- A workflow that is linked to its own tasks has a row for each of its children. -/
theorem LinkedToOwn.child {store : SwarmStore} {workflowId taskId : String} {components : List ComponentSpec}
    (h : LinkedToOwn store workflowId components) (hid : taskId ∈ components.map fun c => c.task.taskId) :
    ∃ row ∈ store.tasks.rows, row.taskId = taskId := by
  obtain ⟨c, hc, rfl⟩ := List.mem_map.mp hid
  obtain ⟨link, hlink, hlinkId⟩ := h.linked c hc
  obtain ⟨hmem, hplace⟩ := component?_eq_some.mp hlink
  obtain ⟨row, hrow, -⟩ := h.own link hmem (Prod.mk.inj hplace).1
  obtain ⟨hrowMem, hrowId⟩ := task?_eq_some.mp hrow
  exact ⟨row, hrowMem, hrowId.trans hlinkId⟩

section Apart

variable {engine : WorkflowEngine} {first second : WorkflowSpec} {ours theirs : List ComponentSpec}

/-- The executor job names tell the children of two workflows apart. -/
def NamesTold (first second : WorkflowSpec) (ours theirs : List ComponentSpec) : Prop :=
  Set.InjOn executorName {taskId | taskId ∈ childIds first.workflowId ours ++ childIds second.workflowId theirs}

/-- Children of one workflow differ, where executor job names tell them apart. -/
theorem Derived.differ {workflowId : String} {components : List ComponentSpec} (h : Derived workflowId components)
    {ids : Set String} (htold : Set.InjOn executorName ids)
    (hids : ∀ c ∈ components, c.task.taskId ∈ ids) : components.Pairwise Differ := by
  refine (h.keys.and h.ids_distinct).imp_of_mem fun {a b} ha hb hab => ⟨hab.1, hab.2, fun hname => hab.2 ?_⟩
  exact htold (hids a ha) (hids b hb) hname

/-- The children of a workflow stay unused when those of another are added. -/
theorem UnusedBy.added {store store' : SwarmStore} {workflowId other : String}
    {components others : List ComponentSpec} {now : Time} {added : WorkflowRow} (h : UnusedBy store other others)
    (hne : workflowId ≠ other) (hadds : Adds now workflowId components store store')
    (hworkflows : store'.workflows.rows = store.workflows.rows ++ [added]) (hadded : added.workflowId = workflowId)
    (hids : ∀ a ∈ components, ∀ b ∈ others, a.task.taskId ≠ b.task.taskId)
    (hnames : ∀ a ∈ components, ∀ b ∈ others, executorName a.task.taskId ≠ executorName b.task.taskId) :
    UnusedBy store' other others := by
  constructor
  · intro row hrow
    rw [hworkflows, List.mem_append, List.mem_singleton] at hrow
    rcases hrow with hold | rfl
    · exact h.workflows row hold
    · exact fun hsame => hne (hadded.symm.trans hsame)
  · intro link hlink
    rw [hadds.links, List.mem_append] at hlink
    rcases hlink with hold | hnew
    · exact h.links link hold
    · obtain ⟨a, -, rfl⟩ := List.mem_map.mp hnew
      exact hne
  · intro b hb
    constructor
    · intro row hrow
      rw [hadds.tasks, List.mem_append] at hrow
      rcases hrow with hold | hnew
      · exact (h.children b hb).tasks row hold
      · obtain ⟨a, ha, rfl⟩ := List.mem_map.mp hnew
        refine ⟨hids a ha b hb, hnames a ha b hb, ?_⟩
        rw [slot_componentRow]
        exact fun hslot => hne (Prod.mk.inj (Option.some.inj hslot)).1
    · intro link hlink
      rw [hadds.links, List.mem_append] at hlink
      rcases hlink with hold | hnew
      · exact (h.children b hb).links link hold
      · obtain ⟨a, ha, rfl⟩ := List.mem_map.mp hnew
        exact ⟨hids a ha b hb, fun hplace => hne (Prod.mk.inj hplace).1⟩

/-- Without a common id, and with executor job names of their own, both workflows are submitted. -/
theorem Derived.apart (h : Derived first.workflowId ours) (h' : Derived second.workflowId theirs)
    (hne : first.workflowId ≠ second.workflowId)
    (hids : ∀ a ∈ ours, ∀ b ∈ theirs, a.task.taskId ≠ b.task.taskId) (htold : NamesTold first second ours theirs)
    (hfits : ∀ c ∈ ours ++ theirs, c.generation < 2 ^ 63) : ChildrenApart first second ours theirs := by
  refine ⟨hids, fun store earlier later hunused hunused' => ?_⟩
  unfold NamesTold at htold
  rw [h.childIds_eq, h'.childIds_eq] at htold
  have hmem : ∀ a ∈ ours, a.task.taskId ∈ {taskId | taskId ∈
      (ours.map fun c => c.task.taskId) ++ theirs.map fun c => c.task.taskId} :=
    fun a ha => List.mem_append_left _ (List.mem_map_of_mem ha)
  have hmem' : ∀ b ∈ theirs, b.task.taskId ∈ {taskId | taskId ∈
      (ours.map fun c => c.task.taskId) ++ theirs.map fun c => c.task.taskId} :=
    fun b hb => List.mem_append_right _ (List.mem_map_of_mem hb)
  obtain ⟨mid, hrun, hadds, hworkflows⟩ := submitWorkflow_adds hunused.workflows hunused.children h.unkeyed
    (fun a ha => hfits a (List.mem_append_left _ ha)) (h.differ htold hmem) earlier
  have hstill : UnusedBy mid second.workflowId theirs :=
    hunused'.added hne hadds hworkflows rfl hids fun a ha b hb hname =>
      hids a ha b hb (htold (hmem a ha) (hmem' b hb) hname)
  obtain ⟨store', hrun', hadds', -⟩ := submitWorkflow_adds hstill.workflows hstill.children h'.unkeyed
    (fun b hb => hfits b (List.mem_append_right _ hb)) (h'.differ htold hmem') later
  exact ⟨_, mid, _, store', hrun, hrun', (hadds.linkedToOwn hunused.links).added hadds' hne.symm,
    hadds'.linkedToOwn hstill.links⟩

/-- Nothing in the empty store bears any name. -/
theorem unusedBy_empty (workflowId : String) (components : List ComponentSpec) :
    UnusedBy .empty workflowId components :=
  ⟨fun _ hrow => (by cases hrow), fun _ hlink => (by cases hlink),
    fun _ _ => ⟨fun _ hrow => (by cases hrow), fun _ hlink => (by cases hlink)⟩⟩

/-- Where both workflows can be submitted, their generations fit the column. -/
theorem ChildrenApart.fits (h : ChildrenApart first second ours theirs) :
    ∀ c ∈ ours ++ theirs, c.generation < 2 ^ 63 := by
  obtain ⟨_, mid, _, store', hrun, hrun', -⟩ := h.submitted .empty 0 0 (unusedBy_empty _ _) (unusedBy_empty _ _)
  obtain ⟨_, -, hinsert⟩ := submitWorkflow_steps hrun
  obtain ⟨_, -, hinsert'⟩ := submitWorkflow_steps hrun'
  intro c hc
  exact (List.mem_append.mp hc).elim (insertComponents_fits hinsert c) (insertComponents_fits hinsert' c)

/-- Where both workflows can be submitted, executor job names tell their children apart. -/
theorem ChildrenApart.namesTold (h : ChildrenApart first second ours theirs) (hours : Derived first.workflowId ours)
    (htheirs : Derived second.workflowId theirs) : NamesTold first second ours theirs := by
  obtain ⟨_, mid, _, store', hrun, hrun', hlinked, hlinked'⟩ :=
    h.submitted .empty 0 0 (unusedBy_empty _ _) (unusedBy_empty _ _)
  have hstart : NamedByIds .empty := fun _ hrow => by cases hrow
  have hnamed := (hstart.submitted hrun).submitted hrun'
  have hchild : ∀ taskId ∈ childIds first.workflowId ours ++ childIds second.workflowId theirs,
      ∃ row ∈ store'.tasks.rows, row.taskId = taskId := by
    intro taskId hid
    rw [hours.childIds_eq, htheirs.childIds_eq, List.mem_append] at hid
    exact hid.elim hlinked.child hlinked'.child
  intro a ha b hb hname
  obtain ⟨row, hrow, rfl⟩ := hchild a ha
  obtain ⟨other, hother, rfl⟩ := hchild b hb
  rw [← hnamed row hrow, ← hnamed other hother] at hname
  rw [store'.jobName_unique hrow hother hname]

end Apart

/-- The children of a workflow with components to train. -/
def trainChildren (workflowId : String) (keys : List String) : List ComponentSpec :=
  ((StaticMultiAutoResumable.payloadComponents workflowId (trainWorkflow workflowId keys).payload).toOption).getD []

/-- It names none of their tasks. -/
theorem trainWorkflow_namesNoTasks (workflowId : String) (keys : List String) :
    NamesNoTasks (trainWorkflow workflowId keys).payload := by
  intro value items hvalue hview item hitem task d htask hd
  have hcomponents : value = .arr (keys.map trainItem) := (Option.some.inj hvalue).symm
  rw [hcomponents, Json.view_arr] at hview
  cases hview
  obtain ⟨key, -, rfl⟩ := List.mem_map.mp hitem
  rw [trainItem, Json.subscript, Json.view_obj] at htask
  have htrain (value : Json) : (Dict.ofList [("key", .str key), ("task", value)]).get? "task" = some value :=
    (Dict.get?_ofList (by simp)).mpr (by simp)
  dsimp only at htask
  rw [htrain] at htask
  cases htask
  rw [Json.view_obj] at hd
  cases hd
  exact ⟨rfl, rfl⟩

/-- The engine submits them as they are. -/
theorem trainWorkflow_submission {workflowId : String} {keys : List String}
    (haccepted : (StaticMultiAutoResumable.validatePayload (trainWorkflow workflowId keys).payload).toOption =
      some (trainWorkflow workflowId keys).payload)
    (hdesired : (StaticMultiAutoResumable.payloadComponents workflowId
      (trainWorkflow workflowId keys).payload).toOption =
      some (trainChildren workflowId keys))
    (hvalid : ((trainChildren workflowId keys).mapM staticEngine.validatedComponent).toOption =
      some (trainChildren workflowId keys)) :
    StaticSubmission staticEngine (trainWorkflow workflowId keys) (trainChildren workflowId keys)
      StaticMultiAutoResumable.initialState :=
  ⟨⟨_, toOption_eq_some.mp haccepted⟩, rfl, _, toOption_eq_some.mp hdesired, toOption_eq_some.mp hvalid⟩

/-- The second submission raises, because the task of its component is linked already. -/
def refusedAfter (first second : WorkflowSpec) (ours theirs : List ComponentSpec) (state : Mapping) : Bool :=
  (submitWorkflow first ours state 0 .empty).toOption.any fun submitted =>
    match submitWorkflow second theirs state 1 submitted.2 with
    | .error e => e = integrityError "UNIQUE"
    | .ok _ => false

end TPUSwarm
