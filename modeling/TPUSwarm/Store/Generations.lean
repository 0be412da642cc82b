import TPUSwarm.Store.Links

/-!
# Generations of links

No call removes a link or lowers its generation. So a component that is linked in its own
generation or a greater one stays so, and replacing it changes nothing.
-/

namespace TPUSwarm

open Common SwarmStore

/-- The component is linked, in its generation or in a greater one. -/
def Materialized (store : SwarmStore) (workflowId : String) (component : ComponentSpec) : Prop :=
  ∃ link, store.component? workflowId component.key = some link ∧ component.generation ≤ link.generation

variable {store mid store' : SwarmStore} {workflowId other : String} {component desired : ComponentSpec}
  {now : Time} {task : TaskRecord}

/-- Placing a component sets the link of its place, and no other. -/
theorem component?_places {row : TaskRow} {link : ComponentRow} (h : Places now other desired store mid row link)
    (workflowId key : String) : mid.component? workflowId key =
      if (workflowId, key) = (other, desired.key) then some link else store.component? workflowId key := by
  refine Option.ext fun found => ?_
  rw [component?_eq_some, h.mem_iff]
  split
  · rename_i hplace
    rw [hplace, Option.some.injEq]
    constructor
    · rintro ⟨rfl | ⟨-, hne⟩, hfound⟩
      · rfl
      · exact absurd hfound hne
    · rintro rfl
      exact ⟨Or.inl rfl, h.place⟩
  · rename_i hplace
    rw [component?_eq_some]
    constructor
    · rintro ⟨rfl | ⟨hmem, -⟩, hfound⟩
      · exact absurd (hfound.symm.trans h.place) hplace
      · exact ⟨hmem, hfound⟩
    · rintro ⟨hmem, hfound⟩
      exact ⟨Or.inr ⟨hmem, fun heq => hplace (hfound.symm.trans heq)⟩, hfound⟩

/-- Replacing what is linked changes nothing. -/
theorem Materialized.unchanged (h : Materialized store workflowId desired)
    (hrun : replaceComponent workflowId desired now store = .ok (task, mid)) : mid = store := by
  rcases replaceComponent_cases hrun with ⟨_, _, -, -, -, -, rfl⟩ | ⟨hnewer, -⟩
  · rfl
  · obtain ⟨link, hlink, hle⟩ := h
    exact absurd (hnewer link hlink) (Nat.not_lt.mpr hle)

/-- What was replaced is linked. -/
theorem materialized_replaced (h : replaceComponent workflowId desired now store = .ok (task, mid)) :
    Materialized mid workflowId desired := by
  rcases replaceComponent_cases h with ⟨link, _, hlink, hle, -, -, rfl⟩ | ⟨-, row, link, -, hplaces⟩
  · exact ⟨link, hlink, hle⟩
  · refine ⟨link, by rw [component?_places hplaces, if_pos rfl], ?_⟩
    exact le_of_eq (congrArg Linkage.generation hplaces.linkage).symm

/-- A replacement lowers no generation. -/
theorem Materialized.replaced (h : Materialized store workflowId component)
    (hrun : replaceComponent other desired now store = .ok (task, mid)) :
    Materialized mid workflowId component := by
  rcases replaceComponent_cases hrun with ⟨_, _, -, -, -, -, rfl⟩ | ⟨hnewer, row, link, -, hplaces⟩
  · exact h
  · obtain ⟨old, hold, hle⟩ := h
    by_cases hplace : (workflowId, component.key) = (other, desired.key)
    · obtain ⟨rfl, hkey⟩ := Prod.mk.inj hplace
      have hlt := hnewer old (hkey ▸ hold)
      have hgeneration : link.generation = desired.generation := congrArg Linkage.generation hplaces.linkage
      exact ⟨link, by rw [component?_places hplaces, if_pos hplace], by omega⟩
    · exact ⟨old, by rw [component?_places hplaces, if_neg hplace, hold], hle⟩

/-- Adding the components of a new workflow keeps every link. -/
theorem component?_insertComponents {components : List ComponentSpec} {key : String} {link : ComponentRow}
    (hrun : insertComponents other now components store = .ok store')
    (hlink : store.component? workflowId key = some link) : store'.component? workflowId key = some link := by
  induction components generalizing store with
  | nil =>
    cases hrun
    exact hlink
  | cons component rest ih =>
    obtain ⟨mid, row, placed, hplaces, hfresh, hrest⟩ := insertComponents_cons hrun
    refine ih hrest ?_
    obtain ⟨hmem, hplace⟩ := component?_eq_some.mp hlink
    rw [component?_places hplaces, if_neg fun heq => hfresh link hmem (hplace.trans heq), hlink]

/-- The components of a new workflow are linked as they were specified. -/
theorem insertComponents_links {components : List ComponentSpec}
    (hrun : insertComponents workflowId now components store = .ok store') :
    ∀ component ∈ components, ∃ link, store'.component? workflowId component.key = some link ∧
      link.generation = component.generation ∧ link.required = component.required := by
  induction components generalizing store with
  | nil => simp
  | cons component rest ih =>
    obtain ⟨mid, row, link, hplaces, -, hrest⟩ := insertComponents_cons hrun
    refine List.forall_mem_cons.mpr ⟨⟨link, ?_, ?_⟩, ih hrest⟩
    · exact component?_insertComponents hrest (by rw [component?_places hplaces, if_pos rfl])
    · exact ⟨congrArg Linkage.generation hplaces.linkage, congrArg Linkage.required hplaces.linkage⟩

/-- A link stays as it is, unless a replacement moves it. -/
theorem Call.keeps_link {call : Call} {result : call.Result} {key : String} {link : ComponentRow}
    (hrun : call.run now store = .ok (result, store')) (hlink : store.component? workflowId key = some link)
    (hreplace : ∀ component, call = .replaceComponent workflowId component →
      Materialized store workflowId component) :
    store'.component? workflowId key = some link := by
  by_cases hcomponents : StoreTable.components ∈ call.tables
  · cases call with
    | submitWorkflow spec components initialState =>
      obtain ⟨workflows, -, hinsert⟩ := submitWorkflow_steps hrun
      exact component?_insertComponents hinsert hlink
    | replaceComponent other desired =>
      by_cases hsame : other = workflowId
      · subst hsame
        rw [(hreplace desired rfl).unchanged hrun]
        exact hlink
      · rcases replaceComponent_cases hrun with ⟨_, _, -, -, -, -, rfl⟩ | ⟨-, row, placed, -, hplaces⟩
        · exact hlink
        · rw [component?_places hplaces, if_neg fun heq => hsame (Prod.mk.inj heq).1.symm, hlink]
    | _ => simp [Call.tables] at hcomponents
  · have hsame : store'.components = store.components := Call.frame hrun hcomponents
    rw [component?, hsame]
    exact hlink

/-- Adding the components of a new workflow adds links of this workflow. -/
theorem insertComponents_old {components : List ComponentSpec} {link : ComponentRow}
    (hrun : insertComponents other now components store = .ok store') (hlink : link ∈ store'.components.rows)
    (hother : other ≠ link.workflowId) : link ∈ store.components.rows := by
  induction components generalizing store with
  | nil =>
    cases hrun
    exact hlink
  | cons component rest ih =>
    obtain ⟨mid, row, placed, hplaces, -, hrest⟩ := insertComponents_cons hrun
    rcases (hplaces.mem_iff link).mp (ih hrest) with rfl | ⟨hold, -⟩
    · exact absurd (congrArg Prod.fst hplaces.place).symm hother
    · exact hold

/-- A link of a workflow was there before, unless the call submits the workflow or moves a component of it. -/
theorem Call.link_old {call : Call} {result : call.Result} {link : ComponentRow}
    (hrun : call.run now store = .ok (result, store')) (hlink : link ∈ store'.components.rows)
    (hsubmit : ∀ spec components initialState, call = .submitWorkflow spec components initialState →
      spec.workflowId ≠ link.workflowId)
    (hreplace : ∀ component, call = .replaceComponent link.workflowId component →
      Materialized store link.workflowId component) : link ∈ store.components.rows := by
  by_cases hcomponents : StoreTable.components ∈ call.tables
  · cases call with
    | submitWorkflow spec components initialState =>
      obtain ⟨workflows, -, hinsert⟩ := submitWorkflow_steps hrun
      have hold : link ∈ ({ store with workflows } : SwarmStore).components.rows :=
        insertComponents_old hinsert hlink (hsubmit spec components initialState rfl)
      exact hold
    | replaceComponent other desired =>
      by_cases hsame : other = link.workflowId
      · subst hsame
        exact (hreplace desired rfl).unchanged hrun ▸ hlink
      · rcases replaceComponent_cases hrun with ⟨_, _, -, -, -, -, rfl⟩ | ⟨-, row, placed, -, hplaces⟩
        · exact hlink
        · rcases (hplaces.mem_iff link).mp hlink with rfl | ⟨hold, -⟩
          · exact absurd (congrArg Prod.fst hplaces.place).symm hsame
          · exact hold
    | _ => simp [Call.tables] at hcomponents
  · have hsame : store'.components = store.components := Call.frame hrun hcomponents
    exact hsame ▸ hlink

/-- No call lowers the generation of a link. -/
theorem Materialized.run {call : Call} {result : call.Result} (h : Materialized store workflowId component)
    (hrun : call.run now store = .ok (result, store')) : Materialized store' workflowId component := by
  by_cases hreplace : ∃ other desired, call = .replaceComponent other desired
  · obtain ⟨other, desired, rfl⟩ := hreplace
    exact h.replaced hrun
  · obtain ⟨link, hlink, hle⟩ := h
    exact ⟨link, Call.keeps_link hrun hlink fun desired hcall => absurd ⟨_, _, hcall⟩ hreplace, hle⟩

end TPUSwarm
