import TPUSwarm.Store.Origins

/-!
# Links between components and tasks

A link says which task stands for a component key of a workflow, and in which generation.
Submitting a workflow adds links, replacing a component moves one. A task is linked at most
once, so a link to a task that is linked elsewhere is refused.
-/

namespace TPUSwarm

open Common

/-- The workflow and the key that a link is for. -/
def ComponentRow.place (link : ComponentRow) : String × String := (link.workflowId, link.componentKey)

/-- What a link says about its place. -/
structure Linkage where
  generation : ℕ
  taskId : String
  required : Bool
deriving DecidableEq

/-- The linkage of a link. -/
def ComponentRow.linkage (link : ComponentRow) : Linkage := ⟨link.generation, link.taskId, link.required⟩

namespace SwarmStore

variable {store store' : SwarmStore} {now : Time}

/-- Links of one place are the same link. -/
theorem link_unique (store : SwarmStore) {a b : ComponentRow} (ha : a ∈ store.components.rows)
    (hb : b ∈ store.components.rows) (h : a.place = b.place) : a = b :=
  store.components.eq_of_clash ha hb (Or.inl ⟨congrArg Prod.fst h, congrArg Prod.snd h⟩)

/-- Links to one task are the same link. -/
theorem linked_unique (store : SwarmStore) {a b : ComponentRow} (ha : a ∈ store.components.rows)
    (hb : b ∈ store.components.rows) (h : a.taskId = b.taskId) : a = b :=
  store.components.eq_of_clash ha hb (Or.inr h)

/-- The link that is found is the one at its place. -/
theorem component?_eq_some {workflowId key : String} {link : ComponentRow} :
    store.component? workflowId key = some link ↔
      link ∈ store.components.rows ∧ link.place = (workflowId, key) := by
  unfold component?
  constructor
  · intro h
    have hplace := List.find?_some h
    rw [Bool.and_eq_true_iff, decide_eq_true_eq, decide_eq_true_eq] at hplace
    exact ⟨List.mem_of_find?_eq_some h, Prod.ext hplace.1 hplace.2⟩
  · rintro ⟨hmem, hplace⟩
    obtain ⟨found, hfound⟩ := Option.isSome_iff_exists.mp
      (List.find?_isSome.mpr ⟨link, hmem, by
        rw [Bool.and_eq_true_iff, decide_eq_true_eq, decide_eq_true_eq]
        exact ⟨congrArg Prod.fst hplace, congrArg Prod.snd hplace⟩⟩ :
        (store.components.rows.find? fun link =>
          link.workflowId = workflowId && link.componentKey = key).isSome)
    have hfoundPlace := List.find?_some hfound
    rw [Bool.and_eq_true_iff, decide_eq_true_eq, decide_eq_true_eq] at hfoundPlace
    rw [hfound, store.link_unique (List.mem_of_find?_eq_some hfound) hmem
      ((Prod.ext hfoundPlace.1 hfoundPlace.2).trans hplace.symm)]

/-- A link is written at a place: it replaces the one that was there, and every other link stays. -/
structure Links (store store' : SwarmStore) (link : ComponentRow) : Prop where
  mem_iff : ∀ other, other ∈ store'.components.rows ↔
    other = link ∨ (other ∈ store.components.rows ∧ other.place ≠ link.place)
  frame : store' = { store with components := store'.components }

/-- An insertion writes its row at a new place. -/
theorem insertComponent_links {row : ComponentRow} (h : store.insertComponent row = .ok store') :
    Links store store' row ∧ ∀ other ∈ store.components.rows, other.place ≠ row.place := by
  obtain ⟨hrows, -, hframe⟩ := insertComponent_eq_ok h
  have hfresh : ∀ other ∈ store.components.rows, other.place ≠ row.place := by
    unfold insertComponent at h
    obtain ⟨components, hinsert, -⟩ := bind_eq_ok.mp h
    intro other hother hplace
    exact (Table.insert?_eq_some (orRaise_eq_ok.mp hinsert)).2 other hother
      (Or.inl ⟨congrArg Prod.fst hplace, congrArg Prod.snd hplace⟩)
  refine ⟨⟨fun other => ?_, hframe⟩, hfresh⟩
  rw [hrows, List.mem_append, List.mem_singleton, or_comm]
  exact or_congr_right ⟨fun hother => ⟨hother, hfresh other hother⟩, And.left⟩

/-- An upsert writes a link at the place of its row, with the linkage of its row. -/
theorem upsertComponent_links {row : ComponentRow} (h : store.upsertComponent row = .ok store') :
    ∃ link, link.place = row.place ∧ link.linkage = row.linkage ∧ Links store store' link := by
  have hframe := upsertComponent_frame h
  unfold upsertComponent at h
  dsimp only at h
  split at h
  · rename_i hany
    obtain ⟨components, hupdate, h⟩ := bind_eq_ok.mp h
    cases h
    obtain ⟨old, hold, hsame⟩ := List.any_eq_true.mp hany
    have hsame_iff (link : ComponentRow) : (decide (link.workflowId = row.workflowId) &&
        decide (link.componentKey = row.componentKey)) = true ↔ link.place = row.place := by
      rw [Bool.and_eq_true_iff, decide_eq_true_eq, decide_eq_true_eq]
      exact Prod.mk.injEq .. ▸ Iff.rfl
    have hplace := (hsame_iff old).mp hsame
    refine ⟨{ old with generation := row.generation, taskId := row.taskId, required := row.required,
                       updatedAt := row.updatedAt }, hplace, rfl, fun other => ?_, hframe⟩
    · rw [show ({ store with components } : SwarmStore).components.rows = components.rows from rfl,
        Table.update?_eq_some (orRaise_eq_ok.mp hupdate), Table.mem_rewrite]
      constructor
      · rintro ⟨link, hlink, rfl⟩
        by_cases hlinkSame : link.place = row.place
        · rw [if_pos ((hsame_iff link).mpr hlinkSame), store.link_unique hlink hold (hlinkSame.trans hplace.symm)]
          exact Or.inl rfl
        · rw [if_neg fun hs => hlinkSame ((hsame_iff link).mp hs)]
          exact Or.inr ⟨hlink, fun hp => hlinkSame (hp.trans hplace)⟩
      · rintro (rfl | ⟨hother, hne⟩)
        · exact ⟨old, hold, by rw [if_pos hsame]⟩
        · exact ⟨other, hother, by rw [if_neg fun hs => hne (((hsame_iff other).mp hs).trans hplace.symm)]⟩
  · exact ⟨row, rfl, rfl, (insertComponent_links h).1⟩

/-- A link at a new place is for a workflow that exists. -/
theorem upsertComponent_workflow {row : ComponentRow} (h : store.upsertComponent row = .ok store')
    (hnone : store.component? row.workflowId row.componentKey = none) :
    (store.workflow? row.workflowId).isSome := by
  unfold upsertComponent at h
  dsimp only at h
  split at h
  · rename_i hany
    obtain ⟨link, hlink, hsame⟩ := List.any_eq_true.mp hany
    exact absurd hsame (by simpa [component?] using List.find?_eq_none.mp hnone link hlink)
  · exact (insertComponent_eq_ok h).2.1

/-- A link to a task that is linked nowhere can be written at any place of a workflow that exists. -/
theorem upsertComponent_ok {row : ComponentRow}
    (hworkflow : ∃ workflow, store.workflow? row.workflowId = some workflow)
    (hfree : ∀ link ∈ store.components.rows, link.taskId ≠ row.taskId) :
    ∃ store', store.upsertComponent row = .ok store' := by
  let same (link : ComponentRow) : Bool :=
    link.workflowId = row.workflowId && link.componentKey = row.componentKey
  let write (link : ComponentRow) : ComponentRow :=
    { link with generation := row.generation, taskId := row.taskId, required := row.required,
                updatedAt := row.updatedAt }
  by_cases hany : store.components.rows.any same
  · have hclash : ∀ a ∈ store.components.rows, ∀ b ∈ store.components.rows,
        Constrained.clash (if same a then write a else a) (if same b then write b else b) →
          Constrained.clash a b := by
      intro a ha b hb hclash
      by_cases hsameA : same a <;> by_cases hsameB : same b
      · simp only [same, Bool.and_eq_true, decide_eq_true_eq] at hsameA hsameB
        exact Or.inl ⟨hsameA.1.trans hsameB.1.symm, hsameA.2.trans hsameB.2.symm⟩
      · rw [if_pos hsameA, if_neg hsameB] at hclash
        exact hclash.imp id fun hid => absurd hid.symm (hfree b hb)
      · rw [if_neg hsameA, if_pos hsameB] at hclash
        exact hclash.imp id fun hid => absurd hid (hfree a ha)
      · rw [if_neg hsameA, if_neg hsameB] at hclash
        exact hclash
    obtain ⟨components, hupdate⟩ := store.components.update?_isSome_of_mem same write hclash
    refine ⟨{ store with components }, ?_⟩
    unfold upsertComponent
    rw [if_pos hany]
    exact bind_eq_ok.mpr ⟨components, orRaise_eq_ok.mpr hupdate, rfl⟩
  · have hfresh : ∀ link ∈ store.components.rows, ¬ Constrained.clash link row := by
      rintro link hlink (⟨hw, hk⟩ | hid)
      · exact hany (List.any_eq_true.mpr ⟨link, hlink, by simp [same, hw, hk]⟩)
      · exact hfree link hlink hid
    obtain ⟨components, hinsert⟩ := Table.insert?_isSome hfresh
    obtain ⟨workflow, hworkflow⟩ := hworkflow
    refine ⟨{ store with components }, ?_⟩
    unfold upsertComponent insertComponent
    rw [if_neg hany]
    refine bind_eq_ok.mpr ⟨components, orRaise_eq_ok.mpr hinsert, ?_⟩
    rw [hworkflow]
    rfl

/-- A component was placed: a row answers for its task, or a new row was inserted, and the link of the
component names this row. -/
structure Places (now : Time) (workflowId : String) (component : ComponentSpec) (store store' : SwarmStore)
    (row : TaskRow) (link : ComponentRow) : Prop where
  answers : (store.standIn? component.task = some row ∧ store'.tasks = store.tasks) ∨
    (store.standIn? component.task = none ∧
      row = newTaskRow component.task (some workflowId) (some component.key) (some component.generation) now ∧
      store'.tasks.rows = store.tasks.rows ++ [row])
  place : link.place = (workflowId, component.key)
  linkage : link.linkage = ⟨component.generation, row.taskId, component.required⟩
  mem_iff : ∀ other, other ∈ store'.components.rows ↔
    other = link ∨ (other ∈ store.components.rows ∧ other.place ≠ (workflowId, component.key))
  frame : store' = { store with tasks := store'.tasks, components := store'.components }

namespace Places

variable {workflowId : String} {component : ComponentSpec} {row : TaskRow} {link : ComponentRow}

/-- The insertion of a component's task and the link to it. -/
theorem of_links {task : TaskRecord} {mid : SwarmStore}
    (hinsert : insertTask component.task (some workflowId) (some component.key) (some component.generation) now
      store = .ok (task, mid))
    (hplace : link.place = (workflowId, component.key))
    (hlinkage : link.linkage = ⟨component.generation, task.taskId, component.required⟩)
    (hlinks : Links mid store' link) :
    ∃ row, task = row.toRecord ∧ Places now workflowId component store store' row link := by
  have htasks : store'.tasks = mid.tasks := by rw [hlinks.frame]
  rcases insertTask_cases hinsert with ⟨row, hstand, rfl, rfl⟩ | ⟨hnone, rfl, hrows, hframe⟩
  · refine ⟨row, rfl, Or.inl ⟨hstand, htasks⟩, hplace, hlinkage, fun other => ?_, ?_⟩
    · rw [hlinks.mem_iff, hplace]
    · rw [hlinks.frame]
  · refine ⟨_, rfl, Or.inr ⟨hnone, rfl, by rw [htasks, hrows]⟩, hplace, hlinkage, fun other => ?_, ?_⟩
    · rw [hlinks.mem_iff, hplace, hframe]
    · rw [hlinks.frame, hframe]

/-- The rows after a component was placed: the old ones, and the row it got. -/
theorem tasks_iff (h : Places now workflowId component store store' row link) {r : TaskRow} :
    r ∈ store'.tasks.rows ↔ r ∈ store.tasks.rows ∨ r = row := by
  rcases h.answers with ⟨hstand, htasks⟩ | ⟨-, -, hrows⟩
  · rw [htasks]
    exact ⟨Or.inl, fun hr => hr.elim id fun heq => heq ▸ standIn?_mem hstand⟩
  · rw [hrows, List.mem_append, List.mem_singleton]

/-- The new link is there. -/
theorem mem_link (h : Places now workflowId component store store' row link) :
    link ∈ store'.components.rows := (h.mem_iff link).mpr (Or.inl rfl)

/-- The task of the component is linked nowhere else. -/
theorem only (h : Places now workflowId component store store' row link) {other : ComponentRow}
    (hother : other ∈ store.components.rows) (hplace : other.place ≠ (workflowId, component.key)) :
    other.taskId ≠ row.taskId := fun hid => by
  have hkept := (h.mem_iff other).mpr (Or.inr ⟨hother, hplace⟩)
  have hlinked : other.taskId = link.taskId := hid.trans (congrArg Linkage.taskId h.linkage).symm
  exact hplace ((congrArg ComponentRow.place (store'.linked_unique hkept h.mem_link hlinked)).trans h.place)

end Places

/-- A replacement either finds a generation that is not older and changes nothing, or places its
component. -/
theorem replaceComponent_cases {workflowId : String} {component : ComponentSpec} {task : TaskRecord}
    (h : replaceComponent workflowId component now store = .ok (task, store')) :
    (∃ link row, store.component? workflowId component.key = some link ∧ component.generation ≤ link.generation ∧
        store.task? link.taskId = some row ∧ task = row.toRecord ∧ store' = store) ∨
      ((∀ link, store.component? workflowId component.key = some link → link.generation < component.generation) ∧
        ∃ row link, task = row.toRecord ∧ Places now workflowId component store store' row link) := by
  unfold replaceComponent at h
  dsimp only at h
  split at h
  · rename_i hany
    obtain ⟨link, hlink, hle⟩ := (Option.any_eq_true _ _).mp hany
    obtain ⟨row, hrow, h⟩ := bind_eq_ok.mp h
    cases h
    rw [orRaise_eq_ok, hlink, Option.bind_some] at hrow
    exact Or.inl ⟨link, row, hlink, of_decide_eq_true hle, hrow, rfl, rfl⟩
  · rename_i hany
    obtain ⟨⟨inserted, mid⟩, hinsert, h⟩ := bind_eq_ok.mp h
    obtain ⟨final, hfinal, h⟩ := bind_eq_ok.mp h
    cases h
    obtain ⟨link, hplace, hlinkage, hlinks⟩ := upsertComponent_links hfinal
    obtain ⟨row, htask, hplaces⟩ := Places.of_links hinsert hplace hlinkage hlinks
    refine Or.inr ⟨fun found hfound => ?_, row, link, htask, hplaces⟩
    rw [hfound] at hany
    simpa using hany

/-- A component that was replaced is one of a workflow that exists, if those of all links do. -/
theorem replaceComponent_workflow {workflowId : String} {component : ComponentSpec} {task : TaskRecord}
    (hlinks : ∀ link ∈ store.components.rows, ∃ workflow, store.workflow? link.workflowId = some workflow)
    (hrun : replaceComponent workflowId component now store = .ok (task, store')) :
    ∃ workflow, store.workflow? workflowId = some workflow := by
  cases hlink : store.component? workflowId component.key with
  | some link =>
    obtain ⟨hmem, hplace⟩ := component?_eq_some.mp hlink
    exact (Prod.mk.inj hplace).1 ▸ hlinks link hmem
  | none =>
    unfold replaceComponent at hrun
    rw [hlink] at hrun
    obtain ⟨⟨inserted, mid⟩, hinsert, hrun⟩ := bind_eq_ok.mp hrun
    obtain ⟨final, hfinal, -⟩ := bind_eq_ok.mp hrun
    obtain ⟨hcomponents, hworkflows⟩ : mid.components = store.components ∧ mid.workflows = store.workflows := by
      rcases insertTask_cases hinsert with ⟨-, -, -, rfl⟩ | ⟨-, -, -, hframe⟩
      · exact ⟨rfl, rfl⟩
      · exact ⟨by rw [hframe], by rw [hframe]⟩
    have hfound := upsertComponent_workflow hfinal (by rw [component?, hcomponents]; exact hlink)
    rw [workflow?, hworkflows] at hfound
    exact Option.isSome_iff_exists.mp hfound

/-- The first component of a new workflow is placed at a new place, then the others. -/
theorem insertComponents_cons {workflowId : String} {component : ComponentSpec} {rest : List ComponentSpec}
    (h : insertComponents workflowId now (component :: rest) store = .ok store') :
    ∃ mid row link, Places now workflowId component store mid row link ∧
      (∀ other ∈ store.components.rows, other.place ≠ (workflowId, component.key)) ∧
        insertComponents workflowId now rest mid = .ok store' := by
  obtain ⟨⟨task, mid⟩, hinsert, h⟩ := bind_eq_ok.mp h
  obtain ⟨linked, hlinked, h⟩ := bind_eq_ok.mp h
  obtain ⟨hlinks, hfresh⟩ := insertComponent_links hlinked
  obtain ⟨row, -, hplaces⟩ := Places.of_links hinsert rfl rfl hlinks
  have hsame : mid.components = store.components := by
    rcases insertTask_cases hinsert with ⟨-, -, -, rfl⟩ | ⟨-, -, -, hframe⟩
    · rfl
    · rw [hframe]
  exact ⟨linked, row, _, hplaces, fun other hother => hfresh other (hsame ▸ hother), h⟩

end SwarmStore

end TPUSwarm
