import TPUSwarm.Invariants.Checkpoints
import TPUSwarm.Session.Alone
import TPUSwarm.Store.Generations

/-!
# The loop over the desired components

Each component is validated when the loop reaches it, compared with the components read
before, and replaced in a transaction of its own. A replacement changes the links if and
only if it moves one to a greater generation, so no later replacement takes the change back.
-/

namespace TPUSwarm

open Common SwarmStore

/-- The component is missing, or older than desired, by the generations of the task rows that were read. -/
def outdated (current : Dict String TaskRecord) (component : ComponentSpec) : Bool :=
  (current.get? component.key).all fun existing => existing.generation.getD 0 < component.generation

variable {engine : WorkflowEngine} {store mid store' : SwarmStore} {workflowId : String}
  {current : Dict String TaskRecord} {component desired : ComponentSpec} {components : List ComponentSpec}
  {trace : List (Sigma Operation.Reply)} {e : PyError}

/-- What the loop did to the store when it has gone through some components. -/
inductive Replaces (engine : WorkflowEngine) (workflowId : String) (current : Dict String TaskRecord) :
    List ComponentSpec → SwarmStore → SwarmStore → Prop
  | nil {store : SwarmStore} : Replaces engine workflowId current [] store store
  | skipped {component desired : ComponentSpec} {rest : List ComponentSpec} {store store' : SwarmStore}
    (hvalid : engine.validatedComponent component = .ok desired)
      (hcurrent : outdated current desired = false) (hrest : Replaces engine workflowId current rest store store') :
      Replaces engine workflowId current (component :: rest) store store'
  | replaced {component desired : ComponentSpec} {rest : List ComponentSpec} {store mid store' : SwarmStore}
      {task : TaskRecord} {now : Time}
      (hvalid : engine.validatedComponent component = .ok desired) (houtdated : outdated current desired = true)
      (hrun : replaceComponent workflowId desired now store = .ok (task, mid))
      (hrest : Replaces engine workflowId current rest mid store') :
      Replaces engine workflowId current (component :: rest) store store'

/-- A validated component is outdated if the one it was made from is. -/
theorem outdated_validated (h : engine.validatedComponent component = .ok desired) :
    outdated current desired = outdated current component := by
  obtain ⟨payload, rfl⟩ := WorkflowEngine.validatedComponent_eq_ok h
  rfl

/-- A validated component is linked if the one it was made from is. -/
theorem materialized_validated (h : engine.validatedComponent component = .ok desired) :
    Materialized store workflowId desired ↔ Materialized store workflowId component := by
  obtain ⟨payload, rfl⟩ := WorkflowEngine.validatedComponent_eq_ok h
  exact Iff.rfl

/-- The loop at a valid component. -/
theorem replaceComponents_cons {rest : List ComponentSpec}
    (hvalid : engine.validatedComponent component = .ok desired) :
    engine.replaceComponents workflowId current (component :: rest) =
      if outdated current desired then do
        let _ ← callStore (.replaceComponent workflowId desired) none
        engine.replaceComponents workflowId current rest
      else engine.replaceComponents workflowId current rest := by
  rw [WorkflowEngine.replaceComponents, hvalid, Action.ofExcept_bind]
  rfl

namespace Replaces

/-- The loop writes tasks and links only. -/
theorem workflows (h : Replaces engine workflowId current components store store') :
    store'.workflows = store.workflows := by
  induction h with
  | nil => rfl
  | skipped _ _ _ ih => exact ih
  | replaced _ _ hrun _ ih => rw [ih, (replaceComponent_eq_ok hrun).2]

/-- The loop lowers no generation. -/
theorem keeps (h : Replaces engine workflowId current components store store')
    (hlinked : Materialized store workflowId component) : Materialized store' workflowId component := by
  induction h with
  | nil => exact hlinked
  | skipped _ _ _ ih => exact ih hlinked
  | replaced _ _ hrun _ ih => exact ih (hlinked.replaced hrun)

/-- The outdated components are linked after the loop. -/
theorem materialized (h : Replaces engine workflowId current components store store')
    (hmem : component ∈ components) (houtdated : outdated current component = true) :
    Materialized store' workflowId component := by
  induction h with
  | nil => cases hmem
  | @skipped first desired rest _ _ hvalid hcurrent _ ih =>
    rcases List.mem_cons.mp hmem with rfl | hmem
    · rw [outdated_validated hvalid, houtdated] at hcurrent
      cases hcurrent
    · exact ih hmem
  | replaced hvalid _ hrun hrest ih =>
    rcases List.mem_cons.mp hmem with rfl | hmem
    · exact hrest.keeps ((materialized_validated hvalid).mp (materialized_replaced hrun))
    · exact ih hmem

/-- Where all outdated components are linked already, the loop changes nothing. -/
theorem unchanged (h : Replaces engine workflowId current components store store')
    (hlinked : ∀ component ∈ components, outdated current component = true →
      Materialized store workflowId component) :
    store' = store := by
  induction h with
  | nil => rfl
  | skipped _ _ _ ih => exact ih fun c hc => hlinked c (List.mem_cons_of_mem _ hc)
  | replaced hvalid houtdated hrun _ ih =>
    rw [outdated_validated hvalid] at houtdated
    obtain rfl := ((materialized_validated hvalid).mpr (hlinked _ List.mem_cons_self houtdated)).unchanged hrun
    exact ih fun c hc => hlinked c (List.mem_cons_of_mem _ hc)

/-- The loop leaves the links as they were if and only if all outdated components were linked already. -/
theorem unchanged_iff (h : Replaces engine workflowId current components store store') :
    (store'.tasks = store.tasks ∧ store'.components = store.components) ↔
      ∀ component ∈ components, outdated current component = true → Materialized store workflowId component := by
  constructor
  · rintro ⟨-, hsame⟩ component hmem houtdated
    obtain ⟨link, hlink, hle⟩ := h.materialized hmem houtdated
    exact ⟨link, by rw [component?, ← hsame]; exact hlink, hle⟩
  · intro hlinked
    rw [h.unchanged hlinked]
    exact ⟨rfl, rfl⟩

/-- The components that the loop went through are valid. -/
theorem valid (h : Replaces engine workflowId current components store store') :
    ∀ component ∈ components, ∃ desired, engine.validatedComponent component = .ok desired := by
  induction h with
  | nil => simp
  | skipped hvalid _ _ ih => exact List.forall_mem_cons.mpr ⟨⟨_, hvalid⟩, ih⟩
  | replaced hvalid _ _ _ ih => exact List.forall_mem_cons.mpr ⟨⟨_, hvalid⟩, ih⟩

end Replaces

/-- The loop on its own goes through all components, or it raises at one: at a component that is rejected,
or because a replacement raised. -/
theorem session_replaceComponents {outcome : Except PyError Unit}
    (h : Session noCall (engine.replaceComponents workflowId current components) store trace outcome store') :
    ∃ before after, components = before ++ after ∧ Replaces engine workflowId current before store store' ∧
      ((outcome = .ok () ∧ after = []) ∨ ∃ e component rest, outcome = .error e ∧ after = component :: rest ∧
        (engine.validatedComponent component = .error e ∨
          ∃ call now raised, (⟨.store call now, .error raised⟩ : Sigma Operation.Reply) ∈ trace)) := by
  induction components generalizing store trace with
  | nil =>
    obtain ⟨-, rfl, rfl⟩ := Action.runs_pure.mp h
    exact ⟨[], [], rfl, .nil, Or.inl ⟨rfl, rfl⟩⟩
  | cons component rest ih =>
    cases hvalid : engine.validatedComponent component with
    | error e =>
      rw [WorkflowEngine.replaceComponents, hvalid] at h
      obtain ⟨-, rfl, rfl⟩ := Prog.runs_pure.mp h
      exact ⟨[], _, rfl, .nil, Or.inr ⟨e, component, rest, rfl, rfl, Or.inl hvalid⟩⟩
    | ok desired =>
      rw [replaceComponents_cons hvalid] at h
      split at h
      · rename_i houtdated
        rcases Action.runs_bind.mp h with ⟨e, rfl, hcall⟩ | ⟨first, task, mid, second, rfl, hcall, hrest⟩
        · obtain ⟨rfl, before, clock, hothers, hperform⟩ := session_callStore.mp hcall
          obtain rfl := History.of_noCall hothers
          rcases Call.perform_cases hperform with ⟨_, -, rfl⟩ | ⟨_, heq, -⟩
          · exact ⟨[], _, rfl, .nil, Or.inr ⟨e, component, rest, rfl, rfl, Or.inr ⟨_, _, _, List.mem_cons_self⟩⟩⟩
          · cases heq
        · obtain ⟨rfl, before, clock, hothers, hrun⟩ := session_callStore_ok.mp hcall
          obtain rfl := History.of_noCall hothers
          obtain ⟨done, after, rfl, hreplaces, hend⟩ := ih hrest
          refine ⟨component :: done, after, rfl, .replaced hvalid houtdated hrun hreplaces, hend.imp_right ?_⟩
          rintro ⟨e, bad, others, rfl, rfl, hrejected | ⟨call, time, raised, hmem⟩⟩
          · exact ⟨e, bad, others, rfl, rfl, Or.inl hrejected⟩
          · exact ⟨e, bad, others, rfl, rfl, Or.inr ⟨call, time, raised, List.mem_append_right _ hmem⟩⟩
      · rename_i hcurrent
        obtain ⟨done, after, rfl, hreplaces, hend⟩ := ih h
        exact ⟨component :: done, after, rfl, .skipped hvalid (Bool.eq_false_iff.mpr hcurrent) hreplaces, hend⟩

/-- Replacing what is linked returns its task. -/
theorem Materialized.returns (h : Materialized store workflowId component) (hlinked : LinkedTasks store)
    (now : Time) :
    ∃ task, replaceComponent workflowId component now store = .ok (task, store) := by
  obtain ⟨link, hlink, hle⟩ := h
  obtain ⟨r, hr⟩ := hlinked link (component?_eq_some.mp hlink).1
  refine ⟨r.toRecord, ?_⟩
  unfold replaceComponent
  dsimp only
  have hany : (store.component? workflowId component.key).any (component.generation ≤ ·.generation) = true := by
    rw [hlink]
    exact decide_eq_true hle
  rw [if_pos hany, hlink, Option.bind_some, hr]
  rfl

/-- A session of a replacement that would return, or raise, as the store is now. -/
theorem session_replaceComponent {outcome : Except PyError TaskRecord}
    (h : Session noCall (callStore (.replaceComponent workflowId desired) none) store trace outcome store') :
    ∃ clock, (Call.replaceComponent workflowId desired).perform clock store = (outcome, store') := by
  obtain ⟨-, before, clock, hothers, hperform⟩ := session_callStore.mp h
  obtain rfl := History.of_noCall hothers
  exact ⟨clock, hperform⟩

/-- The loop changes nothing in front, where all outdated components are linked. -/
theorem session_front {front rest : List ComponentSpec} {outcome : Except PyError Unit}
    (hlinked : LinkedTasks store)
    (hfront : ∀ component ∈ front, (∃ valid, engine.validatedComponent component = .ok valid) ∧
      (outdated current component = true → Materialized store workflowId component))
    (h : Session noCall (engine.replaceComponents workflowId current (front ++ rest)) store trace outcome store') :
    ∃ remaining, Session noCall (engine.replaceComponents workflowId current rest) store remaining outcome
      store' := by
  induction front generalizing trace with
  | nil => exact ⟨trace, h⟩
  | cons component front ih =>
    have hnext := fun {trace} => @ih trace fun c hc => hfront c (List.mem_cons_of_mem _ hc)
    obtain ⟨⟨valid, hvalid⟩, hmaterialized⟩ := hfront component List.mem_cons_self
    rw [List.cons_append, replaceComponents_cons hvalid] at h
    split at h
    · rename_i houtdated
      -- the call returns the task that is linked
      have hthere := hmaterialized (by rw [← outdated_validated hvalid]; exact houtdated)
      have hcall {first : List (Sigma Operation.Reply)} {reply : Except PyError TaskRecord} {mid : SwarmStore}
          (h : Session noCall (callStore (.replaceComponent workflowId valid) none) store first reply mid) :
          (∃ task, reply = .ok task) ∧ mid = store := by
        obtain ⟨clock, hperform⟩ := session_replaceComponent h
        obtain ⟨task, hreturns⟩ := ((materialized_validated hvalid).mpr hthere).returns hlinked clock
        have hrun : (Call.replaceComponent workflowId valid).run clock store = .ok (task, store) := hreturns
        rw [Call.perform, hrun] at hperform
        obtain ⟨rfl, rfl⟩ := Prod.mk.inj hperform
        exact ⟨⟨task, rfl⟩, rfl⟩
      rcases Action.runs_bind.mp h with ⟨e, rfl, hraised⟩ | ⟨first, task, mid, second, rfl, hreturned, hloop⟩
      · obtain ⟨⟨task, herror⟩, -⟩ := hcall hraised
        cases herror
      · obtain ⟨-, rfl⟩ := hcall hreturned
        exact hnext hloop
    · exact hnext h

/-- The loop over valid components that are linked returns, and changes nothing. -/
theorem session_linked {outcome : Except PyError Unit} (hlinked : LinkedTasks store)
    (hcomponents : ∀ component ∈ components, (∃ valid, engine.validatedComponent component = .ok valid) ∧
      Materialized store workflowId component)
    (h : Session noCall (engine.replaceComponents workflowId current components) store trace outcome store') :
    outcome = .ok () ∧ store' = store := by
  rw [← List.append_nil components] at h
  obtain ⟨remaining, hend⟩ :=
    session_front hlinked (fun c hc => ⟨(hcomponents c hc).1, fun _ => (hcomponents c hc).2⟩) h
  obtain ⟨-, rfl, rfl⟩ := Action.runs_pure.mp hend
  exact ⟨rfl, rfl⟩

end TPUSwarm
