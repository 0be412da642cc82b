import TPUSwarm.Command
import TPUSwarm.Controller

/-!
# Compilation under two environments

Two environments that define the same names resolve the same secrets, with values that may differ. The command
handler compiles a task to jobs that are the same but for the values of their secrets, or raises the same error.
-/

namespace TPUSwarm

open Common

/-- The job with the values of its secrets left out. -/
def ManagedJobSpec.blinded (job : ManagedJobSpec) : ManagedJobSpec :=
  { job with secrets := job.secrets.mapValues fun _ => "" }

/-- Two computations that show the same raise the same error, or return values that show the same. -/
theorem map_eq_map_iff {ε α β : Type} {shown : α → β} {x x' : Except ε α} :
    x.map shown = x'.map shown ↔
      (∃ e, x = .error e ∧ x' = .error e) ∨ ∃ a a', x = .ok a ∧ x' = .ok a' ∧ shown a = shown a' := by
  cases x <;> cases x' <;> simp [Except.map, eq_comm]

/-- What follows on results that show the same, and depends on what they show. -/
theorem map_bind_congr {ε α β γ δ : Type} {shown : α → β} {shown' : γ → δ} {x x' : Except ε α}
    {f f' : α → Except ε γ} (hx : x.map shown = x'.map shown)
    (hf : ∀ a a', shown a = shown a' → (f a).map shown' = (f' a').map shown') :
    (x >>= f).map shown' = (x' >>= f').map shown' := by
  rcases map_eq_map_iff.mp hx with ⟨e, rfl, rfl⟩ | ⟨a, a', rfl, rfl, hshown⟩
  · rfl
  · exact hf a a' hshown

/-- What follows on the same computation. -/
theorem map_bind_right {ε α γ δ : Type} {shown : γ → δ} {x : Except ε α} {f f' : α → Except ε γ}
    (hf : ∀ a, (f a).map shown = (f' a).map shown) : (x >>= f).map shown = (x >>= f').map shown := by
  cases x with
  | error e => rfl
  | ok a => exact hf a

/-- Computations for each element that show the same show the same in the list. -/
theorem map_mapM_congr {ε α β γ : Type} (shown : β → γ) {f f' : α → Except ε β} (as : List α)
    (h : ∀ a, (f a).map shown = (f' a).map shown) :
    (as.mapM f).map (List.map shown) = (as.mapM f').map (List.map shown) := by
  induction as with
  | nil => rfl
  | cons a rest ih =>
    rw [List.mapM_cons, List.mapM_cons]
    refine map_bind_congr (h a) fun b b' hb => map_bind_congr ih fun bs bs' hbs => ?_
    exact congrArg Except.ok (congrArg₂ List.cons hb hbs)

section Environments

variable {environ environ' : Environ} (hnames : environ.keys = environ'.keys)

include hnames

/-- The environments define the same names. -/
theorem get?_isSome_of_keys (name : String) : (environ.get? name).isSome = (environ'.get? name).isSome := by
  have hmem : name ∈ environ.keys ↔ name ∈ environ'.keys := by rw [hnames]
  rw [Dict.mem_keys_iff, Dict.mem_keys_iff, ← Option.isSome_iff_exists, ← Option.isSome_iff_exists] at hmem
  exact Bool.eq_iff_iff.mpr hmem

/-- Either both environments resolve a secret, or the same error is raised under both. -/
theorem resolveSecret_map (name : String) (value : Json) :
    (resolveSecret environ name value).map (fun _ => "") = (resolveSecret environ' name value).map fun _ => "" := by
  unfold resolveSecret
  split
  · have hsome := get?_isSome_of_keys hnames name
    cases henv : environ.get? name <;> cases henv' : environ'.get? name <;> simp_all [orRaise, Except.map]
  · rfl
  · rfl

/-- All secrets are resolved under both environments, or the same error is raised under both. -/
theorem resolveSecrets_map (secrets : Mapping) :
    (resolveSecrets environ secrets).map (Dict.mapValues fun _ => "") =
      (resolveSecrets environ' secrets).map (Dict.mapValues fun _ => "") := by
  unfold resolveSecrets
  refine map_bind_congr (map_mapM_congr (fun entry => (entry.1, "")) secrets.entries fun entry => ?_) ?_
  · exact map_bind_congr (resolveSecret_map hnames entry.1 entry.2) fun _ _ _ => rfl
  · intro resolved resolved' hresolved
    exact congrArg Except.ok (by rw [Dict.mapValues_ofList, Dict.mapValues_ofList, hresolved])

/-- The constructor of a managed job makes the same of its arguments under both environments, but for the values of
the secrets. -/
theorem buildManagedJob_map (job : ManagedJobArguments) :
    (buildManagedJob environ job).map ManagedJobSpec.blinded = (buildManagedJob environ' job).map .blinded := by
  unfold buildManagedJob
  apply map_bind_right
  intro _
  apply map_bind_right
  intro tooFew
  apply map_bind_right
  intro _
  apply map_bind_right
  intro _
  apply map_bind_right
  intro resources
  apply map_bind_right
  intro envs
  apply map_bind_right
  intro secrets
  apply map_bind_congr (resolveSecrets_map hnames secrets)
  intro resolved resolved' hresolved
  apply map_bind_right
  intro fileMounts
  apply map_bind_right
  intro config
  exact congrArg Except.ok (by simp only [ManagedJobSpec.blinded, hresolved])

/-- The command handler compiles a task to the same job under both environments, but for the values of its
secrets. -/
theorem managedJob_map (task : TaskRecord) :
    (CommandAutoResumable.managedJob environ task).map ManagedJobSpec.blinded =
      (CommandAutoResumable.managedJob environ' task).map .blinded := by
  unfold CommandAutoResumable.managedJob
  apply map_bind_right
  intro lines
  apply map_bind_right
  intro config
  apply map_bind_right
  intro envs
  apply map_bind_right
  intro resources
  exact buildManagedJob_map hnames _

end Environments

end TPUSwarm
