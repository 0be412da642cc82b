import TPUSwarm.Common.Pool

/-!
# Pools whose parties make the same steps

When all programs and the environment change the world by steps of one relation, the world is
its own machine. A program may rely, between its operations, on every fact that no step changes.
-/

namespace TPUSwarm.Common

open Relation

universe u

/-- A fact that no step changes. -/
def Lasts {W : Type u} (step : W → W → Prop) (fact : W → Prop) : Prop :=
  ∀ w w', step w w' → fact w → fact w'

namespace Lasts

variable {W : Type u} {step : W → W → Prop} {fact : W → Prop}

/-- A fact that does not look at the world. -/
theorem const (p : Prop) : Lasts step fun _ => p := fun _ _ _ h => h

/-- Two lasting facts last together. -/
theorem and {other : W → Prop} (h : Lasts step fact) (hother : Lasts step other) :
    Lasts step fun w => fact w ∧ other w := fun w w' hstep hw => ⟨h w w' hstep hw.1, hother w w' hstep hw.2⟩

/-- A family of lasting facts lasts. -/
theorem all {β : Sort*} {fact : β → W → Prop} (h : ∀ b, Lasts step (fact b)) : Lasts step fun w => ∀ b, fact b w :=
  fun w w' hstep hw b => h b w w' hstep (hw b)

end Lasts

namespace Pool

variable {ι W α C : Type u} {R : C → Type u}

/-- The world as its own machine: all parties make the same steps. -/
def shared (P : Pool ι W α C R) (inv : W → Prop) (step : W → W → Prop) (permitted : C → W → Prop)
    (hkeep : ∀ w w', inv w → step w w' → inv w') : P.Simulation W where
  view := id
  inv := inv
  move _ := step
  envMove := step
  permitted _ := permitted
  inv_move _ := hkeep
  inv_env := hkeep

variable {P : Pool ι W α C R} {inv : W → Prop} {step : W → W → Prop} {permitted : C → W → Prop}
  {hkeep : ∀ w w', inv w → step w w' → inv w'} {i : ι}

/-- A fact that no step changes is stable for every program. -/
theorem shared_stable {fact : W → Prop} (h : Lasts step fact) :
    ((P.shared inv step permitted hkeep).abstraction i).Stable fact := by
  rintro w w' (hstep | ⟨_, -, hstep⟩) hw
  · exact h w w' hstep hw
  · exact h w w' hstep hw

/-- An operation that is permitted while a fact lasts, and whose effect is a step. -/
theorem shared_issue {c : C} {fact : W → Prop} {post : R c → W → Prop} (hfact : Lasts step fact)
    (hpost : ∀ r, Lasts step (post r)) (hpermitted : ∀ w, inv w → fact w → permitted c w)
    (hexec : ∀ w r w', inv w → fact w → P.exec i c w r w' → step w w' ∧ post r w') {w : W} (hw : fact w) :
    (Prog.issue c : Prog C R (R c)).Follows ((P.shared inv step permitted hkeep).abstraction i) post w := by
  refine Prog.Follows.issue (shared_stable hfact) (fun r => shared_stable (hpost r)) (fun m hinv hm => ?_) hw
  refine ⟨hpermitted m hinv hm, fun r w' heffect => ?_⟩
  obtain ⟨hstep, hr⟩ := hexec m r w' hinv hm heffect
  exact ⟨w', .single hstep, rfl, hr⟩

end Pool

end TPUSwarm.Common
