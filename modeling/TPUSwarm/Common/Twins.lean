import TPUSwarm.Common.Program
import Mathlib.Data.List.Forall2

/-!
# Two programs that differ in what an operation carries

Twins issue related operations for as long as they get the same replies, and they leave the same result. The rules
follow the construction of a program: a result, an operation, a sequence, and a `try`. At the end, two machines that
keep a relation at every step keep it in every state of a run of the same commands.
-/

namespace TPUSwarm.Common

universe u

variable {C : Type u} {R : C → Type u} {α β ε : Type u} {related : C → C → Prop}

/-- The programs issue related operations as long as the replies are the same, and leave the same result. -/
inductive Prog.Twins (related : C → C → Prop) : Prog C R α → Prog C R α → Prop
  | pure (a : α) : Twins related (.pure a) (.pure a)
  | op {c c' : C} {next : R c → Prog C R α} {next' : R c' → Prog C R α} (hop : related c c')
      (hnext : ∀ r r', HEq r r' → Twins related (next r) (next' r')) : Twins related (.op c next) (.op c' next')

namespace Prog.Twins

/-- A program is its own twin where operations are related to themselves. -/
theorem refl (hrefl : ∀ c, related c c) (p : Prog C R α) : p.Twins related p := by
  induction p with
  | pure a => exact .pure a
  | op c next ih =>
    refine .op (hrefl c) fun r r' heq => ?_
    cases heq
    exact ih r

/-- Sequencing. -/
theorem bind {p p' : Prog C R α} {f f' : α → Prog C R β} (hp : p.Twins related p')
    (hf : ∀ a, (f a).Twins related (f' a)) : (p >>= f).Twins related (p' >>= f') := by
  induction hp with
  | pure a => exact hf a
  | op hop _ ih => exact .op hop ih

end Prog.Twins

/-- `Prog.Twins` for actions. -/
def Action.Twins (related : C → C → Prop) (p p' : Action C R ε α) : Prop := p.run.Twins related p'.run

namespace Action.Twins

/-- An action is a twin of itself. -/
theorem refl (hrefl : ∀ c, related c c) (p : Action C R ε α) : p.Twins related p := Prog.Twins.refl hrefl p.run

/-- Equal actions are twins. -/
theorem of_eq (hrefl : ∀ c, related c c) {p p' : Action C R ε α} (h : p = p') : p.Twins related p' :=
  h ▸ refl hrefl p

/-- Sequencing: a raised error skips the continuations. -/
theorem bind {p p' : Action C R ε α} {f f' : α → Action C R ε β} (hp : p.Twins related p')
    (hf : ∀ a, (f a).Twins related (f' a)) : (p >>= f).Twins related (p' >>= f') := by
  apply Prog.Twins.bind hp
  intro outcome
  cases outcome with
  | ok a => exact hf a
  | error e => exact .pure _

/-- Catching turns both outcomes into values. -/
theorem attempt {p p' : Action C R ε α} (hp : p.Twins related p') : p.attempt.Twins related p'.attempt := by
  apply Prog.Twins.bind hp
  intro outcome
  exact .pure _

end Action.Twins

section Machines

variable {K S S' : Type*} {step : K → S → S} {step' : K → S' → S'} {alike : S → S' → Prop}

/-- The states that a machine goes through on commands, from the first state to the last. -/
def states (step : K → S → S) : List K → S → List S
  | [], s => [s]
  | command :: rest, s => s :: states step rest (step command s)

/-- What every step keeps between two machines holds of all their states. -/
theorem forall₂_states (hstep : ∀ command s s', alike s s' → alike (step command s) (step' command s'))
    (commands : List K) {s : S} {s' : S'} (h : alike s s') :
    List.Forall₂ alike (states step commands s) (states step' commands s') := by
  induction commands generalizing s s' with
  | nil => exact .cons h .nil
  | cons command rest ih => exact .cons h (ih (hstep command s s' h))

end Machines

end TPUSwarm.Common
