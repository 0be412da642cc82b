import TPUSwarm.Common.Pool

/-!
# A pool over another world

The same programs may run over a concrete world and over an abstraction of it. While an invariant of the concrete
world holds, each of its steps is a step of the abstract pool, or the abstraction does not see it.
-/

namespace TPUSwarm.Common

open Relation

universe u

variable {ι W W' α C : Type u} {R : C → Type u}

namespace Pool

/-- The state of a pool, with an abstraction of its world. -/
def State.abstract {P : Pool ι W α C R} (f : W → W') (P' : Pool ι W' α C R) (s : P.State) : P'.State :=
  ⟨f s.world, s.progs⟩

/-- One pool refines another along an abstraction of the world and an invariant. -/
structure Refines (P : Pool ι W α C R) (P' : Pool ι W' α C R) (f : W → W') (I : W → Prop) : Prop where
  exec : ∀ i c w r w', I w → P.exec i c w r w' → I w' ∧ P'.exec i c (f w) r (f w')
  begins : ∀ i a w p w', I w → P.begins i a w p w' → I w' ∧ P'.begins i a (f w) p (f w')
  crash : ∀ i w a w', I w → P.crash i w a w' → I w' ∧ P'.crash i (f w) a (f w')
  env : ∀ w w', I w → P.env w w' → I w' ∧ (P'.env (f w) (f w') ∨ f w' = f w)

variable [DecidableEq ι] {P : Pool ι W α C R} {P' : Pool ι W' α C R} {f : W → W'} {I : W → Prop}

/-- A step of the concrete pool is a step of the abstract one, or it is none. -/
theorem Refines.step (h : P.Refines P' f I) {s s' : P.State} (hstep : P.Step s s') (hs : I s.world) :
    I s'.world ∧ (P'.Step (s.abstract f P') (s'.abstract f P') ∨ s'.abstract f P' = s.abstract f P') := by
  cases hstep with
  | act i hop hexec =>
    obtain ⟨hinv, hexec'⟩ := h.exec _ _ _ _ _ hs hexec
    exact ⟨hinv, Or.inl (.act (s := s.abstract f P') i hop hexec')⟩
  | begin i hidle hbegin =>
    obtain ⟨hinv, hbegin'⟩ := h.begins _ _ _ _ _ hs hbegin
    exact ⟨hinv, Or.inl (.begin (s := s.abstract f P') i hidle hbegin')⟩
  | crash i hcrash =>
    obtain ⟨hinv, hcrash'⟩ := h.crash _ _ _ _ hs hcrash
    exact ⟨hinv, Or.inl (.crash (s := s.abstract f P') i hcrash')⟩
  | env henv =>
    obtain ⟨hinv, henv' | hsame⟩ := h.env _ _ hs henv
    · exact ⟨hinv, Or.inl (.env (s := s.abstract f P') henv')⟩
    · exact ⟨hinv, Or.inr (by simp only [State.abstract, hsame])⟩

/-- A run of the concrete pool is a run of the abstract one. -/
theorem Refines.run (h : P.Refines P' f I) {s s' : P.State} (hrun : P.Run s s') (hs : I s.world) :
    I s'.world ∧ P'.Run (s.abstract f P') (s'.abstract f P') := by
  induction hrun with
  | refl => exact ⟨hs, .refl⟩
  | tail _ hstep ih =>
    obtain ⟨hmid, hbefore⟩ := ih
    obtain ⟨hinv, hlast | hsame⟩ := h.step hstep hmid
    · exact ⟨hinv, hbefore.tail hlast⟩
    · exact ⟨hinv, hsame ▸ hbefore⟩

end Pool

end TPUSwarm.Common
