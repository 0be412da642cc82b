import TPUSwarm.Common.Program
import Mathlib.Logic.Function.Basic

/-!
# Interleaved programs and their simulation by a machine

A pool runs one program for each index over a shared world. Its steps are single
operations of single programs, a finished program beginning anew, a crash that drops
whatever a program still had to do, and actions of the environment. A `Simulation` gives a
machine whose moves match all of these. Its soundness theorem lifts the rules for one
program to every interleaving of every run.
-/

namespace TPUSwarm.Common

open Relation

universe u

/-- Programs indexed by `ι` over a world `W`. A finished program leaves a value `α`. -/
structure Pool (ι W α C : Type u) (R : C → Type u) where
  exec : ι → (c : C) → W → R c → W → Prop
  begins : ι → α → W → Prog C R α → W → Prop
  crash : ι → W → α → W → Prop
  env : W → W → Prop

namespace Pool

variable {ι W α C M : Type u} {R : C → Type u}

/-- The shared world and what each program still has to do. -/
structure State (P : Pool ι W α C R) where
  world : W
  progs : ι → Prog C R α

/-- Follow commands, each of which chooses one step, as long as the steps are possible. -/
def plays {P : Pool ι W α C R} {K : Type*} (play : K → P.State → Option P.State) :
    List K → P.State → Option P.State
  | [], s => some s
  | command :: rest, s => (play command s).bind (plays play rest)

/-- What commands that choose steps lead to is reached by such steps. -/
theorem star_of_plays {P : Pool ι W α C R} {K : Type*} {play : K → P.State → Option P.State}
    {step : P.State → P.State → Prop} (hplay : ∀ command s s', play command s = some s' → step s s')
    {commands : List K} {s s' : P.State} (h : plays play commands s = some s') :
    ReflTransGen step s s' := by
  induction commands generalizing s with
  | nil => exact Option.some.inj h ▸ .refl
  | cons command rest ih =>
    obtain ⟨mid, hmid, h⟩ := Option.bind_eq_some_iff.mp h
    exact .head (hplay _ _ _ hmid) (ih h)

section Steps

variable [DecidableEq ι]

/-- One step of a pool. -/
inductive Step (P : Pool ι W α C R) : P.State → P.State → Prop
  | act {s : P.State} (i : ι) {c : C} {next : R c → Prog C R α} {r : R c} {w' : W}
      (hop : s.progs i = .op c next) (hexec : P.exec i c s.world r w') :
      Step P s ⟨w', Function.update s.progs i (next r)⟩
  | begin {s : P.State} (i : ι) {a : α} {p : Prog C R α} {w' : W}
      (hidle : s.progs i = .pure a) (hbegin : P.begins i a s.world p w') :
      Step P s ⟨w', Function.update s.progs i p⟩
  | crash {s : P.State} (i : ι) {a : α} {w' : W} (hcrash : P.crash i s.world a w') :
      Step P s ⟨w', Function.update s.progs i (.pure a)⟩
  | env {s : P.State} {w' : W} (henv : P.env s.world w') : Step P s ⟨w', s.progs⟩

/-- Any number of steps. -/
abbrev Run (P : Pool ι W α C R) : P.State → P.State → Prop := ReflTransGen P.Step

end Steps

/-- A machine whose moves match the steps of a pool, and what a program leaves when it ends. -/
structure Simulation (P : Pool ι W α C R) (M : Type u) where
  view : M → W
  inv : M → Prop
  move : ι → M → M → Prop
  envMove : M → M → Prop
  permitted : ι → C → M → Prop
  leaves : ι → α → M → Prop := fun _ _ _ => True
  inv_move : ∀ i m m', inv m → move i m m' → inv m'
  inv_env : ∀ m m', inv m → envMove m m' → inv m'

namespace Simulation

variable {P : Pool ι W α C R} (S : P.Simulation M)

/-- The environment or another program moves. -/
def others (i : ι) (m m' : M) : Prop := S.envMove m m' ∨ ∃ j, j ≠ i ∧ S.move j m m'

/-- Anything moves. -/
def anyMove (m m' : M) : Prop := S.envMove m m' ∨ ∃ i, S.move i m m'

/-- What one program of the pool has to follow. -/
def abstraction (i : ι) : Abstraction W M C R where
  exec := P.exec i
  view := S.view
  own := S.move i
  others := S.others i
  inv := S.inv
  permitted := S.permitted i

/-- The machine matches what is not an operation: environment, crashes and new programs. -/
structure Matches (S : P.Simulation M) : Prop where
  env : ∀ m w', S.inv m → P.env (S.view m) w' → ∃ m', S.envMove m m' ∧ S.view m' = w'
  crash : ∀ i m a w', S.inv m → P.crash i (S.view m) a w' →
    ∃ m', ReflTransGen (S.move i) m m' ∧ S.view m' = w' ∧
      (Prog.pure a : Prog C R α).Follows (S.abstraction i) (S.leaves i) m'
  begins : ∀ i a m p w', S.inv m → S.leaves i a m → P.begins i a (S.view m) p w' →
    ∃ m', ReflTransGen (S.move i) m m' ∧ S.view m' = w' ∧
      p.Follows (S.abstraction i) (S.leaves i) m'

/-- A machine state stands for a pool state: same world, and every program follows it. -/
structure Related (m : M) (s : P.State) : Prop where
  view : S.view m = s.world
  inv : S.inv m
  follows : ∀ i, (s.progs i).Follows (S.abstraction i) (S.leaves i) m

/-- The moves of one program keep the invariant. -/
theorem inv_moves {i : ι} {m m' : M} (h : ReflTransGen (S.move i) m m') (hm : S.inv m) :
    S.inv m' := by
  induction h with
  | refl => exact hm
  | tail _ hstep ih => exact S.inv_move i _ _ ih hstep

/-- The moves of anyone keep the invariant. -/
theorem inv_anyMoves {m m' : M} (h : ReflTransGen S.anyMove m m') (hm : S.inv m) : S.inv m' := by
  induction h with
  | refl => exact hm
  | tail _ hstep ih =>
    rcases hstep with henv | ⟨i, hmove⟩
    · exact S.inv_env _ _ ih henv
    · exact S.inv_move i _ _ ih hmove

/-- A further fact that every move keeps, given the invariant, holds after any moves. -/
theorem keeps {K : M → Prop} (hkeep : ∀ m m', S.inv m → S.anyMove m m' → K m → K m')
    {m m' : M} (h : ReflTransGen S.anyMove m m') (hm : S.inv m) (hfact : K m) : K m' := by
  induction h with
  | refl => exact hfact
  | tail hmoves hstep ih => exact hkeep _ _ (S.inv_anyMoves hmoves hm) hstep ih

/-- Moves of one program are moves of another party to every other program. -/
theorem others_of_moves {i j : ι} (hij : i ≠ j) {m m' : M} (h : ReflTransGen (S.move i) m m') :
    ReflTransGen (S.others j) m m' :=
  ReflTransGen.mono (fun _ _ hmove => Or.inr ⟨i, hij, hmove⟩) _ _ h

/-- An operation about to be issued is permitted. -/
theorem Related.permitted {S : P.Simulation M} {m : M} {s : P.State} (h : S.Related m s) {i : ι}
    {c : C} {next : R c → Prog C R α} (hop : s.progs i = .op c next) : S.permitted i c m := by
  have hfollows := h.follows i
  rw [hop] at hfollows
  exact (hfollows m .refl h.inv).1

/-- Programs that are all finished follow any machine. -/
theorem Related.of_finished {m : M} {s : P.State} (hview : S.view m = s.world) (hinv : S.inv m)
    (hidle : ∀ i, ∃ a, s.progs i = .pure a ∧ ∀ m', S.leaves i a m') : S.Related m s := by
  refine ⟨hview, hinv, fun i => ?_⟩
  obtain ⟨a, ha, hleaves⟩ := hidle i
  rw [ha]
  exact fun m' _ _ => hleaves m'

variable [DecidableEq ι]

/-- Replacing one program and moving accordingly keeps all the others related. -/
theorem Related.update {m m' : M} {s : P.State} (h : S.Related m s) (i : ι) {p : Prog C R α}
    {w' : W} (hmoves : ReflTransGen (S.move i) m m') (hview : S.view m' = w')
    (hp : p.Follows (S.abstraction i) (S.leaves i) m') :
    S.Related m' ⟨w', Function.update s.progs i p⟩ := by
  refine ⟨hview, S.inv_moves hmoves h.inv, fun j => ?_⟩
  by_cases hij : j = i
  · subst hij
    simpa only [Function.update_self] using hp
  · simp only [Function.update_of_ne hij]
    exact (h.follows j).of_others (S.others_of_moves (Ne.symm hij) hmoves)

/-- One step of the pool is matched by a move of the environment or by moves of one program. -/
theorem step {S : P.Simulation M} (hS : S.Matches) {m : M} {s s' : P.State} (h : S.Related m s)
    (hstep : P.Step s s') : ∃ m', (S.envMove m m' ∨ ∃ i, ReflTransGen (S.move i) m m') ∧ S.Related m' s' := by
  cases hstep with
  | act i hop hexec =>
    have hfollows := h.follows i
    rw [hop] at hfollows
    obtain ⟨-, heffect⟩ := hfollows m .refl h.inv
    obtain ⟨m', hmoves, hview, hnext⟩ := heffect _ _ (by rw [← h.view] at hexec; exact hexec)
    exact ⟨m', Or.inr ⟨i, hmoves⟩, h.update S i hmoves hview hnext⟩
  | begin i hidle hbegin =>
    rw [← h.view] at hbegin
    have hleft := h.follows i
    rw [hidle] at hleft
    obtain ⟨m', hmoves, hview, hp⟩ := hS.begins i _ m _ _ h.inv (hleft m .refl h.inv) hbegin
    exact ⟨m', Or.inr ⟨i, hmoves⟩, h.update S i hmoves hview hp⟩
  | crash i hcrash =>
    rw [← h.view] at hcrash
    obtain ⟨m', hmoves, hview, hp⟩ := hS.crash i m _ _ h.inv hcrash
    exact ⟨m', Or.inr ⟨i, hmoves⟩, h.update S i hmoves hview hp⟩
  | env henv =>
    rw [← h.view] at henv
    obtain ⟨m', hmove, hview⟩ := hS.env m _ h.inv henv
    exact ⟨m', Or.inl hmove, hview, S.inv_env _ _ h.inv hmove, fun i =>
      (h.follows i).of_others (.single (Or.inl hmove))⟩

omit [DecidableEq ι] in
/-- What matches one step is a sequence of moves. -/
theorem anyMoves_of_step {m m' : M} (h : S.envMove m m' ∨ ∃ i, ReflTransGen (S.move i) m m') :
    ReflTransGen S.anyMove m m' := by
  rcases h with hmove | ⟨i, hmoves⟩
  · exact .single (Or.inl hmove)
  · exact ReflTransGen.mono (fun _ _ hmove => Or.inr ⟨i, hmove⟩) _ _ hmoves

/-- Every run of the pool is matched by a run of the machine. -/
theorem run {S : P.Simulation M} (hS : S.Matches) {m : M} {s s' : P.State} (h : S.Related m s)
    (hrun : P.Run s s') : ∃ m', ReflTransGen S.anyMove m m' ∧ S.Related m' s' := by
  induction hrun with
  | refl => exact ⟨m, .refl, h⟩
  | tail _ hstep ih =>
    obtain ⟨m₁, hmoves, hrelated⟩ := ih
    obtain ⟨m₂, hmoves', hrelated'⟩ := step hS hrelated hstep
    exact ⟨m₂, hmoves.trans (S.anyMoves_of_step hmoves'), hrelated'⟩

end Simulation

end Pool

end TPUSwarm.Common
