import Mathlib.Data.List.Perm.Subperm
import TPUSwarm.Common.Pool
import TPUSwarm.Common.Runs

/-!
# Requests in front of a pool

A frontend serves requests beside a pool. A request that arrives is a program of its own, served operation by
operation between everything else that happens, and left or abandoned at any time. If its operations do nothing
that the environment of a pool could not do, the frontend is such an environment, however many requests are open.
-/

namespace TPUSwarm.Common

open Relation

universe u

variable {ι W α C : Type u} {R : C → Type u}

/-- Requests of type `Q` with answers of type `B`: which programs serve a request, and what their operations do. -/
structure Frontend (P : Pool ι W α C R) (Q B : Type u) where
  serves : P.State → Q → Prog C R B → Prop
  exec : (c : C) → W → R c → W → Prop

namespace Frontend

variable {P : Pool ι W α C R} {Q B : Type u}

/-- The pool, how many requests have arrived, and under their numbers the requests that are served and the answers so
far. -/
structure State (F : Frontend P Q B) where
  back : P.State
  arrivals : ℕ
  served : List ((ℕ × Q) × Prog C R B)
  answers : List ((ℕ × Q) × B)

variable [DecidableEq ι]

/-- A request has arrived, with a number of its own. -/
def State.arrive {F : Frontend P Q B} (s : F.State) (q : Q) (p : Prog C R B) : F.State :=
  { s with arrivals := s.arrivals + 1, served := ((s.arrivals, q), p) :: s.served }

/-- One step of the pool, or of one request. -/
inductive Step (F : Frontend P Q B) : F.State → F.State → Prop
  | back {s b} (hstep : P.Step s.back b) : Step F s { s with back := b }
  | arrive {s q p} (hserves : F.serves s.back q p) : Step F s (s.arrive q p)
  | act {s q c next r w' before after} (hop : s.served = before ++ (q, .op c next) :: after)
      (hexec : F.exec c s.back.world r w') :
      Step F s { s with back := ⟨w', s.back.progs⟩, served := before ++ (q, next r) :: after }
  | answer {s q b before after} (hdone : s.served = before ++ (q, .pure b) :: after) :
      Step F s { s with served := before ++ after, answers := s.answers ++ [(q, b)] }
  | abandon {s entry before after} (hserved : s.served = before ++ entry :: after) :
      Step F s { s with served := before ++ after }

/-- Any number of steps. -/
abbrev Run (F : Frontend P Q B) : F.State → F.State → Prop := ReflTransGen F.Step

variable {F : Frontend P Q B} {K : Q → Prog C R B → Prop} {allowed : C → Prop} {E : W → W → Prop}

/-- The first of the requests that are served may go on to its answer while everything else waits. -/
theorem run_answer {b : P.State} {arrivals : ℕ} {served : List ((ℕ × Q) × Prog C R B)}
    {answers : List ((ℕ × Q) × B)} {q : ℕ × Q} {p : Prog C R B} {trace : List (Sigma R)} {a : B} {w' : W}
    (h : p.Runs F.exec b.world trace a w') :
    F.Run ⟨b, arrivals, (q, p) :: served, answers⟩ ⟨⟨w', b.progs⟩, arrivals, served, answers ++ [(q, a)]⟩ := by
  obtain ⟨w, progs⟩ := b
  dsimp only at h
  induction h with
  | @pure a w =>
    have hstep : F.Step ⟨⟨w, progs⟩, arrivals, [] ++ (q, .pure a) :: served, answers⟩
        ⟨⟨w, progs⟩, arrivals, [] ++ served, answers ++ [(q, a)]⟩ := .answer rfl
    exact .single hstep
  | op hexec _ ih => exact .head (.act (rfl : _ = [] ++ _) hexec) ih

/-- What is served and what is answered is as `K` says, where an answer is a program that has ended. -/
def State.All (s : F.State) (K : Q → Prog C R B → Prop) : Prop :=
  (∀ entry ∈ s.served, K entry.1.2 entry.2) ∧ ∀ entry ∈ s.answers, K entry.1.2 (.pure entry.2)

/-- What every program that serves a request is, and stays after every operation, holds in every run. -/
theorem run_keeps (hserves : ∀ b q p, F.serves b q p → K q p)
    (hnext : ∀ q c (next : R c → Prog C R B) r, K q (.op c next) → K q (next r)) {s s' : F.State}
    (h : F.Run s s') (hstart : s.All K) : s'.All K := by
  induction h with
  | refl => exact hstart
  | @tail s s' _ hstep ih =>
    obtain ⟨hserved, hanswers⟩ := ih
    cases hstep with
    | back _ => exact ⟨hserved, hanswers⟩
    | arrive harrives => exact ⟨List.forall_mem_cons.mpr ⟨hserves _ _ _ harrives, hserved⟩, hanswers⟩
    | act hop _ =>
      rw [hop] at hserved
      obtain ⟨hbefore, hafter⟩ := List.forall_mem_append.mp hserved
      obtain ⟨hhead, htail⟩ := List.forall_mem_cons.mp hafter
      exact ⟨List.forall_mem_append.mpr ⟨hbefore, List.forall_mem_cons.mpr ⟨hnext _ _ _ _ hhead, htail⟩⟩, hanswers⟩
    | answer hdone =>
      rw [hdone] at hserved
      obtain ⟨hbefore, hafter⟩ := List.forall_mem_append.mp hserved
      obtain ⟨hhead, htail⟩ := List.forall_mem_cons.mp hafter
      exact ⟨List.forall_mem_append.mpr ⟨hbefore, htail⟩,
        List.forall_mem_append.mpr ⟨hanswers, List.forall_mem_singleton.mpr hhead⟩⟩
    | abandon hdropped =>
      rw [hdropped] at hserved
      obtain ⟨hbefore, hafter⟩ := List.forall_mem_append.mp hserved
      exact ⟨List.forall_mem_append.mpr ⟨hbefore, (List.forall_mem_cons.mp hafter).2⟩, hanswers⟩

/-- The numbers of the requests that are served, and of those that have been answered. -/
def State.numbers (s : F.State) : List ℕ := s.served.map (·.1.1) ++ s.answers.map (·.1.1)

/-- Requests have numbers of their own, all of which have been given. -/
def State.Numbered (s : F.State) : Prop := s.numbers.Nodup ∧ ∀ n ∈ s.numbers, n < s.arrivals

omit [DecidableEq ι] in
/-- Fewer numbers are numbers of their own if the given ones were. -/
theorem State.Numbered.of_subperm {s s' : F.State} (h : s.Numbered) (hnumbers : s'.numbers.Subperm s.numbers)
    (harrivals : s'.arrivals = s.arrivals) : s'.Numbered := by
  obtain ⟨kept, hperm, hsublist⟩ := hnumbers
  refine ⟨hperm.nodup_iff.mp (hsublist.nodup h.1), fun n hn => ?_⟩
  rw [harrivals]
  exact h.2 n (hsublist.subset (hperm.mem_iff.mpr hn))

/-- Requests keep numbers of their own in every run. -/
theorem run_numbered {s s' : F.State} (h : F.Run s s') (hstart : s.Numbered) : s'.Numbered := by
  induction h with
  | refl => exact hstart
  | @tail s s' _ hstep ih =>
    cases hstep with
    | back _ => exact ih
    | arrive _ =>
      refine ⟨List.nodup_cons.mpr ⟨fun hmem => Nat.lt_irrefl _ (ih.2 _ hmem), ih.1⟩, fun n hn => ?_⟩
      rcases List.mem_cons.mp hn with rfl | hmem
      · exact Nat.lt_succ_self _
      · exact Nat.lt_succ_of_lt (ih.2 n hmem)
    | act hop _ =>
      refine ih.of_subperm (List.Perm.subperm (.of_eq ?_)) rfl
      simp [State.numbers, hop]
    | answer hdone =>
      refine ih.of_subperm (List.Perm.subperm ?_) rfl
      simp only [State.numbers, hdone, List.map_append, List.map_cons, List.map_nil, List.append_assoc]
      refine List.Perm.append_left _ ?_
      rw [← List.append_assoc, List.cons_append]
      exact List.perm_append_singleton _ _
    | abandon hdropped =>
      refine ih.of_subperm (List.Sublist.subperm ?_) rfl
      simp only [State.numbers, hdropped, List.map_append, List.map_cons]
      exact List.Sublist.append_right (List.Sublist.append_left (List.sublist_cons_self _ _) _) _

/-- The pool with another environment is in the same state. -/
def State.within (s : F.State) (E : W → W → Prop) : ({ P with env := E } : Pool ι W α C R).State :=
  ⟨s.back.world, s.back.progs⟩

/-- A step of a pool is a step in any environment that can do what its own can do. -/
theorem step_within (henv : ∀ w w', P.env w w' → E w w') {b b' : P.State} (h : P.Step b b') :
    ({ P with env := E } : Pool ι W α C R).Step ⟨b.world, b.progs⟩ ⟨b'.world, b'.progs⟩ := by
  cases h with
  | act i hop hexec => exact .act (s := ⟨b.world, b.progs⟩) i hop hexec
  | begin i hidle hbegin => exact .begin (s := ⟨b.world, b.progs⟩) i hidle hbegin
  | crash i hcrash => exact .crash (s := ⟨b.world, b.progs⟩) i hcrash
  | env henv' => exact .env (s := ⟨b.world, b.progs⟩) (henv _ _ henv')

/-- One step of a frontend is one step in an environment that can do what the requests do, or it is none. -/
theorem step_refines (henv : ∀ w w', P.env w w' → E w w')
    (hexec : ∀ c w r w', allowed c → F.exec c w r w' → E w w') {s s' : F.State} (h : F.Step s s')
    (hserved : ∀ entry ∈ s.served, entry.2.Uses allowed) :
    ({ P with env := E } : Pool ι W α C R).Run (s.within E) (s'.within E) := by
  cases h with
  | back hstep => exact .single (step_within henv hstep)
  | arrive _ | answer _ | abandon _ => exact .refl
  | act hop heffect =>
    have huses := hserved _ (by rw [hop]; exact List.mem_append_right _ List.mem_cons_self)
    exact .single (.env (hexec _ _ _ _ huses.1 heffect))

/-- Every run of a frontend is a run of the pool in an environment that can do what the requests do. -/
theorem run_refines (henv : ∀ w w', P.env w w' → E w w')
    (hserves : ∀ b q p, F.serves b q p → p.Uses allowed)
    (hexec : ∀ c w r w', allowed c → F.exec c w r w' → E w w') {s s' : F.State} (h : F.Run s s')
    (hstart : s.All fun _ p => p.Uses allowed) :
    ({ P with env := E } : Pool ι W α C R).Run (s.within E) (s'.within E) := by
  induction h with
  | refl => exact .refl
  | tail hbefore hstep ih =>
    have hkept := run_keeps hserves (fun _ _ _ r huses => huses.2 r) hbefore hstart
    exact ih.trans (step_refines henv hexec hstep hkept.1)

/-- An operation of a program that serves a request, and its reply. -/
inductive Performs (F : Frontend P Q B) (q : ℕ × Q) (c : C) (r : R c) : F.State → F.State → Prop
  | act {s next w' before after} (hop : s.served = before ++ (q, .op c next) :: after)
      (hexec : F.exec c s.back.world r w') :
      Performs F q c r s { s with back := ⟨w', s.back.progs⟩, served := before ++ (q, next r) :: after }

/-- An operation of a request is a step. -/
theorem Performs.step {q : ℕ × Q} {c : C} {r : R c} {s s' : F.State} (h : F.Performs q c r s s') : F.Step s s' := by
  obtain ⟨hop, hexec⟩ := h
  exact .act hop hexec

omit [DecidableEq ι] in
/-- The effect of an operation of a request. -/
theorem Performs.exec {q : ℕ × Q} {c : C} {r : R c} {s s' : F.State} (h : F.Performs q c r s s') :
    F.exec c s.back.world r s'.back.world := by
  obtain ⟨-, hexec⟩ := h
  exact hexec

/-- A step from a state of a run. -/
def Moves (F : Frontend P Q B) (s₀ s s' : F.State) : Prop := F.Run s₀ s ∧ F.Step s s'

/-- What serves a request, in the midst of everything that goes on in a run. -/
def meanwhile (F : Frontend P Q B) (s₀ : F.State) (q : ℕ × Q) : Abstraction F.State F.State C R where
  exec c s r s' := F.Run s₀ s ∧ F.Performs q c r s s'
  view := id
  own := F.Moves s₀
  others := F.Moves s₀
  inv _ := True
  permitted _ _ := True

/-- The state of a run in which the request of a number has just arrived. -/
def Arrived (F : Frontend P Q B) (s₀ : F.State) (q : ℕ × Q) (arrival : F.State) : Prop :=
  ∃ before p, F.Run s₀ before ∧ F.serves before.back q.2 p ∧ q.1 = before.arrivals ∧
    arrival = before.arrive q.2 p

/-- A request that is served rightly from its arrival on, and still is. -/
def Serves (F : Frontend P Q B) (s₀ : F.State) (right : F.State → ℕ × Q → B → F.State → Prop) (s : F.State)
    (q : ℕ × Q) (p : Prog C R B) : Prop :=
  ∃ arrival, (F.Arrived s₀ q arrival ∧ F.Run arrival s) ∧ p.Follows (F.meanwhile s₀ q) (right arrival q) s

/-- A request goes on being served rightly while anything else happens. -/
theorem Serves.later {right : F.State → ℕ × Q → B → F.State → Prop} {s₀ s s' : F.State} {q : ℕ × Q}
    {p : Prog C R B}
    (h : F.Serves s₀ right s q p) (hmoves : F.Moves s₀ s s') : F.Serves s₀ right s' q p := by
  obtain ⟨arrival, ⟨harrived, hrun⟩, hfollows⟩ := h
  exact ⟨arrival, ⟨harrived, hrun.tail hmoves.2⟩, hfollows.of_others (.single hmoves)⟩

/-- A request goes on being served rightly with an operation of its own. -/
theorem Serves.next {right : F.State → ℕ × Q → B → F.State → Prop} {s₀ s s' : F.State} {q : ℕ × Q} {c : C}
    {r : R c} {next : R c → Prog C R B} (h : F.Serves s₀ right s q (.op c next)) (hbefore : F.Run s₀ s)
    (hperforms : F.Performs q c r s s') : F.Serves s₀ right s' q (next r) := by
  obtain ⟨arrival, ⟨harrived, hrun⟩, hfollows⟩ := h
  obtain ⟨-, heffect⟩ := hfollows s .refl trivial
  obtain ⟨m, -, hview, hnext⟩ := heffect r s' ⟨hbefore, hperforms⟩
  obtain rfl : m = s' := hview
  exact ⟨arrival, ⟨harrived, hrun.tail hperforms.step⟩, hnext⟩

/-- If every request is answered rightly in the midst of everything that goes on, then in all runs all answers stay
right. -/
theorem run_answers {A : F.State → ℕ × Q → B → F.State → Prop} {s₀ s : F.State}
    (hserves : ∀ before q p, F.Run s₀ before → F.serves before.back q p → p.Follows
      (F.meanwhile s₀ (before.arrivals, q)) (A (before.arrive q p) (before.arrivals, q)) (before.arrive q p))
    (h : F.Run s₀ s) (hserved : s₀.served = []) (hanswers : s₀.answers = []) :
    ∀ answer ∈ s.answers, ∃ arrival, (F.Arrived s₀ answer.1 arrival ∧ F.Run arrival s) ∧
      A arrival answer.1 answer.2 s := by
  have hall : (∀ entry ∈ s.served, F.Serves s₀ A s entry.1 entry.2) ∧
      ∀ answer ∈ s.answers, F.Serves s₀ A s answer.1 (.pure answer.2) := by
    induction h with
    | refl => exact ⟨by rw [hserved]; exact nofun, by rw [hanswers]; exact nofun⟩
    | @tail s s' hbefore hstep ih =>
      obtain ⟨hserved, hanswers⟩ := ih
      replace hanswers (answer : (ℕ × Q) × B) (hanswer : answer ∈ s.answers) :
          F.Serves s₀ A s' answer.1 (.pure answer.2) :=
        (hanswers answer hanswer).later ⟨hbefore, hstep⟩
      have hkept (entry : (ℕ × Q) × Prog C R B) (hentry : entry ∈ s.served) : F.Serves s₀ A s' entry.1 entry.2 :=
        (hserved entry hentry).later ⟨hbefore, hstep⟩
      cases hstep with
      | back _ => exact ⟨hkept, hanswers⟩
      | @arrive q p harrives =>
        have hnew : F.Serves s₀ A (s.arrive q p) (s.arrivals, q) p :=
          ⟨_, ⟨⟨s, p, hbefore, harrives, rfl, rfl⟩, .refl⟩, hserves s q p hbefore harrives⟩
        exact ⟨List.forall_mem_cons.mpr ⟨hnew, hkept⟩, hanswers⟩
      | act hop hexec =>
        have hperforms := Performs.act hop hexec
        rw [hop] at hserved hkept
        have hnext := (hserved _ (List.mem_append_right _ List.mem_cons_self)).next hbefore hperforms
        obtain ⟨hfront, hback⟩ := List.forall_mem_append.mp hkept
        exact ⟨List.forall_mem_append.mpr ⟨hfront, List.forall_mem_cons.mpr
          ⟨hnext, (List.forall_mem_cons.mp hback).2⟩⟩, hanswers⟩
      | answer hdone =>
        rw [hdone] at hkept
        obtain ⟨hfront, hback⟩ := List.forall_mem_append.mp hkept
        obtain ⟨hhead, htail⟩ := List.forall_mem_cons.mp hback
        exact ⟨List.forall_mem_append.mpr ⟨hfront, htail⟩,
          List.forall_mem_append.mpr ⟨hanswers, List.forall_mem_singleton.mpr hhead⟩⟩
      | abandon hdropped =>
        rw [hdropped] at hkept
        obtain ⟨hfront, hback⟩ := List.forall_mem_append.mp hkept
        exact ⟨List.forall_mem_append.mpr ⟨hfront, (List.forall_mem_cons.mp hback).2⟩, hanswers⟩
  intro answer hanswer
  obtain ⟨arrival, harrival, hfollows⟩ := hall.2 answer hanswer
  exact ⟨arrival, harrival, hfollows _ .refl trivial⟩

end Frontend

end TPUSwarm.Common
