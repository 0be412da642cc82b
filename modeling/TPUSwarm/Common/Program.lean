import Mathlib.Logic.Relation

/-!
# Programs over a shared world, and what they may do to it

A program is a tree of operations with a continuation for every reply. Between two of its
operations other parties may act. `Follows` says that, whatever they do, each operation
the program issues is permitted at that moment and each effect it has is a move of an
abstract machine. The rules below compose this along sequencing, exceptions and loops.
-/

namespace TPUSwarm.Common

open Relation

universe u

/-- A program: a result, or an operation and what to do with its reply. -/
inductive Prog (C : Type u) (R : C → Type u) (α : Type u) : Type u
  | pure (a : α)
  | op (c : C) (next : R c → Prog C R α)

namespace Prog

variable {C : Type u} {R : C → Type u} {α β γ : Type u}

/-- Run a program, then another on its result. -/
def bind : Prog C R α → (α → Prog C R β) → Prog C R β
  | .pure a, f => f a
  | .op c next, f => .op c fun r => (next r).bind f

instance : Monad (Prog C R) where
  pure := .pure
  bind := bind

/-- Issue one operation and return its reply. -/
def issue (c : C) : Prog C R (R c) := .op c .pure

/-- A result goes to the continuation. -/
@[simp] theorem pure_bind' (a : α) (f : α → Prog C R β) : (Prog.pure a : Prog C R α) >>= f = f a := rfl

/-- What comes after an operation goes into its continuation. -/
@[simp] theorem op_bind (c : C) (next : R c → Prog C R α) (f : α → Prog C R β) :
    Prog.op c next >>= f = .op c fun r => next r >>= f := rfl

/-- Sequencing programs is associative, and a result alone changes nothing. -/
instance : LawfulMonad (Prog C R) := by
  refine LawfulMonad.mk' (Prog C R) (fun p => ?_) (fun _ _ => rfl) fun p f g => ?_
  · induction p with
    | pure a => rfl
    | op c next ih => exact congrArg (Prog.op c) (funext ih)
  · induction p with
    | pure a => rfl
    | op c next ih => exact congrArg (Prog.op c) (funext ih)

/-- The program has nothing left to do. -/
def finished : Prog C R α → Bool
  | .pure _ => true
  | .op _ _ => false

/-- Every operation the program can issue is allowed. -/
def Uses (allowed : C → Prop) : Prog C R α → Prop
  | .pure _ => True
  | .op c next => allowed c ∧ ∀ r, (next r).Uses allowed

/-- A sequence uses what its parts use. -/
theorem Uses.bind {allowed : C → Prop} {p : Prog C R α} {f : α → Prog C R β}
    (hp : p.Uses allowed) (hf : ∀ a, (f a).Uses allowed) : (p >>= f).Uses allowed := by
  induction p with
  | pure a => exact hf a
  | op c next ih => exact ⟨hp.1, fun r => ih r (hp.2 r)⟩

/-- What is allowed may be weakened. -/
theorem Uses.mono {allowed allowed' : C → Prop} (himp : ∀ c, allowed c → allowed' c) {p : Prog C R α}
    (hp : p.Uses allowed) : p.Uses allowed' := by
  induction p with
  | pure a => trivial
  | op c next ih => exact ⟨himp c hp.1, fun r => ih r (hp.2 r)⟩

/-- One operation uses itself. -/
theorem Uses.issue {allowed : C → Prop} {c : C} (h : allowed c) :
    (Prog.issue c : Prog C R (R c)).Uses allowed := ⟨h, fun _ => trivial⟩

end Prog

/-- How a program's operations act on a world, and the machine its effects must follow. -/
structure Abstraction (W M C : Type u) (R : C → Type u) where
  exec : (c : C) → W → R c → W → Prop
  view : M → W
  own : M → M → Prop
  others : M → M → Prop
  inv : M → Prop
  permitted : C → M → Prop

/-- A fact that the actions of others do not change. -/
def Abstraction.Stable {W M C : Type u} {R : C → Type u} (S : Abstraction W M C R) (fact : M → Prop) :
    Prop := ∀ m m', S.others m m' → fact m → fact m'

/-- A stable fact survives any number of actions of others. -/
theorem Abstraction.Stable.star {W M C : Type u} {R : C → Type u} {S : Abstraction W M C R}
    {fact : M → Prop} (h : S.Stable fact) {m m' : M} (hothers : ReflTransGen S.others m m')
    (hm : fact m) : fact m' := by
  induction hothers with
  | refl => exact hm
  | tail _ hstep ih => exact h _ _ hstep ih

namespace Prog

variable {W M C : Type u} {R : C → Type u} {α β ε : Type u} {S : Abstraction W M C R}

/-- Whatever others do in between, every operation is permitted, every effect is matched by
moves of the machine, and the result satisfies the postcondition. -/
def Follows (S : Abstraction W M C R) : Prog C R α → (α → M → Prop) → M → Prop
  | .pure a, post, m => ∀ m', ReflTransGen S.others m m' → S.inv m' → post a m'
  | .op c next, post, m => ∀ m', ReflTransGen S.others m m' → S.inv m' →
      S.permitted c m' ∧ ∀ r w', S.exec c (S.view m') r w' →
        ∃ m'', ReflTransGen S.own m' m'' ∧ S.view m'' = w' ∧ (next r).Follows S post m''

/-- What a program guarantees survives the actions of others. -/
theorem Follows.of_others {p : Prog C R α} {post : α → M → Prop} {m m' : M}
    (h : p.Follows S post m) (hothers : ReflTransGen S.others m m') : p.Follows S post m' := by
  cases p with
  | pure a => exact fun m'' h' => h m'' (hothers.trans h')
  | op c next => exact fun m'' h' => h m'' (hothers.trans h')

/-- It is enough to look at the states others can leave that satisfy the invariant. -/
theorem Follows.of_forall {p : Prog C R α} {post : α → M → Prop} {m : M}
    (h : ∀ m', ReflTransGen S.others m m' → S.inv m' → p.Follows S post m') :
    p.Follows S post m := by
  cases p with
  | pure a => exact fun m' ho hi => h m' ho hi m' .refl hi
  | op c next => exact fun m' ho hi => h m' ho hi m' .refl hi

/-- Weaken a postcondition. -/
theorem Follows.mono {p : Prog C R α} {post post' : α → M → Prop} {m : M}
    (h : p.Follows S post m) (himp : ∀ a m, S.inv m → post a m → post' a m) :
    p.Follows S post' m := by
  induction p generalizing m with
  | pure a => exact fun m' ho hi => himp a m' hi (h m' ho hi)
  | op c next ih =>
    intro m' ho hi
    obtain ⟨hperm, heffect⟩ := h m' ho hi
    refine ⟨hperm, fun r w' hexec => ?_⟩
    obtain ⟨m'', hown, hview, hnext⟩ := heffect r w' hexec
    exact ⟨m'', hown, hview, ih r hnext⟩

/-- Sequencing. -/
theorem Follows.bind {p : Prog C R α} {f : α → Prog C R β} {K : α → M → Prop} {post : β → M → Prop} {m : M}
    (h : p.Follows S K m) (hf : ∀ a m, S.inv m → K a m → (f a).Follows S post m) :
    (p >>= f).Follows S post m := by
  induction p generalizing m with
  | pure a => exact Follows.of_forall fun m' ho hi => hf a m' hi (h m' ho hi)
  | op c next ih =>
    intro m' ho hi
    obtain ⟨hperm, heffect⟩ := h m' ho hi
    refine ⟨hperm, fun r w' hexec => ?_⟩
    obtain ⟨m'', hown, hview, hnext⟩ := heffect r w' hexec
    exact ⟨m'', hown, hview, ih r hnext⟩

/-- A fact that neither others nor the program itself can change still holds when the program has returned. -/
theorem Follows.frame {p : Prog C R α} {post : α → M → Prop} {fact : M → Prop} (hothers : S.Stable fact)
    (hown : ∀ m m', S.own m m' → fact m → fact m') {m : M} (h : p.Follows S post m) (hm : fact m) :
    p.Follows S (fun a m => post a m ∧ fact m) m := by
  induction p generalizing m with
  | pure a => exact fun m' ho hi => ⟨h m' ho hi, hothers.star ho hm⟩
  | op c next ih =>
    intro m' ho hi
    obtain ⟨hperm, heffect⟩ := h m' ho hi
    refine ⟨hperm, fun r w' hexec => ?_⟩
    obtain ⟨m'', hmoves, hview, hnext⟩ := heffect r w' hexec
    have hkept : fact m'' := ReflTransGen.trans_induction_on hmoves (fun _ h => h) (fun hstep h => hown _ _ hstep h)
      (fun _ _ hfirst hlast h => hlast (hfirst h)) (hothers.star ho hm)
    exact ⟨m'', hmoves, hview, ih r hnext hkept⟩

/-- A result needs a stable postcondition. -/
theorem Follows.pure {a : α} {Q : α → M → Prop} (hpost : S.Stable (Q a)) {m : M} (hm : Q a m) :
    (pure a : Prog C R α).Follows S Q m := fun _ ho _ => hpost.star ho hm

/-- One operation, from a stable fact to stable facts about its reply. -/
theorem Follows.issue {c : C} {fact : M → Prop} {post : R c → M → Prop} (hfact : S.Stable fact)
    (hpost : ∀ r, S.Stable (post r))
    (h : ∀ m, S.inv m → fact m → S.permitted c m ∧ ∀ r w', S.exec c (S.view m) r w' →
      ∃ m', ReflTransGen S.own m m' ∧ S.view m' = w' ∧ post r m') {m : M} (hm : fact m) :
    (Prog.issue c : Prog C R (R c)).Follows S post m := by
  intro m' ho hi
  obtain ⟨hperm, heffect⟩ := h m' hi (hfact.star ho hm)
  refine ⟨hperm, fun r w' hexec => ?_⟩
  obtain ⟨m'', hown, hview, hr⟩ := heffect r w' hexec
  exact ⟨m'', hown, hview, fun _ ho' _ => (hpost r).star ho' hr⟩

/-- A program that only uses harmless operations keeps what these and all others keep. -/
theorem Follows.of_uses {p : Prog C R α} {allowed : C → Prop} (keep : M → Prop)
    (hothers : S.Stable keep)
    (hop : ∀ c, allowed c → ∀ m, S.inv m → keep m → S.permitted c m ∧
      ∀ r w', S.exec c (S.view m) r w' →
        ∃ m', ReflTransGen S.own m m' ∧ S.view m' = w' ∧ keep m')
    (huses : p.Uses allowed) {m : M} (hm : keep m) : p.Follows S (fun _ m => keep m) m := by
  induction p generalizing m with
  | pure a => exact fun m' ho _ => hothers.star ho hm
  | op c next ih =>
    intro m' ho hi
    obtain ⟨hperm, heffect⟩ := hop c huses.1 m' hi (hothers.star ho hm)
    refine ⟨hperm, fun r w' hexec => ?_⟩
    obtain ⟨m'', hown, hview, hkeep⟩ := heffect r w' hexec
    exact ⟨m'', hown, hview, ih r (huses.2 r) hkeep⟩

end Prog

/-- A program that may raise. -/
abbrev Action (C : Type u) (R : C → Type u) (ε α : Type u) := ExceptT ε (Prog C R) α

namespace Action

variable {W M C : Type u} {R : C → Type u} {α β ε : Type u} {S : Abstraction W M C R}

/-- `try`: the outcome of an action, raised or returned, as a value. -/
def attempt (p : Action C R ε α) : Action C R ε (Except ε α) := ExceptT.mk (p.run >>= fun r => pure (.ok r))

/-- A reply that is itself an outcome, raised or returned to the caller. -/
def reply (p : Prog C R (Except ε α)) : Action C R ε α := ExceptT.mk p

/-- A computation without operations. -/
def ofExcept (r : Except ε α) : Action C R ε α := ExceptT.mk (pure r)

/-- The postcondition of an action: one for a returned value, one for a raised error. -/
def post (returned : α → M → Prop) (raised : ε → M → Prop) : Except ε α → M → Prop
  | .ok a, m => returned a m
  | .error e, m => raised e m

/-- `Prog.Follows` for actions. -/
def Follows (S : Abstraction W M C R) (p : Action C R ε α) (returned : α → M → Prop)
    (raised : ε → M → Prop) (m : M) : Prop :=
  p.run.Follows S (post returned raised) m

/-- Sequencing: a raised error skips the continuation. -/
theorem Follows.bind {p : Action C R ε α} {f : α → Action C R ε β} {K : α → M → Prop}
    {returned : β → M → Prop} {raised : ε → M → Prop} (hraised : ∀ e, S.Stable (raised e)) {m : M}
    (h : p.Follows S K raised m) (hf : ∀ a m, S.inv m → K a m → (f a).Follows S returned raised m) :
    (p >>= f).Follows S returned raised m := by
  refine Prog.Follows.bind h fun r m hi hr => ?_
  cases r with
  | ok a => exact hf a m hi hr
  | error e => exact Prog.Follows.pure (Q := post returned raised) (hraised e) hr

/-- A returned value. -/
theorem Follows.pure {a : α} {Q : α → M → Prop} {raised : ε → M → Prop}
    (hreturned : S.Stable (Q a)) {m : M} (hm : Q a m) :
    (pure a : Action C R ε α).Follows S Q raised m :=
  Prog.Follows.pure (Q := post Q raised) hreturned hm

/-- A raised error. -/
theorem Follows.throw {e : ε} {returned : α → M → Prop} {raised : ε → M → Prop}
    (hraised : S.Stable (raised e)) {m : M} (hm : raised e m) :
    (throw e : Action C R ε α).Follows S returned raised m :=
  Prog.Follows.pure (Q := post returned raised) hraised hm

/-- Catching turns both outcomes into values. -/
theorem Follows.attempt {p : Action C R ε α} {returned : Except ε α → M → Prop}
    {raised : ε → M → Prop} (hreturned : ∀ r, S.Stable (returned r)) {m : M}
    (h : p.Follows S (fun a => returned (.ok a)) (fun e => returned (.error e)) m) :
    p.attempt.Follows S returned raised m := by
  refine Prog.Follows.bind h fun r m _ hr => ?_
  cases r with
  | ok a => exact Prog.Follows.pure (Q := post returned raised) (hreturned (.ok a)) hr
  | error e => exact Prog.Follows.pure (Q := post returned raised) (hreturned (.error e)) hr

/-- Weaken both postconditions. -/
theorem Follows.mono {p : Action C R ε α} {returned returned' : α → M → Prop}
    {raised raised' : ε → M → Prop} {m : M} (h : p.Follows S returned raised m)
    (hret : ∀ a m, S.inv m → returned a m → returned' a m)
    (hraise : ∀ e m, S.inv m → raised e m → raised' e m) : p.Follows S returned' raised' m := by
  refine Prog.Follows.mono h fun r m hi hr => ?_
  cases r with
  | ok a => exact hret a m hi hr
  | error e => exact hraise e m hi hr

/-- `Prog.Follows.frame` for actions. -/
theorem Follows.frame {p : Action C R ε α} {returned : α → M → Prop} {raised : ε → M → Prop} {fact : M → Prop}
    (hothers : S.Stable fact) (hown : ∀ m m', S.own m m' → fact m → fact m') {m : M}
    (h : p.Follows S returned raised m) (hm : fact m) :
    p.Follows S (fun a m => returned a m ∧ fact m) raised m := by
  refine Prog.Follows.mono (Prog.Follows.frame hothers hown h hm) fun r m _ hr => ?_
  cases r with
  | ok a => exact hr
  | error e => exact hr.1

/-- A computation without operations, then what goes on with its value. -/
theorem Follows.ofExcept_bind {r : Except ε α} {f : α → Action C R ε β} {returned : β → M → Prop}
    {raised : ε → M → Prop} (hraised : ∀ e, S.Stable (raised e)) {m : M} (herror : ∀ e, r = .error e → raised e m)
    (hok : ∀ a, r = .ok a → (f a).Follows S returned raised m) :
    (ofExcept r >>= f).Follows S returned raised m := by
  cases r with
  | error e => exact Prog.Follows.pure (Q := post returned raised) (hraised e) (herror e rfl)
  | ok a => exact hok a rfl

/-- Every operation an action can issue is allowed. -/
def Uses (allowed : C → Prop) (p : Action C R ε α) : Prop := p.run.Uses allowed

/-- A sequence uses what its parts use. -/
theorem Uses.bind {allowed : C → Prop} {p : Action C R ε α} {f : α → Action C R ε β}
    (hp : p.Uses allowed) (hf : ∀ a, (f a).Uses allowed) : (p >>= f).Uses allowed := by
  refine Prog.Uses.bind hp fun r => ?_
  cases r with
  | ok a => exact hf a
  | error e => exact trivial

/-- A value uses nothing. -/
theorem Uses.pure {allowed : C → Prop} (a : α) :
    (pure a : Action C R ε α).Uses allowed := trivial

/-- A computation without operations uses nothing. -/
theorem Uses.ofExcept {allowed : C → Prop} (r : Except ε α) :
    (ofExcept r : Action C R ε α).Uses allowed := trivial

/-- Catching uses what the action uses. -/
theorem Uses.attempt {allowed : C → Prop} {p : Action C R ε α} (hp : p.Uses allowed) :
    p.attempt.Uses allowed := Prog.Uses.bind hp fun _ => trivial

/-- `Prog.Follows.of_uses` for actions. -/
theorem Follows.of_uses {p : Action C R ε α} {allowed : C → Prop} (keep : M → Prop)
    (hothers : S.Stable keep)
    (hop : ∀ c, allowed c → ∀ m, S.inv m → keep m → S.permitted c m ∧
      ∀ r w', S.exec c (S.view m) r w' →
        ∃ m', ReflTransGen S.own m m' ∧ S.view m' = w' ∧ keep m')
    (huses : p.Uses allowed) {m : M} (hm : keep m) :
    p.Follows S (fun _ m => keep m) (fun _ m => keep m) m := by
  refine Prog.Follows.mono (Prog.Follows.of_uses keep hothers hop huses hm) fun r m _ hk => ?_
  cases r with
  | ok a => exact hk
  | error e => exact hk

end Action

end TPUSwarm.Common
