import TPUSwarm.Common.Pool

/-!
# Runs of one program

A run of a program from a world to a world, with its trace: the operations it issued and
their replies. The rules take the run of a sequence apart into the runs of its parts, also
for a program that stops before it has finished. An interpreter that follows given choices
finds runs.
-/

namespace TPUSwarm.Common

universe u

variable {C : Type u} {R : C → Type u} {α β ε W : Type u}

namespace Prog

/-- A program runs to its end: the trace, the result, and the world afterwards. -/
inductive Runs (exec : (c : C) → W → R c → W → Prop) : Prog C R α → W → List (Sigma R) → α → W → Prop
  | pure {a : α} {w : W} : Runs exec (.pure a) w [] a w
  | op {c : C} {next : R c → Prog C R α} {w w' w'' : W} {r : R c} {trace : List (Sigma R)} {a : α}
      (hexec : exec c w r w') (hrest : Runs exec (next r) w' trace a w'') :
      Runs exec (.op c next) w (⟨c, r⟩ :: trace) a w''

/-- A program runs for a while: the trace so far, and the world reached. -/
inductive Stops (exec : (c : C) → W → R c → W → Prop) : Prog C R α → W → List (Sigma R) → W → Prop
  | here {p : Prog C R α} {w : W} : Stops exec p w [] w
  | op {c : C} {next : R c → Prog C R α} {w w' w'' : W} {r : R c} {trace : List (Sigma R)}
      (hexec : exec c w r w') (hrest : Stops exec (next r) w' trace w'') :
      Stops exec (.op c next) w (⟨c, r⟩ :: trace) w''

variable {exec : (c : C) → W → R c → W → Prop} {w w' w'' : W} {trace : List (Sigma R)}

/-- A result runs without a trace. -/
theorem runs_pure {a b : α} : (pure a : Prog C R α).Runs exec w trace b w' ↔ trace = [] ∧ b = a ∧ w' = w := by
  constructor
  · intro h
    cases h
    exact ⟨rfl, rfl, rfl⟩
  · rintro ⟨rfl, rfl, rfl⟩
    exact .pure

/-- One operation runs as itself. -/
theorem runs_issue {c : C} {r : R c} :
    (Prog.issue c : Prog C R (R c)).Runs exec w trace r w' ↔ trace = [⟨c, r⟩] ∧ exec c w r w' := by
  constructor
  · intro h
    cases h with
    | op hexec hrest =>
      cases hrest
      exact ⟨rfl, hexec⟩
  · rintro ⟨rfl, hexec⟩
    exact .op hexec .pure

/-- A run of a sequence is a run of its first part and a run of the second. -/
theorem runs_bind {p : Prog C R α} {f : α → Prog C R β} {b : β} :
    (p >>= f).Runs exec w trace b w'' ↔ ∃ first a w' second, trace = first ++ second ∧
      p.Runs exec w first a w' ∧ (f a).Runs exec w' second b w'' := by
  constructor
  · intro h
    induction p generalizing w trace with
    | pure a => exact ⟨[], a, w, trace, rfl, .pure, h⟩
    | op c next ih =>
      cases h with
      | op hexec hrest =>
        obtain ⟨first, a, mid, second, rfl, hfirst, hsecond⟩ := ih _ hrest
        exact ⟨_, a, mid, second, rfl, .op hexec hfirst, hsecond⟩
  · rintro ⟨first, a, mid, second, rfl, hfirst, hsecond⟩
    induction hfirst with
    | pure => exact hsecond
    | op hexec _ ih => exact .op hexec (ih hsecond)

/-- A sequence that stops has stopped in its first part, or in the second after a run of the first. -/
theorem stops_bind {p : Prog C R α} {f : α → Prog C R β} :
    (p >>= f).Stops exec w trace w'' ↔ p.Stops exec w trace w'' ∨ ∃ first a w' second, trace = first ++ second ∧
      p.Runs exec w first a w' ∧ (f a).Stops exec w' second w'' := by
  constructor
  · intro h
    induction p generalizing w trace with
    | pure a => exact Or.inr ⟨[], a, w, trace, rfl, .pure, h⟩
    | op c next ih =>
      cases h with
      | here => exact Or.inl .here
      | op hexec hrest =>
        rcases ih _ hrest with hfirst | ⟨first, a, mid, second, rfl, hfirst, hsecond⟩
        · exact Or.inl (.op hexec hfirst)
        · exact Or.inr ⟨_, a, mid, second, rfl, .op hexec hfirst, hsecond⟩
  · rintro (h | ⟨first, a, mid, second, rfl, hfirst, hsecond⟩)
    · induction h with
      | here => exact .here
      | op hexec _ ih => exact .op hexec ih
    · induction hfirst with
      | pure => exact hsecond
      | op hexec _ ih => exact .op hexec (ih hsecond)

/-- A program that has run to its end may have stopped there. -/
theorem Runs.stops {p : Prog C R α} {a : α} (h : p.Runs exec w trace a w') : p.Stops exec w trace w' := by
  induction h with
  | pure => exact .here
  | op hexec _ ih => exact .op hexec ih

/-- A run only issues operations that the program may use. -/
theorem Runs.uses {p : Prog C R α} {a : α} {allowed : C → Prop} (h : p.Runs exec w trace a w')
    (huses : p.Uses allowed) : ∀ event ∈ trace, allowed event.1 := by
  induction h with
  | pure => simp
  | op _ _ ih =>
    intro event hevent
    rcases List.mem_cons.mp hevent with rfl | hevent
    · exact huses.1
    · exact ih (huses.2 _) event hevent

/-- What every operation keeps, a run keeps. -/
theorem Runs.invariant {p : Prog C R α} {a : α} {I : W → Prop} {allowed : C → Prop} (h : p.Runs exec w trace a w')
    (huses : p.Uses allowed) (hstep : ∀ c w r w', allowed c → exec c w r w' → I w → I w') (hstart : I w) :
    I w' := by
  induction h with
  | pure => exact hstart
  | op hexec _ ih => exact ih (huses.2 _) (hstep _ _ _ _ huses.1 hexec hstart)

/-- A program of which every operation gets a reply has a run. -/
theorem exists_runs (htotal : ∀ c w, ∃ r w', exec c w r w') (p : Prog C R α) (w : W) :
    ∃ trace a w', p.Runs exec w trace a w' := by
  induction p generalizing w with
  | pure a => exact ⟨[], a, w, .pure⟩
  | op c next ih =>
    obtain ⟨r, mid, hexec⟩ := htotal c w
    obtain ⟨trace, a, w', hrest⟩ := ih r mid
    exact ⟨_, a, w', .op hexec hrest⟩

/-- Follow choices, one for each operation. -/
def follow {K : Type*} (choose : (c : C) → K → W → Option (R c × W)) :
    List K → Prog C R α → W → Option (List (Sigma R) × α × W)
  | [], .pure a, w => some ([], a, w)
  | k :: rest, .op c next, w =>
    (choose c k w).bind fun (r, w') => (follow choose rest (next r) w').map fun (trace, a, w'') =>
      (⟨c, r⟩ :: trace, a, w'')
  | _, _, _ => none

/-- Follow choices, one for each operation, and stop where they end. -/
def followPart {K : Type*} (choose : (c : C) → K → W → Option (R c × W)) : List K → Prog C R α → W → Option W
  | [], _, w => some w
  | k :: rest, .op c next, w => (choose c k w).bind fun (r, w') => followPart choose rest (next r) w'
  | _, _, _ => none

/-- Possible choices find where a program may stop. -/
theorem stops_of_followPart {K : Type*} {choose : (c : C) → K → W → Option (R c × W)}
    (hchoose : ∀ c k w r w', choose c k w = some (r, w') → exec c w r w') {choices : List K} {p : Prog C R α}
    (h : followPart choose choices p w = some w') : ∃ trace, p.Stops exec w trace w' := by
  induction choices generalizing p w with
  | nil =>
    cases h
    exact ⟨[], .here⟩
  | cons k rest ih =>
    cases p with
    | pure b => cases h
    | op c next =>
      obtain ⟨⟨r, mid⟩, hstep, h⟩ := Option.bind_eq_some_iff.mp h
      obtain ⟨trace, hrest⟩ := ih h
      exact ⟨_, .op (hchoose _ _ _ _ _ hstep) hrest⟩

/-- Possible choices find a run. -/
theorem runs_of_follow {K : Type*} {choose : (c : C) → K → W → Option (R c × W)}
    (hchoose : ∀ c k w r w', choose c k w = some (r, w') → exec c w r w') {choices : List K} {p : Prog C R α}
    {a : α} (h : follow choose choices p w = some (trace, a, w')) : p.Runs exec w trace a w' := by
  induction choices generalizing p w trace with
  | nil =>
    cases p with
    | pure b =>
      cases h
      exact .pure
    | op c next => cases h
  | cons k rest ih =>
    cases p with
    | pure b => cases h
    | op c next =>
      obtain ⟨⟨r, mid⟩, hstep, h⟩ := Option.bind_eq_some_iff.mp h
      obtain ⟨⟨later, b, final⟩, hrest, heq⟩ := Option.map_eq_some_iff.mp h
      cases heq
      exact .op (hchoose _ _ _ _ _ hstep) (ih hrest)

end Prog

namespace Action

variable {exec : (c : C) → W → R c → W → Prop} {w w' w'' : W} {trace : List (Sigma R)}

/-- `Prog.Runs` for actions: the result is returned or raised. -/
def Runs (exec : (c : C) → W → R c → W → Prop) (p : Action C R ε α) (w : W) (trace : List (Sigma R))
    (outcome : Except ε α) (w' : W) : Prop := p.run.Runs exec w trace outcome w'

/-- `Prog.Stops` for actions. -/
def Stops (exec : (c : C) → W → R c → W → Prop) (p : Action C R ε α) (w : W) (trace : List (Sigma R)) (w' : W) :
    Prop := p.run.Stops exec w trace w'

/-- A computation that returns goes on with its value. -/
theorem ofExcept_bind (a : α) (f : α → Action C R ε β) : (ofExcept (.ok a) >>= f) = f a := rfl

/-- A value runs without a trace. -/
theorem runs_pure {a : α} {outcome : Except ε α} :
    (pure a : Action C R ε α).Runs exec w trace outcome w' ↔ trace = [] ∧ outcome = .ok a ∧ w' = w :=
  Prog.runs_pure

/-- A raised error runs without a trace. -/
theorem runs_throw {e : ε} {outcome : Except ε α} :
    (throw e : Action C R ε α).Runs exec w trace outcome w' ↔ trace = [] ∧ outcome = .error e ∧ w' = w :=
  Prog.runs_pure

/-- A computation without operations runs without a trace. -/
theorem runs_ofExcept {r outcome : Except ε α} :
    (ofExcept r : Action C R ε α).Runs exec w trace outcome w' ↔ trace = [] ∧ outcome = r ∧ w' = w :=
  Prog.runs_pure

/-- A run of a sequence raises in its first part, or is a run of the first part that returns and a run of
the second. -/
theorem runs_bind {p : Action C R ε α} {f : α → Action C R ε β} {outcome : Except ε β} :
    (p >>= f).Runs exec w trace outcome w'' ↔
      (∃ e, outcome = .error e ∧ p.Runs exec w trace (.error e) w'') ∨
        ∃ first a w' second, trace = first ++ second ∧ p.Runs exec w first (.ok a) w' ∧
          (f a).Runs exec w' second outcome w'' := by
  refine Prog.runs_bind.trans ⟨?_, ?_⟩
  · rintro ⟨first, r, mid, second, rfl, hfirst, hsecond⟩
    cases r with
    | error e =>
      obtain ⟨rfl, rfl, rfl⟩ := Prog.runs_pure.mp hsecond
      exact Or.inl ⟨e, rfl, by rw [List.append_nil]; exact hfirst⟩
    | ok a => exact Or.inr ⟨first, a, mid, second, rfl, hfirst, hsecond⟩
  · rintro (⟨e, rfl, hfirst⟩ | ⟨first, a, mid, second, rfl, hfirst, hsecond⟩)
    · exact ⟨trace, .error e, w'', [], (List.append_nil _).symm, hfirst, Prog.runs_pure.mpr ⟨rfl, rfl, rfl⟩⟩
    · exact ⟨first, .ok a, mid, second, rfl, hfirst, hsecond⟩

/-- A sequence returns if both parts do. -/
theorem runs_bind_ok {p : Action C R ε α} {f : α → Action C R ε β} {b : β} :
    (p >>= f).Runs exec w trace (.ok b) w'' ↔ ∃ first a w' second, trace = first ++ second ∧
      p.Runs exec w first (.ok a) w' ∧ (f a).Runs exec w' second (.ok b) w'' := by
  refine runs_bind.trans ⟨?_, Or.inr⟩
  rintro (⟨e, herror, -⟩ | h)
  · cases herror
  · exact h

/-- A computation in front of a sequence that returns has returned. -/
theorem runs_ofExcept_bind_ok {r : Except ε α} {f : α → Action C R ε β} {b : β} :
    (ofExcept r >>= f).Runs exec w trace (.ok b) w' ↔ ∃ a, r = .ok a ∧ (f a).Runs exec w trace (.ok b) w' := by
  cases r with
  | error e =>
    refine iff_of_false (fun h => ?_) fun ⟨_, herror, _⟩ => (by cases herror)
    obtain ⟨-, houtcome, -⟩ := Prog.runs_pure.mp h
    cases houtcome
  | ok a => exact ⟨fun h => ⟨a, rfl, h⟩, fun ⟨_, heq, h⟩ => (by cases heq; exact h)⟩

/-- A computation in front of a sequence raises, or what follows it runs. -/
theorem runs_ofExcept_bind {r : Except ε α} {f : α → Action C R ε β} {outcome : Except ε β} :
    (ofExcept r >>= f).Runs exec w trace outcome w' ↔
      (∃ e, r = .error e ∧ trace = [] ∧ outcome = .error e ∧ w' = w) ∨
        ∃ a, r = .ok a ∧ (f a).Runs exec w trace outcome w' := by
  cases r with
  | error e =>
    refine Prog.runs_pure.trans ⟨fun h => Or.inl ⟨e, rfl, h⟩, ?_⟩
    rintro (⟨_, heq, h⟩ | ⟨_, heq, -⟩)
    · cases heq
      exact h
    · cases heq
  | ok a =>
    refine ⟨fun h => Or.inr ⟨a, rfl, h⟩, ?_⟩
    rintro (⟨_, heq, -⟩ | ⟨_, heq, h⟩)
    · cases heq
    · cases heq
      exact h

/-- A sequence that stops has stopped in its first part, or in the second after the first has returned. -/
theorem stops_bind {p : Action C R ε α} {f : α → Action C R ε β} (h : (p >>= f).Stops exec w trace w'') :
    p.Stops exec w trace w'' ∨ ∃ first a w' second, trace = first ++ second ∧ p.Runs exec w first (.ok a) w' ∧
      (f a).Stops exec w' second w'' := by
  rcases Prog.stops_bind.mp h with hfirst | ⟨first, r, mid, second, rfl, hfirst, hsecond⟩
  · exact Or.inl hfirst
  · cases r with
    | error e =>
      cases hsecond
      exact Or.inl (by rw [List.append_nil]; exact hfirst.stops)
    | ok a => exact Or.inr ⟨first, a, mid, second, rfl, hfirst, hsecond⟩

/-- A caught action runs as it does, with its outcome as the value returned. -/
theorem runs_attempt {p : Action C R ε α} {outcome : Except ε (Except ε α)} :
    p.attempt.Runs exec w trace outcome w' ↔ ∃ r, outcome = .ok r ∧ p.Runs exec w trace r w' := by
  refine Prog.runs_bind.trans ⟨?_, ?_⟩
  · rintro ⟨first, r, mid, second, rfl, hfirst, hsecond⟩
    obtain ⟨rfl, rfl, rfl⟩ := Prog.runs_pure.mp hsecond
    exact ⟨r, rfl, by rw [List.append_nil]; exact hfirst⟩
  · rintro ⟨r, rfl, hrun⟩
    exact ⟨trace, r, w', [], (List.append_nil _).symm, hrun, Prog.runs_pure.mpr ⟨rfl, rfl, rfl⟩⟩

end Action

/-- What a program of a pool does alone, the pool does. -/
theorem Pool.run_of_runs {ι : Type u} [DecidableEq ι] {P : Pool ι W α C R} {s : P.State} {i : ι} {p : Prog C R α}
    {trace : List (Sigma R)} {a : α} {w' : W} (hp : s.progs i = p) (hruns : p.Runs (P.exec i) s.world trace a w') :
    P.Run s ⟨w', Function.update s.progs i (.pure a)⟩ := by
  generalize hw : s.world = w at hruns
  induction hruns generalizing s with
  | pure =>
    obtain ⟨world, progs⟩ := s
    cases hw
    rw [← hp, Function.update_eq_self]
  | op hexec _ ih =>
    rw [← hw] at hexec
    have hrest := ih (s := ⟨_, Function.update s.progs i _⟩) (Function.update_self ..) rfl
    rw [Function.update_idem] at hrest
    exact .head (.act i hp hexec) hrest

end TPUSwarm.Common
