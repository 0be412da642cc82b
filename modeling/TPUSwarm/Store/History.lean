import TPUSwarm.Store.Frames
import Mathlib.Logic.Relation

/-!
# Histories of calls

Clients and controllers call the store in any order and at any times. A history is any
number of calls, each of which may be restricted to what is allowed at its moment. A call
that raises is part of the history and changes nothing.
-/

namespace TPUSwarm

open Common Relation

/-- A restriction on calls: which of them may be made of a store. -/
abbrev Discretion := SwarmStore → Call → Prop

/-- Every call may be made. -/
def anyCall : Discretion := fun _ _ => True

/-- One call that raises, or that may be made and returns. -/
def Served (allowed : Discretion) (store store' : SwarmStore) : Prop :=
  ∃ (call : Call) (now : Time), (∀ result written, call.run now store = .ok (result, written) →
    allowed store call) ∧
    store' = (call.perform now store).2

/-- Any number of calls. -/
abbrev History (allowed : Discretion) : SwarmStore → SwarmStore → Prop := ReflTransGen (Served allowed)

variable {allowed : Discretion} {store store' : SwarmStore}

/-- A successful call that may be made. -/
theorem Served.of_run {call : Call} {now : Time} {result : call.Result} (hallowed : allowed store call)
    (hrun : call.run now store = .ok (result, store')) : Served allowed store store' :=
  ⟨call, now, fun _ _ _ => hallowed, by rw [Call.perform, hrun]⟩

namespace History

/-- What every successful call keeps holds after any history. -/
theorem invariant {I : SwarmStore → Prop}
    (hstep : ∀ (call : Call) (now : Time) (result : call.Result) (s s' : SwarmStore), allowed s call →
      call.run now s = .ok (result, s') → I s → I s')
    (h : History allowed store store') (hstart : I store) : I store' := by
  induction h with
  | refl => exact hstart
  | tail _ hserved ih =>
    obtain ⟨call, now, hallowed, rfl⟩ := hserved
    rcases call.perform_store now _ with hsame | ⟨result, hrun⟩
    · rw [hsame]
      exact ih
    · exact hstep call now result _ _ (hallowed _ _ hrun) hrun ih

/-- A history is a history under any weaker restriction. -/
theorem mono {allowed' : Discretion} (hweaker : ∀ s call, allowed s call → allowed' s call)
    (h : History allowed store store') : History allowed' store store' :=
  ReflTransGen.mono (fun _ _ ⟨call, now, hallowed, hstore⟩ =>
    ⟨call, now, fun result written hrun => hweaker _ _ (hallowed result written hrun), hstore⟩) _ _ h

/-- A successful call is a history. -/
theorem of_run {call : Call} {now : Time} {result : call.Result} (hallowed : allowed store call)
    (hrun : call.run now store = .ok (result, store')) : History allowed store store' :=
  .single (.of_run hallowed hrun)

end History

/-- An outcome has a value if it is one. -/
theorem toOption_eq_some {ε α : Type} {x : Except ε α} {a : α} : x.toOption = some a ↔ x = .ok a := by
  cases x <;> simp [Except.toOption]

namespace SwarmStore

/-- The store after calls, each at its time. -/
def after (store : SwarmStore) : List (Call × Time) → SwarmStore
  | [] => store
  | (call, now) :: rest => (call.perform now store).2.after rest

/-- Every one of the calls may be made at its moment. -/
def Permits (allowed : Discretion) (store : SwarmStore) : List (Call × Time) → Prop
  | [] => True
  | (call, now) :: rest => allowed store call ∧ (call.perform now store).2.Permits allowed rest

instance Permits.decidable (allowed : Discretion) [h : ∀ s call, Decidable (allowed s call)] (store : SwarmStore) :
    (calls : List (Call × Time)) → Decidable (store.Permits allowed calls)
  | [] => isTrue trivial
  | (call, now) :: rest =>
    have := Permits.decidable allowed (call.perform now store).2 rest
    inferInstanceAs (Decidable (allowed store call ∧ (call.perform now store).2.Permits allowed rest))

/-- Calls that may be made are a history. -/
theorem history_after {allowed : Discretion} {store : SwarmStore} {calls : List (Call × Time)}
    (h : store.Permits allowed calls) : History allowed store (store.after calls) := by
  induction calls generalizing store with
  | nil => exact .refl
  | cons call rest ih => exact .head ⟨call.1, call.2, fun _ _ _ => h.1, rfl⟩ (ih h.2)

/-- Any calls are a history. -/
theorem history_any (store : SwarmStore) (calls : List (Call × Time)) :
    History anyCall store (store.after calls) := by
  induction calls generalizing store with
  | nil => exact .refl
  | cons call rest ih => exact .head ⟨call.1, call.2, fun _ _ _ => trivial, rfl⟩ (ih _)

end SwarmStore

end TPUSwarm
