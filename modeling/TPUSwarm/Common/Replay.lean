import Mathlib.Data.List.Basic
import Mathlib.Data.Nat.Basic

/-!
# Replaying an append-only log from a cursor

Entries of a log carry increasing numbers. A reader folds a step function over the
entries it selects and keeps the pair of the folded state and the number it has reached.
Such a pair stays right while the log grows, because new entries get numbers beyond every
number handed out so far, and it moves on by folding what lies after the cursor. A pair
that is written back late is therefore older, never wrong.
-/

namespace TPUSwarm.Common

/-- Entries that carry a number. -/
class Numbered (ε : Type*) where
  number : ε → ℕ

open Numbered

variable {ε : Type*} [Numbered ε]

/-- Entries in increasing number order, and the largest number handed out. -/
structure Log (ε : Type*) [Numbered ε] where
  entries : List ε
  seq : ℕ
  increasing : entries.Pairwise (fun a b => number a < number b)
  bounded : ∀ e ∈ entries, 0 < number e ∧ number e ≤ seq

namespace Log

/-- The log before anything was appended. -/
def empty : Log ε := ⟨[], 0, List.Pairwise.nil, by simp⟩

/-- Append an entry that carries the next number. -/
def append (log : Log ε) (e : ε) (h : number e = log.seq + 1) : Log ε where
  entries := log.entries ++ [e]
  seq := log.seq + 1
  increasing := List.pairwise_append.mpr ⟨log.increasing, List.pairwise_singleton _ _,
    fun a ha b hb => by
      rw [List.mem_singleton.mp hb, h]
      exact Nat.lt_succ_of_le (log.bounded a ha).2⟩
  bounded := fun a ha => by
    rcases List.mem_append.mp ha with ha | ha
    · exact ⟨(log.bounded a ha).1, Nat.le_succ_of_le (log.bounded a ha).2⟩
    · rw [List.mem_singleton.mp ha, h]
      exact ⟨Nat.succ_pos _, le_rfl⟩

/-- Appending puts an entry at the end. -/
@[simp] theorem entries_append (log : Log ε) (e : ε) (h : number e = log.seq + 1) :
    (log.append e h).entries = log.entries ++ [e] := rfl

/-- The selected entries up to a cursor. -/
def upTo (log : Log ε) (select : ε → Bool) (cursor : ℕ) : List ε :=
  log.entries.filter (fun e => select e && decide (number e ≤ cursor))

/-- The selected entries after a cursor. -/
def after (log : Log ε) (select : ε → Bool) (cursor : ℕ) : List ε :=
  log.entries.filter (fun e => select e && decide (cursor < number e))

/-- One log continues another: the old entries first, then entries with larger numbers. -/
def Extends (old new : Log ε) : Prop :=
  ∃ added, new.entries = old.entries ++ added ∧ (∀ e ∈ added, old.seq < number e) ∧ old.seq ≤ new.seq

/-- A log extends itself. -/
theorem Extends.refl (log : Log ε) : log.Extends log := ⟨[], by simp⟩

/-- Extending is transitive. -/
theorem Extends.trans {a b c : Log ε} (hab : a.Extends b) (hbc : b.Extends c) : a.Extends c := by
  obtain ⟨first, hfirst, hnew, hle⟩ := hab
  obtain ⟨second, hsecond, hnew', hle'⟩ := hbc
  refine ⟨first ++ second, by rw [hsecond, hfirst, List.append_assoc], ?_, le_trans hle hle'⟩
  intro e he
  rcases List.mem_append.mp he with he | he
  · exact hnew e he
  · exact lt_of_le_of_lt hle (hnew' e he)

/-- Appending extends a log. -/
theorem extends_append (log : Log ε) (e : ε) (h : number e = log.seq + 1) :
    log.Extends (log.append e h) := by
  refine ⟨[e], rfl, fun x hx => ?_, Nat.le_succ _⟩
  rw [List.mem_singleton.mp hx, h]
  exact Nat.lt_succ_self _

/-- What a cursor within the old log has covered does not change as the log grows. -/
theorem Extends.upTo_eq {old new : Log ε} (h : old.Extends new) (select : ε → Bool) {cursor : ℕ}
    (hcursor : cursor ≤ old.seq) : new.upTo select cursor = old.upTo select cursor := by
  obtain ⟨added, hentries, hnew, -⟩ := h
  have hnone : added.filter (fun e => select e && decide (number e ≤ cursor)) = [] := by
    rw [List.filter_eq_nil_iff]
    intro e he
    have hlt := hnew e he
    simp only [Bool.and_eq_true, decide_eq_true_eq, not_and, not_le]
    intro _
    omega
  rw [upTo, upTo, hentries, List.filter_append, hnone, List.append_nil]

/-- The number of the last entry of a list, or the cursor it was read from. -/
def reached (cursor : ℕ) : List ε → ℕ
  | [] => cursor
  | e :: rest => reached (number e) rest

/-- A replay reaches at least the cursor and every entry. -/
theorem le_reached {cursor : ℕ} {l : List ε} (hsorted : l.Pairwise (fun a b => number a < number b))
    (hafter : ∀ e ∈ l, cursor < number e) :
    cursor ≤ reached cursor l ∧ ∀ e ∈ l, number e ≤ reached cursor l := by
  induction l generalizing cursor with
  | nil => exact ⟨le_rfl, by simp⟩
  | cons e rest ih =>
    obtain ⟨hhead, hrest⟩ := List.pairwise_cons.mp hsorted
    obtain ⟨hle, hall⟩ := ih hrest hhead
    have hlt := hafter e List.mem_cons_self
    refine ⟨le_trans (Nat.le_of_lt hlt) hle, fun x hx => ?_⟩
    rcases List.mem_cons.mp hx with rfl | hx
    · exact hle
    · exact hall x hx

/-- A replay reaches no further than a bound of the cursor and the entries. -/
theorem reached_le {cursor bound : ℕ} {l : List ε} (hcursor : cursor ≤ bound)
    (hall : ∀ e ∈ l, number e ≤ bound) : reached cursor l ≤ bound := by
  induction l generalizing cursor with
  | nil => exact hcursor
  | cons e rest ih =>
    exact ih (hall e List.mem_cons_self) (fun x hx => hall x (List.mem_cons_of_mem _ hx))

/-- A list in number order is what lies up to a cursor followed by what lies after it. -/
theorem filter_split {l : List ε} (hsorted : l.Pairwise (fun a b => number a < number b))
    (cursor : ℕ) :
    l.filter (fun e => decide (number e ≤ cursor)) ++ l.filter (fun e => decide (cursor < number e)) =
      l := by
  induction l with
  | nil => rfl
  | cons e rest ih =>
    obtain ⟨hhead, hrest⟩ := List.pairwise_cons.mp hsorted
    by_cases he : number e ≤ cursor
    · rw [List.filter_cons_of_pos (by simpa using he),
        List.filter_cons_of_neg (by simpa using he), List.cons_append, ih hrest]
    · have hbeyond : ∀ x ∈ e :: rest, cursor < number x := by
        intro x hx
        rcases List.mem_cons.mp hx with rfl | hx
        · omega
        · have := hhead x hx; omega
      have hnone : (e :: rest).filter (fun e => decide (number e ≤ cursor)) = [] :=
        List.filter_eq_nil_iff.mpr fun x hx => by simpa using hbeyond x hx
      have hall : (e :: rest).filter (fun e => decide (cursor < number e)) = e :: rest :=
        List.filter_eq_self.mpr fun x hx => by simpa using hbeyond x hx
      rw [hnone, hall, List.nil_append]

/-- After reading everything past a cursor, the reached cursor covers both parts in order. -/
theorem upTo_reached (log : Log ε) (select : ε → Bool) (cursor : ℕ) :
    log.upTo select (reached cursor (log.after select cursor)) =
      log.upTo select cursor ++ log.after select cursor := by
  have hsorted : (log.entries.filter select).Pairwise (fun a b => number a < number b) :=
    log.increasing.filter _
  have hparts (p : ε → Bool) : log.entries.filter (fun e => select e && p e) =
      (log.entries.filter select).filter p := by
    rw [List.filter_filter]
    exact List.filter_congr fun e _ => Bool.and_comm _ _
  have hafterSorted : (log.after select cursor).Pairwise (fun a b => number a < number b) :=
    log.increasing.filter _
  have hbeyond : ∀ e ∈ log.after select cursor, cursor < number e := by
    intro e he
    simpa using (Bool.and_eq_true_iff.mp (List.mem_filter.mp he).2).2
  obtain ⟨hle, hall⟩ := le_reached hafterSorted hbeyond
  have hcovered : (log.entries.filter select).filter
      (fun e => decide (number e ≤ reached cursor (log.after select cursor))) =
        log.entries.filter select := by
    rw [List.filter_eq_self]
    intro e he
    rw [decide_eq_true_eq]
    by_cases hnum : number e ≤ cursor
    · exact le_trans hnum hle
    · have hsel := (List.mem_filter.mp he).2
      exact hall e (List.mem_filter.mpr ⟨(List.mem_filter.mp he).1, by simp [hsel]; omega⟩)
  rw [upTo, hparts, hcovered, upTo, after, hparts, hparts, filter_split hsorted]

/-- After the reached cursor nothing is left to read. -/
theorem after_reached (log : Log ε) (select : ε → Bool) (cursor : ℕ) :
    log.after select (reached cursor (log.after select cursor)) = [] := by
  have hsorted : (log.after select cursor).Pairwise (fun a b => number a < number b) := log.increasing.filter _
  obtain ⟨hle, hall⟩ := le_reached hsorted fun e he =>
    of_decide_eq_true (Bool.and_eq_true_iff.mp (List.mem_filter.mp he).2).2
  refine List.filter_eq_nil_iff.mpr fun e hmem hselected => ?_
  obtain ⟨hselect, hlate⟩ := Bool.and_eq_true_iff.mp hselected
  have hbeyond : cursor < number e := lt_of_le_of_lt hle (of_decide_eq_true hlate)
  have hread : e ∈ log.after select cursor :=
    List.mem_filter.mpr ⟨hmem, by rw [hselect, decide_eq_true hbeyond]; rfl⟩
  exact absurd (of_decide_eq_true hlate) (Nat.not_lt.mpr (hall e hread))

/-- What a longer log has after a cursor: what the shorter one had, and entries with larger numbers. -/
theorem Extends.after_eq {old new : Log ε} (h : old.Extends new) (select : ε → Bool) (cursor : ℕ) :
    ∃ more, new.after select cursor = old.after select cursor ++ more ∧
      ∀ e ∈ more, e ∈ new.entries ∧ select e = true ∧ old.seq < number e := by
  obtain ⟨added, hentries, hnew, -⟩ := h
  refine ⟨added.filter fun e => select e && decide (cursor < number e), ?_, fun e he => ?_⟩
  · rw [after, hentries, List.filter_append, after]
  · obtain ⟨hmem, hselected⟩ := List.mem_filter.mp he
    exact ⟨hentries ▸ List.mem_append_right _ hmem, (Bool.and_eq_true_iff.mp hselected).1, hnew e hmem⟩

/-- The number reached by reading a log covers a longer log if and only if there is nothing more to read. -/
theorem Extends.covers_iff {old new : Log ε} (h : old.Extends new) (select : ε → Bool) {cursor : ℕ}
    (hcursor : cursor ≤ old.seq) :
    (∀ e ∈ new.entries, select e = true → number e ≤ reached cursor (old.after select cursor)) ↔
      (new.after select cursor).length = (old.after select cursor).length := by
  obtain ⟨more, hafter, hmore⟩ := h.after_eq select cursor
  have hsorted : (old.after select cursor).Pairwise (fun a b => number a < number b) := old.increasing.filter _
  have hbeyond : ∀ e ∈ old.after select cursor, cursor < number e := fun e he =>
    of_decide_eq_true (Bool.and_eq_true_iff.mp (List.mem_filter.mp he).2).2
  obtain ⟨hle, hall⟩ := le_reached hsorted hbeyond
  rw [hafter, List.length_append, Nat.add_eq_left, List.length_eq_zero_iff]
  constructor
  · intro hcovers
    refine List.eq_nil_iff_forall_not_mem.mpr fun e he => ?_
    obtain ⟨hmem, hselected, hlate⟩ := hmore e he
    have hseq : reached cursor (old.after select cursor) ≤ old.seq :=
      reached_le hcursor fun x hx => (old.bounded x (List.mem_filter.mp hx).1).2
    exact absurd (hcovers e hmem hselected) (Nat.not_le.mpr (lt_of_le_of_lt hseq hlate))
  · rintro rfl e hmem hselected
    by_cases hnumber : number e ≤ cursor
    · exact le_trans hnumber hle
    · have hread : e ∈ new.after select cursor :=
        List.mem_filter.mpr ⟨hmem, by rw [hselected, decide_eq_true (Nat.not_le.mp hnumber)]; rfl⟩
      rw [hafter, List.append_nil] at hread
      exact hall e hread

end Log

section Replay

universe u

variable {σ : Type u} {m : Type u → Type*} [Monad m] [LawfulMonad m]

/-- A saved pair is exact: its state is the fold over the selected entries up to its cursor. -/
def Replayed (step : σ → ε → m σ) (init : σ) (select : ε → Bool) (log : Log ε) (state : σ)
    (cursor : ℕ) : Prop :=
  cursor ≤ log.seq ∧ (log.upTo select cursor).foldlM step init = pure state

omit [LawfulMonad m] in
/-- The initial state is exact at cursor zero. -/
theorem Replayed.start (step : σ → ε → m σ) (init : σ) (select : ε → Bool) (log : Log ε) :
    Replayed step init select log init 0 := by
  have hnone : log.upTo select 0 = [] := by
    rw [Log.upTo, List.filter_eq_nil_iff]
    intro e he
    have hpos := (log.bounded e he).1
    simp only [Bool.and_eq_true, decide_eq_true_eq, not_and, not_le]
    exact fun _ => hpos
  exact ⟨Nat.zero_le _, by rw [hnone]; rfl⟩

omit [LawfulMonad m] in
/-- An exact pair stays exact while the log grows. -/
theorem Replayed.of_extends {step : σ → ε → m σ} {init : σ} {select : ε → Bool} {old new : Log ε}
    {state : σ} {cursor : ℕ} (h : Replayed step init select old state cursor)
    (hext : old.Extends new) : Replayed step init select new state cursor := by
  refine ⟨le_trans h.1 hext.choose_spec.2.2, ?_⟩
  rw [hext.upTo_eq select h.1]
  exact h.2

/-- Folding what lies after the cursor of an exact pair gives an exact pair. -/
theorem Replayed.advance {step : σ → ε → m σ} {init : σ} {select : ε → Bool} {log : Log ε}
    {state state' : σ} {cursor : ℕ} (h : Replayed step init select log state cursor)
    (hfold : (log.after select cursor).foldlM step state = pure state') :
    Replayed step init select log state' (Log.reached cursor (log.after select cursor)) := by
  refine ⟨Log.reached_le h.1 fun e he => (log.bounded e (List.mem_filter.mp he).1).2, ?_⟩
  rw [Log.upTo_reached, List.foldlM_append, h.2, pure_bind]
  exact hfold

end Replay

end TPUSwarm.Common
