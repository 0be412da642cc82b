import Mathlib.Data.List.Infix
import Mathlib.Logic.Function.Basic

/-!
# Greedy selection with one counter for each class

Items are scanned in ranking order. An item is taken unless its class is full for it, and
the scan stops when there is no room left. If a class stays full once it is full, and is
full for every item ranked below one it is full for, then the selection takes a prefix of
each class, and whatever is left over while there is room is left over because of its own
class alone.
-/

namespace TPUSwarm.Common

variable {α κ : Type*} [DecidableEq κ]

/-- The items a scan takes: `full a n` says that the class of `a` has no place for it when `n` items
of the class are counted. -/
def greedy (cls : α → κ) (full : α → ℕ → Bool) : ℕ → (κ → ℕ) → List α → List α
  | _, _, [] => []
  | 0, _, _ :: _ => []
  | room + 1, count, a :: rest =>
    if full a (count (cls a)) then greedy cls full (room + 1) count rest
    else a :: greedy cls full room (Function.update count (cls a) (count (cls a) + 1)) rest

namespace Greedy

variable {cls : α → κ} {full : α → ℕ → Bool}

/-- Nothing is taken without room. -/
@[simp] theorem zero (count : κ → ℕ) (items : List α) : greedy cls full 0 count items = [] := by
  cases items <;> rfl

/-- An element whose class is full is skipped. -/
theorem cons_full {room : ℕ} {count : κ → ℕ} {a : α} {rest : List α} (h : full a (count (cls a)) = true) :
    greedy cls full room count (a :: rest) = greedy cls full room count rest := by
  cases room with
  | zero => rw [zero, zero]
  | succ room => rw [greedy, if_pos h]

/-- An element whose class has room is taken. -/
theorem cons_free {room : ℕ} {count : κ → ℕ} {a : α} {rest : List α} (h : ¬ full a (count (cls a)) = true) :
    greedy cls full (room + 1) count (a :: rest) =
      a :: greedy cls full room (Function.update count (cls a) (count (cls a) + 1)) rest := by
  rw [greedy, if_neg h]

/-- The items come in the order of the scan. -/
theorem sublist (room : ℕ) (count : κ → ℕ) (items : List α) :
    (greedy cls full room count items).Sublist items := by
  induction items generalizing room count with
  | nil => cases room <;> exact List.Sublist.refl _
  | cons a rest ih =>
    by_cases hfull : full a (count (cls a)) = true
    · rw [cons_full hfull]
      exact (ih _ _).cons _
    · cases room with
      | zero => exact List.nil_sublist _
      | succ room =>
        rw [cons_free hfull]
        exact (ih _ _).cons_cons _

/-- No more items are taken than there is room for. -/
theorem length_le (room : ℕ) (count : κ → ℕ) (items : List α) :
    (greedy cls full room count items).length ≤ room := by
  induction items generalizing room count with
  | nil => cases room <;> exact Nat.zero_le _
  | cons a rest ih =>
    by_cases hfull : full a (count (cls a)) = true
    · rw [cons_full hfull]
      exact ih _ _
    · cases room with
      | zero => exact Nat.zero_le _
      | succ room =>
        rw [cons_free hfull]
        exact Nat.succ_le_succ (ih _ _)

/-- The number of items of a class after some were taken. -/
def countAfter (cls : α → κ) (count : κ → ℕ) (taken : List α) (k : κ) : ℕ :=
  count k + taken.countP fun a => cls a = k

/-- Nothing taken counts nothing. -/
@[simp] theorem countAfter_nil (count : κ → ℕ) : countAfter cls count [] = count := by
  funext k
  simp [countAfter]

/-- Taking an element first counts it first. -/
theorem countAfter_cons (count : κ → ℕ) (a : α) (taken : List α) :
    countAfter cls count (a :: taken) =
      countAfter cls (Function.update count (cls a) (count (cls a) + 1)) taken := by
  funext k
  unfold countAfter
  by_cases hk : cls a = k
  · subst hk
    simp only [List.countP_cons, decide_true, if_true, Function.update_self]
    omega
  · simp only [List.countP_cons, hk, decide_false, Bool.false_eq_true, if_false,
      Function.update_of_ne (Ne.symm hk), Nat.add_zero]

/-- What is taken only adds to the counts. -/
theorem le_countAfter (count : κ → ℕ) (taken : List α) (k : κ) : count k ≤ countAfter cls count taken k :=
  Nat.le_add_right _ _

/-- While there is room left, an item is passed over only because its class is full for it. -/
theorem full_of_room (hmono : ∀ a n m, n ≤ m → full a n = true → full a m = true)
    {room : ℕ} {count : κ → ℕ} {items : List α}
    (hroom : (greedy cls full room count items).length < room) {a : α} (ha : a ∈ items) :
    a ∈ greedy cls full room count items ∨
      full a (countAfter cls count (greedy cls full room count items) (cls a)) = true := by
  induction items generalizing room count with
  | nil => cases ha
  | cons b rest ih =>
    by_cases hfull : full b (count (cls b)) = true
    · rw [cons_full hfull] at hroom ⊢
      rcases List.mem_cons.mp ha with rfl | ha
      · exact Or.inr (hmono _ _ _ (le_countAfter _ _ _) hfull)
      · exact ih hroom ha
    · cases room with
      | zero => exact absurd hroom (Nat.not_lt_zero _)
      | succ room =>
        rw [cons_free hfull] at hroom ⊢
        rcases List.mem_cons.mp ha with rfl | ha
        · exact Or.inl List.mem_cons_self
        · rw [countAfter_cons]
          exact (ih (Nat.lt_of_succ_lt_succ hroom) ha).imp_left (List.mem_cons_of_mem _)

/-- A class that is full for all its items gives none. -/
theorem filter_eq_nil {room : ℕ} {count : κ → ℕ} {items : List α} {k : κ}
    (hfull : ∀ a ∈ items, cls a = k → full a (count k) = true) :
    (greedy cls full room count items).filter (fun a => cls a = k) = [] := by
  induction items generalizing room count with
  | nil => cases room <;> rfl
  | cons b rest ih =>
    by_cases hb : full b (count (cls b)) = true
    · rw [cons_full hb]
      exact ih fun a ha => hfull a (List.mem_cons_of_mem _ ha)
    · cases room with
      | zero => rfl
      | succ room =>
        have hne : cls b ≠ k := fun hk => hb (hk ▸ hfull b List.mem_cons_self hk)
        rw [cons_free hb, List.filter_cons_of_neg (by simpa using hne)]
        refine ih fun a ha hk => ?_
        rw [Function.update_of_ne hne.symm]
        exact hfull a (List.mem_cons_of_mem _ ha) hk

/-- Each class gives a prefix of its items. -/
theorem filter_prefix {items : List α}
    (hranked : items.Pairwise fun a b => cls a = cls b → ∀ n, full a n = true → full b n = true)
    (room : ℕ) (count : κ → ℕ) (k : κ) :
    (greedy cls full room count items).filter (fun a => cls a = k) <+: items.filter fun a => cls a = k := by
  induction items generalizing room count with
  | nil => cases room <;> exact List.prefix_refl _
  | cons b rest ih =>
    obtain ⟨hfirst, hrest⟩ := List.pairwise_cons.mp hranked
    by_cases hb : full b (count (cls b)) = true
    · rw [cons_full hb]
      by_cases hk : cls b = k
      · subst hk
        -- The class is full for `b`, hence for everything ranked below it.
        rw [filter_eq_nil fun a ha hsame => hfirst a ha hsame.symm _ hb]
        exact List.nil_prefix
      · rw [List.filter_cons_of_neg (by simpa using hk)]
        exact ih hrest _ _
    · cases room with
      | zero =>
        rw [zero]
        exact List.nil_prefix
      | succ room =>
        rw [cons_free hb]
        by_cases hk : cls b = k
        · rw [List.filter_cons_of_pos (by simpa using hk), List.filter_cons_of_pos (by simpa using hk)]
          exact List.prefix_cons_inj b |>.mpr (ih hrest _ _)
        · rw [List.filter_cons_of_neg (by simpa using hk), List.filter_cons_of_neg (by simpa using hk)]
          exact ih hrest _ _

end Greedy

end TPUSwarm.Common
