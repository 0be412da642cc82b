import Mathlib.Data.List.Basic
import Mathlib.Data.List.Nodup

/-!
# Tables with uniqueness constraints

A table is a list of rows of which no two clash. What a clash is belongs to the row type:
an equal primary key, an equal unique column, an equal tuple of a unique index. Insertion
and update check the constraint and fail when it would be broken, so a table that breaks
it cannot be built.
-/

namespace TPUSwarm.Common

/-- Rows that must not stand in one table together. -/
class Constrained (ρ : Type*) where
  clash : ρ → ρ → Prop
  clash_symm : ∀ a b, clash a b → clash b a
  decidableClash : DecidableRel clash

variable {ρ : Type*} [Constrained ρ]

instance : DecidableRel (Constrained.clash (ρ := ρ)) := Constrained.decidableClash

/-- Rows in insertion order, no two of them clashing. -/
structure Table (ρ : Type*) [Constrained ρ] where
  rows : List ρ
  unique : rows.Pairwise (fun a b => ¬ Constrained.clash a b)

namespace Table

open Constrained

/-- A table is its rows. -/
theorem ext_rows {t u : Table ρ} (h : t.rows = u.rows) : t = u := by
  cases t; cases u; cases h; rfl

instance [DecidableEq ρ] : DecidableEq (Table ρ) := fun t u =>
  decidable_of_iff (t.rows = u.rows) ⟨ext_rows, congrArg rows⟩

/-- The table without rows. -/
def empty : Table ρ := ⟨[], List.Pairwise.nil⟩

/-- An empty table has no rows. -/
@[simp] theorem rows_empty : (empty : Table ρ).rows = [] := rfl

/-- Clashing rows of one table are the same row. -/
theorem eq_of_clash (t : Table ρ) {a b : ρ} (ha : a ∈ t.rows) (hb : b ∈ t.rows)
    (h : clash a b) : a = b := by
  have key : ∀ {l : List ρ}, l.Pairwise (fun a b => ¬ clash a b) → a ∈ l → b ∈ l → a = b := by
    intro l hl ha hb
    induction l with
    | nil => cases ha
    | cons x rest ih =>
      obtain ⟨hx, hrest⟩ := List.pairwise_cons.mp hl
      rcases List.mem_cons.mp ha with hax | ha <;> rcases List.mem_cons.mp hb with hbx | hb
      · rw [hax, hbx]
      · exact absurd (hax ▸ h) (hx b hb)
      · exact absurd (hbx ▸ clash_symm _ _ h) (hx a ha)
      · exact ih hrest ha hb
  exact key t.unique ha hb

/-- Append a row, unless it clashes with one that is there. -/
def insert? (t : Table ρ) (r : ρ) : Option (Table ρ) :=
  if h : ∀ x ∈ t.rows, ¬ clash x r then
    some ⟨t.rows ++ [r], List.pairwise_append.mpr
      ⟨t.unique, List.pairwise_singleton _ _, fun x hx y hy => by
        rw [List.mem_singleton.mp hy]; exact h x hx⟩⟩
  else none

/-- A successful insertion appends the row, which clashed with nothing. -/
theorem insert?_eq_some {t u : Table ρ} {r : ρ} (h : t.insert? r = some u) :
    u.rows = t.rows ++ [r] ∧ ∀ x ∈ t.rows, ¬ clash x r := by
  unfold insert? at h
  split at h
  · rename_i hfresh
    exact ⟨by rw [← Option.some.inj h], hfresh⟩
  · contradiction

/-- Insertion of a row that clashes with nothing succeeds. -/
theorem insert?_isSome {t : Table ρ} {r : ρ} (h : ∀ x ∈ t.rows, ¬ clash x r) :
    ∃ u, t.insert? r = some u := by
  unfold insert?
  rw [dif_pos h]
  exact ⟨_, rfl⟩

/-- Rewrite the selected rows in place, unless the result clashes. -/
def update? (t : Table ρ) (select : ρ → Bool) (write : ρ → ρ) : Option (Table ρ) :=
  let rows := t.rows.map (fun r => if select r then write r else r)
  if h : rows.Pairwise (fun a b => ¬ clash a b) then some ⟨rows, h⟩ else none

/-- A successful update rewrites exactly the selected rows. -/
theorem update?_eq_some {t u : Table ρ} {select : ρ → Bool} {write : ρ → ρ}
    (h : t.update? select write = some u) :
    u.rows = t.rows.map (fun r => if select r then write r else r) := by
  unfold update? at h
  dsimp only at h
  split at h
  · rw [← Option.some.inj h]
  · contradiction

/-- Rewriting that makes no rows of the table clash cannot fail. -/
theorem update?_isSome_of_mem (t : Table ρ) (select : ρ → Bool) (write : ρ → ρ)
    (h : ∀ a ∈ t.rows, ∀ b ∈ t.rows,
      clash (if select a then write a else a) (if select b then write b else b) → clash a b) :
    ∃ u, t.update? select write = some u := by
  have hunique : (t.rows.map fun r => if select r then write r else r).Pairwise fun a b => ¬ clash a b :=
    List.pairwise_map.mpr (t.unique.imp_of_mem fun ha hb hab hclash => hab (h _ ha _ hb hclash))
  unfold update?
  dsimp only
  rw [dif_pos hunique]
  exact ⟨_, rfl⟩

/-- Rewriting that keeps every clash as it was cannot fail. -/
theorem update?_isSome (t : Table ρ) (select : ρ → Bool) (write : ρ → ρ)
    (h : ∀ a b, clash (if select a then write a else a) (if select b then write b else b) →
      clash a b) : ∃ u, t.update? select write = some u :=
  t.update?_isSome_of_mem select write fun a _ b _ => h a b

/-- The number of rows an update would rewrite. -/
def rowcount (t : Table ρ) (select : ρ → Bool) : ℕ := t.rows.countP select

omit [Constrained ρ] in
/-- Membership after a rewrite, in terms of the row it came from. -/
theorem mem_rewrite {rows : List ρ} {select : ρ → Bool} {write : ρ → ρ} {r' : ρ} :
    r' ∈ rows.map (fun r => if select r then write r else r) ↔
      ∃ r ∈ rows, r' = if select r then write r else r := by
  rw [List.mem_map]
  exact exists_congr fun r => and_congr_right fun _ => eq_comm

end Table

end TPUSwarm.Common
