import TPUSwarm.Common.Table

/-!
# Tables up to an erasure

An erasure forgets a part of every row. Two tables are the same up to it if their rows are,
one by one. Where the constraint reads nothing that is erased, a search, an insertion or an
update has the same outcome in both, and leaves tables that are the same again.
-/

namespace TPUSwarm.Common

open Constrained

section Lists

variable {ρ σ : Type*} {erase : ρ → σ} {as bs : List ρ}

/-- Searches in lists that are the same up to an erasure find what is the same up to it. -/
theorem find?_erased (h : as.map erase = bs.map erase) {p : ρ → Bool} (hp : ∀ a b, erase a = erase b → p a = p b) :
    (as.find? p).map erase = (bs.find? p).map erase := by
  induction as generalizing bs with
  | nil =>
    obtain rfl := List.map_eq_nil_iff.mp h.symm
    rfl
  | cons a as ih =>
    obtain ⟨b, bs, rfl, hhead, htail⟩ := List.map_eq_cons_iff.mp h.symm
    rw [List.find?_cons, List.find?_cons, hp a b hhead.symm]
    split
    · rw [Option.map_some, Option.map_some, hhead]
    · exact ih htail.symm

/-- Whether a row is there is the same up to an erasure. -/
theorem any_erased (h : as.map erase = bs.map erase) {p : ρ → Bool} (hp : ∀ a b, erase a = erase b → p a = p b) :
    as.any p = bs.any p := by
  have hsome := congrArg Option.isSome (find?_erased h hp)
  rw [Option.isSome_map, Option.isSome_map, List.isSome_find?, List.isSome_find?] at hsome
  exact hsome

/-- Lists that are rewritten alike stay the same up to the erasure. -/
theorem map_erased (h : as.map erase = bs.map erase) {f g : ρ → ρ}
    (hfg : ∀ a b, erase a = erase b → erase (f a) = erase (g b)) :
    (as.map f).map erase = (bs.map g).map erase := by
  induction as generalizing bs with
  | nil =>
    obtain rfl := List.map_eq_nil_iff.mp h.symm
    rfl
  | cons a as ih =>
    obtain ⟨b, bs, rfl, hhead, htail⟩ := List.map_eq_cons_iff.mp h.symm
    rw [List.map_cons, List.map_cons, List.map_cons, List.map_cons, ih htail.symm, hfg a b hhead.symm]

/-- A relation that reads nothing that is erased holds of the one list as of the other. -/
theorem pairwise_erased (h : as.map erase = bs.map erase) {related : ρ → ρ → Prop}
    (hrelated : ∀ a a' b b', erase a = erase a' → erase b = erase b' → related a b → related a' b')
    (has : as.Pairwise related) : bs.Pairwise related := by
  have herased : (as.map erase).Pairwise fun x y => ∀ a b, erase a = x → erase b = y → related a b :=
    List.pairwise_map.mpr (has.imp fun hab a' b' ha hb => hrelated _ a' _ b' ha.symm hb.symm hab)
  rw [h] at herased
  exact (List.pairwise_map.mp herased).imp fun hab => hab _ _ rfl rfl

end Lists

namespace Table

variable {ρ σ : Type*} [Constrained ρ] {erase : ρ → σ} {t u t' : Table ρ} {r r' : ρ}

/-- The tables are the same up to the erasure. -/
def SameUpTo (erase : ρ → σ) (t u : Table ρ) : Prop := t.rows.map erase = u.rows.map erase

/-- The constraint reads nothing that is erased. -/
def Ignores (erase : ρ → σ) : Prop :=
  ∀ a a' b b' : ρ, erase a = erase a' → erase b = erase b' → clash a b → clash a' b'

/-- A constraint that holds of erased rows as of the rows themselves. -/
theorem Ignores.of_iff {erase : ρ → ρ} (h : ∀ a b, clash (erase a) (erase b) ↔ clash a b) : Ignores erase :=
  fun a a' b b' ha hb hclash => (h a' b').mp (ha ▸ hb ▸ (h a b).mpr hclash)

namespace SameUpTo

/-- A table is the same as itself. -/
theorem refl (t : Table ρ) : SameUpTo erase t t := rfl

/-- Being the same up to an erasure is symmetric. -/
theorem symm (h : SameUpTo erase t u) : SameUpTo erase u t := Eq.symm h

/-- Being the same up to an erasure is transitive. -/
theorem trans (h : SameUpTo erase t u) (h' : SameUpTo erase u t') : SameUpTo erase t t' := Eq.trans h h'

/-- Where a row is inserted into one table, its like is inserted into the other. -/
theorem insert? (hclash : Ignores erase) (h : SameUpTo erase t u) (hrow : erase r = erase r')
    (hinsert : t.insert? r = some t') : ∃ u', u.insert? r' = some u' ∧ SameUpTo erase t' u' := by
  obtain ⟨hrows, hfree⟩ := insert?_eq_some hinsert
  obtain ⟨u', hu'⟩ := insert?_isSome (t := u) (r := r') fun b hb hclashes => by
    have hmem : erase b ∈ t.rows.map erase := h ▸ List.mem_map_of_mem hb
    obtain ⟨a, ha, hsame⟩ := List.mem_map.mp hmem
    exact hfree a ha (hclash _ _ _ _ hsame.symm hrow.symm hclashes)
  refine ⟨u', hu', ?_⟩
  rw [SameUpTo, hrows, (insert?_eq_some hu').1, List.map_append, List.map_append, h, List.map_singleton,
    List.map_singleton, hrow]

/-- Where one table is updated, the other is, with rows that are written alike. -/
theorem update? (hclash : Ignores erase) (h : SameUpTo erase t u) {select : ρ → Bool} {write write' : ρ → ρ}
    (hselect : ∀ a b, erase a = erase b → select a = select b)
    (hwrite : ∀ a b, erase a = erase b → erase (write a) = erase (write' b))
    (hupdate : t.update? select write = some t') :
    ∃ u', u.update? select write' = some u' ∧ SameUpTo erase t' u' := by
  have hrows : (t.rows.map fun r => if select r then write r else r).map erase =
      (u.rows.map fun r => if select r then write' r else r).map erase := by
    refine map_erased h fun a b hab => ?_
    rw [hselect a b hab]
    split
    · exact hwrite a b hab
    · exact hab
  have hunique : (u.rows.map fun r => if select r then write' r else r).Pairwise fun a b => ¬ clash a b := by
    refine pairwise_erased hrows (fun a a' b b' ha hb hfree hclashes => ?_) (update?_eq_some hupdate ▸ t'.unique)
    exact hfree (hclash _ _ _ _ ha.symm hb.symm hclashes)
  refine ⟨⟨_, hunique⟩, dif_pos hunique, ?_⟩
  rw [SameUpTo, update?_eq_some hupdate]
  exact hrows

end SameUpTo

end Table

end TPUSwarm.Common
