import Mathlib.Data.List.MinMax

/-!
# The greatest entry of a list

Where ranks tell the entries of a list apart, its greatest entry is a matter of what is in the
list, not of the order it is in, and can only rise when entries are added.
-/

namespace TPUSwarm.Common

variable {α β : Type*} [LinearOrder β] {f : α → β} {l l' : List α} {m : α}

/-- The entry above all others is the greatest when ranks tell entries apart. -/
theorem argmax_eq_some_of_le (hm : m ∈ l) (hle : ∀ a ∈ l, f a ≤ f m)
    (hinj : ∀ a ∈ l, ∀ b ∈ l, f a = f b → a = b) : l.argmax f = some m := by
  cases hmax : l.argmax f with
  | none =>
    rw [List.argmax_eq_none.mp hmax] at hm
    cases hm
  | some n =>
    have hn : n ∈ l := List.argmax_mem hmax
    have heq : f n = f m := le_antisymm (hle n hn) (List.le_of_mem_argmax hm hmax)
    rw [hinj n hn m hm heq]

/-- The order of a list does not matter to its greatest entry. -/
theorem argmax_perm (hperm : l.Perm l') (hinj : ∀ a ∈ l, ∀ b ∈ l, f a = f b → a = b) :
    l.argmax f = l'.argmax f := by
  cases hmax : l'.argmax f with
  | none =>
    rw [List.argmax_eq_none] at hmax ⊢
    rw [hmax] at hperm
    exact hperm.eq_nil
  | some m =>
    have hm : m ∈ l := hperm.mem_iff.mpr (List.argmax_mem hmax)
    have hle : ∀ a ∈ l, f a ≤ f m := fun a ha => List.le_of_mem_argmax (hperm.mem_iff.mp ha) hmax
    exact argmax_eq_some_of_le hm hle hinj

/-- With more entries the greatest one does not fall. -/
theorem le_argmax_of_subset (hsubset : l ⊆ l') (hmax : l.argmax f = some m) :
    ∃ n, l'.argmax f = some n ∧ f m ≤ f n := by
  have hm : m ∈ l' := hsubset (List.argmax_mem hmax)
  cases hmax' : l'.argmax f with
  | none =>
    rw [List.argmax_eq_none.mp hmax'] at hm
    cases hm
  | some n => exact ⟨n, rfl, List.le_of_mem_argmax hm hmax'⟩

/-- The first entry of the greatest rank. -/
def FirstGreatest (f : α → β) (l : List α) (a : α) : Prop :=
  ∃ before after, l = before ++ a :: after ∧ (∀ b ∈ before, f b < f a) ∧ ∀ b ∈ after, f b ≤ f a

namespace FirstGreatest

variable {a x : α}

/-- The first greatest element is in the list. -/
theorem mem (h : FirstGreatest f l a) : a ∈ l := by
  obtain ⟨before, after, rfl, -, -⟩ := h
  simp

/-- No element is greater. -/
theorem le (h : FirstGreatest f l a) {b : α} (hb : b ∈ l) : f b ≤ f a := by
  obtain ⟨before, after, rfl, hbefore, hafter⟩ := h
  rcases List.mem_append.mp hb with hb | hb
  · exact (hbefore b hb).le
  · rcases List.mem_cons.mp hb with rfl | hb
    · exact le_rfl
    · exact hafter b hb

/-- A later entry that is not above it changes nothing. -/
theorem concat_le (h : FirstGreatest f l a) (hx : f x ≤ f a) : FirstGreatest f (l ++ [x]) a := by
  obtain ⟨before, after, rfl, hbefore, hafter⟩ := h
  refine ⟨before, after ++ [x], by simp, hbefore, ?_⟩
  intro b hb
  rcases List.mem_append.mp hb with hb | hb
  · exact hafter b hb
  · exact List.mem_singleton.mp hb ▸ hx

/-- A later entry above all others takes its place. -/
theorem concat_lt (hx : ∀ b ∈ l, f b < f x) : FirstGreatest f (l ++ [x]) x :=
  ⟨l, [], rfl, hx, by simp⟩

end FirstGreatest

end TPUSwarm.Common
