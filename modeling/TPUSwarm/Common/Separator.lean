import Mathlib.Data.List.Basic

/-!
# Lists joined at a separator

A list that was joined from two parts can be taken apart again at its last separator, when
the part behind it has none. Where both parts may have separators of their own, two
different pairs can join to one list, and then one part extends another.
-/

namespace TPUSwarm.Common.Separator

variable {α : Type*} {a : α} {x x' z z' : List α}

/-- One front part extends the other by a separator, and the back parts make up for it. -/
def Slides (a : α) (x z x' z' : List α) : Prop := ∃ s, x' = x ++ a :: s ∧ z = s ++ a :: z'

/-- Parts that slide join to the same list. -/
theorem Slides.join_eq (h : Slides a x z x' z') : x ++ a :: z = x' ++ a :: z' := by
  obtain ⟨s, rfl, rfl⟩ := h
  simp

/-- Two pairs join to one list only as equal pairs, or because one slides into the other. -/
theorem join_eq_iff : x ++ a :: z = x' ++ a :: z' ↔
    (x = x' ∧ z = z') ∨ Slides a x z x' z' ∨ Slides a x' z' x z := by
  constructor
  · intro h
    rcases List.append_eq_append_iff.mp h with ⟨as, hfront, hback⟩ | ⟨as, hfront, hback⟩
    · rcases List.cons_eq_append_iff.mp hback with ⟨rfl, htail⟩ | ⟨s, rfl, htail⟩
      · exact Or.inl ⟨by simpa using hfront.symm, by simpa using htail.symm⟩
      · exact Or.inr (Or.inl ⟨s, hfront, htail⟩)
    · rcases List.cons_eq_append_iff.mp hback with ⟨rfl, htail⟩ | ⟨s, rfl, htail⟩
      · exact Or.inl ⟨by simpa using hfront, by simpa using htail⟩
      · exact Or.inr (Or.inr ⟨s, hfront, htail⟩)
  · rintro (⟨rfl, rfl⟩ | h | h)
    · rfl
    · exact h.join_eq
    · exact h.join_eq.symm

/-- A list is taken apart at its last separator. -/
theorem join_inj_of_notMem (hz : a ∉ z) (hz' : a ∉ z') (h : x ++ a :: z = x' ++ a :: z') : x = x' ∧ z = z' := by
  rcases join_eq_iff.mp h with hsame | ⟨s, -, hback⟩ | ⟨s, -, hback⟩
  · exact hsame
  · apply absurd _ hz
    rw [hback]
    simp
  · apply absurd _ hz'
    rw [hback]
    simp

end TPUSwarm.Common.Separator
