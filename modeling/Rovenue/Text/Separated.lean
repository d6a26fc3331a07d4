import Mathlib

/-! Texts joined with a separator that they may contain themselves. -/

namespace Rovenue.Text
variable {α : Type*} {s : α} {a b c d : List α}

/-- The two parts `a`, `b` of a joined text divided again further on: a piece of `b` that ends at a
separator has gone over to the first part. -/
def Resplit (s : α) (a b c d : List α) : Prop := ∃ piece, c = a ++ s :: piece ∧ b = piece ++ s :: d

theorem Resplit.mem (h : Resplit s a b c d) : s ∈ c ∧ s ∈ b := by
  obtain ⟨piece, rfl, rfl⟩ := h
  exact ⟨List.mem_append_right _ List.mem_cons_self, List.mem_append_right _ List.mem_cons_self⟩

theorem joined_eq_of_resplit (h : Resplit s a b c d) : a ++ s :: b = c ++ s :: d := by
  obtain ⟨piece, rfl, rfl⟩ := h
  rw [List.append_assoc, List.cons_append]

theorem joined_eq_iff : a ++ s :: b = c ++ s :: d ↔
    (a = c ∧ b = d) ∨ Resplit s a b c d ∨ Resplit s c d a b := by
  constructor
  · intro h
    rcases List.append_eq_append_iff.mp h with ⟨more, rfl, hrest⟩ | ⟨more, rfl, hrest⟩
    · rcases more with _ | ⟨x, piece⟩
      · exact Or.inl ⟨(List.append_nil a).symm, (List.cons.inj hrest).2⟩
      · obtain ⟨rfl, hb⟩ := List.cons.inj hrest
        exact Or.inr (Or.inl ⟨piece, rfl, hb⟩)
    · rcases more with _ | ⟨x, piece⟩
      · exact Or.inl ⟨List.append_nil c, (List.cons.inj hrest).2.symm⟩
      · obtain ⟨rfl, hd⟩ := List.cons.inj hrest
        exact Or.inr (Or.inr ⟨piece, rfl, hd⟩)
  · rintro (⟨rfl, rfl⟩ | h | h)
    · rfl
    · exact joined_eq_of_resplit h
    · exact (joined_eq_of_resplit h).symm

theorem joined_eq_iff_left (ha : s ∉ a) (hc : s ∉ c) :
    a ++ s :: b = c ++ s :: d ↔ a = c ∧ b = d := by
  rw [joined_eq_iff]
  constructor
  · rintro (h | h | h)
    · exact h
    · exact absurd h.mem.1 hc
    · exact absurd h.mem.1 ha
  · exact Or.inl

theorem joined_eq_iff_right (hb : s ∉ b) (hd : s ∉ d) :
    a ++ s :: b = c ++ s :: d ↔ a = c ∧ b = d := by
  rw [joined_eq_iff]
  constructor
  · rintro (h | h | h)
    · exact h
    · exact absurd h.mem.2 hb
    · exact absurd h.mem.2 hd
  · exact Or.inl

end Rovenue.Text
