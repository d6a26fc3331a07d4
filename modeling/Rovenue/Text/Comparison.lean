import Mathlib

/-! Comparators that answer by the sign of an integer, and the order they compute. -/

namespace Rovenue.Text

def Compares {α : Type*} [LT α] (c : ℤ) (x y : α) : Prop :=
  (c < 0 ↔ x < y) ∧ (0 < c ↔ y < x)

section Linear
variable {α : Type*} [LinearOrder α] {c : ℤ} {x y : α}

theorem Compares.eq_zero_iff (h : Compares c x y) : c = 0 ↔ x = y := by
  obtain ⟨hlt, hgt⟩ := h
  constructor
  · intro hc
    have hnlt : ¬x < y := fun hxy => by have := hlt.mpr hxy; omega
    have hngt : ¬y < x := fun hyx => by have := hgt.mpr hyx; omega
    exact le_antisymm (not_lt.mp hngt) (not_lt.mp hnlt)
  · intro hxy
    have hnlt : ¬c < 0 := fun hc => (hlt.mp hc).ne hxy
    have hngt : ¬0 < c := fun hc => (hgt.mp hc).ne hxy.symm
    omega

theorem Compares.nonpos_iff (h : Compares c x y) : c ≤ 0 ↔ x ≤ y := by
  rw [← not_lt, h.2, not_lt]

theorem Compares.nonneg_iff (h : Compares c x y) : 0 ≤ c ↔ y ≤ x := by
  rw [← not_lt, h.1, not_lt]

theorem Compares.refl (x : α) : Compares 0 x x :=
  ⟨iff_of_false (lt_irrefl _) (lt_irrefl _), iff_of_false (lt_irrefl _) (lt_irrefl _)⟩

theorem compares_of_lt (hc : c < 0) (h : x < y) : Compares c x y :=
  ⟨iff_of_true hc h, iff_of_false (by omega) h.asymm⟩

theorem compares_of_gt (hc : 0 < c) (h : y < x) : Compares c x y :=
  ⟨iff_of_false (by omega) h.asymm, iff_of_true hc h⟩

end Linear

def firstDifference (n : ℕ) (comparison : ℕ → ℤ) : ℤ :=
  -- the first of `comparison 0`, …, `comparison (n - 1)` that is not 0, or 0
  (((List.range n).map comparison).find? (· ≠ 0)).getD 0

section FirstDifference
variable {n : ℕ} {comparison : ℕ → ℤ}

theorem firstDifference_cases (n : ℕ) (comparison : ℕ → ℤ) :
    (firstDifference n comparison = 0 ∧ ∀ i < n, comparison i = 0) ∨
      ∃ i < n, firstDifference n comparison = comparison i ∧ comparison i ≠ 0 ∧
        ∀ j < i, comparison j = 0 := by
  unfold firstDifference
  rw [List.find?_map]
  cases hfind : (List.range n).find? ((fun c : ℤ => decide (c ≠ 0)) ∘ comparison) with
  | none =>
    rw [List.find?_eq_none] at hfind
    left
    refine ⟨rfl, fun i hi => ?_⟩
    simpa using hfind i (List.mem_range.mpr hi)
  | some i =>
    rw [List.find?_range_eq_some] at hfind
    obtain ⟨hne, hi, hbefore⟩ := hfind
    right
    refine ⟨i, List.mem_range.mp hi, rfl, by simpa using hne, fun j hj => ?_⟩
    simpa using hbefore j hj

/-- Sequences that agree from `n` on are compared in lexicographic order. -/
theorem compares_firstDifference {α : Type*} [LinearOrder α] {x y : ℕ → α}
    (hbelow : ∀ i < n, Compares (comparison i) (x i) (y i)) (hbeyond : ∀ i, n ≤ i → x i = y i) :
    Compares (firstDifference n comparison) (toLex x) (toLex y) := by
  rcases firstDifference_cases n comparison with ⟨hzero, hall⟩ | ⟨i, hi, hc, hne, hbefore⟩
  · have heq : x = y := by
      funext i
      by_cases hi : i < n
      · exact (hbelow i hi).eq_zero_iff.mp (hall i hi)
      · exact hbeyond i (not_lt.mp hi)
    rw [hzero, heq]
    exact Compares.refl _
  · have hsame : ∀ j < i, x j = y j := fun j hj =>
      (hbelow j (hj.trans hi)).eq_zero_iff.mp (hbefore j hj)
    rw [hc]
    rcases lt_or_gt_of_ne hne with hneg | hpos
    · exact compares_of_lt hneg ⟨i, hsame, (hbelow i hi).1.mp hneg⟩
    · exact compares_of_gt hpos ⟨i, fun j hj => (hsame j hj).symm, (hbelow i hi).2.mp hpos⟩

end FirstDifference
end Rovenue.Text
