import Mathlib

/-! A line cut into consecutive stretches of given lengths, and the unit cells
that each stretch takes: a cell goes to the stretch that its midpoint lies in. -/

namespace Partition
variable {K : Type} [Field K] [LinearOrder K] [IsStrictOrderedRing K] [FloorRing K]

def start (lengths : List K) (i : ℕ) : K := (lengths.take i).sum

def cut (lengths : List K) (i : ℕ) : ℤ := ⌊start lengths i + 1 / 2⌋

def firstOver (round : K → ℤ) (cell : ℤ) : K → List K → Option ℕ
  -- the first stretch that ends above a cell, its end rounded by `round`
  | _, [] => none
  | from', length :: lengths =>
    if cell < round (from' + length) then some 0
    else (firstOver round cell (from' + length) lengths).map (· + 1)

variable {lengths : List K} {i j : ℕ}

omit [LinearOrder K] [IsStrictOrderedRing K] [FloorRing K] in
@[simp] theorem start_zero : start lengths 0 = 0 := by simp [start]

omit [LinearOrder K] [IsStrictOrderedRing K] [FloorRing K] in
theorem start_length : start lengths lengths.length = lengths.sum := by simp [start]

omit [LinearOrder K] [IsStrictOrderedRing K] [FloorRing K] in
theorem start_cons (length : K) (lengths : List K) (i : ℕ) :
    start (length :: lengths) (i + 1) = length + start lengths i := by simp [start]

omit [LinearOrder K] [IsStrictOrderedRing K] [FloorRing K] in
theorem start_succ {length : K} (h : lengths[i]? = some length) :
    start lengths (i + 1) = start lengths i + length := by
  obtain ⟨hi, hlength⟩ := List.getElem?_eq_some_iff.1 h
  rw [start, start, List.take_succ_eq_append_getElem hi, List.sum_append, hlength]
  simp

omit [FloorRing K] in
theorem start_mono (hnonneg : ∀ length ∈ lengths, 0 ≤ length) (h : i ≤ j) :
    start lengths i ≤ start lengths j := by
  have hsplit : lengths.take j = lengths.take i ++ (lengths.take j).drop i := by
    conv_lhs => rw [← List.take_append_drop i (lengths.take j), List.take_take, min_eq_left h]
  have hrest : 0 ≤ ((lengths.take j).drop i).sum := List.sum_nonneg fun length hmem =>
    hnonneg length ((List.take_sublist j lengths).subset ((List.drop_sublist _ _).subset hmem))
  rw [start, start, hsplit, List.sum_append]
  linarith

theorem cut_zero : cut lengths 0 = 0 := by
  have hhalf : ⌊(1 / 2 : K)⌋ = 0 := by
    rw [Int.floor_eq_zero_iff]
    constructor <;> norm_num
  rw [cut, start_zero, zero_add, hhalf]

theorem cut_mono (hnonneg : ∀ length ∈ lengths, 0 ≤ length) (h : i ≤ j) :
    cut lengths i ≤ cut lengths j :=
  Int.floor_le_floor (by linarith [start_mono hnonneg h])

theorem lt_cut_iff {cell : ℤ} : cell < cut lengths i ↔ (cell : K) + 1 / 2 ≤ start lengths i := by
  rw [cut, Int.lt_iff_add_one_le, Int.le_floor]
  push_cast
  constructor <;> intro h <;> linarith

theorem cut_le_iff {cell : ℤ} : cut lengths i ≤ cell ↔ start lengths i < (cell : K) + 1 / 2 := by
  rw [← not_lt, lt_cut_iff, not_le]

theorem abs_cut_sub_le {length : K} (h : lengths[i]? = some length) :
    |((cut lengths (i + 1) - cut lengths i : ℤ) : K) - length| ≤ 1 := by
  have hend : start lengths (i + 1) = start lengths i + length := start_succ h
  have hlow := Int.floor_le (start lengths i + 1 / 2)
  have hhigh := Int.lt_floor_add_one (start lengths i + 1 / 2)
  have hlow' := Int.floor_le (start lengths (i + 1) + 1 / 2)
  have hhigh' := Int.lt_floor_add_one (start lengths (i + 1) + 1 / 2)
  rw [abs_le, cut, cut]
  push_cast
  constructor <;> linarith

theorem exists_midpoint {low high : K} (h : low + 1 ≤ high) :
    ∃ cell : ℤ, low < (cell : K) + 1 / 2 ∧ (cell : K) + 1 / 2 ≤ high := by
  have hfloor := Int.floor_le (low + 1 / 2)
  have hnext := Int.lt_floor_add_one (low + 1 / 2)
  exact ⟨⌊low + 1 / 2⌋, by linarith, by linarith⟩

omit [LinearOrder K] [IsStrictOrderedRing K] [FloorRing K] in
theorem firstOver_eq_some_iff {round : K → ℤ} {cell : ℤ} {from' : K} :
    firstOver round cell from' lengths = some i ↔
      i < lengths.length ∧ cell < round (from' + start lengths (i + 1)) ∧
        ∀ j < i, round (from' + start lengths (j + 1)) ≤ cell := by
  induction lengths generalizing from' i with
  | nil => simp [firstOver]
  | cons length lengths ih =>
    have hnext : ∀ j, from' + start (length :: lengths) (j + 1) =
        from' + length + start lengths j := fun j => by rw [start_cons, add_assoc]
    rw [firstOver]
    by_cases hcell : cell < round (from' + length)
    · rw [if_pos hcell]
      cases i with
      | zero => simp [hnext, hcell]
      | succ i =>
        have hnot : ¬∀ j < i + 1, round (from' + start (length :: lengths) (j + 1)) ≤ cell := by
          intro h
          have hfirst := h 0 (Nat.succ_pos i)
          rw [hnext, start_zero, add_zero] at hfirst
          exact absurd hcell hfirst.not_gt
        exact iff_of_false (by simp) fun h => hnot h.2.2
    · rw [if_neg hcell]
      cases i with
      | zero => simp [hnext, hcell]
      | succ i =>
        have hstep : (firstOver round cell (from' + length) lengths).map (· + 1) = some (i + 1) ↔
            firstOver round cell (from' + length) lengths = some i := by simp
        rw [hstep, ih, hnext, List.length_cons, Nat.succ_lt_succ_iff]
        refine and_congr_right fun _ => and_congr_right fun _ => ⟨fun h j hj => ?_, fun h j hj => ?_⟩
        · rw [hnext]
          cases j with
          | zero => simpa using not_lt.1 hcell
          | succ j => exact h j (Nat.lt_of_succ_lt_succ hj)
        · have hj' := h (j + 1) (Nat.succ_lt_succ hj)
          rwa [hnext] at hj'

theorem firstOver_iff_cuts (hnonneg : ∀ length ∈ lengths, 0 ≤ length) {round : K → ℤ}
    (hround : ∀ x, 0 ≤ x → round x = ⌊x + 1 / 2⌋) {cell : ℤ} (hcell : 0 ≤ cell) :
    firstOver round cell 0 lengths = some i ↔
      i < lengths.length ∧ cut lengths i ≤ cell ∧ cell < cut lengths (i + 1) := by
  have hcut : ∀ j, round (0 + start lengths j) = cut lengths j := fun j => by
    have hstart := start_mono hnonneg (Nat.zero_le j)
    rw [start_zero] at hstart
    rw [zero_add, hround _ hstart, cut]
  rw [firstOver_eq_some_iff]
  simp only [hcut]
  refine and_congr_right fun _ => ⟨fun ⟨habove, hbelow⟩ => ⟨?_, habove⟩, fun ⟨hlow, habove⟩ =>
    ⟨habove, fun j hj => (cut_mono hnonneg hj).trans hlow⟩⟩
  cases i with
  | zero => rwa [cut_zero]
  | succ i => exact hbelow i (Nat.lt_succ_self i)

theorem exists_cuts {cell : ℤ} (hlow : 0 ≤ cell) (hhigh : cell < cut lengths lengths.length) :
    ∃ i < lengths.length, cut lengths i ≤ cell ∧ cell < cut lengths (i + 1) := by
  classical
  have hex : ∃ i, cell < cut lengths i := ⟨lengths.length, hhigh⟩
  have hfound := Nat.find_spec hex
  have hle := Nat.find_min' hex hhigh
  rcases hi : Nat.find hex with _ | i
  · rw [hi, cut_zero] at hfound
    exact absurd hfound hlow.not_gt
  · rw [hi] at hfound hle
    have hbefore : ¬cell < cut lengths i := Nat.find_min hex (by omega)
    exact ⟨i, hle, not_lt.1 hbefore, hfound⟩

end Partition
