import Mathlib

/-! Integers of fixed width. A result that is out of range is an error, a cast takes it around. -/

namespace Rovenue.Arith

structure IntRange where
  min : ℤ
  max : ℤ

inductive Overflow where
  | overflow
  deriving DecidableEq

abbrev Checked := Except Overflow

theorem bind_eq_ok_iff {α β : Type} {x : Checked α} {f : α → Checked β} {b : β} :
    (x >>= f) = .ok b ↔ ∃ a, x = .ok a ∧ f a = .ok b := by
  constructor
  · intro h
    cases x with
    | error e => cases h
    | ok a => exact ⟨a, rfl, h⟩
  · rintro ⟨a, rfl, h⟩
    exact h

namespace IntRange

def i64 : IntRange := ⟨-2 ^ 63, 2 ^ 63 - 1⟩
def u64 : IntRange := ⟨0, 2 ^ 64 - 1⟩
def u32 : IntRange := ⟨0, 2 ^ 32 - 1⟩

variable (t : IntRange)

def Contains (x : ℤ) : Prop := t.min ≤ x ∧ x ≤ t.max

instance (x : ℤ) : Decidable (t.Contains x) := inferInstanceAs (Decidable (_ ∧ _))

abbrev Value := {x : ℤ // t.Contains x}

def fit (x : ℤ) : Checked ℤ := if t.Contains x then .ok x else .error .overflow

def wrap (x : ℤ) : ℤ := t.min + (x - t.min) % (t.max - t.min + 1)

variable {t} {x y : ℤ}

theorem fit_eq_ok_iff : t.fit x = .ok y ↔ t.Contains x ∧ y = x := by
  unfold fit
  split_ifs with hx
  · rw [Except.ok.injEq, and_iff_right hx, eq_comm]
  · exact iff_of_false nofun fun h => hx h.1

theorem fit_bind_eq_ok_iff {β : Type} {f : ℤ → Checked β} {b : β} :
    (t.fit x >>= f) = .ok b ↔ t.Contains x ∧ f x = .ok b := by
  rw [bind_eq_ok_iff]
  constructor
  · rintro ⟨y, hy, hf⟩
    obtain ⟨hx, rfl⟩ := fit_eq_ok_iff.mp hy
    exact ⟨hx, hf⟩
  · rintro ⟨hx, hf⟩
    exact ⟨x, fit_eq_ok_iff.mpr ⟨hx, rfl⟩, hf⟩

theorem wrap_of_contains (h : t.Contains x) : t.wrap x = x := by
  obtain ⟨hmin, hmax⟩ := h
  unfold wrap
  rw [Int.emod_eq_of_lt (sub_nonneg.mpr hmin) (by omega), add_sub_cancel]

end IntRange
end Rovenue.Arith
