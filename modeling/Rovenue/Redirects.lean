import Mathlib

/-! Rows that point at the row they were folded into. A row that points nowhere is a root;
folding one root into another lengthens the chains that ended there by one hop. -/

namespace Redirects
variable {I : Type} {next next' : I → Option I} {a b r r' x y : I} {m n : ℕ}

/-- From `a` the redirects lead, in so many hops, to the root `r`. -/
inductive Leads (next : I → Option I) : I → ℕ → I → Prop where
  | root {r : I} (h : next r = none) : Leads next r 0 r
  | hop {a b r : I} {n : ℕ} (h : next a = some b) (rest : Leads next b n r) : Leads next a (n + 1) r

namespace Leads

theorem eq_of_root (h : Leads next a n r) (ha : next a = none) : r = a ∧ n = 0 := by
  cases h with
  | root h => exact ⟨rfl, rfl⟩
  | hop h rest =>
    rw [ha] at h
    cases h

theorem congr (h : Leads next a n r) (heq : ∀ b, next' b = next b) : Leads next' a n r := by
  induction h with
  | root h => exact .root ((heq _).trans h)
  | hop h rest ih => exact .hop ((heq _).trans h) ih

variable [DecidableEq I] (hx : next x = none) (hy : next y = none) (hxy : x ≠ y)
  (hnext : ∀ b, next' b = if b = x then some y else next b)

include hx hnext

theorem fold_of_ne (h : Leads next a n r) (hr : r ≠ x) : Leads next' a n r := by
  induction h with
  | root h => exact .root (by rw [hnext, if_neg hr, h])
  | hop h rest ih =>
    refine .hop ?_ (ih hr)
    rw [hnext, if_neg, h]
    rintro rfl
    rw [hx] at h
    cases h

include hy hxy

theorem fold (h : Leads next a n x) : Leads next' a (n + 1) y := by
  have hroot : Leads next' y 0 y := .root (by rw [hnext, if_neg (Ne.symm hxy), hy])
  have hfolded : Leads next' x 1 y := .hop (by rw [hnext, if_pos rfl]) hroot
  generalize hr : x = r at h
  induction h with
  | root h =>
    subst hr
    exact hfolded
  | hop h rest ih =>
    refine .hop ?_ (ih hr)
    rw [hnext, if_neg, h]
    rintro rfl
    rw [hx] at h
    cases h

end Leads

def passOn [DecidableEq I] (owner : I → I) (x y a : I) : I := if owner a = x then y else owner a

theorem Leads.passOn [DecidableEq I] {owner : I → I} (hx : next x = none) (hy : next y = none)
    (hxy : x ≠ y) (hnext : ∀ b, next' b = if b = x then some y else next b)
    (h : Leads next a n (owner a)) : ∃ m, Leads next' a m (Redirects.passOn owner x y a) := by
  rw [Redirects.passOn]
  split_ifs with howner
  · rw [howner] at h
    exact ⟨n + 1, h.fold hx hy hxy hnext⟩
  · exact ⟨n, h.fold_of_ne hx hnext howner⟩

end Redirects
