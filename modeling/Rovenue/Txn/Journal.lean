import Mathlib

/-! Journals: lists that grow at their end and are cut at their front, a slice of keys at a time. -/

namespace Txn
variable {α β : Type}

/-- Consecutive slices of `n` put together. -/
theorem flatten_slices (l : List α) (n m : ℕ) :
    ((List.range m).map fun i => (l.drop (i * n)).take n).flatten = l.take (m * n) := by
  induction m with
  | zero => simp
  | succ m ih =>
    rw [List.range_succ, List.map_append, List.flatten_append, ih, Nat.succ_mul, List.take_add]
    simp

theorem flatten_slices_all (l : List α) {n : ℕ} (hn : 0 < n) :
    ((List.range ((l.length + n - 1) / n)).map fun i => (l.drop (i * n)).take n).flatten = l := by
  rw [flatten_slices, List.take_of_length_le]
  have hdiv := Nat.div_add_mod (l.length + n - 1) n
  have hmod := Nat.mod_lt (l.length + n - 1) hn
  rw [Nat.mul_comm]
  omega

variable [DecidableEq β] {key : α → β} {l : List α}

theorem filter_drop_slice (hl : (l.map key).Nodup) {a c m : ℕ} (ham : a ≤ m) :
    ((l.drop m).filter fun x => !decide (key x ∈ ((l.drop a).take c).map key)) =
      l.drop (max m (a + c)) := by
  have hin : ∀ x ∈ (l.drop m).take (a + c - m), key x ∈ ((l.drop a).take c).map key := by
    intro x hx
    refine List.mem_map_of_mem ?_
    have hsplit : (l.drop m).take (a + c - m) = ((l.drop a).take c).drop (m - a) := by
      have hcount : c - (m - a) = a + c - m := by omega
      rw [List.drop_take, List.drop_drop, Nat.add_sub_of_le ham, hcount]
    rw [hsplit] at hx
    exact List.mem_of_mem_drop hx
  have hout : ∀ x ∈ l.drop (max m (a + c)), key x ∉ ((l.drop a).take c).map key := by
    intro x hx hmem
    obtain ⟨y, hy, hkey⟩ := List.mem_map.1 hmem
    have hsplit : l = l.take (a + c) ++ l.drop (a + c) := (List.take_append_drop _ _).symm
    rw [hsplit, List.map_append, List.nodup_append] at hl
    refine hl.2.2 (key y) (List.mem_map_of_mem ?_) (key x) (List.mem_map_of_mem ?_) hkey
    · rw [List.take_add]
      exact List.mem_append_right _ hy
    · have hle : a + c ≤ max m (a + c) := le_max_right _ _
      rw [← Nat.add_sub_of_le hle, ← List.drop_drop] at hx
      exact List.mem_of_mem_drop hx
  have hsplit : l.drop m = (l.drop m).take (a + c - m) ++ l.drop (max m (a + c)) := by
    have hdrop : l.drop (max m (a + c)) = (l.drop m).drop (a + c - m) := by
      rw [List.drop_drop]
      congr 1
      omega
    rw [hdrop, List.take_append_drop]
  rw [hsplit, List.filter_append, List.filter_eq_nil_iff.2, List.nil_append, List.filter_eq_self]
  · intro x hx
    simpa using hout x hx
  · intro x hx
    simpa using hin x hx

variable {p q : α → Bool}

theorem filter_suffix_of_pairwise (h : l.Pairwise fun a b => p a = true → p b = true) :
    l.filter p <:+ l := by
  induction l with
  | nil => exact List.suffix_refl _
  | cons a l ih =>
    rw [List.pairwise_cons] at h
    by_cases ha : p a = true
    · rw [List.filter_cons_of_pos ha, List.filter_eq_self.2 fun b hb => h.1 b hb ha]
    · rw [List.filter_cons_of_neg ha]
      exact (ih h.2).trans (List.suffix_cons a l)

theorem filter_prefix_of_pairwise (h : l.Pairwise fun a b => p b = true → p a = true) :
    l.filter p <+: l := by
  induction l with
  | nil => exact List.prefix_refl _
  | cons a l ih =>
    rw [List.pairwise_cons] at h
    by_cases ha : p a = true
    · rw [List.filter_cons_of_pos ha]
      exact List.prefix_cons_inj a |>.2 (ih h.2)
    · rw [List.filter_cons_of_neg ha, List.filter_eq_nil_iff.2 fun b hb hp => ha (h.1 b hb hp)]
      exact List.nil_prefix

theorem filter_infix_of_pairwise (hp : l.Pairwise fun a b => p a = true → p b = true)
    (hq : l.Pairwise fun a b => q b = true → q a = true) :
    (l.filter fun x => p x && q x) <:+: l := by
  have hsplit : (l.filter fun x => p x && q x) = (l.filter p).filter q := by
    rw [List.filter_filter]
    exact List.filter_congr fun x _ => Bool.and_comm _ _
  rw [hsplit]
  have hprefix : (l.filter p).filter q <+: l.filter p :=
    filter_prefix_of_pairwise (hq.sublist List.filter_sublist)
  exact hprefix.isInfix.trans (filter_suffix_of_pairwise hp).isInfix

variable {R : α → α → Prop} {new : List α}

theorem isChain_append_of_last (h : l.IsChain R) (hnew : (l.getLast?.toList ++ new).IsChain R) :
    (l ++ new).IsChain R := by
  rw [List.isChain_append] at hnew ⊢
  refine ⟨h, hnew.2.1, fun x hx y hy => hnew.2.2 x ?_ y hy⟩
  rw [Option.mem_def.1 hx]
  rfl

theorem isChain_snoc {x : α} (h : l.IsChain R) (hx : ∀ y ∈ l.getLast?, R y x) :
    (l ++ [x]).IsChain R := by
  refine List.isChain_append.2 ⟨h, List.isChain_singleton x, fun y hy z hz => ?_⟩
  obtain rfl : x = z := by simpa using hz
  exact hx y hy

end Txn
