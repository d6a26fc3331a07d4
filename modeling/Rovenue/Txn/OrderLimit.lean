import Rovenue.Txn.Table

/-! `SELECT … ORDER BY … LIMIT n`: rows with equal keys come in any order. -/

namespace Txn
variable {α β : Type} [LinearOrder β]

def OrderLimit (key : α → β) (n : ℕ) (rows taken : List α) : Prop :=
  -- `taken` is one answer to a query for the first `n` of the rows by `key`
  ∃ order : List α, order.Perm rows ∧ order.Pairwise (fun a b => key a ≤ key b) ∧
    taken = order.take n

namespace OrderLimit
variable {key : α → β} {n : ℕ} {rows taken : List α}

theorem of_not_mem (h : OrderLimit key n rows taken) {r : α} (hr : r ∈ rows) (hout : r ∉ taken) :
    taken.length = n ∧ ∀ a ∈ taken, key a ≤ key r := by
  obtain ⟨order, hperm, hsorted, rfl⟩ := h
  have hsplit : order.take n ++ order.drop n = order := List.take_append_drop n order
  have hdrop : r ∈ order.drop n := by
    have hmem : r ∈ order.take n ++ order.drop n := by
      rw [hsplit]
      exact hperm.symm.subset hr
    exact (List.mem_append.1 hmem).resolve_left hout
  constructor
  · have hlong : n < order.length := by
      by_contra hshort
      rw [List.drop_of_length_le (not_lt.1 hshort)] at hdrop
      simp at hdrop
    rw [List.length_take, min_eq_left hlong.le]
  · rw [← hsplit, List.pairwise_append] at hsorted
    exact fun a ha => hsorted.2.2 a ha r hdrop

theorem sublist_filter_length {p : α → Bool} (h : OrderLimit key n rows taken) :
    (taken.filter p).length ≤ (rows.filter p).length := by
  obtain ⟨order, hperm, -, rfl⟩ := h
  calc ((order.take n).filter p).length ≤ (order.filter p).length :=
        ((List.take_sublist _ _).filter p).length_le
    _ = (rows.filter p).length := (hperm.filter p).length_eq

section Delayed
variable (delayed : α → Bool)

def ahead (key : α → β) (delayed : α → Bool) (rows : List α) (r : α) : List α :=
  rows.filter fun a => delayed a && decide (key a ≤ key r)

/-- With fewer delayed rows ahead than the limit, each answer reaches `r` or
another row that is not delayed. -/
theorem exists_not_delayed (h : OrderLimit key n rows taken) {r : α} (hr : r ∈ rows)
    (hnot : delayed r = false) (hfew : (ahead key delayed rows r).length < n) :
    ∃ a ∈ taken, delayed a = false := by
  by_contra hall
  push Not at hall
  have hdelayed : ∀ a ∈ taken, delayed a = true := fun a ha => by simpa using hall a ha
  have hout : r ∉ taken := fun hmem => by simp [hdelayed r hmem] at hnot
  obtain ⟨hlength, hbefore⟩ := h.of_not_mem hr hout
  have hfull : taken.filter (fun a => delayed a && decide (key a ≤ key r)) = taken :=
    List.filter_eq_self.2 fun a ha => by simp [hdelayed a ha, hbefore a ha]
  have hle := h.sublist_filter_length (p := fun a => delayed a && decide (key a ≤ key r))
  rw [hfull, hlength] at hle
  exact absurd hfew (not_lt.2 hle)

theorem exists_order_delayed_first (key : α → β) (rows : List α) :
    ∃ order : List α, order.Perm rows ∧ order.Pairwise (fun a b => key a ≤ key b) ∧
      order.Pairwise (fun a b => key b ≤ key a → delayed b = true → delayed a = true) := by
  let le : α → α → Bool := fun a b =>
    decide (key a < key b) || (decide (key a = key b) && (delayed a || !delayed b))
  have htrans : ∀ a b c, le a b = true → le b c = true → le a c = true := by
    intro a b c hab hbc
    simp only [le, Bool.or_eq_true, Bool.and_eq_true, decide_eq_true_eq, Bool.not_eq_true'] at *
    rcases hab with hab | ⟨hab, ha⟩ <;> rcases hbc with hbc | ⟨hbc, hb⟩
    · exact .inl (hab.trans hbc)
    · exact .inl (hbc ▸ hab)
    · exact .inl (hab ▸ hbc)
    · refine .inr ⟨hab.trans hbc, ?_⟩
      rcases ha with ha | ha
      · exact .inl ha
      · exact .inr (hb.resolve_left (by simp [ha]))
  have htotal : ∀ a b, (le a b || le b a) = true := by
    intro a b
    rcases lt_trichotomy (key a) (key b) with hlt | heq | hgt
    · simp [le, hlt]
    · cases ha : delayed a <;> cases hb : delayed b <;> simp [le, heq, ha, hb]
    · simp [le, hgt]
  have hsorted := List.pairwise_mergeSort htrans htotal rows
  refine ⟨rows.mergeSort le, List.mergeSort_perm rows le, ?_, ?_⟩
  · refine hsorted.imp fun {a b} hab => ?_
    simp only [le, Bool.or_eq_true, Bool.and_eq_true, decide_eq_true_eq] at hab
    rcases hab with hlt | ⟨heq, -⟩
    · exact hlt.le
    · exact heq.le
  · refine hsorted.imp fun {a b} hab hba hb => ?_
    simp only [le, Bool.or_eq_true, Bool.and_eq_true, decide_eq_true_eq, Bool.not_eq_true'] at hab
    rcases hab with hlt | ⟨-, ha⟩
    · exact absurd hlt (not_lt.2 hba)
    · exact ha.resolve_right (by simp [hb])

/-- With the limit's worth of delayed rows ahead of every other row, some answer
holds delayed rows only. -/
theorem exists_all_delayed
    (hmany : ∀ r ∈ rows, delayed r = false → n ≤ (ahead key delayed rows r).length) :
    ∃ taken, OrderLimit key n rows taken ∧ ∀ a ∈ taken, delayed a = true := by
  obtain ⟨order, hperm, hsorted, hfirst⟩ := exists_order_delayed_first delayed key rows
  refine ⟨order.take n, ⟨order, hperm, hsorted, rfl⟩, fun a ha => ?_⟩
  by_contra hnot
  rw [Bool.not_eq_true] at hnot
  obtain ⟨before, after, hsplit⟩ := List.append_of_mem ha
  have horder : order = before ++ a :: (after ++ order.drop n) := by
    conv_lhs => rw [← List.take_append_drop n order, hsplit]
    simp
  have hshort : before.length < n := by
    have hlen := List.length_take_le n order
    rw [hsplit, List.length_append, List.length_cons] at hlen
    omega
  -- every delayed row that may come before `a` does
  have hahead : (ahead key delayed order a).length ≤ before.length := by
    rw [horder] at hfirst ⊢
    have hafter := (List.pairwise_cons.1 (List.pairwise_append.1 hfirst).2.1).1
    have hnone : (after ++ order.drop n).filter
        (fun x => delayed x && decide (key x ≤ key a)) = [] := by
      refine List.filter_eq_nil_iff.2 fun x hx hxa => ?_
      rw [Bool.and_eq_true, decide_eq_true_eq] at hxa
      simp [hafter x hx hxa.2 hxa.1] at hnot
    rw [ahead, List.filter_append, List.filter_cons_of_neg (by simp [hnot]), hnone,
      List.append_nil]
    exact List.length_filter_le _ _
  have heq : (ahead key delayed order a).length = (ahead key delayed rows a).length :=
    (hperm.filter _).length_eq
  have hmem : a ∈ rows := hperm.subset (List.mem_of_mem_take ha)
  have := hmany a hmem hnot
  omega

end Delayed
end OrderLimit
end Txn
