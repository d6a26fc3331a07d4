import Rovenue.Txn.Table

/-! Queues in a table with an `AUTOINCREMENT` key: rows are appended under ids that
are never used again, read oldest first, and deleted by id. -/

namespace Queues
variable {R : Type}

structure Fifo (R : Type) where
  rows : List (ℕ × R)
  next : ℕ
  sorted : rows.Pairwise fun e f => e.1 < f.1
  below : ∀ e ∈ rows, e.1 < next

namespace Fifo
variable (q : Fifo R)

def empty : Fifo R := ⟨[], 1, List.Pairwise.nil, fun _ h => absurd h List.not_mem_nil⟩

def push (r : R) : Fifo R where
  rows := q.rows ++ [(q.next, r)]
  next := q.next + 1
  sorted := by
    rw [List.pairwise_append]
    refine ⟨q.sorted, List.pairwise_singleton .., fun e he f hf => ?_⟩
    rw [List.mem_singleton] at hf
    rw [hf]
    exact q.below e he
  below := by
    intro e he
    rcases List.mem_append.1 he with he | he
    · exact Nat.lt_succ_of_lt (q.below e he)
    · rw [List.mem_singleton] at he
      rw [he]
      exact Nat.lt_succ_self _

def ofSublist (rows : List (ℕ × R)) (h : rows.Sublist q.rows) : Fifo R where
  rows := rows
  next := q.next
  sorted := q.sorted.sublist h
  below e he := q.below e (h.subset he)

/-- `DELETE … WHERE id NOT IN (SELECT id … ORDER BY id DESC LIMIT cap)`. -/
def trim (cap : ℕ) : Fifo R := q.ofSublist (q.rows.drop (q.rows.length - cap)) (List.drop_sublist _ _)

def remove (ids : List ℕ) : Fifo R :=
  q.ofSublist (q.rows.filter fun e => e.1 ∉ ids) List.filter_sublist

def clear : Fifo R := q.ofSublist [] (List.nil_sublist _)

def oldest (n : ℕ) : List (ℕ × R) := q.rows.take n

variable {q} {r : R} {e : ℕ × R} {ids : List ℕ} {n cap : ℕ}

@[simp] theorem rows_push : (q.push r).rows = q.rows ++ [(q.next, r)] := rfl

@[simp] theorem rows_trim : (q.trim cap).rows = q.rows.drop (q.rows.length - cap) := rfl

@[simp] theorem rows_remove : (q.remove ids).rows = q.rows.filter fun e => e.1 ∉ ids := rfl

@[simp] theorem rows_clear : q.clear.rows = [] := rfl

theorem mem_push : e ∈ (q.push r).rows ↔ e ∈ q.rows ∨ e = (q.next, r) := by simp

theorem mem_trim (h : e ∈ (q.trim cap).rows) : e ∈ q.rows := List.mem_of_mem_drop h

theorem mem_remove : e ∈ (q.remove ids).rows ↔ e ∈ q.rows ∧ e.1 ∉ ids := by simp

theorem mem_oldest (h : e ∈ q.oldest n) : e ∈ q.rows := List.mem_of_mem_take h

theorem head_oldest {e : ℕ × R} (h : (q.oldest 1).head? = some e) :
    e ∈ q.rows ∧ ∀ f ∈ q.rows, e.1 ≤ f.1 := by
  obtain ⟨rows, next, sorted, below⟩ := q
  cases rows with
  | nil => cases h
  | cons a rows =>
    obtain rfl : a = e := Option.some.inj h
    refine ⟨List.mem_cons_self .., fun f hf => ?_⟩
    rcases List.mem_cons.1 hf with rfl | hf
    · exact le_rfl
    · exact (List.rel_of_pairwise_cons sorted hf).le

theorem rows_eq_nil (h : (q.oldest 1).head? = none) : q.rows = [] := by
  obtain ⟨rows, next, sorted, below⟩ := q
  cases rows with
  | nil => rfl
  | cons a rows => cases h

theorem mem_take_of_dropped (hcap : 0 < cap) (h : e ∈ q.rows)
    (hgone : e ∉ ((q.push r).trim cap).rows) : e ∈ q.rows.take (q.rows.length + 1 - cap) := by
  rw [rows_trim, rows_push, List.length_append, List.length_singleton] at hgone
  have hmem : e ∈ q.rows ++ [(q.next, r)] := List.mem_append_left _ h
  rw [← List.take_append_drop (q.rows.length + 1 - cap) (q.rows ++ [(q.next, r)])] at hmem
  have htake := (List.mem_append.1 hmem).resolve_right hgone
  rwa [List.take_append_of_le_length (by omega)] at htake

theorem eq_of_id {f : ℕ × R} (he : e ∈ q.rows) (hf : f ∈ q.rows) (hid : e.1 = f.1) : e = f := by
  have hnodup : (q.rows.map Prod.fst).Nodup :=
    (List.pairwise_map.2 (q.sorted.imp fun hlt => hlt)).imp fun hlt => ne_of_lt hlt
  exact List.inj_on_of_nodup_map hnodup he hf hid

structure Follows (q q' : Fifo R) : Prop where
  next : q.next ≤ q'.next
  rows : ∀ e ∈ q'.rows, e.1 < q.next → e ∈ q.rows

namespace Follows
variable {q q' q'' : Fifo R}

theorem refl (q : Fifo R) : q.Follows q := ⟨le_rfl, fun _ h _ => h⟩

theorem trans (h : q.Follows q') (h' : q'.Follows q'') : q.Follows q'' where
  next := h.next.trans h'.next
  rows e he hlt := h.rows e (h'.rows e he (hlt.trans_le h.next)) hlt

theorem push (q : Fifo R) (r : R) : q.Follows (q.push r) where
  next := Nat.le_succ _
  rows e he hlt := by
    rcases mem_push.1 he with he | rfl
    · exact he
    · exact absurd hlt (Nat.lt_irrefl _)

theorem ofSublist (q : Fifo R) {rows : List (ℕ × R)} (h : rows.Sublist q.rows) :
    q.Follows (q.ofSublist rows h) := ⟨le_rfl, fun _ he _ => h.subset he⟩

end Follows

end Fifo
end Queues
