import Mathlib

/-! Tables with a primary key: no two rows share one, by construction. -/

namespace Txn

structure Table (K R : Type) where
  entries : List (K × R)
  nodup : (entries.map Prod.fst).Nodup

namespace Table
variable {K R : Type}

def empty : Table K R := ⟨[], List.nodup_nil⟩

variable [DecidableEq K] (t : Table K R) {k k' : K} {r r' : R} {f : R → R}

def get? (k : K) : Option R := (t.entries.find? fun e => e.1 = k).map Prod.snd

def insert (k : K) (r : R) : Table K R :=
  if h : k ∈ t.entries.map Prod.fst then t
  else ⟨t.entries ++ [(k, r)], by
    rw [List.map_append, List.nodup_append]
    refine ⟨t.nodup, by simp, fun a ha b hb => ?_⟩
    rintro rfl
    obtain rfl := List.mem_singleton.1 (by simpa using hb)
    exact h ha⟩

def modify (k : K) (f : R → R) : Table K R where
  entries := t.entries.map fun e => if e.1 = k then (e.1, f e.2) else e
  nodup := by
    have h : (t.entries.map fun e => if e.1 = k then (e.1, f e.2) else e).map Prod.fst =
        t.entries.map Prod.fst := by
      rw [List.map_map]
      exact List.map_congr_left fun e _ => by by_cases he : e.1 = k <;> simp [he]
    rw [h]
    exact t.nodup

def map (f : R → R) : Table K R where
  -- `UPDATE` of every row, by a function that leaves the rows outside the `WHERE` as they are
  entries := t.entries.map fun e => (e.1, f e.2)
  nodup := by
    rw [List.map_map]
    exact t.nodup

def set (k : K) (r : R) : Table K R := (t.insert k r).modify k fun _ => r

def erase (k : K) : Table K R where
  entries := t.entries.filter fun e => e.1 ≠ k
  nodup := t.nodup.sublist (List.filter_sublist.map _)

def select (p : K → R → Bool) : Table K R where
  entries := t.entries.filter fun e => p e.1 e.2
  nodup := t.nodup.sublist (List.filter_sublist.map _)

theorem mem_entries : (k, r) ∈ t.entries ↔ t.get? k = some r := by
  obtain ⟨es, hn⟩ := t
  simp only [get?]
  induction es with
  | nil => simp
  | cons e es ih =>
    obtain ⟨k₁, r₁⟩ := e
    rw [List.map_cons, List.nodup_cons] at hn
    by_cases hk : k₁ = k
    · subst hk
      have : (k₁, r) ∉ es := fun h => hn.1 (List.mem_map.2 ⟨_, h, rfl⟩)
      simp [this, eq_comm]
    · simp [hk, Ne.symm hk, ih hn.2]

theorem get?_eq_none : t.get? k = none ↔ k ∉ t.entries.map Prod.fst := by
  simp only [get?, Option.map_eq_none_iff, List.find?_eq_none, List.mem_map, decide_eq_true_eq]
  exact ⟨fun h ⟨e, he, hk⟩ => h e he hk, fun h e he hk => h ⟨e, he, hk⟩⟩

@[simp] theorem get?_empty : (empty : Table K R).get? k = none := rfl

theorem get?_modify :
    (t.modify k f).get? k' = if k' = k then (t.get? k').map f else t.get? k' := by
  obtain ⟨es, hn⟩ := t
  simp only [get?, modify]
  clear hn
  induction es with
  | nil => simp
  | cons e es ih =>
    obtain ⟨k₁, r₁⟩ := e
    by_cases h₁ : k₁ = k <;> by_cases h₂ : k₁ = k' <;> by_cases h₃ : k' = k <;>
      simp_all

theorem get?_map : (t.map f).get? k = (t.get? k).map f := by
  simp only [get?, map, List.find?_map, Option.map_map]
  rfl

theorem get?_foldl_modify (hf : ∀ r, f (f r) = f r) (ks : List K) :
    (ks.foldl (fun t k => t.modify k f) t).get? k =
      if k ∈ ks then (t.get? k).map f else t.get? k := by
  induction ks generalizing t with
  | nil => simp
  | cons k₁ ks ih =>
    rw [List.foldl_cons, ih, get?_modify]
    by_cases hk : k = k₁
    · subst hk
      have hff : (fun r => f (f r)) = f := funext hf
      by_cases hmem : k ∈ ks <;> simp [hmem, Function.comp_def, hff]
    · by_cases hmem : k ∈ ks <;> simp [hmem, hk]

theorem get?_erase : (t.erase k).get? k' = if k' = k then none else t.get? k' := by
  simp only [get?, erase, List.find?_filter]
  split_ifs with hk
  · subst hk
    simp
  · congr 2
    funext e
    by_cases he : e.1 = k'
    · simp [he, hk]
    · simp [he]

theorem get?_select {p : K → R → Bool} : (t.select p).get? k = (t.get? k).filter (p k) := by
  apply Option.ext
  intro r
  rw [← mem_entries, Option.filter_eq_some_iff, ← mem_entries]
  exact List.mem_filter

def filterMap {S : Type} (f : K → R → Option S) : Table K S where
  -- `SELECT` of some columns, or of an expression that may leave the row out
  entries := t.entries.filterMap fun e => (f e.1 e.2).map fun s => (e.1, s)
  nodup := by
    have hkeys : ((t.entries.filterMap fun e => (f e.1 e.2).map fun s => (e.1, s)).map
        Prod.fst).Sublist (t.entries.map Prod.fst) := by
      generalize t.entries = es
      induction es with
      | nil => exact List.Sublist.slnil
      | cons e es ih =>
        rw [List.map_cons, List.filterMap_cons]
        cases f e.1 e.2 with
        | none => exact ih.cons _
        | some s => exact ih.cons_cons _
    exact t.nodup.sublist hkeys

theorem get?_filterMap {S : Type} {f : K → R → Option S} :
    (t.filterMap f).get? k = (t.get? k).bind (f k) := by
  apply Option.ext
  intro s
  rw [← mem_entries, Option.bind_eq_some_iff]
  simp only [filterMap, List.mem_filterMap, Option.map_eq_some_iff]
  constructor
  · rintro ⟨⟨k', r⟩, hmem, s', hs, he⟩
    cases he
    exact ⟨r, t.mem_entries.1 hmem, hs⟩
  · rintro ⟨r, hr, hs⟩
    exact ⟨(k, r), t.mem_entries.2 hr, s, hs, rfl⟩

theorem get?_insert :
    (t.insert k r).get? k' = if k' = k then some ((t.get? k).getD r) else t.get? k' := by
  by_cases h : k ∈ t.entries.map Prod.fst
  · obtain ⟨⟨k₁, r₁⟩, he, rfl⟩ := List.mem_map.1 h
    have hr := t.mem_entries.1 he
    simp only [insert, h, dite_true, hr, Option.getD_some]
    split_ifs with hk
    · rw [hk, hr]
    · rfl
  · have hr := t.get?_eq_none.2 h
    simp only [insert, h, dite_false, hr, Option.getD_none]
    simp only [get?, Option.map_eq_none_iff] at hr ⊢
    rw [List.find?_append]
    split_ifs with hk
    · rw [hk, hr]; simp
    · simp [Ne.symm hk]

@[simp] theorem get?_set : (t.set k r).get? k' = if k' = k then some r else t.get? k' := by
  rw [set, get?_modify, get?_insert]
  split_ifs <;> rfl

theorem sum_map_ite {M : Type} [AddCommMonoid M] {d : M} (h : t.get? k = some r) :
    (t.entries.map fun e => if e.1 = k then d else 0).sum = d := by
  obtain ⟨es, hn⟩ := t
  have hmem := (mem_entries ⟨es, hn⟩).2 h
  clear h
  induction es with
  | nil => simp at hmem
  | cons e es ih =>
    rw [List.map_cons, List.nodup_cons] at hn
    by_cases hk : e.1 = k
    · have hrest : ∀ x ∈ es, x.1 ≠ k := fun x hx hxk =>
        hn.1 (List.mem_map.2 ⟨x, hx, hxk.trans hk.symm⟩)
      have hzero : (es.map fun x => if x.1 = k then d else 0) = es.map fun _ => 0 :=
        List.map_congr_left fun x hx => if_neg (hrest x hx)
      simp [hk, hzero]
    · have hmem' : (k, r) ∈ es := (List.mem_cons.1 hmem).resolve_left fun he => hk (by rw [← he])
      simpa [hk] using ih hn.2 hmem'

theorem modify_entries_id (h : t.get? k = none) : t.modify k f = t := by
  have hk := t.get?_eq_none.1 h
  obtain ⟨es, hn⟩ := t
  simp only [modify, mk.injEq]
  refine (List.map_congr_left fun e he => ?_).trans (List.map_id es)
  rw [if_neg fun hek => hk (List.mem_map.2 ⟨e, he, hek⟩)]
  rfl

def before (k : K) : List (K × R) := t.entries.takeWhile fun e => e.1 ≠ k

def after (k : K) : List (K × R) := (t.entries.dropWhile fun e => e.1 ≠ k).tail

theorem entries_split (h : t.get? k = some r) : t.entries = t.before k ++ (k, r) :: t.after k := by
  have hmem := t.mem_entries.2 h
  obtain ⟨es, hn⟩ := t
  simp only [before, after]
  clear h
  induction es with
  | nil => simp at hmem
  | cons e es ih =>
    rw [List.map_cons, List.nodup_cons] at hn
    obtain rfl | hmem := List.mem_cons.1 hmem
    · simp
    · have hne : e.1 ≠ k := fun he => hn.1 (List.mem_map.2 ⟨_, hmem, he.symm⟩)
      simpa [hne] using ih hn.2 hmem

theorem before_eq (h : t.get? k = none) : t.before k = t.entries := by
  refine List.takeWhile_eq_self_iff.2 fun e he => ?_
  simpa using fun hk => t.get?_eq_none.1 h (List.mem_map.2 ⟨e, he, hk⟩)

theorem after_eq (h : t.get? k = none) : t.after k = [] := by
  rw [after, List.dropWhile_eq_nil_iff.2 fun e he => ?_, List.tail_nil]
  simpa using fun hk => t.get?_eq_none.1 h (List.mem_map.2 ⟨e, he, hk⟩)

theorem mem_before {e : K × R} (h : e ∈ t.before k) : e ∈ t.entries ∧ e.1 ≠ k :=
  ⟨(List.takeWhile_sublist _).subset h, by simpa using List.mem_takeWhile_imp h⟩

theorem mem_after {e : K × R} (h : e ∈ t.after k) : e ∈ t.entries ∧ e.1 ≠ k := by
  refine ⟨(List.dropWhile_sublist _).subset ((List.tail_sublist _).subset h), fun hk => ?_⟩
  cases hg : t.get? k with
  | none => simp [t.after_eq hg] at h
  | some r =>
    have hn := t.nodup
    rw [t.entries_split hg, List.map_append, List.map_cons, List.nodup_append,
      List.nodup_cons] at hn
    exact hn.2.1.1 (List.mem_map.2 ⟨e, h, hk⟩)

theorem entries_modify (h : t.get? k = some r) :
    (t.modify k f).entries = t.before k ++ (k, f r) :: t.after k := by
  have hid : ∀ es : List (K × R), (∀ e ∈ es, e.1 ≠ k) →
      es.map (fun e => if e.1 = k then (e.1, f e.2) else e) = es := fun es hes =>
    (List.map_congr_left fun e he => if_neg (hes e he)).trans (List.map_id es)
  have hsplit : (t.modify k f).entries =
      (t.before k ++ (k, r) :: t.after k).map fun e => if e.1 = k then (e.1, f e.2) else e :=
    congrArg _ (t.entries_split h)
  rw [hsplit, List.map_append, List.map_cons, if_pos rfl,
    hid _ fun e he => (t.mem_before he).2, hid _ fun e he => (t.mem_after he).2]

theorem entries_insert (h : t.get? k = none) :
    (t.insert k r).entries = t.before k ++ (k, r) :: t.after k := by
  rw [insert, dif_neg (t.get?_eq_none.1 h), t.before_eq h, t.after_eq h]

end Table
end Txn

/-! Sums over the rows of a table, and what each statement does to them. -/

namespace Txn.Table
variable {K R : Type}

/-- `SELECT SUM(f)`; a row outside the `WHERE` counts nothing. -/
def total (t : Table K R) (f : K → R → ℕ) : ℕ := (t.entries.map fun e => f e.1 e.2).sum

variable [DecidableEq K] {t : Table K R} {k : K} {r : R} {f : K → R → ℕ} {g : R → R}

theorem total_split (h : t.get? k = some r) :
    t.total f = ((t.before k).map fun e => f e.1 e.2).sum + f k r +
      ((t.after k).map fun e => f e.1 e.2).sum := by
  rw [total, t.entries_split h, List.map_append, List.map_cons, List.sum_append, List.sum_cons]
  dsimp only
  omega

theorem total_insert (h : t.get? k = none) : (t.insert k r).total f = t.total f + f k r := by
  have hkey : k ∉ t.entries.map Prod.fst := t.get?_eq_none.1 h
  rw [total, insert, dif_neg hkey, List.map_append, List.sum_append]
  simp [total]

theorem total_modify (h : t.get? k = some r) :
    (t.modify k g).total f + f k r = t.total f + f k (g r) := by
  rw [total_split h, total, t.entries_modify h, List.map_append, List.map_cons, List.sum_append,
    List.sum_cons]
  dsimp only
  omega

/-- An `UPDATE` that raises no row's share raises no sum. -/
theorem total_modify_le (h : ∀ r, f k (g r) ≤ f k r) : (t.modify k g).total f ≤ t.total f := by
  cases hr : t.get? k with
  | none => rw [t.modify_entries_id hr]
  | some r =>
    have hsum : (t.modify k g).total f + f k r = t.total f + f k (g r) := total_modify hr
    have hshare := h r
    omega

theorem total_erase (h : t.get? k = some r) : (t.erase k).total f + f k r = t.total f := by
  have hbefore : (t.before k).filter (fun e => e.1 ≠ k) = t.before k :=
    List.filter_eq_self.2 fun e he => by simpa using (t.mem_before he).2
  have hafter : (t.after k).filter (fun e => e.1 ≠ k) = t.after k :=
    List.filter_eq_self.2 fun e he => by simpa using (t.mem_after he).2
  have hentries : (t.erase k).entries = t.before k ++ t.after k := by
    simp only [erase]
    rw [t.entries_split h, List.filter_append, List.filter_cons_of_neg (by simp), hbefore, hafter]
  rw [total_split h, total, hentries, List.map_append, List.sum_append]
  omega

theorem total_erase_le : (t.erase k).total f ≤ t.total f := by
  cases hr : t.get? k with
  | none =>
    have hsame : (t.erase k).entries = t.entries := by
      refine List.filter_eq_self.2 fun e he => ?_
      simpa using fun hk => t.get?_eq_none.1 hr (List.mem_map.2 ⟨e, he, hk⟩)
    rw [total, hsame, total]
  | some r =>
    have hsum : (t.erase k).total f + f k r = t.total f := total_erase hr
    omega

end Txn.Table
