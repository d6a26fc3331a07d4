import Rovenue.Txn.Table

/-! Appending a row unless one that matches it is there: what a read before an
insert makes of a sequence of candidates. -/

namespace Txn
variable {R L : Type}

def insertUnless (covers : R → R → Bool) (rows : List R) (c : R) : List R :=
  if rows.any fun r => covers r c then rows else rows ++ [c]

def insertAll (covers : R → R → Bool) (rows cs : List R) : List R :=
  cs.foldl (insertUnless covers) rows

variable {covers : R → R → Bool} {rows cs : List R} {c : R}

theorem insertUnless_of_covered (h : ∃ r ∈ rows, covers r c = true) :
    insertUnless covers rows c = rows := if_pos (List.any_eq_true.2 h)

theorem insertUnless_of_not (h : ∀ r ∈ rows, covers r c = false) :
    insertUnless covers rows c = rows ++ [c] := by
  refine if_neg ?_
  rw [List.any_eq_true]
  rintro ⟨r, hr, hcov⟩
  simp [h r hr] at hcov

@[simp] theorem insertAll_nil : insertAll covers rows [] = rows := rfl

@[simp] theorem insertAll_cons :
    insertAll covers rows (c :: cs) = insertAll covers (insertUnless covers rows c) cs := rfl

/-- The rows are kept in place; what is added are candidates that nothing before
them covered. -/
theorem insertAll_spec (covers : R → R → Bool) (rows cs : List R) :
    ∃ new, insertAll covers rows cs = rows ++ new ∧ new.Sublist cs ∧
      (∀ r ∈ rows, ∀ c ∈ new, covers r c = false) ∧
      new.Pairwise fun a b => covers a b = false := by
  induction cs generalizing rows with
  | nil => exact ⟨[], by simp⟩
  | cons c cs ih =>
    rw [insertAll_cons]
    by_cases hcov : ∃ r ∈ rows, covers r c = true
    · rw [insertUnless_of_covered hcov]
      obtain ⟨new, heq, hsub, hrows, hpair⟩ := ih rows
      exact ⟨new, heq, hsub.cons c, hrows, hpair⟩
    · push Not at hcov
      have hfree : ∀ r ∈ rows, covers r c = false := fun r hr => by simpa using hcov r hr
      rw [insertUnless_of_not hfree]
      obtain ⟨new, heq, hsub, hrows, hpair⟩ := ih (rows ++ [c])
      refine ⟨c :: new, by rw [heq]; simp, hsub.cons_cons c, ?_, ?_⟩
      · intro r hr a ha
        rcases List.mem_cons.1 ha with rfl | ha
        · exact hfree r hr
        · exact hrows r (by simp [hr]) a ha
      · exact List.pairwise_cons.2 ⟨fun a ha => hrows c (by simp) a ha, hpair⟩

theorem insertUnless_subset : ∀ r ∈ rows, r ∈ insertUnless covers rows c := by
  intro r hr
  rw [insertUnless]
  split_ifs
  · exact hr
  · exact List.mem_append_left _ hr

theorem insertAll_subset : ∀ r ∈ rows, r ∈ insertAll covers rows cs := by
  obtain ⟨new, heq, -⟩ := insertAll_spec covers rows cs
  rw [heq]
  exact fun r hr => List.mem_append_left _ hr

theorem exists_covers_of_mem (rows : List R) (hrefl : ∀ c, covers c c = true) (hc : c ∈ cs) :
    ∃ r ∈ insertAll covers rows cs, covers r c = true := by
  induction cs generalizing rows with
  | nil => simp at hc
  | cons d cs ih =>
    rw [insertAll_cons]
    rcases List.mem_cons.1 hc with rfl | hc
    · by_cases hcov : ∃ r ∈ rows, covers r c = true
      · obtain ⟨r, hr, hrc⟩ := hcov
        exact ⟨r, insertAll_subset r (insertUnless_subset r hr), hrc⟩
      · push Not at hcov
        rw [insertUnless_of_not fun r hr => by simpa using hcov r hr]
        exact ⟨c, insertAll_subset c (by simp), hrefl c⟩
    · exact ih _ hc

section Labels
variable [DecidableEq L] (label : R → L)

def labelled (l : L) (rows : List R) : List R := rows.filter fun r => label r = l

/-- Candidates of one label stand for one thing, retried: they cover and are
covered alike. -/
structure Retries (covers : R → R → Bool) (cs : List R) : Prop where
  refl : ∀ c, covers c c = true
  symm : ∀ a ∈ cs, ∀ b ∈ cs, covers a b = true → covers b a = true
  left : ∀ a ∈ cs, ∀ b ∈ cs, label a = label b → ∀ c, covers a c = covers b c
  right : ∀ a ∈ cs, ∀ b ∈ cs, label a = label b → ∀ c, covers c a = covers c b

theorem one_row_iff (h : Retries label covers cs)
    (hnew : ∀ r ∈ rows, ∀ c ∈ cs, label r ≠ label c) :
    (∀ c ∈ cs, (labelled label (label c) (insertAll covers rows cs)).length = 1) ↔
      ∀ c ∈ cs, ∀ r ∈ rows ++ cs, covers r c = true → label r = label c := by
  obtain ⟨new, heq, hsub, hrows, hpair⟩ := insertAll_spec covers rows cs
  have hlabel : ∀ c ∈ cs, labelled label (label c) (insertAll covers rows cs) =
      labelled label (label c) new := by
    intro c hc
    rw [heq, labelled, List.filter_append, List.filter_eq_nil_iff.2, List.nil_append]
    · rfl
    · intro r hr
      simpa using hnew r hr c hc
  constructor
  · intro hone c hc r hr hcov
    -- the rows that `c` and `r` left
    have hrow : ∀ a ∈ cs, ∃ b ∈ new, label b = label a := by
      intro a ha
      have hlen := hone a ha
      rw [hlabel a ha] at hlen
      obtain ⟨b, hb⟩ := List.length_eq_one_iff.1 hlen
      have hmem : b ∈ labelled label (label a) new := by simp [hb]
      rw [labelled, List.mem_filter, decide_eq_true_eq] at hmem
      exact ⟨b, hmem⟩
    obtain ⟨c', hc', hcl⟩ := hrow c hc
    have hcs : c' ∈ cs := hsub.subset hc'
    rcases List.mem_append.1 hr with hr | hr
    · have hfree := hrows r hr c' hc'
      rw [h.right c' hcs c hc hcl] at hfree
      simp [hcov] at hfree
    · by_contra hne
      obtain ⟨r', hr', hrl⟩ := hrow r hr
      have hrs : r' ∈ cs := hsub.subset hr'
      have hcov' : covers r' c' = true := by
        rw [h.left r' hrs r hr hrl, h.right c' hcs c hc hcl]
        exact hcov
      have hne' : r' ≠ c' := by
        rintro rfl
        exact hne (hrl.symm.trans hcl)
      have hflip : new.Pairwise fun a b => b ≠ a → covers b a = false := by
        refine hpair.imp_of_mem fun {a b} ha hb hab _ => ?_
        by_contra hba
        have hsymm := h.symm b (hsub.subset hb) a (hsub.subset ha) (by simpa using hba)
        simp [hab] at hsymm
      have hforth : new.Pairwise fun a b => a ≠ b → covers a b = false := by
        refine hpair.imp ?_
        intro a b hab _
        exact hab
      have hfree : ∀ ⦃a⦄, a ∈ new → ∀ ⦃b⦄, b ∈ new → a ≠ b → covers a b = false :=
        hforth.forall_of_forall_of_flip (fun _ _ hne => (hne rfl).elim) hflip
      simp [hfree hr' hc' hne'] at hcov'
  · intro hown c hc
    rw [hlabel c hc]
    obtain ⟨r, hr, hrc⟩ := exists_covers_of_mem rows h.refl hc
    rw [heq] at hr
    have hmem : r ∈ rows ++ cs := by
      rcases List.mem_append.1 hr with hr | hr
      · exact List.mem_append_left _ hr
      · exact List.mem_append_right _ (hsub.subset hr)
    have hrl : label r = label c := hown c hc r hmem hrc
    have hrnew : r ∈ new := by
      rcases List.mem_append.1 hr with hr | hr
      · exact (hnew r hr c hc hrl).elim
      · exact hr
    have hle : (labelled label (label c) new).length ≤ 1 := by
      rw [labelled]
      have hsingle : (new.filter fun r => label r = label c).Pairwise fun a b =>
          covers a b = false := hpair.filter _
      by_contra hlong
      obtain ⟨a, b, rest, hab⟩ : ∃ a b rest, (new.filter fun r => label r = label c) =
          a :: b :: rest := by
        rcases hfilter : new.filter fun r => label r = label c with _ | ⟨a, _ | ⟨b, rest⟩⟩
        · simp [hfilter] at hlong
        · simp [hfilter] at hlong
        · exact ⟨a, b, rest, rfl⟩
      have hmems : ∀ x ∈ [a, b], x ∈ new ∧ label x = label c := by
        intro x hx
        have hx' : x ∈ new.filter fun r => label r = label c := by
          rw [hab]
          rcases List.mem_cons.1 hx with rfl | hx
          · simp
          · simp [List.mem_singleton.1 hx]
        simpa using hx'
      obtain ⟨ha, hal⟩ := hmems a (by simp)
      obtain ⟨hb, hbl⟩ := hmems b (by simp)
      rw [hab] at hsingle
      have hfree := (List.pairwise_cons.1 hsingle).1 b (by simp)
      rw [h.left a (hsub.subset ha) b (hsub.subset hb) (hal.trans hbl.symm) b, h.refl b] at hfree
      simp at hfree
    have hpos : 0 < (labelled label (label c) new).length := by
      refine List.length_pos_of_mem (a := r) ?_
      rw [labelled, List.mem_filter, decide_eq_true_eq]
      exact ⟨hrnew, hrl⟩
    omega

end Labels
end Txn
