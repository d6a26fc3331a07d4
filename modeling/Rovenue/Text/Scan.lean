import Mathlib

/-! The words of a text: its longest runs without a space. -/

namespace Rovenue.Text
variable {α : Type} {isSpace : α → Bool} {space : α}

structure IsWord (isSpace : α → Bool) (word : List α) : Prop where
  ne_nil : word ≠ []
  spaceless : ∀ c ∈ word, isSpace c = false

def words (isSpace : α → Bool) (text : List α) : List (List α) :=
  (text.splitOnP isSpace).filter fun piece => !piece.isEmpty

theorem spaceless_of_mem_splitOnP (text : List α) :
    ∀ piece ∈ text.splitOnP isSpace, ∀ c ∈ piece, isSpace c = false := by
  induction text with
  | nil =>
    intro piece hpiece c hc
    rw [List.mem_singleton.mp hpiece] at hc
    exact absurd hc List.not_mem_nil
  | cons d text ih =>
    intro piece hpiece c hc
    rw [List.splitOnP_cons_eq_if_modifyHead] at hpiece
    split_ifs at hpiece with hd
    · rcases List.mem_cons.mp hpiece with rfl | hrest
      · exact absurd hc List.not_mem_nil
      · exact ih piece hrest c hc
    · cases hsplit : text.splitOnP isSpace with
      | nil => exact absurd hsplit (List.splitOnP_ne_nil _ _)
      | cons first rest =>
        rw [hsplit] at hpiece ih
        -- only the first piece has grown, by a symbol that is no space
        rcases List.mem_cons.mp hpiece with rfl | hrest
        · rcases List.mem_cons.mp hc with rfl | hc
          · exact Bool.eq_false_iff.mpr hd
          · exact ih first List.mem_cons_self c hc
        · exact ih piece (List.mem_cons_of_mem _ hrest) c hc

theorem isWord_of_mem_words {text word : List α} (h : word ∈ words isSpace text) :
    IsWord isSpace word := by
  obtain ⟨hsplit, hne⟩ := List.mem_filter.mp h
  refine ⟨?_, spaceless_of_mem_splitOnP text word hsplit⟩
  rintro rfl
  exact Bool.false_ne_true hne

theorem IsWord.kept {word : List α} (h : IsWord isSpace word) : (!word.isEmpty) = true := by
  rw [Bool.not_eq_true', List.isEmpty_eq_false_iff]
  exact h.ne_nil

theorem words_intercalate (hspace : isSpace space) : ∀ {texts : List (List α)},
    (∀ w ∈ texts, IsWord isSpace w) → words isSpace ([space].intercalate texts) = texts
  | [], _ => rfl
  | [w], h => by
    have hw := h w List.mem_cons_self
    unfold words
    rw [List.intercalate_singleton, List.splitOnP_eq_singleton hw.spaceless, List.filter_cons,
      if_pos hw.kept, List.filter_nil]
  | w :: v :: texts, h => by
    have hw := h w List.mem_cons_self
    have hrest : words isSpace ([space].intercalate (v :: texts)) = v :: texts :=
      words_intercalate hspace fun u hu => h u (List.mem_cons_of_mem _ hu)
    unfold words at hrest ⊢
    rw [List.intercalate_cons_cons, List.append_assoc, List.singleton_append,
      List.splitOnP_append_cons_of_forall_mem hw.spaceless space hspace, List.filter_cons,
      if_pos hw.kept, hrest]

end Rovenue.Text

/-! A text cut by a pattern, read from left to right: the matches, none of which overlap, and the
symbols between them. Patterns are matchers with a continuation, greedy as a backtracking matcher
is. -/

namespace Rovenue.Text
variable {α : Type}

abbrev Matcher (α : Type) := List α → Option (List α)

namespace Matcher
variable (p : α → Bool) (k : Matcher α)

def done : Matcher α := fun _ => some []

def one : Matcher α
  | [] => none
  | c :: s => if p c then (k s).map (c :: ·) else none

def star : Matcher α
  | [] => k []
  | c :: s =>
    if p c then ((star s).map (c :: ·)).orElse fun _ => k (c :: s) else k (c :: s)

def plus : Matcher α := one p (star p k)

def Takes (m : Matcher α) : Prop := ∀ s t, m s = some t → t <+: s

variable {p k}

theorem takes_done : (done : Matcher α).Takes := by
  intro s t h
  obtain rfl := Option.some.inj h
  exact List.nil_prefix

theorem takes_one (hk : k.Takes) : (one p k).Takes := by
  intro s t h
  cases s with
  | nil => cases h
  | cons c s =>
    simp only [one] at h
    split_ifs at h
    obtain ⟨t, ht, rfl⟩ := Option.map_eq_some_iff.mp h
    exact List.cons_prefix_cons.mpr ⟨rfl, hk s t ht⟩

theorem takes_star (hk : k.Takes) : (star p k).Takes := by
  intro s
  induction s with
  | nil => exact hk []
  | cons c s ih =>
    intro t h
    unfold star at h
    split_ifs at h
    · cases hrest : star p k s with
      | none =>
        rw [hrest] at h
        exact hk (c :: s) t h
      | some u =>
        rw [hrest] at h
        obtain rfl := Option.some.inj h
        exact List.cons_prefix_cons.mpr ⟨rfl, ih u hrest⟩
    · exact hk (c :: s) t h

theorem takes_plus (hk : k.Takes) : (plus p k).Takes := takes_one (takes_star hk)

end Matcher

inductive Segment (α : Type) where
  | hit (p : List α)
  | miss (c : α)

namespace Segment

def text : Segment α → List α
  | .hit p => p
  | .miss c => [c]

end Segment

def textOf (segs : List (Segment α)) : List α := segs.flatMap Segment.text

@[simp] theorem textOf_nil : textOf ([] : List (Segment α)) = [] := rfl

@[simp] theorem textOf_cons (x : Segment α) (segs : List (Segment α)) :
    textOf (x :: segs) = x.text ++ textOf segs := List.flatMap_cons

@[simp] theorem textOf_append (xs ys : List (Segment α)) :
    textOf (xs ++ ys) = textOf xs ++ textOf ys := List.flatMap_append

def scanFrom (m : Matcher α) : ℕ → List α → List (Segment α)
  | _, [] => []
  | n + 1, _ :: s => scanFrom m n s
  | 0, c :: s =>
    match m (c :: s) with
    | some (d :: p) => .hit (d :: p) :: scanFrom m p.length s
    | _ => .miss c :: scanFrom m 0 s

def scan (m : Matcher α) (s : List α) : List (Segment α) := scanFrom m 0 s

variable {m : Matcher α}

theorem scanFrom_eq (n : ℕ) (s : List α) : scanFrom m n s = scan m (s.drop n) := by
  induction s generalizing n with
  | nil => cases n <;> rfl
  | cons c s ih =>
    cases n with
    | zero => rfl
    | succ n => exact ih n

@[simp] theorem scan_nil : scan m [] = [] := rfl

theorem scan_of_hit {p s : List α} (hp : p ≠ []) (h : m (p ++ s) = some p) :
    scan m (p ++ s) = .hit p :: scan m s := by
  cases p with
  | nil => exact absurd rfl hp
  | cons d p =>
    rw [List.cons_append] at h ⊢
    rw [scan, scanFrom, h]
    show _ :: scanFrom m p.length (p ++ s) = _
    rw [scanFrom_eq, List.drop_left]

theorem scan_of_miss {c : α} {s : List α} (h : ∀ p, p ≠ [] → m (c :: s) ≠ some p) :
    scan m (c :: s) = .miss c :: scan m s := by
  unfold scan
  rw [scanFrom]
  split
  · next d p hm => exact absurd hm (h (d :: p) (List.cons_ne_nil d p))
  · rfl

theorem textOf_scan (hm : m.Takes) (s : List α) : textOf (scan m s) = s := by
  induction hn : s.length using Nat.strong_induction_on generalizing s with
  | _ n ih =>
    cases s with
    | nil => rfl
    | cons c s =>
      by_cases hhit : ∃ p, p ≠ [] ∧ m (c :: s) = some p
      · obtain ⟨p, hp, hmatch⟩ := hhit
        obtain ⟨rest, hrest⟩ := hm _ _ hmatch
        rw [← hrest] at hmatch ⊢
        have hlt : rest.length < n := by
          rw [← hn, ← hrest, List.length_append]
          exact Nat.lt_add_of_pos_left (List.length_pos_iff.mpr hp)
        rw [scan_of_hit hp hmatch, textOf_cons, ih _ hlt rest rfl]
        rfl
      · push Not at hhit
        have hlt : s.length < n := by
          rw [← hn]
          exact Nat.lt_succ_self _
        rw [scan_of_miss hhit, textOf_cons, ih _ hlt s rfl]
        rfl

theorem hit_ne_nil {s p : List α} (h : Segment.hit p ∈ scan m s) : p ≠ [] := by
  unfold scan at h
  generalize 0 = n at h
  induction s generalizing n with
  | nil => cases n <;> cases h
  | cons c s ih =>
    cases n with
    | succ n => exact ih n h
    | zero =>
      rw [scanFrom] at h
      split at h
      · rcases List.mem_cons.mp h with heq | h
        · cases heq
          exact List.cons_ne_nil _ _
        · exact ih _ h
      · rcases List.mem_cons.mp h with heq | h
        · cases heq
        · exact ih 0 h

def CutAtEach (m : Matcher α) (segs : List (Segment α)) : Prop :=
  ∀ before p after, textOf segs = before ++ p ++ after → p ≠ [] → m (p ++ after) = some p →
    ∃ xs ys, segs = xs ++ .hit p :: ys ∧ textOf xs = before

def HitsMatch (m : Matcher α) (segs : List (Segment α)) : Prop :=
  ∀ xs p ys, segs = xs ++ .hit p :: ys → p ≠ [] ∧ m (p ++ textOf ys) = some p

theorem HitsMatch.tail {x : Segment α} {segs : List (Segment α)} (h : HitsMatch m (x :: segs)) :
    HitsMatch m segs := fun xs p ys hsplit => h (x :: xs) p ys (by rw [hsplit, List.cons_append])

theorem CutAtEach.tail {x : Segment α} {segs : List (Segment α)} (h : CutAtEach m (x :: segs)) :
    CutAtEach m segs := by
  intro before p after htext hp hmatch
  have hlong : textOf (x :: segs) = (x.text ++ before) ++ p ++ after := by
    rw [textOf_cons, htext, List.append_assoc, List.append_assoc, List.append_assoc]
  obtain ⟨xs, ys, hsplit, hbefore⟩ := h _ p after hlong hp hmatch
  cases xs with
  | nil =>
    -- the hit would start before the occurrence
    rw [List.nil_append, List.cons.injEq] at hsplit
    obtain ⟨rfl, rfl⟩ := hsplit
    have hempty : p ++ before = [] := hbefore.symm
    exact absurd (List.append_eq_nil_iff.mp hempty).1 hp
  | cons y xs =>
    rw [List.cons_append, List.cons.injEq] at hsplit
    obtain ⟨rfl, rfl⟩ := hsplit
    rw [textOf_cons] at hbefore
    exact ⟨xs, ys, rfl, List.append_cancel_left hbefore⟩

theorem scan_textOf {segs : List (Segment α)} (hm : m.Takes) (hcut : CutAtEach m segs)
    (hhits : HitsMatch m segs) : scan m (textOf segs) = segs := by
  induction segs with
  | nil => rfl
  | cons x segs ih =>
    have hrest := ih hcut.tail hhits.tail
    cases x with
    | hit p =>
      obtain ⟨hp, hmatch⟩ := hhits [] p segs rfl
      rw [textOf_cons]
      show scan m (p ++ textOf segs) = _
      rw [scan_of_hit hp hmatch, hrest]
    | miss c =>
      have hnone : ∀ p, p ≠ [] → m (c :: textOf segs) ≠ some p := by
        intro p hp hmatch
        obtain ⟨after, hafter⟩ := hm _ _ hmatch
        rw [← hafter] at hmatch
        obtain ⟨xs, ys, hsplit, hempty⟩ := hcut [] p after
          (by rw [textOf_cons, List.nil_append, hafter]; rfl) hp hmatch
        cases xs with
        | nil => cases hsplit
        | cons y xs =>
          rw [List.cons_append, List.cons.injEq] at hsplit
          obtain ⟨rfl, -⟩ := hsplit
          cases hempty
      rw [textOf_cons]
      show scan m (c :: textOf segs) = _
      rw [scan_of_miss hnone, hrest]

end Rovenue.Text
