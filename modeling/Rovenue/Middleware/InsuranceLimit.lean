import Rovenue.Threads.Answers
import Rovenue.Txn.Table

/-! The limiter that a process falls back to while Redis is away: a count for each key and minute,
and a sweep that must not be noticed. -/

namespace Rovenue.RateLimit
open Threads Txn

structure Bucket where
  windowStart : ℕ
  count : ℕ

def INSURANCE_WINDOW_MS : ℕ := 60000

def INSURANCE_MAX : ℕ := 50

def SWEEP_THRESHOLD : ℕ := 10000

/-- The `Map` of a process, and the clock. -/
structure Insurance where
  now : ℕ
  buckets : Table String Bucket

def isOpen (now : ℕ) (b : Bucket) : Bool := now - b.windowStart < INSURANCE_WINDOW_MS

def maybeSweepStale (now : ℕ) (buckets : Table String Bucket) : Table String Bucket :=
  if buckets.entries.length < SWEEP_THRESHOLD then buckets
  else buckets.select fun _ b => isOpen now b

def insuranceConsume (s : Insurance) (key : String) : Insurance × Bool :=
  let swept := maybeSweepStale s.now s.buckets
  -- no bucket, or one whose minute is over: a fresh one
  ((swept.get? key).filter (isOpen s.now)).elim
    ({ s with buckets := swept.set key ⟨s.now, 1⟩ }, true)
    fun existing =>
      ({ s with buckets := swept.set key { existing with count := existing.count + 1 } },
        existing.count + 1 ≤ INSURANCE_MAX)

inductive InsuranceEvent where
  | tick (ms : ℕ)
  | consume (key : String)

structure Consumed where
  key : String
  time : ℕ
  ok : Bool

def insuranceStep (s : Insurance) : InsuranceEvent → Insurance × Option Consumed
  | .tick ms => ({ s with now := s.now + ms }, none)
  | .consume key => ((insuranceConsume s key).1, some ⟨key, s.now, (insuranceConsume s key).2⟩)

section Metered
variable {s : Insurance} {key : String} {past : List Consumed} {a : Consumed} {b : Bucket}

def openBucket (s : Insurance) (key : String) : Option Bucket :=
  (s.buckets.get? key).filter (isOpen s.now)

/-- How many requests of `key` passed at the times of `P`. -/
def passes (key : String) (P : ℕ → Prop) [DecidablePred P] (past : List Consumed) : ℕ :=
  past.countP fun a => a.ok = true ∧ a.key = key ∧ P a.time

section Passes
variable {P Q R : ℕ → Prop} [DecidablePred P] [DecidablePred Q] [DecidablePred R]

theorem passes_append : passes key P (past ++ [a]) =
    passes key P past + if a.ok = true ∧ a.key = key ∧ P a.time then 1 else 0 := by
  rw [passes, List.countP_append, List.countP_singleton, ← passes]
  simp only [decide_eq_true_eq]

theorem passes_mono (h : ∀ a ∈ past, P a.time → Q a.time) : passes key P past ≤ passes key Q past := by
  refine List.countP_mono_left fun a ha hP => ?_
  obtain ⟨hok, hkey, htime⟩ := of_decide_eq_true hP
  exact decide_eq_true ⟨hok, hkey, h a ha htime⟩

theorem passes_le_add (h : ∀ t, P t → Q t ∨ R t) :
    passes key P past ≤ passes key Q past + passes key R past := by
  induction past with
  | nil => exact le_rfl
  | cons a past ih =>
    simp only [passes, List.countP_cons, decide_eq_true_eq] at ih ⊢
    have ha := h a.time
    split_ifs <;> first | omega | tauto

end Passes

theorem get?_maybeSweepStale :
    ((maybeSweepStale s.now s.buckets).get? key).filter (isOpen s.now) = openBucket s key := by
  rw [maybeSweepStale, openBucket]
  split_ifs
  · rfl
  · rw [Table.get?_select, Option.filter_filter]
    simp only [Bool.and_self]

structure Metered (s : Insurance) (past : List Consumed) : Prop where
  times : ∀ a ∈ past, a.time ≤ s.now
  closed : ∀ key, openBucket s key = none →
    passes key (fun t => s.now ≤ t) past = 0 ∧
      passes key (fun t => s.now < t + INSURANCE_WINDOW_MS) past ≤ INSURANCE_MAX
  counted : ∀ key b, openBucket s key = some b → b.windowStart ≤ s.now ∧
    passes key (fun t => b.windowStart ≤ t) past ≤ min INSURANCE_MAX b.count ∧
      passes key (fun t => t < b.windowStart ∧ b.windowStart < t + INSURANCE_WINDOW_MS) past ≤
        INSURANCE_MAX
  bounded : ∀ key t, passes key (fun u => u ≤ t ∧ t < u + INSURANCE_WINDOW_MS) past ≤
    2 * INSURANCE_MAX

theorem Metered.tick (h : Metered s past) (ms : ℕ) : Metered { s with now := s.now + ms } past where
  times a ha := (h.times a ha).trans (Nat.le_add_right _ _)
  closed key hclosed := by
    have hstale : ∀ b, s.buckets.get? key = some b →
        INSURANCE_WINDOW_MS ≤ s.now + ms - b.windowStart := by
      intro b hb
      rw [openBucket, hb] at hclosed
      simpa [isOpen, Option.filter] using hclosed
    rcases hnow : openBucket s key with _ | b
    · obtain ⟨hnone, hmany⟩ := h.closed key hnow
      refine ⟨Nat.le_zero.1 ?_, ?_⟩
      · exact (passes_mono fun a _ ht => (Nat.le_add_right _ _).trans ht).trans hnone.le
      · refine (passes_mono (Q := fun t => s.now < t + INSURANCE_WINDOW_MS) fun a _ ht => ?_).trans
          hmany
        exact (Nat.le_add_right _ _).trans_lt ht
    · -- the bucket has closed in the meantime: what passed since is what it counted
      obtain ⟨hget, hopen⟩ := Option.filter_eq_some_iff.1 hnow
      have hlate := hstale b hget
      have hearly : s.now - b.windowStart < INSURANCE_WINDOW_MS := of_decide_eq_true hopen
      obtain ⟨-, hmany, -⟩ := h.counted key b hnow
      refine ⟨Nat.le_zero.1 ?_, ?_⟩
      · refine (passes_mono (Q := fun _ => False) fun a ha ht => ?_).trans ?_
        · have hbefore := h.times a ha
          dsimp only at ht
          omega
        · simp [passes]
      · refine (passes_mono fun a _ ht => ?_).trans (hmany.trans (min_le_left _ _))
        dsimp only at ht
        omega
  counted key b hb := by
    obtain ⟨hget, hopen⟩ := Option.filter_eq_some_iff.1 hb
    have hlive : s.now + ms - b.windowStart < INSURANCE_WINDOW_MS := of_decide_eq_true hopen
    have hnow : openBucket s key = some b :=
      Option.filter_eq_some_iff.2 ⟨hget, decide_eq_true (by omega)⟩
    obtain ⟨hstart, hrest⟩ := h.counted key b hnow
    exact ⟨hstart.trans (Nat.le_add_right _ _), hrest⟩
  bounded := h.bounded

theorem insuranceConsume_eq (s : Insurance) (key : String) :
    (insuranceConsume s key).1.now = s.now ∧
      (∀ other, other ≠ key →
        openBucket (insuranceConsume s key).1 other = openBucket s other) ∧
      ((openBucket s key = none ∧ (insuranceConsume s key).2 = true ∧
          openBucket (insuranceConsume s key).1 key = some ⟨s.now, 1⟩) ∨
        ∃ b, openBucket s key = some b ∧
          (insuranceConsume s key).2 = decide (b.count + 1 ≤ INSURANCE_MAX) ∧
          openBucket (insuranceConsume s key).1 key = some { b with count := b.count + 1 }) := by
  have hother : ∀ other, other ≠ key → ∀ b : Bucket,
      openBucket ⟨s.now, (maybeSweepStale s.now s.buckets).set key b⟩ other = openBucket s other := by
    intro other hne b
    rw [openBucket, Table.get?_set, if_neg hne]
    exact get?_maybeSweepStale
  have hself : ∀ b : Bucket, isOpen s.now b = true →
      openBucket ⟨s.now, (maybeSweepStale s.now s.buckets).set key b⟩ key = some b := by
    intro b hb
    rw [openBucket, Table.get?_set, if_pos rfl, Option.filter_some, if_pos hb]
  rw [insuranceConsume]
  simp only [get?_maybeSweepStale]
  rcases hopen : openBucket s key with _ | b
  · refine ⟨rfl, fun other hne => hother other hne _, .inl ⟨rfl, rfl, hself _ ?_⟩⟩
    simp [isOpen, INSURANCE_WINDOW_MS]
  · refine ⟨rfl, fun other hne => hother other hne _, .inr ⟨b, rfl, rfl, hself _ ?_⟩⟩
    exact (Option.filter_eq_some_iff.1 hopen).2

theorem Metered.consume (h : Metered s past) (key : String) :
    Metered (insuranceConsume s key).1 (past ++ [⟨key, s.now, (insuranceConsume s key).2⟩]) := by
  obtain ⟨hnow, hother, hself⟩ := insuranceConsume_eq s key
  have happend : ∀ other, other ≠ key → ∀ (P : ℕ → Prop) [DecidablePred P],
      passes other P (past ++ [⟨key, s.now, (insuranceConsume s key).2⟩]) = passes other P past := by
    intro other hne P _
    rw [passes_append, if_neg fun hboth => hne hboth.2.1.symm, Nat.add_zero]
  have hle : ∀ (P : ℕ → Prop) [DecidablePred P],
      passes key P (past ++ [⟨key, s.now, (insuranceConsume s key).2⟩]) ≤ passes key P past + 1 := by
    intro P _
    rw [passes_append]
    split_ifs <;> omega
  have hsame : ∀ (P : ℕ → Prop) [DecidablePred P], ¬P s.now →
      passes key P (past ++ [⟨key, s.now, (insuranceConsume s key).2⟩]) = passes key P past := by
    intro P _ hP
    rw [passes_append, if_neg fun hboth => hP hboth.2.2, Nat.add_zero]
  have htimes : ∀ a ∈ past ++ [⟨key, s.now, (insuranceConsume s key).2⟩], a.time ≤ s.now := by
    intro a ha
    rcases List.mem_append.1 ha with ha | ha
    · exact h.times a ha
    · rw [List.mem_singleton.1 ha]
  -- what has passed in the bucket of the request and in the one before it
  have hopen : ∃ b, openBucket (insuranceConsume s key).1 key = some b ∧ b.windowStart ≤ s.now ∧
      passes key (fun t => b.windowStart ≤ t) (past ++ [⟨key, s.now, (insuranceConsume s key).2⟩]) ≤
        min INSURANCE_MAX b.count ∧
      passes key (fun t => t < b.windowStart ∧ b.windowStart < t + INSURANCE_WINDOW_MS)
        (past ++ [⟨key, s.now, (insuranceConsume s key).2⟩]) ≤ INSURANCE_MAX := by
    rcases hself with ⟨hclosed, -, hfirst⟩ | ⟨b, hb, hok, hnext⟩
    · obtain ⟨hnone, hmany⟩ := h.closed key hclosed
      refine ⟨_, hfirst, le_rfl, ?_, ?_⟩
      · refine (hle _).trans ?_
        rw [hnone]
        exact le_min (by decide) le_rfl
      · rw [hsame _ fun hboth => lt_irrefl _ hboth.1]
        exact (passes_mono fun a _ ht => ht.2).trans hmany
    · obtain ⟨hstart, hcount, hbefore⟩ := h.counted key b hb
      refine ⟨_, hnext, hstart, ?_, ?_⟩
      · rw [passes_append, hok]
        split_ifs with hpassed
        · have hroom : b.count + 1 ≤ INSURANCE_MAX := of_decide_eq_true hpassed.1
          have hold := hcount.trans (min_le_right _ _)
          exact le_min ((Nat.succ_le_succ hold).trans hroom) (Nat.succ_le_succ hold)
        · exact hcount.trans (min_le_min_left _ (Nat.le_succ _))
      · rw [hsame _ fun hboth => hboth.1.not_ge hstart]
        exact hbefore
  obtain ⟨b, hb, hstart, hcount, hbefore⟩ := hopen
  refine ⟨?_, fun other hclosed => ?_, fun other b' hb' => ?_, fun other t => ?_⟩
  · rw [hnow]
    exact htimes
  · by_cases hkey : other = key
    · subst hkey
      rw [hb] at hclosed
      cases hclosed
    · rw [hother other hkey] at hclosed
      rw [hnow, happend other hkey, happend other hkey]
      exact h.closed other hclosed
  · by_cases hkey : other = key
    · subst hkey
      obtain rfl := Option.some.inj (hb.symm.trans hb')
      rw [hnow]
      exact ⟨hstart, hcount, hbefore⟩
    · rw [hother other hkey] at hb'
      rw [hnow, happend other hkey, happend other hkey]
      exact h.counted other b' hb'
  · by_cases hkey : other = key
    · subst hkey
      by_cases hlate : s.now ≤ t
      · -- a window that ends now or later lies in these two buckets
        refine (passes_le_add (Q := fun u => b.windowStart ≤ u)
          (R := fun u => u < b.windowStart ∧ b.windowStart < u + INSURANCE_WINDOW_MS)
          fun u hu => ?_).trans ?_
        · rcases le_or_gt b.windowStart u with hin | hout
          · exact .inl hin
          · exact .inr ⟨hout, (hstart.trans hlate).trans_lt hu.2⟩
        · rw [two_mul]
          exact Nat.add_le_add (hcount.trans (min_le_left _ _)) hbefore
      · rw [hsame _ fun hboth => hlate hboth.1]
        exact h.bounded other t
    · rw [happend other hkey]
      exact h.bounded other t

theorem Metered.step (h : Metered s past) (e : InsuranceEvent) :
    Metered (insuranceStep s e).1 (past ++ (insuranceStep s e).2.toList) := by
  cases e with
  | tick ms =>
    rw [insuranceStep, Option.toList_none, List.append_nil]
    exact h.tick ms
  | consume key => exact h.consume key

theorem metered_start (now : ℕ) : Metered ⟨now, .empty⟩ [] where
  times a ha := by cases ha
  closed _ _ := ⟨rfl, Nat.zero_le _⟩
  counted _ _ hb := by cases hb
  bounded _ _ := Nat.zero_le _

/-- While Redis is away, a process lets no more than twice the maximum of one key pass in any window,
whatever is swept from its map. -/
theorem insurance_bounds_window (now : ℕ) (evs : List InsuranceEvent) (key : String) (t : ℕ) :
    passes key (fun u => u ≤ t ∧ t < u + INSURANCE_WINDOW_MS)
      (answers insuranceStep ⟨now, .empty⟩ evs) ≤ 2 * INSURANCE_MAX := by
  obtain ⟨s, hend⟩ := answers_induct (I := Metered) (fun s past e h => h.step e) evs _ _
    (metered_start now)
  exact hend.bounded key t

end Metered

end Rovenue.RateLimit
