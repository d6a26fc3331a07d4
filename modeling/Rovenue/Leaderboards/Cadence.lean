import Mathlib

/-! Season windows. The local calendar is a partition of time for each time zone; windows
numbered one after another form a chain when each starts where the one before it ended. -/

namespace Rovenue.Leaderboards

structure SeasonWindow where
  startsAt : ℤ
  -- exclusive
  endsAt : ℤ
  deriving DecidableEq

inductive LeaderboardCadence where
  | weekly | monthly | custom
  deriving DecidableEq, Repr

def LeaderboardCadence.label : LeaderboardCadence → String
  | .weekly => "WEEKLY"
  | .monthly => "MONTHLY"
  | .custom => "CUSTOM"

structure CadenceSettings where
  cadence : LeaderboardCadence
  -- an IANA name
  timezone : String
  customPeriodDays : Option ℤ := none
  anchorAt : ℤ := 0
  deriving DecidableEq

def validateCadence (settings : CadenceSettings) : Option String :=
  if settings.cadence = .custom then
    if settings.customPeriodDays.all (· ≤ 0) then
      some "customPeriodDays must be a positive integer when cadence is CUSTOM"
    else none
  else if settings.customPeriodDays.isSome then
    some ("customPeriodDays must be null when cadence is " ++ settings.cadence.label)
  else none

/-- The windows of the local calendar, by setting: the window an instant falls in, or the error of
a time zone that does not settle. -/
structure SeasonCalendar where
  localWindow : CadenceSettings → ℤ → Except String SeasonWindow
  contains : ∀ {settings t w}, localWindow settings t = .ok w → w.startsAt ≤ t ∧ t < w.endsAt
  same : ∀ {settings t t' w}, localWindow settings t = .ok w → w.startsAt ≤ t' → t' < w.endsAt →
    localWindow settings t' = .ok w

namespace SeasonCalendar
variable (calendar : SeasonCalendar)

def seasonWindowContaining (settings : CadenceSettings) (instant : ℤ) :
    Except String SeasonWindow :=
  match validateCadence settings with
  | some error => .error ("seasonWindowContaining: " ++ error)
  | none => calendar.localWindow settings instant

def nextSeasonWindow (previous : SeasonWindow) (settings : CadenceSettings) :
    Except String SeasonWindow :=
  calendar.seasonWindowContaining settings previous.endsAt

def Straddles (settings : CadenceSettings) (t : ℤ) : Prop :=
  ∃ t' w, calendar.seasonWindowContaining settings t' = .ok w ∧ w.startsAt < t ∧ t < w.endsAt

variable {calendar} {settings : CadenceSettings} {t t' : ℤ} {w : SeasonWindow}

theorem windowContaining_eq (h : calendar.seasonWindowContaining settings t = .ok w) :
    calendar.localWindow settings t = .ok w ∧
      ∀ t', calendar.seasonWindowContaining settings t' = calendar.localWindow settings t' := by
  unfold seasonWindowContaining at h ⊢
  cases hvalid : validateCadence settings with
  | some error =>
    rw [hvalid] at h
    cases h
  | none =>
    rw [hvalid] at h
    exact ⟨h, fun _ => rfl⟩

theorem window_contains (h : calendar.seasonWindowContaining settings t = .ok w) :
    w.startsAt ≤ t ∧ t < w.endsAt := calendar.contains (windowContaining_eq h).1

theorem window_same (h : calendar.seasonWindowContaining settings t = .ok w)
    (hstart : w.startsAt ≤ t') (hend : t' < w.endsAt) :
    calendar.seasonWindowContaining settings t' = .ok w := by
  obtain ⟨hlocal, heq⟩ := windowContaining_eq h
  rw [heq]
  exact calendar.same hlocal hstart hend

theorem startsAt_eq_iff (h : calendar.seasonWindowContaining settings t = .ok w) :
    w.startsAt = t ↔ ¬calendar.Straddles settings t := by
  obtain ⟨hstart, hend⟩ := window_contains h
  constructor
  · rintro hstarts ⟨t', w', hw', hbefore, hafter⟩
    have hsame := window_same hw' hbefore.le hafter
    have heq : w = w' := Except.ok.inj (h.symm.trans hsame)
    rw [← heq, hstarts] at hbefore
    exact lt_irrefl _ hbefore
  · intro hnone
    by_contra hne
    exact hnone ⟨t, w, h, lt_of_le_of_ne hstart hne, hend⟩

end SeasonCalendar

def Chained (windows : ℕ → Option SeasonWindow) : Prop :=
  ∀ m n a b, m < n → windows m = some a → windows n = some b →
    (∀ k, m < k → k < n → windows k = none) → b.startsAt = a.endsAt

section Chained
variable {windows : ℕ → Option SeasonWindow} {n : ℕ} {a b : SeasonWindow}

theorem chained_update_first (hnone : ∀ k, windows k = none) (n : ℕ) (b : SeasonWindow) :
    Chained (Function.update windows n (some b)) := by
  intro m n' a b' hlt hm hn' _
  have hnumber : ∀ k c, Function.update windows n (some b) k = some c → k = n := by
    intro k c hk
    by_contra hne
    rw [Function.update_of_ne hne, hnone] at hk
    cases hk
  rw [hnumber m a hm, hnumber n' b' hn'] at hlt
  exact absurd hlt (lt_irrefl n)

theorem chained_update_next (hlast : windows n = some a) (hnone : ∀ k, n < k → windows k = none) :
    Chained (Function.update windows (n + 1) (some b)) ↔ Chained windows ∧ b.startsAt = a.endsAt := by
  have hold : ∀ k, k ≤ n → Function.update windows (n + 1) (some b) k = windows k :=
    fun k hk => Function.update_of_ne (by omega) _ _
  have hwithin : ∀ k c, windows k = some c → k ≤ n := by
    intro k c hk
    by_contra hlt
    rw [hnone k (by omega)] at hk
    cases hk
  constructor
  · intro h
    constructor
    · intro m k c d hlt hm hk hbetween
      have hkn := hwithin k d hk
      refine h m k c d hlt ?_ ?_ fun j hmj hjk => ?_
      · rw [hold m (by omega), hm]
      · rw [hold k hkn, hk]
      · rw [hold j (by omega), hbetween j hmj hjk]
    · refine h n (n + 1) a b (by omega) ?_ (Function.update_self _ _ _) fun j hnj hjn => ?_
      · rw [hold n le_rfl, hlast]
      · omega
  · rintro ⟨h, hstarts⟩ m k c d hlt hm hk hbetween
    by_cases hkn : k ≤ n
    · rw [hold m (by omega)] at hm
      rw [hold k hkn] at hk
      refine h m k c d hlt hm hk fun j hmj hjk => ?_
      rw [← hold j (by omega)]
      exact hbetween j hmj hjk
    · have hk1 : k = n + 1 := by
        by_contra hne
        rw [Function.update_of_ne hne, hnone k (by omega)] at hk
        cases hk
      subst hk1
      rw [Function.update_self, Option.some.injEq] at hk
      -- nothing lies between the last window and the new one, so the pair is these two
      have hmn : m = n := by
        by_contra hne
        have hgap := hbetween n (by omega) (by omega)
        rw [hold n le_rfl, hlast] at hgap
        cases hgap
      rw [hmn, hold n le_rfl, hlast, Option.some.injEq] at hm
      rw [← hk, ← hm]
      exact hstarts

end Chained
end Rovenue.Leaderboards
