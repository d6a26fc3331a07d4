import Rovenue.Text.Decimal

/-! The proleptic Gregorian calendar and its day numbers. The year is counted from March, so that
the day a leap year has more is its last. -/

namespace Rovenue.Calendar

def IsLeapYear (year : ℤ) : Prop := year % 4 = 0 ∧ (year % 100 ≠ 0 ∨ year % 400 = 0)

instance (year : ℤ) : Decidable (IsLeapYear year) := inferInstanceAs (Decidable (_ ∧ _))

def daysInMonth (year month : ℤ) : ℤ :=
  if month = 2 then if IsLeapYear year then 29 else 28
  else if month = 4 ∨ month = 6 ∨ month = 9 ∨ month = 11 then 30
  else 31

@[ext]
structure CivilDate where
  year : ℤ
  month : ℤ
  day : ℤ
  month_valid : 1 ≤ month ∧ month ≤ 12
  day_valid : 1 ≤ day ∧ day ≤ daysInMonth year month

theorem daysInMonth_bounds (year month : ℤ) :
    28 ≤ daysInMonth year month ∧ daysInMonth year month ≤ 31 := by
  unfold daysInMonth
  split_ifs <;> decide

def marchYear (year month : ℤ) : ℤ := if month < 3 then year - 1 else year

def marchMonth (month : ℤ) : ℤ := if month < 3 then month + 9 else month - 3

def monthStart (year month : ℤ) : ℤ :=
  365 * marchYear year month + marchYear year month / 4 - marchYear year month / 100 +
    marchYear year month / 400 + (153 * marchMonth month + 2) / 5 - 719468

def daysFromCivil (year month day : ℤ) : ℤ := monthStart year month + (day - 1)

namespace CivilDate

def dayNumber (d : CivilDate) : ℤ := daysFromCivil d.year d.month d.day

def nextDay (d : CivilDate) : CivilDate :=
  if hday : d.day < daysInMonth d.year d.month then
    { d with day := d.day + 1, day_valid := ⟨by have := d.day_valid.1; omega, hday⟩ }
  else if hmonth : d.month < 12 then
    { year := d.year, month := d.month + 1, day := 1
      month_valid := ⟨by have := d.month_valid.1; omega, hmonth⟩
      day_valid := ⟨le_rfl, by have := (daysInMonth_bounds d.year (d.month + 1)).1; omega⟩ }
  else
    { year := d.year + 1, month := 1, day := 1
      month_valid := ⟨le_rfl, by decide⟩
      day_valid := ⟨le_rfl, by have := (daysInMonth_bounds (d.year + 1) 1).1; omega⟩ }

theorem monthStart_succ {year month : ℤ} (hpos : 1 ≤ month) (hle : month < 12) :
    monthStart year (month + 1) = monthStart year month + daysInMonth year month := by
  unfold monthStart marchYear marchMonth daysInMonth IsLeapYear
  by_cases hfebruary : month = 2
  · subst hfebruary
    norm_num
    split_ifs with hleap <;> omega
  · rw [if_neg hfebruary]
    interval_cases month <;> norm_num <;> omega

theorem monthStart_succ_year (year : ℤ) : monthStart (year + 1) 1 = monthStart year 12 + 31 := by
  unfold monthStart marchYear marchMonth
  norm_num
  omega

/-- Day numbers count the days of the calendar one by one. -/
theorem dayNumber_nextDay (d : CivilDate) : d.nextDay.dayNumber = d.dayNumber + 1 := by
  unfold nextDay
  split_ifs with hday hmonth
  · change monthStart d.year d.month + (d.day + 1 - 1) =
      monthStart d.year d.month + (d.day - 1) + 1
    ring
  · have hlast : d.day = daysInMonth d.year d.month := le_antisymm d.day_valid.2 (not_lt.mp hday)
    change monthStart d.year (d.month + 1) + (1 - 1) =
      monthStart d.year d.month + (d.day - 1) + 1
    rw [hlast, monthStart_succ d.month_valid.1 hmonth]
    ring
  · have hdecember : d.month = 12 := le_antisymm d.month_valid.2 (not_lt.mp hmonth)
    have hlast : d.day = 31 := by
      have hle := d.day_valid.2
      rw [hdecember] at hday hle
      change ¬d.day < 31 at hday
      change d.day ≤ 31 at hle
      omega
    change monthStart (d.year + 1) 1 + (1 - 1) = monthStart d.year d.month + (d.day - 1) + 1
    rw [hlast, hdecember, monthStart_succ_year]
    ring

def Before (d e : CivilDate) : Prop :=
  d.year < e.year ∨ d.year = e.year ∧ (d.month < e.month ∨ d.month = e.month ∧ d.day < e.day)

theorem yearStart_strictMono : StrictMono fun year => monthStart year 1 := by
  apply strictMono_int_of_lt_succ
  intro year
  unfold monthStart marchYear marchMonth
  norm_num
  omega

theorem monthStart_mono (year : ℤ) {month month' : ℤ} (hpos : 1 ≤ month) (hle : month ≤ month') :
    month' ≤ 12 → monthStart year month ≤ monthStart year month' := by
  induction month', hle using Int.leInduction with
  | base => exact fun _ => le_rfl
  | succ n hn ih =>
    intro hle
    have hdays := (daysInMonth_bounds year n).1
    rw [monthStart_succ (hpos.trans hn) (by omega)]
    have hprev := ih (by omega)
    omega

theorem dayNumber_bounds (d : CivilDate) : monthStart d.year d.month ≤ d.dayNumber ∧
    d.dayNumber < monthStart d.year d.month + daysInMonth d.year d.month := by
  obtain ⟨hpos, hle⟩ := d.day_valid
  unfold dayNumber daysFromCivil
  omega

theorem dayNumber_mem_year (d : CivilDate) :
    monthStart d.year 1 ≤ d.dayNumber ∧ d.dayNumber < monthStart (d.year + 1) 1 := by
  obtain ⟨hfrom, hto⟩ := d.dayNumber_bounds
  obtain ⟨hpos, hle⟩ := d.month_valid
  have hfirst : monthStart d.year 1 ≤ monthStart d.year d.month :=
    monthStart_mono d.year le_rfl hpos hle
  refine ⟨hfirst.trans hfrom, hto.trans_le ?_⟩
  rw [monthStart_succ_year]
  rcases hle.lt_or_eq with hlt | heq
  · rw [← monthStart_succ hpos hlt]
    have hlast := monthStart_mono d.year (show 1 ≤ d.month + 1 by omega)
      (show d.month + 1 ≤ 12 by omega) le_rfl
    omega
  · rw [heq]
    change monthStart d.year 12 + 31 ≤ monthStart d.year 12 + 31
    exact le_rfl

theorem dayNumber_lt_of_month_lt {d e : CivilDate} (hyear : d.year = e.year)
    (hmonth : d.month < e.month) : d.dayNumber < e.dayNumber := by
  have hlast := e.month_valid.2
  have hpos := d.month_valid.1
  have hstart := monthStart_mono d.year (show 1 ≤ d.month + 1 by omega) hmonth hlast
  rw [monthStart_succ hpos (by omega), hyear] at hstart
  have hd := d.dayNumber_bounds.2
  rw [hyear] at hd
  exact hd.trans_le (hstart.trans e.dayNumber_bounds.1)

theorem dayNumber_lt_of_before {d e : CivilDate} (h : d.Before e) : d.dayNumber < e.dayNumber := by
  rcases h with hyear | ⟨hyear, hmonth | ⟨hmonth, hday⟩⟩
  · have hd := (dayNumber_mem_year d).2
    have he := (dayNumber_mem_year e).1
    have hstart : monthStart (d.year + 1) 1 ≤ monthStart e.year 1 :=
      yearStart_strictMono.monotone hyear
    omega
  · exact dayNumber_lt_of_month_lt hyear hmonth
  · unfold dayNumber daysFromCivil
    rw [hyear, hmonth]
    omega

theorem before_trichotomy (d e : CivilDate) : d.Before e ∨ d = e ∨ e.Before d := by
  rcases lt_trichotomy d.year e.year with h | hyear | h
  · exact Or.inl (Or.inl h)
  · rcases lt_trichotomy d.month e.month with h | hmonth | h
    · exact Or.inl (Or.inr ⟨hyear, Or.inl h⟩)
    · rcases lt_trichotomy d.day e.day with h | hday | h
      · exact Or.inl (Or.inr ⟨hyear, Or.inr ⟨hmonth, h⟩⟩)
      · exact Or.inr (Or.inl (CivilDate.ext hyear hmonth hday))
      · exact Or.inr (Or.inr (Or.inr ⟨hyear.symm, Or.inr ⟨hmonth.symm, h⟩⟩))
    · exact Or.inr (Or.inr (Or.inr ⟨hyear.symm, Or.inl h⟩))
  · exact Or.inr (Or.inr (Or.inl h))

theorem dayNumber_lt_iff {d e : CivilDate} : d.dayNumber < e.dayNumber ↔ d.Before e := by
  constructor
  · intro h
    rcases before_trichotomy d e with hbefore | rfl | hafter
    · exact hbefore
    · exact absurd h (lt_irrefl _)
    · exact absurd h (dayNumber_lt_of_before hafter).asymm
  · exact dayNumber_lt_of_before

end CivilDate

def yearPace (dayOfEra : ℤ) : ℤ := dayOfEra - dayOfEra / 1460 + dayOfEra / 36524 - dayOfEra / 146096

def eraYearStart (yearOfEra : ℤ) : ℤ := 365 * yearOfEra + yearOfEra / 4 - yearOfEra / 100

theorem yearPace_mono {a b : ℤ} (hpos : 0 ≤ a) (hab : a ≤ b) :
    b < 146097 → yearPace a ≤ yearPace b := by
  induction b, hab using Int.leInduction with
  | base => exact fun _ => le_rfl
  | succ n hn ih =>
    intro hlt
    refine (ih (by omega)).trans ?_
    unfold yearPace
    omega

theorem yearPace_start : ∀ k : Fin 400, 365 * (k : ℤ) ≤ yearPace (eraYearStart k) ∧
    (yearPace (eraYearStart k - 1) < 365 * (k : ℤ) ∨ k = 0) := by
  decide +kernel

theorem yearOfEra_spec {dayOfEra : ℤ} (hpos : 0 ≤ dayOfEra) (hlt : dayOfEra < 146097) :
    0 ≤ yearPace dayOfEra / 365 ∧ yearPace dayOfEra / 365 < 400 ∧
      eraYearStart (yearPace dayOfEra / 365) ≤ dayOfEra ∧
      (dayOfEra < eraYearStart (yearPace dayOfEra / 365 + 1) ∨ yearPace dayOfEra / 365 = 399) := by
  have hlow : yearPace 0 ≤ yearPace dayOfEra := yearPace_mono le_rfl hpos hlt
  have hhigh : yearPace dayOfEra ≤ yearPace 146096 := yearPace_mono hpos (by omega) (by decide)
  change 0 ≤ yearPace dayOfEra at hlow
  change yearPace dayOfEra ≤ 145999 at hhigh
  obtain ⟨k, hk⟩ : ∃ k : Fin 400, (k : ℤ) = yearPace dayOfEra / 365 :=
    ⟨⟨(yearPace dayOfEra / 365).toNat, by omega⟩, Int.toNat_of_nonneg (by omega)⟩
  refine ⟨by omega, by omega, ?_, ?_⟩
  · rw [← hk]
    by_contra hbefore
    obtain ⟨-, hprev | rfl⟩ := yearPace_start k
    · have hle := yearPace_mono hpos (show dayOfEra ≤ eraYearStart k - 1 by omega)
        (by unfold eraYearStart; omega)
      omega
    · exact hbefore hpos
  · by_cases hlast : yearPace dayOfEra / 365 = 399
    · exact Or.inr hlast
    · left
      by_contra hafter
      -- the year after is one of the era's too
      obtain ⟨next, hnext⟩ : ∃ next : Fin 400, (next : ℤ) = yearPace dayOfEra / 365 + 1 :=
        ⟨⟨(yearPace dayOfEra / 365 + 1).toNat, by omega⟩, Int.toNat_of_nonneg (by omega)⟩
      have hstart := (yearPace_start next).1
      rw [hnext] at hstart
      have hle := yearPace_mono (show 0 ≤ eraYearStart (yearPace dayOfEra / 365 + 1) by
        unfold eraYearStart; omega) (not_lt.mp hafter) hlt
      omega

structure MarchDate where
  year : ℤ
  month : ℤ
  day : ℤ

def marchDate (n : ℤ) : MarchDate :=
  let dayOfEra := (n + 719468) % 146097
  let yearOfEra := yearPace dayOfEra / 365
  let dayOfYear := dayOfEra - eraYearStart yearOfEra
  let month := (5 * dayOfYear + 2) / 153
  { year := yearOfEra + (n + 719468) / 146097 * 400
    month := month
    day := dayOfYear - (153 * month + 2) / 5 + 1 }

theorem marchDate_spec (n : ℤ) : 0 ≤ (marchDate n).month ∧ (marchDate n).month ≤ 11 ∧
    1 ≤ (marchDate n).day ∧
    (marchDate n).day + (153 * (marchDate n).month + 2) / 5 ≤
      (153 * ((marchDate n).month + 1) + 2) / 5 ∧
    ((marchDate n).month = 11 → (marchDate n).day ≤ 29 ∧
      ((marchDate n).day = 29 → IsLeapYear ((marchDate n).year + 1))) ∧
    365 * (marchDate n).year + (marchDate n).year / 4 - (marchDate n).year / 100 +
      (marchDate n).year / 400 + (153 * (marchDate n).month + 2) / 5 + (marchDate n).day - 1 =
      n + 719468 := by
  obtain ⟨hpos, hlt, hstart, hnext⟩ := yearOfEra_spec
    (Int.emod_nonneg (n + 719468) (show (146097 : ℤ) ≠ 0 by decide))
    (Int.emod_lt_of_pos (n + 719468) (show (0 : ℤ) < 146097 by decide))
  have hdivmod := Int.emod_add_mul_ediv (n + 719468) 146097
  have hday := Int.emod_lt_of_pos (n + 719468) (show (0 : ℤ) < 146097 by decide)
  unfold marchDate
  dsimp only
  generalize (n + 719468) % 146097 = dayOfEra at *
  generalize (n + 719468) / 146097 = era at *
  generalize yearPace dayOfEra / 365 = yearOfEra at *
  unfold eraYearStart at *
  generalize hdoy : dayOfEra - (365 * yearOfEra + yearOfEra / 4 - yearOfEra / 100) = dayOfYear
  have hdoy0 : 0 ≤ dayOfYear := by omega
  have hdoy1 : dayOfYear ≤ 365 := by omega
  have hleap : dayOfYear = 365 → IsLeapYear (yearOfEra + era * 400 + 1) := by
    unfold IsLeapYear
    omega
  refine ⟨by omega, by omega, by omega, by omega,
    fun hfebruary => ⟨by omega, fun hlast => ?_⟩, by omega⟩
  exact hleap (by omega)

def civilOfDay (n : ℤ) : CivilDate where
  year := (marchDate n).year + if (marchDate n).month < 10 then 0 else 1
  month := if (marchDate n).month < 10 then (marchDate n).month + 3 else (marchDate n).month - 9
  day := (marchDate n).day
  month_valid := by
    obtain ⟨hpos, hle, -⟩ := marchDate_spec n
    split_ifs <;> omega
  day_valid := by
    obtain ⟨hpos, hle, hday, hlast, hfebruary, -⟩ := marchDate_spec n
    refine ⟨hday, ?_⟩
    generalize (marchDate n).month = month at *
    generalize (marchDate n).day = day at *
    by_cases h11 : month = 11
    · obtain ⟨h29, hleap⟩ := hfebruary h11
      subst h11
      unfold daysInMonth
      by_cases hday29 : day = 29
      · norm_num [hleap hday29]
        omega
      · norm_num
        split_ifs <;> omega
    · unfold daysInMonth
      have h10 : month ≤ 10 := by omega
      interval_cases month <;> norm_num at hlast ⊢ <;> omega

@[simp] theorem dayNumber_civilOfDay (n : ℤ) : (civilOfDay n).dayNumber = n := by
  obtain ⟨hpos, hle, -, -, -, hcount⟩ := marchDate_spec n
  change monthStart ((marchDate n).year + if (marchDate n).month < 10 then 0 else 1)
    (if (marchDate n).month < 10 then (marchDate n).month + 3 else (marchDate n).month - 9) +
      ((marchDate n).day - 1) = n
  unfold monthStart marchYear marchMonth
  by_cases h : (marchDate n).month < 10
  · rw [if_pos h, if_pos h, if_neg (by omega), if_neg (by omega), add_zero, add_sub_cancel_right]
    omega
  · rw [if_neg h, if_neg h, if_pos (by omega), if_pos (by omega), add_sub_cancel_right,
      sub_add_cancel]
    omega

end Rovenue.Calendar

/-! Dates as text: zero-padded `YYYY-MM-DD` is ordered as the calendar is. -/

namespace Rovenue.Calendar
open Text

def isoText (year month day : ℕ) : List Char :=
  padded 4 year ++ '-' :: (padded 2 month ++ '-' :: padded 2 day)

theorem isoText_lt_iff {y m d y' m' d' : ℕ} (hy : y < 10000) (hy' : y' < 10000) (hm : m < 100)
    (hm' : m' < 100) (hd : d < 100) (hd' : d' < 100) : isoText y m d < isoText y' m' d' ↔
      y < y' ∨ y = y' ∧ (m < m' ∨ m = m' ∧ d < d') := by
  have hyear : (padded 4 y).length = (padded 4 y').length :=
    (length_padded (by norm_num) hy).trans (length_padded (by norm_num) hy').symm
  have hmonth : (padded 2 m).length = (padded 2 m').length :=
    (length_padded (by norm_num) hm).trans (length_padded (by norm_num) hm').symm
  have hdash : ∀ x x' : List Char, ('-' :: x < '-' :: x' ↔ x < x') := by
    intro x x'
    rw [List.cons_lt_cons_iff]
    simp
  unfold isoText
  rw [append_lt_append_iff hyear, hdash, append_lt_append_iff hmonth, hdash,
    padded_lt_iff (by norm_num) hy hy', padded_lt_iff (by norm_num) hm hm',
    padded_lt_iff (by norm_num) hd hd', padded_inj, padded_inj]

structure IsoDate extends CivilDate where
  year_valid : 0 ≤ year ∧ year < 10000

namespace IsoDate

def text (d : IsoDate) : List Char := isoText d.year.toNat d.month.toNat d.day.toNat

theorem month_lt (d : IsoDate) : d.month.toNat < 100 := by
  have hle := d.month_valid.2
  omega

theorem day_lt (d : IsoDate) : d.day.toNat < 100 := by
  have hle := d.day_valid.2.trans (daysInMonth_bounds d.year d.month).2
  omega

theorem year_lt (d : IsoDate) : d.year.toNat < 10000 := by
  have hlt := d.year_valid.2
  omega

theorem text_lt_iff {d e : IsoDate} : d.text < e.text ↔ d.dayNumber < e.dayNumber := by
  have hd := d.month_valid.1
  have he := e.month_valid.1
  have hd' := d.day_valid.1
  have he' := e.day_valid.1
  have hdy := d.year_valid.1
  have hey := e.year_valid.1
  rw [CivilDate.dayNumber_lt_iff, text, text,
    isoText_lt_iff d.year_lt e.year_lt d.month_lt e.month_lt d.day_lt e.day_lt]
  unfold CivilDate.Before
  omega

theorem text_le_iff {d e : IsoDate} : d.text ≤ e.text ↔ d.dayNumber ≤ e.dayNumber := by
  rw [← not_lt, text_lt_iff, not_lt]

end IsoDate

def yearText (year : ℤ) : List Char :=
  if 0 ≤ year ∧ year < 10000 then padded 4 year.toNat
  else (if year < 0 then '-' else '+') :: padded 6 year.natAbs

def momentText (ms : ℤ) : List Char :=
  -- milliseconds since 1970 began, as `YYYY-MM-DDTHH:MM:SS.sssZ`
  let date := civilOfDay (ms / 86400000)
  let time := (ms % 86400000).toNat
  yearText date.year ++ '-' :: (padded 2 date.month.toNat ++ '-' :: padded 2 date.day.toNat) ++
    'T' :: (padded 2 (time / 3600000) ++ ':' :: (padded 2 (time / 60000 % 60) ++
      ':' :: (padded 2 (time / 1000 % 60) ++ '.' :: padded 3 (time % 1000)))) ++ ['Z']

example : String.ofList (momentText 1700000000123) = "2023-11-14T22:13:20.123Z" := by decide +kernel

end Rovenue.Calendar
