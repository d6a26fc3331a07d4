import Rovenue.Arith.Checked
import Rovenue.Calendar.Gregorian
import Rovenue.Text.Decimal

/-! `parse_iso_to_ms`: the expiry of an entitlement, read from the text that the server sends. The
fields are read first, then the days are counted in integers of three widths. -/

namespace Rovenue.Sdk
open Arith Calendar Text IntRange

def splitOnce (sep : Char) : List Char → Option (List Char × List Char)
  | [] => none
  | c :: s => if c = sep then some ([], s) else (splitOnce sep s).map fun p => (c :: p.1, p.2)

def stripLast (c : Char) (s : List Char) : List Char :=
  -- `strip_suffix` with the text itself where it does not apply
  if s.getLast? = some c then s.dropLast else s

def parseDigits (t : IntRange) (digits : List Char) (x : ℤ) : Option t.Value :=
  -- the value `x` of a run of digits, where the type has it
  if h : digits ≠ [] ∧ digits.all Char.isDigit ∧ t.Contains x then some ⟨x, h.2.2⟩ else none

def parse (t : IntRange) : List Char → Option t.Value
  -- `str::parse`. A type without negative values takes `+` alone.
  | '+' :: digits => parseDigits t digits (decimal digits)
  | '-' :: digits => if t.min < 0 then parseDigits t digits (-decimal digits) else none
  | digits => parseDigits t digits (decimal digits)

structure Fields where
  y : i64.Value
  m : u32.Value
  day : u32.Value
  h : u32.Value
  mn : u32.Value
  s : u32.Value
  ms : u64.Value

def splitFraction (time : List Char) : List Char × List Char :=
  match splitOnce '.' time with
  | some (a, b) => (a, b.rdropWhile (· = 'Z'))
  | none => (time, ['0'])

def parseMs (fraction : List Char) : u64.Value := (parse u64 (fraction.take 3)).getD ⟨0, by decide⟩

def readFields (iso : List Char) : Option Fields := do
  let (date, time) ← splitOnce 'T' (stripLast 'Z' iso)
  let d := date.splitOn '-'
  let y ← d[0]?.bind (parse i64)
  let m ← d[1]?.bind (parse u32)
  let day ← d[2]?.bind (parse u32)
  let (hms, fraction) := splitFraction time
  let t := hms.splitOn ':'
  let h ← t[0]?.bind (parse u32)
  let mn ← t[1]?.bind (parse u32)
  let s ← t[2]?.bind (parse u32)
  return ⟨y, m, day, h, mn, s, parseMs fraction⟩

namespace Fields
variable (f : Fields)

def daysSinceEpoch : Checked ℤ := do
  let yy ← i64.fit (if f.m.val ≤ 2 then f.y - 1 else f.y)
  let shifted ← i64.fit (if 0 ≤ yy then yy else yy - 399)
  let era := shifted.tdiv 400
  let eraYears ← i64.fit (era * 400)
  let rest ← i64.fit (yy - eraYears)
  let yoe := u64.wrap rest
  let mp ← u64.fit (if 2 < f.m.val then f.m - 3 else f.m + 9)
  let scaled ← u64.fit (153 * mp)
  let scaled ← u64.fit (scaled + 2)
  let doy ← u64.fit (scaled / 5 + f.day)
  let doy ← u64.fit (doy - 1)
  let doe ← u64.fit (yoe * 365)
  let doe ← u64.fit (doe + yoe / 4)
  let doe ← u64.fit (doe - yoe / 100)
  let doe ← u64.fit (doe + doy)
  let days ← i64.fit (era * 146097)
  let days ← i64.fit (days + i64.wrap doe)
  i64.fit (days - 719468)

def secs : Checked ℤ := do
  let days ← f.daysSinceEpoch
  let secs ← i64.fit (days * 86400)
  let hours ← i64.fit (f.h * 3600)
  let secs ← i64.fit (secs + hours)
  let minutes ← i64.fit (f.mn * 60)
  let secs ← i64.fit (secs + minutes)
  i64.fit (secs + f.s)

def toMs : Checked (Option ℤ) := do
  let secs ← f.secs
  if secs < 0 then return none
  let scaled ← u64.fit (u64.wrap secs * 1000)
  let total ← u64.fit (scaled + f.ms)
  return some total

end Fields

def parseIsoToMs (iso : List Char) : Checked (Option ℤ) :=
  match readFields iso with
  | none => .ok none
  | some f => f.toMs

end Rovenue.Sdk

/-! What the counting of an expiry comes to: the day number of the calendar, wherever no result is
out of range. -/

namespace Rovenue.Sdk.Fields
open Arith Calendar IntRange
variable {f : Fields}

def dayOf (f : Fields) : ℤ := daysFromCivil f.y f.m f.day

def secsOf (f : Fields) : ℤ := dayOf f * 86400 + f.h * 3600 + f.mn * 60 + f.s

def Fit (f : Fields) : Prop :=
  ¬(f.m.val = 3 ∧ f.day.val = 0) ∧ secsOf f * 1000 + f.ms < 2 ^ 64

theorem u32_bounds (x : u32.Value) : 0 ≤ x.val ∧ x.val < 2 ^ 32 := by
  obtain ⟨hmin, hmax⟩ := x.property
  exact ⟨hmin, Int.lt_of_le_sub_one hmax⟩

theorem tdiv_era {yy : ℤ} (h : -1 ≤ yy) :
    (if 0 ≤ yy then yy else yy - 399).tdiv 400 = yy / 400 := by
  by_cases hpos : 0 ≤ yy
  · rw [if_pos hpos, Int.tdiv_eq_ediv_of_nonneg hpos]
  · have hyear : yy = -1 := by omega
    subst hyear
    decide

theorem era_days (yy : ℤ) : 365 * yy + yy / 4 - yy / 100 + yy / 400 =
    yy / 400 * 146097 + (yy % 400 * 365 + yy % 400 / 4 - yy % 400 / 100) := by
  have hfour : yy / 4 = yy / 400 * 100 + yy % 400 / 4 := by omega
  have hcentury : yy / 100 = yy / 400 * 4 + yy % 400 / 100 := by omega
  omega

theorem contains_i64 {x : ℤ} : i64.Contains x ↔ -2 ^ 63 ≤ x ∧ x < 2 ^ 63 :=
  and_congr_right' Int.le_sub_one_iff

theorem contains_u64 {x : ℤ} : u64.Contains x ↔ 0 ≤ x ∧ x < 2 ^ 64 :=
  and_congr_right' Int.le_sub_one_iff

theorem wrap_i64 {x : ℤ} (hmin : -2 ^ 63 ≤ x) (hmax : x < 2 ^ 63) : i64.wrap x = x :=
  wrap_of_contains (contains_i64.mpr ⟨hmin, hmax⟩)

theorem wrap_u64 {x : ℤ} (hmin : 0 ≤ x) (hmax : x < 2 ^ 64) : u64.wrap x = x :=
  wrap_of_contains (contains_u64.mpr ⟨hmin, hmax⟩)

theorem daysSinceEpoch_eq_ok_iff (hyear : 0 ≤ f.y.val) {d : ℤ} : f.daysSinceEpoch = .ok d ↔
    ¬(f.m.val = 3 ∧ f.day.val = 0) ∧ dayOf f + 719468 < 2 ^ 63 ∧ d = dayOf f := by
  have hy := (contains_i64.mp f.y.property).2
  have hm := u32_bounds f.m
  have hday := u32_bounds f.day
  have hyy : (if f.m.val ≤ 2 then f.y.val - 1 else f.y.val) = marchYear f.y f.m := by
    unfold marchYear
    split_ifs <;> omega
  have hmp : (if 2 < f.m.val then f.m.val - 3 else f.m.val + 9) = marchMonth f.m := by
    unfold marchMonth
    split_ifs <;> omega
  have hfrom : -1 ≤ marchYear f.y f.m ∧ marchYear f.y f.m < 2 ^ 63 := by
    unfold marchYear
    split_ifs <;> omega
  have hmonth : 0 ≤ marchMonth f.m ∧ marchMonth f.m < 2 ^ 32 ∧
      (marchMonth f.m = 0 ↔ f.m.val = 3) := by
    unfold marchMonth
    split_ifs <;> omega
  unfold daysSinceEpoch dayOf daysFromCivil monthStart
  rw [hyy, hmp]
  generalize marchYear f.y f.m = yy at *
  generalize marchMonth f.m = mp at *
  obtain ⟨hyear0, hyear1⟩ := hfrom
  obtain ⟨hmonth0, hmonth1, hmarch⟩ := hmonth
  have hera := tdiv_era hyear0
  have hrest : u64.wrap (yy - yy / 400 * 400) = yy % 400 := by
    have hmod : yy - yy / 400 * 400 = yy % 400 := by omega
    rw [hmod]
    apply wrap_u64 <;> omega
  have hdoe : i64.wrap (yy % 400 * 365 + yy % 400 / 4 - yy % 400 / 100 +
      ((153 * mp + 2) / 5 + f.day - 1)) = yy % 400 * 365 + yy % 400 / 4 - yy % 400 / 100 +
        ((153 * mp + 2) / 5 + f.day - 1) := by
    apply wrap_i64 <;> omega
  have hshifted : -2 ^ 63 ≤ (if 0 ≤ yy then yy else yy - 399) ∧
      (if 0 ≤ yy then yy else yy - 399) < 2 ^ 63 := by
    split_ifs <;> omega
  have hcount := era_days yy
  have hrange : 0 ≤ yy % 400 ∧ yy % 400 < 400 := by omega
  have hsplit : yy = yy / 400 * 400 + yy % 400 := by omega
  have hmonths : 0 ≤ (153 * mp + 2) / 5 ∧ (153 * mp + 2) / 5 < 2 ^ 38 ∧
      ((153 * mp + 2) / 5 = 0 ↔ mp = 0) := by
    omega
  simp only [fit_bind_eq_ok_iff, fit_eq_ok_iff, hera, hrest, hdoe, contains_i64, contains_u64,
    hshifted, true_and, ← hmarch, hcount, ← hmonths.2.2]
  generalize (153 * mp + 2) / 5 = months at *
  generalize yy / 400 = era at *
  generalize yy % 400 = yoe at *
  constructor
  · intro h
    omega
  · intro h
    omega

theorem le_dayOf (hyear : 0 ≤ f.y.val) : -720000 ≤ dayOf f := by
  have hm := u32_bounds f.m
  have hday := u32_bounds f.day
  unfold dayOf daysFromCivil monthStart marchYear marchMonth
  split_ifs <;> omega

theorem secs_eq_ok_iff (hyear : 0 ≤ f.y.val) {x : ℤ} : f.secs = .ok x ↔
    ¬(f.m.val = 3 ∧ f.day.val = 0) ∧ secsOf f < 2 ^ 63 ∧ x = secsOf f := by
  have hh := u32_bounds f.h
  have hmn := u32_bounds f.mn
  have hs := u32_bounds f.s
  have hday := le_dayOf hyear
  unfold secs secsOf
  simp only [bind_eq_ok_iff, daysSinceEpoch_eq_ok_iff hyear, fit_eq_ok_iff, contains_i64]
  constructor
  · rintro ⟨_, ⟨hfirst, -, rfl⟩, _, ⟨-, rfl⟩, _, ⟨-, rfl⟩, _, ⟨-, rfl⟩, _, ⟨-, rfl⟩, _, ⟨-, rfl⟩,
      ⟨-, hlast⟩, rfl⟩
    exact ⟨hfirst, hlast, rfl⟩
  · rintro ⟨hfirst, hlast, rfl⟩
    refine ⟨_, ⟨hfirst, by omega, rfl⟩, _, ⟨by omega, rfl⟩, _, ⟨by omega, rfl⟩, _, ⟨by omega, rfl⟩,
      _, ⟨by omega, rfl⟩, _, ⟨by omega, rfl⟩, by omega, rfl⟩

theorem toMs_eq_ok_iff (hyear : 0 ≤ f.y.val) {r : Option ℤ} : f.toMs = .ok r ↔
    Fit f ∧ r = if secsOf f < 0 then none else some (secsOf f * 1000 + f.ms) := by
  have hms := contains_u64.mp f.ms.property
  unfold toMs Fit
  rw [bind_eq_ok_iff]
  simp only [secs_eq_ok_iff hyear]
  constructor
  · rintro ⟨_, ⟨hfirst, hlast, rfl⟩, h⟩
    split_ifs at h with hneg
    · obtain rfl := Except.ok.inj h
      refine ⟨⟨hfirst, by omega⟩, ?_⟩
      rw [if_pos hneg]
    · have hwrap : u64.wrap (secsOf f) = secsOf f := by
        apply wrap_u64 <;> omega
      rw [hwrap, fit_bind_eq_ok_iff, fit_bind_eq_ok_iff] at h
      obtain ⟨-, htotal, hr⟩ := h
      obtain rfl := Except.ok.inj hr
      refine ⟨⟨hfirst, (contains_u64.mp htotal).2⟩, ?_⟩
      rw [if_neg hneg]
  · rintro ⟨⟨hfirst, htotal⟩, rfl⟩
    refine ⟨secsOf f, ⟨hfirst, by omega, rfl⟩, ?_⟩
    split_ifs with hneg
    · rfl
    · have hwrap : u64.wrap (secsOf f) = secsOf f := by
        apply wrap_u64 <;> omega
      rw [hwrap, fit_bind_eq_ok_iff, fit_bind_eq_ok_iff, contains_u64, contains_u64]
      exact ⟨by omega, by omega, rfl⟩

end Rovenue.Sdk.Fields
