import Rovenue.Calendar.Gregorian
import Rovenue.Sdk.ExpiryText
import Rovenue.Text.Scan

/-! When the expiry that is read is the one that is written. The first three digits of a fraction
are read as a number of milliseconds, however many digits there are. -/

namespace Rovenue.Sdk
open Arith Calendar Text IntRange

/-- `YYYY-MM-DDTHH:MM:SS[.f]Z` -/
structure Timestamp where
  date : IsoDate
  hour : ℕ
  minute : ℕ
  second : ℕ
  fraction : Option (List Char)
  since_epoch : 1970 ≤ date.year
  hour_valid : hour < 24
  minute_valid : minute < 60
  second_valid : second < 60
  digits : ∀ f ∈ fraction, AllDigits f

namespace Timestamp
variable (t : Timestamp)

def clock : List Char :=
  padded 2 t.hour ++ ':' :: (padded 2 t.minute ++ ':' :: padded 2 t.second)

def time : List Char :=
  match t.fraction with
  | none => t.clock
  | some f => t.clock ++ '.' :: f

def text : List Char := t.date.text ++ 'T' :: t.time ++ ['Z']

def seconds : ℤ := t.date.dayNumber * 86400 + t.hour * 3600 + t.minute * 60 + t.second

def instant : ℚ :=
  let f := t.fraction.getD []
  t.seconds + decimal f / 10 ^ f.length

def millis : ℤ := ⌊t.instant * 1000⌋

end Timestamp

section
variable {t : IntRange} {sep : Char} {a b : List Char}

theorem splitOnce_append (h : sep ∉ a) : splitOnce sep (a ++ sep :: b) = some (a, b) := by
  induction a with
  | nil => exact if_pos rfl
  | cons c a ih =>
    have hc := List.ne_of_not_mem_cons h
    show (if c = sep then _ else _) = _
    rw [if_neg hc.symm]
    show (splitOnce sep (a ++ sep :: b)).map _ = _
    rw [ih (List.not_mem_of_not_mem_cons h)]
    rfl

theorem splitOnce_of_not_mem (h : sep ∉ a) : splitOnce sep a = none := by
  induction a with
  | nil => rfl
  | cons c a ih =>
    have hc := List.ne_of_not_mem_cons h
    show (if c = sep then _ else _) = _
    rw [if_neg hc.symm, ih (List.not_mem_of_not_mem_cons h)]
    rfl

theorem stripLast_append (c : Char) (s : List Char) : stripLast c (s ++ [c]) = s := by
  unfold stripLast
  rw [List.getLast?_concat, if_pos rfl, List.dropLast_concat]

theorem parse_digits (hne : a ≠ []) (hdigits : AllDigits a) {n : ℕ} (hn : decimal a = n)
    (hfit : t.Contains n) : parse t a = some ⟨n, hfit⟩ := by
  subst hn
  have hread : parse t a = parseDigits t a (decimal a) := by
    unfold parse
    split
    · exact absurd hdigits.head (by decide)
    · exact absurd hdigits.head (by decide)
    · rfl
  have hall : a.all Char.isDigit = true := List.all_eq_true.mpr hdigits
  rw [hread]
  unfold parseDigits
  exact dif_pos ⟨hne, hall, hfit⟩

theorem not_mem_of_allDigits {c : Char} (h : AllDigits a) (hc : c.isDigit = false) : c ∉ a := by
  intro hmem
  exact Bool.false_ne_true (hc.symm.trans (h c hmem))

theorem padded_ne_nil {width n : ℕ} (hpos : 0 < width) (h : n < 10 ^ width) : padded width n ≠ [] := by
  apply List.ne_nil_of_length_pos
  rw [length_padded hpos h]
  exact hpos

theorem parse_padded {width n : ℕ} (hpos : 0 < width) (h : n < 10 ^ width) (hfit : t.Contains n) :
    parse t (padded width n) = some ⟨n, hfit⟩ :=
  parse_digits (padded_ne_nil hpos h) (allDigits_padded width n) (decimal_padded width n) hfit

end

namespace Timestamp
variable (t : Timestamp)

theorem u32_of_lt {n : ℕ} (h : n < 100) : u32.Contains n :=
  ⟨Int.natCast_nonneg n, by show (n : ℤ) ≤ 2 ^ 32 - 1; omega⟩

def fields : Fields where
  y := ⟨t.date.year.toNat, Fields.contains_i64.mpr (by have := t.date.year_lt; omega)⟩
  m := ⟨t.date.month.toNat, u32_of_lt t.date.month_lt⟩
  day := ⟨t.date.day.toNat, u32_of_lt t.date.day_lt⟩
  h := ⟨t.hour, u32_of_lt (by have := t.hour_valid; omega)⟩
  mn := ⟨t.minute, u32_of_lt (by have := t.minute_valid; omega)⟩
  s := ⟨t.second, u32_of_lt (by have := t.second_valid; omega)⟩
  ms := parseMs (t.fraction.getD ['0'])

theorem splitOn_text : t.date.text.splitOn '-' = [padded 4 t.date.year.toNat,
    padded 2 t.date.month.toNat, padded 2 t.date.day.toNat] := by
  have hdash : ∀ width n, '-' ∉ padded width n := fun width n =>
    not_mem_of_allDigits (allDigits_padded width n) (by decide)
  unfold IsoDate.text isoText
  rw [List.splitOn_append_cons_self_of_not_mem (hdash _ _),
    List.splitOn_append_cons_self_of_not_mem (hdash _ _), List.splitOn_eq_singleton (hdash _ _)]

theorem splitOn_clock : t.clock.splitOn ':' =
    [padded 2 t.hour, padded 2 t.minute, padded 2 t.second] := by
  have hcolon : ∀ width n, ':' ∉ padded width n := fun width n =>
    not_mem_of_allDigits (allDigits_padded width n) (by decide)
  unfold clock
  rw [List.splitOn_append_cons_self_of_not_mem (hcolon _ _),
    List.splitOn_append_cons_self_of_not_mem (hcolon _ _), List.splitOn_eq_singleton (hcolon _ _)]

theorem splitOnce_text : splitOnce 'T' (stripLast 'Z' t.text) = some (t.date.text, t.time) := by
  unfold text
  rw [stripLast_append]
  apply splitOnce_append
  have hletter : ∀ width n, 'T' ∉ padded width n := fun width n =>
    not_mem_of_allDigits (allDigits_padded width n) (by decide)
  unfold IsoDate.text isoText
  simp [hletter]

theorem splitFraction_time : splitFraction t.time = (t.clock, t.fraction.getD ['0']) := by
  have hpoint : '.' ∉ t.clock := by
    have hpadded : ∀ width n, '.' ∉ padded width n := fun width n =>
      not_mem_of_allDigits (allDigits_padded width n) (by decide)
    unfold clock
    simp [hpadded]
  unfold splitFraction
  cases hfraction : t.fraction with
  | none =>
    have htime : t.time = t.clock := by
      unfold time
      rw [hfraction]
    rw [htime, splitOnce_of_not_mem hpoint]
    rfl
  | some f =>
    have hz : f.rdropWhile (· = 'Z') = f := by
      apply List.rdropWhile_eq_self_iff.mpr
      intro hne hlast
      have hdigit := t.digits f hfraction _ (List.getLast_mem hne)
      rw [of_decide_eq_true hlast] at hdigit
      exact absurd hdigit (by decide)
    have htime : t.time = t.clock ++ '.' :: f := by
      unfold time
      rw [hfraction]
    rw [htime, splitOnce_append hpoint]
    show (t.clock, f.rdropWhile (· = 'Z')) = _
    rw [hz]
    rfl

theorem readFields_text : readFields t.text = some t.fields := by
  have hy : parse i64 (padded 4 t.date.year.toNat) = some t.fields.y :=
    parse_padded (by decide) t.date.year_lt _
  have hm : parse u32 (padded 2 t.date.month.toNat) = some t.fields.m :=
    parse_padded (by decide) t.date.month_lt _
  have hday : parse u32 (padded 2 t.date.day.toNat) = some t.fields.day :=
    parse_padded (by decide) t.date.day_lt _
  have hh : parse u32 (padded 2 t.hour) = some t.fields.h :=
    parse_padded (by decide) (by have := t.hour_valid; omega) _
  have hmn : parse u32 (padded 2 t.minute) = some t.fields.mn :=
    parse_padded (by decide) (by have := t.minute_valid; omega) _
  have hs : parse u32 (padded 2 t.second) = some t.fields.s :=
    parse_padded (by decide) (by have := t.second_valid; omega) _
  unfold readFields
  rw [t.splitOnce_text]
  simp only [Option.bind_eq_bind, Option.bind_some, t.splitOn_text, t.splitFraction_time,
    t.splitOn_clock, List.getElem?_cons_zero, List.getElem?_cons_succ, hy, hm, hday, hh, hmn, hs]
  rfl

def readMs : ℕ := decimal ((t.fraction.getD []).take 3)

theorem parseMs_digits {f : List Char} (h : AllDigits f) :
    (parseMs f).val = decimal (f.take 3) := by
  have htake : AllDigits (f.take 3) := fun c hc => h c (List.mem_of_mem_take hc)
  have hlt := decimal_lt htake
  have hpow : 10 ^ (f.take 3).length ≤ 10 ^ 3 :=
    Nat.pow_le_pow_right (by decide) (List.length_take_le 3 f)
  unfold parseMs
  by_cases hempty : f.take 3 = []
  · rw [hempty]
    rfl
  · rw [parse_digits hempty htake rfl (Fields.contains_u64.mpr (by omega))]
    rfl

theorem ms_fields : t.fields.ms.val = t.readMs := by
  show (parseMs (t.fraction.getD ['0'])).val = decimal ((t.fraction.getD []).take 3)
  cases hfraction : t.fraction with
  | none => decide
  | some f => exact parseMs_digits (t.digits f hfraction)

theorem readMs_lt : t.readMs < 1000 := by
  have htake : AllDigits ((t.fraction.getD []).take 3) := by
    intro c hc
    have hc := List.mem_of_mem_take hc
    cases hfraction : t.fraction with
    | none =>
      rw [hfraction] at hc
      exact absurd hc List.not_mem_nil
    | some f =>
      rw [hfraction] at hc
      exact t.digits f hfraction c hc
  calc t.readMs < 10 ^ ((t.fraction.getD []).take 3).length := decimal_lt htake
    _ ≤ 10 ^ 3 := Nat.pow_le_pow_right (by decide) (List.length_take_le 3 _)

theorem secsOf_fields : t.fields.secsOf = t.seconds := by
  have hy : (t.date.year.toNat : ℤ) = t.date.year := Int.toNat_of_nonneg t.date.year_valid.1
  have hm : (t.date.month.toNat : ℤ) = t.date.month :=
    Int.toNat_of_nonneg (by have := t.date.month_valid.1; omega)
  have hday : (t.date.day.toNat : ℤ) = t.date.day :=
    Int.toNat_of_nonneg (by have := t.date.day_valid.1; omega)
  show daysFromCivil t.date.year.toNat t.date.month.toNat t.date.day.toNat * 86400 +
    t.hour * 3600 + t.minute * 60 + t.second = t.seconds
  rw [hy, hm, hday]
  rfl

theorem dayNumber_bounds : 0 ≤ t.date.dayNumber ∧ t.date.dayNumber < 2932897 := by
  obtain ⟨hfrom, hto⟩ := t.date.dayNumber_mem_year
  have hfirst : monthStart 1970 1 ≤ monthStart t.date.year 1 :=
    CivilDate.yearStart_strictMono.monotone t.since_epoch
  have hlast : monthStart (t.date.year + 1) 1 ≤ monthStart 10000 1 :=
    CivilDate.yearStart_strictMono.monotone t.date.year_valid.2
  exact ⟨hfirst.trans hfrom, hto.trans_le hlast⟩

theorem parseIsoToMs_text : parseIsoToMs t.text = .ok (some (t.seconds * 1000 + t.readMs)) := by
  have hday := t.dayNumber_bounds
  have hhour := t.hour_valid
  have hminute := t.minute_valid
  have hsecond := t.second_valid
  have hms := t.readMs_lt
  have hseconds : 0 ≤ t.seconds ∧ t.seconds < 2932897 * 86400 := by
    unfold seconds
    omega
  unfold parseIsoToMs
  rw [t.readFields_text]
  show t.fields.toMs = _
  rw [Fields.toMs_eq_ok_iff (Int.natCast_nonneg _), Fields.Fit, t.secsOf_fields, t.ms_fields]
  refine ⟨⟨?_, by omega⟩, ?_⟩
  · rintro ⟨-, hzero⟩
    have hpos := t.date.day_valid.1
    have hzero : (t.date.day.toNat : ℤ) = 0 := hzero
    omega
  · rw [if_neg (not_lt.mpr hseconds.1)]

theorem millis_eq : t.millis = t.seconds * 1000 +
    (decimal (t.fraction.getD []) * 1000 / 10 ^ (t.fraction.getD []).length : ℕ) := by
  have hscale : t.instant * 1000 = ((t.seconds * 1000 : ℤ) : ℚ) +
      ((decimal (t.fraction.getD []) * 1000 : ℕ) : ℚ) / ((10 ^ (t.fraction.getD []).length : ℕ) : ℚ) := by
    unfold instant
    push_cast
    ring
  unfold millis
  rw [hscale, Int.floor_intCast_add, Rat.floor_natCast_div_natCast, Int.natCast_div]

/-- The fraction is written with three digits or more, or it is zero. -/
def Carried : Prop := ∀ f ∈ t.fraction, 3 ≤ f.length ∨ ∀ c ∈ f, c = '0'

theorem decimal_take_iff {f : List Char} (h : AllDigits f) :
    decimal (f.take 3) = decimal f * 1000 / 10 ^ f.length ↔ 3 ≤ f.length ∨ ∀ c ∈ f, c = '0' := by
  -- the first digits are the value in thousandths where there are three of them, and where the
  -- value is zero
  by_cases hlong : 3 ≤ f.length
  · refine iff_of_true ?_ (Or.inl hlong)
    have htail : AllDigits (f.drop 3) := fun c hc => h c (List.mem_of_mem_drop hc)
    have hsmall := decimal_lt htail
    have hvalue : decimal f = decimal (f.take 3) * 10 ^ (f.drop 3).length + decimal (f.drop 3) := by
      rw [← decimal_append, List.take_append_drop]
    have hlength : f.length = (f.drop 3).length + 3 := by
      rw [List.length_drop]
      omega
    have hpow : 10 ^ f.length = 10 ^ (f.drop 3).length * 1000 := by
      rw [hlength, pow_add]
      norm_num
    rw [hpow, Nat.mul_div_mul_right _ _ (by decide), hvalue, Nat.mul_comm,
      Nat.mul_add_div (Nat.pow_pos (by decide)), Nat.div_eq_of_lt hsmall, Nat.add_zero]
  · rw [or_iff_right hlong, ← decimal_eq_zero_iff h, List.take_of_length_le (by omega)]
    have hcases : f.length = 0 ∨ f.length = 1 ∨ f.length = 2 := by omega
    rcases hcases with hlength | hlength | hlength
    · rw [List.eq_nil_of_length_eq_zero hlength]
      decide
    · rw [hlength]
      omega
    · rw [hlength]
      omega

theorem parse_exact_iff : parseIsoToMs t.text = .ok (some t.millis) ↔ t.Carried := by
  rw [parseIsoToMs_text, Except.ok.injEq, Option.some.injEq, millis_eq, Int.add_right_inj,
    Int.natCast_inj]
  unfold readMs Carried
  cases hfraction : t.fraction with
  | none => exact iff_of_true rfl nofun
  | some f =>
    refine (decimal_take_iff (t.digits f hfraction)).trans ?_
    constructor
    · intro h g hg
      obtain rfl := Option.some.inj hg
      exact h
    · exact fun h => h f rfl

theorem millis_mono {a b : Timestamp} (h : a.instant ≤ b.instant) : a.millis ≤ b.millis := by
  apply Int.floor_le_floor
  exact mul_le_mul_of_nonneg_right h (by norm_num)

end Timestamp

theorem parseDigits_nonneg {t : IntRange} {digits : List Char} {x : t.Value}
    (h : parseDigits t digits (decimal digits) = some x) : 0 ≤ x.val := by
  unfold parseDigits at h
  split_ifs at h with hvalid
  obtain rfl := Option.some.inj h
  exact Int.natCast_nonneg _

theorem parse_nonneg {t : IntRange} {text : List Char} {x : t.Value} (hdash : '-' ∉ text)
    (h : parse t text = some x) : 0 ≤ x.val := by
  unfold parse at h
  split at h
  · exact parseDigits_nonneg h
  · exact absurd List.mem_cons_self hdash
  · exact parseDigits_nonneg h

theorem year_nonneg {iso : List Char} {f : Fields} (h : readFields iso = some f) : 0 ≤ f.y.val := by
  unfold readFields at h
  obtain ⟨⟨date, time⟩, -, h⟩ := Option.bind_eq_some_iff.mp h
  obtain ⟨y, hy, h⟩ := Option.bind_eq_some_iff.mp h
  obtain ⟨m, -, h⟩ := Option.bind_eq_some_iff.mp h
  obtain ⟨day, -, h⟩ := Option.bind_eq_some_iff.mp h
  obtain ⟨hour, -, h⟩ := Option.bind_eq_some_iff.mp h
  obtain ⟨mn, -, h⟩ := Option.bind_eq_some_iff.mp h
  obtain ⟨s, -, h⟩ := Option.bind_eq_some_iff.mp h
  obtain rfl := Option.some.inj h
  obtain ⟨piece, hpiece, hparse⟩ := Option.bind_eq_some_iff.mp hy
  have hmem := List.mem_of_getElem? hpiece
  rw [List.splitOn_eq_splitOnP] at hmem
  apply parse_nonneg _ hparse
  intro hdash
  have hspaceless : ('-' == '-') = false := spaceless_of_mem_splitOnP date piece hmem '-' hdash
  rw [beq_self_eq_true] at hspaceless
  exact Bool.false_ne_true hspaceless.symm

/-- Whatever is read of the text can be counted. -/
def FieldsFit (iso : List Char) : Prop := ∀ f, readFields iso = some f → f.Fit

theorem parse_returns_iff {iso : List Char} :
    parseIsoToMs iso ≠ .error .overflow ↔ FieldsFit iso := by
  unfold parseIsoToMs FieldsFit
  cases hread : readFields iso with
  | none =>
    refine iff_of_true ?_ ?_
    · intro h
      cases h
    · intro f hf
      cases hf
  | some f =>
    have hyear := year_nonneg hread
    show f.toMs ≠ .error .overflow ↔ ∀ g, some f = some g → g.Fit
    constructor
    · intro h g hg
      obtain rfl := Option.some.inj hg
      cases hms : f.toMs with
      | error e =>
        cases e
        exact absurd hms h
      | ok r => exact ((Fields.toMs_eq_ok_iff hyear).mp hms).1
    · intro h
      rw [(Fields.toMs_eq_ok_iff hyear).mpr ⟨h f rfl, rfl⟩]
      exact nofun

/-- A text is read without overflow, and two timestamps exactly and in their order. -/
structure ParseRight (iso : List Char) (a b : Timestamp) : Prop where
  returns : parseIsoToMs iso ≠ .error .overflow
  exact_first : parseIsoToMs a.text = .ok (some a.millis)
  exact_second : parseIsoToMs b.text = .ok (some b.millis)
  mono : a.instant ≤ b.instant → ∀ x y, parseIsoToMs a.text = .ok (some x) →
    parseIsoToMs b.text = .ok (some y) → x ≤ y

theorem parseRight_iff (iso : List Char) (a b : Timestamp) :
    ParseRight iso a b ↔ FieldsFit iso ∧ a.Carried ∧ b.Carried := by
  rw [← parse_returns_iff, ← a.parse_exact_iff, ← b.parse_exact_iff]
  constructor
  · intro h
    exact ⟨h.returns, h.exact_first, h.exact_second⟩
  · rintro ⟨hreturns, hfirst, hsecond⟩
    refine ⟨hreturns, hfirst, hsecond, ?_⟩
    intro hle x y hx hy
    obtain rfl := Option.some.inj (Except.ok.inj (hfirst.symm.trans hx))
    obtain rfl := Option.some.inj (Except.ok.inj (hsecond.symm.trans hy))
    exact Timestamp.millis_mono hle

theorem january_valid : (1 : ℤ) ≤ 1 ∧ (1 : ℤ) ≤ 12 := by decide

def newYear (fraction : List Char) (digits : fraction.all Char.isDigit = true) : Timestamp where
  date := { year := 2030, month := 1, day := 1, month_valid := january_valid, day_valid := by decide
            year_valid := by decide }
  hour := 0
  minute := 0
  second := 0
  fraction := some fraction
  since_epoch := by decide
  hour_valid := by decide
  minute_valid := by decide
  second_valid := by decide
  digits := by
    intro f hf
    obtain rfl := Option.some.inj hf
    exact List.all_eq_true.mp digits

def pointFive : Timestamp := newYear ['5'] (by decide)

def pointFourFive : Timestamp := newYear ['4', '5'] (by decide)

theorem expiry_misread :
    parseIsoToMs "2030-03-00T00:00:00Z".toList = .error .overflow ∧
      parseIsoToMs pointFive.text ≠ .ok (some pointFive.millis) ∧
      ¬ParseRight [] pointFourFive pointFive := by
  have hfive : parseIsoToMs pointFive.text = .ok (some 1893456000005) := by decide
  have hfourFive : parseIsoToMs pointFourFive.text = .ok (some 1893456000045) := by decide
  refine ⟨by decide, ?_, ?_⟩
  · rw [hfive]
    decide +kernel
  · intro h
    have hlater := h.mono (by decide +kernel) _ _ hfourFive hfive
    exact absurd hlater (by decide)

end Rovenue.Sdk
