import Rovenue.Calendar.Gregorian
import Rovenue.Funnel.Evaluator

/-! The operators that measure days before today, against the days of the calendar. -/

namespace Rovenue.Funnel
open Txn (Table)
open Calendar (CivilDate IsoDate daysFromCivil civilOfDay)
open Text (decimal padded AllDigits)

theorem makeDay_eq {year month day : ℤ} (hpos : 1 ≤ month) (hle : month ≤ 12) :
    makeDay year (month - 1) day = daysFromCivil year month day := by
  have hcarry : (month - 1) / 12 = 0 := by omega
  have hindex : (month - 1) % 12 = month - 1 := by omega
  unfold makeDay daysFromCivil Calendar.monthStart Calendar.marchYear Calendar.marchMonth
  simp only [hcarry, hindex, add_zero]
  by_cases h : month < 3
  · have h' : month - 1 < 2 := by omega
    simp only [h, h', if_true]
    omega
  · have h' : ¬month - 1 < 2 := by omega
    simp only [h, h', if_false]
    omega

theorem dateOfDay_eq (n : ℤ) :
    dateOfDay n = ((civilOfDay n).year, (civilOfDay n).month, (civilOfDay n).day) := by
  have hpos := (Calendar.marchDate_spec n).1
  change ((Calendar.marchDate n).year + (if (if (Calendar.marchDate n).month < 10 then
      (Calendar.marchDate n).month + 3 else (Calendar.marchDate n).month - 9) ≤ 2 then 1 else 0), _, _) =
    ((Calendar.marchDate n).year + (if (Calendar.marchDate n).month < 10 then 0 else 1), _, _)
  have hyear : (if (if (Calendar.marchDate n).month < 10 then (Calendar.marchDate n).month + 3
      else (Calendar.marchDate n).month - 9) ≤ 2 then (1 : ℤ) else 0) =
      if (Calendar.marchDate n).month < 10 then 0 else 1 := by
    have hle := (Calendar.marchDate_spec n).2.1
    split_ifs <;> omega
  rw [hyear]
  rfl

def IsoDate.string (d : IsoDate) : String := String.ofList d.text

def shownDate (d : CivilDate) : String :=
  padStart 4 (toString d.year) ++ "-" ++ padStart 2 (toString d.month) ++ "-" ++
    padStart 2 (toString d.day)

theorem numberOfDigits_eq (digits : List Char) : numberOfDigits digits = (decimal digits : ℤ) := by
  have hfold : ∀ (cs : List Char) (n : ℕ),
      cs.foldl (fun (n : ℤ) c => 10 * n + (c.toNat - '0'.toNat : ℕ)) (n : ℤ) =
        (Nat.ofDigitChars 10 cs n : ℤ) := by
    intro cs
    induction cs with
    | nil => exact fun n => rfl
    | cons c cs ih =>
      intro n
      rw [List.foldl_cons, Nat.ofDigitChars_cons, ← ih]
      push_cast
      rfl
  exact hfold digits 0

theorem eq_four {l : List Char} (h : l.length = 4) : ∃ a b c d, l = [a, b, c, d] := by
  obtain ⟨a, l, rfl⟩ := List.exists_cons_of_length_eq_add_one h
  obtain ⟨b, c, d, rfl⟩ := List.length_eq_three.mp (Nat.succ.inj h)
  exact ⟨a, b, c, d, rfl⟩

theorem text_cases (d : IsoDate) : ∃ y₁ y₂ y₃ y₄ m₁ m₂ d₁ d₂ : Char,
    d.text = [y₁, y₂, y₃, y₄, '-', m₁, m₂, '-', d₁, d₂] ∧
      padded 4 d.year.toNat = [y₁, y₂, y₃, y₄] ∧ padded 2 d.month.toNat = [m₁, m₂] ∧
      padded 2 d.day.toNat = [d₁, d₂] := by
  obtain ⟨y₁, y₂, y₃, y₄, hy⟩ := eq_four (Text.length_padded (by norm_num) d.year_lt)
  obtain ⟨m₁, m₂, hm⟩ := List.length_eq_two.mp (Text.length_padded (by norm_num) d.month_lt)
  obtain ⟨d₁, d₂, hd⟩ := List.length_eq_two.mp (Text.length_padded (by norm_num) d.day_lt)
  refine ⟨y₁, y₂, y₃, y₄, m₁, m₂, d₁, d₂, ?_, hy, hm, hd⟩
  rw [IsoDate.text, Calendar.isoText, hy, hm, hd]
  rfl

theorem isIsoDate_string (d : IsoDate) : isIsoDate (IsoDate.string d) = true := by
  obtain ⟨y₁, y₂, y₃, y₄, m₁, m₂, d₁, d₂, htext, hy, hm, hd⟩ := text_cases d
  have hyear := Text.allDigits_padded 4 d.year.toNat
  have hmonth := Text.allDigits_padded 2 d.month.toNat
  have hday := Text.allDigits_padded 2 d.day.toNat
  rw [hy] at hyear
  rw [hm] at hmonth
  rw [hd] at hday
  unfold isIsoDate IsoDate.string
  rw [String.toList_ofList, htext]
  simp only [List.all_eq_true]
  intro c hc
  have hparts : c ∈ [y₁, y₂, y₃, y₄] ∨ c ∈ [m₁, m₂] ∨ c ∈ [d₁, d₂] := by
    simp only [List.mem_cons] at hc ⊢
    tauto
  rcases hparts with h | h | h
  · exact hyear c h
  · exact hmonth c h
  · exact hday c h

theorem shiftIsoDays_string (today : IsoDate) (hyear : 100 ≤ today.year) (days : ℤ) :
    shiftIsoDays (IsoDate.string today) days =
      if (today.dayNumber + days).natAbs ≤ maxDay then
        some (shownDate (civilOfDay (today.dayNumber + days)))
      else some "0NaN-NaN-NaN" := by
  obtain ⟨y₁, y₂, y₃, y₄, m₁, m₂, d₁, d₂, htext, hy, hm, hd⟩ := text_cases today
  have hmonths := today.month_valid
  have hdays := today.day_valid.1
  have hlist : (IsoDate.string today).toList = [y₁, y₂, y₃, y₄, '-', m₁, m₂, '-', d₁, d₂] := by
    rw [IsoDate.string, String.toList_ofList, htext]
  have hyearNumber : numberOfDigits [y₁, y₂, y₃, y₄] = today.year := by
    rw [numberOfDigits_eq, ← hy, Text.decimal_padded, Int.toNat_of_nonneg (by omega)]
  have hmonthNumber : numberOfDigits [m₁, m₂] = today.month := by
    rw [numberOfDigits_eq, ← hm, Text.decimal_padded, Int.toNat_of_nonneg (by omega)]
  have hdayNumber : numberOfDigits [d₁, d₂] = today.day := by
    rw [numberOfDigits_eq, ← hd, Text.decimal_padded, Int.toNat_of_nonneg (by omega)]
  have hcentury : ¬today.year ≤ 99 := by omega
  unfold shiftIsoDays
  simp only [isIsoDate_string, hlist, hyearNumber, hmonthNumber, hdayNumber, hcentury, if_false,
    makeDay_eq hmonths.1 hmonths.2, dateOfDay_eq]
  rfl

theorem toList_padStart_natCast (width n : ℕ) :
    (padStart width (toString (n : ℤ))).toList = padded width n := by
  have hshown : toString (n : ℤ) = String.ofList (Nat.toDigits 10 n) := by
    rw [← Nat.toString_eq_ofList_toDigits]
    rfl
  unfold padStart padded Text.padStart
  rw [hshown, String.toList_append, String.toList_ofList, String.toList_ofList, String.length_ofList]

theorem toList_shownDate (d : IsoDate) : (shownDate d.toCivilDate).toList = d.text := by
  have hy := d.year_valid.1
  have hm := d.month_valid.1
  have hd := d.day_valid.1
  unfold shownDate
  rw [← Int.toNat_of_nonneg hy, ← Int.toNat_of_nonneg (show 0 ≤ d.month by omega),
    ← Int.toNat_of_nonneg (show 0 ≤ d.day by omega)]
  simp only [String.toList_append, toList_padStart_natCast]
  simp [IsoDate.text, Calendar.isoText]

theorem lt_of_toNat_lt {c d : Char} (h : c.toNat < d.toNat) : c < d := by
  rw [Char.lt_def, UInt32.lt_iff_toNat_lt]
  exact h

theorem text_leading (d : IsoDate) : ∃ y₁ y₂ : Char, ∃ rest : List Char,
    d.text = y₁ :: y₂ :: rest ∧ y₁.isDigit ∧ y₂.isDigit ∧
      (100 ≤ d.year → y₁ = '0' → '0' < y₂) ∧ (1000 ≤ d.year ↔ y₁ ≠ '0') := by
  obtain ⟨y₁, y₂, y₃, y₄, m₁, m₂, d₁, d₂, htext, hy, -, -⟩ := text_cases d
  have hdigits := Text.allDigits_padded 4 d.year.toNat
  have hvalue := Text.decimal_padded 4 d.year.toNat
  rw [hy] at hdigits hvalue
  have h₁ : y₁.isDigit := hdigits y₁ (by simp)
  have h₂ : y₂.isDigit := hdigits y₂ (by simp)
  have h₃ := Text.digitOf_lt (hdigits y₃ (by simp))
  have h₄ := Text.digitOf_lt (hdigits y₄ (by simp))
  have hlow := Text.digitOf_lt h₂
  have hpos := d.year_valid.1
  simp only [Text.decimal_cons, Text.decimal_nil, List.length_cons, List.length_nil] at hvalue
  norm_num at hvalue
  refine ⟨y₁, y₂, _, htext, h₁, h₂, fun hyear hzero => ?_, ?_⟩
  · rw [hzero] at hvalue
    change 0 * 1000 + _ = _ at hvalue
    rw [← Text.digitOf_lt_iff (by decide) h₂]
    change 0 < Text.digitOf y₂
    omega
  · constructor
    · rintro hyear hzero
      rw [hzero] at hvalue
      change 0 * 1000 + _ = _ at hvalue
      omega
    · intro hne
      have hfirst := Text.digitOf_pos h₁ hne
      omega

theorem signed_lt {zeros : ℕ} (hzeros : zeros ≤ 2) {y₁ y₂ : Char} (h₁ : y₁.isDigit)
    (h₂ : y₂.isDigit) (hyear : y₁ = '0' → '0' < y₂) (rest later : List Char) :
    List.replicate zeros '0' ++ '-' :: rest < y₁ :: y₂ :: later := by
  have hsign : ∀ c : Char, c.isDigit → '-' < c := by
    intro c hc
    apply lt_of_toNat_lt
    rw [Text.toNat_eq_of_isDigit hc]
    change 45 < _
    omega
  have hfirst : '0' = y₁ ∨ '0' < y₁ := by
    by_cases hzero : y₁ = '0'
    · exact Or.inl hzero.symm
    · right
      rw [← Text.digitOf_lt_iff (by decide) h₁]
      exact Text.digitOf_pos h₁ hzero
  interval_cases zeros
  · exact List.cons_lt_cons_iff.mpr (Or.inl (hsign y₁ h₁))
  · refine List.cons_lt_cons_iff.mpr (hfirst.symm.imp_right fun heq => ⟨heq, ?_⟩)
    exact List.cons_lt_cons_iff.mpr (Or.inl (hsign y₂ h₂))
  · refine List.cons_lt_cons_iff.mpr (hfirst.symm.imp_right fun heq => ⟨heq, ?_⟩)
    exact List.cons_lt_cons_iff.mpr (Or.inl (hyear heq.symm))

theorem shownDate_lt_of_neg {d : CivilDate} (hneg : d.year < 0) {a : IsoDate} (ha : 100 ≤ a.year) :
    (shownDate d).toList < a.text := by
  obtain ⟨y₁, y₂, rest, htext, h₁, h₂, hzero, -⟩ := text_leading a
  obtain ⟨k, hk⟩ := Int.eq_negSucc_of_lt_zero hneg
  have hshown : (toString d.year).toList = '-' :: Nat.toDigits 10 (k + 1) := by
    rw [hk]
    change ("-" ++ toString (k + 1)).toList = _
    simp [String.toList_append]
  have hlength : (toString d.year).length = (Nat.toDigits 10 (k + 1)).length + 1 := by
    rw [← String.length_toList, hshown, List.length_cons]
  have hpos : 0 < (Nat.toDigits 10 (k + 1)).length := Nat.length_toDigits_pos
  unfold shownDate padStart
  simp only [String.toList_append, String.toList_ofList, hshown, List.append_assoc,
    List.cons_append]
  rw [htext]
  apply signed_lt (by omega) h₁ h₂ (hzero ha)

theorem invalid_lt_iff (a : IsoDate) : "0NaN-NaN-NaN".toList ≤ a.text ↔ 1000 ≤ a.year := by
  -- a cutoff out of range is no date, and stands between the years with a leading zero and the
  -- others
  obtain ⟨y₁, y₂, rest, htext, h₁, h₂, -, hyear⟩ := text_leading a
  rw [htext, hyear, ← not_lt]
  change ¬y₁ :: y₂ :: rest < '0' :: 'N' :: _ ↔ _
  rw [List.cons_lt_cons_iff, List.cons_lt_cons_iff]
  have hletter : y₂ < 'N' := by
    apply lt_of_toNat_lt
    have hlt := Text.digitOf_lt h₂
    rw [Text.toNat_eq_of_isDigit h₂]
    change _ < 78
    omega
  have hzero : ¬y₁ < '0' := by
    intro h
    have hle := (Text.digitOf_lt_iff h₁ (by decide)).mpr h
    change Text.digitOf y₁ < 0 at hle
    omega
  simp [hletter, hzero]

theorem shownDate_le_iff {a : IsoDate} (ha : 100 ≤ a.year) {n : ℤ}
    (hn : (civilOfDay n).year < 10000) : (shownDate (civilOfDay n)).toList ≤ a.text ↔
      n ≤ a.dayNumber := by
  by_cases hneg : (civilOfDay n).year < 0
  · refine iff_of_true (shownDate_lt_of_neg hneg ha).le ?_
    have hbefore : (civilOfDay n).Before a.toCivilDate := Or.inl (by omega)
    have hlt := CivilDate.dayNumber_lt_of_before hbefore
    rw [Calendar.dayNumber_civilOfDay] at hlt
    exact hlt.le
  · have hshown := toList_shownDate ⟨civilOfDay n, not_lt.mp hneg, hn⟩
    change (shownDate (civilOfDay n)).toList = _ at hshown
    rw [hshown, IsoDate.text_le_iff]
    change (civilOfDay n).dayNumber ≤ _ ↔ _
    rw [Calendar.dayNumber_civilOfDay]

def daysBetween (a today : IsoDate) : ℤ := today.dayNumber - a.dayNumber

def relativeClause (op : ClauseOp) (questionId : String) (n : ℕ) : Clause where
  questionId := questionId
  op := op
  value := some (.scalar (.num n))

/-- The two operators measure days: for a date of the past exactly one of them holds, for one of the
future neither. -/
structure MeasuresDays (a today : IsoDate) (n : ℕ) (within moreThan : Bool) : Prop where
  within_iff : within = true ↔ 0 ≤ daysBetween a today ∧ daysBetween a today ≤ n
  moreThan_iff : moreThan = true ↔ n < daysBetween a today
  past : 0 ≤ daysBetween a today → within ≠ moreThan
  future : daysBetween a today < 0 → within = false ∧ moreThan = false

theorem measuresDays_of_iff {a today : IsoDate} {n : ℕ} {within moreThan : Bool}
    (hwithin : within = true ↔ 0 ≤ daysBetween a today ∧ daysBetween a today ≤ n)
    (hmore : moreThan = true ↔ n < daysBetween a today) :
    MeasuresDays a today n within moreThan where
  within_iff := hwithin
  moreThan_iff := hmore
  past hpast heq := by
    rw [← heq, hwithin] at hmore
    omega
  future hfuture := by
    rw [Bool.eq_false_iff, Bool.eq_false_iff, ne_eq, ne_eq, hwithin, hmore]
    omega

/-- The answer to a question measured with both operators, today being given. -/
def OperatorsMeasure (a today : IsoDate) (n : ℕ) : Prop :=
  ∀ questionId answers, resolveAnswer questionId answers = some (.scalar (.str (IsoDate.string a))) →
    MeasuresDays a today n
      (evalClause (relativeClause .withinLastDays questionId n) answers (some (IsoDate.string today)))
      (evalClause (relativeClause .moreThanDaysAgo questionId n) answers
        (some (IsoDate.string today)))

theorem compareToday_eq (a today : IsoDate) (htoday : 100 ≤ today.year) (n : ℕ)
    (r : String → String → String → Bool) :
    compareToday (some (.scalar (.str (IsoDate.string a)))) (some (.scalar (.num n)))
      (some (IsoDate.string today)) r =
      r (IsoDate.string a) (if (today.dayNumber - n).natAbs ≤ maxDay then
        shownDate (civilOfDay (today.dayNumber - n)) else "0NaN-NaN-NaN") (IsoDate.string today) := by
  have hshift := shiftIsoDays_string today htoday (-(n : ℤ))
  rw [← apply_ite some, ← sub_eq_add_neg] at hshift
  simp [compareToday, isIsoDate_string, hshift]

theorem string_le_iff (a b : IsoDate) :
    IsoDate.string a ≤ IsoDate.string b ↔ a.dayNumber ≤ b.dayNumber := by
  rw [String.le_iff_toList_le, IsoDate.string, IsoDate.string, String.toList_ofList,
    String.toList_ofList, IsoDate.text_le_iff]

section Operators
variable {a today : IsoDate} {n : ℕ}

theorem dayNumber_le_maxDay (today : IsoDate) : today.dayNumber ≤ maxDay := by
  have hstart : Calendar.monthStart (today.year + 1) 1 ≤ Calendar.monthStart 10000 1 :=
    CivilDate.yearStart_strictMono.monotone (by have := today.year_valid.2; omega)
  have hlt := (CivilDate.dayNumber_mem_year today.toCivilDate).2
  have hbound : Calendar.monthStart 10000 1 ≤ maxDay := by decide
  omega

theorem year_cutoff_lt (today : IsoDate) (n : ℕ) :
    (civilOfDay (today.dayNumber - n)).year < 10000 := by
  by_contra hle
  have hyear := today.year_valid.2
  have hbefore : today.toCivilDate.Before (civilOfDay (today.dayNumber - n)) := Or.inl (by omega)
  have hlt := CivilDate.dayNumber_lt_of_before hbefore
  rw [Calendar.dayNumber_civilOfDay] at hlt
  omega

theorem evalClause_within (htoday : 100 ≤ today.year) {questionId : String} {answers : AnswerMap}
    (hanswer : resolveAnswer questionId answers = some (.scalar (.str (IsoDate.string a)))) :
    evalClause (relativeClause .withinLastDays questionId n) answers (some (IsoDate.string today)) =
      true ↔ (if (today.dayNumber - n).natAbs ≤ maxDay then
        shownDate (civilOfDay (today.dayNumber - n)) else "0NaN-NaN-NaN") ≤ IsoDate.string a ∧
        a.dayNumber ≤ today.dayNumber := by
  unfold evalClause relativeClause
  simp only [hanswer, compareToday_eq a today htoday, Bool.and_eq_true, decide_eq_true_iff,
    string_le_iff]

theorem evalClause_moreThan (htoday : 100 ≤ today.year) {questionId : String} {answers : AnswerMap}
    (hanswer : resolveAnswer questionId answers = some (.scalar (.str (IsoDate.string a)))) :
    evalClause (relativeClause .moreThanDaysAgo questionId n) answers
      (some (IsoDate.string today)) = true ↔ ¬(if (today.dayNumber - n).natAbs ≤ maxDay then
        shownDate (civilOfDay (today.dayNumber - n)) else "0NaN-NaN-NaN") ≤ IsoDate.string a := by
  unfold evalClause relativeClause
  simp only [hanswer, compareToday_eq a today htoday, decide_eq_true_iff, not_le]

theorem cutoff_le_iff (ha : 100 ≤ a.year)
    (hcut : (n : ℤ) ≤ today.dayNumber + maxDay ∨ 1000 ≤ a.year) :
    (if (today.dayNumber - n).natAbs ≤ maxDay then
      shownDate (civilOfDay (today.dayNumber - n)) else "0NaN-NaN-NaN") ≤ IsoDate.string a ↔
      today.dayNumber - n ≤ a.dayNumber := by
  have hmax := dayNumber_le_maxDay today
  have hvalue : maxDay = 100000000 := rfl
  rw [String.le_iff_toList_le, IsoDate.string, String.toList_ofList]
  split_ifs with hrange
  · exact shownDate_le_iff ha (year_cutoff_lt today n)
  · rw [invalid_lt_iff]
    have hbeyond : ¬(n : ℤ) ≤ today.dayNumber + maxDay := by omega
    -- the first day of year 100 is in range of itself
    have hfirst : Calendar.monthStart 100 1 ≤ a.dayNumber :=
      (CivilDate.yearStart_strictMono.monotone ha).trans (CivilDate.dayNumber_mem_year _).1
    have hearly : -700000 ≤ Calendar.monthStart 100 1 := by decide
    exact iff_of_true (hcut.resolve_left hbeyond) (by omega)

variable (today) in
theorem not_cutoff_le (hrange : ¬(n : ℤ) ≤ today.dayNumber + maxDay) (hyear : ¬1000 ≤ a.year) :
    ¬(if (today.dayNumber - n).natAbs ≤ maxDay then
      shownDate (civilOfDay (today.dayNumber - n)) else "0NaN-NaN-NaN") ≤ IsoDate.string a := by
  have hvalue : maxDay = 100000000 := rfl
  rw [if_neg (by omega), IsoDate.string, String.le_iff_toList_le]
  simp only [String.toList_ofList]
  exact fun hle => hyear ((invalid_lt_iff a).mp hle)

/-- The operators measure calendar days just when today less the operand is in the range of a
`Date`, or the answer's year has no leading zero. -/
theorem operatorsMeasure_iff (a today : IsoDate) (n : ℕ) (ha : 100 ≤ a.year)
    (htoday : 100 ≤ today.year) :
    OperatorsMeasure a today n ↔ (n : ℤ) ≤ today.dayNumber + maxDay ∨ 1000 ≤ a.year := by
  constructor
  · intro h
    by_contra hnot
    obtain ⟨hrange, hyear⟩ := not_or.mp hnot
    -- an answer map that holds the date
    have hanswer : resolveAnswer "born" (Table.empty.set "born"
        (.scalar (.str (IsoDate.string a)))) = some (.scalar (.str (IsoDate.string a))) := by
      rfl
    have hmore := (evalClause_moreThan (n := n) htoday hanswer).mpr (not_cutoff_le today hrange hyear)
    have hdays := (h _ _ hanswer).moreThan_iff.mp hmore
    have hearly : -700000 ≤ Calendar.monthStart 100 1 := by decide
    have hfirst : Calendar.monthStart 100 1 ≤ a.dayNumber :=
      (CivilDate.yearStart_strictMono.monotone ha).trans (CivilDate.dayNumber_mem_year _).1
    have hvalue : maxDay = 100000000 := rfl
    unfold daysBetween at hdays
    omega
  · intro hcut questionId answers hanswer
    apply measuresDays_of_iff
    · rw [evalClause_within htoday hanswer, cutoff_le_iff ha hcut]
      unfold daysBetween
      omega
    · rw [evalClause_moreThan htoday hanswer, cutoff_le_iff ha hcut]
      unfold daysBetween
      omega

end Operators

def sampleDate (year : Fin 10000) : IsoDate where
  year := year
  month := 7
  day := 4
  month_valid := by decide
  day_valid := ⟨by decide, by
    have hbounds := (Calendar.daysInMonth_bounds year 7).1
    omega⟩
  year_valid := by omega

theorem operatorsMeasure_iff_leapCentury :
    100 ≤ (sampleDate 1900).year ∧ 100 ≤ (sampleDate 2026).year ∧
      OperatorsMeasure (sampleDate 1900) (sampleDate 2026) 200000000 ∧
      ¬OperatorsMeasure (sampleDate 900) (sampleDate 2026) 200000000 :=
  ⟨by decide, by decide,
    (operatorsMeasure_iff (sampleDate 1900) (sampleDate 2026) 200000000 (by decide)
      (by decide)).mpr (Or.inr (by decide)),
    fun h => absurd ((operatorsMeasure_iff (sampleDate 900) (sampleDate 2026) 200000000 (by decide)
      (by decide)).mp h) (by decide)⟩

/-- 300 million days before 4 July 2026 no date is, and what is shown for it lies above every date
of the year 900: 4 July 900 counts as more than 300 million days ago. -/
theorem year900_more_than_range_ago :
    ¬∀ (a today : IsoDate) (n : ℕ), 100 ≤ a.year → 100 ≤ today.year →
      OperatorsMeasure a today n := by
  intro h
  have hanswer : resolveAnswer "born" (Table.empty.set "born"
      (.scalar (.str (IsoDate.string (sampleDate 900))))) =
        some (.scalar (.str (IsoDate.string (sampleDate 900)))) := by
    rfl
  have hmeasure := h (sampleDate 900) (sampleDate 2026) 300000000 (by decide) (by decide) _ _ hanswer
  have hmore := (evalClause_moreThan (n := 300000000) (by decide) hanswer).mpr
    (not_cutoff_le (sampleDate 2026) (by decide) (by decide))
  have hdays := hmeasure.moreThan_iff.mp hmore
  revert hdays
  decide

end Rovenue.Funnel
