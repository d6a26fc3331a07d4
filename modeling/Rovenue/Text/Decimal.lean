import Mathlib

/-! Runs of decimal digits and the numbers they denote. -/

namespace Rovenue.Text

def digitOf (c : Char) : ℕ := c.toNat - '0'.toNat

def decimal (digits : List Char) : ℕ := Nat.ofDigitChars 10 digits 0

def AllDigits (digits : List Char) : Prop := ∀ c ∈ digits, c.isDigit

theorem toNat_eq_of_isDigit {c : Char} (h : c.isDigit) : c.toNat = digitOf c + 48 := by
  have hbounds := Char.isDigit_iff_toNat.mp h
  change 48 ≤ c.toNat ∧ c.toNat ≤ 57 at hbounds
  change c.toNat = c.toNat - 48 + 48
  omega

theorem digitOf_lt {c : Char} (h : c.isDigit) : digitOf c < 10 := by
  have hbounds := Char.isDigit_iff_toNat.mp h
  change 48 ≤ c.toNat ∧ c.toNat ≤ 57 at hbounds
  change c.toNat - 48 < 10
  omega

theorem digitOf_lt_iff {c d : Char} (hc : c.isDigit) (hd : d.isDigit) :
    digitOf c < digitOf d ↔ c < d := by
  have hlt : c < d ↔ c.toNat < d.toNat := by
    rw [Char.lt_def, UInt32.lt_iff_toNat_lt]
    rfl
  rw [hlt, toNat_eq_of_isDigit hc, toNat_eq_of_isDigit hd, Nat.add_lt_add_iff_right]

theorem digitOf_pos {c : Char} (h : c.isDigit) (hne : c ≠ '0') : 0 < digitOf c := by
  by_contra hzero
  have hvalue := toNat_eq_of_isDigit h
  apply hne
  apply Char.toNat_inj.mp
  rw [hvalue]
  change digitOf c + 48 = 48
  omega

@[simp] theorem decimal_nil : decimal [] = 0 := rfl

theorem decimal_cons (c : Char) (digits : List Char) :
    decimal (c :: digits) = digitOf c * 10 ^ digits.length + decimal digits := by
  unfold decimal
  rw [Nat.ofDigitChars_cons, Nat.ofDigitChars_eq_ofDigitChars_zero, Nat.mul_zero, Nat.zero_add,
    Nat.mul_comm]
  rfl

@[simp] theorem decimal_zero_cons (digits : List Char) : decimal ('0' :: digits) = decimal digits := by
  rw [decimal_cons]
  simp [digitOf]

theorem AllDigits.tail {c : Char} {digits : List Char} (h : AllDigits (c :: digits)) :
    AllDigits digits := fun d hd => h d (List.mem_cons_of_mem _ hd)

theorem AllDigits.head {c : Char} {digits : List Char} (h : AllDigits (c :: digits)) :
    c.isDigit := h c List.mem_cons_self

theorem decimal_lt : ∀ {digits : List Char}, AllDigits digits → decimal digits < 10 ^ digits.length
  | [], _ => by decide
  | c :: digits, h => by
    have hrest := decimal_lt h.tail
    have hdigit := digitOf_lt h.head
    rw [decimal_cons, List.length_cons, pow_succ]
    calc digitOf c * 10 ^ digits.length + decimal digits
        < digitOf c * 10 ^ digits.length + 10 ^ digits.length := Nat.add_lt_add_left hrest _
      _ = (digitOf c + 1) * 10 ^ digits.length := by ring
      _ ≤ 10 * 10 ^ digits.length := Nat.mul_le_mul_right _ hdigit
      _ = 10 ^ digits.length * 10 := Nat.mul_comm _ _

theorem pow_le_decimal {c : Char} {digits : List Char} (h : c.isDigit) (hne : c ≠ '0') :
    10 ^ digits.length ≤ decimal (c :: digits) := by
  have hpos := digitOf_pos h hne
  rw [decimal_cons]
  calc 10 ^ digits.length = 1 * 10 ^ digits.length := (one_mul _).symm
    _ ≤ digitOf c * 10 ^ digits.length := Nat.mul_le_mul_right _ hpos
    _ ≤ _ := Nat.le_add_right _ _

theorem decimal_append (a b : List Char) :
    decimal (a ++ b) = decimal a * 10 ^ b.length + decimal b := by
  induction a with
  | nil => rw [List.nil_append, decimal_nil, Nat.zero_mul, Nat.zero_add]
  | cons c a ih =>
    rw [List.cons_append, decimal_cons, decimal_cons, ih, List.length_append, pow_add]
    ring

theorem decimal_eq_zero_iff : ∀ {digits : List Char}, AllDigits digits →
    (decimal digits = 0 ↔ ∀ c ∈ digits, c = '0')
  | [], _ => iff_of_true rfl fun _ h => absurd h List.not_mem_nil
  | c :: digits, h => by
    have hrest := decimal_eq_zero_iff h.tail
    constructor
    · intro hzero
      have hc : c = '0' := by
        by_contra hne
        have hlow : 10 ^ digits.length ≤ decimal (c :: digits) := pow_le_decimal h.head hne
        have hpos : 0 < 10 ^ digits.length := Nat.pow_pos (by decide)
        omega
      subst hc
      rw [decimal_zero_cons, hrest] at hzero
      intro d hd
      rcases List.mem_cons.mp hd with rfl | hd
      · rfl
      · exact hzero d hd
    · intro hall
      rw [hall c List.mem_cons_self, decimal_zero_cons, hrest]
      exact fun d hd => hall d (List.mem_cons_of_mem _ hd)

theorem decimal_lt_iff : ∀ {a b : List Char}, AllDigits a → AllDigits b → a.length = b.length →
    (decimal a < decimal b ↔ a < b)
  | [], [], _, _, _ => by simp
  | c :: a, d :: b, ha, hb, hlength => by
    have htail : a.length = b.length := Nat.succ.inj hlength
    have hrest := decimal_lt_iff ha.tail hb.tail htail
    have hsmallA := decimal_lt ha.tail
    have hsmallB := decimal_lt hb.tail
    rw [List.cons_lt_cons_iff, decimal_cons, decimal_cons, htail]
    rw [htail] at hsmallA
    rcases lt_trichotomy (digitOf c) (digitOf d) with hlt | heq | hgt
    · refine iff_of_true ?_ (Or.inl ((digitOf_lt_iff ha.head hb.head).mp hlt))
      calc digitOf c * 10 ^ b.length + decimal a
          < digitOf c * 10 ^ b.length + 10 ^ b.length := Nat.add_lt_add_left hsmallA _
        _ = (digitOf c + 1) * 10 ^ b.length := by ring
        _ ≤ digitOf d * 10 ^ b.length := Nat.mul_le_mul_right _ hlt
        _ ≤ _ := Nat.le_add_right _ _
    · have hsame : c = d := by
        apply Char.toNat_inj.mp
        rw [toNat_eq_of_isDigit ha.head, toNat_eq_of_isDigit hb.head, heq]
      subst hsame
      rw [Nat.add_lt_add_iff_left, hrest]
      simp
    · refine iff_of_false (not_lt.mpr ?_) ?_
      · calc digitOf d * 10 ^ b.length + decimal b
            ≤ digitOf d * 10 ^ b.length + 10 ^ b.length := Nat.add_le_add_left hsmallB.le _
          _ = (digitOf d + 1) * 10 ^ b.length := by ring
          _ ≤ digitOf c * 10 ^ b.length := Nat.mul_le_mul_right _ hgt
          _ ≤ _ := Nat.le_add_right _ _
      · have hdc := (digitOf_lt_iff hb.head ha.head).mp hgt
        rintro (hcd | ⟨heq, -⟩)
        · exact lt_asymm hcd hdc
        · exact hdc.ne heq.symm

theorem append_lt_append_iff : ∀ {a b x y : List Char}, a.length = b.length →
    (a ++ x < b ++ y ↔ a < b ∨ a = b ∧ x < y)
  | [], [], x, y, _ => by simp
  | c :: a, d :: b, x, y, h => by
    rw [List.cons_append, List.cons_append, List.cons_lt_cons_iff, List.cons_lt_cons_iff,
      append_lt_append_iff (Nat.succ.inj h), List.cons.injEq]
    tauto

def padStart (width : ℕ) (text : List Char) : List Char :=
  List.replicate (width - text.length) '0' ++ text

def padded (width n : ℕ) : List Char := padStart width (Nat.toDigits 10 n)

@[simp] theorem decimal_padded (width n : ℕ) : decimal (padded width n) = n := by
  unfold decimal padded padStart
  rw [Nat.ofDigitChars_append, Nat.ofDigitChars_replicate_zero, Nat.mul_zero,
    Nat.ofDigitChars_ten_toDigits]

theorem allDigits_padded (width n : ℕ) : AllDigits (padded width n) := by
  intro c hc
  rcases List.mem_append.mp hc with hc | hc
  · rw [List.eq_of_mem_replicate hc]
    decide
  · exact Nat.isDigit_of_mem_toDigits (by norm_num) (by norm_num) hc

theorem length_padded {width n : ℕ} (hpos : 0 < width) (h : n < 10 ^ width) :
    (padded width n).length = width := by
  have hle := (Nat.length_toDigits_le_iff (by norm_num) hpos).mpr h
  unfold padded padStart
  rw [List.length_append, List.length_replicate, Nat.sub_add_cancel hle]

theorem padded_lt_iff {width m n : ℕ} (hpos : 0 < width) (hm : m < 10 ^ width)
    (hn : n < 10 ^ width) : padded width m < padded width n ↔ m < n := by
  have hlength := (length_padded hpos hm).trans (length_padded hpos hn).symm
  rw [← decimal_lt_iff (allDigits_padded _ _) (allDigits_padded _ _) hlength, decimal_padded,
    decimal_padded]

theorem padded_inj {width m n : ℕ} : padded width m = padded width n ↔ m = n := by
  constructor
  · intro h
    have hvalue := congrArg decimal h
    rwa [decimal_padded, decimal_padded] at hvalue
  · rintro rfl
    rfl

end Rovenue.Text

/-! Amounts with a point, written from a number of hundredths and read back. -/

namespace Rovenue.Text

def hundredthsText (n : ℕ) : List Char :=
  if n % 100 = 0 then padded 1 (n / 100)
  else if n % 10 = 0 then padded 1 (n / 100) ++ '.' :: padded 1 (n / 10 % 10)
  else padded 1 (n / 100) ++ '.' :: padded 2 (n % 100)

def pointValue (text : List Char) : ℚ :=
  match text.splitOn '.' with
  | [whole] => decimal whole
  | [whole, part] => decimal whole + decimal part / 10 ^ part.length
  | _ => 0

theorem point_not_mem_padded (width n : ℕ) : '.' ∉ padded width n := by
  intro h
  exact absurd (allDigits_padded width n '.' h) (by decide)

theorem pointValue_padded (width n : ℕ) : pointValue (padded width n) = n := by
  unfold pointValue
  rw [List.splitOn_eq_singleton (point_not_mem_padded width n)]
  show (decimal (padded width n) : ℚ) = n
  rw [decimal_padded]

theorem pointValue_point {width n part digits : ℕ} (hpos : 0 < digits) (hpart : part < 10 ^ digits) :
    pointValue (padded width n ++ '.' :: padded digits part) = n + part / 10 ^ digits := by
  unfold pointValue
  rw [List.splitOn_append_cons_self_of_not_mem (point_not_mem_padded width n),
    List.splitOn_eq_singleton (point_not_mem_padded digits part)]
  show (decimal (padded width n) : ℚ) + decimal (padded digits part) /
    10 ^ (padded digits part).length = _
  rw [decimal_padded, decimal_padded, length_padded hpos hpart]

theorem pointValue_hundredthsText (n : ℕ) : pointValue (hundredthsText n) = n / 100 := by
  have hsplit : (n : ℚ) = (n / 100 : ℕ) * 100 + (n % 100 : ℕ) := by
    exact_mod_cast (Nat.div_add_mod' n 100).symm
  unfold hundredthsText
  split_ifs with hwhole htenth
  · rw [pointValue_padded, hsplit, hwhole]
    push_cast
    ring
  · have hdigit : n % 100 = n / 10 % 10 * 10 := by omega
    rw [pointValue_point (by decide) (by omega), hsplit, hdigit]
    push_cast
    ring
  · rw [pointValue_point (by decide) (by omega), hsplit]
    ring

end Rovenue.Text
