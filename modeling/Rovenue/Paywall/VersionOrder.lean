import Rovenue.Text.Comparison
import Rovenue.Text.Decimal
import Rovenue.Paywall.Schema

/-! Versions are ordered as sequences of numbers, and the app versions that a node is visible in
form an interval of that order. -/

namespace Rovenue.Paywall
open Text

structure VisibilityContext where
  platform : Option VisibilityPlatform := none
  appVersion : Option String := none

def hiddenOn (listed : Option (List VisibilityPlatform)) (platform : Option VisibilityPlatform) :
    Bool :=
  match listed, platform with
  | some listed, some platform => listed ≠ [] && !listed.contains platform
  | _, _ => false

def presentText (s : Option String) : Option String := s.filter (· ≠ "")

def isNodeVisible (visibility : Option NodeVisibility) (ctx : VisibilityContext) : Bool :=
  match visibility with
  | none => true
  | some visibility =>
    if hiddenOn visibility.platform ctx.platform then false
    else
      match presentText ctx.appVersion with
      | none => true
      | some version =>
        if ((presentText visibility.minAppVersion).bind (compareVersions version)).any (· < 0) then
          false
        else if ((presentText visibility.maxAppVersion).bind (compareVersions version)).any (0 < ·)
          then false
        else true

def versionComponents (version : String) : List (List Char) := version.toList.splitOn '.'

def Dotted (version : String) : Prop :=
  ∀ part ∈ versionComponents version, part ≠ [] ∧ AllDigits part

noncomputable def versionNumber (version : String) : Lex (ℕ → ℕ) :=
  toLex fun i => decimal ((versionComponents version).getD i ['0'])

theorem isNumericComponent_iff {part : List Char} :
    isNumericComponent part = true ↔ part ≠ [] ∧ AllDigits part := by
  unfold isNumericComponent AllDigits
  rw [Bool.and_eq_true, decide_eq_true_iff, List.all_eq_true]

theorem dotted_iff {version : String} :
    Dotted version ↔ (version.toList.splitOn '.').all isNumericComponent = true := by
  simp only [Dotted, versionComponents, List.all_eq_true, isNumericComponent_iff]

theorem all_components_iff {a b : String} :
    ((a.toList.splitOn '.') ++ (b.toList.splitOn '.')).all isNumericComponent = true ↔
      Dotted a ∧ Dotted b := by
  rw [List.all_append, Bool.and_eq_true, dotted_iff, dotted_iff]

theorem stripZeros_cons_zero {digits : List Char} (h : digits ≠ []) :
    stripZeros ('0' :: digits) = stripZeros digits := by
  unfold stripZeros
  rw [List.dropWhile_cons_of_pos (by decide)]
  cases hrest : digits.dropWhile (· = '0') with
  | nil =>
    obtain ⟨n, hn⟩ := Nat.exists_eq_succ_of_ne_zero (List.length_pos_iff.mpr h).ne'
    simp [hn]
  | cons c rest => rfl

theorem stripZeros_cons_of_ne {c : Char} (digits : List Char) (h : c ≠ '0') :
    stripZeros (c :: digits) = c :: digits := by
  unfold stripZeros
  rw [List.dropWhile_cons_of_neg (by simpa using h)]

theorem stripZeros_spec : ∀ {digits : List Char}, digits ≠ [] → AllDigits digits →
    decimal (stripZeros digits) = decimal digits ∧ AllDigits (stripZeros digits) ∧
      (stripZeros digits = ['0'] ∨ ∃ c rest, stripZeros digits = c :: rest ∧ c ≠ '0')
  | [], hne, _ => absurd rfl hne
  | c :: digits, _, hdigits => by
    by_cases hc : c = '0'
    · subst hc
      by_cases hlast : digits = []
      · subst hlast
        exact ⟨rfl, hdigits, Or.inl rfl⟩
      · rw [stripZeros_cons_zero hlast, decimal_zero_cons]
        exact stripZeros_spec hlast hdigits.tail
    · rw [stripZeros_cons_of_ne digits hc]
      exact ⟨rfl, hdigits, Or.inr ⟨c, digits, rfl, hc⟩⟩

theorem decimal_lt_of_length_lt {a b : List Char} (ha : AllDigits a) (hb : AllDigits b)
    (hlead : b = ['0'] ∨ ∃ c rest, b = c :: rest ∧ c ≠ '0') (hne : a ≠ [])
    (hlength : a.length < b.length) : decimal a < decimal b := by
  have hsmall := decimal_lt ha
  have hpos := List.length_pos_iff.mpr hne
  rcases hlead with rfl | ⟨c, rest, rfl, hc⟩
  · simp only [List.length_singleton] at hlength
    omega
  · have hle : a.length ≤ rest.length := by simpa using Nat.le_of_lt_succ hlength
    calc decimal a < 10 ^ a.length := hsmall
      _ ≤ 10 ^ rest.length := Nat.pow_le_pow_right (by norm_num) hle
      _ ≤ decimal (c :: rest) := pow_le_decimal hb.head hc

theorem stripped_ne_nil {digits : List Char}
    (h : digits = ['0'] ∨ ∃ c rest, digits = c :: rest ∧ c ≠ '0') : digits ≠ [] := by
  rcases h with rfl | ⟨c, rest, rfl, -⟩ <;> exact List.cons_ne_nil _ _

theorem compareComponent_compares {a b : List Char} (ha : a ≠ [] ∧ AllDigits a)
    (hb : b ≠ [] ∧ AllDigits b) : Compares (compareComponent a b) (decimal a) (decimal b) := by
  obtain ⟨hvalA, hdigA, hleadA⟩ := stripZeros_spec ha.1 ha.2
  obtain ⟨hvalB, hdigB, hleadB⟩ := stripZeros_spec hb.1 hb.2
  rw [← hvalA, ← hvalB]
  unfold compareComponent
  by_cases hlength : (stripZeros a).length = (stripZeros b).length
  · simp only [hlength, ne_eq, not_true_eq_false, if_false]
    by_cases hlt : stripZeros a < stripZeros b
    · rw [if_pos hlt]
      exact compares_of_lt (by decide) ((decimal_lt_iff hdigA hdigB hlength).mpr hlt)
    · rw [if_neg hlt]
      by_cases hgt : stripZeros b < stripZeros a
      · rw [if_pos hgt]
        exact compares_of_gt (by decide) ((decimal_lt_iff hdigB hdigA hlength.symm).mpr hgt)
      · rw [if_neg hgt, le_antisymm (not_lt.mp hgt) (not_lt.mp hlt)]
        exact Compares.refl _
  · simp only [ne_eq, hlength, not_false_eq_true, if_true]
    rcases lt_or_gt_of_ne hlength with hlt | hgt
    · apply compares_of_lt (by omega)
      exact decimal_lt_of_length_lt hdigA hdigB hleadB (stripped_ne_nil hleadA) hlt
    · apply compares_of_gt (by omega)
      exact decimal_lt_of_length_lt hdigB hdigA hleadA (stripped_ne_nil hleadB) hgt

theorem component_of_dotted {version : String} (h : Dotted version) (i : ℕ) :
    (versionComponents version).getD i ['0'] ≠ [] ∧
      AllDigits ((versionComponents version).getD i ['0']) := by
  by_cases hi : i < (versionComponents version).length
  · rw [List.getD_eq_getElem _ _ hi]
    exact h _ (List.getElem_mem hi)
  · rw [List.getD_eq_default _ _ (not_lt.mp hi)]
    exact ⟨by decide, by intro c hc; rw [List.mem_singleton.mp hc]; decide⟩

theorem compareVersions_eq_none_iff {a b : String} :
    compareVersions a b = none ↔ ¬(Dotted a ∧ Dotted b) := by
  rw [← all_components_iff]
  apply ite_eq_right_iff.trans
  exact ⟨fun h hall => Option.some_ne_none _ (h hall), fun h hall => absurd hall h⟩

theorem compareVersions_eq_some {a b : String} {c : ℤ} (h : compareVersions a b = some c) :
    Dotted a ∧ Dotted b ∧ Compares c (versionNumber a) (versionNumber b) := by
  have hdotted : Dotted a ∧ Dotted b := by
    by_contra hnot
    rw [compareVersions_eq_none_iff.mpr hnot] at h
    cases h
  obtain ⟨ha, hb⟩ := hdotted
  refine ⟨ha, hb, ?_⟩
  have hall := all_components_iff.mpr ⟨ha, hb⟩
  simp only [compareVersions, hall, if_true, Option.some.injEq] at h
  rw [← h]
  apply compares_firstDifference
  · intro i _
    exact compareComponent_compares (component_of_dotted ha i) (component_of_dotted hb i)
  · intro i hi
    -- past the longer list both sides read as 0
    have hleft : (versionComponents a).length ≤ i := (le_max_left _ _).trans hi
    have hright : (versionComponents b).length ≤ i := (le_max_right _ _).trans hi
    simp only [List.getD_eq_default _ _ hleft, List.getD_eq_default _ _ hright]

theorem exists_compareVersions {a b : String} (ha : Dotted a) (hb : Dotted b) :
    ∃ c, compareVersions a b = some c := by
  rw [← Option.ne_none_iff_exists']
  intro hnone
  exact compareVersions_eq_none_iff.mp hnone ⟨ha, hb⟩

/-- The comparison is conclusive and does not put `a` above `b`. -/
def AtMost (a b : String) : Prop := ∃ c, compareVersions a b = some c ∧ c ≤ 0

theorem atMost_iff {a b : String} :
    AtMost a b ↔ Dotted a ∧ Dotted b ∧ versionNumber a ≤ versionNumber b := by
  constructor
  · rintro ⟨c, hc, hle⟩
    obtain ⟨ha, hb, hcompares⟩ := compareVersions_eq_some hc
    exact ⟨ha, hb, hcompares.nonpos_iff.mp hle⟩
  · rintro ⟨ha, hb, hle⟩
    obtain ⟨c, hc⟩ := exists_compareVersions ha hb
    exact ⟨c, hc, (compareVersions_eq_some hc).2.2.nonpos_iff.mpr hle⟩

def WithinMin (bound : Option String) (version : String) : Prop :=
  ∀ least c, presentText bound = some least → compareVersions version least = some c → 0 ≤ c

def WithinMax (bound : Option String) (version : String) : Prop :=
  ∀ greatest c, presentText bound = some greatest → compareVersions version greatest = some c →
    c ≤ 0

theorem bind_any_eq_false_iff {α β : Type*} {bound : Option α} {f : α → Option β} {p : β → Bool} :
    (bound.bind f).any p = false ↔ ∀ a c, bound = some a → f a = some c → p c = false := by
  cases bound with
  | none => simp
  | some a =>
    rw [Option.bind_some]
    cases hc : f a with
    | none =>
      refine iff_of_true rfl fun b c hb hfb => ?_
      rw [← Option.some.inj hb, hc] at hfb
      cases hfb
    | some c =>
      constructor
      · intro h b c' hb hfb
        rw [← Option.some.inj hb, hc] at hfb
        rw [← Option.some.inj hfb]
        exact h
      · intro h
        exact h a c rfl hc

theorem isNodeVisible_iff {visibility : NodeVisibility} {platform : Option VisibilityPlatform}
    {version : String} (hversion : version ≠ "") :
    isNodeVisible (some visibility) ⟨platform, some version⟩ = true ↔
      hiddenOn visibility.platform platform = false ∧ WithinMin visibility.minAppVersion version ∧
        WithinMax visibility.maxAppVersion version := by
  have hpresent : presentText (some version) = some version := by simp [presentText, hversion]
  have hmin : WithinMin visibility.minAppVersion version ↔
      ((presentText visibility.minAppVersion).bind (compareVersions version)).any (· < 0) = false := by
    simp only [WithinMin, bind_any_eq_false_iff, decide_eq_false_iff_not, not_lt]
  have hmax : WithinMax visibility.maxAppVersion version ↔
      ((presentText visibility.maxAppVersion).bind (compareVersions version)).any (0 < ·) = false := by
    simp only [WithinMax, bind_any_eq_false_iff, decide_eq_false_iff_not, not_lt]
  rw [hmin, hmax]
  simp only [isNodeVisible, hpresent]
  cases hiddenOn visibility.platform platform <;>
    cases ((presentText visibility.minAppVersion).bind (compareVersions version)).any (· < 0) <;>
    cases ((presentText visibility.maxAppVersion).bind (compareVersions version)).any (0 < ·) <;>
    simp

theorem ne_empty_of_dotted {version : String} (h : Dotted version) : version ≠ "" := by
  rintro rfl
  exact (h [] (by simp [versionComponents])).1 rfl

theorem WithinMin.mono {bound : Option String} {a v : String} (h : WithinMin bound a)
    (hle : AtMost a v) : WithinMin bound v := by
  intro least c hbound hc
  obtain ⟨ha, -, hav⟩ := atMost_iff.mp hle
  obtain ⟨-, hleast, hcompares⟩ := compareVersions_eq_some hc
  obtain ⟨c', hc'⟩ := exists_compareVersions ha hleast
  have hleastA := (compareVersions_eq_some hc').2.2.nonneg_iff.mp (h least c' hbound hc')
  exact hcompares.nonneg_iff.mpr (hleastA.trans hav)

theorem WithinMax.mono {bound : Option String} {v b : String} (h : WithinMax bound b)
    (hle : AtMost v b) : WithinMax bound v := by
  intro greatest c hbound hc
  obtain ⟨-, hb, hvb⟩ := atMost_iff.mp hle
  obtain ⟨-, hgreatest, hcompares⟩ := compareVersions_eq_some hc
  obtain ⟨c', hc'⟩ := exists_compareVersions hb hgreatest
  have hgreatestB := (compareVersions_eq_some hc').2.2.nonpos_iff.mp (h greatest c' hbound hc')
  exact hcompares.nonpos_iff.mpr (hvb.trans hgreatestB)

theorem isNodeVisible_between {visibility : Option NodeVisibility}
    {platform : Option VisibilityPlatform} {a v b : String} (hav : AtMost a v) (hvb : AtMost v b)
    (ha : isNodeVisible visibility ⟨platform, some a⟩ = true)
    (hb : isNodeVisible visibility ⟨platform, some b⟩ = true) :
    isNodeVisible visibility ⟨platform, some v⟩ = true := by
  cases visibility with
  | none => rfl
  | some visibility =>
    obtain ⟨hdottedA, hdottedV, -⟩ := atMost_iff.mp hav
    obtain ⟨-, hdottedB, -⟩ := atMost_iff.mp hvb
    rw [isNodeVisible_iff (ne_empty_of_dotted hdottedA)] at ha
    rw [isNodeVisible_iff (ne_empty_of_dotted hdottedB)] at hb
    rw [isNodeVisible_iff (ne_empty_of_dotted hdottedV)]
    exact ⟨ha.1, ha.2.1.mono hav, hb.2.2.mono hvb⟩

/-- What the comparison of versions computes. -/
structure OrdersVersions (compare : String → String → Option ℤ) : Prop where
  inconclusive : ∀ a b, compare a b = none ↔ ¬(Dotted a ∧ Dotted b)
  exact_sign : ∀ a b c, compare a b = some c → Compares c (versionNumber a) (versionNumber b)
  refl : ∀ a, Dotted a → compare a a = some 0
  total : ∀ a b, Dotted a → Dotted b →
    (∃ c, compare a b = some c ∧ c ≤ 0) ∨ ∃ c, compare b a = some c ∧ c ≤ 0
  trans : ∀ a b c x y, compare a b = some x → x ≤ 0 → compare b c = some y → y ≤ 0 →
    ∃ z, compare a c = some z ∧ z ≤ 0
  antisymm : ∀ a b, (∃ x, compare a b = some x ∧ x ≤ 0) ∧ (∃ y, compare b a = some y ∧ y ≤ 0) ↔
    Dotted a ∧ Dotted b ∧ ∀ i, decimal ((versionComponents a).getD i ['0']) =
      decimal ((versionComponents b).getD i ['0'])

theorem compareVersions_orders : OrdersVersions compareVersions where
  inconclusive _ _ := compareVersions_eq_none_iff
  exact_sign _ _ _ h := (compareVersions_eq_some h).2.2
  refl a ha := by
    obtain ⟨c, hc⟩ := exists_compareVersions ha ha
    rw [hc, (compareVersions_eq_some hc).2.2.eq_zero_iff.mpr rfl]
  total a b ha hb := by
    rcases le_total (versionNumber a) (versionNumber b) with hle | hle
    · exact Or.inl (atMost_iff.mpr ⟨ha, hb, hle⟩)
    · exact Or.inr (atMost_iff.mpr ⟨hb, ha, hle⟩)
  trans a b c x y hab hx hbc hy := by
    obtain ⟨ha, hb, hle⟩ := atMost_iff.mp ⟨x, hab, hx⟩
    obtain ⟨-, hc, hle'⟩ := atMost_iff.mp ⟨y, hbc, hy⟩
    exact atMost_iff.mpr ⟨ha, hc, hle.trans hle'⟩
  antisymm a b := by
    constructor
    · rintro ⟨hab, hba⟩
      obtain ⟨ha, hb, hle⟩ := atMost_iff.mp hab
      obtain ⟨-, -, hle'⟩ := atMost_iff.mp hba
      exact ⟨ha, hb, congrFun (toLex.injective (le_antisymm hle hle'))⟩
    · rintro ⟨ha, hb, hsame⟩
      have heq : versionNumber a = versionNumber b := congrArg toLex (funext hsame)
      exact ⟨atMost_iff.mpr ⟨ha, hb, heq.le⟩, atMost_iff.mpr ⟨hb, ha, heq.ge⟩⟩

/-- Versions are compared as sequences of numbers padded with zeros, and the app versions a node
is visible in have no gap. -/
theorem versions_ordered_visibility_interval :
    OrdersVersions compareVersions ∧
      ∀ visibility platform a v b, AtMost a v → AtMost v b →
        isNodeVisible visibility ⟨platform, some a⟩ = true →
        isNodeVisible visibility ⟨platform, some b⟩ = true →
        isNodeVisible visibility ⟨platform, some v⟩ = true :=
  ⟨compareVersions_orders, fun _ _ _ _ _ => isNodeVisible_between⟩

end Rovenue.Paywall
