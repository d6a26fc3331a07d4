import Rovenue.Net.SsrfGuard

/-! How the guard reads the text of a literal: what is left of it without its zone and in lower
case, its dotted part, its first group, and how it begins. -/

namespace Rovenue.Net
open Text

theorem mem_intercalate {s c : Char} {parts : List (List Char)}
    (h : c ∈ List.intercalate [s] parts) : c = s ∨ ∃ part ∈ parts, c ∈ part := by
  induction parts with
  | nil => cases h
  | cons part rest ih =>
    by_cases hrest : rest = []
    · subst hrest
      rw [List.intercalate_singleton] at h
      exact Or.inr ⟨part, List.mem_cons_self, h⟩
    · rw [List.intercalate_cons_of_ne_nil hrest] at h
      rcases List.mem_append.mp h with h | h
      · rcases List.mem_append.mp h with h | h
        · exact Or.inr ⟨part, List.mem_cons_self, h⟩
        · exact Or.inl (List.mem_singleton.mp h)
      · rcases ih h with hs | ⟨p, hp, hc⟩
        · exact Or.inl hs
        · exact Or.inr ⟨p, List.mem_cons_of_mem _ hp, hc⟩

theorem map_intercalate (f : Char → Char) (s : Char) (parts : List (List Char)) :
    (List.intercalate [s] parts).map f = List.intercalate [f s] (parts.map (List.map f)) := by
  induction parts with
  | nil => rfl
  | cons part rest ih =>
    by_cases hrest : rest = []
    · subst hrest
      simp
    · have hmap : rest.map (List.map f) ≠ [] := fun h => hrest (List.map_eq_nil_iff.mp h)
      rw [List.map_cons, List.intercalate_cons_of_ne_nil hrest,
        List.intercalate_cons_of_ne_nil hmap, List.map_append, List.map_append, ih]
      rfl

theorem digit_eq_ofNat {c : Char} (h : c.isDigit) : ∃ d < 10, c = Char.ofNat (48 + d) := by
  have hbounds := Char.isDigit_iff_toNat.mp h
  change 48 ≤ c.toNat ∧ c.toNat ≤ 57 at hbounds
  refine ⟨c.toNat - 48, by omega, ?_⟩
  rw [Nat.add_sub_cancel' hbounds.1, Char.ofNat_toNat]

theorem digit_mem_hexDigits {c : Char} (h : c.isDigit) : c ∈ hexDigits := by
  obtain ⟨d, hd, rfl⟩ := digit_eq_ofNat h
  have hall : ∀ d < 10, Char.ofNat (48 + d) ∈ hexDigits := by decide
  exact hall d hd

theorem toLower_digit {c : Char} (h : c.isDigit) : c.toLower = c := by
  obtain ⟨d, hd, rfl⟩ := digit_eq_ofNat h
  have hall : ∀ d < 10, (Char.ofNat (48 + d)).toLower = Char.ofNat (48 + d) := by decide
  exact hall d hd

theorem octet_text (n : Fin 256) :
    (Nat.toDigits 10 n.val).all Char.isDigit = true ∧ 1 ≤ (Nat.toDigits 10 n.val).length ∧
      (Nat.toDigits 10 n.val).length ≤ 3 ∧ decimal (Nat.toDigits 10 n.val) = n.val := by
  revert n
  decide +kernel

theorem toLower_hexDigit {c : Char} (h : c ∈ hexDigits) :
    c.toLower ∈ hexDigits ∧ hexDigitOf c.toLower = hexDigitOf c := by
  have hall : (hexDigits.all fun c => c.toLower ∈ hexDigits ∧
      hexDigitOf c.toLower = hexDigitOf c) = true := by decide
  exact of_decide_eq_true (List.all_eq_true.mp hall c h)

theorem colon_notMem_hex {s : List Char} (h : ∀ c ∈ s, c ∈ hexDigits) : ':' ∉ s :=
  fun hmem => absurd (h ':' hmem) (by decide)

namespace Ipv4Address
variable (q : Ipv4Address)

def octets : List (List Char) := [q.a, q.b, q.c, q.d].map fun n => Nat.toDigits 10 n.val

theorem splitOn_text : q.text.splitOn '.' = q.octets := by
  apply List.splitOn_intercalate
  · intro part hpart
    obtain ⟨n, -, rfl⟩ := List.mem_map.mp hpart
    exact fun hdot => absurd (List.all_eq_true.mp (octet_text n).1 '.' hdot) (by decide)
  · exact List.cons_ne_nil _ _

theorem mem_text {c : Char} (h : c ∈ q.text) : c = '.' ∨ c.isDigit := by
  rcases mem_intercalate h with hdot | ⟨part, hpart, hc⟩
  · exact Or.inl hdot
  · obtain ⟨n, -, rfl⟩ := List.mem_map.mp hpart
    exact Or.inr (List.all_eq_true.mp (octet_text n).1 c hc)

theorem toLowerCase_text : toLowerCase q.text = q.text := by
  unfold toLowerCase
  conv_rhs => rw [← List.map_id q.text]
  apply List.map_congr_left
  intro c hc
  rcases q.mem_text hc with rfl | hdigit
  · rfl
  · exact toLower_digit hdigit

theorem isDottedQuad_text : isDottedQuad q.text = true := by
  unfold isDottedQuad
  rw [splitOn_text]
  have hparts : ∀ part ∈ q.octets,
      (part.all Char.isDigit && 1 ≤ part.length && part.length ≤ 3) = true := by
    intro part hpart
    obtain ⟨n, -, rfl⟩ := List.mem_map.mp hpart
    obtain ⟨hdigits, hpos, hshort, -⟩ := octet_text n
    simp [hdigits, hpos, hshort]
  rw [Bool.and_eq_true]
  exact ⟨rfl, List.all_eq_true.mpr hparts⟩

theorem number_octet (n : Fin 256) : number (Nat.toDigits 10 n.val) = some n.val := by
  obtain ⟨hdigits, hpos, -, hvalue⟩ := octet_text n
  have hne : Nat.toDigits 10 n.val ≠ [] := List.length_pos_iff.mp hpos
  unfold number
  rw [if_pos ⟨hne, hdigits⟩, hvalue]

theorem isBlockedIpv4_text : isBlockedIpv4 q.text = blockedOctets q.a q.b := by
  have hnumbers : q.octets.mapM number = some [q.a.val, q.b.val, q.c.val, q.d.val] := by
    simp [octets, number_octet]
  have ha := q.a.isLt
  have hb := q.b.isLt
  have hc := q.c.isLt
  have hd := q.d.isLt
  have hrange : (decide (q.a.val > 255) || decide (q.b.val > 255) || decide (q.c.val > 255) ||
      decide (q.d.val > 255)) = false := by
    simp only [Bool.or_eq_false_iff, decide_eq_false_iff_not]
    omega
  unfold isBlockedIpv4
  rw [splitOn_text, hnumbers]
  show (if _ then true else blockedOctets q.a q.b) = _
  rw [hrange]
  rfl

end Ipv4Address

theorem isDottedQuad_false {s : List Char} (h : ':' ∈ s) : isDottedQuad s = false := by
  rw [Bool.eq_false_iff]
  intro hquad
  unfold isDottedQuad at hquad
  rw [Bool.and_eq_true] at hquad
  have hjoin : List.intercalate ['.'] (s.splitOn '.') = s := List.intercalate_splitOn '.'
  rw [← hjoin] at h
  rcases mem_intercalate h with hdot | ⟨part, hpart, hc⟩
  · cases hdot
  · have hdigits := List.all_eq_true.mp hquad.2 part hpart
    simp only [Bool.and_eq_true] at hdigits
    exact absurd (List.all_eq_true.mp hdigits.1.1 ':' hc) (by decide)

theorem isDottedQuad_false_of_dot {s : List Char} (h : '.' ∉ s) : isDottedQuad s = false := by
  unfold isDottedQuad
  rw [List.splitOn_eq_singleton h]
  rfl

theorem dottedTail_none {s : List Char} (h : '.' ∉ s) : dottedTail s = none := by
  induction s with
  | nil => rfl
  | cons c s ih =>
    have hrest : '.' ∉ s := fun hmem => h (List.mem_cons_of_mem _ hmem)
    unfold dottedTail
    rw [isDottedQuad_false_of_dot hrest, Bool.and_false]
    exact ih hrest

theorem dottedTail_append (s : List Char) {quad : List Char} (h : isDottedQuad quad = true) :
    dottedTail (s ++ ':' :: quad) = some quad := by
  induction s with
  | nil =>
    rw [List.nil_append, dottedTail, h]
    rfl
  | cons c s ih =>
    have hcolon : ':' ∈ s ++ ':' :: quad := List.mem_append_right _ List.mem_cons_self
    rw [List.cons_append, dottedTail, isDottedQuad_false hcolon, Bool.and_false]
    exact ih

theorem hexValue_toLower {digits : List Char} (h : ∀ c ∈ digits, c ∈ hexDigits) :
    hexValue (digits.map Char.toLower) = hexValue digits := by
  induction digits using List.reverseRecOn with
  | nil => rfl
  | append_singleton digits c ih =>
    have hrest := ih fun x hx => h x (List.mem_append_left _ hx)
    have hdigit := (toLower_hexDigit (h c (List.mem_append_right _ List.mem_cons_self))).2
    rw [List.map_append, List.map_singleton, hexValue_append_singleton, hrest, hdigit,
      hexValue_append_singleton]

def HexGroup.lower (g : HexGroup) : HexGroup where
  digits := g.digits.map Char.toLower
  hex := by
    intro c hc
    obtain ⟨d, hd, rfl⟩ := List.mem_map.mp hc
    exact (toLower_hexDigit (g.hex d hd)).1
  nonempty h := g.nonempty (List.map_eq_nil_iff.mp h)
  short := by
    rw [List.length_map]
    exact g.short

theorem HexGroup.value_lower (g : HexGroup) : g.lower.value = g.value := hexValue_toLower g.hex

namespace Ipv6Literal
variable (l : Ipv6Literal)

def lower : Ipv6Literal where
  before := l.before.map HexGroup.lower
  after := l.after.map (List.map HexGroup.lower)
  dotted := l.dotted
  zone := none
  fits := by
    obtain ⟨before, after, dotted, zone, fits⟩ := l
    cases after with
    | none => simpa using fits
    | some gs => simpa using fits

theorem groups_lower : l.lower.groups = l.groups := by
  have hvalues : HexGroup.value ∘ HexGroup.lower = HexGroup.value := funext HexGroup.value_lower
  obtain ⟨before, after, dotted, zone, fits⟩ := l
  cases after with
  | none => simp [groups, lower, hvalues]
  | some gs => simp [groups, lower, hvalues]

theorem address_lower : l.lower.address = l.address := by
  unfold address
  simp only [groups_lower]

theorem toLowerCase_parts (gs : List HexGroup) (dotted : Option Ipv4Address) :
    (parts gs dotted).map toLowerCase = parts (gs.map HexGroup.lower) dotted := by
  unfold parts
  rw [List.map_append, List.map_map, List.map_map]
  cases dotted with
  | none => rfl
  | some q =>
    show _ ++ [toLowerCase q.text] = _
    rw [q.toLowerCase_text]
    rfl

theorem toLowerCase_body : toLowerCase l.body = l.lower.body := by
  have hjoin : ∀ ps : List (List Char), toLowerCase (List.intercalate [':'] ps) =
      List.intercalate [':'] (ps.map toLowerCase) := map_intercalate Char.toLower ':'
  obtain ⟨before, after, dotted, zone, fits⟩ := l
  cases after with
  | none =>
    show toLowerCase (List.intercalate [':'] (parts before dotted)) = _
    rw [hjoin, toLowerCase_parts]
    rfl
  | some gs =>
    show toLowerCase (List.intercalate [':'] (before.map HexGroup.digits) ++
      ':' :: ':' :: List.intercalate [':'] (parts gs dotted)) = _
    have hcolons : toLowerCase (':' :: ':' :: List.intercalate [':'] (parts gs dotted)) =
        ':' :: ':' :: toLowerCase (List.intercalate [':'] (parts gs dotted)) := rfl
    have hsplit : ∀ s t, toLowerCase (s ++ t) = toLowerCase s ++ toLowerCase t :=
      fun s t => List.map_append
    rw [hsplit, hcolons, hjoin, hjoin, toLowerCase_parts, List.map_map]
    unfold body lower
    simp only [Option.map_some, List.map_map]
    rfl

variable {l}

theorem mem_parts {gs : List HexGroup} {dotted : Option Ipv4Address} {part : List Char} {c : Char}
    (hpart : part ∈ parts gs dotted) (hc : c ∈ part) : c ∈ hexDigits ∨ c = '.' ∧ dotted.isSome := by
  unfold parts at hpart
  rcases List.mem_append.mp hpart with hpart | hpart
  · obtain ⟨g, -, rfl⟩ := List.mem_map.mp hpart
    exact Or.inl (g.hex c hc)
  · cases dotted with
    | none => cases hpart
    | some q =>
      obtain rfl := List.mem_singleton.mp hpart
      rcases q.mem_text hc with hdot | hdigit
      · exact Or.inr ⟨hdot, rfl⟩
      · exact Or.inl (digit_mem_hexDigits hdigit)

theorem mem_body {c : Char} (h : c ∈ l.body) :
    c = ':' ∨ c ∈ hexDigits ∨ c = '.' ∧ l.dotted.isSome := by
  have hjoined : ∀ gs, c ∈ List.intercalate [':'] (parts gs l.dotted) →
      c = ':' ∨ c ∈ hexDigits ∨ c = '.' ∧ l.dotted.isSome := by
    intro gs hc
    rcases mem_intercalate hc with hcolon | ⟨part, hpart, hc⟩
    · exact Or.inl hcolon
    · exact Or.inr (mem_parts hpart hc)
  unfold body at h
  split at h
  · exact hjoined _ h
  · next gs hafter =>
    rcases List.mem_append.mp h with h | h
    · rcases mem_intercalate h with hcolon | ⟨part, hpart, hc⟩
      · exact Or.inl hcolon
      · obtain ⟨g, -, rfl⟩ := List.mem_map.mp hpart
        exact Or.inr (Or.inl (g.hex c hc))
    · rcases List.mem_cons.mp h with hcolon | h
      · exact Or.inl hcolon
      · rcases List.mem_cons.mp h with hcolon | h
        · exact Or.inl hcolon
        · exact hjoined _ h

theorem ne_percent_of_mem_body {c : Char} (h : c ∈ l.body) : decide (c ≠ '%') = true := by
  rw [decide_eq_true_eq]
  rintro rfl
  rcases mem_body h with hcolon | hhex | hdot
  · cases hcolon
  · exact absurd hhex (by decide)
  · cases hdot.1

theorem takeWhile_text (l : Ipv6Literal) :
    (toLowerCase l.text).takeWhile (· ≠ '%') = l.lower.body := by
  have hsplit : toLowerCase l.text = l.lower.body ++ toLowerCase l.zoneText := by
    rw [← toLowerCase_body]
    exact List.map_append
  rw [hsplit, List.takeWhile_append_of_pos fun c => ne_percent_of_mem_body]
  unfold zoneText
  cases l.zone with
  | none => exact List.append_nil _
  | some z => exact List.append_nil _

theorem dot_notMem_body (h : l.dotted = none) : '.' ∉ l.body := by
  intro hmem
  rcases mem_body hmem with hcolon | hhex | hdot
  · cases hcolon
  · exact absurd hhex (by decide)
  · rw [h] at hdot
    cases hdot.2

end Ipv6Literal

end Rovenue.Net
