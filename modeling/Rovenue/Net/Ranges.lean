import Rovenue.Net.GuardReads

/-! The ranges in numbers: the table of the guard, the ranges its comments name, and the ranges
outside of which nothing is blocked. -/

namespace Rovenue.Net

namespace Ipv6Address
variable (x : Ipv6Address)

theorem groups_eq : ∃ a b c d e f g h, x.groups = [a, b, c, d, e, f, g, h] := by
  obtain ⟨groups, eight, small⟩ := x
  match groups, eight with
  | [a, b, c, d, e, f, g, h], _ => exact ⟨a, b, c, d, e, f, g, h, rfl⟩

theorem group_lt (i : ℕ) : x.group i < 65536 := by
  unfold group
  by_cases hi : i < x.groups.length
  · rw [List.getD_eq_getElem _ _ hi]
    exact x.small _ (List.getElem_mem hi)
  · rw [List.getD_eq_default _ _ (Nat.le_of_not_lt hi)]
    norm_num

theorem groups_eq_group : x.groups = [x.group 0, x.group 1, x.group 2, x.group 3, x.group 4,
    x.group 5, x.group 6, x.group 7] := by
  obtain ⟨a, b, c, d, e, f, g, h, hx⟩ := x.groups_eq
  unfold group
  rw [hx]
  rfl

theorem value_eq : x.value = (((((((x.group 0 * 65536 + x.group 1) * 65536 + x.group 2) * 65536 +
    x.group 3) * 65536 + x.group 4) * 65536 + x.group 5) * 65536 + x.group 6) * 65536 +
      x.group 7) := by
  unfold value
  rw [x.groups_eq_group]
  simp only [List.foldl_cons, List.foldl_nil]
  ring

theorem value_div_96 : x.value / 2 ^ 96 = x.group 0 * 65536 + x.group 1 := by
  have h2 := x.group_lt 2
  have h3 := x.group_lt 3
  have h4 := x.group_lt 4
  have h5 := x.group_lt 5
  have h6 := x.group_lt 6
  have h7 := x.group_lt 7
  rw [value_eq]
  omega

theorem value_div_112 : x.value / 2 ^ 112 = x.group 0 := by
  have h1 := x.group_lt 1
  have hsplit : (2 : ℕ) ^ 112 = 2 ^ 96 * 2 ^ 16 := by norm_num
  rw [hsplit, ← Nat.div_div_eq_div_mul, value_div_96]
  omega

theorem value_div_first {n : ℕ} (h : n ≤ 16) :
    x.value / 2 ^ (128 - n) = x.group 0 / 2 ^ (16 - n) := by
  have hsplit : (2 : ℕ) ^ (128 - n) = 2 ^ 112 * 2 ^ (16 - n) := by
    rw [← pow_add]
    congr 1
    omega
  rw [hsplit, ← Nat.div_div_eq_div_mul, value_div_112]

end Ipv6Address

def LocalGroup (g : ℕ) : Prop := g / 512 = 126 ∨ g / 64 = 1018

theorem covers_v4 (base : Ipv4Address) (length : ℕ) (x : Ipv6Address) :
    (Cidr.mk (.v4 base) length).covers (.v6 x) =
      x.embedded.any fun q => (Cidr.mk (.v4 base) length).covers (.v4 q) := rfl

theorem covers_loopback (x : Ipv6Address) : loopback.covers (.v6 x) = true ↔ x.value = 1 := by
  show decide (x.value / 1 = 1 / 1) = true ↔ _
  rw [decide_eq_true_eq, Nat.div_one, Nat.div_one]

theorem covers_uniqueLocal (x : Ipv6Address) :
    uniqueLocal.covers (.v6 x) = true ↔ x.group 0 / 512 = 126 := by
  have hfirst := x.value_div_first (n := 7) (by norm_num)
  show decide (x.value / 2 ^ (128 - 7) = _) = true ↔ _
  rw [decide_eq_true_eq, hfirst]
  rfl

theorem covers_linkLocal (x : Ipv6Address) :
    linkLocal.covers (.v6 x) = true ↔ x.group 0 / 64 = 1018 := by
  have hfirst := x.value_div_first (n := 10) (by norm_num)
  show decide (x.value / 2 ^ (128 - 10) = _) = true ↔ _
  rw [decide_eq_true_eq, hfirst]
  rfl

theorem table_v6 (x : Ipv6Address) : inRanges blockedCidrs (.v6 x) = true ↔
    x.value = 1 ∨ LocalGroup (x.group 0) ∨
      ∃ q, x.embedded = some q ∧ inRanges blockedCidrs (.v4 q) = true := by
  have hsplit : ∀ y, inRanges blockedCidrs y =
      (inRanges (blockedCidrs.take 6) y || inRanges (blockedCidrs.drop 6) y) := by
    intro y
    unfold inRanges
    rw [← List.any_append, List.take_append_drop]
  have hlast : inRanges (blockedCidrs.drop 6) (.v6 x) = true ↔
      x.value = 1 ∨ x.group 0 / 512 = 126 ∨ x.group 0 / 64 = 1018 := by
    rw [← covers_loopback, ← covers_uniqueLocal, ← covers_linkLocal, ← Bool.or_eq_true,
      ← Bool.or_eq_true, ← Bool.or_assoc]
    unfold inRanges
    simp only [blockedCidrs, List.drop, List.any_cons, List.any_nil, Bool.or_false, Bool.or_assoc]
  have hv4 : ∀ q, inRanges blockedCidrs (.v4 q) = inRanges (blockedCidrs.take 6) (.v4 q) := by
    intro q
    rw [hsplit]
    exact Bool.or_false _
  have hfirst : inRanges (blockedCidrs.take 6) (.v6 x) =
      x.embedded.any fun q => inRanges (blockedCidrs.take 6) (.v4 q) := by
    cases hx : x.embedded with
    | none =>
      unfold inRanges
      simp only [blockedCidrs, ipv4, List.take, List.any_cons, List.any_nil, covers_v4, hx,
        Option.any_none, Bool.or_false]
    | some q =>
      unfold inRanges
      simp only [blockedCidrs, ipv4, List.take, List.any_cons, List.any_nil, covers_v4, hx,
        Option.any_some, Bool.or_false]
  rw [hsplit, Bool.or_eq_true, hlast, hfirst, Option.any_eq_true]
  simp only [hv4, LocalGroup]
  constructor
  · rintro (hquad | hvalue | hgroup)
    · exact Or.inr (Or.inr hquad)
    · exact Or.inl hvalue
    · exact Or.inr (Or.inl hgroup)
  · rintro (hvalue | hgroup | hquad)
    · exact Or.inr (Or.inl hvalue)
    · exact Or.inr (Or.inr hgroup)
    · exact Or.inl hquad

theorem covers_octets (base q : Ipv4Address) {n : ℕ} (h : n ≤ 16) :
    (Cidr.mk (.v4 base) n).covers (.v4 q) = true ↔
      (q.a.val * 256 + q.b.val) / 2 ^ (16 - n) = (base.a.val * 256 + base.b.val) / 2 ^ (16 - n) := by
  have hvalue : ∀ p : Ipv4Address,
      p.value / 2 ^ (32 - n) = (p.a * 256 + p.b) / 2 ^ (16 - n) := by
    intro p
    have hc := p.c.isLt
    have hd := p.d.isLt
    have hsplit : (2 : ℕ) ^ (32 - n) = 2 ^ 16 * 2 ^ (16 - n) := by
      rw [← pow_add]
      congr 1
      omega
    have hhead : p.value / 2 ^ 16 = p.a * 256 + p.b := by
      unfold Ipv4Address.value
      omega
    rw [hsplit, ← Nat.div_div_eq_div_mul, hhead]
  show decide (q.value / 2 ^ (32 - n) = base.value / 2 ^ (32 - n)) = true ↔ _
  rw [decide_eq_true_eq, hvalue, hvalue]

theorem blockedOctets_iff (a b : ℕ) : blockedOctets a b = true ↔
    a = 0 ∨ a = 10 ∨ a = 127 ∨ (a = 100 ∧ 64 ≤ b ∧ b ≤ 127) ∨ (a = 169 ∧ b = 254) ∨
      (a = 172 ∧ 16 ≤ b ∧ b ≤ 31) ∨ (a = 192 ∧ b = 168) ∨ (a = 192 ∧ b = 0) ∨
      (a = 198 ∧ (b = 18 ∨ b = 19)) ∨ 224 ≤ a := by
  unfold blockedOctets
  simp only [Bool.or_eq_true, Bool.and_eq_true, decide_eq_true_eq, or_assoc, and_assoc]

theorem blockedOctets_of_table {q : Ipv4Address} (h : inRanges blockedCidrs (.v4 q) = true) :
    blockedOctets q.a q.b = true := by
  have hb := q.b.isLt
  unfold inRanges at h
  obtain ⟨range, hrange, hcovers⟩ := List.any_eq_true.mp h
  rw [blockedOctets_iff]
  simp only [blockedCidrs, ipv4, List.mem_cons, List.not_mem_nil, or_false] at hrange
  rcases hrange with rfl | rfl | rfl | rfl | rfl | rfl | rfl | rfl | rfl
  case inr.inr.inr.inr.inr.inr.inl => cases hcovers
  case inr.inr.inr.inr.inr.inr.inr.inl => cases hcovers
  case inr.inr.inr.inr.inr.inr.inr.inr => cases hcovers
  all_goals
    rw [covers_octets _ _ (by norm_num)] at hcovers
    norm_num at hcovers
    omega

def unspecified : Cidr := ⟨.v6 ⟨[0, 0, 0, 0, 0, 0, 0, 0], rfl, by decide⟩, 128⟩

def nat64 (length : ℕ) : Cidr := ⟨.v6 ⟨[0x64, 0xff9b, 0, 0, 0, 0, 0, 0], rfl, by decide⟩, length⟩

def ipv4Mapped : Cidr := ⟨.v6 ⟨[0, 0, 0, 0, 0, 0xffff, 0, 0], rfl, by decide⟩, 96⟩

def ipv4Compatible : Cidr := ⟨.v6 ⟨[0, 0, 0, 0, 0, 0, 0, 0], rfl, by decide⟩, 96⟩

def namedRanges : List Cidr :=
  [ipv4 0 0 0 0 8, ipv4 10 0 0 0 8, ipv4 127 0 0 0 8, ipv4 100 64 0 0 10, ipv4 169 254 0 0 16,
    ipv4 172 16 0 0 12, ipv4 192 168 0 0 16, ipv4 192 0 0 0 24, ipv4 192 0 2 0 24, ipv4 198 18 0 0 15,
    ipv4 224 0 0 0 4, ipv4 240 0 0 0 4, loopback, unspecified, uniqueLocal, linkLocal, nat64 32]

def listedRanges : List Cidr :=
  [uniqueLocal, linkLocal, nat64 16, loopback, unspecified, ipv4Mapped, ipv4Compatible]

theorem blockedOctets_of_named {q : Ipv4Address} (h : inRanges namedRanges (.v4 q) = true) :
    blockedOctets q.a q.b = true := by
  have hb := q.b.isLt
  have hc := q.c.isLt
  have hd := q.d.isLt
  have hlong : ∀ c : Fin 256, (ipv4 192 0 c 0 24).covers (.v4 q) = true →
      q.a.val = 192 ∧ q.b.val = 0 := by
    intro c hcovers
    have hvalue : q.value / 256 = (Ipv4Address.mk 192 0 c 0).value / 256 := of_decide_eq_true hcovers
    unfold Ipv4Address.value at hvalue
    have hc' := c.isLt
    norm_num at hvalue
    omega
  unfold inRanges at h
  obtain ⟨range, hrange, hcovers⟩ := List.any_eq_true.mp h
  rw [blockedOctets_iff]
  simp only [namedRanges, List.mem_cons, List.not_mem_nil, or_false] at hrange
  rcases hrange with rfl | rfl | rfl | rfl | rfl | rfl | rfl | rfl | rfl | rfl | rfl | rfl | hv6
  case inr.inr.inr.inr.inr.inr.inr.inl => have hquad := hlong 0 hcovers; omega
  case inr.inr.inr.inr.inr.inr.inr.inr.inl => have hquad := hlong 2 hcovers; omega
  case inr.inr.inr.inr.inr.inr.inr.inr.inr.inr.inr.inr =>
    rcases hv6 with rfl | rfl | rfl | rfl | rfl <;> cases hcovers
  all_goals
    unfold ipv4 at hcovers
    rw [covers_octets _ _ (by norm_num)] at hcovers
    norm_num at hcovers
    omega

theorem eq_lowQuad {x : Ipv6Address} {q : Ipv4Address} (h : x.embedded = some q) :
    q = x.lowQuad ∧ x.groups.take 6 = [0, 0, 0, 0, 0, 0xffff] := by
  unfold Ipv6Address.embedded at h
  split_ifs at h with hhead
  exact ⟨(Option.some.inj h).symm, hhead⟩

theorem blockedOctets_zero : blockedOctets 0 0 = true := rfl

theorem lowQuad_of_value_zero {x : Ipv6Address} (h : x.value = 0) :
    x.lowQuad = ⟨0, 0, 0, 0⟩ := by
  have hvalue := x.value_eq
  have hsix : x.group 6 = 0 := by omega
  have hseven : x.group 7 = 0 := by omega
  unfold Ipv6Address.lowQuad
  rw [hsix, hseven]
  rfl

theorem named_v6 {x : Ipv6Address} (h : inRanges namedRanges (.v6 x) = true) :
    inRanges blockedCidrs (.v6 x) = true ∨ blockedOctets x.lowQuad.a x.lowQuad.b = true ∨
      (x.group 0 = 0x64 ∧ x.group 1 = 0xff9b) := by
  unfold inRanges at h
  obtain ⟨range, hrange, hcovers⟩ := List.any_eq_true.mp h
  obtain ⟨base, length⟩ := range
  cases base with
  | v4 base =>
    rw [covers_v4, Option.any_eq_true] at hcovers
    obtain ⟨q, hq, hcovers⟩ := hcovers
    obtain ⟨rfl, -⟩ := eq_lowQuad hq
    exact Or.inr (Or.inl (blockedOctets_of_named (List.any_eq_true.mpr ⟨_, hrange, hcovers⟩)))
  | v6 base =>
    have hrange' : Cidr.mk (.v6 base) length ∈
        [loopback, unspecified, uniqueLocal, linkLocal, nat64 32] := by
      simpa [namedRanges, ipv4] using hrange
    rw [table_v6]
    simp only [List.mem_cons, List.not_mem_nil, or_false] at hrange'
    rcases hrange' with hr | hr | hr | hr | hr <;> rw [hr] at hcovers
    case inl => exact Or.inl (Or.inl ((covers_loopback x).mp hcovers))
    case inr.inl =>
      have hvalue : x.value / 1 = 0 / 1 := of_decide_eq_true hcovers
      rw [Nat.div_one, Nat.zero_div] at hvalue
      rw [lowQuad_of_value_zero hvalue]
      exact Or.inr (Or.inl blockedOctets_zero)
    case inr.inr.inl =>
      exact Or.inl (Or.inr (Or.inl (Or.inl ((covers_uniqueLocal x).mp hcovers))))
    case inr.inr.inr.inl =>
      exact Or.inl (Or.inr (Or.inl (Or.inr ((covers_linkLocal x).mp hcovers))))
    case inr.inr.inr.inr =>
      have hvalue : x.value / 2 ^ 96 = 0x64 * 65536 + 0xff9b := of_decide_eq_true hcovers
      have hone := x.group_lt 1
      rw [x.value_div_96] at hvalue
      exact Or.inr (Or.inr (by omega))

theorem listed_of_table {x : Ipv6Address} (h : inRanges blockedCidrs (.v6 x) = true) :
    inRanges listedRanges (.v6 x) = true := by
  unfold inRanges
  rw [List.any_eq_true]
  rcases (table_v6 x).mp h with hvalue | (hunique | hlink) | ⟨q, hq, -⟩
  · exact ⟨loopback, by simp [listedRanges], (covers_loopback x).mpr hvalue⟩
  · exact ⟨uniqueLocal, by simp [listedRanges], (covers_uniqueLocal x).mpr hunique⟩
  · exact ⟨linkLocal, by simp [listedRanges], (covers_linkLocal x).mpr hlink⟩
  · refine ⟨ipv4Mapped, by simp [listedRanges], ?_⟩
    obtain ⟨-, hhead⟩ := eq_lowQuad hq
    have hgroups := x.groups_eq_group
    rw [hgroups] at hhead
    simp only [List.take_succ_cons, List.take_zero, List.cons.injEq, and_true] at hhead
    obtain ⟨h0, h1, h2, h3, h4, h5⟩ := hhead
    have h6 := x.group_lt 6
    have h7 := x.group_lt 7
    have hvalue := x.value_eq
    rw [h0, h1, h2, h3, h4, h5] at hvalue
    show decide (x.value / 2 ^ 32 = 0xffff) = true
    rw [decide_eq_true_eq, hvalue]
    omega

end Rovenue.Net
