import Rovenue.Net.Ranges

/-! When the verdict on an address does not depend on its spelling. An address outside the table
is told apart by its last octets when they are dotted, and by how its first group is written. -/

namespace Rovenue.Net
open Text

theorem and_high_bits (n m k : ℕ) : n &&& ((2 ^ m - 1) <<< k) = (n / 2 ^ k % 2 ^ m) * 2 ^ k := by
  have hshift : n &&& ((2 ^ m - 1) <<< k) = ((n >>> k) &&& (2 ^ m - 1)) <<< k := by
    apply Nat.eq_of_testBit_eq
    intro i
    rw [Nat.testBit_and, Nat.testBit_shiftLeft, Nat.testBit_shiftLeft, Nat.testBit_and,
      Nat.testBit_shiftRight]
    by_cases hi : k ≤ i
    · rw [Nat.add_sub_cancel' hi]
      simp [hi]
    · simp [hi]
  rw [hshift, Nat.and_two_pow_sub_one_eq_mod, Nat.shiftRight_eq_div_pow, Nat.shiftLeft_eq]

theorem localBits_iff {n : ℕ} (h : n < 65536) :
    Ipv6Literal.localBits n = true ↔ LocalGroup n := by
  have hunique : n &&& 0xfe00 = n / 512 % 128 * 512 := and_high_bits n 7 9
  have hlink : n &&& 0xffc0 = n / 64 % 1024 * 64 := and_high_bits n 10 6
  unfold Ipv6Literal.localBits LocalGroup
  rw [Bool.or_eq_true, decide_eq_true_eq, decide_eq_true_eq, hunique, hlink]
  omega

theorem hexValue_append_zeros (digits : List Char) (k : ℕ) :
    hexValue (digits ++ List.replicate k '0') = hexValue digits * 16 ^ k := by
  induction k with
  | zero => simp
  | succ k ih =>
    have hzero : hexDigitOf '0' = 0 := by decide
    rw [List.replicate_succ', ← List.append_assoc, hexValue_append_singleton, ih, hzero, pow_succ]
    ring

theorem first16_digits (g : HexGroup) :
    first16 g.digits = g.value * 16 ^ (4 - g.digits.length) := by
  have hlength : (padEnd 4 '0' g.digits).length ≤ 4 := by
    have hshort := g.short
    rw [padEnd, List.length_append, List.length_replicate]
    omega
  unfold first16
  rw [if_neg g.nonempty, List.take_of_length_le hlength, padEnd, hexValue_append_zeros]
  rfl

theorem first16_digits_lt (g : HexGroup) : first16 g.digits < 65536 := by
  have hshort := g.short
  have hpos : 0 < 16 ^ (4 - g.digits.length) := Nat.pow_pos (by norm_num)
  calc first16 g.digits = g.value * 16 ^ (4 - g.digits.length) := first16_digits g
    _ < 16 ^ g.digits.length * 16 ^ (4 - g.digits.length) :=
        Nat.mul_lt_mul_of_pos_right g.value_lt hpos
    _ = 16 ^ 4 := by rw [← pow_add, Nat.add_sub_cancel' hshort]
    _ = 65536 := by norm_num

def ReadsLocal (g : ℕ) : Prop := ∃ k < 4, g * 16 ^ k < 65536 ∧ LocalGroup (g * 16 ^ k)

theorem readsLocal_of_digits {g : HexGroup} (h : Ipv6Literal.localBits (first16 g.digits) = true) :
    ReadsLocal g.value := by
  have hlt := first16_digits_lt g
  have hlocal := (localBits_iff hlt).mp h
  have hpos : 0 < g.digits.length := List.length_pos_iff.mpr g.nonempty
  rw [first16_digits] at hlt hlocal
  exact ⟨4 - g.digits.length, by omega, hlt, hlocal⟩

def hexText : ℕ → ℕ → List Char
  | 0, _ => []
  | w + 1, n => hexText w (n / 16) ++ [Nat.digitChar (n % 16)]

theorem length_hexText (w n : ℕ) : (hexText w n).length = w := by
  induction w generalizing n with
  | zero => rfl
  | succ w ih => rw [hexText, List.length_append, ih, List.length_singleton]

theorem digitChar_hex {d : ℕ} (h : d < 16) :
    Nat.digitChar d ∈ hexDigits ∧ hexDigitOf (Nat.digitChar d) = d := by
  revert d
  decide

theorem mem_hexText {w n : ℕ} {c : Char} (h : c ∈ hexText w n) : c ∈ hexDigits := by
  induction w generalizing n with
  | zero => cases h
  | succ w ih =>
    rcases List.mem_append.mp h with h | h
    · exact ih h
    · obtain rfl := List.mem_singleton.mp h
      exact (digitChar_hex (Nat.mod_lt n (by norm_num))).1

theorem hexValue_hexText (w n : ℕ) : hexValue (hexText w n) = n % 16 ^ w := by
  induction w generalizing n with
  | zero => simp [hexText, hexValue, Nat.mod_one]
  | succ w ih =>
    have hdigit := (digitChar_hex (Nat.mod_lt n (show 16 > 0 by norm_num))).2
    rw [hexText, hexValue_append_singleton, ih, hdigit, pow_succ, Nat.mul_comm (16 ^ w) 16,
      Nat.mod_mul]
    omega

def HexGroup.spell (w : ℕ) (hw : 0 < w ∧ w ≤ 4) (n : ℕ) : HexGroup where
  digits := hexText w n
  hex _ := mem_hexText
  nonempty := by
    rw [← List.length_pos_iff, length_hexText]
    exact hw.1
  short := by
    rw [length_hexText]
    exact hw.2

theorem HexGroup.value_spell {w n : ℕ} (hw : 0 < w ∧ w ≤ 4) (h : n < 16 ^ w) :
    (HexGroup.spell w hw n).value = n := (hexValue_hexText w n).trans (Nat.mod_eq_of_lt h)

def HexGroup.full (n : ℕ) : HexGroup := HexGroup.spell 4 (by norm_num) n

theorem map_value_full {gs : List ℕ} (h : ∀ g ∈ gs, g < 65536) :
    (gs.map HexGroup.full).map HexGroup.value = gs := by
  rw [List.map_map]
  conv_rhs => rw [← List.map_id gs]
  exact List.map_congr_left fun g hg => HexGroup.value_spell _ (h g hg)

namespace Ipv6Literal
variable {l : Ipv6Literal} {x : Ipv6Address}

def ofGroups (gs : List HexGroup) (h : gs.length = 8) : Ipv6Literal where
  before := gs
  after := none
  dotted := none
  zone := none
  fits := h

def ofDotted (gs : List HexGroup) (q : Ipv4Address) (h : gs.length = 6) : Ipv6Literal where
  before := gs
  after := none
  dotted := some q
  zone := none
  fits := by rw [h]; rfl

theorem address_eq (h : l.groups = x.groups) : l.address = x := by
  obtain ⟨groups, eight, small⟩ := x
  unfold address
  simp only [h]

theorem group_zero (l : Ipv6Literal) :
    l.address.group 0 = (l.before.head?.map HexGroup.value).getD 0 := by
  have hgroups : l.address.group 0 = l.groups.getD 0 0 := rfl
  rw [hgroups]
  unfold groups
  cases hbefore : l.before with
  | cons g gs => cases l.after <;> rfl
  | nil =>
    obtain ⟨as, hafter⟩ := after_of_before_nil hbefore
    obtain ⟨before, after, dotted, zone, fits⟩ := l
    obtain rfl : before = [] := hbefore
    obtain rfl : after = some as := hafter
    obtain ⟨n, hn⟩ : ∃ n, 8 - (([] : List HexGroup).length + as.length + dottedWidth dotted) = n + 1 := by
      refine ⟨7 - (0 + as.length + dottedWidth dotted), ?_⟩
      simp only [List.length_nil] at fits ⊢
      omega
    simp only [hn]
    rfl

theorem lowQuad_dotted {q : Ipv4Address} (h : l.dotted = some q) : l.address.lowQuad = q := by
  rcases hafter : l.after with _ | as
  · have hgroups : l.address.groups = l.before.map HexGroup.value ++ q.pair := by
      show l.groups = _
      unfold groups
      rw [hafter, h]
      rfl
    exact Ipv6Address.lowQuad_of_groups hgroups
  · have hgroups : l.address.groups = l.before.map HexGroup.value ++
        List.replicate (8 - (l.before.length + as.length + dottedWidth l.dotted)) 0 ++
          as.map HexGroup.value ++ q.pair := by
      show l.groups = _
      unfold groups
      rw [hafter, h, List.append_assoc]
      rfl
    exact Ipv6Address.lowQuad_of_groups hgroups

theorem groups_of_beginsNat64 (h : l.beginsNat64) :
    l.address.group 0 = 0x64 ∧ l.address.group 1 = 0xff9b := by
  unfold beginsNat64 at h
  obtain ⟨g, g', gs, hbefore⟩ : ∃ g g' gs, l.before = g :: g' :: gs := by
    have hlength := congrArg List.length h
    rw [List.length_map] at hlength
    match hb : l.before with
    | [] => rw [hb] at hlength; cases hlength
    | [g] => rw [hb] at hlength; cases hlength
    | g :: g' :: gs => exact ⟨g, g', gs, rfl⟩
  rw [hbefore] at h
  simp only [List.take_succ_cons, List.take_zero, List.map_cons, List.map_nil, List.cons.injEq,
    and_true] at h
  have hvalue : g.value = 0x64 := by
    unfold HexGroup.value
    rw [h.1]
    decide
  have hvalue' : g'.value = 0xff9b := by
    unfold HexGroup.value
    rw [h.2]
    decide
  have hgroups : ∃ rest, l.groups = g.value :: g'.value :: rest := by
    unfold groups
    rw [hbefore]
    cases l.after with
    | none => exact ⟨_, rfl⟩
    | some as => exact ⟨_, rfl⟩
  obtain ⟨rest, hrest⟩ := hgroups
  have hget : ∀ i, l.address.group i = l.groups.getD i 0 := fun i => rfl
  rw [hget, hget, hrest, ← hvalue, ← hvalue']
  exact ⟨rfl, rfl⟩

end Ipv6Literal

/-- The table decides the address, or none of its spellings reads as a blocked one. -/
def SpelledAlike (x : Ipv6Address) : Prop :=
  inRanges blockedCidrs (.v6 x) = true ∨
    blockedOctets x.lowQuad.a x.lowQuad.b = false ∧ ¬ReadsLocal (x.group 0) ∧
      ¬(x.group 0 = 0x64 ∧ x.group 1 = 0xff9b)

namespace Ipv6Literal
variable {l : Ipv6Literal}

theorem not_blocked (htable : inRanges blockedCidrs (.v6 l.address) = false)
    (hquad : blockedOctets l.address.lowQuad.a l.address.lowQuad.b = false)
    (hlocal : ¬ReadsLocal (l.address.group 0))
    (hnat64 : ¬(l.address.group 0 = 0x64 ∧ l.address.group 1 = 0xff9b)) :
    l.blocked = false := by
  have hloopback : l.body ≠ "::1".toList := by
    intro hbody
    have hgroups : l.address.groups = List.replicate 7 0 ++ [1] := groups_of_loopback hbody
    have hvalue : l.address.value = 1 := by
      unfold Ipv6Address.value
      rw [hgroups]
      rfl
    rw [(table_v6 _).mpr (Or.inl hvalue)] at htable
    cases htable
  have hunspecified : l.body ≠ "::".toList := by
    intro hbody
    have hgroups : l.address.groups = List.replicate 8 0 := groups_of_unspecified hbody
    have hvalue : l.address.value = 0 := by
      unfold Ipv6Address.value
      rw [hgroups]
      rfl
    rw [lowQuad_of_value_zero hvalue] at hquad
    cases hquad
  unfold blocked
  rw [decide_eq_false hloopback, decide_eq_false hunspecified, Bool.false_or, Bool.false_or]
  cases hdotted : l.dotted with
  | some q =>
    rw [lowQuad_dotted hdotted] at hquad
    exact hquad
  | none =>
    have hbegins : ¬l.beginsNat64 := fun h => hnat64 (groups_of_beginsNat64 h)
    have hhead : localBits (first16 l.headDigits) = false := by
      rw [Bool.eq_false_iff]
      intro hbits
      rw [group_zero] at hlocal
      unfold headDigits at hbits
      cases hbefore : l.before with
      | nil =>
        rw [hbefore] at hbits
        cases hbits
      | cons g gs =>
        rw [hbefore] at hbits hlocal
        exact hlocal (readsLocal_of_digits hbits)
    rw [hhead, decide_eq_false hbegins]
    rfl

end Ipv6Literal

namespace Ipv6Literal
variable {l : Ipv6Literal}

theorem blocked_of_before {g : HexGroup} {gs : List HexGroup} (h : l.before = g :: gs) :
    l.blocked = match l.dotted with
      | some q => blockedOctets q.a q.b
      | none => localBits (first16 g.digits) || decide l.beginsNat64 := by
  have hspecial : ∀ tail, l.body ≠ ':' :: ':' :: tail := by
    intro tail hbody
    obtain ⟨as, hbefore, -⟩ := parts_of_body hbody
    rw [h] at hbefore
    cases hbefore
  have hloopback : l.body ≠ "::1".toList := hspecial ['1']
  have hunspecified : l.body ≠ "::".toList := hspecial []
  unfold blocked headDigits
  rw [decide_eq_false hloopback, decide_eq_false hunspecified, Bool.false_or, Bool.false_or, h]
  rfl

def spelled (x : Ipv6Address) (w : ℕ) (hw : 0 < w ∧ w ≤ 4) : Ipv6Literal :=
  ofGroups (HexGroup.spell w hw (x.group 0) :: x.groups.tail.map HexGroup.full) (by
    rw [List.length_cons, List.length_map, List.length_tail, x.eight])

theorem address_spelled {x : Ipv6Address} {w : ℕ} (hw : 0 < w ∧ w ≤ 4) (h : x.group 0 < 16 ^ w) :
    (spelled x w hw).address = x := by
  apply address_eq
  have htail : (x.groups.tail.map HexGroup.full).map HexGroup.value = x.groups.tail :=
    map_value_full fun g hg => x.small g (List.mem_of_mem_tail hg)
  have hgroups : x.groups = x.group 0 :: x.groups.tail := by
    rw [x.groups_eq_group]
    rfl
  show (HexGroup.spell w hw (x.group 0) :: x.groups.tail.map HexGroup.full).map HexGroup.value ++ [] = _
  rw [List.append_nil, List.map_cons, HexGroup.value_spell hw h, htail]
  exact hgroups.symm

theorem blocked_spelled {x : Ipv6Address} {w : ℕ} (hw : 0 < w ∧ w ≤ 4) (h : x.group 0 < 16 ^ w) :
    (spelled x w hw).lower.blocked =
      (localBits (x.group 0 * 16 ^ (4 - w)) || decide (spelled x w hw).lower.beginsNat64) := by
  have hbefore : (spelled x w hw).lower.before = (HexGroup.spell w hw (x.group 0)).lower ::
      (x.groups.tail.map HexGroup.full).map HexGroup.lower := rfl
  have hlength : (HexGroup.spell w hw (x.group 0)).lower.digits.length = w :=
    (List.length_map _).trans (length_hexText _ _)
  rw [blocked_of_before hbefore, first16_digits, hlength, HexGroup.value_lower,
    HexGroup.value_spell hw h]
  rfl

theorem length_of_beginsNat64 {x : Ipv6Address} {w : ℕ} (hw : 0 < w ∧ w ≤ 4)
    (h : (spelled x w hw).lower.beginsNat64) : w = 2 := by
  have hhead := congrArg (fun ds : List (List Char) => (ds.head?.map List.length).getD 0) h
  have hlength : (HexGroup.spell w hw (x.group 0)).lower.digits.length = w :=
    (List.length_map _).trans (length_hexText _ _)
  exact hlength.symm.trans hhead

theorem pair_lowQuad (x : Ipv6Address) : x.lowQuad.pair = [x.group 6, x.group 7] := by
  have hpair : ∀ n < 65536, (Fin.ofNat 256 (n / 256)).val * 256 + (Fin.ofNat 256 n).val = n := by
    intro n hn
    show n / 256 % 256 * 256 + n % 256 = n
    omega
  unfold Ipv4Address.pair Ipv6Address.lowQuad
  rw [hpair _ (x.group_lt 6), hpair _ (x.group_lt 7)]

def dottedSpelling (x : Ipv6Address) : Ipv6Literal :=
  ofDotted ((x.groups.take 6).map HexGroup.full) x.lowQuad (by
    rw [List.length_map, List.length_take, x.eight]
    rfl)

theorem address_dotted (x : Ipv6Address) : (dottedSpelling x).address = x := by
  apply address_eq
  have htake : ((x.groups.take 6).map HexGroup.full).map HexGroup.value = x.groups.take 6 :=
    map_value_full fun g hg => x.small g (List.mem_of_mem_take hg)
  show ((x.groups.take 6).map HexGroup.full).map HexGroup.value ++ x.lowQuad.pair = x.groups
  rw [htake, pair_lowQuad, x.groups_eq_group]
  rfl

theorem blocked_dotted (x : Ipv6Address) :
    (dottedSpelling x).lower.blocked = blockedOctets x.lowQuad.a x.lowQuad.b := by
  have hbefore : (dottedSpelling x).lower.before = (HexGroup.full (x.group 0)).lower ::
      [(HexGroup.full (x.group 1)).lower, (HexGroup.full (x.group 2)).lower,
        (HexGroup.full (x.group 3)).lower, (HexGroup.full (x.group 4)).lower,
        (HexGroup.full (x.group 5)).lower] := by
    show ((x.groups.take 6).map HexGroup.full).map HexGroup.lower = _
    rw [x.groups_eq_group]
    rfl
  rw [blocked_of_before hbefore]
  rfl

end Ipv6Literal

end Rovenue.Net
