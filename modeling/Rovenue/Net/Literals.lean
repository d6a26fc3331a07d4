import Rovenue.Text.Decimal
import Rovenue.Text.Separated

/-! Addresses of the internet protocol, and the literals that denote them. An IPv4 address has one
literal; an IPv6 address has as many as there are ways to write its groups, to leave out zeros, to
write the last two groups dotted, and to name a zone. -/

namespace Rovenue.Net
open Text

instance neZero_octet : NeZero 256 := ⟨by decide⟩

structure Ipv4Address where
  a : Fin 256
  b : Fin 256
  c : Fin 256
  d : Fin 256
  deriving DecidableEq

structure Ipv6Address where
  groups : List ℕ
  eight : groups.length = 8
  small : ∀ g ∈ groups, g < 65536
  deriving DecidableEq

inductive IpAddress where
  | v4 (q : Ipv4Address)
  | v6 (a : Ipv6Address)
  deriving DecidableEq

namespace Ipv4Address

def value (q : Ipv4Address) : ℕ := ((q.a * 256 + q.b) * 256 + q.c) * 256 + q.d

def pair (q : Ipv4Address) : List ℕ := [q.a * 256 + q.b, q.c * 256 + q.d]

theorem pair_small (q : Ipv4Address) : ∀ g ∈ q.pair, g < 65536 := by
  have ha := q.a.isLt
  have hb := q.b.isLt
  have hc := q.c.isLt
  have hd := q.d.isLt
  intro g hg
  rcases List.mem_pair.mp hg with rfl | rfl <;> omega

end Ipv4Address

namespace Ipv6Address

def value (x : Ipv6Address) : ℕ := x.groups.foldl (fun n g => 65536 * n + g) 0

def group (x : Ipv6Address) (i : ℕ) : ℕ := x.groups.getD i 0

def lowQuad (x : Ipv6Address) : Ipv4Address where
  a := Fin.ofNat 256 (x.group 6 / 256)
  b := Fin.ofNat 256 (x.group 6)
  c := Fin.ofNat 256 (x.group 7 / 256)
  d := Fin.ofNat 256 (x.group 7)

def mapped (q : Ipv4Address) : Ipv6Address where
  groups := [0, 0, 0, 0, 0, 0xffff] ++ q.pair
  eight := rfl
  small := by
    have hhead : ∀ g ∈ [0, 0, 0, 0, 0, 0xffff], g < 65536 := by decide
    intro g hg
    rcases List.mem_append.mp hg with hg | hg
    · exact hhead g hg
    · exact q.pair_small g hg

def embedded (x : Ipv6Address) : Option Ipv4Address :=
  if x.groups.take 6 = [0, 0, 0, 0, 0, 0xffff] then some x.lowQuad else none

theorem lowQuad_of_groups {x : Ipv6Address} {gs : List ℕ} {q : Ipv4Address}
    (h : x.groups = gs ++ q.pair) : x.lowQuad = q := by
  have hgs : gs.length = 6 := by
    have height := x.eight
    rw [h, List.length_append] at height
    exact Nat.add_right_cancel height
  have hsix : x.group 6 = q.a * 256 + q.b := by
    unfold group
    rw [h, List.getD_append_right _ _ _ _ hgs.le, hgs]
    rfl
  have hseven : x.group 7 = q.c * 256 + q.d := by
    unfold group
    rw [h, List.getD_append_right _ _ _ _ (by omega), hgs]
    rfl
  have hhigh : ∀ m n : Fin 256, Fin.ofNat 256 ((m.val * 256 + n.val) / 256) = m := by
    intro m n
    apply Fin.ext
    show (m.val * 256 + n.val) / 256 % 256 = m.val
    omega
  have hlow : ∀ m n : Fin 256, Fin.ofNat 256 (m.val * 256 + n.val) = n := by
    intro m n
    apply Fin.ext
    show (m.val * 256 + n.val) % 256 = n.val
    omega
  unfold lowQuad
  rw [hsix, hseven, hhigh, hlow, hhigh, hlow]

theorem embedded_mapped (q : Ipv4Address) : (mapped q).embedded = some q := by
  have hquad : (mapped q).lowQuad = q := lowQuad_of_groups rfl
  have hhead : (mapped q).groups.take 6 = [0, 0, 0, 0, 0, 0xffff] := rfl
  unfold embedded
  rw [if_pos hhead, hquad]

end Ipv6Address

/-- The addresses that share the first `length` bits of `base`. -/
structure Cidr where
  base : IpAddress
  length : ℕ

namespace Cidr

def covers (range : Cidr) (x : IpAddress) : Bool :=
  let matches4 (base q : Ipv4Address) : Bool :=
    q.value / 2 ^ (32 - range.length) = base.value / 2 ^ (32 - range.length)
  match range.base, x with
  | .v4 base, .v4 q => matches4 base q
  | .v4 base, .v6 y => y.embedded.any (matches4 base)
  | .v6 _, .v4 _ => false
  | .v6 base, .v6 y => y.value / 2 ^ (128 - range.length) = base.value / 2 ^ (128 - range.length)

end Cidr

def hexDigits : List Char := "0123456789abcdefABCDEF".toList

def hexDigitOf (c : Char) : ℕ :=
  if c.isDigit then digitOf c else if 'a' ≤ c then c.toNat - 87 else c.toNat - 55

def hexValue (digits : List Char) : ℕ := digits.foldl (fun n c => 16 * n + hexDigitOf c) 0

structure HexGroup where
  digits : List Char
  hex : ∀ c ∈ digits, c ∈ hexDigits
  nonempty : digits ≠ []
  short : digits.length ≤ 4

def HexGroup.value (g : HexGroup) : ℕ := hexValue g.digits

def Ipv4Address.text (q : Ipv4Address) : List Char :=
  List.intercalate ['.'] ([q.a, q.b, q.c, q.d].map fun n => Nat.toDigits 10 n.val)

def dottedWidth (dotted : Option Ipv4Address) : ℕ := if dotted.isSome then 2 else 0

def zoneChars : List Char :=
  "0123456789abcdefghijklmnopqrstuvwxyzABCDEFGHIJKLMNOPQRSTUVWXYZ-.:".toList

/-- A zone that node accepts: `[0-9a-zA-Z-.:]{1,}`. -/
structure ZoneId where
  chars : List Char
  allowed : ∀ c ∈ chars, c ∈ zoneChars
  nonempty : chars ≠ []

/-- The IPv6 texts that `isIP` accepts. -/
structure Ipv6Literal where
  -- the groups up to the `::`, or all of them
  before : List HexGroup
  after : Option (List HexGroup)
  dotted : Option Ipv4Address
  zone : Option ZoneId
  fits : match after with
    | none => before.length + dottedWidth dotted = 8
    | some gs => before.length + gs.length + dottedWidth dotted ≤ 7

namespace Ipv6Literal
variable (l : Ipv6Literal)

def parts (gs : List HexGroup) (dotted : Option Ipv4Address) : List (List Char) :=
  gs.map HexGroup.digits ++ (dotted.map Ipv4Address.text).toList

def body : List Char :=
  match l.after with
  | none => List.intercalate [':'] (parts l.before l.dotted)
  | some gs => List.intercalate [':'] (l.before.map HexGroup.digits) ++
      ':' :: ':' :: List.intercalate [':'] (parts gs l.dotted)

def zoneText : List Char := (l.zone.map fun z => '%' :: z.chars).getD []

def text : List Char := l.body ++ l.zoneText

def dottedGroups (dotted : Option Ipv4Address) : List ℕ := (dotted.map Ipv4Address.pair).getD []

def groups : List ℕ :=
  match l.after with
  | none => l.before.map HexGroup.value ++ dottedGroups l.dotted
  | some gs => l.before.map HexGroup.value ++
      List.replicate (8 - (l.before.length + gs.length + dottedWidth l.dotted)) 0 ++
        (gs.map HexGroup.value ++ dottedGroups l.dotted)

end Ipv6Literal

theorem hexDigitOf_lt {c : Char} (h : c ∈ hexDigits) : hexDigitOf c < 16 := by
  have hall : (hexDigits.all fun c => hexDigitOf c < 16) = true := by decide
  exact of_decide_eq_true (List.all_eq_true.mp hall c h)

theorem hexValue_append_singleton (digits : List Char) (c : Char) :
    hexValue (digits ++ [c]) = 16 * hexValue digits + hexDigitOf c := List.foldl_append

theorem hexValue_lt {digits : List Char} (h : ∀ c ∈ digits, c ∈ hexDigits) :
    hexValue digits < 16 ^ digits.length := by
  induction digits using List.reverseRecOn with
  | nil => exact Nat.one_pos
  | append_singleton digits c ih =>
    have hrest := ih fun x hx => h x (List.mem_append_left _ hx)
    have hdigit := hexDigitOf_lt (h c (List.mem_append_right _ List.mem_cons_self))
    rw [hexValue_append_singleton, List.length_append, List.length_singleton, pow_succ]
    omega

namespace HexGroup
variable (g : HexGroup)

theorem value_lt : g.value < 16 ^ g.digits.length := hexValue_lt g.hex

theorem value_small : g.value < 65536 := by
  have hpow : 16 ^ g.digits.length ≤ 16 ^ 4 := Nat.pow_le_pow_right (by norm_num) g.short
  exact g.value_lt.trans_le hpow

end HexGroup

namespace Ipv6Literal
variable (l : Ipv6Literal)

theorem length_dottedGroups (dotted : Option Ipv4Address) :
    (dottedGroups dotted).length = dottedWidth dotted := by
  cases dotted <;> rfl

theorem length_groups : l.groups.length = 8 := by
  obtain ⟨before, after, dotted, zone, fits⟩ := l
  cases after with
  | none =>
    simp only [groups, List.length_append, List.length_map, length_dottedGroups]
    exact fits
  | some gs =>
    simp only [groups, List.length_append, List.length_map, List.length_replicate,
      length_dottedGroups]
    simp only at fits
    omega

theorem groups_small : ∀ g ∈ l.groups, g < 65536 := by
  have hvalues : ∀ gs : List HexGroup, ∀ g ∈ gs.map HexGroup.value, g < 65536 := by
    intro gs g hg
    obtain ⟨x, -, rfl⟩ := List.mem_map.mp hg
    exact x.value_small
  have hdotted : ∀ g ∈ dottedGroups l.dotted, g < 65536 := by
    intro g hg
    cases hq : l.dotted with
    | none =>
      rw [hq] at hg
      cases hg
    | some q =>
      rw [hq] at hg
      exact q.pair_small g hg
  intro g hg
  unfold groups at hg
  split at hg
  · rcases List.mem_append.mp hg with hg | hg
    · exact hvalues _ g hg
    · exact hdotted g hg
  · rcases List.mem_append.mp hg with hg | hg
    · rcases List.mem_append.mp hg with hg | hg
      · exact hvalues _ g hg
      · rw [List.eq_of_mem_replicate hg]
        exact Nat.pos_of_ne_zero (by norm_num)
    · rcases List.mem_append.mp hg with hg | hg
      · exact hvalues _ g hg
      · exact hdotted g hg

def address : Ipv6Address := ⟨l.groups, l.length_groups, l.groups_small⟩

end Ipv6Literal

inductive IpLiteral where
  | v4 (q : Ipv4Address)
  | v6 (l : Ipv6Literal)

namespace IpLiteral

def text : IpLiteral → List Char
  | .v4 q => q.text
  | .v6 l => l.text

def address : IpLiteral → IpAddress
  | .v4 q => .v4 q
  | .v6 l => .v6 l.address

end IpLiteral

end Rovenue.Net
