import Rovenue.Net.Literals

/-! Which addresses an outbound call may not reach. The verdict is read off the text of a literal,
beside a table of ranges that node looks the address up in. -/

namespace Rovenue.Net
open Text

def toLowerCase (s : List Char) : List Char := s.map Char.toLower

/-- `Number`, for the runs of digits that the callers hand on. -/
def number (s : List Char) : Option ℕ := if s ≠ [] ∧ s.all Char.isDigit then some (decimal s) else none

def blockedOctets (a b : ℕ) : Bool :=
  -- the ranges of `isBlockedIpv4`, by the first two octets
  a = 0 || a = 10 || a = 127 || (a = 100 && 64 ≤ b && b ≤ 127) || (a = 169 && b = 254) ||
    (a = 172 && 16 ≤ b && b ≤ 31) || (a = 192 && b = 168) || (a = 192 && b = 0) ||
    (a = 198 && (b = 18 || b = 19)) || 224 ≤ a

def isBlockedIpv4 (ip : List Char) : Bool :=
  match (ip.splitOn '.').mapM number with
  | some [a, b, c, d] => if a > 255 || b > 255 || c > 255 || d > 255 then true else blockedOctets a b
  | _ => true

def isDottedQuad (s : List Char) : Bool :=
  let parts := s.splitOn '.'
  parts.length = 4 && parts.all fun part =>
    part.all Char.isDigit && 1 ≤ part.length && part.length ≤ 3

def dottedTail : List Char → Option (List Char)
  -- the group of the pattern, which is anchored at the end: what follows the first `:` that only a
  -- dotted quad follows
  | [] => none
  | c :: s => if c = ':' && isDottedQuad s then some s else dottedTail s

def padEnd (n : ℕ) (c : Char) (s : List Char) : List Char := s ++ List.replicate (n - s.length) c

def first16 (head : List Char) : ℕ :=
  -- the first sixteen bits, as the text before the first `:` reads
  if head = [] then 0 else hexValue ((padEnd 4 '0' head).take 4)

def isBlockedIpv6 (ip : List Char) : Bool :=
  let lower := (toLowerCase ip).takeWhile (· ≠ '%')
  if lower = "::1".toList || lower = "::".toList then true
  else match dottedTail lower with
    | some quad => isBlockedIpv4 quad
    | none =>
      let bits := first16 (lower.takeWhile (· ≠ ':'))
      if bits &&& 0xfe00 = 0xfc00 then true
      else if bits &&& 0xffc0 = 0xfe80 then true
      else "64:ff9b:".toList.isPrefixOf lower

def ipv4 (a b c d : Fin 256) (length : ℕ) : Cidr := ⟨.v4 ⟨a, b, c, d⟩, length⟩

def loopback : Cidr := ⟨.v6 ⟨[0, 0, 0, 0, 0, 0, 0, 1], rfl, by decide⟩, 128⟩

def uniqueLocal : Cidr := ⟨.v6 ⟨[0xfc00, 0, 0, 0, 0, 0, 0, 0], rfl, by decide⟩, 7⟩

def linkLocal : Cidr := ⟨.v6 ⟨[0xfe80, 0, 0, 0, 0, 0, 0, 0], rfl, by decide⟩, 10⟩

def blockedCidrs : List Cidr :=
  [ipv4 127 0 0 0 8, ipv4 10 0 0 0 8, ipv4 172 16 0 0 12, ipv4 192 168 0 0 16, ipv4 169 254 0 0 16,
    ipv4 0 0 0 0 8, loopback, uniqueLocal, linkLocal]

def inRanges (ranges : List Cidr) (x : IpAddress) : Bool := ranges.any fun range => range.covers x

inductive Family where
  | ipv4 | ipv6
  deriving DecidableEq

structure NodeNet where
  isIP : List Char → ℕ
  check : List Cidr → List Char → Family → Bool

namespace NodeNet
variable (net : NodeNet)

def isBlockedIp (ip : List Char) : Bool :=
  if net.isIP ip = 4 then isBlockedIpv4 ip
  else if net.isIP ip = 6 then isBlockedIpv6 ip
  else true

def isBlockedAddress (ip : List Char) : Bool :=
  if net.isIP ip = 4 then net.check blockedCidrs ip .ipv4 || net.isBlockedIp ip
  else if net.isIP ip = 6 then net.check blockedCidrs ip .ipv6 || net.isBlockedIp ip
  else true

/-- Node reads the literals of an address: it tells their kind, and its block list decides whether
the address is in the ranges. -/
structure Reads (x : IpAddress) : Prop where
  kind : ∀ l : IpLiteral, l.address = x → net.isIP l.text = match l with | .v4 _ => 4 | .v6 _ => 6
  lookup : ∀ l : IpLiteral, l.address = x → net.check blockedCidrs l.text
    (match l with | .v4 _ => .ipv4 | .v6 _ => .ipv6) = inRanges blockedCidrs x

variable {net}

theorem isBlockedAddress_v4 {q : Ipv4Address} (h : net.Reads (.v4 q)) :
    net.isBlockedAddress q.text = (inRanges blockedCidrs (.v4 q) || isBlockedIpv4 q.text) := by
  have hkind : net.isIP q.text = 4 := h.kind (.v4 q) rfl
  have hlookup : net.check blockedCidrs q.text .ipv4 = _ := h.lookup (.v4 q) rfl
  unfold isBlockedAddress isBlockedIp
  rw [if_pos hkind, if_pos hkind, hlookup]

theorem isBlockedAddress_v6 {l : Ipv6Literal} (h : net.Reads (.v6 l.address)) :
    net.isBlockedAddress l.text =
      (inRanges blockedCidrs (.v6 l.address) || isBlockedIpv6 l.text) := by
  have hkind : net.isIP l.text = 6 := h.kind (.v6 l) rfl
  have hlookup : net.check blockedCidrs l.text .ipv6 = _ := h.lookup (.v6 l) rfl
  have hfour : net.isIP l.text ≠ 4 := by
    rw [hkind]
    decide
  unfold isBlockedAddress isBlockedIp
  rw [if_neg hfour, if_pos hkind, if_neg hfour, if_pos hkind, hlookup]

end NodeNet

end Rovenue.Net
