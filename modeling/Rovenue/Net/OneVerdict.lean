import Rovenue.Net.SpellingVerdict

/-! One verdict for every literal of an address. -/

namespace Rovenue.Net
open Ipv6Literal

/-- The verdict on an address: the same for all the literals of it that node accepts, that of the
embedded address where one is mapped, and right about the ranges that are named and those outside of
the list. -/
structure VerdictRight (net : NodeNet) (x : IpAddress) : Prop where
  same : ∀ l l' : IpLiteral, l.address = x → l'.address = x →
    net.isBlockedAddress l.text = net.isBlockedAddress l'.text
  mapped : ∀ (q : Ipv4Address) (l : IpLiteral), x = .v6 (Ipv6Address.mapped q) → l.address = x →
    net.isBlockedAddress l.text = net.isBlockedAddress q.text
  named : inRanges namedRanges x = true →
    ∀ l : IpLiteral, l.address = x → net.isBlockedAddress l.text = true
  outside : ∀ y, x = .v6 y → inRanges listedRanges x = false →
    ∀ l : IpLiteral, l.address = x → net.isBlockedAddress l.text = false

variable {net : NodeNet} {x : Ipv6Address} {q : Ipv4Address}

theorem verdict_v4 (h : net.Reads (.v4 q)) :
    net.isBlockedAddress q.text = blockedOctets q.a q.b := by
  rw [NodeNet.isBlockedAddress_v4 h, q.isBlockedIpv4_text]
  cases htable : inRanges blockedCidrs (.v4 q) with
  | false => rfl
  | true => rw [blockedOctets_of_table htable, Bool.or_true]

theorem verdict_v6 {l : Ipv6Literal} (h : net.Reads (.v6 x)) (hl : l.address = x) :
    net.isBlockedAddress l.text = (inRanges blockedCidrs (.v6 x) || l.lower.blocked) := by
  subst hl
  rw [NodeNet.isBlockedAddress_v6 h, isBlockedIpv6_text]

theorem literal_v4 {l : IpLiteral} (h : l.address = .v4 q) : l = .v4 q := by
  cases l with
  | v4 p =>
    cases h
    rfl
  | v6 l => cases h

theorem literal_v6 {l : IpLiteral} (h : l.address = .v6 x) :
    ∃ l' : Ipv6Literal, l = .v6 l' ∧ l'.address = x := by
  cases l with
  | v4 p => cases h
  | v6 l' => exact ⟨l', rfl, IpAddress.v6.inj h⟩

theorem verdictRight_v4 (h : net.Reads (.v4 q)) : VerdictRight net (.v4 q) where
  same := by
    intro l l' hl hl'
    rw [literal_v4 hl, literal_v4 hl']
  mapped := by
    intro p l hx
    cases hx
  named := by
    intro hnamed l hl
    rw [literal_v4 hl]
    show net.isBlockedAddress q.text = true
    rw [verdict_v4 h]
    exact blockedOctets_of_named hnamed
  outside := by
    intro y hx
    cases hx

theorem table_of_mapped (h : inRanges blockedCidrs (.v6 (Ipv6Address.mapped q)) = true) :
    inRanges blockedCidrs (.v4 q) = true := by
  rcases (table_v6 _).mp h with hvalue | hlocal | ⟨p, hp, htable⟩
  · have hfive : (Ipv6Address.mapped q).group 5 = 0xffff := rfl
    have heq := (Ipv6Address.mapped q).value_eq
    rw [hvalue, hfive] at heq
    omega
  · have hzero : (Ipv6Address.mapped q).group 0 = 0 := rfl
    rw [hzero] at hlocal
    rcases hlocal with h | h <;> cases h
  · rw [Ipv6Address.embedded_mapped] at hp
    rw [Option.some.inj hp]
    exact htable

theorem lowQuad_mapped : (Ipv6Address.mapped q).lowQuad = q := Ipv6Address.lowQuad_of_groups rfl

theorem verdictRight_of_spelledAlike (h : net.Reads (.v6 x))
    (hembedded : ∀ q, x = Ipv6Address.mapped q → net.Reads (.v4 q)) (halike : SpelledAlike x) :
    VerdictRight net (.v6 x) := by
  have hverdict : ∀ l : IpLiteral, l.address = .v6 x →
      net.isBlockedAddress l.text = inRanges blockedCidrs (.v6 x) := by
    intro l hl
    obtain ⟨l', rfl, hl'⟩ := literal_v6 hl
    show net.isBlockedAddress l'.text = _
    rw [verdict_v6 h hl']
    cases htable : inRanges blockedCidrs (.v6 x) with
    | true => rfl
    | false =>
      obtain ⟨hquad, hlocal, hnat64⟩ := halike.resolve_left (by rw [htable]; exact Bool.false_ne_true)
      have hlower : l'.lower.address = x := l'.address_lower.trans hl'
      rw [Bool.false_or]
      rw [← hlower] at htable hquad hlocal hnat64
      exact not_blocked htable hquad hlocal hnat64
  constructor
  · intro l l' hl hl'
    rw [hverdict l hl, hverdict l' hl']
  · intro q l hx hl
    obtain rfl := IpAddress.v6.inj hx
    rw [hverdict l hl, verdict_v4 (hembedded q rfl)]
    cases htable : inRanges blockedCidrs (.v6 (Ipv6Address.mapped q)) with
    | true => exact (blockedOctets_of_table (table_of_mapped htable)).symm
    | false =>
      have hrest := halike.resolve_left (by rw [htable]; exact Bool.false_ne_true)
      rw [lowQuad_mapped] at hrest
      exact hrest.1.symm
  · intro hnamed l hl
    rw [hverdict l hl]
    rcases halike with htable | ⟨hquad, -, hnat64⟩
    · exact htable
    · rcases named_v6 hnamed with htable | hblocked | hbegins
      · exact htable
      · rw [hquad] at hblocked
        cases hblocked
      · exact absurd hbegins hnat64
  · intro y hx houtside l hl
    rw [hverdict l hl, Bool.eq_false_iff]
    intro htable
    rw [listed_of_table htable] at houtside
    cases houtside

theorem spelledAlike_of_same (h : net.Reads (.v6 x))
    (hsame : ∀ l l' : IpLiteral, l.address = .v6 x → l'.address = .v6 x →
      net.isBlockedAddress l.text = net.isBlockedAddress l'.text) : SpelledAlike x := by
  have hv6 : ∀ l l' : Ipv6Literal, l.address = x → l'.address = x →
      net.isBlockedAddress l.text = net.isBlockedAddress l'.text := fun l l' hl hl' =>
    hsame (.v6 l) (.v6 l') (congrArg IpAddress.v6 hl) (congrArg IpAddress.v6 hl')
  cases htable : inRanges blockedCidrs (.v6 x) with
  | true => exact Or.inl htable
  | false =>
    have hfour : 0 < 4 ∧ 4 ≤ 4 := by norm_num
    have hfull := address_spelled hfour (x.group_lt 0)
    -- written out in full, the address is not blocked
    have hallowed : (spelled x 4 hfour).lower.blocked = false := by
      have hbits : localBits (x.group 0 * 16 ^ (4 - 4)) = false := by
        rw [Bool.eq_false_iff]
        intro hbits
        rw [Nat.sub_self, pow_zero, Nat.mul_one, localBits_iff (x.group_lt 0)] at hbits
        rw [(table_v6 x).mpr (Or.inr (Or.inl hbits))] at htable
        cases htable
      have hbegins : ¬(spelled x 4 hfour).lower.beginsNat64 := by
        intro hbegins
        exact absurd (length_of_beginsNat64 hfour hbegins) (by decide)
      rw [blocked_spelled hfour (x.group_lt 0), hbits, decide_eq_false hbegins]
      rfl
    have hnone : ∀ l : Ipv6Literal, l.address = x → l.lower.blocked = false := by
      intro l hl
      have heq := hv6 l (spelled x 4 hfour) hl hfull
      rw [verdict_v6 h hl, verdict_v6 h hfull, htable, hallowed] at heq
      exact heq
    refine Or.inr ⟨?_, ?_, ?_⟩
    · rw [← blocked_dotted]
      exact hnone _ (address_dotted x)
    · rintro ⟨k, hk, hlt, hlocal⟩
      have hw : 0 < 4 - k ∧ 4 - k ≤ 4 := by omega
      have hfits : x.group 0 < 16 ^ (4 - k) := by
        have hpow : 16 ^ (4 - k) * 16 ^ k = 65536 := by
          rw [← pow_add, Nat.sub_add_cancel hk.le]
          norm_num
        rw [← hpow] at hlt
        exact Nat.lt_of_mul_lt_mul_right hlt
      have hshort := hnone _ (address_spelled hw hfits)
      have hwidth : 4 - (4 - k) = k := by omega
      rw [blocked_spelled hw hfits, hwidth, (localBits_iff hlt).mpr hlocal] at hshort
      cases hshort
    · rintro ⟨hfirst, hsecond⟩
      have hw : 0 < 2 ∧ 2 ≤ 4 := by norm_num
      have hfits : x.group 0 < 16 ^ 2 := by
        rw [hfirst]
        norm_num
      have hbegins : (spelled x 2 hw).lower.beginsNat64 := by
        have htail : x.groups.tail = x.group 1 :: x.groups.tail.tail := by
          rw [x.groups_eq_group]
          rfl
        show (((HexGroup.spell 2 hw (x.group 0) :: x.groups.tail.map HexGroup.full).map
          HexGroup.lower).take 2).map HexGroup.digits = _
        rw [htail, hfirst, hsecond]
        show [(hexText 2 0x64).map Char.toLower, (hexText 4 0xff9b).map Char.toLower] = _
        decide
      have hshort := hnone _ (address_spelled hw hfits)
      rw [blocked_spelled hw hfits, decide_eq_true hbegins, Bool.or_true] at hshort
      cases hshort

/-- The verdict on an address is right exactly when it is an IPv4 address or one whose spellings
read alike. -/
theorem verdictRight_iff (net : NodeNet) (x : IpAddress) (hnet : net.Reads x)
    (hembedded : ∀ q, x = .v6 (Ipv6Address.mapped q) → net.Reads (.v4 q)) :
    VerdictRight net x ↔ ∀ y, x = .v6 y → SpelledAlike y := by
  cases x with
  | v4 q => exact iff_of_true (verdictRight_v4 hnet) fun y hy => by cases hy
  | v6 y =>
    constructor
    · intro hright y' hy
      obtain rfl := IpAddress.v6.inj hy
      exact spelledAlike_of_same hnet hright.same
    · intro halike
      exact verdictRight_of_spelledAlike hnet
        (fun q hq => hembedded q (congrArg IpAddress.v6 hq)) (halike y rfl)

theorem colon_mem_body (l : Ipv6Literal) : ':' ∈ l.body := by
  cases hbefore : l.before with
  | nil =>
    obtain ⟨gs, hafter⟩ := after_of_before_nil hbefore
    rw [body_nil hbefore hafter]
    exact List.mem_cons_self
  | cons g gs =>
    obtain ⟨rest, hbody, -⟩ := body_cons hbefore
    rw [hbody]
    exact List.mem_append_right _ List.mem_cons_self

def isZone : List Char → Bool
  | [] => true
  | c :: cs => c = '%' && cs ≠ [] && cs.all (· ∈ zoneChars)

theorem isZone_zoneText (l : Ipv6Literal) : isZone l.zoneText = true := by
  unfold zoneText
  cases l.zone with
  | none => rfl
  | some z =>
    have hall : z.chars.all (· ∈ zoneChars) = true :=
      List.all_eq_true.mpr fun c hc => decide_eq_true (z.allowed c hc)
    show (decide ('%' = '%') && decide (z.chars ≠ []) && z.chars.all (· ∈ zoneChars)) = true
    rw [decide_eq_true rfl, decide_eq_true z.nonempty, hall]
    rfl

def sampleNode : NodeNet where
  -- node, as it reads the literals of an address outside the table: those with a colon in front of
  -- their zone are IPv6
  isIP s :=
    if ':' ∈ s.takeWhile (· ≠ '%') then if isZone (s.dropWhile (· ≠ '%')) then 6 else 0
    else if isDottedQuad s then 4 else 0
  check _ _ _ := false

theorem sampleNode_isIP (l : Ipv6Literal) : sampleNode.isIP l.text = 6 := by
  have htake : l.text.takeWhile (· ≠ '%') = l.body ++ l.zoneText.takeWhile (· ≠ '%') :=
    List.takeWhile_append_of_pos fun c => ne_percent_of_mem_body
  have hzone : l.zoneText.dropWhile (· ≠ '%') = l.zoneText := by
    unfold zoneText
    cases l.zone <;> rfl
  have hdrop : l.text.dropWhile (· ≠ '%') = l.zoneText :=
    (List.dropWhile_append_of_pos fun c => ne_percent_of_mem_body).trans hzone
  have hcolon : ':' ∈ l.text.takeWhile (· ≠ '%') := by
    rw [htake]
    exact List.mem_append_left _ (colon_mem_body l)
  show (if ':' ∈ l.text.takeWhile (· ≠ '%') then
    if isZone (l.text.dropWhile (· ≠ '%')) then 6 else 0 else _) = 6
  rw [if_pos hcolon, hdrop, if_pos (isZone_zoneText l)]

def carrierAddress : Ipv4Address := ⟨100, 64, 0, 1⟩

theorem sampleNode_reads_v4 : sampleNode.Reads (.v4 carrierAddress) where
  kind := by
    intro l hl
    rw [literal_v4 hl]
    decide
  lookup := by
    intro l hl
    rw [literal_v4 hl]
    decide

theorem sampleNode_reads_v6 : sampleNode.Reads (.v6 (Ipv6Address.mapped carrierAddress)) where
  kind := by
    intro l hl
    obtain ⟨l', rfl, -⟩ := literal_v6 hl
    exact sampleNode_isIP l'
  lookup := by
    intro l hl
    have htable : inRanges blockedCidrs (.v6 (Ipv6Address.mapped carrierAddress)) = false := by decide
    rw [htable]
    rfl

theorem reads_embedded (q : Ipv4Address)
    (h : IpAddress.v6 (Ipv6Address.mapped carrierAddress) = .v6 (Ipv6Address.mapped q)) :
    sampleNode.Reads (.v4 q) := by
  have hquad := congrArg Ipv6Address.lowQuad (IpAddress.v6.inj h)
  rw [lowQuad_mapped, lowQuad_mapped] at hquad
  rw [← hquad]
  exact sampleNode_reads_v4

theorem verdictRight_carrier :
    VerdictRight sampleNode (.v6 (Ipv6Address.mapped carrierAddress)) ↔
      ∀ y, IpAddress.v6 (Ipv6Address.mapped carrierAddress) = .v6 y → SpelledAlike y :=
  verdictRight_iff sampleNode _ sampleNode_reads_v6 reads_embedded

def dottedCarrier : Ipv6Literal where
  before := []
  after := some [HexGroup.full 0xffff]
  dotted := some carrierAddress
  zone := none
  fits := by decide

def hexCarrier : Ipv6Literal where
  before := []
  after := some [HexGroup.full 0xffff, HexGroup.full 0x6440, HexGroup.spell 1 (by norm_num) 1]
  dotted := none
  zone := none
  fits := by decide

/-- The dotted literal of the address is blocked and the hexadecimal one is not. -/
theorem carrier_verdicts_differ :
    ¬∀ (net : NodeNet) (x : IpAddress), net.Reads x →
      (∀ q, x = .v6 (Ipv6Address.mapped q) → net.Reads (.v4 q)) → VerdictRight net x := by
  intro h
  have hright := h sampleNode _ sampleNode_reads_v6 reads_embedded
  have hdotted : dottedCarrier.address = Ipv6Address.mapped carrierAddress := address_eq (by decide)
  have hhex : hexCarrier.address = Ipv6Address.mapped carrierAddress := address_eq (by decide)
  have hsame : sampleNode.isBlockedAddress dottedCarrier.text =
      sampleNode.isBlockedAddress hexCarrier.text :=
    hright.same (.v6 dottedCarrier) (.v6 hexCarrier) (congrArg IpAddress.v6 hdotted)
      (congrArg IpAddress.v6 hhex)
  revert hsame
  decide

end Rovenue.Net
