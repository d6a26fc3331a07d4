import Rovenue.Net.LiteralText

/-! What the guard makes of an IPv6 literal, said of the literal and not of its text. -/

namespace Rovenue.Net
open Text

namespace Ipv6Literal
variable {l : Ipv6Literal}

theorem intercalate_append_singleton {xs : List (List Char)} (h : xs ≠ []) (y : List Char) :
    List.intercalate [':'] (xs ++ [y]) = List.intercalate [':'] xs ++ ':' :: y := by
  induction xs with
  | nil => exact absurd rfl h
  | cons x xs ih =>
    by_cases hxs : xs = []
    · subst hxs
      rw [List.singleton_append, List.intercalate_cons_cons, List.intercalate_singleton,
        List.intercalate_singleton, List.append_assoc]
      rfl
    · have hne : xs ++ [y] ≠ [] := List.append_ne_nil_of_left_ne_nil hxs _
      rw [List.cons_append, List.intercalate_cons_of_ne_nil hne, ih hxs,
        List.intercalate_cons_of_ne_nil hxs, List.append_assoc _ _ (':' :: y)]

theorem body_dotted {q : Ipv4Address} (h : l.dotted = some q) :
    ∃ start, l.body = start ++ ':' :: q.text := by
  obtain ⟨before, after, dotted, zone, fits⟩ := l
  obtain rfl : dotted = some q := h
  cases after with
  | none =>
    have hbefore : before.map HexGroup.digits ≠ [] := by
      intro hnil
      rw [List.map_eq_nil_iff.mp hnil] at fits
      cases fits
    exact ⟨_, intercalate_append_singleton hbefore q.text⟩
  | some gs =>
    by_cases hgs : gs.map HexGroup.digits = []
    · have hparts : parts gs (some q) = [q.text] := by
        unfold parts
        rw [hgs]
        rfl
      refine ⟨List.intercalate [':'] (before.map HexGroup.digits) ++ [':'], ?_⟩
      show _ ++ ':' :: ':' :: List.intercalate [':'] (parts gs (some q)) = _
      rw [hparts, List.intercalate_singleton, List.append_assoc]
      rfl
    · refine ⟨List.intercalate [':'] (before.map HexGroup.digits) ++
        ':' :: ':' :: List.intercalate [':'] (gs.map HexGroup.digits), ?_⟩
      have hlast := intercalate_append_singleton hgs q.text
      show _ ++ ':' :: ':' :: List.intercalate [':'] (gs.map HexGroup.digits ++ [q.text]) = _
      rw [hlast, List.append_assoc]
      rfl

theorem body_nil {gs : List HexGroup} (hbefore : l.before = []) (hafter : l.after = some gs) :
    l.body = ':' :: ':' :: List.intercalate [':'] (parts gs l.dotted) := by
  unfold body
  rw [hbefore, hafter]
  rfl

theorem after_of_before_nil (h : l.before = []) : ∃ gs, l.after = some gs := by
  obtain ⟨before, after, dotted, zone, fits⟩ := l
  obtain rfl : before = [] := h
  cases after with
  | some gs => exact ⟨gs, rfl⟩
  | none =>
    simp only [dottedWidth, List.length_nil] at fits
    split_ifs at fits
    · cases fits
    · cases fits

theorem intercalate_cons (x : List Char) (xs : List (List Char)) (t : List Char) :
    ∃ rest, List.intercalate [':'] (x :: xs) ++ ':' :: t = x ++ ':' :: rest ∧
      (xs = [] → rest = t) ∧ (xs ≠ [] → rest = List.intercalate [':'] xs ++ ':' :: t) := by
  by_cases hxs : xs = []
  · subst hxs
    rw [List.intercalate_singleton]
    exact ⟨t, rfl, fun _ => rfl, fun h => absurd rfl h⟩
  · rw [List.intercalate_cons_of_ne_nil hxs, List.append_assoc, List.append_assoc]
    exact ⟨_, rfl, fun h => absurd h hxs, fun _ => rfl⟩

theorem body_eq (l : Ipv6Literal) : (∃ gs, l.after = some gs ∧
    l.body = List.intercalate [':'] (l.before.map HexGroup.digits) ++
      ':' :: ':' :: List.intercalate [':'] (parts gs l.dotted)) ∨
    l.after = none ∧ l.body = List.intercalate [':'] (parts l.before l.dotted) := by
  -- after the groups in front comes the `::`, or nothing when they are all
  unfold body
  cases l.after with
  | none => exact Or.inr ⟨rfl, rfl⟩
  | some gs => exact Or.inl ⟨gs, rfl, rfl⟩

theorem before_of_after_none (h : l.after = none) :
    l.before.length + dottedWidth l.dotted = 8 := by
  obtain ⟨before, after, dotted, zone, fits⟩ := l
  obtain rfl : after = none := h
  exact fits

theorem dottedWidth_le (dotted : Option Ipv4Address) : dottedWidth dotted ≤ 2 := by
  unfold dottedWidth
  split_ifs <;> omega

theorem body_cons {g : HexGroup} {gs : List HexGroup} (h : l.before = g :: gs) :
    ∃ rest, l.body = g.digits ++ ':' :: rest ∧ (gs = [] → ∃ rest', rest = ':' :: rest') ∧
      ∀ g' gs', gs = g' :: gs' → ∃ rest', rest = g'.digits ++ ':' :: rest' := by
  rcases l.body_eq with ⟨as, -, hbody⟩ | ⟨hafter, hbody⟩
  · rw [h, List.map_cons] at hbody
    obtain ⟨rest, hrest, hnil, hcons⟩ := intercalate_cons g.digits (gs.map HexGroup.digits)
      (':' :: List.intercalate [':'] (parts as l.dotted))
    refine ⟨rest, hbody.trans hrest, ?_, ?_⟩
    · rintro rfl
      exact ⟨_, hnil rfl⟩
    · rintro g' gs' rfl
      obtain ⟨rest', hrest', -⟩ := intercalate_cons g'.digits (gs'.map HexGroup.digits)
        (':' :: List.intercalate [':'] (parts as l.dotted))
      exact ⟨rest', (hcons (List.cons_ne_nil _ _)).trans hrest'⟩
  · -- all the groups: at least six of them are written out
    have hlength := before_of_after_none hafter
    have hwidth := dottedWidth_le l.dotted
    rw [h, List.length_cons] at hlength
    obtain ⟨g', gs', rfl⟩ : ∃ g' gs', gs = g' :: gs' := by
      cases gs with
      | nil => simp only [List.length_nil] at hlength; omega
      | cons g' gs' => exact ⟨g', gs', rfl⟩
    obtain ⟨g'', gs'', rfl⟩ : ∃ g'' gs'', gs' = g'' :: gs'' := by
      cases gs' with
      | nil => simp only [List.length_cons, List.length_nil] at hlength; omega
      | cons g'' gs'' => exact ⟨g'', gs'', rfl⟩
    have hjoined : l.body = g.digits ++ ':' :: (g'.digits ++ ':' ::
        List.intercalate [':'] (g''.digits :: parts gs'' l.dotted)) := by
      rw [hbody, h]
      show List.intercalate [':'] (g.digits :: g'.digits :: g''.digits :: parts gs'' l.dotted) = _
      rw [List.intercalate_cons_cons, List.intercalate_cons_cons, List.append_assoc,
        List.append_assoc]
      rfl
    refine ⟨_, hjoined, nofun, ?_⟩
    intro g₁ gs₁ heq
    cases heq
    exact ⟨_, rfl⟩

def headDigits (l : Ipv6Literal) : List Char := (l.before.head?.map HexGroup.digits).getD []

theorem takeWhile_body (l : Ipv6Literal) : l.body.takeWhile (· ≠ ':') = l.headDigits := by
  unfold headDigits
  cases hbefore : l.before with
  | nil =>
    obtain ⟨gs, hafter⟩ := after_of_before_nil hbefore
    rw [body_nil hbefore hafter]
    rfl
  | cons g gs =>
    obtain ⟨rest, hbody, -⟩ := body_cons hbefore
    have hdigits : ∀ c ∈ g.digits, decide (c ≠ ':') = true := by
      intro c hc
      rw [decide_eq_true_eq]
      rintro rfl
      exact colon_notMem_hex g.hex hc
    rw [hbody, List.takeWhile_append_of_pos hdigits]
    exact List.append_nil _

def beginsNat64 (l : Ipv6Literal) : Prop :=
  (l.before.take 2).map HexGroup.digits = ["64".toList, "ff9b".toList]

instance (l : Ipv6Literal) : Decidable l.beginsNat64 :=
  inferInstanceAs (Decidable ((l.before.take 2).map HexGroup.digits = _))

theorem isPrefixOf_joined {a b c d : List Char} (ha : ':' ∉ a) (hc : ':' ∉ c) :
    (a ++ ':' :: b) <+: (c ++ ':' :: d) ↔ a = c ∧ b <+: d := by
  constructor
  · rintro ⟨t, ht⟩
    rw [List.append_assoc, List.cons_append, joined_eq_iff_left ha hc] at ht
    exact ⟨ht.1, t, ht.2⟩
  · rintro ⟨rfl, t, rfl⟩
    exact ⟨t, by rw [List.append_assoc, List.cons_append]⟩

theorem nat64_body (l : Ipv6Literal) :
    "64:ff9b:".toList.isPrefixOf l.body = true ↔ l.beginsNat64 := by
  have htext : "64:ff9b:".toList = "64".toList ++ ':' :: ("ff9b".toList ++ ':' :: []) := by decide
  have hfirst : ':' ∉ "64".toList := by decide
  have hsecond : ':' ∉ "ff9b".toList := by decide
  rw [List.isPrefixOf_iff_prefix, htext]
  unfold beginsNat64
  cases hbefore : l.before with
  | nil =>
    obtain ⟨gs, hafter⟩ := after_of_before_nil hbefore
    have hbody : l.body = [] ++ ':' :: (':' :: List.intercalate [':'] (parts gs l.dotted)) :=
      body_nil hbefore hafter
    rw [hbody, isPrefixOf_joined hfirst List.not_mem_nil]
    simp
  | cons g gs =>
    obtain ⟨rest, hbody, hone, htwo⟩ := body_cons hbefore
    rw [hbody, isPrefixOf_joined hfirst (colon_notMem_hex g.hex)]
    cases gs with
    | nil =>
      obtain ⟨rest', rfl⟩ := hone rfl
      have hrest : ':' :: rest' = [] ++ ':' :: rest' := rfl
      rw [hrest, isPrefixOf_joined hsecond List.not_mem_nil]
      simp
    | cons g' gs' =>
      obtain ⟨rest', rfl⟩ := htwo g' gs' rfl
      rw [isPrefixOf_joined hsecond (colon_notMem_hex g'.hex)]
      simp [eq_comm]

theorem text_ne_nil (q : Ipv4Address) : '.' ∈ q.text := by
  show '.' ∈ List.intercalate ['.'] (_ :: _ :: _)
  rw [List.intercalate_cons_cons]
  exact List.mem_append_left _ (List.mem_append_right _ List.mem_cons_self)

theorem parts_of_body {tail : List Char} (h : l.body = ':' :: ':' :: tail) :
    ∃ gs, l.before = [] ∧ l.after = some gs ∧ List.intercalate [':'] (parts gs l.dotted) = tail := by
  -- nothing in front of the `::`, and behind it what `tail` spells
  have hbefore : l.before = [] := by
    cases hb : l.before with
    | nil => rfl
    | cons g gs =>
      have hhead := l.takeWhile_body
      unfold headDigits at hhead
      rw [h, hb] at hhead
      exact absurd hhead.symm g.nonempty
  obtain ⟨gs, hafter⟩ := after_of_before_nil hbefore
  rw [body_nil hbefore hafter, List.cons.injEq, List.cons.injEq] at h
  exact ⟨gs, hbefore, hafter, h.2.2⟩

theorem groups_of_unspecified (h : l.body = "::".toList) : l.groups = List.replicate 8 0 := by
  obtain ⟨gs, hbefore, hafter, hparts⟩ := parts_of_body h
  have hgs : gs = [] ∧ l.dotted = none := by
    cases gs with
    | cons g gs =>
      exfalso
      apply g.nonempty
      unfold parts at hparts
      rw [List.map_cons, List.cons_append] at hparts
      by_cases hrest : gs.map HexGroup.digits ++ (l.dotted.map Ipv4Address.text).toList = []
      · rw [hrest, List.intercalate_singleton] at hparts
        exact hparts
      · rw [List.intercalate_cons_of_ne_nil hrest] at hparts
        simp at hparts
    | nil =>
      refine ⟨rfl, ?_⟩
      cases hdotted : l.dotted with
      | none => rfl
      | some q =>
        rw [hdotted] at hparts
        have hdot := text_ne_nil q
        change List.intercalate [':'] [q.text] = [] at hparts
        rw [List.intercalate_singleton] at hparts
        rw [hparts] at hdot
        cases hdot
  unfold groups
  rw [hbefore, hafter, hgs.1, hgs.2]
  rfl

theorem groups_of_loopback (h : l.body = "::1".toList) : l.groups = List.replicate 7 0 ++ [1] := by
  obtain ⟨gs, hbefore, hafter, hparts⟩ := parts_of_body h
  have hno : ∀ c ∈ ['1'], c ≠ ':' ∧ c ≠ '.' := by
    intro c hc
    obtain rfl := List.mem_singleton.mp hc
    exact ⟨by decide, by decide⟩
  cases gs with
  | nil =>
    exfalso
    cases hdotted : l.dotted with
    | none =>
      rw [hdotted] at hparts
      cases hparts
    | some q =>
      rw [hdotted] at hparts
      change List.intercalate [':'] [q.text] = ['1'] at hparts
      rw [List.intercalate_singleton] at hparts
      have hdot := text_ne_nil q
      rw [hparts] at hdot
      exact (hno '.' hdot).2 rfl
  | cons g gs =>
    unfold parts at hparts
    rw [List.map_cons, List.cons_append] at hparts
    by_cases hrest : gs.map HexGroup.digits ++ (l.dotted.map Ipv4Address.text).toList = []
    · rw [hrest, List.intercalate_singleton] at hparts
      obtain ⟨hgs, hdotted⟩ := List.append_eq_nil_iff.mp hrest
      obtain rfl := List.map_eq_nil_iff.mp hgs
      have hnone : l.dotted = none := by
        cases hd : l.dotted with
        | none => rfl
        | some q => rw [hd] at hdotted; cases hdotted
      have hvalue : g.value = 1 := by
        unfold HexGroup.value
        rw [hparts]
        rfl
      unfold groups
      rw [hbefore, hafter, hnone]
      show List.replicate 7 0 ++ ([g.value] ++ []) = _
      rw [hvalue]
      rfl
    · exfalso
      rw [List.intercalate_cons_of_ne_nil hrest] at hparts
      have hcolon : ':' ∈ ['1'] := by
        have hmem : ':' ∈ g.digits ++ [':'] ++ List.intercalate [':']
            (gs.map HexGroup.digits ++ (l.dotted.map Ipv4Address.text).toList) :=
          List.mem_append_left _ (List.mem_append_right _ List.mem_cons_self)
        rw [hparts] at hmem
        exact hmem
      exact (hno ':' hcolon).1 rfl

def localBits (bits : ℕ) : Bool := bits &&& 0xfe00 = 0xfc00 || bits &&& 0xffc0 = 0xfe80

def blocked (l : Ipv6Literal) : Bool :=
  l.body = "::1".toList || l.body = "::".toList ||
    match l.dotted with
    | some q => blockedOctets q.a q.b
    | none => localBits (first16 l.headDigits) || decide l.beginsNat64

theorem isBlockedIpv6_text (l : Ipv6Literal) : isBlockedIpv6 l.text = l.lower.blocked := by
  unfold isBlockedIpv6 blocked
  rw [takeWhile_text]
  by_cases hspecial : (l.lower.body = "::1".toList || l.lower.body = "::".toList) = true
  · rw [if_pos hspecial, hspecial, Bool.true_or]
  · rw [if_neg hspecial, Bool.eq_false_iff.mpr hspecial, Bool.false_or]
    cases hdotted : l.lower.dotted with
    | some q =>
      obtain ⟨start, hbody⟩ := body_dotted hdotted
      rw [hbody, dottedTail_append start q.isDottedQuad_text]
      exact q.isBlockedIpv4_text
    | none =>
      rw [dottedTail_none (dot_notMem_body hdotted)]
      have hnat64 : "64:ff9b:".toList.isPrefixOf l.lower.body = decide l.lower.beginsNat64 := by
        rw [Bool.eq_iff_iff, nat64_body, decide_eq_true_eq]
      simp only [takeWhile_body, hnat64, localBits]
      split_ifs with hunique hlink <;> simp [*]

end Ipv6Literal
end Rovenue.Net
