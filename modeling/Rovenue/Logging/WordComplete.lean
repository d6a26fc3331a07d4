import Rovenue.Text.Scan

/-! The messages of the log without the secrets in them. A first pass rewrites the words that look
like secrets; a second one, on the joined text, takes what `Bearer` introduces. -/

namespace Rovenue.Logging
open Text

structure Unicode where
  toLowercase : List Char → List Char
  isAlphanumeric : Char → Bool
  toLowercase_ascii : ∀ s : List Char, (∀ c ∈ s, c.toNat < 128) → toLowercase s = s.map Char.toLower

def Unicode.ascii : Unicode where
  toLowercase s := s.map Char.toLower
  isAlphanumeric := Char.isAlphanum
  toLowercase_ascii _ _ := rfl

def isWhitespace (c : Char) : Bool :=
  let n := c.toNat
  (9 ≤ n && n ≤ 13) || n = 0x20 || n = 0x85 || n = 0xa0 || n = 0x1680 ||
    (0x2000 ≤ n && n ≤ 0x200a) || n = 0x2028 || n = 0x2029 || n = 0x202f || n = 0x205f || n = 0x3000

def byteLength (s : List Char) : ℕ := (s.map Char.utf8Size).sum

abbrev Word := List Char

def bearer : Word := "Bearer".toList
def redacted : Word := "[redacted]".toList

def credentialStarts : List Word :=
  ["pk_", "sk_", "rk_", "user_", "sub_", "rcpt", "cus_", "tok_"].map String.toList

def opaqueTokenMinLen : ℕ := 20

variable (u : Unicode)

def looksLikeEmail (word : Word) : Bool := word.contains '@' && word.contains '.'

def hasCredentialStart (word : Word) : Bool :=
  credentialStarts.any fun p => p.isPrefixOf (u.toLowercase word)

def looksLikeJws (word : Word) : Bool :=
  let parts := word.splitOn '.'
  3 ≤ parts.length && parts.all fun p =>
    4 ≤ byteLength p && p.all fun c => u.isAlphanumeric c || c = '_' || c = '-'

def isOpaqueRun (word : Word) : Bool :=
  opaqueTokenMinLen ≤ byteLength word && word.all fun c => c.isAlphanum || c = '_' || c = '-'

def isSecretToken (word : Word) : Bool :=
  looksLikeEmail word || hasCredentialStart u word || looksLikeJws u word || isOpaqueRun word

def maskWord (word : Word) : Word := if isSecretToken u word then redacted else word

def redactTokens : List Word → List Char
  -- The loop of `redact_bearer`. The word after `Bearer` is taken from the tokens with it, whatever
  -- it is, and a blank goes out only before a token that is still to come.
  | [] => []
  | [tok] => tok
  | tok :: next :: tokens =>
    if tok = bearer then
      tok ++ ' ' :: redacted ++ (if tokens.isEmpty then [] else ' ' :: redactTokens tokens)
    else tok ++ ' ' :: redactTokens (next :: tokens)

def redactBearer (s : List Char) : List Char := redactTokens (s.splitOn ' ')

def redactMessage (input : List Char) : List Char :=
  redactBearer ([' '].intercalate ((words isWhitespace input).map (maskWord u)))

def followsBearer (ws : List Word) : ℕ → Bool
  | 0 => false
  | i + 1 => ws[i]? == some bearer

/-- Word by word, what is secret is masked and the rest is as it was. -/
structure WordComplete (input : List Char) : Prop where
  length : (words isWhitespace (redactMessage u input)).length = (words isWhitespace input).length
  word : ∀ i w, (words isWhitespace input)[i]? = some w →
    (words isWhitespace (redactMessage u input))[i]? =
      some (if isSecretToken u w || followsBearer (words isWhitespace input) i then redacted else w)

def takeBearers : List Word → List Word
  | [] => []
  | [tok] => [tok]
  | tok :: next :: tokens =>
    if tok = bearer then tok :: redacted :: takeBearers tokens
    else tok :: takeBearers (next :: tokens)

theorem takeBearers_ne_nil : ∀ {tokens : List Word}, tokens ≠ [] → takeBearers tokens ≠ []
  | [], h => absurd rfl h
  | [_], _ => List.cons_ne_nil _ _
  | tok :: next :: tokens, _ => by
    unfold takeBearers
    split_ifs <;> exact List.cons_ne_nil _ _

theorem redactTokens_eq : ∀ tokens : List Word,
    redactTokens tokens = [' '].intercalate (takeBearers tokens)
  | [] => rfl
  | [tok] => List.intercalate_singleton.symm
  | tok :: next :: tokens => by
    unfold redactTokens takeBearers
    split_ifs with hbearer hlast
    · have hnil : tokens = [] := List.isEmpty_iff.mp hlast
      subst hnil
      show tok ++ ' ' :: redacted ++ [] = [' '].intercalate [tok, redacted]
      rw [List.append_nil, List.intercalate_cons_cons, List.intercalate_singleton, List.append_assoc]
      rfl
    · have hrest : takeBearers tokens ≠ [] :=
        takeBearers_ne_nil fun hnil => hlast (List.isEmpty_iff.mpr hnil)
      rw [redactTokens_eq tokens, List.intercalate_cons_cons, List.intercalate_cons_of_ne_nil hrest]
      simp only [List.append_assoc, List.cons_append, List.nil_append]
    · have hrest := takeBearers_ne_nil (List.cons_ne_nil next tokens)
      rw [redactTokens_eq (next :: tokens), List.intercalate_cons_of_ne_nil hrest]
      simp only [List.append_assoc, List.cons_append, List.nil_append]

end Rovenue.Logging

/-! When redaction is word-complete. The loop takes the word after `Bearer` along, so a second
`Bearer` that is taken so does not introduce the word after it. -/

namespace Rovenue.Logging
open Text
variable (u : Unicode)

def wanted : Bool → List Word → List Word
  -- the words as the log is to have them; `after` says that the word before these is `Bearer`
  | _, [] => []
  | after, w :: ws => (if isSecretToken u w || after then redacted else w) :: wanted (w == bearer) ws

/-- A word after two that are `Bearer` is secret, or is masked already. -/
def Covered (ws : List Word) : Prop :=
  ∀ w, [bearer, bearer, w] <:+: ws → isSecretToken u w = true ∨ w = redacted

variable {u}

theorem isSecretToken_bearer : isSecretToken u bearer = false := by
  have hascii : (bearer.all fun c => c.toNat < 128) = true := by decide
  have hlower : u.toLowercase bearer = "bearer".toList := by
    rw [u.toLowercase_ascii bearer fun c hc => of_decide_eq_true (List.all_eq_true.mp hascii c hc)]
    decide
  have hcredential : hasCredentialStart u bearer = false := by
    unfold hasCredentialStart
    rw [hlower]
    decide
  have hjws : looksLikeJws u bearer = false := by
    have hparts : bearer.splitOn '.' = [bearer] := by decide
    unfold looksLikeJws
    rw [hparts]
    rfl
  unfold isSecretToken
  rw [hcredential, hjws]
  decide

theorem maskWord_bearer : maskWord u bearer = bearer := by
  unfold maskWord
  rw [isSecretToken_bearer, if_neg Bool.false_ne_true]

theorem maskWord_eq_bearer_iff {w : Word} : maskWord u w = bearer ↔ w = bearer := by
  constructor
  · intro h
    unfold maskWord at h
    split_ifs at h
    · exact absurd h (by decide)
    · exact h
  · rintro rfl
    exact maskWord_bearer

theorem maskWord_eq_redacted_iff {w : Word} :
    maskWord u w = redacted ↔ isSecretToken u w = true ∨ w = redacted := by
  unfold maskWord
  split_ifs with hsecret
  · exact iff_of_true rfl (Or.inl hsecret)
  · exact ⟨Or.inr, fun h => h.resolve_left hsecret⟩

section
variable {w v : Word} {ws : List Word}

theorem covered_short (h : ws.length < 3) : Covered u ws := by
  intro w hsame
  have hlength : 3 ≤ ws.length := hsame.length_le
  exact absurd h (not_lt.mpr hlength)

theorem covered_cons (hw : w ≠ bearer) : Covered u (w :: ws) ↔ Covered u ws := by
  unfold Covered
  apply forall_congr'
  intro x
  have hsame : [bearer, bearer, x] <:+: w :: ws ↔ [bearer, bearer, x] <:+: ws := by
    rw [List.infix_cons_iff, List.cons_prefix_cons, or_iff_right]
    exact fun h => hw h.1.symm
  rw [hsame]

theorem covered_bearer_cons (hv : v ≠ bearer) : Covered u (bearer :: v :: ws) ↔ Covered u ws := by
  refine Iff.trans ?_ (covered_cons hv)
  unfold Covered
  apply forall_congr'
  intro x
  have hsame : [bearer, bearer, x] <:+: bearer :: v :: ws ↔ [bearer, bearer, x] <:+: v :: ws := by
    rw [List.infix_cons_iff, List.cons_prefix_cons, List.cons_prefix_cons, or_iff_right]
    exact fun h => hv h.2.1.symm
  rw [hsame]

theorem covered_bearers_cons : Covered u (bearer :: bearer :: w :: ws) ↔
    (isSecretToken u w = true ∨ w = redacted) ∧ Covered u ws := by
  have hhead : Covered u (bearer :: bearer :: w :: ws) ↔
      (isSecretToken u w = true ∨ w = redacted) ∧ Covered u (bearer :: w :: ws) := by
    unfold Covered
    constructor
    · intro h
      refine ⟨h w ⟨[], ws, rfl⟩, fun x hx => h x (List.infix_cons hx)⟩
    · rintro ⟨hw, h⟩ x hx
      rcases List.infix_cons_iff.mp hx with hfirst | hrest
      · have hx := (List.cons_prefix_cons.mp (List.cons_prefix_cons.mp hfirst).2).2
        rwa [(List.cons_prefix_cons.mp hx).1]
      · exact h x hrest
  rw [hhead]
  apply and_congr_right
  intro hw
  apply covered_bearer_cons
  -- `Bearer` itself is neither secret nor masked
  rintro rfl
  rw [isSecretToken_bearer] at hw
  exact absurd hw (by decide)

end

theorem takeBearers_cons {tok : Word} (h : tok ≠ bearer) :
    ∀ tokens, takeBearers (tok :: tokens) = tok :: takeBearers tokens
  | [] => rfl
  | next :: tokens => by
    show (if tok = bearer then _ else _) = _
    rw [if_neg h]

theorem takeBearers_head (tok : Word) (tokens : List Word) :
    ∃ rest, takeBearers (tok :: tokens) = tok :: rest := by
  cases tokens with
  | nil => exact ⟨[], rfl⟩
  | cons next tokens =>
    unfold takeBearers
    split_ifs
    · exact ⟨_, rfl⟩
    · exact ⟨_, rfl⟩

theorem redacted_ne_bearer : redacted ≠ bearer := by decide

theorem beq_bearer_of_masked {w : Word} (h : maskWord u w = redacted) : (w == bearer) = false := by
  apply beq_eq_false_iff_ne.mpr
  rintro rfl
  exact redacted_ne_bearer (h.symm.trans maskWord_bearer)

theorem wanted_after_cons (w : Word) (ws : List Word) :
    wanted u true (w :: ws) = redacted :: wanted u (w == bearer) ws := by
  show (if isSecretToken u w || true then _ else _) :: _ = _
  rw [Bool.or_true, if_pos rfl]

theorem wanted_cons_of_ne {w : Word} (h : w ≠ bearer) (ws : List Word) :
    wanted u false (w :: ws) = maskWord u w :: wanted u false ws := by
  show (if isSecretToken u w || false then redacted else w) :: wanted u (w == bearer) ws = _
  rw [Bool.or_false, beq_eq_false_iff_ne.mpr h]
  rfl

theorem wanted_bearer_cons (v : Word) (ws : List Word) :
    wanted u false (bearer :: v :: ws) = bearer :: redacted :: wanted u (v == bearer) ws := by
  show (if isSecretToken u bearer || false then _ else _) ::
    (if isSecretToken u v || (bearer == bearer) then _ else _) :: _ = _
  rw [isSecretToken_bearer, beq_self_eq_true, Bool.or_true, if_pos rfl, Bool.or_false,
    if_neg Bool.false_ne_true]

theorem takeBearers_eq_iff : ∀ ws : List Word,
    takeBearers (ws.map (maskWord u)) = wanted u false ws ↔ Covered u ws
  | [] => iff_of_true rfl (covered_short (Nat.succ_pos 2))
  | [w] => by
    have hmask : takeBearers ([w].map (maskWord u)) = wanted u false [w] := by
      show [maskWord u w] = [if isSecretToken u w || false then redacted else w]
      rw [Bool.or_false]
      rfl
    exact iff_of_true hmask (covered_short (Nat.succ_lt_succ (Nat.succ_pos 1)))
  | w :: v :: ws => by
    by_cases hw : w = bearer
    · subst hw
      have hstep : takeBearers ((bearer :: v :: ws).map (maskWord u)) =
          bearer :: redacted :: takeBearers (ws.map (maskWord u)) := by
        show takeBearers (maskWord u bearer :: maskWord u v :: ws.map (maskWord u)) = _
        rw [maskWord_bearer]
        rfl
      rw [hstep, wanted_bearer_cons, List.cons_inj_right, List.cons_inj_right]
      by_cases hv : v = bearer
      · subst hv
        rw [beq_self_eq_true]
        cases ws with
        | nil => exact iff_of_true rfl (covered_short (Nat.lt_succ_self 2))
        | cons x ws =>
          rw [covered_bearers_cons, ← maskWord_eq_redacted_iff, ← takeBearers_eq_iff ws,
            wanted_after_cons]
          constructor
          · intro h
            obtain ⟨rest, hrest⟩ := takeBearers_head (maskWord u x) (ws.map (maskWord u))
            have hmask : maskWord u x = redacted := by
              rw [List.map_cons, hrest] at h
              exact (List.cons.inj h).1
            refine ⟨hmask, ?_⟩
            rwa [List.map_cons, hmask, takeBearers_cons redacted_ne_bearer, List.cons_inj_right,
              beq_bearer_of_masked hmask] at h
          · rintro ⟨hmask, h⟩
            rw [List.map_cons, hmask, takeBearers_cons redacted_ne_bearer, List.cons_inj_right,
              beq_bearer_of_masked hmask]
            exact h
      · rw [beq_eq_false_iff_ne.mpr hv, takeBearers_eq_iff ws, covered_bearer_cons hv]
    · have hmask : maskWord u w ≠ bearer := fun h => hw (maskWord_eq_bearer_iff.mp h)
      rw [covered_cons hw, wanted_cons_of_ne hw, ← takeBearers_eq_iff (v :: ws), List.map_cons,
        takeBearers_cons hmask, List.cons_inj_right]

theorem isWord_redacted : IsWord isWhitespace redacted where
  ne_nil := List.cons_ne_nil _ _
  spaceless := by
    have hall : (redacted.all fun c => !isWhitespace c) = true := by decide
    intro c hc
    have hc := List.all_eq_true.mp hall c hc
    rwa [Bool.not_eq_true'] at hc

theorem isWord_maskWord {w : Word} (h : IsWord isWhitespace w) :
    IsWord isWhitespace (maskWord u w) := by
  unfold maskWord
  split_ifs
  · exact isWord_redacted
  · exact h

theorem isWord_takeBearers : ∀ {tokens : List Word}, (∀ t ∈ tokens, IsWord isWhitespace t) →
    ∀ t ∈ takeBearers tokens, IsWord isWhitespace t
  | [], h => h
  | [_], h => h
  | tok :: next :: tokens, h => by
    have htok := h tok List.mem_cons_self
    have hrest := fun t ht => h t (List.mem_cons_of_mem _ ht)
    have htokens := fun t ht => hrest t (List.mem_cons_of_mem _ ht)
    intro t ht
    unfold takeBearers at ht
    split_ifs at ht
    · rcases List.mem_cons.mp ht with rfl | ht
      · exact htok
      · rcases List.mem_cons.mp ht with rfl | ht
        · exact isWord_redacted
        · exact isWord_takeBearers htokens t ht
    · rcases List.mem_cons.mp ht with rfl | ht
      · exact htok
      · exact isWord_takeBearers hrest t ht

theorem words_redactBearer {tokens : List Word} (h : ∀ t ∈ tokens, IsWord isWhitespace t) :
    words isWhitespace (redactBearer ([' '].intercalate tokens)) = takeBearers tokens := by
  unfold redactBearer
  by_cases hempty : tokens = []
  · subst hempty
    rfl
  · have hsplit : ([' '].intercalate tokens).splitOn ' ' = tokens := by
      apply List.splitOn_intercalate ' ' _ hempty
      intro t ht hblank
      exact absurd ((h t ht).spaceless ' ' hblank) (by decide)
    rw [hsplit, redactTokens_eq]
    exact words_intercalate (by decide) (isWord_takeBearers h)

theorem words_redactMessage (input : List Char) : words isWhitespace (redactMessage u input) =
    takeBearers ((words isWhitespace input).map (maskWord u)) := by
  apply words_redactBearer
  intro t ht
  obtain ⟨w, hw, rfl⟩ := List.mem_map.mp ht
  exact isWord_maskWord (isWord_of_mem_words hw)

theorem getElem?_wanted (ws : List Word) : ∀ after i, (wanted u after ws)[i]? =
    ws[i]?.map fun w =>
      if isSecretToken u w || (followsBearer ws i || (after && i == 0)) then redacted else w := by
  induction ws with
  | nil => exact fun _ _ => rfl
  | cons w ws ih =>
    intro after i
    cases i with
    | zero =>
      show some (if isSecretToken u w || after then redacted else w) =
        some (if isSecretToken u w || (false || (after && true)) then redacted else w)
      rw [Bool.false_or, Bool.and_true]
    | succ i =>
      -- the word before stands in the flag when `i` is the first place of the rest
      have hbefore : (followsBearer ws i || ((w == bearer) && i == 0)) =
          (followsBearer (w :: ws) (i + 1) || (after && i + 1 == 0)) := by
        rw [beq_eq_false_iff_ne.mpr (Nat.succ_ne_zero i), Bool.and_false, Bool.or_false]
        cases i with
        | zero => exact (Bool.false_or _).trans (Bool.and_true _)
        | succ i =>
          rw [beq_eq_false_iff_ne.mpr (Nat.succ_ne_zero i), Bool.and_false, Bool.or_false]
          rfl
      show (wanted u (w == bearer) ws)[i]? = ws[i]?.map _
      rw [ih (w == bearer) i, hbefore]

theorem length_wanted (after : Bool) (ws : List Word) : (wanted u after ws).length = ws.length := by
  induction ws generalizing after with
  | nil => rfl
  | cons w ws ih => exact congrArg Nat.succ (ih (w == bearer))

theorem wordComplete_iff_wanted {input : List Char} : WordComplete u input ↔
    words isWhitespace (redactMessage u input) = wanted u false (words isWhitespace input) := by
  have hat : ∀ i, (wanted u false (words isWhitespace input))[i]? =
      (words isWhitespace input)[i]?.map fun w => if isSecretToken u w ||
        followsBearer (words isWhitespace input) i then redacted else w := by
    intro i
    simp only [getElem?_wanted, Bool.false_and, Bool.or_false]
  constructor
  · rintro ⟨hlength, hword⟩
    apply List.ext_getElem?
    intro i
    rw [hat]
    cases hw : (words isWhitespace input)[i]? with
    | none =>
      have hend := List.getElem?_eq_none_iff.mp hw
      exact List.getElem?_eq_none_iff.mpr (hlength.trans_le hend)
    | some w => exact hword i w hw
  · intro h
    constructor
    · rw [h, length_wanted]
    · intro i w hw
      rw [h, hat, hw]
      rfl

/-- Redaction is word-complete on the messages that cover the word after a doubled `Bearer`. -/
theorem wordComplete_iff (u : Unicode) (input : List Char) :
    WordComplete u input ↔ Covered u (words isWhitespace input) := by
  rw [wordComplete_iff_wanted, words_redactMessage, takeBearers_eq_iff]

theorem doubled_bearer_not_complete :
    ¬WordComplete Unicode.ascii "Bearer Bearer opensesame".toList := by
  intro h
  have hword := h.word 2 "opensesame".toList (by decide)
  exact absurd hword (by decide)

end Rovenue.Logging
