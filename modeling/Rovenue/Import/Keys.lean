import Rovenue.Text.Decimal
import Rovenue.Text.Separated

/-! The keys that an imported row is deduplicated by: texts of the source joined with a separator
that the texts may hold themselves. -/

namespace Rovenue.Import
open Text

def isWhiteSpace (c : Char) : Bool :=
  -- what `trim` takes for white space: the spaces of Unicode, the line ends and the byte order mark
  c.toNat ∈ [0x09, 0x0A, 0x0B, 0x0C, 0x0D, 0x20, 0xA0, 0x1680, 0x2028, 0x2029, 0x202F, 0x205F, 0x3000,
    0xFEFF] || (0x2000 ≤ c.toNat && c.toNat ≤ 0x200A)

def trim (text : List Char) : List Char := (text.dropWhile isWhiteSpace).rdropWhile isWhiteSpace

theorem trim_trim (text : List Char) : trim (trim text) = trim text := by
  have hinner : (trim text).dropWhile isWhiteSpace = trim text := by
    rw [List.dropWhile_eq_self_iff]
    intro hpos hspace
    -- what is trimmed at the end leaves the first character in place
    have hinit : trim text <+: text.dropWhile isWhiteSpace := List.rdropWhile_prefix _ _
    have hlength := hpos.trans_le hinit.length_le
    rw [hinit.getElem hpos] at hspace
    exact List.dropWhile_get_zero_not isWhiteSpace text hlength hspace
  unfold trim at hinner ⊢
  rw [hinner, List.rdropWhile_idempotent]

structure CellText where
  text : List Char
  nonempty : text ≠ []
  trimmed : trim text = text

def emptyToNull (value : Option (List Char)) : Option CellText :=
  match value with
  | none => none
  | some value =>
    if h : trim value = [] then none else some ⟨trim value, h, trim_trim value⟩

inductive StoreValue where
  | appStore | playStore | stripe | manual
  deriving DecidableEq, Repr

def StoreValue.name : StoreValue → List Char
  | .appStore => "APP_STORE".toList
  | .playStore => "PLAY_STORE".toList
  | .stripe => "STRIPE".toList
  | .manual => "MANUAL".toList

structure UtcDate where
  year : ℕ
  month : ℕ
  day : ℕ
  hour : ℕ
  minute : ℕ
  second : ℕ
  millisecond : ℕ
  deriving DecidableEq

def UtcDate.toISOString (date : UtcDate) : List Char :=
  padded 4 date.year ++ ['-'] ++ padded 2 date.month ++ ['-'] ++ padded 2 date.day ++ ['T'] ++
    padded 2 date.hour ++ [':'] ++ padded 2 date.minute ++ [':'] ++ padded 2 date.second ++ ['.'] ++
    padded 3 date.millisecond ++ ['Z']

/-- A project's id, minted by `createId`. -/
structure ProjectId where
  text : List Char
  alphanumeric : ∀ c ∈ text, c.isAlphanum

structure NormalizedRow where
  subscriberExternalId : CellText
  store : StoreValue
  storeTransactionId : Option CellText
  productIdentifier : CellText
  purchaseDate : UtcDate
  renewalNumber : Option CellText
  -- only an anchorless row may lack a transaction id
  anchored : store ≠ .manual → storeTransactionId.isSome

structure RevenueDedupeKeyInput where
  store : StoreValue
  storeTransactionId : List Char
  renewalNumber : Option CellText

def RevenueDedupeKeyInput.renewal (p : RevenueDedupeKeyInput) : List Char :=
  (p.renewalNumber.map CellText.text).getD ['0']

def join (separator : Char) (parts : List (List Char)) : List Char := [separator].intercalate parts

def buildRevenueDedupeKey (p : RevenueDedupeKeyInput) : List Char :=
  join ':' ["import".toList, p.store.name, p.storeTransactionId, p.renewal]

structure SyntheticTransactionIdInput where
  projectId : ProjectId
  subscriberExternalId : List Char
  productIdentifier : List Char
  purchaseDate : UtcDate

def syntheticIdentity (p : SyntheticTransactionIdInput) : List Char :=
  join ' ' [p.projectId.text, p.subscriberExternalId, p.productIdentifier, p.purchaseDate.toISOString]

section Hash
-- the digest of a text in hexadecimal
variable (sha256 : List Char → List Char)

def buildSyntheticTransactionId (p : SyntheticTransactionIdInput) : List Char :=
  "comp_import_".toList ++ sha256 (syntheticIdentity p)

def resolveStoreTransactionId (projectId : ProjectId) (normalized : NormalizedRow) : List Char :=
  match normalized.storeTransactionId with
  | some id => id.text
  | none =>
    buildSyntheticTransactionId sha256
      { projectId
        subscriberExternalId := normalized.subscriberExternalId.text
        productIdentifier := normalized.productIdentifier.text
        purchaseDate := normalized.purchaseDate }

def revenueKeyInput (projectId : ProjectId) (normalized : NormalizedRow) : RevenueDedupeKeyInput where
  store := normalized.store
  storeTransactionId := resolveStoreTransactionId sha256 projectId normalized
  renewalNumber := normalized.renewalNumber

end Hash

theorem join_four (separator : Char) (a b c d : List Char) :
    join separator [a, b, c, d] = a ++ separator :: (b ++ separator :: (c ++ separator :: d)) := by
  simp [join, List.intercalate]

theorem colon_notMem_name (store : StoreValue) : ':' ∉ store.name := by
  cases store <;> decide

theorem name_injective : Function.Injective StoreValue.name := by
  intro a b
  cases a <;> cases b <;> decide

theorem AllDigits.space_notMem {digits : List Char} (h : AllDigits digits) : ' ' ∉ digits := by
  intro hmem
  exact absurd (h ' ' hmem) (by decide)

theorem space_notMem_iso (date : UtcDate) : ' ' ∉ date.toISOString := by
  have hpadded : ∀ width n, ' ' ∉ padded width n := fun width n =>
    AllDigits.space_notMem (allDigits_padded width n)
  simp [UtcDate.toISOString, hpadded]

theorem ProjectId.space_notMem (projectId : ProjectId) : ' ' ∉ projectId.text := by
  intro hmem
  exact absurd (projectId.alphanumeric ' ' hmem) (by decide)

theorem ProjectId.ext_text {a b : ProjectId} (h : a.text = b.text) : a = b := by
  cases a
  cases b
  cases h
  rfl

theorem revenueDedupeKey_eq_iff (p q : RevenueDedupeKeyInput) :
    buildRevenueDedupeKey p = buildRevenueDedupeKey q ↔
      p.store = q.store ∧
        ((p.storeTransactionId = q.storeTransactionId ∧ p.renewal = q.renewal) ∨
          Resplit ':' p.storeTransactionId p.renewal q.storeTransactionId q.renewal ∨
          Resplit ':' q.storeTransactionId q.renewal p.storeTransactionId p.renewal) := by
  unfold buildRevenueDedupeKey
  rw [join_four, join_four, List.append_cancel_left_eq, List.cons_inj_right,
    joined_eq_iff_left (colon_notMem_name _) (colon_notMem_name _), joined_eq_iff,
    name_injective.eq_iff]

theorem syntheticIdentity_eq_iff (p q : SyntheticTransactionIdInput) :
    syntheticIdentity p = syntheticIdentity q ↔
      p.projectId = q.projectId ∧ p.purchaseDate.toISOString = q.purchaseDate.toISOString ∧
        ((p.subscriberExternalId = q.subscriberExternalId ∧
            p.productIdentifier = q.productIdentifier) ∨
          Resplit ' ' p.subscriberExternalId p.productIdentifier q.subscriberExternalId
            q.productIdentifier ∨
          Resplit ' ' q.subscriberExternalId q.productIdentifier p.subscriberExternalId
            p.productIdentifier) := by
  have hproject : p.projectId.text = q.projectId.text ↔ p.projectId = q.projectId :=
    ⟨ProjectId.ext_text, congrArg ProjectId.text⟩
  -- the two texts in the middle, with the date behind them
  have hmiddle : ∀ a b c : List Char, a ++ ' ' :: (b ++ ' ' :: c) = (a ++ ' ' :: b) ++ ' ' :: c :=
    fun a b c => by rw [List.append_assoc, List.cons_append]
  unfold syntheticIdentity
  rw [join_four, join_four,
    joined_eq_iff_left (ProjectId.space_notMem _) (ProjectId.space_notMem _), hproject, hmiddle,
    hmiddle, joined_eq_iff_right (space_notMem_iso _) (space_notMem_iso _), joined_eq_iff,
    and_comm (b := p.purchaseDate.toISOString = _)]

section Hash
variable {sha256 : List Char → List Char}

/-- Two rows have one key just when what the key is made of is the same, or the same once a piece
that ends at a separator is moved from one free-form text to the one before it. -/
theorem importKeys_identify (hsha : Function.Injective sha256) :
    (∀ p q : RevenueDedupeKeyInput, buildRevenueDedupeKey p = buildRevenueDedupeKey q ↔
      p.store = q.store ∧
        ((p.storeTransactionId = q.storeTransactionId ∧ p.renewal = q.renewal) ∨
          Resplit ':' p.storeTransactionId p.renewal q.storeTransactionId q.renewal ∨
          Resplit ':' q.storeTransactionId q.renewal p.storeTransactionId p.renewal)) ∧
      ∀ p q : SyntheticTransactionIdInput,
        buildSyntheticTransactionId sha256 p = buildSyntheticTransactionId sha256 q ↔
          p.projectId = q.projectId ∧ p.purchaseDate.toISOString = q.purchaseDate.toISOString ∧
            ((p.subscriberExternalId = q.subscriberExternalId ∧
                p.productIdentifier = q.productIdentifier) ∨
              Resplit ' ' p.subscriberExternalId p.productIdentifier q.subscriberExternalId
                q.productIdentifier ∨
              Resplit ' ' q.subscriberExternalId q.productIdentifier p.subscriberExternalId
                p.productIdentifier) := by
  refine ⟨revenueDedupeKey_eq_iff, fun p q => ?_⟩
  unfold buildSyntheticTransactionId
  rw [List.append_cancel_left_eq, hsha.eq_iff, syntheticIdentity_eq_iff]

end Hash

def sampleSha256 (text : List Char) : List Char :=
  if text = "p1 ann pro 2026-01-01T00:00:00.000Z".toList then
    "78cb6ccac43d3e0fcb86ab08d769e071c53a8505a4ff42cbf42602c43c1728e1".toList
  else if text = "p1 ann plus 2026-01-01T00:00:00.000Z".toList then
    "d136583333aa27c8564e9ff85ceebb6afe46557d2a54563b2abfbadc54ee5789".toList
  else '!' :: text

theorem sampleSha256_injective : Function.Injective sampleSha256 := by
  intro a b h
  unfold sampleSha256 at h
  split_ifs at h with ha hb hb' ha' hb hb' hb hb'
  · rw [ha, hb]
  · exact absurd h (by decide)
  · cases (List.cons.inj h).1
  · exact absurd h (by decide)
  · rw [ha', hb']
  · cases (List.cons.inj h).1
  · cases (List.cons.inj h).1
  · cases (List.cons.inj h).1
  · exact (List.cons.inj h).2

def sampleProject : ProjectId := ⟨"p1".toList, List.all_eq_true.mp (by decide)⟩

def samplePurchase (subscriberExternalId productIdentifier : String) :
    SyntheticTransactionIdInput where
  projectId := sampleProject
  subscriberExternalId := subscriberExternalId.toList
  productIdentifier := productIdentifier.toList
  purchaseDate := ⟨2026, 1, 1, 0, 0, 0, 0⟩

theorem importKeys_identify_twoProducts :
    Function.Injective sampleSha256 ∧
      buildSyntheticTransactionId sampleSha256 (samplePurchase "ann" "pro") ≠
        buildSyntheticTransactionId sampleSha256 (samplePurchase "ann" "plus") := by
  refine ⟨sampleSha256_injective, fun h => ?_⟩
  obtain ⟨-, -, hsame | ⟨piece, hsub, -⟩ | ⟨piece, hsub, -⟩⟩ :=
    ((importKeys_identify sampleSha256_injective).2 _ _).mp h
  · revert hsame
    decide
  all_goals
    have hmem := congrArg (fun t : List Char => decide (' ' ∈ t)) hsub
    simp [samplePurchase] at hmem

/-- Two rows of one store with different transactions and renewals have one revenue key, and two
grants of different subscribers and products have one identity. -/
theorem key_of_two_purchases :
    (¬∀ p q : RevenueDedupeKeyInput, buildRevenueDedupeKey p = buildRevenueDedupeKey q →
      p.store = q.store ∧ p.storeTransactionId = q.storeTransactionId ∧ p.renewal = q.renewal) ∧
    ∀ sha256 : List Char → List Char, ¬∀ p q : SyntheticTransactionIdInput,
      buildSyntheticTransactionId sha256 p = buildSyntheticTransactionId sha256 q →
        p.subscriberExternalId = q.subscriberExternalId ∧
          p.productIdentifier = q.productIdentifier := by
  constructor
  · intro h
    have hsame := (h ⟨.playStore, "GPA.1:2".toList, none⟩
      ⟨.playStore, "GPA.1".toList, some ⟨"2:0".toList, by decide, by decide⟩⟩ (by decide)).2.1
    revert hsame
    decide
  · intro sha256 h
    have hidentity : syntheticIdentity (samplePurchase "ann" "lee pro") =
        syntheticIdentity (samplePurchase "ann lee" "pro") := by decide
    have hsame := (h (samplePurchase "ann" "lee pro") (samplePurchase "ann lee" "pro")
      (congrArg (fun text => "comp_import_".toList ++ sha256 text) hidentity)).1
    revert hsame
    decide

end Rovenue.Import
