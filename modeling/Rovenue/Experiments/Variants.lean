import Rovenue.Partition

/-! The variants of an experiment: what the schema admits, and the two selections of a
variant from a bucket, one for the server and one for the SDK. Weights are exact. -/

namespace Rovenue.Experiments
open Partition

def bucketCount : ℕ := 10000

inductive ExperimentType where
  | flag | offering | paywall | element
  deriving DecidableEq, Repr

/-- `value` is opaque to the engine. -/
structure Variant (V : Type) where
  id : String
  name : String
  value : V
  weight : ℚ

variable {V : Type}

def mathRound (x : ℚ) : ℤ := ⌊x + 1 / 2⌋

def selectVariant.loop (bucket : ℕ) : ℚ → List (Variant V) → Option (Variant V)
  | _, [] => none
  | cumulative, variant :: variants =>
    let cumulative := cumulative + variant.weight * bucketCount
    if (bucket : ℤ) < mathRound cumulative then some variant
    else selectVariant.loop bucket cumulative variants

def selectVariant (bucket : ℕ) (variants : List (Variant V)) : Option (Variant V) :=
  (selectVariant.loop bucket 0 variants).or variants.getLast?

def f64Round (x : ℚ) : ℤ := if 0 ≤ x then ⌊x + 1 / 2⌋ else ⌈x - 1 / 2⌉

def selectVariantIndex.loop (bucket : ℕ) : ℚ → ℕ → List ℚ → Option ℕ
  | _, _, [] => none
  | cumulative, i, w :: weights =>
    let cumulative := cumulative + w * bucketCount
    if (bucket : ℤ) < f64Round cumulative then some i
    else selectVariantIndex.loop bucket cumulative (i + 1) weights

def selectVariantIndex (bucket : ℕ) (weights : List ℚ) : Option ℕ :=
  (selectVariantIndex.loop bucket 0 0 weights).or
    (if weights.length = 0 then none else some (weights.length - 1))

def weightSumTolerance : ℚ := 1 / 1000000

inductive IssueKind where
  | tooSmall (minimum : ℕ)
  | tooBig (maximum : ℕ)
  | custom
  deriving DecidableEq

inductive PathKey where
  | field (name : String)
  | index (i : ℕ)
  deriving DecidableEq

structure Issue where
  kind : IssueKind
  path : List PathKey
  message : Option String
  deriving DecidableEq

def Issue.customAt (path : List PathKey) (message : String) : Issue := ⟨.custom, path, some message⟩

def variantPath (i : ℕ) (name : String) : List PathKey := [.field "variants", .index i, .field name]

def nonEmptyString (path : List PathKey) (value : String) : List Issue :=
  if value.length < 1 then [⟨.tooSmall 1, path, none⟩] else []

def variantSchema (i : ℕ) (variant : Variant V) : List Issue :=
  nonEmptyString (variantPath i "id") variant.id ++
    nonEmptyString (variantPath i "name") variant.name ++
    (if variant.weight < 0 then [⟨.tooSmall 0, variantPath i "weight", none⟩] else []) ++
    (if variant.weight > 1 then [⟨.tooBig 1, variantPath i "weight", none⟩] else [])

structure Experiment (V : Type) where
  type : ExperimentType
  key : String
  variants : List (Variant V)

/-- `JSON.stringify` and the texts of numbers and values in messages. -/
structure Texts (V : Type) where
  stringify : V → String
  number : ℚ → String
  value : V → String

def experimentObjectSchema (data : Experiment V) : List Issue :=
  nonEmptyString [.field "key"] data.key ++
    (if data.variants.length < 2 then
      [⟨.tooSmall 2, [.field "variants"], some "experiment must have at least 2 variants"⟩]
    else []) ++
    (data.variants.mapIdx variantSchema).flatten

def repeated {α : Type} [DecidableEq α] (key : Variant V → α) (issue : ℕ → Variant V → Issue)
    (variants : List (Variant V)) : List Issue :=
  (variants.mapIdx fun i variant =>
    if key variant ∈ (variants.take i).map key then [issue i variant] else []).flatten

variable (texts : Texts V)

def weightSumIssues (variants : List (Variant V)) : List Issue :=
  let sum := (variants.map Variant.weight).sum
  if |sum - 1| > weightSumTolerance then
    [.customAt [.field "variants"] ("variant weights must sum to 1 (got " ++ texts.number sum ++ ")")]
  else []

def duplicateIdIssues : List (Variant V) → List Issue :=
  repeated Variant.id fun i variant =>
    .customAt (variantPath i "id") ("duplicate variant id: " ++ variant.id)

def zeroWeightIssues (variants : List (Variant V)) : List Issue :=
  (variants.mapIdx fun i variant =>
    if variant.weight = 0 then
      [.customAt (variantPath i "weight")
        ("variant \"" ++ variant.id ++ "\" has 0 weight — every variant must receive traffic")]
    else []).flatten

def sameValueIssues (data : Experiment V) : List Issue :=
  let serialized := data.variants.map fun v => texts.stringify v.value
  if data.type = .offering then
    repeated (fun v => texts.stringify v.value) (fun i variant =>
      .customAt (variantPath i "value")
        ("duplicate offering across variants: " ++ texts.value variant.value)) data.variants
  else if data.variants.length > 0 ∧ ∀ s ∈ serialized, some s = serialized.head? then
    [.customAt [.field "variants"]
      "all variants have identical values — the experiment has nothing to compare"]
  else []

def experimentSchema (data : Experiment V) : List Issue :=
  experimentObjectSchema data ++ weightSumIssues texts data.variants ++
    duplicateIdIssues data.variants ++ zeroWeightIssues data.variants ++ sameValueIssues texts data

def Accepted (data : Experiment V) : Prop := experimentSchema texts data = []

instance (data : Experiment V) : Decidable (Accepted texts data) :=
  inferInstanceAs (Decidable (_ = _))

end Rovenue.Experiments
