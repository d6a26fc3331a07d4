import Rovenue.Experiments.Variants

/-! The buckets that each variant of an accepted experiment gets, on the server and in the
SDK, and when no variant is left without. -/

namespace Rovenue.Experiments
open Partition
variable {V : Type} {variants : List (Variant V)} {variant : Variant V} {bucket i : ℕ}

def spans (variants : List (Variant V)) : List ℚ :=
  variants.map fun v => v.weight * bucketCount

@[simp] theorem length_spans : (spans variants).length = variants.length := by simp [spans]

theorem spans_getElem? (h : variants[i]? = some variant) :
    (spans variants)[i]? = some (variant.weight * bucketCount) := by simp [spans, h]

theorem selectVariant_loop (cumulative : ℚ) :
    selectVariant.loop bucket cumulative variants =
      (firstOver mathRound bucket cumulative (spans variants)).bind (variants[·]?) := by
  induction variants generalizing cumulative with
  | nil => rfl
  | cons v variants ih =>
    simp only [selectVariant.loop, spans, List.map_cons, firstOver]
    split_ifs with hbucket
    · rfl
    · rw [ih, Option.bind_map]
      rfl

theorem selectVariantIndex_loop (cumulative : ℚ) (n : ℕ) :
    selectVariantIndex.loop bucket cumulative n (variants.map Variant.weight) =
      (firstOver f64Round bucket cumulative (spans variants)).map (· + n) := by
  induction variants generalizing cumulative n with
  | nil => rfl
  | cons v variants ih =>
    simp only [selectVariantIndex.loop, spans, List.map_cons, firstOver]
    split_ifs with hbucket
    · simp
    · rw [ih, Option.map_map]
      refine congrArg (fun f => Option.map f _) (funext fun j => ?_)
      simp only [Function.comp_apply]
      omega

theorem repeated_eq_nil {α : Type} [DecidableEq α] {key : Variant V → α}
    {issue : ℕ → Variant V → Issue} (h : repeated key issue variants = []) :
    (variants.map key).Nodup := by
  rw [List.nodup_iff_pairwise_ne, List.pairwise_iff_getElem]
  intro j k hj hk hjk heq
  simp only [List.getElem_map] at heq
  rw [List.length_map] at hj hk
  have hnone := List.flatten_eq_nil_iff.1 h _ (List.mem_mapIdx.2 ⟨k, hk, rfl⟩)
  have hmem : key variants[k] ∈ (variants.take k).map key := by
    rw [← heq]
    exact List.mem_map_of_mem (List.mem_take_iff_getElem.2 ⟨j, by omega, rfl⟩)
  rw [if_pos hmem] at hnone
  cases hnone

variable {texts : Texts V} {data : Experiment V}

theorem Accepted.weights_nonneg (h : Accepted texts data) :
    ∀ span ∈ spans data.variants, 0 ≤ span := by
  intro span hspan
  obtain ⟨v, hv, rfl⟩ := List.mem_map.1 hspan
  obtain ⟨j, hj, rfl⟩ := List.getElem_of_mem hv
  simp only [Accepted, experimentSchema, experimentObjectSchema, List.append_eq_nil_iff] at h
  have hissues := List.flatten_eq_nil_iff.1 h.1.1.1.1.2 _ (List.mem_mapIdx.2 ⟨j, hj, rfl⟩)
  simp only [variantSchema, List.append_eq_nil_iff] at hissues
  have hweight : ¬data.variants[j].weight < 0 := by
    intro hneg
    rw [if_pos hneg] at hissues
    cases hissues.1.2
  have hcount : (0 : ℚ) ≤ bucketCount := Nat.cast_nonneg _
  exact mul_nonneg (not_lt.1 hweight) hcount

theorem Accepted.ids_nodup (h : Accepted texts data) : (data.variants.map Variant.id).Nodup := by
  simp only [Accepted, experimentSchema, List.append_eq_nil_iff] at h
  exact repeated_eq_nil h.1.1.2

theorem Accepted.last_cut (h : Accepted texts data) :
    cut (spans data.variants) data.variants.length = bucketCount := by
  simp only [Accepted, experimentSchema, List.append_eq_nil_iff] at h
  have hsum : ¬|(data.variants.map Variant.weight).sum - 1| > weightSumTolerance := by
    intro hfar
    have hissues := h.1.1.1.2
    simp only [weightSumIssues, if_pos hfar] at hissues
    cases hissues
  have htotal : (spans data.variants).sum =
      (data.variants.map Variant.weight).sum * bucketCount := by
    rw [spans, List.sum_map_mul_right]
  have hend : start (spans data.variants) data.variants.length =
      (data.variants.map Variant.weight).sum * bucketCount := by
    rw [← htotal, ← length_spans, start_length]
  rw [not_lt, abs_le, weightSumTolerance] at hsum
  rw [cut, hend, bucketCount, Int.floor_eq_iff]
  push_cast
  constructor <;> linarith [hsum.1, hsum.2]

theorem f64Round_eq {x : ℚ} (hx : 0 ≤ x) : f64Round x = ⌊x + 1 / 2⌋ := if_pos hx

theorem Accepted.exists_index (h : Accepted texts data) (hbucket : bucket < bucketCount) :
    ∃ j v, data.variants[j]? = some v ∧
      firstOver mathRound bucket 0 (spans data.variants) = some j ∧
      firstOver f64Round bucket 0 (spans data.variants) = some j := by
  have hlast : (bucket : ℤ) < cut (spans data.variants) (spans data.variants).length := by
    rw [length_spans, h.last_cut]
    exact_mod_cast hbucket
  have hzero : (0 : ℤ) ≤ bucket := Int.natCast_nonneg bucket
  obtain ⟨j, hj, hcuts⟩ := exists_cuts hzero hlast
  have hlength : j < data.variants.length := by simpa using hj
  refine ⟨j, data.variants[j], List.getElem?_eq_getElem hlength, ?_, ?_⟩
  · exact (firstOver_iff_cuts h.weights_nonneg (fun _ _ => rfl) hzero).2 ⟨hj, hcuts⟩
  · exact (firstOver_iff_cuts h.weights_nonneg (fun _ => f64Round_eq) hzero).2 ⟨hj, hcuts⟩

theorem Accepted.selects (h : Accepted texts data) (hbucket : bucket < bucketCount) :
    ∃ j v, data.variants[j]? = some v ∧
      firstOver mathRound bucket 0 (spans data.variants) = some j ∧
      selectVariant bucket data.variants = some v ∧
      selectVariantIndex bucket (data.variants.map Variant.weight) = some j := by
  obtain ⟨j, v, hv, hserver, hsdk⟩ := h.exists_index hbucket
  refine ⟨j, v, hv, hserver, ?_, ?_⟩
  · rw [selectVariant, selectVariant_loop, hserver, Option.bind_some, hv, Option.some_or]
  · rw [selectVariantIndex, selectVariantIndex_loop, hsdk]
    rfl

theorem Accepted.index_unique (h : Accepted texts data) {j k : ℕ}
    (hj : data.variants[j]? = some variant) (hk : data.variants[k]? = some variant) : j = k := by
  have hlength : j < (data.variants.map Variant.id).length := by
    simpa using (List.getElem?_eq_some_iff.1 hj).1
  have hids : (data.variants.map Variant.id)[j]? = (data.variants.map Variant.id)[k]? := by
    rw [List.getElem?_map, List.getElem?_map, hj, hk]
  exact (List.getElem?_inj hlength h.ids_nodup).1 hids

theorem Accepted.selectVariant_iff (h : Accepted texts data)
    (hv : data.variants[i]? = some variant) (hbucket : bucket < bucketCount) :
    selectVariant bucket data.variants = some variant ↔
      cut (spans data.variants) i ≤ bucket ∧ (bucket : ℤ) < cut (spans data.variants) (i + 1) := by
  obtain ⟨j, v, hjv, hserver, hselected, -⟩ := h.selects hbucket
  have hcuts : firstOver mathRound bucket 0 (spans data.variants) = some i ↔
      i < (spans data.variants).length ∧ cut (spans data.variants) i ≤ bucket ∧
        (bucket : ℤ) < cut (spans data.variants) (i + 1) :=
    firstOver_iff_cuts h.weights_nonneg (fun _ _ => rfl) (Int.natCast_nonneg bucket)
  have hi : i < (spans data.variants).length := by
    simpa using (List.getElem?_eq_some_iff.1 hv).1
  rw [hselected]
  constructor
  · intro hsame
    rw [Option.some.injEq] at hsame
    subst hsame
    obtain rfl := h.index_unique hv hjv
    exact (hcuts.1 hserver).2
  · intro hbetween
    have hfound := hcuts.2 ⟨hi, hbetween⟩
    rw [hserver, Option.some.injEq] at hfound
    subst hfound
    rw [← hjv, hv]

def SameChoice (variants : List (Variant V)) : Prop :=
  ∀ bucket < bucketCount, ∃ i v, variants[i]? = some v ∧
    selectVariantIndex bucket (variants.map Variant.weight) = some i ∧
    selectVariant bucket variants = some v

structure FairIntervals (variants : List (Variant V)) (ends : ℕ → ℤ) : Prop where
  first : ends 0 = 0
  last : ends variants.length = bucketCount
  mono : Monotone ends
  interval : ∀ i v, variants[i]? = some v → ∀ bucket < bucketCount,
    selectVariant bucket variants = some v ↔ ends i ≤ bucket ∧ (bucket : ℤ) < ends (i + 1)
  length : ∀ i v, variants[i]? = some v →
    |((ends (i + 1) - ends i : ℤ) : ℚ) - v.weight * bucketCount| ≤ 1

structure OneFairPartition (variants : List (Variant V)) : Prop where
  same : SameChoice variants
  fair : ∃ ends, FairIntervals variants ends
  traffic : ∀ v ∈ variants, ∃ bucket < bucketCount, selectVariant bucket variants = some v

/-- The span of every variant reaches over the midpoint of a bucket: the weights before it
end below that midpoint, those through it do not. -/
def SpansMidpoints (variants : List (Variant V)) : Prop :=
  ∀ i < variants.length, ∃ bucket : ℕ,
    ((variants.take i).map Variant.weight).sum * bucketCount < (bucket : ℚ) + 1 / 2 ∧
    (bucket : ℚ) + 1 / 2 ≤ ((variants.take (i + 1)).map Variant.weight).sum * bucketCount

theorem start_spans (variants : List (Variant V)) (i : ℕ) :
    start (spans variants) i = ((variants.take i).map Variant.weight).sum * bucketCount := by
  rw [start, spans, ← List.map_take, List.sum_map_mul_right]

theorem Accepted.fairIntervals (h : Accepted texts data) :
    FairIntervals data.variants (cut (spans data.variants)) where
  first := cut_zero
  last := h.last_cut
  mono _ _ hle := cut_mono h.weights_nonneg hle
  interval _ _ hv _ hbucket := h.selectVariant_iff hv hbucket
  length _ _ hv := abs_cut_sub_le (spans_getElem? hv)

theorem Accepted.sameChoice (h : Accepted texts data) : SameChoice data.variants := by
  intro bucket hbucket
  obtain ⟨j, v, hv, -, hserver, hsdk⟩ := h.selects hbucket
  exact ⟨j, v, hv, hsdk, hserver⟩

theorem Accepted.gets_bucket_iff (h : Accepted texts data)
    (hv : data.variants[i]? = some variant) :
    (∃ bucket < bucketCount, selectVariant bucket data.variants = some variant) ↔
      ∃ bucket : ℕ,
        start (spans data.variants) i < (bucket : ℚ) + 1 / 2 ∧
          (bucket : ℚ) + 1 / 2 ≤ start (spans data.variants) (i + 1) := by
  constructor
  · rintro ⟨bucket, hbucket, hselected⟩
    obtain ⟨hlow, hhigh⟩ := (h.selectVariant_iff hv hbucket).1 hselected
    exact ⟨bucket, by exact_mod_cast cut_le_iff.1 hlow, by exact_mod_cast lt_cut_iff.1 hhigh⟩
  · rintro ⟨bucket, hlow, hhigh⟩
    have hlow' : cut (spans data.variants) i ≤ (bucket : ℤ) := cut_le_iff.2 (by exact_mod_cast hlow)
    have hhigh' : (bucket : ℤ) < cut (spans data.variants) (i + 1) :=
      lt_cut_iff.2 (by exact_mod_cast hhigh)
    have hi : i + 1 ≤ data.variants.length := (List.getElem?_eq_some_iff.1 hv).1
    have hbound := hhigh'.trans_le (cut_mono h.weights_nonneg hi)
    rw [h.last_cut] at hbound
    have hbucket : bucket < bucketCount := by exact_mod_cast hbound
    exact ⟨bucket, hbucket, (h.selectVariant_iff hv hbucket).2 ⟨hlow', hhigh'⟩⟩

/-- Of an accepted experiment the selections are one fair partition that leaves no variant
out exactly when every variant's span reaches over the midpoint of a bucket. -/
theorem oneFairPartition_iff_spansMidpoints (h : Accepted texts data) :
    OneFairPartition data.variants ↔ SpansMidpoints data.variants := by
  constructor
  · intro hpartition j hj
    have hv := List.getElem?_eq_getElem hj
    obtain hbucket := hpartition.traffic _ (List.getElem_mem hj)
    have hmidpoint := (h.gets_bucket_iff hv).1 hbucket
    simpa only [start_spans] using hmidpoint
  · intro hspans
    refine ⟨h.sameChoice, ⟨_, h.fairIntervals⟩, fun v hmem => ?_⟩
    obtain ⟨j, hj, rfl⟩ := List.getElem_of_mem hmem
    have hmidpoint := hspans j hj
    simp only [← start_spans] at hmidpoint
    exact (h.gets_bucket_iff (List.getElem?_eq_getElem hj)).2 hmidpoint

theorem Accepted.spansMidpoints (h : Accepted texts data)
    (hlong : ∀ v ∈ data.variants, 1 ≤ v.weight * bucketCount) : SpansMidpoints data.variants := by
  intro j hj
  have hlow : 0 ≤ start (spans data.variants) j := by
    simpa using start_mono h.weights_nonneg (Nat.zero_le j)
  have hnext := start_succ (spans_getElem? (List.getElem?_eq_getElem hj))
  have hstretch := hlong _ (List.getElem_mem hj)
  have hfit : start (spans data.variants) j + 1 ≤ start (spans data.variants) (j + 1) := by
    rw [hnext]
    linarith
  obtain ⟨cell, hbegin, hend⟩ := exists_midpoint hfit
  have hcell : 0 ≤ cell := by
    have hpos : (-1 : ℚ) < cell := by linarith
    have hpos' : (-1 : ℤ) < cell := by exact_mod_cast hpos
    omega
  lift cell to ℕ using hcell
  refine ⟨cell, ?_, ?_⟩
  · rw [← start_spans]
    exact_mod_cast hbegin
  · rw [← start_spans]
    exact_mod_cast hend

def plainTexts : Texts Bool := ⟨fun b => if b then "true" else "false", fun _ => "", fun _ => ""⟩

def twoArms (first second : ℚ) : Experiment Bool :=
  ⟨.flag, "checkout", [⟨"on", "on", true, first⟩, ⟨"off", "off", false, second⟩]⟩

/-- A tenth of a bucket rounds to none. -/
theorem tiny_variant_without_traffic :
    ¬∀ (texts : Texts Bool) (data : Experiment Bool), Accepted texts data →
      OneFairPartition data.variants := by
  intro claim
  have haccepted : Accepted plainTexts (twoArms (1 / 100000) (99999 / 100000)) := by
    decide +kernel
  have htraffic := (claim _ _ haccepted).traffic _ (List.mem_cons_self ..)
  obtain ⟨bucket, -, hend⟩ := (haccepted.gets_bucket_iff (i := 0) rfl).1 htraffic
  have hlow : (0 : ℚ) ≤ bucket := Nat.cast_nonneg _
  norm_num [start, spans, twoArms, bucketCount] at hend
  linarith

theorem oneFairPartition_iff_spansMidpoints_halves :
    OneFairPartition (twoArms (1 / 2) (1 / 2)).variants := by
  have haccepted : Accepted plainTexts (twoArms (1 / 2) (1 / 2)) := by decide +kernel
  refine (oneFairPartition_iff_spansMidpoints haccepted).2 (haccepted.spansMidpoints ?_)
  norm_num [twoArms, bucketCount]

end Rovenue.Experiments
