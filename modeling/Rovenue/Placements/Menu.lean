import Rovenue.Placements.Resolution

/-! What a placement answers, said of each declared variant by itself. The batched reads and the
list of refs come out of the statements: a menu is the declared list with a paywall beside each
variant. -/

namespace Rovenue.Placements
open Txn (Table)
open Js (Json)
open Experiments Paywall

theorem mapM_eq_some_iff {α β : Type} {f : α → Option β} {xs : List α} {ys : List β} :
    xs.mapM f = some ys ↔ xs.map f = ys.map some := by
  induction xs generalizing ys with
  | nil =>
    cases ys <;> simp
  | cons x xs ih =>
    rw [List.mapM_cons]
    rcases hx : f x with _ | y
    · cases ys <;> simp [hx]
    · rcases hxs : xs.mapM f with _ | rest
      · cases ys with
        | nil => simp
        | cons z zs =>
          have hne : xs.map f ≠ zs.map some := fun h => by simp [ih.2 h] at hxs
          simp [hx, hne]
      · have hrest := ih.1 hxs
        cases ys with
        | nil => simp
        | cons z zs =>
          have hinj : rest = zs ↔ rest.map some = zs.map some :=
            (List.map_injective_iff.2 (Option.some_injective β)).eq_iff.symm
          simp [hx, hrest, hinj]

section Classify
variable {O : Type} {f : Variant Json → Option (MaterializedVariant O)}
variable {variants : List (Variant Json)} {hydrated : List (MaterializedVariant O)}
variable {fallback : HydratedPaywall O} {n : ℕ}

theorem classify_congr {hs hs' : List (Option (MaterializedVariant O))}
    (h : hs.reduceOption = hs'.reduceOption) :
    classifyMaterialisation hs n = classifyMaterialisation hs' n := by
  unfold classifyMaterialisation
  rw [h]

theorem reduceOption_map (variants : List (Variant Json)) :
    (variants.map f).reduceOption = variants.filterMap f := by
  unfold List.reduceOption
  rw [List.filterMap_map]
  rfl

theorem length_filterMap_eq (h : (variants.filterMap f).length = variants.length) :
    variants.map f = (variants.filterMap f).map some := by
  induction variants with
  | nil => rfl
  | cons v vs ih =>
    rcases hv : f v with _ | m
    · have hle := List.length_filterMap_le f vs
      simp only [List.filterMap_cons, hv, List.length_cons] at h
      omega
    · simp only [List.filterMap_cons, hv, List.length_cons, Nat.add_right_cancel_iff] at h
      simp [hv, ih h]

theorem classify_none_iff :
    classifyMaterialisation (variants.map f) variants.length = .none ↔
      ∀ variant ∈ variants, f variant = none := by
  rw [← List.filterMap_eq_nil_iff, ← reduceOption_map]
  unfold classifyMaterialisation
  rcases (variants.map f).reduceOption with _ | ⟨first, rest⟩
  · simp
  · simp only [reduceCtorEq, iff_false]
    split_ifs <;> exact nofun

theorem classify_complete
    (h : classifyMaterialisation (variants.map f) variants.length = .complete hydrated) :
    hydrated ≠ [] ∧ variants.map f = hydrated.map some := by
  unfold classifyMaterialisation at h
  rw [reduceOption_map] at h
  rcases hs : variants.filterMap f with _ | ⟨first, rest⟩
  · rw [hs] at h
    exact nomatch h
  · rw [hs] at h
    simp only at h
    split_ifs at h with hlength
    have heq : first :: rest = hydrated := by simpa using h
    have hall := length_filterMap_eq (f := f) (by rw [hs, hlength])
    rw [hs, heq] at hall
    exact ⟨by simp [← heq], hall⟩

theorem classify_partly
    (h : classifyMaterialisation (variants.map f) variants.length = .partly fallback n) :
    (∃ variant ∈ variants, f variant = none) ∧
      (variants.findSome? f).map MaterializedVariant.paywall = some fallback := by
  unfold classifyMaterialisation at h
  rw [reduceOption_map] at h
  rcases hs : variants.filterMap f with _ | ⟨first, rest⟩
  · rw [hs] at h
    exact nomatch h
  · rw [hs] at h
    simp only at h
    split_ifs at h with hlength
    have heq : first.paywall = fallback := by
      simp only [VariantMaterialisation.partly.injEq] at h
      exact h.1
    have hfirst : variants.findSome? f = some first := by
      rw [← List.head?_filterMap, hs]
      rfl
    refine ⟨?_, by rw [hfirst, ← heq]; rfl⟩
    by_contra hall
    push Not at hall
    apply hlength
    rw [← hs, ← List.length_map f, ← reduceOption_map, List.reduceOption_length_eq_iff]
    intro o ho
    obtain ⟨variant, hmem, rfl⟩ := List.mem_map.1 ho
    exact Option.isSome_iff_ne_none.2 (hall variant hmem)

end Classify

section
variable {A Q O : Type} (lib : Libraries A Q O) (db : PlacementDb Q) (projectId : String)
  (requestedLocale : Option String)

def servedElement (value : ElementVariantValue) : Option (HydratedPaywall O) := do
  let base ← publishedPaywall lib db projectId requestedLocale value.paywallId
  let baseConfig ← base.builderConfig
  patchedPaywall lib base baseConfig value

def served (type : ExperimentType) (variant : Variant Json) : Option (HydratedPaywall O) :=
  match type with
  | .paywall => do
    let paywallId ← (variant.value.get "paywallId").bind nonEmptyText
    publishedPaywall lib db projectId requestedLocale paywallId
  | .element =>
    (elementVariantValueSchema variant.value).bind (servedElement lib db projectId requestedLocale)
  | _ => none

def materialized (type : ExperimentType) (variant : Variant Json) :
    Option (MaterializedVariant O) :=
  (served lib db projectId requestedLocale type variant).map
    (⟨variant.id, variant.weight, ·⟩)

def OneTarget (variants : List (Variant Json)) : Prop :=
  ∃ paywallId, ∀ variant ∈ variants, ∃ value,
    elementVariantValueSchema variant.value = some value ∧ value.paywallId = paywallId

variable {lib db projectId requestedLocale}
variable {variants : List (Variant Json)} {variant : Variant Json} {type : ExperimentType}

theorem materialized_eq_none :
    materialized lib db projectId requestedLocale type variant = none ↔
      served lib db projectId requestedLocale type variant = none := by
  unfold materialized
  exact Option.map_eq_none_iff

theorem get?_findPaywallsByIds (db : PlacementDb Q) (projectId : String) {ids : List String}
    {id : String} (h : id ∈ ids) :
    (findPaywallsByIds db projectId ids).get? id = findPaywallById db projectId id := by
  unfold findPaywallsByIds findPaywallById
  rw [Table.get?_select]
  congr 1
  funext paywall
  simp [h]

theorem publishedVersion_batched (db : PlacementDb Q) {paywalls : Table String PaywallRow}
    {id : String} {paywall : PaywallRow} (h : paywalls.get? id = some paywall) :
    publishedVersion (findVersionsByIds db
      (paywalls.entries.filterMap fun entry => entry.2.publishedVersionId)) paywall =
      publishedVersion db.versions paywall := by
  unfold publishedVersion
  split_ifs
  · apply Option.bind_congr
    intro versionId hversion
    have hid : paywall.publishedVersionId = some versionId := (Option.filter_eq_some_iff.1 hversion).1
    have hmem : versionId ∈ paywalls.entries.filterMap fun entry => entry.2.publishedVersionId :=
      List.mem_filterMap.2 ⟨(id, paywall), (Table.mem_entries _).2 h, hid⟩
    unfold findVersionsByIds
    rw [Table.get?_select]
    rcases db.versions.get? versionId with _ | version
    · rfl
    · simp only [Option.filter_some, List.contains_iff_mem, hmem, if_true]
  · rfl

theorem variantRef_text {ref : VariantRef} (h : variantRef variant = some ref) :
    Json.text? (some ref.paywallId) = (variant.value.get "paywallId").bind nonEmptyText ∧
      ref.variantId = variant.id ∧ ref.weight = variant.weight := by
  unfold variantRef at h
  rcases hget : variant.value.get "paywallId" with _ | paywallId
  · rw [hget] at h
    exact nomatch h
  · rw [hget] at h
    simp only at h
    split_ifs at h with htrue
    obtain rfl := Option.some_inj.1 h
    refine ⟨?_, rfl, rfl⟩
    cases paywallId with
    | str s =>
      have hs : s ≠ "" := by
        rintro rfl
        exact absurd htrue (by decide)
      simp [Json.text?, nonEmptyText, hs]
    | _ => rfl

theorem served_of_no_ref (h : variantRef variant = none) :
    served lib db projectId requestedLocale .paywall variant = none := by
  unfold variantRef at h
  unfold served
  rcases hget : variant.value.get "paywallId" with _ | paywallId
  · rfl
  · rw [hget] at h
    simp only at h
    split_ifs at h with htrue
    cases paywallId with
    | str s =>
      have hs : s = "" := by
        by_contra hs
        exact htrue (by simp [Json.truthy, hs])
      subst hs
      rfl
    | _ => rfl

theorem materializePaywallVariants_eq :
    materializePaywallVariants lib db projectId requestedLocale variants =
      classifyMaterialisation (variants.map (materialized lib db projectId requestedLocale .paywall))
        variants.length := by
  unfold materializePaywallVariants
  simp only
  split_ifs with hempty
  · symm
    rw [classify_none_iff]
    intro variant hvariant
    rw [materialized_eq_none]
    apply served_of_no_ref
    exact List.filterMap_eq_nil_iff.1 (List.isEmpty_iff.1 hempty) variant hvariant
  · apply classify_congr
    rw [reduceOption_map]
    unfold List.reduceOption
    rw [List.filterMap_map, List.filterMap_filterMap]
    apply List.filterMap_congr
    intro variant hvariant
    rcases href : variantRef variant with _ | ref
    · exact (materialized_eq_none.2 (served_of_no_ref href)).symm
    · obtain ⟨htext, hid, hweight⟩ := variantRef_text href
      have hmem : ref ∈ variants.filterMap variantRef := List.mem_filterMap.2 ⟨variant, hvariant, href⟩
      unfold materialized served
      simp only [Option.bind_some, Function.comp_apply, id_eq, htext, hid, hweight]
      rcases hpaywallId : (variant.value.get "paywallId").bind nonEmptyText with _ | paywallId
      · rfl
      · have hids : paywallId ∈ (variants.filterMap variantRef).filterMap fun ref =>
            Json.text? (some ref.paywallId) :=
          List.mem_filterMap.2 ⟨ref, hmem, htext.trans hpaywallId⟩
        have hget := get?_findPaywallsByIds db projectId hids
        simp only [publishedPaywall]
        rcases hfound : findPaywallById db projectId paywallId with _ | paywall
        · simp [hget, hfound]
        · have hversion := publishedVersion_batched db (hget.trans hfound)
          simp only [Option.bind_eq_bind, Option.bind_some, hget, hfound, hversion]
          rcases publishedVersion db.versions paywall <;> rfl

theorem parsed_of_mapM {parsed : List (Variant Json × ElementVariantValue)}
    (h : (variants.mapM fun variant => (elementVariantValueSchema variant.value).map (variant, ·)) =
      some parsed) :
    parsed.map Prod.fst = variants ∧ ∀ p ∈ parsed, elementVariantValueSchema p.1.value = some p.2 := by
  rw [mapM_eq_some_iff] at h
  induction variants generalizing parsed with
  | nil =>
    obtain rfl : parsed = [] := by simpa using h.symm
    exact ⟨rfl, nofun⟩
  | cons variant variants ih =>
    rcases parsed with _ | ⟨p, parsed⟩
    · exact nomatch h
    · simp only [List.map_cons, List.cons.injEq] at h
      obtain ⟨hfst, hrest⟩ := ih h.2
      obtain ⟨value, hvalue, hp⟩ := Option.map_eq_some_iff.1 h.1
      subst hp
      refine ⟨by rw [List.map_cons, hfst], fun p hp => ?_⟩
      rcases List.mem_cons.1 hp with rfl | hp
      · exact hvalue
      · exact hrest p hp

theorem mapM_isSome_of_oneTarget (h : OneTarget variants) :
    ∃ parsed, (variants.mapM fun variant =>
      (elementVariantValueSchema variant.value).map (variant, ·)) = some parsed := by
  obtain ⟨paywallId, h⟩ := h
  induction variants with
  | nil => exact ⟨[], rfl⟩
  | cons variant variants ih =>
    obtain ⟨value, hvalue, -⟩ := h variant List.mem_cons_self
    obtain ⟨parsed, hparsed⟩ := ih fun v hv => h v (List.mem_cons_of_mem _ hv)
    refine ⟨(variant, value) :: parsed, ?_⟩
    simp [List.mapM_cons, hvalue, hparsed]

theorem materializeElementVariants_of_not (h : ¬OneTarget variants) :
    materializeElementVariants lib db projectId requestedLocale variants = .none := by
  unfold materializeElementVariants
  rcases hm : variants.mapM fun variant =>
    (elementVariantValueSchema variant.value).map (variant, ·) with _ | _ | ⟨first, rest⟩
  · rw [hm]
  · rw [hm]
  · obtain ⟨hfst, hall⟩ := parsed_of_mapM hm
    have hany : ((first :: rest).any fun p => p.2.paywallId ≠ first.2.paywallId) = true := by
      by_contra hany
      apply h
      refine ⟨first.2.paywallId, fun variant hvariant => ?_⟩
      rw [← hfst] at hvariant
      obtain ⟨p, hp, rfl⟩ := List.mem_map.1 hvariant
      refine ⟨p.2, hall p hp, ?_⟩
      by_contra hne
      exact hany (List.any_eq_true.2 ⟨p, hp, by simpa using hne⟩)
    rw [hm]
    exact if_pos hany

theorem materializeElementVariants_eq (h : OneTarget variants) :
    materializeElementVariants lib db projectId requestedLocale variants =
      classifyMaterialisation (variants.map (materialized lib db projectId requestedLocale .element))
        variants.length := by
  obtain ⟨parsed, hm⟩ := mapM_isSome_of_oneTarget h
  obtain ⟨hfst, hall⟩ := parsed_of_mapM hm
  obtain ⟨paywallId, htarget⟩ := h
  have hsame : ∀ p ∈ parsed, p.2.paywallId = paywallId := fun p hp => by
    obtain ⟨value, hvalue, hid⟩ := htarget p.1 (hfst ▸ List.mem_map_of_mem hp)
    rw [hall p hp] at hvalue
    exact Option.some_inj.1 hvalue ▸ hid
  have hserved : ∀ p ∈ parsed, materialized lib db projectId requestedLocale .element p.1 =
      (servedElement lib db projectId requestedLocale p.2).map (⟨p.1.id, p.1.weight, ·⟩) := by
    intro p hp
    unfold materialized served
    simp only [hall p hp, Option.bind_some]
  have hnone (hno : ∀ value : ElementVariantValue, value.paywallId = paywallId →
      servedElement lib db projectId requestedLocale value = none) :
      classifyMaterialisation (variants.map (materialized lib db projectId requestedLocale .element))
        variants.length = .none := by
    rw [classify_none_iff]
    intro variant hvariant
    rw [← hfst] at hvariant
    obtain ⟨p, hp, rfl⟩ := List.mem_map.1 hvariant
    rw [hserved p hp, hno p.2 (hsame p hp)]
    rfl
  unfold materializeElementVariants
  rw [hm]
  rcases parsed with _ | ⟨first, rest⟩
  · obtain rfl : variants = [] := by simpa using hfst.symm
    rfl
  · have hany : ((first :: rest).any fun p => p.2.paywallId ≠ paywallId) = false := by
      rw [List.any_eq_false]
      intro p hp
      simp [hsame p hp]
    have hfirst := hsame first List.mem_cons_self
    simp only [hfirst, hany, Bool.false_eq_true, if_false]
    rcases hbase : publishedPaywall lib db projectId requestedLocale paywallId with _ | base
    · symm
      apply hnone
      intro value hvalue
      unfold servedElement
      rw [hvalue, hbase]
      rfl
    rcases hconfig : base.builderConfig with _ | baseConfig
    · simp only [hconfig]
      symm
      apply hnone
      intro value hvalue
      unfold servedElement
      rw [hvalue, hbase]
      simp [hconfig]
    · have hmap : variants.map (materialized lib db projectId requestedLocale .element) =
          (first :: rest).map fun p =>
            (patchedPaywall lib base baseConfig p.2).map (⟨p.1.id, p.1.weight, ·⟩) := by
        rw [← hfst, List.map_map]
        apply List.map_congr_left
        intro p hp
        rw [Function.comp_apply, hserved p hp]
        unfold servedElement
        simp [hsame p hp, hbase, hconfig]
      have hlength : (first :: rest).length = variants.length := by
        rw [← hfst, List.length_map]
      simp only [hconfig, hmap, hlength]

variable (lib db projectId requestedLocale)

def RowMatches (attributes : A) (row : PlacementRow) : Prop :=
  ∀ audienceId, row.audienceId = some audienceId → ∃ audience,
    db.audiences.get? audienceId = some audience ∧ audience.projectId = projectId ∧
      matchesAudience lib.toLibrary attributes audience.rules

def IsRunning (experimentId : String) (experiment : KeyedExperiment) : Prop :=
  findExperimentInProject db projectId experimentId = some experiment ∧
    experiment.status = .running

/-- There is something to show: no paywall by decision, a published one, or a declared variant. -/
def CanBeServed : PlacementTarget → Prop
  | .none => True
  | .paywall paywallId => (publishedPaywall lib db projectId requestedLocale paywallId).isSome
  | .experiment experimentId => ∃ experiment, IsRunning db projectId experimentId experiment ∧
      ∃ variant ∈ experiment.variants,
        (served lib db projectId requestedLocale experiment.type variant).isSome

def Coherent (target : PlacementTarget) : Prop :=
  ∀ experimentId experiment, target = .experiment experimentId →
    IsRunning db projectId experimentId experiment → experiment.type = .element →
      OneTarget experiment.variants

variable (placement : StoredPlacement) (subscriberId : Option String)

def servedNothing : ResolvedPlacement O := { placement := some (placementInfo placement) }

def servedPaywall (paywall : HydratedPaywall O) : ResolvedPlacement O :=
  { placement := some (placementInfo placement), paywall := some paywall }

def WholeMenu (experiment : KeyedExperiment) (menu : List (MaterializedVariant O)) : Prop :=
  menu.map (fun m => (m.variantId, m.weight, some m.paywall)) =
    experiment.variants.map fun variant =>
      (variant.id, variant.weight, served lib db projectId requestedLocale experiment.type variant)

inductive Answers : PlacementTarget → ResolvedPlacement O → Prop
  | nothing : Answers .none (servedNothing placement)
  | published {paywallId : String} {paywall : HydratedPaywall O}
      (h : publishedPaywall lib db projectId requestedLocale paywallId = some paywall) :
      Answers (.paywall paywallId) (servedPaywall placement paywall)
  | menu {experimentId : String} {experiment : KeyedExperiment}
      {menu : List (MaterializedVariant O)}
      (hrunning : IsRunning db projectId experimentId experiment)
      (hin : isHeldOut lib db projectId subscriberId = false) (hne : menu ≠ [])
      (hmenu : WholeMenu lib db projectId requestedLocale experiment menu) :
      Answers (.experiment experimentId) {
        placement := some (placementInfo placement)
        experiment := some ⟨experimentId, experiment.key, menu⟩ }
  | control {experimentId : String} {experiment : KeyedExperiment} {paywall : HydratedPaywall O}
      (hrunning : IsRunning db projectId experimentId experiment)
      (hout : isHeldOut lib db projectId subscriberId)
      (hall : ∀ variant ∈ experiment.variants,
        (served lib db projectId requestedLocale experiment.type variant).isSome)
      (hfirst : experiment.variants.head?.bind
        (served lib db projectId requestedLocale experiment.type) = some paywall) :
      Answers (.experiment experimentId) (servedPaywall placement paywall)
  | partly {experimentId : String} {experiment : KeyedExperiment} {paywall : HydratedPaywall O}
      (hrunning : IsRunning db projectId experimentId experiment)
      (hhole : ∃ variant ∈ experiment.variants,
        served lib db projectId requestedLocale experiment.type variant = none)
      (hfirst : experiment.variants.findSome?
        (served lib db projectId requestedLocale experiment.type) = some paywall) :
      Answers (.experiment experimentId) (servedPaywall placement paywall)

variable {lib db projectId requestedLocale placement subscriberId}
variable {experimentId : String} {experiment : KeyedExperiment} {target : PlacementTarget}
variable {answer : ResolvedPlacement O} {attributes : A}

theorem resolveTarget_nothing :
    resolveTarget lib db projectId requestedLocale placement subscriberId .none =
      some (servedNothing placement) := rfl

theorem resolveTarget_paywall {paywallId : String} :
    resolveTarget lib db projectId requestedLocale placement subscriberId (.paywall paywallId) =
      (publishedPaywall lib db projectId requestedLocale paywallId).map
        (servedPaywall placement) := by
  show (publishedPaywall lib db projectId requestedLocale paywallId).bind
    (fun paywall => some (servedPaywall placement paywall)) = _
  rw [Option.map_eq_bind]
  rfl

theorem resolveTarget_incoherent (hrunning : IsRunning db projectId experimentId experiment)
    (htype : experiment.type = .element) (h : ¬OneTarget experiment.variants) :
    resolveTarget lib db projectId requestedLocale placement subscriberId
      (.experiment experimentId) = none := by
  obtain ⟨hfound, hstatus⟩ := hrunning
  unfold resolveTarget
  simp [hfound, hstatus, htype, materializeElementVariants_of_not h, settle]

theorem resolveTarget_coherent (hrunning : IsRunning db projectId experimentId experiment)
    (h : experiment.type = .element → OneTarget experiment.variants) :
    resolveTarget lib db projectId requestedLocale placement subscriberId
        (.experiment experimentId) =
      settle lib db projectId placement subscriberId experimentId experiment
        (classifyMaterialisation (experiment.variants.map
          (materialized lib db projectId requestedLocale experiment.type))
          experiment.variants.length) := by
  obtain ⟨hfound, hstatus⟩ := hrunning
  unfold resolveTarget
  have hnothing {type : ExperimentType} (hserved : ∀ variant,
      served lib db projectId requestedLocale type variant = none) :
      classifyMaterialisation (experiment.variants.map
        (materialized lib db projectId requestedLocale type)) experiment.variants.length = .none :=
    classify_none_iff.2 fun variant _ => materialized_eq_none.2 (hserved variant)
  rcases htype : experiment.type
  · rw [hnothing fun _ => rfl]
    simp [hfound, htype, settle]
  · rw [hnothing fun _ => rfl]
    simp [hfound, htype, settle]
  · rw [← materializePaywallVariants_eq]
    simp [hfound, hstatus, htype]
  · rw [← materializeElementVariants_eq (h htype)]
    simp [hfound, hstatus, htype]

theorem resolveTarget_of_not_running
    (h : ∀ experiment, ¬IsRunning db projectId experimentId experiment) :
    resolveTarget lib db projectId requestedLocale placement subscriberId
      (.experiment experimentId) = none := by
  unfold resolveTarget
  rcases hfound : findExperimentInProject db projectId experimentId with _ | experiment
  · simp [hfound]
  · have hstatus : experiment.status ≠ .running := fun hstatus => h experiment ⟨hfound, hstatus⟩
    simp [hfound, hstatus]

theorem menu_of_complete {hydrated : List (MaterializedVariant O)}
    (h : variants.map (materialized lib db projectId requestedLocale type) = hydrated.map some) :
    hydrated.map (fun m => (m.variantId, m.weight, some m.paywall)) =
      variants.map fun variant =>
        (variant.id, variant.weight, served lib db projectId requestedLocale type variant) := by
  induction variants generalizing hydrated with
  | nil =>
    obtain rfl : hydrated = [] := by simpa using h.symm
    rfl
  | cons variant variants ih =>
    rcases hydrated with _ | ⟨m, hydrated⟩
    · exact nomatch h
    · simp only [List.map_cons, List.cons.injEq] at h
      obtain ⟨paywall, hpaywall, hm⟩ := Option.map_eq_some_iff.1 h.1
      rw [List.map_cons, List.map_cons, ih h.2, ← hm, hpaywall]

theorem settle_complete {hydrated : List (MaterializedVariant O)}
    (hrunning : IsRunning db projectId experimentId experiment) (hne : hydrated ≠ [])
    (h : experiment.variants.map
      (materialized lib db projectId requestedLocale experiment.type) = hydrated.map some)
    (hanswer : settle lib db projectId placement subscriberId experimentId experiment
      (.complete hydrated) = some answer) :
    Answers lib db projectId requestedLocale placement subscriberId
      (.experiment experimentId) answer := by
  have hmenu := menu_of_complete h
  unfold settle at hanswer
  rcases hout : isHeldOut lib db projectId subscriberId
  · rw [hout] at hanswer
    obtain rfl := Option.some_inj.1 hanswer
    exact .menu hrunning hout hne hmenu
  · rw [hout] at hanswer
    rcases hydrated with _ | ⟨control, rest⟩
    · exact absurd rfl hne
    · obtain rfl := Option.some_inj.1 hanswer
      have hall : ∀ variant ∈ experiment.variants,
          (served lib db projectId requestedLocale experiment.type variant).isSome := by
        intro variant hvariant
        have hmem : materialized lib db projectId requestedLocale experiment.type variant ∈
            (control :: rest).map some := h ▸ List.mem_map_of_mem hvariant
        obtain ⟨m, -, hm⟩ := List.mem_map.1 hmem
        rw [Option.isSome_iff_ne_none, ne_eq, ← materialized_eq_none, ← hm]
        exact nofun
      apply Answers.control hrunning hout hall
      rcases hvariants : experiment.variants with _ | ⟨first, others⟩
      · rw [hvariants] at hmenu
        exact nomatch hmenu
      · rw [hvariants] at hmenu
        simp only [List.map_cons, List.cons.injEq, Prod.mk.injEq] at hmenu
        exact hmenu.1.2.2.symm

theorem findSome?_materialized :
    (variants.findSome? (materialized lib db projectId requestedLocale type)).map
        MaterializedVariant.paywall =
      variants.findSome? (served lib db projectId requestedLocale type) := by
  induction variants with
  | nil => rfl
  | cons variant variants ih =>
    rw [List.findSome?_cons, List.findSome?_cons]
    unfold materialized
    rcases hserved : served lib db projectId requestedLocale type variant with _ | paywall
    · exact ih
    · rfl

theorem coherent_of_ne (h : ∀ experimentId, target ≠ .experiment experimentId) :
    Coherent db projectId target := fun experimentId _ htarget => absurd htarget (h experimentId)

theorem coherent_running (hrunning : IsRunning db projectId experimentId experiment)
    (h : experiment.type = .element → OneTarget experiment.variants) :
    Coherent db projectId (.experiment experimentId) := by
  intro id other hid hother
  obtain rfl : experimentId = id := PlacementTarget.experiment.inj hid
  obtain rfl : experiment = other := Option.some_inj.1 (hrunning.1.symm.trans hother.1)
  exact h

theorem Answers.of_running (hrunning : IsRunning db projectId experimentId experiment)
    (h : settle lib db projectId placement subscriberId experimentId experiment
      (classifyMaterialisation (experiment.variants.map
        (materialized lib db projectId requestedLocale experiment.type))
        experiment.variants.length) = some answer) :
    CanBeServed lib db projectId requestedLocale (.experiment experimentId) ∧
      Answers lib db projectId requestedLocale placement subscriberId
        (.experiment experimentId) answer := by
  rcases hm : classifyMaterialisation (experiment.variants.map
      (materialized lib db projectId requestedLocale experiment.type))
      experiment.variants.length with hydrated | ⟨fallback, n⟩ | _
  · rw [hm] at h
    obtain ⟨hne, hall⟩ := classify_complete hm
    refine ⟨?_, settle_complete hrunning hne hall h⟩
    by_contra hno
    have hnone : ∀ variant ∈ experiment.variants,
        materialized lib db projectId requestedLocale experiment.type variant = none := by
      intro variant hvariant
      rw [materialized_eq_none, ← Option.not_isSome_iff_eq_none]
      exact fun hsome => hno ⟨experiment, hrunning, variant, hvariant, hsome⟩
    rw [classify_none_iff.2 hnone] at hm
    exact nomatch hm
  · rw [hm] at h
    obtain rfl := Option.some_inj.1 h
    obtain ⟨⟨hole, hmem, hhole⟩, hfirst⟩ := classify_partly hm
    rw [findSome?_materialized] at hfirst
    obtain ⟨variant, hvariant, hserved⟩ := List.exists_of_findSome?_eq_some hfirst
    exact ⟨⟨experiment, hrunning, variant, hvariant, Option.isSome_of_eq_some hserved⟩,
      .partly hrunning ⟨hole, hmem, materialized_eq_none.1 hhole⟩ hfirst⟩
  · rw [hm] at h
    exact nomatch h

theorem Answers.of_resolveTarget
    (h : resolveTarget lib db projectId requestedLocale placement subscriberId target =
      some answer) :
    CanBeServed lib db projectId requestedLocale target ∧ Coherent db projectId target ∧
      Answers lib db projectId requestedLocale placement subscriberId target answer := by
  rcases target with paywallId | experimentId | _
  · rw [resolveTarget_paywall] at h
    obtain ⟨paywall, hpaywall, rfl⟩ := Option.map_eq_some_iff.1 h
    exact ⟨Option.isSome_of_eq_some hpaywall, coherent_of_ne nofun, .published hpaywall⟩
  · by_cases hrunning : ∃ experiment, IsRunning db projectId experimentId experiment
    · obtain ⟨experiment, hrunning⟩ := hrunning
      have hcoherent : experiment.type = .element → OneTarget experiment.variants := by
        intro htype
        by_contra hnot
        rw [resolveTarget_incoherent hrunning htype hnot] at h
        exact nomatch h
      rw [resolveTarget_coherent hrunning hcoherent] at h
      obtain ⟨hserved, hanswers⟩ := Answers.of_running hrunning h
      exact ⟨hserved, coherent_running hrunning hcoherent, hanswers⟩
    · rw [resolveTarget_of_not_running fun experiment hx => hrunning ⟨experiment, hx⟩] at h
      exact nomatch h
  · rw [resolveTarget_nothing] at h
    obtain rfl := Option.some_inj.1 h
    exact ⟨trivial, coherent_of_ne nofun, .nothing⟩

theorem not_served_of_resolveTarget
    (h : resolveTarget lib db projectId requestedLocale placement subscriberId target = none) :
    ¬(CanBeServed lib db projectId requestedLocale target ∧ Coherent db projectId target) := by
  rintro ⟨hserved, hcoherent⟩
  rcases target with paywallId | experimentId | _
  · obtain ⟨paywall, hpaywall⟩ := Option.isSome_iff_exists.1 hserved
    rw [resolveTarget_paywall, hpaywall] at h
    exact nomatch h
  · obtain ⟨experiment, hrunning, variant, hvariant, hsome⟩ := hserved
    rw [resolveTarget_coherent hrunning (hcoherent _ _ rfl hrunning)] at h
    rcases hm : classifyMaterialisation (experiment.variants.map
        (materialized lib db projectId requestedLocale experiment.type))
        experiment.variants.length with hydrated | ⟨fallback, n⟩ | _
    · rw [hm] at h
      obtain ⟨hne, -⟩ := classify_complete hm
      unfold settle at h
      split_ifs at h
      rw [Option.map_eq_none_iff, List.head?_eq_none_iff] at h
      exact hne h
    · rw [hm] at h
      exact nomatch h
    · have hnone := classify_none_iff.1 hm variant hvariant
      rw [materialized_eq_none.1 hnone] at hsome
      exact nomatch hsome
  · rw [resolveTarget_nothing] at h
    exact nomatch h

theorem rowMatches_iff {rows : List PlacementRow} {row : PlacementRow} (h : row ∈ rows) :
    rowMatches lib (findAudiencesByIds db projectId (rows.filterMap PlacementRow.audienceId))
      attributes row ↔ RowMatches lib db projectId attributes row := by
  unfold rowMatches RowMatches
  rcases haudience : row.audienceId with _ | audienceId
  · simp
  · have hmem : audienceId ∈ rows.filterMap PlacementRow.audienceId :=
      List.mem_filterMap.2 ⟨row, h, haudience⟩
    have hget : (findAudiencesByIds db projectId (rows.filterMap PlacementRow.audienceId)).get?
        audienceId = (db.audiences.get? audienceId).filter (·.projectId = projectId) := by
      unfold findAudiencesByIds
      rw [Table.get?_select]
      congr 1
      funext audience
      simp [hmem]
    simp only [hget]
    rcases hfound : db.audiences.get? audienceId with _ | audience
    · simp [hfound]
    · by_cases hproject : audience.projectId = projectId <;> simp [hfound, hproject, Option.filter]

variable (lib db projectId requestedLocale) in
def Admits (attributes : A) (row : PlacementRow) : Prop :=
  RowMatches lib db projectId attributes row ∧
    CanBeServed lib db projectId requestedLocale row.target ∧ Coherent db projectId row.target

theorem not_admits {rows : List PlacementRow} {row : PlacementRow} (hrow : row ∈ rows)
    (h : (if rowMatches lib (findAudiencesByIds db projectId
        (rows.filterMap PlacementRow.audienceId)) attributes row then
      resolveTarget lib db projectId requestedLocale placement subscriberId row.target
      else none) = none) :
    ¬Admits lib db projectId requestedLocale attributes row := by
  rintro ⟨hmatches, hserved⟩
  rw [if_pos ((rowMatches_iff hrow).2 hmatches)] at h
  exact not_served_of_resolveTarget h hserved

theorem resolvePlacement_walk {rows : List PlacementRow}
    (h : placementRowsSchema placement.rows = some rows) :
    (∀ row ∈ rows, ¬Admits lib db projectId requestedLocale attributes row) ∧
        resolvePlacement lib db projectId requestedLocale placement subscriberId attributes =
          servedNothing placement ∨
      ∃ before row after, rows = before ++ row :: after ∧
        (∀ passed ∈ before, ¬Admits lib db projectId requestedLocale attributes passed) ∧
        Admits lib db projectId requestedLocale attributes row ∧
        Answers lib db projectId requestedLocale placement subscriberId row.target
          (resolvePlacement lib db projectId requestedLocale placement subscriberId attributes) := by
  unfold resolvePlacement
  simp only [h]
  rcases hfound : rows.findSome? fun row =>
    if rowMatches lib (findAudiencesByIds db projectId (rows.filterMap PlacementRow.audienceId))
        attributes row then
      resolveTarget lib db projectId requestedLocale placement subscriberId row.target
    else none with _ | answer
  · left
    rw [List.findSome?_eq_none_iff] at hfound
    exact ⟨fun row hrow => not_admits hrow (hfound row hrow), rfl⟩
  · right
    obtain ⟨before, row, after, hrows, hrow, hbefore⟩ := List.findSome?_eq_some_iff.1 hfound
    have hmem : row ∈ rows := by simp [hrows]
    refine ⟨before, row, after, hrows, fun passed hpassed => ?_, ?_⟩
    · exact not_admits (by simp [hrows, hpassed]) (hbefore passed hpassed)
    · split_ifs at hrow with hmatches
      obtain ⟨hserved, hcoherent, hanswers⟩ := Answers.of_resolveTarget hrow
      exact ⟨⟨(rowMatches_iff hmem).1 hmatches, hserved, hcoherent⟩, hanswers⟩

theorem selectVariantIndex_loop_lt {bucket i n : ℕ} {cumulative : ℚ} {weights : List ℚ}
    (h : selectVariantIndex.loop bucket cumulative n weights = some i) :
    i < n + weights.length := by
  induction weights generalizing cumulative n with
  | nil => exact nomatch h
  | cons w weights ih =>
    rw [selectVariantIndex.loop] at h
    split_ifs at h
    · obtain rfl := Option.some_inj.1 h
      simp
    · have hlt := ih h
      rw [List.length_cons]
      omega

theorem exists_selectVariantIndex (bucket : ℕ) {weights : List ℚ} (h : weights ≠ []) :
    ∃ i, selectVariantIndex bucket weights = some i ∧ i < weights.length := by
  have hpos : 0 < weights.length := List.length_pos_iff.2 h
  unfold selectVariantIndex
  rcases hloop : selectVariantIndex.loop bucket 0 0 weights with _ | i
  · exact ⟨weights.length - 1, by simp [hpos.ne'], by omega⟩
  · have hlt := selectVariantIndex_loop_lt hloop
    exact ⟨i, rfl, by omega⟩

variable (lib) in
def drawnVariant (experiment : KeyedExperiment) (subscriber : String) : Option (Variant Json) := do
  let idx ← selectVariantIndex (assignBucket lib.toLibrary subscriber experiment.key)
    (experiment.variants.map Variant.weight)
  experiment.variants[idx]?

theorem resolve_menu {menu : List (MaterializedVariant O)} (hne : menu ≠ [])
    (h : WholeMenu lib db projectId requestedLocale experiment menu) (subscriber : String)
    (servedFromFallback : Bool) :
    ∃ variant paywall, drawnVariant lib experiment subscriber = some variant ∧
      served lib db projectId requestedLocale experiment.type variant = some paywall ∧
      resolve lib.toLibrary
        { placement := some (placementInfo placement)
          experiment := some ⟨experimentId, experiment.key, menu⟩ } subscriber servedFromFallback =
        some ⟨placementInfo placement, paywall, some variant.id, some experiment.key,
          servedFromFallback⟩ := by
  have hweights : menu.map MaterializedVariant.weight = experiment.variants.map Variant.weight := by
    have hmapped := congrArg (List.map fun entry => entry.2.1) h
    simpa only [List.map_map, Function.comp_def] using hmapped
  have hnonempty : experiment.variants.map Variant.weight ≠ [] := by
    rw [← hweights]
    simpa using hne
  obtain ⟨i, hselected, hlt⟩ := exists_selectVariantIndex
    (assignBucket lib.toLibrary subscriber experiment.key) hnonempty
  rw [List.length_map] at hlt
  have hat := congrArg (·[i]?) h
  simp only [List.getElem?_map, List.getElem?_eq_getElem hlt, Option.map_some] at hat
  obtain ⟨m, hm, hentry⟩ := Option.map_eq_some_iff.1 hat
  simp only [Prod.mk.injEq] at hentry
  obtain ⟨hid, -, hserved⟩ := hentry
  refine ⟨experiment.variants[i], m.paywall, ?_, hserved.symm, ?_⟩
  · unfold drawnVariant
    rw [hselected]
    exact List.getElem?_eq_getElem hlt
  · unfold resolve
    simp [hne, hweights, hselected, hm, hid]

theorem IsRunning.unique {other : KeyedExperiment}
    (h : IsRunning db projectId experimentId experiment)
    (hother : IsRunning db projectId experimentId other) : experiment = other :=
  Option.some_inj.1 (h.1.symm.trans hother.1)

theorem WholeMenu.isSome_served {menu : List (MaterializedVariant O)}
    (h : WholeMenu lib db projectId requestedLocale experiment menu)
    (hvariant : variant ∈ experiment.variants) :
    (served lib db projectId requestedLocale experiment.type variant).isSome := by
  have hmem : (variant.id, variant.weight,
      served lib db projectId requestedLocale experiment.type variant) ∈
        menu.map fun m => (m.variantId, m.weight, some m.paywall) :=
    h ▸ List.mem_map_of_mem hvariant
  obtain ⟨m, -, hm⟩ := List.mem_map.1 hmem
  simp only [Prod.mk.injEq] at hm
  exact Option.isSome_of_eq_some hm.2.2.symm

theorem Answers.of_hole
    (h : Answers lib db projectId requestedLocale placement subscriberId
      (.experiment experimentId) answer)
    (hrunning : IsRunning db projectId experimentId experiment)
    (hhole : ∃ variant ∈ experiment.variants,
      served lib db projectId requestedLocale experiment.type variant = none) :
    ∃ paywall, experiment.variants.findSome?
        (served lib db projectId requestedLocale experiment.type) = some paywall ∧
      answer = servedPaywall placement paywall := by
  obtain ⟨hole, hmem, hnone⟩ := hhole
  cases h with
  | menu hother _ _ hmenu =>
    obtain rfl := hother.unique hrunning
    have hsome := hmenu.isSome_served hmem
    rw [hnone] at hsome
    exact nomatch hsome
  | control hother _ hall _ =>
    obtain rfl := hother.unique hrunning
    have hsome := hall hole hmem
    rw [hnone] at hsome
    exact nomatch hsome
  | partly hother _ hfirst =>
    obtain rfl := hother.unique hrunning
    exact ⟨_, hfirst, rfl⟩

theorem Answers.of_experiment {menu : ServedExperiment O}
    (h : Answers lib db projectId requestedLocale placement subscriberId target answer)
    (hmenu : answer.experiment = some menu) :
    ∃ experiment, IsRunning db projectId menu.id experiment ∧ menu.key = experiment.key ∧
      WholeMenu lib db projectId requestedLocale experiment menu.variants ∧ menu.variants ≠ [] ∧
      answer = { placement := some (placementInfo placement), experiment := some menu } := by
  cases h with
  | menu hrunning _ hne hwhole =>
    obtain rfl := Option.some_inj.1 hmenu
    exact ⟨_, hrunning, rfl, hwhole, hne, rfl⟩
  | nothing => exact nomatch hmenu
  | published => exact nomatch hmenu
  | control => exact nomatch hmenu
  | partly => exact nomatch hmenu

theorem resolvePlacement_invalid (h : placementRowsSchema placement.rows = none) :
    resolvePlacement lib db projectId requestedLocale placement subscriberId attributes =
      servedNothing placement := by
  unfold resolvePlacement
  rw [h]
  rfl

/-- The answer comes from the first row that admits, a menu is the declared list whole, and of a
list that can be served in part the first variant that can be is shown outside of any experiment. -/
theorem placement_serves_whole_menu (lib : Libraries A Q O) (db : PlacementDb Q)
    (projectId : String) (requestedLocale : Option String) (placement : StoredPlacement)
    (subscriberId : Option String) (attributes : A) :
    let answer :=
      resolvePlacement lib db projectId requestedLocale placement subscriberId attributes
    let admits := Admits lib db projectId requestedLocale attributes
    (placementRowsSchema placement.rows = none → answer = servedNothing placement) ∧
    (∀ rows, placementRowsSchema placement.rows = some rows →
      (∀ row ∈ rows, ¬admits row) ∧ answer = servedNothing placement ∨
      ∃ before row after, rows = before ++ row :: after ∧ (∀ passed ∈ before, ¬admits passed) ∧
        admits row ∧
        Answers lib db projectId requestedLocale placement subscriberId row.target answer ∧
        ∀ experimentId experiment, row.target = .experiment experimentId →
          IsRunning db projectId experimentId experiment →
          (∃ variant ∈ experiment.variants,
            served lib db projectId requestedLocale experiment.type variant = none) →
          ∃ paywall, experiment.variants.findSome?
              (served lib db projectId requestedLocale experiment.type) = some paywall ∧
            answer = servedPaywall placement paywall) ∧
    ∀ menu, answer.experiment = some menu → ∃ experiment,
      IsRunning db projectId menu.id experiment ∧ menu.key = experiment.key ∧
      WholeMenu lib db projectId requestedLocale experiment menu.variants ∧
      ∀ subscriber servedFromFallback, ∃ variant paywall,
        drawnVariant lib experiment subscriber = some variant ∧
        served lib db projectId requestedLocale experiment.type variant = some paywall ∧
        resolve lib.toLibrary answer subscriber servedFromFallback =
          some ⟨placementInfo placement, paywall, some variant.id, some experiment.key,
            servedFromFallback⟩ := by
  intro answer admits
  refine ⟨resolvePlacement_invalid, fun rows h => ?_, fun menu hmenu => ?_⟩
  · rcases resolvePlacement_walk (A := A) h with
      hnone | ⟨before, row, after, hrows, hbefore, hrow, hanswers⟩
    · exact .inl hnone
    · refine .inr ⟨before, row, after, hrows, hbefore, hrow, hanswers, ?_⟩
      intro experimentId experiment htarget hrunning hhole
      rw [htarget] at hanswers
      exact hanswers.of_hole hrunning hhole
  · have hanswers : ∃ target,
        Answers lib db projectId requestedLocale placement subscriberId target answer := by
      rcases hrows : placementRowsSchema placement.rows with _ | rows
      · have hnothing : answer = servedNothing placement := resolvePlacement_invalid hrows
        rw [hnothing] at hmenu
        exact nomatch hmenu
      · rcases resolvePlacement_walk (A := A) hrows with
          ⟨-, hnothing⟩ | ⟨before, row, after, -, -, -, hanswers⟩
        · have hnothing : answer = servedNothing placement := hnothing
          rw [hnothing] at hmenu
          exact nomatch hmenu
        · exact ⟨row.target, hanswers⟩
    obtain ⟨target, hanswers⟩ := hanswers
    obtain ⟨experiment, hrunning, hkey, hwhole, hne, hanswer⟩ := hanswers.of_experiment hmenu
    refine ⟨experiment, hrunning, hkey, hwhole, fun subscriber servedFromFallback => ?_⟩
    rw [hanswer]
    obtain ⟨id, key, variants⟩ := menu
    obtain rfl : key = experiment.key := hkey
    exact resolve_menu hne hwhole subscriber servedFromFallback

end

def plainLibraries : Libraries Unit Unit Unit where
  sift _ _ := true
  sha256Head _ := 0
  hydratedOffering _ _ := none
  spread node _ := node

def elementValue (nodeId : String) : Json :=
  .obj [("paywallId", .str "pro"), ("nodeId", .str nodeId), ("props", .obj [])]

def headline (bold : Json) : KeyedExperiment where
  projectId := "app"
  key := "headline"
  type := .element
  status := .running
  variants := [⟨"control", "Control", elementValue "root", 1 / 2⟩, ⟨"bold", "Bold", bold, 1 / 2⟩]

def cutShort : KeyedExperiment := headline (.obj [("paywallId", .str "pro")])

def proDb (experiment : KeyedExperiment) : PlacementDb Unit where
  audiences := .empty
  experiments := Table.empty.insert "exp" experiment
  paywalls := Table.empty.insert "pro"
    { projectId := "app", identifier := "pro", name := "Pro", publishedVersionId := some "v1" }
  versions := Table.empty.insert "v1" {
    offeringId := "main"
    builderConfig := some {
      defaultLocale := "en"
      localizations := .empty
      rootOwn := { id := "root" }
      rootChildren := [] } }
  holdoutPercentage := .empty

def everyoneSees : StoredPlacement where
  projectId := "app"
  identifier := "onboarding"
  rows := [⟨none, .experiment "exp"⟩]

theorem placement_serves_whole_headline :
    ∃ menu, (resolvePlacement plainLibraries (proDb (headline (elementValue "root"))) "app" none
        everyoneSees none ()).experiment = some menu ∧
      menu.variants.map MaterializedVariant.variantId = ["control", "bold"] ∧
      ∃ experiment, IsRunning (proDb (headline (elementValue "root"))) "app" menu.id experiment ∧
        WholeMenu plainLibraries (proDb (headline (elementValue "root"))) "app" none experiment
          menu.variants := by
  have hmenu := (placement_serves_whole_menu plainLibraries
    (proDb (headline (elementValue "root"))) "app" none everyoneSees none ()).2.2
  obtain ⟨experiment, hrunning, -, hwhole, -⟩ := hmenu _ rfl
  exact ⟨_, rfl, rfl, experiment, hrunning, hwhole⟩

theorem cut_short_sibling_empties_placement :
    placementRowsSchema everyoneSees.rows = some [⟨none, .experiment "exp"⟩] ∧
    RowMatches plainLibraries (proDb cutShort) "app" () ⟨none, .experiment "exp"⟩ ∧
    CanBeServed plainLibraries (proDb cutShort) "app" none (.experiment "exp") ∧
    (cutShort.variants.map fun variant =>
      (served plainLibraries (proDb cutShort) "app" none cutShort.type variant).isSome) = [true, false] ∧
    resolvePlacement plainLibraries (proDb cutShort) "app" none everyoneSees none () =
      servedNothing everyoneSees := by
  refine ⟨by decide, nofun, ⟨cutShort, ⟨rfl, rfl⟩, _, List.mem_cons_self, ?_⟩, ?_, ?_⟩
  · decide
  · decide
  · rfl

end Rovenue.Placements
