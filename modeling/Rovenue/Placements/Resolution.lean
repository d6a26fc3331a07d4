import Rovenue.Experiments.Engine
import Rovenue.Experiments.Lifecycle
import Rovenue.Paywall.TreeOp

/-! `resolvePlacement` walks the rows of a placement from the top and hydrates the variants of an
experiment together; `resolve` of the SDK draws from the answer. One call sees one state of the
tables. The exposure that a held-out subscriber leaves is no part of the answer. -/

namespace Rovenue.Placements
open Txn (Table)
open Js (Json)
open Experiments Paywall

structure AudienceRow (Q : Type) where
  projectId : String
  rules : Table String Q

structure PaywallRow where
  projectId : String
  identifier : String
  name : String
  isActive : Bool := true
  publishedVersionId : Option String := none

structure PaywallVersionRow where
  offeringId : String
  remoteConfig : Json := .obj []
  configFormatVersion : ℤ := 1
  builderConfig : Option BuilderConfig := none

structure KeyedExperiment extends ExperimentRow where
  key : String

structure StoredPlacement extends Placement where
  identifier : String

structure PlacementDb (Q : Type) where
  audiences : Table String (AudienceRow Q)
  experiments : Table String KeyedExperiment
  paywalls : Table String PaywallRow
  versions : Table String PaywallVersionRow
  -- `projects.holdoutPercentage`
  holdoutPercentage : Table String ℚ

/-- `hydratedOffering` finds an offering of a project and hydrates it. -/
structure Libraries (A Q O : Type) extends Library A Q where
  hydratedOffering : String → String → Option O
  spread : PaywallNode → Table String Json → PaywallNode

def recordOf : Json → Option (List (String × Json))
  | .obj fields => some fields
  | _ => none

def nonEmptyText : Json → Option String
  | .str s => if s = "" then none else some s
  | _ => none

structure RemoteConfig where
  defaultLocale : Option String
  locales : Option (List (String × List (String × Json)))

def localesSchema (value : Json) : Option (List (String × List (String × Json))) := do
  let locales ← (← recordOf value).mapM fun entry => (recordOf entry.2).map (entry.1, ·)
  return locales.filter fun entry => entry.1 ≠ "__proto__"

def remoteConfigSchema (value : Json) : Option RemoteConfig := do
  let _ ← recordOf value
  let defaultLocale ← match value.get "defaultLocale" with
    | none => some none
    | some text => (nonEmptyText text).map some
  let locales ← match value.get "locales" with
    | none => some none
    | some record => (localesSchema record).map some
  return ⟨defaultLocale, locales⟩

inductive LocaleData where
  | own (fields : List (String × Json))
  | inherited

def localeData (locales : List (String × List (String × Json))) (name : String) :
    Option LocaleData :=
  match locales.lookup name with
  | some fields => some (.own fields)
  | none => if name ∈ Js.objectPrototypeKeys then some .inherited else none

def resolveLocale (remoteConfig : Json) (requested : Option String) :
    Option (String × LocaleData) := do
  let parsed ← remoteConfigSchema remoteConfig
  let locales ← parsed.locales
  let fallback := parsed.defaultLocale.or (locales.head?.map Prod.fst)
  let asked := requested.filter fun name => name ≠ "" && (localeData locales name).isSome
  let pick ← (asked.or fallback).filter (· ≠ "")
  return (pick, ← localeData locales pick)

structure HydratedPaywall (O : Type) where
  id : String
  identifier : String
  name : String
  configFormatVersion : ℤ
  remoteConfig : Option (String × LocaleData)
  builderConfig : Option BuilderConfig
  offering : Option O

section
variable {A Q O : Type} (lib : Libraries A Q O) (db : PlacementDb Q) (projectId : String)
  (requestedLocale : Option String)

def hydratePaywall (id : String) (paywall : PaywallRow) (source : PaywallVersionRow) :
    HydratedPaywall O where
  id := id
  identifier := paywall.identifier
  name := paywall.name
  configFormatVersion := source.configFormatVersion
  remoteConfig := resolveLocale source.remoteConfig requestedLocale
  builderConfig := source.builderConfig
  offering := lib.hydratedOffering projectId source.offeringId

def findPaywallById (id : String) : Option PaywallRow :=
  (db.paywalls.get? id).filter fun paywall => paywall.projectId = projectId

def findPaywallsByIds (ids : List String) : Table String PaywallRow :=
  db.paywalls.select fun id paywall => paywall.projectId = projectId && ids.contains id

def findVersionsByIds (ids : List String) : Table String PaywallVersionRow :=
  db.versions.select fun id _ => ids.contains id

def findAudiencesByIds (ids : List String) : Table String (AudienceRow Q) :=
  db.audiences.select fun id audience => audience.projectId = projectId && ids.contains id

def findExperimentInProject (id : String) : Option KeyedExperiment :=
  (db.experiments.get? id).filter fun experiment => experiment.projectId = projectId

def publishedVersion (versions : Table String PaywallVersionRow) (paywall : PaywallRow) :
    Option PaywallVersionRow :=
  if paywall.isActive then (paywall.publishedVersionId.filter (· ≠ "")).bind versions.get?
  else none

def publishedPaywall (paywallId : String) : Option (HydratedPaywall O) := do
  let paywall ← findPaywallById db projectId paywallId
  let version ← publishedVersion db.versions paywall
  return hydratePaywall lib projectId requestedLocale paywallId paywall version

structure MaterializedVariant (O : Type) where
  variantId : String
  weight : ℚ
  paywall : HydratedPaywall O

inductive VariantMaterialisation (O : Type) where
  | complete (variants : List (MaterializedVariant O))
  | partly (fallback : HydratedPaywall O) (hydratedCount : ℕ)
  | none

def classifyMaterialisation (hydrated : List (Option (MaterializedVariant O)))
    (declaredCount : ℕ) : VariantMaterialisation O :=
  match hydrated.reduceOption with
  | [] => .none
  | first :: rest =>
    let survivors := first :: rest
    if survivors.length = declaredCount then .complete survivors
    else .partly first.paywall survivors.length

structure VariantRef where
  variantId : String
  weight : ℚ
  -- any value that is true; rows are found under texts only
  paywallId : Json

def variantRef (variant : Variant Json) : Option VariantRef :=
  match variant.value.get "paywallId" with
  | some paywallId =>
    if Json.truthy (some paywallId) then some ⟨variant.id, variant.weight, paywallId⟩ else none
  | none => none

def materializePaywallVariants (variants : List (Variant Json)) : VariantMaterialisation O :=
  let variantRefs := variants.filterMap variantRef
  if variantRefs.isEmpty then .none
  else
    let paywallById := findPaywallsByIds db projectId
      (variantRefs.filterMap fun ref => Json.text? (some ref.paywallId))
    let versionIds := paywallById.entries.filterMap fun entry => entry.2.publishedVersionId
    let versionById := findVersionsByIds db versionIds
    let hydrated := variantRefs.map fun ref => do
      let paywallId ← Json.text? (some ref.paywallId)
      let paywall ← paywallById.get? paywallId
      let version ← publishedVersion versionById paywall
      return ⟨ref.variantId, ref.weight,
        hydratePaywall lib projectId requestedLocale paywallId paywall version⟩
    -- counted against what is declared, since a variant without a paywall is no ref
    classifyMaterialisation hydrated variants.length

structure ElementVariantValue where
  paywallId : String
  nodeId : String
  props : Table String Json

def elementVariantValueSchema (value : Json) : Option ElementVariantValue := do
  let paywallId ← nonEmptyText (← value.get "paywallId")
  let nodeId ← nonEmptyText (← value.get "nodeId")
  let props ← recordOf (← value.get "props")
  return ⟨paywallId, nodeId, props.foldl (fun table entry => table.set entry.1 entry.2) .empty⟩

def patchedPaywall (base : HydratedPaywall O) (config : BuilderConfig)
    (value : ElementVariantValue) : Option (HydratedPaywall O) :=
  -- One patch on a copy of the hydrated paywall. `updateProps` has no other error than
  -- `TARGET_NOT_FOUND`.
  match applyTreeOp lib.spread config (.updateProps value.nodeId value.props) with
  | .ok patchedConfig => some { base with builderConfig := some patchedConfig }
  | .error _ => none

def materializeElementVariants (variants : List (Variant Json)) : VariantMaterialisation O :=
  match variants.mapM fun variant => (elementVariantValueSchema variant.value).map (variant, ·) with
  | none | some [] => .none
  | some (first :: rest) =>
    let parsed := first :: rest
    if parsed.any fun p => p.2.paywallId ≠ first.2.paywallId then .none
    else
      match publishedPaywall lib db projectId requestedLocale first.2.paywallId with
      | none => .none
      | some base =>
        match base.builderConfig with
        | none => .none
        | some baseConfig =>
          let hydrated := parsed.map fun p =>
            (patchedPaywall lib base baseConfig p.2).map (⟨p.1.id, p.1.weight, ·⟩)
          classifyMaterialisation hydrated parsed.length

structure PlacementInfo where
  identifier : String
  revision : ℕ
  deriving DecidableEq

structure ServedExperiment (O : Type) where
  id : String
  key : String
  variants : List (MaterializedVariant O)

structure ResolvedPlacement (O : Type) where
  placement : Option PlacementInfo
  paywall : Option (HydratedPaywall O) := none
  experiment : Option (ServedExperiment O) := none

def placementRowValid (row : PlacementRow) : Bool :=
  row.audienceId ≠ some "" && row.target ≠ .paywall "" && row.target ≠ .experiment ""

def placementRowsSchema (rows : List PlacementRow) : Option (List PlacementRow) :=
  if rows.all placementRowValid && placementRowsValid rows then some rows else none

def rowMatches (audienceById : Table String (AudienceRow Q)) (attributes : A)
    (row : PlacementRow) : Bool :=
  match row.audienceId with
  | none => true
  | some audienceId =>
    match audienceById.get? audienceId with
    | none => false
    | some audience => matchesAudience lib.toLibrary attributes audience.rules

def isHeldOut (subscriberId : Option String) : Bool :=
  match subscriberId.filter (· ≠ "") with
  | none => false
  | some subscriberId =>
    let holdoutPercentage := (db.holdoutPercentage.get? projectId).getD 0
    holdoutPercentage > 0
      && isInRollout lib.toLibrary subscriberId holdoutBucketSeed (holdoutPercentage / 100)

variable (placement : StoredPlacement) (subscriberId : Option String)

def placementInfo : PlacementInfo := ⟨placement.identifier, placement.revision⟩

def settle (experimentId : String) (experiment : KeyedExperiment) :
    VariantMaterialisation O → Option (ResolvedPlacement O)
  | .none => none
  | .partly fallback _ =>
    some { placement := some (placementInfo placement), paywall := some fallback }
  | .complete hydrated =>
    if isHeldOut lib db projectId subscriberId then
      hydrated.head?.map fun control =>
        { placement := some (placementInfo placement), paywall := some control.paywall }
    else some {
      placement := some (placementInfo placement)
      experiment := some ⟨experimentId, experiment.key, hydrated⟩ }

def resolveTarget (target : PlacementTarget) : Option (ResolvedPlacement O) :=
  match target with
  | .none => some { placement := some (placementInfo placement) }
  | .paywall paywallId => do
    let paywall ← publishedPaywall lib db projectId requestedLocale paywallId
    return { placement := some (placementInfo placement), paywall := some paywall }
  | .experiment experimentId => do
    let experiment ← findExperimentInProject db projectId experimentId
    if experiment.status ≠ .running then none
    let materialised ← match experiment.type with
      | .element =>
        some (materializeElementVariants lib db projectId requestedLocale experiment.variants)
      | .paywall =>
        some (materializePaywallVariants lib db projectId requestedLocale experiment.variants)
      | _ => none
    settle lib db projectId placement subscriberId experimentId experiment materialised

def resolvePlacement (attributes : A) : ResolvedPlacement O :=
  match placementRowsSchema placement.rows with
  | none => { placement := some (placementInfo placement) }
  | some rows =>
    let audienceById := findAudiencesByIds db projectId (rows.filterMap PlacementRow.audienceId)
    let answers := rows.findSome? fun row =>
      if rowMatches lib audienceById attributes row then
        resolveTarget lib db projectId requestedLocale placement subscriberId row.target
      else none
    answers.getD { placement := some (placementInfo placement) }

end

structure CorePaywall (O : Type) where
  placement : PlacementInfo
  paywall : HydratedPaywall O
  variantId : Option String
  experimentKey : Option String
  servedFromFallback : Bool

def resolve {A Q O : Type} (lib : Library A Q) (resp : ResolvedPlacement O) (subscriberId : String)
    (servedFromFallback : Bool) : Option (CorePaywall O) := do
  let placement ← resp.placement
  match resp.paywall with
  | some paywall => return ⟨placement, paywall, none, none, servedFromFallback⟩
  | none =>
    let experiment ← resp.experiment
    if experiment.variants.isEmpty then none
    let weights := experiment.variants.map MaterializedVariant.weight
    let bucket := assignBucket lib subscriberId experiment.key
    let idx ← selectVariantIndex bucket weights
    let variant ← experiment.variants[idx]?
    return ⟨placement, variant.paywall, some variant.variantId, some experiment.key,
      servedFromFallback⟩

end Rovenue.Placements
