import Rovenue.Paywall.Schema

/-! `validateBuilderConfig`: what keeps a builder config from being saved or published. -/

namespace Rovenue.Paywall
open Js
open Txn (Table)

def localizedKeysOf (node : PaywallNode) : List Value :=
  match node.type with
  | .leaf .text => [node.field "key"]
  | .leaf .button | .leaf .socialProof => [node.field "labelKey"]
  | .leaf .purchaseButton =>
    if Json.truthy (node.field "trialLabelKey") then
      [node.field "labelKey", node.field "trialLabelKey"]
    else [node.field "labelKey"]
  | .leaf .featureList => (Json.elements (node.field "rows")).map fun r => r.get "labelKey"
  | .leaf .timeline =>
    (Json.elements (node.field "rows")).flatMap fun r =>
      if Json.truthy (r.get "captionKey") then [r.get "labelKey", r.get "captionKey"]
      else [r.get "labelKey"]
  | .leaf .countdown =>
    if Json.truthy (node.field "labelKey") then [node.field "labelKey"] else []
  | .leaf .footerLinks => (Json.elements (node.field "links")).map fun l => l.get "labelKey"
  | _ => []

def PaywallNode.overrides (node : PaywallNode) : List NodeOverride := node.own.overrides.getD []

def overrideLocKeys (node : PaywallNode) : List String :=
  -- the `key` and `labelKey` values of the overrides that are texts
  node.overrides.flatMap fun override =>
    (Json.text? (override.props.get? "key")).toList
      ++ (Json.text? (override.props.get? "labelKey")).toList

def isMissingLocaleValue (value : Found) : Bool := !value.isWritten

structure NodeWalkContext where
  insideCellTemplate : Bool := false
  insideCarousel : Bool := false

mutual

def walkNodes (ctx : NodeWalkContext) : PaywallNode → List (PaywallNode × NodeWalkContext)
  -- The nodes in document order with where they sit. A fallback stands in for its node, so it keeps
  -- the node's place.
  | .container t own children fallback =>
    (.container t own children fallback, ctx)
      :: (walkChildren (if t = .carousel then { ctx with insideCarousel := true } else ctx) children
        ++ walkOptional ctx fallback)
  | .packageList own cellTemplate fallback =>
    (.packageList own cellTemplate fallback, ctx)
      :: (walkOptional { ctx with insideCellTemplate := true } cellTemplate
        ++ walkOptional ctx fallback)
  | .leaf t own fallback => (.leaf t own fallback, ctx) :: walkOptional ctx fallback

def walkChildren (ctx : NodeWalkContext) :
    List PaywallNode → List (PaywallNode × NodeWalkContext)
  | [] => []
  | node :: rest => walkNodes ctx node ++ walkChildren ctx rest

def walkOptional (ctx : NodeWalkContext) :
    Option PaywallNode → List (PaywallNode × NodeWalkContext)
  | none => []
  | some node => walkNodes ctx node

end

mutual

theorem hasNode_of_mem_walkNodes (ctx : NodeWalkContext) (root : PaywallNode) :
    ∀ entry ∈ walkNodes ctx root, root.HasNode entry.1 := by
  intro entry hentry
  match root with
  | .container t own children fallback =>
    rw [walkNodes, List.mem_cons, List.mem_append] at hentry
    rcases hentry with rfl | hentry | hentry
    · exact .self _
    · obtain ⟨child, hchild, hnode⟩ := hasNode_of_mem_walkChildren _ children entry hentry
      exact .child hchild hnode
    · obtain ⟨child, hchild, hnode⟩ := hasNode_of_mem_walkOptional _ fallback entry hentry
      exact .fallback hchild hnode
  | .packageList own cellTemplate fallback =>
    rw [walkNodes, List.mem_cons, List.mem_append] at hentry
    rcases hentry with rfl | hentry | hentry
    · exact .self _
    · obtain ⟨child, rfl, hnode⟩ := hasNode_of_mem_walkOptional _ cellTemplate entry hentry
      exact .cellTemplate hnode
    · obtain ⟨child, hchild, hnode⟩ := hasNode_of_mem_walkOptional _ fallback entry hentry
      exact .fallback hchild hnode
  | .leaf t own fallback =>
    rw [walkNodes, List.mem_cons] at hentry
    rcases hentry with rfl | hentry
    · exact .self _
    · obtain ⟨child, hchild, hnode⟩ := hasNode_of_mem_walkOptional _ fallback entry hentry
      exact .fallback hchild hnode

theorem hasNode_of_mem_walkChildren (ctx : NodeWalkContext) (children : List PaywallNode) :
    ∀ entry ∈ walkChildren ctx children, ∃ child ∈ children, child.HasNode entry.1 := by
  intro entry hentry
  match children with
  | [] => exact absurd hentry List.not_mem_nil
  | node :: rest =>
    rw [walkChildren, List.mem_append] at hentry
    rcases hentry with hentry | hentry
    · exact ⟨node, List.mem_cons_self, hasNode_of_mem_walkNodes ctx node entry hentry⟩
    · obtain ⟨child, hchild, hnode⟩ := hasNode_of_mem_walkChildren ctx rest entry hentry
      exact ⟨child, List.mem_cons_of_mem _ hchild, hnode⟩

theorem hasNode_of_mem_walkOptional (ctx : NodeWalkContext) (node : Option PaywallNode) :
    ∀ entry ∈ walkOptional ctx node, ∃ child, node = some child ∧ child.HasNode entry.1 := by
  intro entry hentry
  match node with
  | none => exact absurd hentry List.not_mem_nil
  | some child => exact ⟨child, rfl, hasNode_of_mem_walkNodes ctx child entry hentry⟩

end

theorem mem_walkChildren {ctx : NodeWalkContext} {children : List PaywallNode}
    {child : PaywallNode} {entry : PaywallNode × NodeWalkContext} (hchild : child ∈ children)
    (hentry : entry ∈ walkNodes ctx child) : entry ∈ walkChildren ctx children := by
  induction children with
  | nil => exact absurd hchild List.not_mem_nil
  | cons first rest ih =>
    rw [walkChildren, List.mem_append]
    rcases List.mem_cons.1 hchild with rfl | hchild
    · exact .inl hentry
    · exact .inr (ih hchild)

theorem mem_walkNodes_of_hasNode {root node : PaywallNode} (h : root.HasNode node) :
    ∀ ctx, ∃ place, (node, place) ∈ walkNodes ctx root := by
  induction h with
  | self node =>
    intro ctx
    refine ⟨ctx, ?_⟩
    cases node <;> exact List.mem_cons_self
  | child hchild _ ih =>
    intro ctx
    obtain ⟨place, hplace⟩ := ih _
    refine ⟨place, ?_⟩
    rw [walkNodes]
    exact List.mem_cons_of_mem _ (List.mem_append_left _ (mem_walkChildren hchild hplace))
  | cellTemplate _ ih =>
    intro ctx
    obtain ⟨place, hplace⟩ := ih _
    refine ⟨place, ?_⟩
    rw [walkNodes]
    exact List.mem_cons_of_mem _ (List.mem_append_left _ hplace)
  | @fallback root fallback _ hfallback _ ih =>
    intro ctx
    obtain ⟨place, hplace⟩ := ih ctx
    refine ⟨place, ?_⟩
    cases root <;> obtain rfl : _ = some fallback := hfallback <;> rw [walkNodes]
    · exact List.mem_cons_of_mem _ (List.mem_append_right _ hplace)
    · exact List.mem_cons_of_mem _ (List.mem_append_right _ hplace)
    · exact List.mem_cons_of_mem _ hplace

theorem mem_nodes_iff {root node : PaywallNode} :
    node ∈ (walkNodes {} root).map Prod.fst ↔ root.HasNode node := by
  rw [List.mem_map]
  constructor
  · rintro ⟨entry, hentry, rfl⟩
    exact hasNode_of_mem_walkNodes {} root entry hentry
  · intro h
    obtain ⟨place, hplace⟩ := mem_walkNodes_of_hasNode h {}
    exact ⟨_, hplace, rfl⟩

structure LocalizationUsage where
  key : Value
  nodeId : String
  nodeType : NodeType
  viaOverride : Bool

def usagesOf (node : PaywallNode) : List LocalizationUsage :=
  ((localizedKeysOf node).map fun key => ⟨key, node.id, node.type, false⟩)
    ++ (overrideLocKeys node).map fun key => ⟨some (.str key), node.id, node.type, true⟩

def collectLocalizationUsages (root : PaywallNode) : List LocalizationUsage :=
  (walkNodes {} root).flatMap fun entry => usagesOf entry.1

inductive IssueCode where
  | duplicateNodeId | unknownLocKey | emptyLocValue | foreignPackageId | missingPurchaseButton
  | localeKeyGap | schemaInvalid | visibilityNeverMatches | visibilityBoundUnparseable
  | cellTemplateBadNode | overrideBadProp | overrideSelectedOutsideCell | unknownIconName
  | featureListTooLong | emptyRows | stickyFooterNotAtRoot | multipleStickyFooters
  | countdownNoDeadline | countdownDeadlinePast | carouselEmpty | carouselAutoAdvanceTooFast
  | carouselSinglePage | videoAutoplayUnmuted | videoNoPoster | lottieSpeedOutOfRange
  | videoInCarouselNoFallback | emptyMediaUrl | emptyActionUrl
  deriving DecidableEq, Repr

structure BuilderIssue where
  code : IssueCode
  nodeId : Option String := none
  locale : Option String := none
  key : Option String := none
  message : String
  deriving DecidableEq

inductive IssueSeverity where
  | save | publish | warning
  deriving DecidableEq, Repr

def issueSeverity : IssueCode → IssueSeverity
  | .localeKeyGap | .overrideSelectedOutsideCell | .visibilityNeverMatches
  | .visibilityBoundUnparseable | .unknownIconName | .featureListTooLong | .emptyRows
  | .stickyFooterNotAtRoot | .multipleStickyFooters | .countdownDeadlinePast
  | .carouselAutoAdvanceTooFast | .carouselSinglePage | .videoAutoplayUnmuted | .videoNoPoster
  | .lottieSpeedOutOfRange | .videoInCarouselNoFallback => .warning
  | .unknownLocKey | .emptyLocValue | .foreignPackageId | .missingPurchaseButton
  | .cellTemplateBadNode | .overrideBadProp | .countdownNoDeadline | .carouselEmpty
  | .emptyMediaUrl | .emptyActionUrl => .publish
  | .duplicateNodeId | .schemaInvalid => .save

def isBlockingIssue (issue : BuilderIssue) : Bool := issueSeverity issue.code = .save

def isPublishBlockingIssue (issue : BuilderIssue) : Bool := issueSeverity issue.code ≠ .warning

/-- What the script engine computes: the lower case of a text, and the time of a date text
(`none` where that is not a number). No text but a run of digits has that run for its lower
case. -/
structure Engine where
  toLowerCase : String → String
  getTime : String → Option ℤ
  toLowerCase_eq_digits : ∀ s digits : String, digits.toList.all Char.isDigit →
    (toLowerCase s = digits ↔ s = digits)

structure ValidateOptions where
  offeringPackageIds : List String
  now : ℤ

def iconNames : List String :=
  ["check", "x", "star", "lock", "shield", "sparkle", "bolt", "gift", "clock", "infinity",
    "cloud", "arrow-right"]

def isKnownIconName (name : String) : Bool := name ∈ iconNames

def visibilityBoundIssue (node : PaywallNode) (field : String) (bound : Option String) :
    List BuilderIssue :=
  match bound with
  | none => []
  | some bound =>
    if bound ≠ "" ∧ compareVersions bound bound = none then
      [{ code := .visibilityBoundUnparseable, nodeId := some node.id,
         message := s!"Node \"{node.id}\" has {field} \"{bound}\", which is not a dotted number, so it will be ignored." }]
    else []

def visibilityIssues (node : PaywallNode) : List BuilderIssue :=
  let visibility := node.own.visibility.getD {}
  visibilityBoundIssue node "minAppVersion" visibility.minAppVersion
    ++ visibilityBoundIssue node "maxAppVersion" visibility.maxAppVersion
    ++ match visibility.minAppVersion, visibility.maxAppVersion with
      | some lower, some upper =>
        if lower ≠ "" ∧ upper ≠ "" ∧ ∃ cmp ∈ compareVersions lower upper, 0 < cmp then
          [{ code := .visibilityNeverMatches, nodeId := some node.id,
             message := s!"Node \"{node.id}\" has minAppVersion \"{lower}\" above maxAppVersion \"{upper}\", so it can never render." }]
        else []
      | _, _ => []

def rowsOf (node : PaywallNode) : Option (List Json) :=
  match node.type with
  | .leaf .featureList | .leaf .timeline => some (Json.elements (node.field "rows"))
  | _ => none

def iconIssue (node : PaywallNode) (icon : String) (place : String) : List BuilderIssue :=
  if isKnownIconName icon then []
  else [{ code := .unknownIconName, nodeId := some node.id,
          message := s!"Icon \"{icon}\" ({place} \"{node.id}\") is not in the icon registry — it will render nothing." }]

def iconIssues (node : PaywallNode) : List BuilderIssue :=
  (if node.type = .leaf .icon then
    iconIssue node ((Json.text? (node.field "name")).getD "") "node" else [])
    ++ ((rowsOf node).getD []).flatMap fun row =>
      match Json.text? (row.get "icon") with
      | some icon => if icon = "" then [] else iconIssue node icon "row in"
      | none => []

def featureListSoftMax : ℕ := 6

def rowIssues (node : PaywallNode) : List BuilderIssue :=
  match rowsOf node with
  | none => []
  | some rows =>
    (if node.type = .leaf .featureList ∧ featureListSoftMax < rows.length then
      [{ code := .featureListTooLong, nodeId := some node.id,
         message := s!"Feature list \"{node.id}\" has {rows.length} rows; {featureListSoftMax} or fewer converts better." }]
      else [])
      ++ if rows = [] then
        [{ code := .emptyRows, nodeId := some node.id,
           message := s!"\"{node.id}\" has no rows and will render nothing." }]
      else []

def countdownIssues (engine : Engine) (now : ℤ) (node : PaywallNode) : List BuilderIssue :=
  if node.type ≠ .leaf .countdown then [] else
  let endsAt := Json.text? (node.field "endsAt")
  (if endsAt = none ∧ (node.field "durationSeconds").isNone then
    [{ code := .countdownNoDeadline, nodeId := some node.id,
       message := s!"countdown \"{node.id}\" has neither endsAt nor durationSeconds, so it cannot render." }]
  else [])
    ++ match endsAt with
      | some deadline =>
        if ∃ time ∈ engine.getTime deadline, time < now then
          [{ code := .countdownDeadlinePast, nodeId := some node.id,
             message := s!"countdown \"{node.id}\" has endsAt \"{deadline}\" which is already in the past." }]
        else []
      | none => []

def carouselMinAutoAdvanceSeconds : ℕ := 2

def carouselIssues : PaywallNode → List BuilderIssue
  | .container .carousel own children _ =>
    (match children with
      | [] =>
        [{ code := .carouselEmpty, nodeId := some own.id,
           message := s!"carousel \"{own.id}\" has no pages, so it cannot render." }]
      | [_] =>
        [{ code := .carouselSinglePage, nodeId := some own.id,
           message := s!"carousel \"{own.id}\" has only one page; there is nothing to carousel through." }]
      | _ => [])
      ++ match Json.number? (own.fields.get? "autoAdvanceSeconds") with
        | some seconds =>
          if seconds.value < carouselMinAutoAdvanceSeconds then
            [{ code := .carouselAutoAdvanceTooFast, nodeId := some own.id,
               message := s!"carousel \"{own.id}\" has autoAdvanceSeconds {seconds.toText}, below the {carouselMinAutoAdvanceSeconds}s floor a reader can follow." }]
          else []
        | none => []
  | _ => []

def videoDefaultAutoplay : Bool := true
def videoDefaultMuted : Bool := true

def videoIssues (node : PaywallNode) : List BuilderIssue :=
  if node.type ≠ .leaf .video then [] else
  let effectiveAutoplay := (Json.bool? (node.field "autoplay")).getD videoDefaultAutoplay
  let effectiveMuted := (Json.bool? (node.field "muted")).getD videoDefaultMuted
  (if effectiveAutoplay ∧ ¬ effectiveMuted then
    [{ code := .videoAutoplayUnmuted, nodeId := some node.id,
       message := s!"video \"{node.id}\" autoplays with sound; browsers refuse to autoplay unmuted video, so it will not actually play automatically." }]
  else [])
    ++ if ¬ effectiveAutoplay ∧ (node.field "posterUrl").isNone then
      [{ code := .videoNoPoster, nodeId := some node.id,
         message := s!"video \"{node.id}\" does not autoplay and has no posterUrl, so it shows a blank frame until the viewer presses play." }]
    else []

def videoPlaceIssues (node : PaywallNode) (ctx : NodeWalkContext) : List BuilderIssue :=
  if node.type = .leaf .video ∧ ctx.insideCarousel ∧ node.fallback.isNone then
    [{ code := .videoInCarouselNoFallback, nodeId := some node.id,
       message := s!"video \"{node.id}\" is a carousel page with no fallback — a carousel fixes its pages and dots before the video loads, so a video that fails while loading leaves a blank page behind a dot. A fallback fills it." }]
  else []

def lottieMinSpeed : NumberLiteral := { whole := 0, fraction := [1] }
def lottieMaxSpeed : NumberLiteral := { whole := 4 }

def lottieIssues (node : PaywallNode) : List BuilderIssue :=
  match Json.number? (node.field "speed") with
  | some speed =>
    if node.type = .leaf .lottie
        ∧ (speed.value < lottieMinSpeed.value ∨ lottieMaxSpeed.value < speed.value) then
      [{ code := .lottieSpeedOutOfRange, nodeId := some node.id,
         message := s!"lottie \"{node.id}\" has speed {speed.toText}, outside {lottieMinSpeed.toText}–{lottieMaxSpeed.toText} — playback will read as broken rather than stylised." }]
    else []
  | none => []

def isEmptyUrlValue (url : Value) : Bool := ((Json.text? url).map isBlank).getD true

def emptyMediaUrlIssues (node : PaywallNode) (fieldLabel : String) (url : Json) :
    List BuilderIssue :=
  (if isEmptyUrlValue (url.get "light") then
    [{ code := .emptyMediaUrl, nodeId := some node.id,
       message := s!"{node.type.name} \"{node.id}\" has an empty {fieldLabel}.light — replace the placeholder before publishing." }]
  else [])
    ++ if (url.get "dark").isSome ∧ isEmptyUrlValue (url.get "dark") then
      [{ code := .emptyMediaUrl, nodeId := some node.id,
         message := s!"{node.type.name} \"{node.id}\" has an empty {fieldLabel}.dark — replace the placeholder before publishing, or remove the dark override." }]
    else []

def mediaIssues (node : PaywallNode) : List BuilderIssue :=
  (if node.type ∈ [.leaf .image, .leaf .video, .leaf .lottie] then
    emptyMediaUrlIssues node "url" ((node.field "url").getD .null) else [])
    ++ match node.field "posterUrl" with
      | some posterUrl =>
        if node.type = .leaf .video then emptyMediaUrlIssues node "posterUrl" posterUrl else []
      | none => []

def isEmptyUrlAction (action : Value) : Bool :=
  match action with
  | some action =>
    Json.text? (action.get "kind") = some "url" && isEmptyUrlValue (action.get "url")
  | none => false

def actionIssues (node : PaywallNode) : List BuilderIssue :=
  (if node.type = .leaf .button ∧ isEmptyUrlAction (node.field "action") then
    [{ code := .emptyActionUrl, nodeId := some node.id,
       message := s!"button \"{node.id}\" has an empty url action — replace the placeholder before publishing." }]
  else [])
    ++ if node.type = .leaf .footerLinks then
      (Json.elements (node.field "links")).flatMap fun link =>
        if isEmptyUrlAction (link.get "action") then
          [{ code := .emptyActionUrl, nodeId := some node.id,
             message := s!"footerLinks \"{node.id}\" has a link with an empty url action — replace the placeholder before publishing." }]
        else []
    else []

def checkedKeys (node : PaywallNode) : List (Option String) :=
  -- The names of the keys a node contributes, itself or by an override. No name comes of a key that
  -- cannot be converted.
  (((localizedKeysOf node).map Json.propertyKey) ++ (overrideLocKeys node).map some).eraseDups

def BuilderConfig.defaultLocaleTable (config : BuilderConfig) : TextRecord :=
  (recordAt config.localizations config.defaultLocale).getD .empty

def locKeyIssues (config : BuilderConfig) (node : PaywallNode) : List BuilderIssue :=
  (checkedKeys node).flatMap fun key =>
    let name := key.getD ""
    if ¬ ∃ k ∈ key, config.defaultLocaleTable.hasOwn k then
      [{ code := .unknownLocKey, nodeId := some node.id, key := some name,
         message := s!"Key \"{name}\" (node \"{node.id}\") has no entry in the default locale (\"{config.defaultLocale}\")." }]
    else if isMissingLocaleValue (config.defaultLocaleTable.readName key) then
      [{ code := .emptyLocValue, nodeId := some node.id, key := some name,
         message := s!"Key \"{name}\" (node \"{node.id}\") is blank in the default locale (\"{config.defaultLocale}\") — fill it in before publishing." }]
    else []

def packageIssues (offeringPackageIds : List String) (node : PaywallNode) : List BuilderIssue :=
  if node.type ≠ .packageList then [] else
  let texts := (Json.elements (node.field "packageIds")).filterMap fun id => Json.text? (some id)
  (texts.flatMap fun packageId =>
    if packageId ∈ offeringPackageIds then [] else
    [{ code := .foreignPackageId, nodeId := some node.id,
       message := s!"packageList \"{node.id}\" references package id \"{packageId}\" which is not in the offering." }])
    ++ match Json.text? (node.field "defaultSelected") with
      | some selected =>
        if selected ∈ offeringPackageIds then [] else
        [{ code := .foreignPackageId, nodeId := some node.id,
           message := s!"packageList \"{node.id}\" defaultSelected \"{selected}\" is not in the offering." }]
      | none => []

def cellTemplateIssues (node : PaywallNode) (ctx : NodeWalkContext) : List BuilderIssue :=
  (if ctx.insideCellTemplate ∧ node.type ∈ [.packageList, .leaf .purchaseButton] then
    [{ code := .cellTemplateBadNode, nodeId := some node.id,
       message := s!"Node \"{node.id}\" (type \"{node.type.name}\") is not allowed inside a cellTemplate subtree." }]
  else [])
    ++ if ctx.insideCellTemplate then [] else
      node.overrides.flatMap fun override =>
        if override.when = .selected then
          [{ code := .overrideSelectedOutsideCell, nodeId := some node.id,
             message := s!"Node \"{node.id}\" has a \"selected\" override but is not inside any cellTemplate subtree; it will never match." }]
        else []

def overridePropIssues (node : PaywallNode) : List BuilderIssue :=
  node.overrides.flatMap fun override =>
    override.props.entries.flatMap fun prop =>
      if prop.1 ∈ overridablePropKeys node.type then [] else
      [{ code := .overrideBadProp, nodeId := some node.id, key := some prop.1,
         message := s!"Node \"{node.id}\" (type \"{node.type.name}\") has an override prop \"{prop.1}\" that is not overridable for this node type." }]

def duplicateIdIssues (nodes : List PaywallNode) : List BuilderIssue :=
  let ids := nodes.map PaywallNode.id
  ids.eraseDups.flatMap fun id =>
    let count := ids.count id
    if 1 < count then
      [{ code := .duplicateNodeId, nodeId := some id,
         message := s!"Node id \"{id}\" is used by {count} nodes; ids must be unique across the tree." }]
    else []

def stickyFooterIssues (rootChildIds : List String) (nodes : List PaywallNode) :
    List BuilderIssue :=
  let stickyFooterNodes := nodes.filter fun n => n.type = .container .stickyFooter
  (stickyFooterNodes.flatMap fun node =>
    if node.id ∈ rootChildIds then [] else
    [{ code := .stickyFooterNotAtRoot, nodeId := some node.id,
       message := s!"stickyFooter \"{node.id}\" is not a direct child of the root — it will render inline, not pinned." }])
    ++ if 1 < stickyFooterNodes.length then
      [{ code := .multipleStickyFooters,
         message := s!"{stickyFooterNodes.length} stickyFooter nodes found; only the last one that is a direct child of the root is pinned — the others render inline." }]
    else []

def allPlatforms : List VisibilityPlatform := [.ios, .android, .web]

def ownPlatforms (node : PaywallNode) : List VisibilityPlatform :=
  match (node.own.visibility.getD {}).platform with
  | none | some [] => allPlatforms
  | some platforms => platforms

structure CommerceReach where
  packageLists : List (List VisibilityPlatform) := []
  purchaseButtons : List (List VisibilityPlatform) := []

def CommerceReach.append (a b : CommerceReach) : CommerceReach :=
  ⟨a.packageLists ++ b.packageLists, a.purchaseButtons ++ b.purchaseButtons⟩

def effectivePlatforms (inherited : List VisibilityPlatform) (node : PaywallNode) :
    List VisibilityPlatform :=
  inherited.filter fun platform => platform ∈ ownPlatforms node

mutual

def collectCommerceReach (inherited : List VisibilityPlatform) : PaywallNode → CommerceReach
  | .container t own children fallback =>
    let effective := effectivePlatforms inherited (.container t own children fallback)
    (reachOfChildren effective children).append (reachOfOptional effective fallback)
  | .packageList own cellTemplate fallback =>
    let effective := effectivePlatforms inherited (.packageList own cellTemplate fallback)
    CommerceReach.append { packageLists := [effective] }
      ((reachOfOptional effective cellTemplate).append (reachOfOptional effective fallback))
  | .leaf t own fallback =>
    let effective := effectivePlatforms inherited (.leaf t own fallback)
    CommerceReach.append { purchaseButtons := if t = .purchaseButton then [effective] else [] }
      (reachOfOptional effective fallback)

def reachOfChildren (effective : List VisibilityPlatform) : List PaywallNode → CommerceReach
  | [] => {}
  | node :: rest => (collectCommerceReach effective node).append (reachOfChildren effective rest)

def reachOfOptional (effective : List VisibilityPlatform) : Option PaywallNode → CommerceReach
  | none => {}
  | some node => collectCommerceReach effective node

end

def commerceIssues (root : PaywallNode) : List BuilderIssue :=
  let reach := collectCommerceReach allPlatforms root
  let brokenPlatforms := allPlatforms.filter fun platform =>
    reach.packageLists.any (fun s => platform ∈ s) && !reach.purchaseButtons.any fun s => platform ∈ s
  if brokenPlatforms = [] then [] else
  let names := ", ".intercalate (brokenPlatforms.map VisibilityPlatform.name)
  let place :=
    if brokenPlatforms.length = allPlatforms.length then "no purchaseButton renders on any platform"
    else s!"no purchaseButton renders on {names}"
  [{ code := .missingPurchaseButton,
     message := s!"A packageList is present but {place}, so those users cannot buy." }]

def localeGapIssues (config : BuilderConfig) : List BuilderIssue :=
  let usedKeys := ((collectLocalizationUsages config.root).map fun u =>
    Json.propertyKey u.key).eraseDups
  config.localizations.entries.flatMap fun (locale, table) =>
    if locale = config.defaultLocale then [] else
    usedKeys.flatMap fun key =>
      let name := key.getD ""
      if isMissingLocaleValue (config.defaultLocaleTable.readName key) then []
      else if isMissingLocaleValue ((TextRecord.own table).readName key) then
        [{ code := .localeKeyGap, locale := some locale, key := some name,
           message := s!"Locale \"{locale}\" has no text for key \"{name}\", which is set in the default locale." }]
      else []

def validateBuilderConfig (engine : Engine) (config : BuilderConfig) (opts : ValidateOptions) :
    List BuilderIssue :=
  let nodesWithCtx := walkNodes {} config.root
  let allNodes := nodesWithCtx.map Prod.fst
  let rootChildIds := config.rootChildren.map PaywallNode.id
  duplicateIdIssues allNodes
    ++ allNodes.flatMap visibilityIssues
    ++ allNodes.flatMap iconIssues
    ++ allNodes.flatMap rowIssues
    ++ stickyFooterIssues rootChildIds allNodes
    ++ allNodes.flatMap (countdownIssues engine opts.now)
    ++ allNodes.flatMap carouselIssues
    ++ allNodes.flatMap videoIssues
    ++ nodesWithCtx.flatMap (fun entry => videoPlaceIssues entry.1 entry.2)
    ++ allNodes.flatMap lottieIssues
    ++ allNodes.flatMap mediaIssues
    ++ allNodes.flatMap actionIssues
    ++ allNodes.flatMap (locKeyIssues config)
    ++ allNodes.flatMap (packageIssues opts.offeringPackageIds)
    ++ commerceIssues config.root
    ++ nodesWithCtx.flatMap (fun entry => cellTemplateIssues entry.1 entry.2)
    ++ allNodes.flatMap overridePropIssues
    ++ localeGapIssues config

end Rovenue.Paywall
