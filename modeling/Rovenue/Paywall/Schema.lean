import Rovenue.Js.Json

/-! The builder config of a paywall: a tree of nodes, the texts it names and their
localizations. -/

namespace Rovenue.Paywall
open Js
open Txn (Table)

inductive ContainerType where
  | stack | stickyFooter | carousel
  deriving DecidableEq, Repr

inductive LeafType where
  | text | image | button | purchaseButton | spacer | divider | icon | featureList | timeline
  | socialProof | countdown | video | lottie | footerLinks
  deriving DecidableEq, Repr

inductive NodeType where
  | container (type : ContainerType)
  | packageList
  | leaf (type : LeafType)
  deriving DecidableEq, Repr

def NodeType.name : NodeType → String
  | .container .stack => "stack"
  | .container .stickyFooter => "stickyFooter"
  | .container .carousel => "carousel"
  | .packageList => "packageList"
  | .leaf .text => "text"
  | .leaf .image => "image"
  | .leaf .button => "button"
  | .leaf .purchaseButton => "purchaseButton"
  | .leaf .spacer => "spacer"
  | .leaf .divider => "divider"
  | .leaf .icon => "icon"
  | .leaf .featureList => "featureList"
  | .leaf .timeline => "timeline"
  | .leaf .socialProof => "socialProof"
  | .leaf .countdown => "countdown"
  | .leaf .video => "video"
  | .leaf .lottie => "lottie"
  | .leaf .footerLinks => "footerLinks"

inductive OverrideCondition where
  | introEligible | selected
  deriving DecidableEq, Repr

structure NodeOverride where
  when : OverrideCondition
  props : Table String Json

inductive VisibilityPlatform where
  | ios | android | web
  deriving DecidableEq, Repr

def VisibilityPlatform.name : VisibilityPlatform → String
  | .ios => "ios"
  | .android => "android"
  | .web => "web"

structure NodeVisibility where
  platform : Option (List VisibilityPlatform) := none
  minAppVersion : Option String := none
  maxAppVersion : Option String := none

/-- What a node holds beside its type and its subtrees. `fields` are the properties that its own
type declares. -/
structure NodeOwn where
  id : String
  fields : Table String Json := Table.empty
  overrides : Option (List NodeOverride) := none
  visibility : Option NodeVisibility := none

inductive PaywallNode where
  | container (type : ContainerType) (own : NodeOwn) (children : List PaywallNode)
      (fallback : Option PaywallNode)
  | packageList (own : NodeOwn) (cellTemplate : Option PaywallNode)
      (fallback : Option PaywallNode)
  | leaf (type : LeafType) (own : NodeOwn) (fallback : Option PaywallNode)

namespace PaywallNode

def type : PaywallNode → NodeType
  | .container t .. => .container t
  | .packageList .. => .packageList
  | .leaf t .. => .leaf t

def own : PaywallNode → NodeOwn
  | .container _ own .. | .packageList own .. | .leaf _ own _ => own

def id (node : PaywallNode) : String := node.own.id

def fallback : PaywallNode → Option PaywallNode
  | .container _ _ _ fallback | .packageList _ _ fallback | .leaf _ _ fallback => fallback

def field (node : PaywallNode) (name : String) : Value := node.own.fields.get? name

def withFields (fields : Table String Json) : PaywallNode → PaywallNode
  | .container t own children fallback => .container t { own with fields := fields } children fallback
  | .packageList own cellTemplate fallback =>
    .packageList { own with fields := fields } cellTemplate fallback
  | .leaf t own fallback => .leaf t { own with fields := fields } fallback

variable (node : PaywallNode) (fields : Table String Json) (name : String)

@[simp] theorem type_withFields : (node.withFields fields).type = node.type := by
  cases node <;> rfl

@[simp] theorem own_withFields :
    (node.withFields fields).own = { node.own with fields := fields } := by
  cases node <;> rfl

@[simp] theorem field_withFields : (node.withFields fields).field name = fields.get? name := by
  rw [field, own_withFields]

inductive HasNode : PaywallNode → PaywallNode → Prop
  | self (node : PaywallNode) : HasNode node node
  | child {t own children fallback child node} :
      child ∈ children → HasNode child node → HasNode (.container t own children fallback) node
  | cellTemplate {own cell fallback node} :
      HasNode cell node → HasNode (.packageList own (some cell) fallback) node
  | fallback {root fallback node} :
      root.fallback = some fallback → HasNode fallback node → HasNode root node

end PaywallNode

def overridablePropKeys : NodeType → List String
  | .container .stack => ["spacing", "align", "background", "cornerRadius", "border"]
  | .container .stickyFooter => ["background"]
  | .container .carousel => ["indicatorColor"]
  | .packageList => []
  | .leaf .text => ["key", "color", "align", "background", "cornerRadius"]
  | .leaf .image => ["cornerRadius", "border"]
  | .leaf .button => ["labelKey", "style", "background", "labelColor", "border", "cornerRadius"]
  | .leaf .purchaseButton =>
    ["labelKey", "trialLabelKey", "background", "labelColor", "border", "cornerRadius"]
  | .leaf .spacer => []
  | .leaf .divider => ["color", "thickness"]
  | .leaf .icon => ["name", "color"]
  | .leaf .featureList => ["iconColor"]
  | .leaf .timeline => ["connectorColor"]
  | .leaf .socialProof => ["rating", "starColor"]
  | .leaf .countdown => ["color"]
  | .leaf .video => ["url", "posterUrl"]
  | .leaf .lottie => ["url"]
  | .leaf .footerLinks => ["color", "separator", "align"]

structure ThemeColor where
  light : String
  dark : Option String := none
  deriving DecidableEq

/-- The root is a stack: `rootOwn`, `rootChildren` and `rootFallback` are its parts. -/
structure BuilderConfig where
  defaultLocale : String
  localizations : Table String (Table String String)
  background : Option ThemeColor := none
  rootOwn : NodeOwn
  rootChildren : List PaywallNode
  rootFallback : Option PaywallNode := none

def BuilderConfig.root (config : BuilderConfig) : PaywallNode :=
  .container .stack config.rootOwn config.rootChildren config.rootFallback

end Rovenue.Paywall

/-! Version bounds of a node's visibility. -/

namespace Rovenue.Paywall

def isNumericComponent (part : List Char) : Bool := part ≠ [] && part.all Char.isDigit

def stripZeros (digits : List Char) : List Char :=
  match digits.dropWhile (· = '0') with
  | [] => digits.drop (digits.length - 1)
  | rest => rest

def compareComponent (a b : List Char) : ℤ :=
  let left := stripZeros a
  let right := stripZeros b
  if left.length ≠ right.length then left.length - right.length
  else if left < right then -1
  else if right < left then 1
  else 0

def compareComponents (left right : List (List Char)) : ℤ :=
  let comparisons := (List.range (max left.length right.length)).map fun i =>
    compareComponent (left.getD i ['0']) (right.getD i ['0'])
  (comparisons.find? (· ≠ 0)).getD 0

def compareVersions (a b : String) : Option ℤ :=
  -- `none` is inconclusive: a component is no run of digits
  let left := a.toList.splitOn '.'
  let right := b.toList.splitOn '.'
  if (left ++ right).all isNumericComponent then some (compareComponents left right) else none

example : compareVersions "1.2" "1.2.0" = some 0 := by decide

end Rovenue.Paywall
