import Rovenue.Js.Flatten
import Rovenue.Paywall.Schema

/-! `diffBuilderConfigs`: two configs compared by the flattened properties of the nodes that a
walk of each tree meets. -/

namespace Rovenue.Paywall
open Js
open Txn (Table)

def OverrideCondition.name : OverrideCondition → String
  | .introEligible => "introEligible"
  | .selected => "selected"

def NodeOverride.toJson (override : NodeOverride) : Json :=
  .obj [("when", .obj [("kind", .str override.when.name)]), ("props", .obj override.props.entries)]

def NodeVisibility.toJson (visibility : NodeVisibility) : Json :=
  .obj ((visibility.platform.toList.map fun platforms =>
      ("platform", .arr (platforms.map fun p => .str p.name)))
    ++ (visibility.minAppVersion.toList.map fun v => ("minAppVersion", .str v))
    ++ visibility.maxAppVersion.toList.map fun v => ("maxAppVersion", .str v))

def ownEntries (node : PaywallNode) : List (String × Json) :=
  ("type", .str node.type.name) :: (node.own.fields.entries
    ++ (node.own.overrides.toList.map fun os => ("overrides", .arr (os.map NodeOverride.toJson)))
    ++ node.own.visibility.toList.map fun v => ("visibility", v.toJson))

def ThemeColor.toJson (color : ThemeColor) : Json :=
  .obj (("light", .str color.light) :: color.dark.toList.map fun dark => ("dark", .str dark))

mutual

def walkedNodes : PaywallNode → List PaywallNode
  -- the nodes the walk meets, in document order: it goes into the children of a stack, the cell
  -- template of a package list and every fallback
  | .container t own children fallback =>
    .container t own children fallback
      :: ((if t = .stack then walkedChildren children else []) ++ walkedOptional fallback)
  | .packageList own cellTemplate fallback =>
    .packageList own cellTemplate fallback
      :: (walkedOptional cellTemplate ++ walkedOptional fallback)
  | .leaf t own fallback => .leaf t own fallback :: walkedOptional fallback

def walkedChildren : List PaywallNode → List PaywallNode
  | [] => []
  | node :: rest => walkedNodes node ++ walkedChildren rest

def walkedOptional : Option PaywallNode → List PaywallNode
  | none => []
  | some node => walkedNodes node

end

section
variable (before after : Table String String)

end

end Rovenue.Paywall
