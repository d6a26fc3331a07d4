import Rovenue.Graph.OneHole
import Rovenue.Paywall.Schema

/-! `applyTreeOp`: how the builder and the assistant edit the node tree of a paywall. -/

namespace Rovenue.Paywall
open Js
open Txn (Table)

inductive PaywallTreeOp where
  | insert (parentId : String) (index : ℤ) (subtree : PaywallNode)
  | replace (nodeId : String) (subtree : PaywallNode)
  | remove (nodeId : String)
  | updateProps (nodeId : String) (patch : Table String Json)
  | setLocalizations (locale : String) (entries : Table String String)

inductive TreeOpError where
  | targetNotFound | notAContainer | indexOutOfRange | cannotRemoveRoot
  deriving DecidableEq, Repr

def TreeOpError.code : TreeOpError → String
  | .targetNotFound => "TARGET_NOT_FOUND"
  | .notAContainer => "NOT_A_CONTAINER"
  | .indexOutOfRange => "INDEX_OUT_OF_RANGE"
  | .cannotRemoveRoot => "CANNOT_REMOVE_ROOT"

def isContainerNode : PaywallNode → Bool
  | .container .. => true
  | _ => false

mutual

def findNode (id : String) : PaywallNode → Option PaywallNode
  | .container t own children fallback =>
    if own.id = id then some (.container t own children fallback)
    else (findNodeIn id children).or (findNodeSlot id fallback)
  | .packageList own cellTemplate fallback =>
    if own.id = id then some (.packageList own cellTemplate fallback)
    else (findNodeSlot id cellTemplate).or (findNodeSlot id fallback)
  | .leaf t own fallback =>
    if own.id = id then some (.leaf t own fallback) else findNodeSlot id fallback

def findNodeIn (id : String) : List PaywallNode → Option PaywallNode
  | [] => none
  | child :: rest => (findNode id child).or (findNodeIn id rest)

def findNodeSlot (id : String) : Option PaywallNode → Option PaywallNode
  | none => none
  | some node => findNode id node

end

def childIndex (id : String) (children : List PaywallNode) : Option ℕ :=
  children.findIdx? fun c => c.id = id

mutual

def findParent (id : String) : PaywallNode → Option (PaywallNode × ℕ)
  | .container t own children fallback =>
    match childIndex id children with
    | some index => some (.container t own children fallback, index)
    | none => (findParentIn id children).or (findParentSlot id fallback)
  | .packageList _ cellTemplate fallback =>
    (findParentSlot id cellTemplate).or (findParentSlot id fallback)
  | .leaf _ _ fallback => findParentSlot id fallback

def findParentIn (id : String) : List PaywallNode → Option (PaywallNode × ℕ)
  | [] => none
  | child :: rest => (findParent id child).or (findParentIn id rest)

def findParentSlot (id : String) : Option PaywallNode → Option (PaywallNode × ℕ)
  | none => none
  | some node => findParent id node

end

section
variable (targetId : String) (transform : PaywallNode → PaywallNode)

mutual

def transformNode : PaywallNode → PaywallNode
  | .container t own children fallback =>
    if own.id = targetId then transform (.container t own children fallback)
    else .container t own (transformChildren children) (transformSlot fallback)
  | .packageList own cellTemplate fallback =>
    if own.id = targetId then transform (.packageList own cellTemplate fallback)
    else .packageList own (transformSlot cellTemplate) (transformSlot fallback)
  | .leaf t own fallback =>
    if own.id = targetId then transform (.leaf t own fallback)
    else .leaf t own (transformSlot fallback)

def transformChildren : List PaywallNode → List PaywallNode
  | [] => []
  | child :: rest => transformNode child :: transformChildren rest

def transformSlot : Option PaywallNode → Option PaywallNode
  | none => none
  | some node => some (transformNode node)

end

end

def withChildren (edit : List PaywallNode → List PaywallNode) : PaywallNode → PaywallNode
  -- `if (!isContainerNode(node)) return node; …; return { ...node, children }`
  | .container t own children fallback => .container t own (edit children) fallback
  | node => node

def BuilderConfig.withRoot (config : BuilderConfig) : PaywallNode → BuilderConfig
  -- `{ ...config, root: nextRoot }`. The cast to a stack is not checked.
  | .container _ own children fallback =>
    { config with rootOwn := own, rootChildren := children, rootFallback := fallback }
  | _ => config

def spreadOver (existing entries : Table String String) : Table String String :=
  entries.entries.foldl (fun merged entry => merged.set entry.1 entry.2) existing

def applyTreeOp (spread : PaywallNode → Table String Json → PaywallNode) (config : BuilderConfig) :
    PaywallTreeOp → Except TreeOpError BuilderConfig
  -- `spread` is `{ ...node, ...patch }` read as a node, which no schema checks
  | .insert parentId index subtree =>
    match findNode parentId config.root with
    | none => .error .targetNotFound
    | some (.container _ _ children _) =>
      if index < 0 ∨ (children.length : ℤ) < index then .error .indexOutOfRange
      else
        let insertAt := withChildren fun children => children.insertIdx index.toNat subtree
        .ok (config.withRoot (transformNode parentId insertAt config.root))
    | some _ => .error .notAContainer
  | .replace nodeId subtree =>
    if nodeId = config.root.id then .error .cannotRemoveRoot
    else match findNode nodeId config.root with
      | none => .error .targetNotFound
      | some _ =>
        .ok (config.withRoot (transformNode nodeId (fun _ => subtree) config.root))
  | .remove nodeId =>
    if nodeId = config.root.id then .error .cannotRemoveRoot
    else match findParent nodeId config.root with
      | none => .error .targetNotFound
      | some (parent, index) =>
        let removeAt := withChildren fun children => children.eraseIdx index
        .ok (config.withRoot (transformNode parent.id removeAt config.root))
  | .updateProps nodeId patch =>
    match findNode nodeId config.root with
    | none => .error .targetNotFound
    | some _ =>
      .ok (config.withRoot (transformNode nodeId (fun node => spread node patch) config.root))
  | .setLocalizations locale entries =>
    let existing := (config.localizations.get? locale).getD Table.empty
    .ok { config with
      localizations := config.localizations.set locale (spreadOver existing entries) }

mutual

def nodeIds : PaywallNode → List String
  | .container _ own children fallback => own.id :: (childIds children ++ slotIds fallback)
  | .packageList own cellTemplate fallback => own.id :: (slotIds cellTemplate ++ slotIds fallback)
  | .leaf _ own fallback => own.id :: slotIds fallback

def childIds : List PaywallNode → List String
  | [] => []
  | child :: rest => nodeIds child ++ childIds rest

def slotIds : Option PaywallNode → List String
  | none => []
  | some node => nodeIds node

end

inductive Slot where
  | child (index : ℕ)
  | cellTemplate
  | fallback
  deriving DecidableEq

def PaywallNode.slot : PaywallNode → Slot → Option PaywallNode
  | .container _ _ children _, .child index => children[index]?
  | .packageList _ cellTemplate _, .cellTemplate => cellTemplate
  | node, .fallback => node.fallback
  | _, _ => none

inductive Frame where
  | child (type : ContainerType) (own : NodeOwn) (before after : List PaywallNode)
      (fallback : Option PaywallNode)
  | cellTemplate (own : NodeOwn) (fallback : Option PaywallNode)
  | containerFallback (type : ContainerType) (own : NodeOwn) (children : List PaywallNode)
  | packageListFallback (own : NodeOwn) (cellTemplate : Option PaywallNode)
  | leafFallback (type : LeafType) (own : NodeOwn)

def Frame.fill : Frame → PaywallNode → PaywallNode
  | .child t own before after fallback, node =>
    .container t own (before ++ node :: after) fallback
  | .cellTemplate own fallback, node => .packageList own (some node) fallback
  | .containerFallback t own children, node => .container t own children (some node)
  | .packageListFallback own template, node => .packageList own template (some node)
  | .leafFallback t own, node => .leaf t own (some node)

def Frame.step : Frame → Slot
  | .child _ _ before _ _ => .child before.length
  | .cellTemplate .. => .cellTemplate
  | _ => .fallback

def Frame.ids : Frame → List String
  | .child _ own before after fallback =>
    own.id :: (childIds before ++ (childIds after ++ slotIds fallback))
  | .cellTemplate own fallback => own.id :: slotIds fallback
  | .containerFallback _ own children => own.id :: childIds children
  | .packageListFallback own template => own.id :: slotIds template
  | .leafFallback _ own => [own.id]

theorem childIds_eq (children : List PaywallNode) : childIds children = children.flatMap nodeIds := by
  induction children with
  | nil => rfl
  | cons child rest ih => rw [childIds, ih, List.flatMap_cons]

theorem id_mem_nodeIds (node : PaywallNode) : node.id ∈ nodeIds node := by
  cases node <;> rw [nodeIds] <;> exact List.mem_cons_self

theorem nodeIds_fill (f : Frame) (node : PaywallNode) :
    (nodeIds (f.fill node)).Perm (f.ids ++ nodeIds node) := by
  cases f with
  | child t own before after fallback =>
    simp only [Frame.fill, nodeIds, Frame.ids, childIds_eq, List.flatMap_append, List.flatMap_cons,
      List.cons_append, List.append_assoc]
    have hlast : (nodeIds node ++ (after.flatMap nodeIds ++ slotIds fallback)).Perm
        (after.flatMap nodeIds ++ (slotIds fallback ++ nodeIds node)) := by
      rw [← List.append_assoc (after.flatMap nodeIds)]
      exact List.perm_append_comm
    exact (hlast.append_left _).cons _
  | cellTemplate own fallback =>
    simp only [Frame.fill, nodeIds, Frame.ids, slotIds, List.cons_append]
    exact List.perm_append_comm.cons _
  | containerFallback t own children =>
    simp only [Frame.fill, nodeIds, Frame.ids, slotIds, List.cons_append]
    exact .refl _
  | packageListFallback own template =>
    simp only [Frame.fill, nodeIds, Frame.ids, slotIds, List.cons_append]
    exact .refl _
  | leafFallback t own =>
    simp only [Frame.fill, nodeIds, Frame.ids, slotIds, List.cons_append, List.nil_append]
    exact .refl _

theorem exists_fill (node : PaywallNode) (id : String) (h : id ∈ nodeIds node) :
    node.id = id ∨ ∃ f c, node = Frame.fill f c ∧ id ∈ nodeIds c := by
  have hslot : ∀ {slot : Option PaywallNode}, id ∈ slotIds slot →
      ∃ c, slot = some c ∧ id ∈ nodeIds c := by
    intro slot h
    cases slot with
    | none => cases h
    | some c => exact ⟨c, rfl, by rwa [slotIds] at h⟩
  cases node with
  | container t own children fallback =>
    rw [nodeIds, List.mem_cons, List.mem_append, childIds_eq, List.mem_flatMap] at h
    obtain rfl | ⟨c, hc, hid⟩ | h := h
    · exact .inl rfl
    · obtain ⟨before, after, rfl⟩ := List.append_of_mem hc
      exact .inr ⟨.child t own before after fallback, c, rfl, hid⟩
    · obtain ⟨c, rfl, hid⟩ := hslot h
      exact .inr ⟨.containerFallback t own children, c, rfl, hid⟩
  | packageList own template fallback =>
    rw [nodeIds, List.mem_cons, List.mem_append] at h
    obtain rfl | h | h := h
    · exact .inl rfl
    · obtain ⟨c, rfl, hid⟩ := hslot h
      exact .inr ⟨.cellTemplate own fallback, c, rfl, hid⟩
    · obtain ⟨c, rfl, hid⟩ := hslot h
      exact .inr ⟨.packageListFallback own template, c, rfl, hid⟩
  | leaf t own fallback =>
    rw [nodeIds, List.mem_cons] at h
    obtain rfl | h := h
    · exact .inl rfl
    · obtain ⟨c, rfl, hid⟩ := hslot h
      exact .inr ⟨.leafFallback t own, c, rfl, hid⟩

def paywallFrames : Graph.Frames PaywallNode Frame Slot String (NodeType × NodeOwn) where
  key := PaywallNode.id
  keys := nodeIds
  label node := (node.type, node.own)
  slot := PaywallNode.slot
  fill := Frame.fill
  step := Frame.step
  around := Frame.ids
  keys_fill := nodeIds_fill
  key_fill f _ := by cases f <;> exact List.mem_cons_self
  key_mem := id_mem_nodeIds
  label_fill f _ _ := by cases f <;> rfl
  slot_fill f node := by
    cases f with
    | child t own before after fallback =>
      show (before ++ node :: after)[before.length]? = some node
      rw [List.getElem?_append_right le_rfl, Nat.sub_self]
      rfl
    | _ => rfl
  slot_other f node node' s h := by
    cases f with
    | child t own before after fallback =>
      cases s with
      | child index =>
        have hindex : index ≠ before.length := fun heq => h (heq ▸ rfl)
        show (before ++ node :: after)[index]? = (before ++ node' :: after)[index]?
        rcases Nat.lt_or_gt_of_ne hindex with hlt | hgt
        · rw [List.getElem?_append_left hlt, List.getElem?_append_left hlt]
        · rw [List.getElem?_append_right hgt.le, List.getElem?_append_right hgt.le]
          obtain ⟨d, hd⟩ := Nat.exists_eq_add_of_lt hgt
          have hshift : index - before.length = d + 1 := by omega
          rw [hshift, List.getElem?_cons_succ, List.getElem?_cons_succ]
      | _ => rfl
    | cellTemplate own fallback => cases s <;> first | rfl | exact absurd rfl h
    | _ => cases s <;> first | rfl | exact absurd rfl h
  opened := exists_fill

end Rovenue.Paywall
