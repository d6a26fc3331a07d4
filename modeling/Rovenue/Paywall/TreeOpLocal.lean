import Rovenue.Paywall.TreeOp

/-! An edit of the node tree is local and can be taken back. Each of the three recursions is said
once at a frame; the rest is about a node in its context. -/

namespace Rovenue.Paywall
open Js
open Graph (Frames)
open Txn (Table)

variable {id targetId : String} {transform : PaywallNode → PaywallNode} {node : PaywallNode}

mutual

theorem findNode_none (id : String) : (node : PaywallNode) → id ∉ nodeIds node →
    findNode id node = none
  | .container t own children fallback, h => by
    rw [nodeIds, List.mem_cons, List.mem_append, not_or, not_or] at h
    rw [findNode, if_neg (Ne.symm h.1), findNodeIn_none id children h.2.1,
      findNodeSlot_none id fallback h.2.2]
    rfl
  | .packageList own template fallback, h => by
    rw [nodeIds, List.mem_cons, List.mem_append, not_or, not_or] at h
    rw [findNode, if_neg (Ne.symm h.1), findNodeSlot_none id template h.2.1,
      findNodeSlot_none id fallback h.2.2]
    rfl
  | .leaf t own fallback, h => by
    rw [nodeIds, List.mem_cons, not_or] at h
    rw [findNode, if_neg (Ne.symm h.1), findNodeSlot_none id fallback h.2]

theorem findNodeIn_none (id : String) : (children : List PaywallNode) → id ∉ childIds children →
    findNodeIn id children = none
  | [], _ => rfl
  | child :: rest, h => by
    rw [childIds, List.mem_append, not_or] at h
    rw [findNodeIn, findNode_none id child h.1, findNodeIn_none id rest h.2]
    rfl

theorem findNodeSlot_none (id : String) : (slot : Option PaywallNode) → id ∉ slotIds slot →
    findNodeSlot id slot = none
  | none, _ => rfl
  | some node, h => by
    rw [slotIds] at h
    rw [findNodeSlot, findNode_none id node h]

end

theorem childIndex_none {children : List PaywallNode} (h : ∀ c ∈ children, c.id ≠ id) :
    childIndex id children = none := by
  unfold childIndex
  rw [List.findIdx?_eq_none_iff]
  exact fun c hc => decide_eq_false (h c hc)

theorem ne_of_not_mem_childIds {children : List PaywallNode} (h : id ∉ childIds children) :
    ∀ c ∈ children, c.id ≠ id := by
  intro c hc heq
  rw [childIds_eq, List.mem_flatMap] at h
  exact h ⟨c, hc, heq ▸ id_mem_nodeIds c⟩

mutual

theorem findParent_none (id : String) : (node : PaywallNode) → id ∉ nodeIds node →
    findParent id node = none
  | .container t own children fallback, h => by
    rw [nodeIds, List.mem_cons, List.mem_append, not_or, not_or] at h
    rw [findParent, childIndex_none (ne_of_not_mem_childIds h.2.1)]
    show (findParentIn id children).or (findParentSlot id fallback) = none
    rw [findParentIn_none id children h.2.1, findParentSlot_none id fallback h.2.2]
    rfl
  | .packageList own template fallback, h => by
    rw [nodeIds, List.mem_cons, List.mem_append, not_or, not_or] at h
    rw [findParent, findParentSlot_none id template h.2.1, findParentSlot_none id fallback h.2.2]
    rfl
  | .leaf t own fallback, h => by
    rw [nodeIds, List.mem_cons, not_or] at h
    rw [findParent, findParentSlot_none id fallback h.2]

theorem findParentIn_none (id : String) : (children : List PaywallNode) →
    id ∉ childIds children → findParentIn id children = none
  | [], _ => rfl
  | child :: rest, h => by
    rw [childIds, List.mem_append, not_or] at h
    rw [findParentIn, findParent_none id child h.1, findParentIn_none id rest h.2]
    rfl

theorem findParentSlot_none (id : String) : (slot : Option PaywallNode) → id ∉ slotIds slot →
    findParentSlot id slot = none
  | none, _ => rfl
  | some node, h => by
    rw [slotIds] at h
    rw [findParentSlot, findParent_none id node h]

end

section
variable (targetId : String) (transform : PaywallNode → PaywallNode)

mutual

theorem transformNode_same : (node : PaywallNode) → targetId ∉ nodeIds node →
    transformNode targetId transform node = node
  | .container t own children fallback, h => by
    rw [nodeIds, List.mem_cons, List.mem_append, not_or, not_or] at h
    rw [transformNode, if_neg (Ne.symm h.1), transformChildren_same children h.2.1,
      transformSlot_same fallback h.2.2]
  | .packageList own template fallback, h => by
    rw [nodeIds, List.mem_cons, List.mem_append, not_or, not_or] at h
    rw [transformNode, if_neg (Ne.symm h.1), transformSlot_same template h.2.1,
      transformSlot_same fallback h.2.2]
  | .leaf t own fallback, h => by
    rw [nodeIds, List.mem_cons, not_or] at h
    rw [transformNode, if_neg (Ne.symm h.1), transformSlot_same fallback h.2]

theorem transformChildren_same : (children : List PaywallNode) → targetId ∉ childIds children →
    transformChildren targetId transform children = children
  | [], _ => rfl
  | child :: rest, h => by
    rw [childIds, List.mem_append, not_or] at h
    rw [transformChildren, transformNode_same child h.1, transformChildren_same rest h.2]

theorem transformSlot_same : (slot : Option PaywallNode) → targetId ∉ slotIds slot →
    transformSlot targetId transform slot = slot
  | none, _ => rfl
  | some node, h => by
    rw [slotIds] at h
    rw [transformSlot, transformNode_same node h]

end

end

theorem findNodeIn_append (before after : List PaywallNode) :
    findNodeIn id (before ++ after) = (findNodeIn id before).or (findNodeIn id after) := by
  induction before with
  | nil => rfl
  | cons child rest ih => rw [List.cons_append, findNodeIn, findNodeIn, ih, Option.or_assoc]

theorem findParentIn_append (before after : List PaywallNode) :
    findParentIn id (before ++ after) =
      (findParentIn id before).or (findParentIn id after) := by
  induction before with
  | nil => rfl
  | cons child rest ih => rw [List.cons_append, findParentIn, findParentIn, ih, Option.or_assoc]

theorem transformChildren_append (before after : List PaywallNode) :
    transformChildren targetId transform (before ++ after) =
      transformChildren targetId transform before ++
        transformChildren targetId transform after := by
  induction before with
  | nil => rfl
  | cons child rest ih =>
    rw [List.cons_append, transformChildren, transformChildren, ih, List.cons_append]

theorem findNode_fill (f : Frame) (node : PaywallNode) (h : id ∉ f.ids) :
    findNode id (f.fill node) = findNode id node := by
  cases f with
  | child t own before after fallback =>
    rw [Frame.ids, List.mem_cons, List.mem_append, List.mem_append, not_or, not_or, not_or] at h
    obtain ⟨hown, hbefore, hafter, hfallback⟩ := h
    rw [Frame.fill, findNode, if_neg (Ne.symm hown), findNodeIn_append,
      findNodeIn_none id before hbefore, Option.none_or, findNodeIn, findNodeIn_none id after hafter,
      findNodeSlot_none id fallback hfallback, Option.or_none, Option.or_none]
  | cellTemplate own fallback =>
    rw [Frame.ids, List.mem_cons, not_or] at h
    rw [Frame.fill, findNode, if_neg (Ne.symm h.1), findNodeSlot,
      findNodeSlot_none id fallback h.2, Option.or_none]
  | containerFallback t own children =>
    rw [Frame.ids, List.mem_cons, not_or] at h
    rw [Frame.fill, findNode, if_neg (Ne.symm h.1), findNodeIn_none id children h.2,
      Option.none_or, findNodeSlot]
  | packageListFallback own template =>
    rw [Frame.ids, List.mem_cons, not_or] at h
    rw [Frame.fill, findNode, if_neg (Ne.symm h.1), findNodeSlot_none id template h.2,
      Option.none_or, findNodeSlot]
  | leafFallback t own =>
    rw [Frame.ids, List.mem_singleton] at h
    rw [Frame.fill, findNode, if_neg (Ne.symm h), findNodeSlot]

theorem findParent_fill (f : Frame) (node : PaywallNode) (h : id ∉ f.ids) (hnode : node.id ≠ id) :
    findParent id (f.fill node) = findParent id node := by
  cases f with
  | child t own before after fallback =>
    rw [Frame.ids, List.mem_cons, List.mem_append, List.mem_append, not_or, not_or, not_or] at h
    obtain ⟨-, hbefore, hafter, hfallback⟩ := h
    have hindex : childIndex id (before ++ node :: after) = none := by
      refine childIndex_none fun c hc => ?_
      obtain hc | hc := List.mem_append.1 hc
      · exact ne_of_not_mem_childIds hbefore c hc
      · obtain rfl | hc := List.mem_cons.1 hc
        · exact hnode
        · exact ne_of_not_mem_childIds hafter c hc
    rw [Frame.fill, findParent, hindex]
    show (findParentIn id (before ++ node :: after)).or (findParentSlot id fallback) = _
    rw [findParentIn_append, findParentIn_none id before hbefore, Option.none_or, findParentIn,
      findParentIn_none id after hafter, findParentSlot_none id fallback hfallback,
      Option.or_none, Option.or_none]
  | cellTemplate own fallback =>
    rw [Frame.ids, List.mem_cons, not_or] at h
    rw [Frame.fill, findParent, findParentSlot, findParentSlot_none id fallback h.2,
      Option.or_none]
  | containerFallback t own children =>
    rw [Frame.ids, List.mem_cons, not_or] at h
    rw [Frame.fill, findParent, childIndex_none (ne_of_not_mem_childIds h.2)]
    show (findParentIn id children).or (findParentSlot id (some node)) = _
    rw [findParentIn_none id children h.2, Option.none_or, findParentSlot]
  | packageListFallback own template =>
    rw [Frame.ids, List.mem_cons, not_or] at h
    rw [Frame.fill, findParent, findParentSlot_none id template h.2, Option.none_or,
      findParentSlot]
  | leafFallback t own => rw [Frame.fill, findParent, findParentSlot]

theorem transformNode_fill (f : Frame) (node : PaywallNode) (h : targetId ∉ f.ids) :
    transformNode targetId transform (f.fill node) =
      f.fill (transformNode targetId transform node) := by
  cases f with
  | child t own before after fallback =>
    rw [Frame.ids, List.mem_cons, List.mem_append, List.mem_append, not_or, not_or, not_or] at h
    obtain ⟨hown, hbefore, hafter, hfallback⟩ := h
    rw [Frame.fill, transformNode, if_neg (Ne.symm hown), transformChildren_append,
      transformChildren_same _ _ before hbefore, transformChildren,
      transformChildren_same _ _ after hafter, transformSlot_same _ _ fallback hfallback, Frame.fill]
  | cellTemplate own fallback =>
    rw [Frame.ids, List.mem_cons, not_or] at h
    rw [Frame.fill, transformNode, if_neg (Ne.symm h.1), transformSlot,
      transformSlot_same _ _ fallback h.2, Frame.fill]
  | containerFallback t own children =>
    rw [Frame.ids, List.mem_cons, not_or] at h
    rw [Frame.fill, transformNode, if_neg (Ne.symm h.1), transformChildren_same _ _ children h.2,
      transformSlot, Frame.fill]
  | packageListFallback own template =>
    rw [Frame.ids, List.mem_cons, not_or] at h
    rw [Frame.fill, transformNode, if_neg (Ne.symm h.1), transformSlot_same _ _ template h.2,
      transformSlot, Frame.fill]
  | leafFallback t own =>
    rw [Frame.ids, List.mem_singleton] at h
    rw [Frame.fill, transformNode, if_neg (Ne.symm h), transformSlot, Frame.fill]

theorem findNode_self (h : node.id = id) : findNode id node = some node := by
  cases node <;> exact if_pos h

theorem transformNode_self (h : node.id = targetId) :
    transformNode targetId transform node = transform node := by
  cases node <;> exact if_pos h

end Rovenue.Paywall
