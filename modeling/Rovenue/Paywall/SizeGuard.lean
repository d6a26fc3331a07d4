import Rovenue.Graph.Unfolding
import Rovenue.Paywall.Validate

/-! `measureNodeTree` against the recursions that it guards. It goes over children and fallbacks,
they go over cell templates too. -/

namespace Rovenue.Paywall
open Js
open Graph (Unfolding)

def isObject : Json → Bool
  | .arr _ | .obj _ => true
  | _ => false

def measuredSlots (value : Json) : List Json :=
  Json.elements (value.get "children") ++ (value.get "fallback").toList.filter isObject

def templateSlot (value : Json) : List Json := (value.get "cellTemplate").toList

theorem sizeOf_get {value c : Json} {name : String} (h : value.get name = some c) :
    sizeOf c < sizeOf value := by
  cases value with
  | obj fields =>
    have hmem : (name, c) ∈ fields := by
      have hfields : fields.lookup name = some c := h
      obtain ⟨before, after, rfl, -⟩ := List.lookup_eq_some_iff.1 hfields
      simp
    have hlt := List.sizeOf_lt_of_mem hmem
    have hpair : sizeOf (name, c) = 1 + sizeOf name + sizeOf c := rfl
    rw [Json.obj.sizeOf_spec]
    omega
  | _ => cases h

theorem sizeOf_measuredSlots {value c : Json} (h : c ∈ measuredSlots value) :
    sizeOf c < sizeOf value := by
  obtain h | h := List.mem_append.1 h
  · cases hget : value.get "children" with
    | none =>
      rw [hget] at h
      cases h
    | some children =>
      rw [hget] at h
      have hlt := sizeOf_get hget
      cases children with
      | arr elements =>
        have helt : sizeOf c < sizeOf elements := List.sizeOf_lt_of_mem h
        rw [Json.arr.sizeOf_spec] at hlt
        omega
      | _ => cases h
  · exact sizeOf_get (Option.mem_toList.1 (List.mem_filter.1 h).1)

theorem sizeOf_templateSlot {value c : Json} (h : c ∈ templateSlot value) :
    sizeOf c < sizeOf value := sizeOf_get (Option.mem_toList.1 h)

def candidateTree : Unfolding Json where
  isNode := isObject
  kids value := measuredSlots value ++ templateSlot value
  shrinks := ⟨sizeOf, fun _ _ h =>
    (List.mem_append.1 h).elim sizeOf_measuredSlots sizeOf_templateSlot⟩

def PaywallNode.slots : PaywallNode → List PaywallNode
  | .container _ _ children fallback => children ++ fallback.toList
  | .packageList _ cellTemplate fallback => cellTemplate.toList ++ fallback.toList
  | .leaf _ _ fallback => fallback.toList

theorem sizeOf_toList {o : Option PaywallNode} {c : PaywallNode} (h : c ∈ o.toList) :
    sizeOf c < sizeOf o := by
  cases o with
  | none => cases h
  | some node =>
    obtain rfl := List.mem_singleton.1 h
    show sizeOf c < 1 + sizeOf c
    omega

theorem sizeOf_slots {node c : PaywallNode} (h : c ∈ node.slots) : sizeOf c < sizeOf node := by
  cases node with
  | container t own children fallback =>
    obtain h | h := List.mem_append.1 h
    · have hlt := List.sizeOf_lt_of_mem h
      simp only [PaywallNode.container.sizeOf_spec]
      omega
    · have hlt := sizeOf_toList h
      simp only [PaywallNode.container.sizeOf_spec]
      omega
  | packageList own cellTemplate fallback =>
    obtain h | h := List.mem_append.1 h <;> have hlt := sizeOf_toList h
    · simp only [PaywallNode.packageList.sizeOf_spec]
      omega
    · simp only [PaywallNode.packageList.sizeOf_spec]
      omega
  | leaf t own fallback =>
    have hlt := sizeOf_toList h
    simp only [PaywallNode.leaf.sizeOf_spec]
    omega

def nodeTree : Unfolding PaywallNode where
  -- what `walkNodes`, `findNode` and `transformNode` go through
  isNode _ := true
  kids := PaywallNode.slots
  shrinks := ⟨sizeOf, fun _ _ => sizeOf_slots⟩

mutual

/-- What a successful parse keeps of the structure. -/
def ReadAs : PaywallNode → Json → Prop
  | .container t own children fallback, value =>
    value.get "type" = some (.str (NodeType.container t).name) ∧
      value.get "id" = some (.str own.id) ∧
      (∃ elements, value.get "children" = some (.arr elements) ∧ ReadEach children elements) ∧
      ReadSlot fallback (value.get "fallback")
  | .packageList own cellTemplate fallback, value =>
    value.get "type" = some (.str NodeType.packageList.name) ∧
      value.get "id" = some (.str own.id) ∧ ReadSlot cellTemplate (value.get "cellTemplate") ∧
      ReadSlot fallback (value.get "fallback")
  | .leaf t own fallback, value =>
    value.get "type" = some (.str (NodeType.leaf t).name) ∧
      value.get "id" = some (.str own.id) ∧ ReadSlot fallback (value.get "fallback")

def ReadEach : List PaywallNode → List Json → Prop
  | [], elements => elements = []
  | node :: rest, elements => ∃ value values, elements = value :: values ∧ ReadAs node value ∧
      ReadEach rest values

def ReadSlot : Option PaywallNode → Value → Prop
  | none, slot => slot = none
  | some node, slot => ∃ value, slot = some value ∧ ReadAs node value

end

def CoveredBy (nodes : List PaywallNode) (values : List Json) : Prop :=
  (nodes.map nodeTree.nodes).sum ≤ (values.map candidateTree.nodes).sum ∧
    ∀ c ∈ nodes, ∃ v ∈ values, nodeTree.depth c ≤ candidateTree.depth v

theorem CoveredBy.append {nodes nodes' : List PaywallNode} {values values' : List Json}
    (h : CoveredBy nodes values) (h' : CoveredBy nodes' values') :
    CoveredBy (nodes ++ nodes') (values ++ values') := by
  constructor
  · rw [List.map_append, List.map_append, List.sum_append, List.sum_append]
    exact Nat.add_le_add h.1 h'.1
  · intro c hc
    obtain hc | hc := List.mem_append.1 hc
    · obtain ⟨v, hv, hle⟩ := h.2 c hc
      exact ⟨v, List.mem_append_left _ hv, hle⟩
    · obtain ⟨v, hv, hle⟩ := h'.2 c hc
      exact ⟨v, List.mem_append_right _ hv, hle⟩

theorem CoveredBy.mono {nodes : List PaywallNode} {values values' : List Json}
    (h : CoveredBy nodes values) (hsub : values.Sublist values') : CoveredBy nodes values' :=
  ⟨h.1.trans ((hsub.map candidateTree.nodes).sum_le_sum fun _ _ => Nat.zero_le _),
    fun c hc => (h.2 c hc).imp fun _ hv => ⟨hsub.subset hv.1, hv.2⟩⟩

theorem CoveredBy.perm {nodes : List PaywallNode} {values values' : List Json}
    (h : CoveredBy nodes values) (hperm : values.Perm values') : CoveredBy nodes values' :=
  ⟨h.1.trans (hperm.map candidateTree.nodes).sum_eq.le,
    fun c hc => (h.2 c hc).imp fun _ hv => ⟨hperm.subset hv.1, hv.2⟩⟩

theorem CoveredBy.node {node : PaywallNode} {value : Json} (hobject : isObject value = true)
    (h : CoveredBy node.slots (candidateTree.kids value)) :
    nodeTree.nodes node ≤ candidateTree.nodes value ∧
      nodeTree.depth node ≤ candidateTree.depth value := by
  have hnode : nodeTree.isNode node = true := rfl
  have hvalue : candidateTree.isNode value = true := hobject
  constructor
  · rw [Unfolding.nodes_eq hnode, Unfolding.nodes_eq hvalue]
    exact Nat.add_le_add_left h.1 1
  · have hself : 0 + candidateTree.depth value ≤ candidateTree.depth value := by omega
    obtain ⟨hone, hkids⟩ := (Unfolding.depth_le_iff hvalue).1 hself
    have hle : 0 + nodeTree.depth node ≤ candidateTree.depth value := by
      refine (Unfolding.depth_le_iff hnode).2 ⟨hone, fun c hc => ?_⟩
      obtain ⟨v, hv, hcv⟩ := h.2 c hc
      have hkid := hkids v hv
      omega
    omega

theorem isObject_of_get {value : Json} {name : String} {c : Json} (h : value.get name = some c) :
    isObject value = true := by
  cases value with
  | obj fields => rfl
  | _ => cases h

theorem isObject_of_readAs {node : PaywallNode} {value : Json} (h : ReadAs node value) :
    isObject value = true := by
  cases node <;> rw [ReadAs] at h <;> exact isObject_of_get h.1

mutual

theorem ReadAs.covered : (node : PaywallNode) → (value : Json) → ReadAs node value →
    nodeTree.nodes node ≤ candidateTree.nodes value ∧
      nodeTree.depth node ≤ candidateTree.depth value
  | .container t own children fallback, value, h => by
    have hobject := isObject_of_readAs h
    rw [ReadAs] at h
    obtain ⟨-, -, ⟨elements, hchildren, heach⟩, hfallback⟩ := h
    have hmeasured : CoveredBy (children ++ fallback.toList) (measuredSlots value) := by
      unfold measuredSlots
      rw [hchildren]
      exact (ReadEach.covered children elements heach).append
        (ReadSlot.covered fallback (value.get "fallback") hfallback)
    exact (hmeasured.mono (List.sublist_append_left ..)).node hobject
  | .packageList own cellTemplate fallback, value, h => by
    have hobject := isObject_of_readAs h
    rw [ReadAs] at h
    obtain ⟨-, -, htemplate, hfallback⟩ := h
    have hslots := ((ReadSlot.covered cellTemplate (value.get "cellTemplate") htemplate).append
      (ReadSlot.covered fallback (value.get "fallback") hfallback)).perm List.perm_append_comm
    refine CoveredBy.node hobject (hslots.mono ?_)
    exact (List.sublist_append_right ..).append List.filter_sublist
  | .leaf t own fallback, value, h => by
    have hobject := isObject_of_readAs h
    rw [ReadAs] at h
    obtain ⟨-, -, hfallback⟩ := h
    have hslots := ReadSlot.covered fallback (value.get "fallback") hfallback
    exact CoveredBy.node hobject (hslots.mono
      ((List.sublist_append_right ..).trans (List.sublist_append_left ..)))

theorem ReadEach.covered : (nodes : List PaywallNode) → (values : List Json) →
    ReadEach nodes values → CoveredBy nodes values
  | [], _, _ => ⟨Nat.zero_le _, nofun⟩
  | node :: rest, values, h => by
    rw [ReadEach] at h
    obtain ⟨value, others, rfl, hread, heach⟩ := h
    obtain ⟨hcount, hdeep⟩ := ReadAs.covered node value hread
    have hhead : CoveredBy [node] [value] :=
      ⟨by simpa using hcount, fun c hc => ⟨value, List.mem_singleton_self _,
        List.mem_singleton.1 hc ▸ hdeep⟩⟩
    exact hhead.append (ReadEach.covered rest others heach)

theorem ReadSlot.covered : (slot : Option PaywallNode) → (value : Value) → ReadSlot slot value →
    CoveredBy slot.toList (value.toList.filter isObject)
  | none, _, _ => ⟨Nat.zero_le _, nofun⟩
  | some node, value, h => by
    rw [ReadSlot] at h
    obtain ⟨value, rfl, hread⟩ := h
    obtain ⟨hcount, hdeep⟩ := ReadAs.covered node value hread
    have hkept : ((some value).toList.filter isObject) = [value] := by
      simp [isObject_of_readAs hread]
    rw [hkept]
    exact ⟨by simpa using hcount, fun c hc => ⟨value, List.mem_singleton_self _,
      List.mem_singleton.1 hc ▸ hdeep⟩⟩

end

theorem nodes_slots (root : PaywallNode) :
    nodeTree.nodes root = 1 + (root.slots.map nodeTree.nodes).sum := Unfolding.nodes_eq rfl

mutual

/-- A walk is as long as the tree has nodes. -/
theorem length_walkNodes (ctx : NodeWalkContext) : (root : PaywallNode) →
    (walkNodes ctx root).length = nodeTree.nodes root
  | .container t own children fallback => by
    rw [walkNodes, List.length_cons, List.length_append, length_walkChildren, length_walkOptional,
      nodes_slots, PaywallNode.slots, List.map_append, List.sum_append, Nat.add_comm]
  | .packageList own cellTemplate fallback => by
    rw [walkNodes, List.length_cons, List.length_append, length_walkOptional, length_walkOptional,
      nodes_slots, PaywallNode.slots, List.map_append, List.sum_append, Nat.add_comm]
  | .leaf t own fallback => by
    rw [walkNodes, List.length_cons, length_walkOptional, nodes_slots, PaywallNode.slots,
      Nat.add_comm]

theorem length_walkChildren (ctx : NodeWalkContext) : (children : List PaywallNode) →
    (walkChildren ctx children).length = (children.map nodeTree.nodes).sum
  | [] => rfl
  | node :: rest => by
    rw [walkChildren, List.length_append, length_walkNodes ctx node, length_walkChildren ctx rest,
      List.map_cons, List.sum_cons]

theorem length_walkOptional (ctx : NodeWalkContext) : (slot : Option PaywallNode) →
    (walkOptional ctx slot).length = (slot.toList.map nodeTree.nodes).sum
  | none => rfl
  | some node => by
    rw [walkOptional, length_walkNodes ctx node]
    simp

end

end Rovenue.Paywall
