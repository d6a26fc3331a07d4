import Rovenue.Paywall.TreeOpLocal

/-! What an accepted edit does to the config, when an edit is refused, and the edits that undo each
other. -/

namespace Rovenue.Paywall
open Js
open Graph (Frames)
open Txn (Table)

variable {id : String} {root node : PaywallNode} {C : List Frame}

theorem hasNode_plug (C : List Frame) (node : PaywallNode) :
    (paywallFrames.plug C node).HasNode node := by
  induction C with
  | nil => exact .self node
  | cons f C ih =>
    rw [Frames.plug_cons]
    cases f with
    | child t own before after fallback =>
      exact .child (List.mem_append_right before List.mem_cons_self) ih
    | cellTemplate own fallback => exact .cellTemplate ih
    | containerFallback t own children => exact .fallback rfl ih
    | packageListFallback own template => exact .fallback rfl ih
    | leafFallback t own => exact .fallback rfl ih

theorem exists_plug_of_hasNode (h : root.HasNode node) :
    ∃ C, root = paywallFrames.plug C node := by
  induction h with
  | self node => exact ⟨[], rfl⟩
  | @child t own children fallback child node hchild _ ih =>
    obtain ⟨C, hC⟩ := ih
    obtain ⟨before, after, rfl⟩ := List.append_of_mem hchild
    exact ⟨.child t own before after fallback :: C,
      congrArg (Frame.fill (.child t own before after fallback)) hC⟩
  | @cellTemplate own cell fallback node _ ih =>
    obtain ⟨C, hC⟩ := ih
    exact ⟨.cellTemplate own fallback :: C, congrArg (Frame.fill (.cellTemplate own fallback)) hC⟩
  | @fallback root fallback node hfallback _ ih =>
    obtain ⟨C, hC⟩ := ih
    cases root with
    | container t own children slot =>
      obtain rfl : slot = some fallback := hfallback
      exact ⟨.containerFallback t own children :: C,
        congrArg (Frame.fill (.containerFallback t own children)) hC⟩
    | packageList own template slot =>
      obtain rfl : slot = some fallback := hfallback
      exact ⟨.packageListFallback own template :: C,
        congrArg (Frame.fill (.packageListFallback own template)) hC⟩
    | leaf t own slot =>
      obtain rfl : slot = some fallback := hfallback
      exact ⟨.leafFallback t own :: C, congrArg (Frame.fill (.leafFallback t own)) hC⟩

theorem mem_nodeIds_iff : id ∈ nodeIds root ↔ ∃ node, root.HasNode node ∧ node.id = id := by
  constructor
  · intro h
    obtain ⟨C, t, rfl, hkey⟩ := paywallFrames.exists_plug root h
    exact ⟨t, hasNode_plug C t, hkey⟩
  · rintro ⟨node, hnode, rfl⟩
    obtain ⟨C, rfl⟩ := exists_plug_of_hasNode hnode
    have hkeys := paywallFrames.keys_plug (C := C) (n := node)
    exact hkeys.symm.subset (List.mem_append_right _ (id_mem_nodeIds node))

theorem findNode_plug (hid : node.id = id) (h : id ∉ paywallFrames.outside C) :
    findNode id (paywallFrames.plug C node) = some node := by
  have hsearch := paywallFrames.search_plug (n := node) (findNode id) (fun _ => True)
    (fun f m hf _ => findNode_fill f m hf) (fun _ _ _ => trivial) trivial h
  exact hsearch.trans (findNode_self hid)

theorem transformNode_plug {transform : PaywallNode → PaywallNode} (hid : node.id = id)
    (h : id ∉ paywallFrames.outside C) :
    transformNode id transform (paywallFrames.plug C node) =
      paywallFrames.plug C (transform node) := by
  have hrewrite := paywallFrames.rewrite_plug (n := node) (transformNode id transform)
    (fun f m hf => transformNode_fill f m hf) h
  rw [hrewrite, transformNode_self hid]

theorem findParent_plug (h : id ∉ paywallFrames.outside C) (hne : node.id ≠ id) :
    findParent id (paywallFrames.plug C node) = findParent id node := by
  refine paywallFrames.search_plug (k := id) (findParent id) (fun m => m.id ≠ id)
    (fun f m hf hm => findParent_fill f m hf hm) (fun f m hf heq => hf ?_) hne h
  exact heq ▸ paywallFrames.key_fill f m

section
variable {config : BuilderConfig} {r r' : PaywallNode}

theorem root_withRoot (h : r.type = .container .stack) : (config.withRoot r).root = r := by
  cases r with
  | container t own children fallback =>
    obtain rfl : t = .stack := NodeType.container.inj h
    rfl
  | _ => cases h

theorem withRoot_withRoot (h : r.type = .container .stack) (h' : r'.type = .container .stack) :
    (config.withRoot r).withRoot r' = config.withRoot r' := by
  cases r with
  | container t own children fallback =>
    cases r' with
    | container t' own' children' fallback' => rfl
    | _ => cases h'
  | _ => cases h

theorem withRoot_root : config.withRoot config.root = config := rfl

theorem type_plug {t t' : PaywallNode} (h : C ≠ []) :
    (paywallFrames.plug C t').type = (paywallFrames.plug C t).type := by
  obtain ⟨f, C, rfl⟩ := List.exists_cons_of_ne_nil h
  exact congrArg Prod.fst (paywallFrames.label_fill f _ _)

/-- `result` is `config` with another root, and the two differ at `place` only. -/
structure EditedAt (config result : BuilderConfig) (place : List Slot)
    (old new : PaywallNode) : Prop where
  rest : config.withRoot result.root = result
  old_at : paywallFrames.nodeAt place config.root = some old
  new_at : paywallFrames.nodeAt place result.root = some new
  changed : paywallFrames.ChangedAt place config.root result.root

variable {old new : PaywallNode}

theorem editedAt_plug (hroot : config.root = paywallFrames.plug C old)
    (hstack : (paywallFrames.plug C new).type = .container .stack) :
    EditedAt config (config.withRoot (paywallFrames.plug C new)) (paywallFrames.place C)
      old new := by
  have hnew : (config.withRoot (paywallFrames.plug C new)).root = paywallFrames.plug C new :=
    root_withRoot hstack
  constructor
  · rw [hnew]
  · rw [hroot]
    exact Frames.nodeAt_place
  · rw [hnew]
    exact Frames.nodeAt_place
  · rw [hnew, hroot]
    exact Frames.changedAt_plug

theorem nodup_plug (hunique : (nodeIds (paywallFrames.plug C old)).Nodup)
    (hnew : (nodeIds new).Nodup)
    (hfresh : ∀ id ∈ nodeIds new, id ∈ nodeIds (paywallFrames.plug C old) → id ∈ nodeIds old) :
    (nodeIds (paywallFrames.plug C new)).Nodup := by
  obtain ⟨houtside, -, hapart⟩ := (Frames.nodup_plug_iff (T := paywallFrames)).1 hunique
  refine (Frames.nodup_plug_iff (T := paywallFrames)).2 ⟨houtside, hnew, fun id hid hmem => hapart id hid ?_⟩
  exact hfresh id hmem ((Frames.keys_plug (T := paywallFrames)).symm.subset (List.mem_append_left _ hid))

end

section
variable {spread : PaywallNode → Table String Json → PaywallNode} {config : BuilderConfig}
variable {index : ℤ} {subtree : PaywallNode} {t : ContainerType} {own : NodeOwn}
variable {children : List PaywallNode} {fallback : Option PaywallNode}

theorem applyTreeOp_insert
    (hroot : config.root = paywallFrames.plug C (.container t own children fallback))
    (hout : own.id ∉ paywallFrames.outside C) :
    applyTreeOp spread config (.insert own.id index subtree) =
      if index < 0 ∨ (children.length : ℤ) < index then .error .indexOutOfRange
      else .ok (config.withRoot (paywallFrames.plug C
        (.container t own (children.insertIdx index.toNat subtree) fallback))) := by
  have hfind : findNode own.id config.root = some (.container t own children fallback) := by
    rw [hroot]
    exact findNode_plug rfl hout
  have hedit (transform : PaywallNode → PaywallNode) :
      transformNode own.id transform config.root =
        paywallFrames.plug C (transform (.container t own children fallback)) := by
    rw [hroot]
    exact transformNode_plug rfl hout
  simp only [applyTreeOp, hfind, hedit]
  rfl

theorem applyTreeOp_insert_leaf (hroot : config.root = paywallFrames.plug C node)
    (hout : node.id ∉ paywallFrames.outside C) (hnode : isContainerNode node = false) :
    applyTreeOp spread config (.insert node.id index subtree) = .error .notAContainer := by
  rw [applyTreeOp, hroot, findNode_plug rfl hout]
  cases node with
  | container t own children fallback => cases hnode
  | _ => rfl

theorem applyTreeOp_replace (hroot : config.root = paywallFrames.plug C node)
    (hout : node.id ∉ paywallFrames.outside C) (hne : node.id ≠ config.root.id) :
    applyTreeOp spread config (.replace node.id subtree) =
      .ok (config.withRoot (paywallFrames.plug C subtree)) := by
  rw [applyTreeOp, if_neg hne, hroot, findNode_plug rfl hout, transformNode_plug rfl hout]

theorem applyTreeOp_remove {i : ℕ}
    (hroot : config.root = paywallFrames.plug C (.container t own children fallback))
    (hown : own.id ∉ paywallFrames.outside C) (hout : id ∉ paywallFrames.outside C)
    (hne : own.id ≠ id) (hindex : childIndex id children = some i) :
    applyTreeOp spread config (.remove id) = .ok (config.withRoot (paywallFrames.plug C
      (.container t own (children.eraseIdx i) fallback))) := by
  have hrootId : id ≠ config.root.id := by
    intro heq
    rw [hroot] at heq
    cases C with
    | nil => exact hne heq.symm
    | cons f C => exact hout (heq ▸ paywallFrames.key_plug_mem (List.cons_ne_nil f C))
  have hparent : findParent id (.container t own children fallback) =
      some (.container t own children fallback, i) := by
    rw [findParent, hindex]
  have hnode : (PaywallNode.container t own children fallback).id ≠ id := hne
  have hfind : findParent id config.root = some (.container t own children fallback, i) := by
    rw [hroot, findParent_plug hout hnode, hparent]
  have hedit (transform : PaywallNode → PaywallNode) :
      transformNode own.id transform config.root =
        paywallFrames.plug C (transform (.container t own children fallback)) := by
    rw [hroot]
    exact transformNode_plug rfl hown
  have hid : (PaywallNode.container t own children fallback).id = own.id := rfl
  simp only [applyTreeOp, if_neg hrootId, hfind, hid, hedit]
  rfl

theorem childIndex_insertIdx {i : ℕ} (hi : i ≤ children.length)
    (hfresh : ∀ c ∈ children, c.id ≠ subtree.id) :
    childIndex subtree.id (children.insertIdx i subtree) = some i := by
  unfold childIndex
  induction children generalizing i with
  | nil =>
    obtain rfl := Nat.le_zero.1 hi
    rw [List.insertIdx_zero, List.findIdx?_cons, if_pos (by simp)]
  | cons child rest ih =>
    cases i with
    | zero => rw [List.insertIdx_zero, List.findIdx?_cons, if_pos (by simp)]
    | succ i =>
      have hchild := hfresh child List.mem_cons_self
      rw [List.insertIdx_succ_cons, List.findIdx?_cons, if_neg (by simpa using hchild),
        ih (Nat.le_of_succ_le_succ hi) fun c hc => hfresh c (List.mem_cons_of_mem _ hc)]
      rfl

theorem exists_childIndex {c : PaywallNode} (hc : c ∈ children) :
    ∃ i, childIndex c.id children = some i := by
  cases hindex : childIndex c.id children with
  | some i => exact ⟨i, rfl⟩
  | none =>
    unfold childIndex at hindex
    rw [List.findIdx?_eq_none_iff] at hindex
    exact absurd (hindex c hc) (by simp)

theorem getElem_childIndex {i : ℕ} (h : childIndex id children = some i) :
    ∃ c, children[i]? = some c ∧ c.id = id := by
  obtain ⟨hlt, hid, -⟩ := List.findIdx?_eq_some_iff_getElem.1 h
  exact ⟨children[i], List.getElem?_eq_getElem hlt, of_decide_eq_true hid⟩

theorem exists_context (hunique : (nodeIds root).Nodup) (hnode : root.HasNode node) :
    ∃ C, root = paywallFrames.plug C node ∧ ∀ id ∈ nodeIds node, id ∉ paywallFrames.outside C := by
  obtain ⟨C, rfl⟩ := exists_plug_of_hasNode hnode
  exact ⟨C, rfl, fun _ hid => Frames.not_mem_outside hunique hid⟩

theorem findNode_absent (h : ∀ node, root.HasNode node → node.id ≠ id) :
    findNode id root = none := by
  refine findNode_none id root fun hid => ?_
  obtain ⟨node, hnode, heq⟩ := mem_nodeIds_iff.1 hid
  exact h node hnode heq

end

def HasChild (root : PaywallNode) (id : String) : Prop :=
  ∃ t own children fallback, root.HasNode (.container t own children fallback) ∧
    ∃ c ∈ children, c.id = id

def Refused (config : BuilderConfig) : PaywallTreeOp → TreeOpError → Prop
  | .insert parentId _ _, .targetNotFound =>
    ∀ node, config.root.HasNode node → node.id ≠ parentId
  | .insert parentId _ _, .notAContainer =>
    ∃ node, config.root.HasNode node ∧ node.id = parentId ∧ isContainerNode node = false
  | .insert parentId index _, .indexOutOfRange =>
    ∃ t own children fallback, config.root.HasNode (.container t own children fallback) ∧
      own.id = parentId ∧ (index < 0 ∨ (children.length : ℤ) < index)
  | .replace nodeId _, .targetNotFound =>
    ∀ node, config.root.HasNode node → node.id ≠ nodeId
  | .remove nodeId, .targetNotFound =>
    nodeId ≠ config.root.id ∧ ¬HasChild config.root nodeId
  | .replace nodeId _, .cannotRemoveRoot | .remove nodeId, .cannotRemoveRoot =>
    nodeId = config.root.id
  | .updateProps nodeId _, .targetNotFound =>
    ∀ node, config.root.HasNode node → node.id ≠ nodeId
  | _, _ => False

section
variable {spread : PaywallNode → Table String Json → PaywallNode} {config : BuilderConfig}
variable {error : TreeOpError}

mutual

theorem findParent_hasChild (id : String) : (node : PaywallNode) →
    (found : PaywallNode × ℕ) → findParent id node = some found → HasChild node id
  | .container t own children fallback, found, h => by
    rw [findParent] at h
    cases hindex : childIndex id children with
    | some i =>
      obtain ⟨c, hc, hid⟩ := getElem_childIndex hindex
      exact ⟨t, own, children, fallback, .self _, c, List.mem_of_getElem? hc, hid⟩
    | none =>
      rw [hindex] at h
      obtain h | ⟨-, h⟩ := Option.or_eq_some_iff.1 h
      · obtain ⟨child, hchild, t', own', children', fallback', hnode, hid⟩ :=
          findParentIn_hasChild id children found h
        exact ⟨t', own', children', fallback', .child hchild hnode, hid⟩
      · obtain ⟨child, rfl, t', own', children', fallback', hnode, hid⟩ :=
          findParentSlot_hasChild id fallback found h
        exact ⟨t', own', children', fallback', .fallback rfl hnode, hid⟩
  | .packageList own template fallback, found, h => by
    rw [findParent] at h
    obtain h | ⟨-, h⟩ := Option.or_eq_some_iff.1 h
    · obtain ⟨child, rfl, t', own', children', fallback', hnode, hid⟩ :=
        findParentSlot_hasChild id template found h
      exact ⟨t', own', children', fallback', .cellTemplate hnode, hid⟩
    · obtain ⟨child, rfl, t', own', children', fallback', hnode, hid⟩ :=
        findParentSlot_hasChild id fallback found h
      exact ⟨t', own', children', fallback', .fallback rfl hnode, hid⟩
  | .leaf t own fallback, found, h => by
    rw [findParent] at h
    obtain ⟨child, rfl, t', own', children', fallback', hnode, hid⟩ :=
      findParentSlot_hasChild id fallback found h
    exact ⟨t', own', children', fallback', .fallback rfl hnode, hid⟩

theorem findParentIn_hasChild (id : String) : (children : List PaywallNode) →
    (found : PaywallNode × ℕ) → findParentIn id children = some found →
    ∃ child ∈ children, HasChild child id
  | [], _, h => by cases h
  | child :: rest, found, h => by
    rw [findParentIn] at h
    obtain h | ⟨-, h⟩ := Option.or_eq_some_iff.1 h
    · exact ⟨child, List.mem_cons_self, findParent_hasChild id child found h⟩
    · obtain ⟨c, hc, hhas⟩ := findParentIn_hasChild id rest found h
      exact ⟨c, List.mem_cons_of_mem _ hc, hhas⟩

theorem findParentSlot_hasChild (id : String) : (slot : Option PaywallNode) →
    (found : PaywallNode × ℕ) → findParentSlot id slot = some found →
    ∃ child, slot = some child ∧ HasChild child id
  | none, _, h => by cases h
  | some node, found, h => by
    rw [findParentSlot] at h
    exact ⟨node, rfl, findParent_hasChild id node found h⟩

end

theorem findParent_absent (h : ¬HasChild root id) : findParent id root = none := by
  cases hfound : findParent id root with
  | none => rfl
  | some found => exact absurd (findParent_hasChild id root found hfound) h

theorem exists_childContext (hunique : (nodeIds root).Nodup) (h : HasChild root id) :
    ∃ C t own children fallback i,
      root = paywallFrames.plug C (.container t own children fallback) ∧
      own.id ∉ paywallFrames.outside C ∧ id ∉ paywallFrames.outside C ∧ own.id ≠ id ∧
      childIndex id children = some i := by
  obtain ⟨t, own, children, fallback, hnode, c, hc, rfl⟩ := h
  obtain ⟨C, rfl, hout⟩ := exists_context hunique hnode
  obtain ⟨i, hi⟩ := exists_childIndex hc
  have hchild : c.id ∈ childIds children := by
    rw [childIds_eq, List.mem_flatMap]
    exact ⟨c, hc, id_mem_nodeIds c⟩
  have hkeys : nodeIds (.container t own children fallback) =
      own.id :: (childIds children ++ slotIds fallback) := by rw [nodeIds]
  have hnodup : (nodeIds (.container t own children fallback)).Nodup :=
    ((Frames.nodup_plug_iff (T := paywallFrames)).1 hunique).2.1
  rw [hkeys] at hnodup
  refine ⟨C, t, own, children, fallback, i, rfl, hout _ (id_mem_nodeIds _), hout _ ?_, ?_, hi⟩
  · rw [hkeys]
    exact List.mem_cons_of_mem _ (List.mem_append_left _ hchild)
  · intro heq
    exact (List.nodup_cons.1 hnodup).1 (heq ▸ List.mem_append_left _ hchild)

end

end Rovenue.Paywall
