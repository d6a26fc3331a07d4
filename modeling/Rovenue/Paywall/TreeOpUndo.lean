import Rovenue.Paywall.TreeOpEdits

/-! With unique ids an edit is refused for its target alone, changes one place, and is undone by the
edit that takes it back. -/

namespace Rovenue.Paywall
open Js
open Graph (Frames)
open Txn (Table)

variable {spread : PaywallNode → Table String Json → PaywallNode} {config result : BuilderConfig}
variable {id : String} {index : ℤ} {subtree : PaywallNode} {e : TreeOpError}

theorem insert_refused_iff (hunique : (nodeIds config.root).Nodup) :
    applyTreeOp spread config (.insert id index subtree) = .error e ↔
      Refused config (.insert id index subtree) e := by
  constructor
  · intro h
    by_cases hfound : ∃ node, config.root.HasNode node ∧ node.id = id
    · obtain ⟨node, hnode, rfl⟩ := hfound
      obtain ⟨C, hroot, hout⟩ := exists_context hunique hnode
      have hown := hout node.id (id_mem_nodeIds node)
      cases node with
      | container t own children fallback =>
        have happly : applyTreeOp spread config (.insert own.id index subtree) = _ :=
          applyTreeOp_insert hroot hown
        have herror := happly.symm.trans h
        split_ifs at herror with hrange
        obtain rfl := Except.error.inj herror
        exact ⟨t, own, children, fallback, hnode, rfl, hrange⟩
      | packageList own template fallback =>
        rw [applyTreeOp_insert_leaf hroot hown rfl] at h
        obtain rfl := Except.error.inj h
        exact ⟨_, hnode, rfl, rfl⟩
      | leaf t own fallback =>
        rw [applyTreeOp_insert_leaf hroot hown rfl] at h
        obtain rfl := Except.error.inj h
        exact ⟨_, hnode, rfl, rfl⟩
    · have habsent : ∀ node, config.root.HasNode node → node.id ≠ id :=
        fun node hnode heq => hfound ⟨node, hnode, heq⟩
      rw [applyTreeOp, findNode_absent habsent] at h
      obtain rfl := Except.error.inj h
      exact habsent
  · intro h
    cases e with
    | targetNotFound => rw [applyTreeOp, findNode_absent h]
    | notAContainer =>
      obtain ⟨node, hnode, rfl, hleaf⟩ := h
      obtain ⟨C, hroot, hout⟩ := exists_context hunique hnode
      exact applyTreeOp_insert_leaf hroot (hout _ (id_mem_nodeIds node)) hleaf
    | indexOutOfRange =>
      obtain ⟨t, own, children, fallback, hnode, rfl, hrange⟩ := h
      obtain ⟨C, hroot, hout⟩ := exists_context hunique hnode
      exact (applyTreeOp_insert hroot (hout _ (id_mem_nodeIds _))).trans (if_pos hrange)
    | cannotRemoveRoot => exact h.elim

theorem refused_iff_of_error {op : PaywallTreeOp} {error : TreeOpError}
    (happly : applyTreeOp spread config op = .error error)
    (honly : ∀ e, Refused config op e ↔ e = error) :
    applyTreeOp spread config op = .error e ↔ Refused config op e := by
  rw [happly, honly, Except.error.injEq, eq_comm]

theorem refused_iff_of_ok {op : PaywallTreeOp} (happly : applyTreeOp spread config op = .ok result)
    (hnone : ∀ e, ¬Refused config op e) :
    applyTreeOp spread config op = .error e ↔ Refused config op e := by
  refine iff_of_false ?_ (hnone e)
  rw [happly]
  intro herror
  cases herror

theorem replace_refused_iff (hunique : (nodeIds config.root).Nodup) :
    applyTreeOp spread config (.replace id subtree) = .error e ↔
      Refused config (.replace id subtree) e := by
  by_cases hrootId : id = config.root.id
  · have happly : applyTreeOp spread config (.replace id subtree) = .error .cannotRemoveRoot := by
      rw [applyTreeOp, if_pos hrootId]
    refine refused_iff_of_error happly fun e => ?_
    cases e with
    | cannotRemoveRoot => exact iff_of_true hrootId rfl
    | targetNotFound =>
      exact iff_of_false (fun habsent => habsent _ (.self _) hrootId.symm) (by decide)
    | _ => exact iff_of_false not_false (by decide)
  · by_cases hfound : ∃ node, config.root.HasNode node ∧ node.id = id
    · obtain ⟨node, hnode, rfl⟩ := hfound
      obtain ⟨C, hroot, hout⟩ := exists_context hunique hnode
      have hout := hout _ (id_mem_nodeIds node)
      refine refused_iff_of_ok (applyTreeOp_replace hroot hout hrootId) fun e => ?_
      cases e with
      | cannotRemoveRoot => exact hrootId
      | targetNotFound => exact fun habsent => habsent node hnode rfl
      | _ => exact not_false
    · have habsent : ∀ node, config.root.HasNode node → node.id ≠ id :=
        fun node hnode heq => hfound ⟨node, hnode, heq⟩
      have happly : applyTreeOp spread config (.replace id subtree) = .error .targetNotFound := by
        rw [applyTreeOp, if_neg hrootId, findNode_absent habsent]
      refine refused_iff_of_error happly fun e => ?_
      cases e with
      | cannotRemoveRoot => exact iff_of_false hrootId (by decide)
      | targetNotFound => exact iff_of_true habsent rfl
      | _ => exact iff_of_false not_false (by decide)

theorem remove_refused_iff (hunique : (nodeIds config.root).Nodup) :
    applyTreeOp spread config (.remove id) = .error e ↔ Refused config (.remove id) e := by
  by_cases hrootId : id = config.root.id
  · have happly : applyTreeOp spread config (.remove id) = .error .cannotRemoveRoot := by
      rw [applyTreeOp, if_pos hrootId]
    refine refused_iff_of_error happly fun e => ?_
    cases e with
    | cannotRemoveRoot => exact iff_of_true hrootId rfl
    | targetNotFound => exact iff_of_false (fun h => h.1 hrootId) (by decide)
    | _ => exact iff_of_false not_false (by decide)
  · by_cases hchild : HasChild config.root id
    · obtain ⟨C, t, own, children, fallback, i, hroot, hown, hout, hne, hindex⟩ :=
        exists_childContext hunique hchild
      refine refused_iff_of_ok (applyTreeOp_remove hroot hown hout hne hindex) fun e => ?_
      cases e with
      | cannotRemoveRoot => exact hrootId
      | targetNotFound => exact fun h => h.2 hchild
      | _ => exact not_false
    · have happly : applyTreeOp spread config (.remove id) = .error .targetNotFound := by
        rw [applyTreeOp, if_neg hrootId, findParent_absent hchild]
      refine refused_iff_of_error happly fun e => ?_
      cases e with
      | cannotRemoveRoot => exact iff_of_false hrootId (by decide)
      | targetNotFound => exact iff_of_true ⟨hrootId, hchild⟩ rfl
      | _ => exact iff_of_false not_false (by decide)

section
variable {C : List Frame} {t : ContainerType} {own : NodeOwn}
variable {children children' : List PaywallNode} {fallback : Option PaywallNode}
variable {old new : PaywallNode}

theorem stack_plug (hroot : config.root = paywallFrames.plug C old)
    (hnil : C = [] → new.type = .container .stack) :
    (paywallFrames.plug C new).type = .container .stack := by
  by_cases hC : C = []
  · subst hC
    exact hnil rfl
  · rw [type_plug (t := old) hC, ← hroot]
    rfl

theorem stack_children (children' : List PaywallNode)
    (hroot : config.root = paywallFrames.plug C (.container t own children fallback)) :
    (paywallFrames.plug C (.container t own children' fallback)).type = .container .stack := by
  refine stack_plug hroot fun hC => ?_
  subst hC
  exact (congrArg PaywallNode.type hroot).symm

theorem nodeIds_container : nodeIds (.container t own children fallback) =
    own.id :: (childIds children ++ slotIds fallback) := by rw [nodeIds]

theorem childIds_insertIdx {i : ℕ} (subtree : PaywallNode) (hi : i ≤ children.length) :
    (childIds (children.insertIdx i subtree)).Perm (nodeIds subtree ++ childIds children) := by
  rw [childIds_eq, childIds_eq, ← List.flatMap_cons]
  exact (List.perm_insertIdx subtree children hi).flatMap_right nodeIds

theorem nodup_insertIdx {i : ℕ} (hi : i ≤ children.length)
    (hold : (nodeIds (.container t own children fallback)).Nodup) (hnew : (nodeIds subtree).Nodup)
    (hfresh : ∀ id ∈ nodeIds subtree, id ∉ nodeIds (.container t own children fallback)) :
    (nodeIds (.container t own (children.insertIdx i subtree) fallback)).Nodup := by
  have hperm : (nodeIds (.container t own (children.insertIdx i subtree) fallback)).Perm
      (nodeIds subtree ++ nodeIds (.container t own children fallback)) := by
    rw [nodeIds_container, nodeIds_container]
    have hchildren := (childIds_insertIdx subtree hi).append_right (slotIds fallback)
    rw [List.append_assoc] at hchildren
    exact (hchildren.cons own.id).trans List.perm_middle.symm
  rw [hperm.nodup_iff, List.nodup_append]
  exact ⟨hnew, hold, fun id hid id' hid' heq => hfresh id hid (heq ▸ hid')⟩

end

theorem insert_accepted (hunique : (nodeIds config.root).Nodup)
    (h : applyTreeOp spread config (.insert id index subtree) = .ok result) :
    ∃ C t own children fallback, own.id = id ∧ 0 ≤ index ∧ index ≤ children.length ∧
      config.root = paywallFrames.plug C (.container t own children fallback) ∧
      id ∉ paywallFrames.outside C ∧
      result = config.withRoot (paywallFrames.plug C
        (.container t own (children.insertIdx index.toNat subtree) fallback)) := by
  by_cases hfound : ∃ node, config.root.HasNode node ∧ node.id = id
  · obtain ⟨node, hnode, rfl⟩ := hfound
    obtain ⟨C, hroot, hout⟩ := exists_context hunique hnode
    have hown := hout node.id (id_mem_nodeIds node)
    cases node with
    | container t own children fallback =>
      have happly : applyTreeOp spread config (.insert own.id index subtree) = _ :=
        applyTreeOp_insert hroot hown
      have hok := happly.symm.trans h
      split_ifs at hok with hrange
      obtain rfl := Except.ok.inj hok
      exact ⟨C, t, own, children, fallback, rfl, by omega, by omega, hroot, hown, rfl⟩
    | _ =>
      rw [applyTreeOp_insert_leaf hroot hown rfl] at h
      cases h
  · have habsent : ∀ node, config.root.HasNode node → node.id ≠ id :=
      fun node hnode heq => hfound ⟨node, hnode, heq⟩
    rw [applyTreeOp, findNode_absent habsent] at h
    cases h

theorem replace_accepted (hunique : (nodeIds config.root).Nodup)
    (h : applyTreeOp spread config (.replace id subtree) = .ok result) :
    ∃ C old, old.id = id ∧ C ≠ [] ∧ config.root = paywallFrames.plug C old ∧
      result = config.withRoot (paywallFrames.plug C subtree) := by
  have hrefused : ∀ e, ¬Refused config (.replace id subtree) e := by
    intro e hrefused
    rw [(replace_refused_iff hunique).2 hrefused] at h
    cases h
  have hrootId : id ≠ config.root.id := hrefused .cannotRemoveRoot
  have hfound : ¬∀ node, config.root.HasNode node → node.id ≠ id := hrefused .targetNotFound
  push Not at hfound
  obtain ⟨old, hnode, rfl⟩ := hfound
  obtain ⟨C, hroot, hout⟩ := exists_context hunique hnode
  rw [applyTreeOp_replace hroot (hout _ (id_mem_nodeIds old)) hrootId] at h
  refine ⟨C, old, rfl, ?_, hroot, (Except.ok.inj h).symm⟩
  rintro rfl
  exact hrootId (congrArg PaywallNode.id hroot).symm

theorem remove_accepted (hunique : (nodeIds config.root).Nodup)
    (h : applyTreeOp spread config (.remove id) = .ok result) :
    ∃ C t own children fallback i, childIndex id children = some i ∧
      config.root = paywallFrames.plug C (.container t own children fallback) ∧
      result = config.withRoot (paywallFrames.plug C
        (.container t own (children.eraseIdx i) fallback)) := by
  have hrefused : ∀ e, ¬Refused config (.remove id) e := by
    intro e hrefused
    rw [(remove_refused_iff hunique).2 hrefused] at h
    cases h
  have hrootId : id ≠ config.root.id := hrefused .cannotRemoveRoot
  have hchild : HasChild config.root id :=
    not_not.1 fun habsent => hrefused .targetNotFound ⟨hrootId, habsent⟩
  obtain ⟨C, t, own, children, fallback, i, hroot, hown, hout, hne, hindex⟩ :=
    exists_childContext hunique hchild
  rw [applyTreeOp_remove hroot hown hout hne hindex] at h
  exact ⟨C, t, own, children, fallback, i, hindex, hroot, (Except.ok.inj h).symm⟩

section
variable (spread : PaywallNode → Table String Json → PaywallNode) (config result : BuilderConfig)

structure Inserted (parentId : String) (index : ℤ) (subtree : PaywallNode) : Prop where
  edited : ∃ place t own children fallback, own.id = parentId ∧ 0 ≤ index ∧
    index ≤ children.length ∧ EditedAt config result place (.container t own children fallback)
      (.container t own (children.insertIdx index.toNat subtree) fallback)
  unique : (nodeIds subtree).Nodup → (∀ id ∈ nodeIds subtree, id ∉ nodeIds config.root) →
    (nodeIds result.root).Nodup
  undone : subtree.id ∉ nodeIds config.root →
    applyTreeOp spread result (.remove subtree.id) = .ok config

structure Replaced (nodeId : String) (subtree : PaywallNode) : Prop where
  edited : ∃ place old, old.id = nodeId ∧ EditedAt config result place old subtree ∧
    ((nodeIds subtree).Nodup →
      (∀ id ∈ nodeIds subtree, id ∈ nodeIds config.root → id ∈ nodeIds old) →
      (nodeIds result.root).Nodup) ∧
    ((subtree.id ∈ nodeIds config.root → subtree.id ∈ nodeIds old) →
      applyTreeOp spread result (.replace subtree.id old) = .ok config)

structure Removed (nodeId : String) : Prop where
  edited : ∃ place t own children fallback i removed, children[i]? = some removed ∧
    removed.id = nodeId ∧ EditedAt config result place (.container t own children fallback)
      (.container t own (children.eraseIdx i) fallback)
  unique : (nodeIds result.root).Nodup

end

theorem inserted (hunique : (nodeIds config.root).Nodup)
    (h : applyTreeOp spread config (.insert id index subtree) = .ok result) :
    Inserted spread config result id index subtree := by
  obtain ⟨C, t, own, children, fallback, rfl, hnonneg, hle, hroot, hout, rfl⟩ :=
    insert_accepted hunique h
  have hi : index.toNat ≤ children.length := by omega
  have hstack := stack_children (children.insertIdx index.toNat subtree) hroot
  have hinner : ∀ id ∈ nodeIds (.container t own children fallback),
      id ∈ nodeIds config.root := by
    intro id hid
    rw [hroot]
    exact (Frames.keys_plug (T := paywallFrames)).symm.subset (List.mem_append_right _ hid)
  have houter : ∀ id ∈ paywallFrames.outside C, id ∈ nodeIds config.root := by
    intro id hid
    rw [hroot]
    exact (Frames.keys_plug (T := paywallFrames)).symm.subset (List.mem_append_left _ hid)
  constructor
  · exact ⟨_, t, own, children, fallback, rfl, hnonneg, hle, editedAt_plug hroot hstack⟩
  · intro hnew hfresh
    rw [root_withRoot hstack]
    rw [hroot] at hunique
    obtain ⟨houtside, hold, hapart⟩ := (Frames.nodup_plug_iff (T := paywallFrames)).1 hunique
    refine (Frames.nodup_plug_iff (T := paywallFrames)).2 ⟨houtside, ?_, fun id hid hmem => ?_⟩
    · exact nodup_insertIdx hi hold hnew fun id hid hmem => hfresh id hid (hinner id hmem)
    · change id ∈ nodeIds _ at hmem
      rw [nodeIds_container, List.mem_cons, List.mem_append,
        (childIds_insertIdx subtree hi).mem_iff, List.mem_append] at hmem
      have hcontainer : id ∈ nodeIds subtree ∨ id ∈ nodeIds (.container t own children fallback) := by
        rw [nodeIds_container, List.mem_cons, List.mem_append]
        tauto
      exact hcontainer.elim (fun hid' => hfresh id hid' (houter id hid)) (hapart id hid)
  · intro hfresh
    have hchildren : ∀ c ∈ children, c.id ≠ subtree.id := by
      intro c hc heq
      refine hfresh (hinner _ ?_)
      rw [nodeIds_container, childIds_eq]
      exact List.mem_cons_of_mem _ (List.mem_append_left _
        (List.mem_flatMap.2 ⟨c, hc, heq ▸ id_mem_nodeIds c⟩))
    have hown : own.id ≠ subtree.id :=
      fun heq => hfresh (hinner _ (heq ▸ id_mem_nodeIds (.container t own children fallback)))
    rw [applyTreeOp_remove (root_withRoot hstack) hout (fun hmem => hfresh (houter _ hmem)) hown
      (childIndex_insertIdx hi hchildren), List.eraseIdx_insertIdx_self, ← hroot,
      withRoot_withRoot hstack rfl, withRoot_root]

theorem replaced (hunique : (nodeIds config.root).Nodup)
    (h : applyTreeOp spread config (.replace id subtree) = .ok result) :
    Replaced spread config result id subtree := by
  obtain ⟨C, old, rfl, hC, hroot, rfl⟩ := replace_accepted hunique h
  have hstack : (paywallFrames.plug C subtree).type = .container .stack :=
    stack_plug hroot fun hnil => absurd hnil hC
  refine ⟨_, old, rfl, editedAt_plug hroot hstack, fun hnew hfresh => ?_, fun hfresh => ?_⟩
  · rw [root_withRoot hstack]
    rw [hroot] at hunique hfresh
    exact nodup_plug hunique hnew hfresh
  · rw [hroot] at hunique hfresh
    have hout : subtree.id ∉ paywallFrames.outside C := by
      intro hmem
      have hold := hfresh ((Frames.keys_plug (T := paywallFrames)).symm.subset
        (List.mem_append_left _ hmem))
      exact Frames.not_mem_outside hunique hold hmem
    have hne : subtree.id ≠ (config.withRoot (paywallFrames.plug C subtree)).root.id := by
      rw [root_withRoot hstack]
      exact fun heq => hout (heq ▸ paywallFrames.key_plug_mem hC)
    rw [applyTreeOp_replace (root_withRoot hstack) hout hne, ← hroot,
      withRoot_withRoot hstack rfl, withRoot_root]

theorem removed (hunique : (nodeIds config.root).Nodup)
    (h : applyTreeOp spread config (.remove id) = .ok result) : Removed config result id := by
  obtain ⟨C, t, own, children, fallback, i, hindex, hroot, rfl⟩ := remove_accepted hunique h
  have hstack := stack_children (children.eraseIdx i) hroot
  obtain ⟨c, hc, hid⟩ := getElem_childIndex hindex
  constructor
  · exact ⟨_, t, own, children, fallback, i, c, hc, hid, editedAt_plug hroot hstack⟩
  · rw [root_withRoot hstack]
    rw [hroot] at hunique
    have hsub : (nodeIds (.container t own (children.eraseIdx i) fallback)).Sublist
        (nodeIds (.container t own children fallback)) := by
      rw [nodeIds_container, nodeIds_container, childIds_eq, childIds_eq]
      have hchildren : ((children.eraseIdx i).flatMap nodeIds).Sublist (children.flatMap nodeIds) :=
        (List.eraseIdx_sublist children i).flatMap nodeIds
      exact (hchildren.append_right (slotIds fallback)).cons_cons own.id
    refine nodup_plug hunique ?_ fun id hid _ => hsub.subset hid
    exact ((Frames.nodup_plug_iff (T := paywallFrames)).1 hunique).2.1.sublist hsub

/-- The three edits of the node tree. -/
theorem treeOps_local_and_undone (hunique : (nodeIds config.root).Nodup) :
    (∀ id index subtree e, applyTreeOp spread config (.insert id index subtree) = .error e ↔
      Refused config (.insert id index subtree) e) ∧
    (∀ id subtree e, applyTreeOp spread config (.replace id subtree) = .error e ↔
      Refused config (.replace id subtree) e) ∧
    (∀ id e, applyTreeOp spread config (.remove id) = .error e ↔
      Refused config (.remove id) e) ∧
    (∀ id index subtree result, applyTreeOp spread config (.insert id index subtree) = .ok result →
      Inserted spread config result id index subtree) ∧
    (∀ id subtree result, applyTreeOp spread config (.replace id subtree) = .ok result →
      Replaced spread config result id subtree) ∧
    ∀ id result, applyTreeOp spread config (.remove id) = .ok result →
      Removed config result id :=
  ⟨fun _ _ _ _ => insert_refused_iff hunique, fun _ _ _ => replace_refused_iff hunique,
    fun _ _ => remove_refused_iff hunique, fun _ _ _ _ => inserted hunique,
    fun _ _ _ => replaced hunique, fun _ _ => removed hunique⟩

def textNode (id : String) : PaywallNode := .leaf .text ⟨id, .empty, none, none⟩ none

def spacerNode (id : String) : PaywallNode := .leaf .spacer ⟨id, .empty, none, none⟩ none

def titleConfig : BuilderConfig where
  defaultLocale := "en"
  localizations := .empty
  rootOwn := ⟨"root", .empty, none, none⟩
  rootChildren := [textNode "title"]

/-- The insertion is accepted, and the removal takes the title out instead. -/
theorem remove_keeps_taken_id :
    (nodeIds titleConfig.root).Nodup ∧
    ∃ result undone, applyTreeOp (fun node _ => node) titleConfig
        (.insert "root" 1 (spacerNode "title")) = .ok result ∧
      applyTreeOp (fun node _ => node) result (.remove "title") = .ok undone ∧
      undone.rootChildren = [spacerNode "title"] ∧ undone ≠ titleConfig := by
  refine ⟨by decide, _, _, rfl, rfl, rfl, fun heq => ?_⟩
  have hchildren : [spacerNode "title"] = [textNode "title"] :=
    congrArg BuilderConfig.rootChildren heq
  cases (List.cons.inj hchildren).1

def plansConfig : BuilderConfig where
  -- a package list with a template for its cells and a text in its place if there is nothing to
  -- list
  defaultLocale := "en"
  localizations := .empty
  rootOwn := ⟨"root", .empty, none, none⟩
  rootChildren := [textNode "title",
    .packageList ⟨"plans", .empty, none, none⟩ (some (textNode "cell")) (some (textNode "none"))]

theorem treeOps_plansConfig :
    (∀ id index subtree e,
      applyTreeOp (fun node _ => node) plansConfig (.insert id index subtree) = .error e ↔
        Refused plansConfig (.insert id index subtree) e) ∧
    (∀ id subtree e, applyTreeOp (fun node _ => node) plansConfig (.replace id subtree) = .error e ↔
      Refused plansConfig (.replace id subtree) e) ∧
    (∀ id e, applyTreeOp (fun node _ => node) plansConfig (.remove id) = .error e ↔
      Refused plansConfig (.remove id) e) ∧
    (∀ id index subtree result,
      applyTreeOp (fun node _ => node) plansConfig (.insert id index subtree) = .ok result →
        Inserted (fun node _ => node) plansConfig result id index subtree) ∧
    (∀ id subtree result,
      applyTreeOp (fun node _ => node) plansConfig (.replace id subtree) = .ok result →
        Replaced (fun node _ => node) plansConfig result id subtree) ∧
    ∀ id result, applyTreeOp (fun node _ => node) plansConfig (.remove id) = .ok result →
      Removed plansConfig result id :=
  treeOps_local_and_undone (by decide)

end Rovenue.Paywall
