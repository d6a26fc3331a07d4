import Rovenue.Js.Paths
import Rovenue.Paywall.Diff
import Rovenue.Paywall.Validate

/-! What the diff of two configs does not see. -/

namespace Rovenue.Paywall
open Js
open Txn (Table)

def sameOwn (m n : PaywallNode) : Prop :=
  m.type = n.type ∧ m.id = n.id ∧ Json.same (.obj (ownEntries m)) (.obj (ownEntries n))

mutual

def sameNode : PaywallNode → PaywallNode → Prop
  | .container t own children fallback, .container t' own' children' fallback' =>
    sameOwn (.container t own children fallback) (.container t' own' children' fallback')
      ∧ sameChildren children children' ∧ sameOptional fallback fallback'
  | .packageList own cellTemplate fallback, .packageList own' cellTemplate' fallback' =>
    sameOwn (.packageList own cellTemplate fallback) (.packageList own' cellTemplate' fallback')
      ∧ sameOptional cellTemplate cellTemplate' ∧ sameOptional fallback fallback'
  | .leaf t own fallback, .leaf t' own' fallback' =>
    sameOwn (.leaf t own fallback) (.leaf t' own' fallback') ∧ sameOptional fallback fallback'
  | _, _ => False

def sameChildren : List PaywallNode → List PaywallNode → Prop
  | [], [] => True
  | m :: ms, n :: ns => sameNode m n ∧ sameChildren ms ns
  | _, _ => False

def sameOptional : Option PaywallNode → Option PaywallNode → Prop
  | none, none => True
  | some m, some n => sameNode m n
  | _, _ => False

end

def UniqueIds (config : BuilderConfig) : Prop :=
  ((walkNodes {} config.root).map fun entry => entry.1.id).Nodup

mutual

def arranged : PaywallNode → PaywallNode → Prop
  -- the walk meets nodes of the same ids and types at the same places, and the children of a
  -- carousel or a sticky footer, where it does not go, are equal
  | .container t own children fallback, .container t' own' children' fallback' =>
    own.id = own'.id ∧ t = t'
      ∧ (if t = .stack then arrangedChildren children children' else sameChildren children children')
      ∧ arrangedOptional fallback fallback'
  | .packageList own cellTemplate fallback, .packageList own' cellTemplate' fallback' =>
    own.id = own'.id ∧ arrangedOptional cellTemplate cellTemplate'
      ∧ arrangedOptional fallback fallback'
  | .leaf t own fallback, .leaf t' own' fallback' =>
    own.id = own'.id ∧ t = t' ∧ arrangedOptional fallback fallback'
  | _, _ => False

def arrangedChildren : List PaywallNode → List PaywallNode → Prop
  | [], [] => True
  | m :: ms, n :: ns => arranged m n ∧ arrangedChildren ms ns
  | _, _ => False

def arrangedOptional : Option PaywallNode → Option PaywallNode → Prop
  | none, none => True
  | some m, some n => arranged m n
  | _, _ => False

end

mutual

theorem arranged_of_same {m n : PaywallNode} (h : sameNode m n) : arranged m n := by
  match m, n with
  | .container t own children fallback, .container t' own' children' fallback' =>
    obtain ⟨⟨htype, hid, -⟩, hchildren, hfallback⟩ := h
    have ht : t = t' := by injection htype
    refine ⟨hid, ht, ?_, arrangedOptional_of_same hfallback⟩
    split
    · exact arrangedChildren_of_same hchildren
    · exact hchildren
  | .packageList own cellTemplate fallback, .packageList own' cellTemplate' fallback' =>
    obtain ⟨⟨-, hid, -⟩, hcell, hfallback⟩ := h
    exact ⟨hid, arrangedOptional_of_same hcell, arrangedOptional_of_same hfallback⟩
  | .leaf t own fallback, .leaf t' own' fallback' =>
    obtain ⟨⟨htype, hid, -⟩, hfallback⟩ := h
    exact ⟨hid, by injection htype, arrangedOptional_of_same hfallback⟩
  | .container .., .packageList .. | .container .., .leaf .. | .packageList .., .container ..
  | .packageList .., .leaf .. | .leaf .., .container .. | .leaf .., .packageList .. =>
    exact h.elim

theorem arrangedChildren_of_same {ms ns : List PaywallNode} (h : sameChildren ms ns) :
    arrangedChildren ms ns := by
  match ms, ns with
  | [], [] => exact trivial
  | m :: ms, n :: ns => exact ⟨arranged_of_same h.1, arrangedChildren_of_same h.2⟩
  | [], _ :: _ | _ :: _, [] => exact h.elim

theorem arrangedOptional_of_same {m n : Option PaywallNode} (h : sameOptional m n) :
    arrangedOptional m n := by
  match m, n with
  | none, none => exact trivial
  | some m, some n => exact arranged_of_same h
  | none, some _ | some _, none => exact h.elim

end

def SameOwns (ms ns : List PaywallNode) : Prop :=
  ∀ m ∈ ms, ∀ n ∈ ns, m.id = n.id → sameOwn m n

theorem SameOwns.append {ms ms' ns ns' : List PaywallNode} (h : SameOwns (ms ++ ms') (ns ++ ns')) :
    SameOwns ms ns ∧ SameOwns ms' ns' :=
  ⟨fun m hm n hn => h m (List.mem_append_left _ hm) n (List.mem_append_left _ hn),
    fun m hm n hn => h m (List.mem_append_right _ hm) n (List.mem_append_right _ hn)⟩

theorem SameOwns.cons {m n : PaywallNode} {ms ns : List PaywallNode}
    (h : SameOwns (m :: ms) (n :: ns)) (hid : m.id = n.id) : sameOwn m n ∧ SameOwns ms ns :=
  ⟨h m List.mem_cons_self n List.mem_cons_self hid,
    fun m hm n hn => h m (List.mem_cons_of_mem _ hm) n (List.mem_cons_of_mem _ hn)⟩

mutual

theorem sameNode_of_arranged {m n : PaywallNode} (h : arranged m n)
    (hown : SameOwns (walkedNodes m) (walkedNodes n)) : sameNode m n := by
  match m, n with
  | .container t own children fallback, .container t' own' children' fallback' =>
    obtain ⟨hid, rfl, hchildren, hfallback⟩ := h
    obtain ⟨hsame, hrest⟩ := hown.cons hid
    obtain ⟨hownChildren, hownFallback⟩ := hrest.append
    refine ⟨hsame, ?_, sameOptional_of_arranged hfallback hownFallback⟩
    by_cases ht : t = .stack
    · rw [if_pos ht] at hchildren hownChildren
      rw [if_pos ht] at hownChildren
      exact sameChildren_of_arranged hchildren hownChildren
    · rwa [if_neg ht] at hchildren
  | .packageList own cellTemplate fallback, .packageList own' cellTemplate' fallback' =>
    obtain ⟨hid, hcell, hfallback⟩ := h
    obtain ⟨hsame, hrest⟩ := hown.cons hid
    obtain ⟨hownCell, hownFallback⟩ := hrest.append
    exact ⟨hsame, sameOptional_of_arranged hcell hownCell,
      sameOptional_of_arranged hfallback hownFallback⟩
  | .leaf t own fallback, .leaf t' own' fallback' =>
    obtain ⟨hid, -, hfallback⟩ := h
    obtain ⟨hsame, hownFallback⟩ := hown.cons hid
    exact ⟨hsame, sameOptional_of_arranged hfallback hownFallback⟩
  | .container .., .packageList .. | .container .., .leaf .. | .packageList .., .container ..
  | .packageList .., .leaf .. | .leaf .., .container .. | .leaf .., .packageList .. =>
    exact h.elim

theorem sameChildren_of_arranged {ms ns : List PaywallNode} (h : arrangedChildren ms ns)
    (hown : SameOwns (walkedChildren ms) (walkedChildren ns)) : sameChildren ms ns := by
  match ms, ns with
  | [], [] => exact trivial
  | m :: ms, n :: ns =>
    rw [walkedChildren, walkedChildren] at hown
    obtain ⟨hfirst, hrest⟩ := hown.append
    exact ⟨sameNode_of_arranged h.1 hfirst, sameChildren_of_arranged h.2 hrest⟩
  | [], _ :: _ | _ :: _, [] => exact h.elim

theorem sameOptional_of_arranged {m n : Option PaywallNode} (h : arrangedOptional m n)
    (hown : SameOwns (walkedOptional m) (walkedOptional n)) : sameOptional m n := by
  match m, n with
  | none, none => exact trivial
  | some m, some n => exact sameNode_of_arranged h hown
  | none, some _ | some _, none => exact h.elim

end

mutual

theorem walkedNodes_same {m n : PaywallNode} (h : sameNode m n) :
    List.Forall₂ sameOwn (walkedNodes m) (walkedNodes n) := by
  match m, n with
  | .container t own children fallback, .container t' own' children' fallback' =>
    obtain ⟨hsame, hchildren, hfallback⟩ := h
    obtain rfl : t = t' := by injection hsame.1
    rw [walkedNodes, walkedNodes]
    refine .cons hsame (List.rel_append ?_ (walkedOptional_same hfallback))
    split
    · exact walkedChildren_same hchildren
    · exact .nil
  | .packageList own cellTemplate fallback, .packageList own' cellTemplate' fallback' =>
    obtain ⟨hsame, hcell, hfallback⟩ := h
    rw [walkedNodes, walkedNodes]
    exact .cons hsame (List.rel_append (walkedOptional_same hcell) (walkedOptional_same hfallback))
  | .leaf t own fallback, .leaf t' own' fallback' =>
    obtain ⟨hsame, hfallback⟩ := h
    rw [walkedNodes, walkedNodes]
    exact .cons hsame (walkedOptional_same hfallback)
  | .container .., .packageList .. | .container .., .leaf .. | .packageList .., .container ..
  | .packageList .., .leaf .. | .leaf .., .container .. | .leaf .., .packageList .. =>
    exact h.elim

theorem walkedChildren_same {ms ns : List PaywallNode} (h : sameChildren ms ns) :
    List.Forall₂ sameOwn (walkedChildren ms) (walkedChildren ns) := by
  match ms, ns with
  | [], [] => exact .nil
  | m :: ms, n :: ns =>
    rw [walkedChildren, walkedChildren]
    exact List.rel_append (walkedNodes_same h.1) (walkedChildren_same h.2)
  | [], _ :: _ | _ :: _, [] => exact h.elim

theorem walkedOptional_same {m n : Option PaywallNode} (h : sameOptional m n) :
    List.Forall₂ sameOwn (walkedOptional m) (walkedOptional n) := by
  match m, n with
  | none, none => exact .nil
  | some m, some n => exact walkedNodes_same h
  | none, some _ | some _, none => exact h.elim

end

mutual

theorem walkedNodes_sublist (ctx : NodeWalkContext) (root : PaywallNode) :
    (walkedNodes root).Sublist ((walkNodes ctx root).map Prod.fst) := by
  match root with
  | .container t own children fallback =>
    rw [walkedNodes, walkNodes, List.map_cons, List.map_append]
    refine .cons_cons _ (.append ?_ (walkedOptional_sublist ctx fallback))
    split
    · exact walkedChildren_sublist _ children
    · exact List.nil_sublist _
  | .packageList own cellTemplate fallback =>
    rw [walkedNodes, walkNodes, List.map_cons, List.map_append]
    exact .cons_cons _ (.append (walkedOptional_sublist _ cellTemplate)
      (walkedOptional_sublist ctx fallback))
  | .leaf t own fallback =>
    rw [walkedNodes, walkNodes, List.map_cons]
    exact .cons_cons _ (walkedOptional_sublist ctx fallback)

theorem walkedChildren_sublist (ctx : NodeWalkContext) (children : List PaywallNode) :
    (walkedChildren children).Sublist ((walkChildren ctx children).map Prod.fst) := by
  match children with
  | [] => exact List.nil_sublist _
  | node :: rest =>
    rw [walkedChildren, walkChildren, List.map_append]
    exact .append (walkedNodes_sublist ctx node) (walkedChildren_sublist ctx rest)

theorem walkedOptional_sublist (ctx : NodeWalkContext) (node : Option PaywallNode) :
    (walkedOptional node).Sublist ((walkOptional ctx node).map Prod.fst) := by
  match node with
  | none => exact List.nil_sublist _
  | some node => exact walkedNodes_sublist ctx node

end

theorem UniqueIds.walked {config : BuilderConfig} (h : UniqueIds config) :
    ((walkedNodes config.root).map PaywallNode.id).Nodup := by
  have hall : (((walkNodes {} config.root).map Prod.fst).map PaywallNode.id).Nodup := by
    rw [List.map_map]
    exact h
  exact hall.sublist ((walkedNodes_sublist {} config.root).map _)

theorem eq_of_id_eq {nodes : List PaywallNode} (hunique : (nodes.map PaywallNode.id).Nodup)
    {m n : PaywallNode} (hm : m ∈ nodes) (hn : n ∈ nodes) (hid : m.id = n.id) : m = n :=
  List.inj_on_of_nodup_map hunique hm hn hid

theorem exists_sameOwn {ms ns : List PaywallNode} (h : List.Forall₂ sameOwn ms ns) :
    ∀ m ∈ ms, ∃ n ∈ ns, sameOwn m n := by
  induction h with
  | nil =>
    intro m hm
    exact absurd hm List.not_mem_nil
  | cons hsame _ ih =>
    intro m hm
    rcases List.mem_cons.1 hm with rfl | hm
    · exact ⟨_, List.mem_cons_self, hsame⟩
    · obtain ⟨n, hn, hsame⟩ := ih m hm
      exact ⟨n, List.mem_cons_of_mem _ hn, hsame⟩

theorem SameOwns.of_same {a b : PaywallNode} (h : sameNode a b)
    (hb : ((walkedNodes b).map PaywallNode.id).Nodup) :
    SameOwns (walkedNodes a) (walkedNodes b) := by
  intro m hm n hn hid
  obtain ⟨n', hn', hsame⟩ := exists_sameOwn (walkedNodes_same h) m hm
  have heq : n' = n := eq_of_id_eq hb hn' hn (hsame.2.1.symm.trans hid)
  exact heq ▸ hsame

def allNodeTypes : List NodeType :=
  [.container .stack, .container .stickyFooter, .container .carousel, .packageList, .leaf .text,
    .leaf .image, .leaf .button, .leaf .purchaseButton, .leaf .spacer, .leaf .divider, .leaf .icon,
    .leaf .featureList, .leaf .timeline, .leaf .socialProof, .leaf .countdown, .leaf .video,
    .leaf .lottie, .leaf .footerLinks]

theorem NodeType.name_injective {s t : NodeType} (h : s.name = t.name) : s = t := by
  have hmem : ∀ t : NodeType, t ∈ allNodeTypes := by
    intro t
    match t with
    | .container .stack | .container .stickyFooter | .container .carousel | .packageList
    | .leaf .text | .leaf .image | .leaf .button | .leaf .purchaseButton | .leaf .spacer
    | .leaf .divider | .leaf .icon | .leaf .featureList | .leaf .timeline | .leaf .socialProof
    | .leaf .countdown | .leaf .video | .leaf .lottie | .leaf .footerLinks => decide
  have hall : ∀ s ∈ allNodeTypes, ∀ t ∈ allNodeTypes, s.name = t.name → s = t := by decide
  exact hall s (hmem s) t (hmem t) h

section
variable {a b config : BuilderConfig}

end

/-- The nodes sit at the same places, over equal carousel pages and sticky footers, and the locales
are the same. -/
structure Placed (a b : BuilderConfig) : Prop where
  nodes : arranged a.root b.root
  locales : ∀ locale,
    (a.localizations.get? locale).isSome = (b.localizations.get? locale).isSome

section
variable {a b : BuilderConfig}

end

def spacer (id : String) : PaywallNode := .leaf .spacer { id := id } none

end Rovenue.Paywall
