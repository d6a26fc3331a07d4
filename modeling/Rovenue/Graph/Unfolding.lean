import Mathlib

/-! Trees that are only unfolded from a value: their nodes and depth, what a loop over an explicit
stack measures of them, and what hangs off in slots that it does not look into. -/

namespace Graph
variable {V : Type}

structure Unfolding (V : Type) where
  isNode : V → Bool
  kids : V → List V
  shrinks : ∃ size : V → ℕ, ∀ v, ∀ c ∈ kids v, size c < size v

namespace Unfolding
variable (U : Unfolding V)

noncomputable def size : V → ℕ := U.shrinks.choose

theorem smaller (v : V) : ∀ c ∈ U.kids v, U.size c < U.size v := U.shrinks.choose_spec v

def nodes (v : V) : ℕ :=
  if U.isNode v then 1 + ((U.kids v).attach.map fun c => nodes c.1).sum else 0
termination_by U.size v
decreasing_by exact U.smaller v c.1 c.2

def depth (v : V) : ℕ :=
  if U.isNode v then 1 + ((U.kids v).attach.map fun c => depth c.1).foldr max 0 else 0
termination_by U.size v
decreasing_by exact U.smaller v c.1 c.2

def values (v : V) : ℕ :=
  if U.isNode v then 1 + ((U.kids v).attach.map fun c => values c.1).sum else 1
termination_by U.size v
decreasing_by exact U.smaller v c.1 c.2

variable {U} {v : V}

theorem nodes_of_not (h : U.isNode v = false) : U.nodes v = 0 := by
  rw [nodes, if_neg (Bool.eq_false_iff.1 h)]

theorem depth_of_not (h : U.isNode v = false) : U.depth v = 0 := by
  rw [depth, if_neg (Bool.eq_false_iff.1 h)]

theorem nodes_eq (h : U.isNode v = true) :
    U.nodes v = 1 + ((U.kids v).map U.nodes).sum := by
  rw [nodes, if_pos h, List.map_attach_eq_pmap, List.pmap_eq_map]

theorem depth_eq (h : U.isNode v = true) :
    U.depth v = 1 + ((U.kids v).map U.depth).foldr max 0 := by
  rw [depth, if_pos h, List.map_attach_eq_pmap, List.pmap_eq_map]

theorem foldr_max_le {l : List ℕ} {n : ℕ} : l.foldr max 0 ≤ n ↔ ∀ m ∈ l, m ≤ n := by
  induction l with
  | nil => simp
  | cons m l ih => rw [List.foldr_cons, max_le_iff, ih, List.forall_mem_cons]

/-- Below `e` levels a node reaches no deeper than `n` when none of its kids does. -/
theorem depth_le_iff (h : U.isNode v = true) {e n : ℕ} :
    e + U.depth v ≤ n ↔ e + 1 ≤ n ∧ ∀ c ∈ U.kids v, e + 1 + U.depth c ≤ n := by
  rw [depth_eq h]
  constructor
  · intro hle
    refine ⟨by omega, fun c hc => ?_⟩
    have hmax := foldr_max_le.1 (le_refl (((U.kids v).map U.depth).foldr max 0)) (U.depth c)
      (List.mem_map_of_mem hc)
    omega
  · intro ⟨hle, hkids⟩
    have hmax : ((U.kids v).map U.depth).foldr max 0 ≤ n - (e + 1) := by
      refine foldr_max_le.2 fun m hm => ?_
      obtain ⟨c, hc, rfl⟩ := List.mem_map.1 hm
      have hc := hkids c hc
      omega
    omega

/-- `U` looks into some slots more than `S`. -/
structure Hides (S U : Unfolding V) (hidden : V → List V) : Prop where
  isNode : ∀ v, U.isNode v = S.isNode v
  kids : ∀ v, (U.kids v).Perm (S.kids v ++ hidden v)

def hiddenIn (S : Unfolding V) (hidden : V → List V) (e : ℕ) (v : V) : List (ℕ × V) :=
  -- what hangs in hidden slots of the nodes that `S` sees, with the depth of the node
  if S.isNode v then
    (hidden v).map (fun c => (e + 1, c)) ++
      (S.kids v).attach.flatMap fun c => S.hiddenIn hidden (e + 1) c.1
  else []
termination_by S.size v
decreasing_by exact S.smaller v c.1 c.2

variable {S : Unfolding V} {hidden : V → List V}

theorem hiddenIn_eq {e : ℕ} (h : S.isNode v = true) :
    S.hiddenIn hidden e v = (hidden v).map (fun c => (e + 1, c)) ++
      (S.kids v).flatMap fun c => S.hiddenIn hidden (e + 1) c := by
  rw [hiddenIn, if_pos h, List.flatMap_def, List.map_attach_eq_pmap, List.pmap_eq_map,
    ← List.flatMap_def]

theorem hiddenIn_of_not {e : ℕ} (h : S.isNode v = false) : S.hiddenIn hidden e v = [] := by
  rw [hiddenIn, if_neg (Bool.eq_false_iff.1 h)]

theorem Hides.nodes (h : Hides S U hidden) (e : ℕ) (v : V) :
    U.nodes v = S.nodes v + ((S.hiddenIn hidden e v).map fun x => U.nodes x.2).sum := by
  by_cases hnode : S.isNode v = true
  · have hkids : ((S.kids v).map U.nodes).sum = ((S.kids v).map S.nodes).sum +
        (((S.kids v).flatMap fun c => S.hiddenIn hidden (e + 1) c).map
          fun x => U.nodes x.2).sum := by
      have heach : ∀ c ∈ S.kids v, U.nodes c = S.nodes c +
          ((S.hiddenIn hidden (e + 1) c).map fun x => U.nodes x.2).sum :=
        fun c hc => h.nodes (e + 1) c
      rw [List.map_congr_left heach, List.sum_map_add, List.map_flatMap, List.flatMap_def,
        List.sum_flatten, List.map_map]
      rfl
    have hperm : ((U.kids v).map U.nodes).sum =
        ((S.kids v).map U.nodes).sum + ((hidden v).map U.nodes).sum := by
      rw [((h.kids v).map U.nodes).sum_eq, List.map_append, List.sum_append]
    have hslots : (((hidden v).map fun c => (e + 1, c)).map fun x => U.nodes x.2).sum =
        ((hidden v).map U.nodes).sum := by
      rw [List.map_map]
      rfl
    rw [nodes_eq ((h.isNode v).trans hnode), nodes_eq hnode, hiddenIn_eq hnode, List.map_append,
      List.sum_append, hslots, hperm, hkids]
    omega
  · have hnot : S.isNode v = false := Bool.eq_false_iff.2 hnode
    rw [nodes_of_not ((h.isNode v).trans hnot), nodes_of_not hnot, hiddenIn_of_not hnot]
    rfl
termination_by S.size v
decreasing_by exact S.smaller v c hc

theorem Hides.depth_le_iff (h : Hides S U hidden) {n : ℕ} (e : ℕ) (v : V) :
    e + U.depth v ≤ n ↔ e + S.depth v ≤ n ∧
      ∀ x ∈ S.hiddenIn hidden e v, x.1 + U.depth x.2 ≤ n := by
  by_cases hnode : S.isNode v = true
  · rw [Unfolding.depth_le_iff ((h.isNode v).trans hnode), Unfolding.depth_le_iff hnode,
      hiddenIn_eq hnode]
    have heach : ∀ c ∈ S.kids v, e + 1 + U.depth c ≤ n ↔ e + 1 + S.depth c ≤ n ∧
        ∀ x ∈ S.hiddenIn hidden (e + 1) c, x.1 + U.depth x.2 ≤ n :=
      fun c hc => h.depth_le_iff (e + 1) c
    constructor
    · intro ⟨hle, hkids⟩
      refine ⟨⟨hle, fun c hc => ?_⟩, fun x hx => ?_⟩
      · exact ((heach c hc).1 (hkids c ((h.kids v).mem_iff.2 (List.mem_append_left _ hc)))).1
      · obtain hx | hx := List.mem_append.1 hx
        · obtain ⟨c, hc, rfl⟩ := List.mem_map.1 hx
          exact hkids c ((h.kids v).mem_iff.2 (List.mem_append_right _ hc))
        · obtain ⟨c, hc, hx⟩ := List.mem_flatMap.1 hx
          exact ((heach c hc).1
            (hkids c ((h.kids v).mem_iff.2 (List.mem_append_left _ hc)))).2 x hx
    · intro ⟨⟨hle, hkids⟩, hslots⟩
      refine ⟨hle, fun c hc => ?_⟩
      obtain hc | hc := List.mem_append.1 ((h.kids v).mem_iff.1 hc)
      · refine (heach c hc).2 ⟨hkids c hc, fun x hx => hslots x ?_⟩
        exact List.mem_append_right _ (List.mem_flatMap.2 ⟨c, hc, hx⟩)
      · exact hslots (e + 1, c) (List.mem_append_left _ (List.mem_map_of_mem hc))
  · have hnot : S.isNode v = false := Bool.eq_false_iff.2 hnode
    rw [depth_of_not ((h.isNode v).trans hnot), depth_of_not hnot, hiddenIn_of_not hnot]
    exact ⟨fun hle => ⟨hle, nofun⟩, fun hboth => hboth.1⟩
termination_by S.size v
decreasing_by exact S.smaller v c hc

end Unfolding

end Graph
