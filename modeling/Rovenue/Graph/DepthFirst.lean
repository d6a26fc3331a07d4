import Mathlib

/-! A coloured depth-first search. Without an edge back into its stack, every edge leads to a
vertex that was finished before, so there is no cycle. -/

namespace Graph
variable {V : Type}

inductive Color where
  | white | gray | black
  deriving DecidableEq

/-- A vertex outside the graph has no colour. `found` lists the edges back into the stack. -/
structure Search (V : Type) where
  color : V → Option Color
  found : List (List V × V) := []

def follow (recur : V → List V → Search V → Search V) (stack : List V) (s : Search V) (u : V) :
    Search V :=
  match s.color u with
  | some .gray => { s with found := s.found ++ [(stack, u)] }
  | some .white => recur u (stack ++ [u]) s
  | _ => s

section Definitions
variable [DecidableEq V]

def Search.paint (s : Search V) (v : V) (c : Color) : Search V :=
  { s with color := Function.update s.color v (some c) }

def visit (succ : V → List V) : ℕ → V → List V → Search V → Search V
  | 0, _, _, s => s
  | fuel + 1, v, stack, s =>
    ((succ v).foldl (follow (visit succ fuel) stack) (s.paint v .gray)).paint v .black

def unvisited (vs : List V) : Search V where
  color v := if v ∈ vs then some .white else none

def start (succ : V → List V) (fuel : ℕ) (s : Search V) (v : V) : Search V :=
  if s.color v = some .white then visit succ fuel v [v] s else s

def search (succ : V → List V) (vs : List V) : Search V :=
  vs.foldl (start succ vs.length) (unvisited vs)

end Definitions

variable {succ : V → List V} {graph : V → Prop} {r s t : Search V} {u v : V} {done : List V}

def Closed (succ : V → List V) (graph : V → Prop) : List V → Prop
  | [] => True
  | v :: done => (∀ u ∈ succ v, graph u → u ∈ done) ∧ Closed succ graph done

structure Good (succ : V → List V) (graph : V → Prop) (s : Search V) (done : List V) : Prop where
  domain : ∀ v, (s.color v).isSome ↔ graph v
  black : ∀ v, s.color v = some .black ↔ v ∈ done
  nodup : done.Nodup
  closed : s.found = [] → Closed succ graph done

structure Grows (s t : Search V) : Prop where
  gray : ∀ v, t.color v = some .gray ↔ s.color v = some .gray
  black : ∀ v, s.color v = some .black → t.color v = some .black
  domain : ∀ v, (t.color v).isSome ↔ (s.color v).isSome
  found : t.found = [] → s.found = []

theorem Grows.refl (s : Search V) : Grows s s :=
  ⟨fun _ => Iff.rfl, fun _ => id, fun _ => Iff.rfl, id⟩

theorem Grows.trans (h : Grows r s) (h' : Grows s t) : Grows r t where
  gray v := (h'.gray v).trans (h.gray v)
  black v hv := h'.black v (h.black v hv)
  domain v := (h'.domain v).trans (h.domain v)
  found ht := h.found (h'.found ht)

theorem Grows.white (h : Grows s t) (hv : t.color v = some .white) : s.color v = some .white := by
  have hsome : (s.color v).isSome := by
    rw [← h.domain, hv]
    rfl
  rcases hs : s.color v with _ | _ | _ | _
  · simp [hs] at hsome
  · rfl
  · have hgray := (h.gray v).2 hs
    simp [hv] at hgray
  · have hblack := h.black v hs
    simp [hv] at hblack

def whites (vs : Finset V) (s : Search V) : Finset V := vs.filter fun v => s.color v = some .white

theorem Grows.whites (h : Grows s t) (vs : Finset V) : Graph.whites vs t ⊆ Graph.whites vs s := by
  intro v hv
  rw [Graph.whites, Finset.mem_filter] at hv ⊢
  exact ⟨hv.1, h.white hv.2⟩

section Visit
variable {vs : Finset V} {fuel : ℕ}

def Visits (succ : V → List V) (graph : V → Prop) (vs : Finset V) (fuel : ℕ)
    (recur : V → List V → Search V → Search V) : Prop :=
  ∀ v stack s done, Good succ graph s done → s.color v = some .white →
    (whites vs s).card ≤ fuel → ∃ done', Good succ graph (recur v stack s) done' ∧
      Grows s (recur v stack s) ∧ (recur v stack s).color v = some .black

variable {recur : V → List V → Search V → Search V}

theorem Visits.follow (h : Visits succ graph vs fuel recur) (stack : List V) (u : V)
    (hs : Good succ graph s done)
    (hfuel : (whites vs s).card ≤ fuel) :
    ∃ done', Good succ graph (follow recur stack s u) done' ∧ Grows s (follow recur stack s u) ∧
      ((follow recur stack s u).found = [] → graph u →
        (follow recur stack s u).color u = some .black) := by
  rw [Graph.follow]
  rcases hu : s.color u with _ | _ | _ | _
  · refine ⟨done, hs, .refl s, fun _ hgraph => ?_⟩
    have hsome := (hs.domain u).2 hgraph
    simp [hu] at hsome
  · obtain ⟨done', hgood, hgrows, hblack⟩ := h u (stack ++ [u]) s done hs hu hfuel
    exact ⟨done', hgood, hgrows, fun _ _ => hblack⟩
  · have hfound : s.found ++ [(stack, u)] ≠ [] := by simp
    exact ⟨done, ⟨hs.domain, hs.black, hs.nodup, fun hnil => absurd hnil hfound⟩,
      ⟨fun _ => Iff.rfl, fun _ => id, fun _ => Iff.rfl, fun hnil => absurd hnil hfound⟩,
      fun hnil => absurd hnil hfound⟩
  · exact ⟨done, hs, .refl s, fun _ _ => hu⟩

theorem Visits.foldl (h : Visits succ graph vs fuel recur) (stack us : List V)
    (hs : Good succ graph s done) (hfuel : (whites vs s).card ≤ fuel) :
    ∃ done', Good succ graph (us.foldl (Graph.follow recur stack) s) done' ∧
      Grows s (us.foldl (Graph.follow recur stack) s) ∧
      ((us.foldl (Graph.follow recur stack) s).found = [] → ∀ u ∈ us, graph u →
        (us.foldl (Graph.follow recur stack) s).color u = some .black) := by
  induction us generalizing s done with
  | nil => exact ⟨done, hs, .refl s, fun _ u hu => by cases hu⟩
  | cons u us ih =>
    rw [List.foldl_cons]
    obtain ⟨mid, hmid, hfirst, hu⟩ := h.follow stack u hs hfuel
    have hleft := (Finset.card_le_card (hfirst.whites vs)).trans hfuel
    obtain ⟨done', hgood, hrest, hus⟩ := ih hmid hleft
    refine ⟨done', hgood, hfirst.trans hrest, fun hnil w hw hgraph => ?_⟩
    rcases List.mem_cons.1 hw with rfl | hw
    · exact hrest.black w (hu (hrest.found hnil) hgraph)
    · exact hus hnil w hw hgraph

variable [DecidableEq V] {c : Color}

@[simp] theorem Search.paint_self : (s.paint v c).color v = some c := Function.update_self ..

theorem Search.paint_of_ne (h : u ≠ v) : (s.paint v c).color u = s.color u :=
  Function.update_of_ne h ..

theorem Good.paint_gray (hs : Good succ graph s done) (hv : s.color v = some .white) :
    Good succ graph (s.paint v .gray) done := by
  have hgraph : graph v := by
    rw [← hs.domain, hv]
    rfl
  refine ⟨fun u => ?_, fun u => ?_, hs.nodup, hs.closed⟩
  · by_cases hu : u = v
    · subst hu
      rw [Search.paint_self]
      exact iff_of_true rfl hgraph
    · rw [Search.paint_of_ne hu]
      exact hs.domain u
  · by_cases hu : u = v
    · subst hu
      rw [← hs.black, Search.paint_self, hv]
      decide
    · rw [Search.paint_of_ne hu]
      exact hs.black u

theorem card_whites_paint (hv : s.color v = some .white) (hmem : v ∈ vs) :
    (whites vs (s.paint v .gray)).card < (whites vs s).card := by
  refine Finset.card_lt_card ⟨fun u hu => ?_, fun hsub => ?_⟩
  · obtain ⟨hu, hwhite⟩ := Finset.mem_filter.1 hu
    refine Finset.mem_filter.2 ⟨hu, ?_⟩
    by_cases huv : u = v
    · exact huv ▸ hv
    · rwa [Search.paint_of_ne huv] at hwhite
  · have hself := hsub (Finset.mem_filter.2 ⟨hmem, hv⟩)
    simp [whites] at hself

theorem Good.paint_black (ht : Good succ graph t done) (hv : t.color v = some .gray)
    (hsucc : t.found = [] → ∀ u ∈ succ v, graph u → t.color u = some .black) :
    Good succ graph (t.paint v .black) (v :: done) := by
  have hgraph : graph v := by
    rw [← ht.domain, hv]
    rfl
  have hfresh : v ∉ done := by
    rw [← ht.black, hv]
    decide
  refine ⟨fun u => ?_, fun u => ?_, List.nodup_cons.2 ⟨hfresh, ht.nodup⟩, fun hnil => ⟨?_, ?_⟩⟩
  · by_cases hu : u = v
    · subst hu
      rw [Search.paint_self]
      exact iff_of_true rfl hgraph
    · rw [Search.paint_of_ne hu]
      exact ht.domain u
  · by_cases hu : u = v
    · subst hu
      exact iff_of_true Search.paint_self (List.mem_cons_self ..)
    · rw [Search.paint_of_ne hu, List.mem_cons, ht.black]
      exact (or_iff_right hu).symm
  · exact fun u hu hin => (ht.black u).1 (hsucc hnil u hu hin)
  · exact ht.closed hnil

theorem Grows.around (h : Grows (s.paint v .gray) t) (hv : s.color v = some .white) :
    Grows s (t.paint v .black) := by
  refine ⟨fun u => ?_, fun u hu => ?_, fun u => ?_, h.found⟩
  · by_cases huv : u = v
    · subst huv
      rw [Search.paint_self, hv]
      decide
    · rw [Search.paint_of_ne huv, h.gray, Search.paint_of_ne huv]
  · have huv : u ≠ v := by
      rintro rfl
      simp [hv] at hu
    rw [Search.paint_of_ne huv]
    refine h.black u ?_
    rwa [Search.paint_of_ne huv]
  · by_cases huv : u = v
    · subst huv
      rw [Search.paint_self, hv]
      rfl
    · rw [Search.paint_of_ne huv, h.domain, Search.paint_of_ne huv]

theorem visits_visit (hvs : ∀ v, graph v → v ∈ vs) (fuel : ℕ) :
    Visits succ graph vs fuel (visit succ fuel) := by
  induction fuel with
  | zero =>
    intro v stack s done hs hv hfuel
    have hgraph : graph v := by
      rw [← hs.domain, hv]
      rfl
    have hmem : v ∈ whites vs s := Finset.mem_filter.2 ⟨hvs v hgraph, hv⟩
    rw [Nat.le_zero, Finset.card_eq_zero] at hfuel
    simp [hfuel] at hmem
  | succ fuel ih =>
    intro v stack s done hs hv hfuel
    have hgraph : graph v := by
      rw [← hs.domain, hv]
      rfl
    have hleft : (whites vs (s.paint v .gray)).card ≤ fuel :=
      Nat.lt_succ_iff.1 ((card_whites_paint hv (hvs v hgraph)).trans_le hfuel)
    obtain ⟨done', hgood, hgrows, hsucc⟩ := ih.foldl stack (succ v) (hs.paint_gray hv) hleft
    have hgray := (hgrows.gray v).2 Search.paint_self
    exact ⟨v :: done', hgood.paint_black hgray hsucc, hgrows.around hv, Search.paint_self⟩

theorem start_grows (hvs : ∀ v, graph v → v ∈ vs) (hs : Good succ graph s done)
    (hfuel : (whites vs s).card ≤ fuel) (hv : graph v) (hgray : ∀ u, s.color u ≠ some .gray) :
    ∃ done', Good succ graph (start succ fuel s v) done' ∧ Grows s (start succ fuel s v) ∧
      (start succ fuel s v).color v = some .black := by
  rw [start]
  split_ifs with hwhite
  · exact visits_visit hvs fuel v [v] s done hs hwhite hfuel
  · have hsome := (hs.domain v).2 hv
    rcases hcolor : s.color v with _ | _ | _ | _
    · simp [hcolor] at hsome
    · exact absurd hcolor hwhite
    · exact absurd hcolor (hgray v)
    · exact ⟨done, hs, .refl s, rfl⟩

theorem foldl_start (hvs : ∀ v, graph v → v ∈ vs) (roots : List V) (hroots : ∀ v ∈ roots, graph v)
    (hs : Good succ graph s done) (hfuel : (whites vs s).card ≤ fuel)
    (hgray : ∀ u, s.color u ≠ some .gray) :
    ∃ done', Good succ graph (roots.foldl (start succ fuel) s) done' ∧
      Grows s (roots.foldl (start succ fuel) s) ∧
      ∀ v ∈ roots, (roots.foldl (start succ fuel) s).color v = some .black := by
  induction roots generalizing s done with
  | nil => exact ⟨done, hs, .refl s, fun v hv => by cases hv⟩
  | cons v roots ih =>
    rw [List.foldl_cons]
    obtain ⟨mid, hmid, hfirst, hv⟩ :=
      start_grows hvs hs hfuel (hroots v (List.mem_cons_self ..)) hgray
    have hleft := (Finset.card_le_card (hfirst.whites vs)).trans hfuel
    have hgray' : ∀ u, (start succ fuel s v).color u ≠ some .gray :=
      fun u hu => hgray u ((hfirst.gray u).1 hu)
    obtain ⟨done', hgood, hrest, hroots'⟩ :=
      ih (fun u hu => hroots u (List.mem_cons_of_mem _ hu)) hmid hleft hgray'
    refine ⟨done', hgood, hfirst.trans hrest, fun w hw => ?_⟩
    rcases List.mem_cons.1 hw with rfl | hw
    · exact hrest.black w hv
    · exact hroots' w hw

theorem exists_closed (vs : List V) (hfound : (search succ vs).found = []) :
    ∃ done : List V, done.Nodup ∧ Closed succ (· ∈ vs) done ∧ ∀ v ∈ vs, v ∈ done := by
  have hunvisited : ∀ v, (unvisited vs).color v = some .white ↔ v ∈ vs := by
    intro v
    simp [unvisited]
  have hstart : Good succ (· ∈ vs) (unvisited vs) [] := by
    refine ⟨fun v => ?_, fun v => ?_, List.nodup_nil, fun _ => trivial⟩
    · simp only [unvisited]
      split_ifs with hv <;> simp [hv]
    · simp [unvisited]
  have hfuel : (whites vs.toFinset (unvisited vs)).card ≤ vs.length :=
    (Finset.card_filter_le ..).trans vs.toFinset_card_le
  have hgray : ∀ v, (unvisited vs).color v ≠ some .gray := by
    intro v
    simp [unvisited]
  obtain ⟨done, hgood, -, hblack⟩ := foldl_start (fun v hv => List.mem_toFinset.2 hv) vs
    (fun _ => id) hstart hfuel hgray
  exact ⟨done, hgood.nodup, hgood.closed hfound, fun v hv => (hgood.black v).1 (hblack v hv)⟩

theorem Closed.exists_rank (h : Closed succ graph done) (hnodup : done.Nodup) :
    ∃ rank : V → ℕ, (∀ v ∈ done, rank v ≤ done.length) ∧
      ∀ v ∈ done, ∀ u ∈ succ v, graph u → u ∈ done ∧ rank u < rank v := by
  induction done with
  | nil => exact ⟨fun _ => 0, by simp, by simp⟩
  | cons w done ih =>
    obtain ⟨hw, hnodup⟩ := List.nodup_cons.1 hnodup
    obtain ⟨rank, hbound, hrank⟩ := ih h.2 hnodup
    let ranked := Function.update rank w (done.length + 1)
    have hself : ranked w = done.length + 1 := Function.update_self ..
    have hold : ∀ v ∈ done, ranked v = rank v := by
      intro v hv
      refine Function.update_of_ne ?_ ..
      rintro rfl
      exact hw hv
    refine ⟨ranked, fun v hv => ?_, fun v hv u hu hgraph => ?_⟩
    · rcases List.mem_cons.1 hv with rfl | hv
      · exact hself.le
      · rw [hold v hv]
        exact (hbound v hv).trans (Nat.le_succ _)
    · rcases List.mem_cons.1 hv with rfl | hv
      · have hmem := h.1 u hu hgraph
        rw [hold u hmem, hself]
        exact ⟨List.mem_cons_of_mem _ hmem, Nat.lt_succ_of_le (hbound u hmem)⟩
      · obtain ⟨hmem, hlt⟩ := hrank v hv u hu hgraph
        rw [hold u hmem, hold v hv]
        exact ⟨List.mem_cons_of_mem _ hmem, hlt⟩

theorem exists_rank (vs : List V) (hfound : (search succ vs).found = []) :
    ∃ rank : V → ℕ, ∀ v ∈ vs, ∀ u ∈ succ v, u ∈ vs → rank u < rank v := by
  obtain ⟨done, hnodup, hclosed, hall⟩ := exists_closed vs hfound
  obtain ⟨rank, -, hrank⟩ := hclosed.exists_rank hnodup
  exact ⟨rank, fun v hv u hu hgraph => (hrank v (hall v hv) u hu hgraph).2⟩

end Visit
end Graph
