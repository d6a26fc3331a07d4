import Mathlib

/-! Trees as a node in a context: frames around a hole, what a change in the hole leaves alone,
and the recursions that look for a key or rewrite the node that has it. -/

namespace Graph
variable {N F S K L : Type}

/-- A frame is a node with one of its slots left open. `around` are the keys of the frame. -/
structure Frames (N F S K L : Type) where
  key : N → K
  keys : N → List K
  label : N → L
  slot : N → S → Option N
  fill : F → N → N
  step : F → S
  around : F → List K
  keys_fill : ∀ f n, (keys (fill f n)).Perm (around f ++ keys n)
  key_fill : ∀ f n, key (fill f n) ∈ around f
  key_mem : ∀ n, key n ∈ keys n
  label_fill : ∀ f n n', label (fill f n) = label (fill f n')
  slot_fill : ∀ f n, slot (fill f n) (step f) = some n
  slot_other : ∀ f n n' s, s ≠ step f → slot (fill f n) s = slot (fill f n') s
  opened : ∀ n k, k ∈ keys n → key n = k ∨ ∃ f c, n = fill f c ∧ k ∈ keys c

namespace Frames
variable (T : Frames N F S K L)

def plug (C : List F) (n : N) : N := C.foldr T.fill n

def place (C : List F) : List S := C.map T.step

def outside (C : List F) : List K := C.flatMap T.around

def nodeAt : List S → N → Option N
  | [], n => some n
  | s :: rest, n => (T.slot n s).bind (nodeAt rest)

/-- The trees differ at `place` only: what is not above or below it is the same node, and above it
only the slots on the way to it differ. -/
structure ChangedAt (place : List S) (n n' : N) : Prop where
  apart : ∀ q, ¬place <+: q → ¬q <+: place → T.nodeAt q n' = T.nodeAt q n
  above : ∀ q s rest, place = q ++ s :: rest → ∃ m m', T.nodeAt q n = some m ∧
    T.nodeAt q n' = some m' ∧ T.label m' = T.label m ∧ ∀ s' ≠ s, T.slot m' s' = T.slot m s'

variable {T} {C : List F} {n n' : N} {k : K}

@[simp] theorem plug_nil : T.plug [] n = n := rfl

@[simp] theorem plug_cons {f : F} : T.plug (f :: C) n = T.fill f (T.plug C n) := rfl

theorem keys_plug : (T.keys (T.plug C n)).Perm (T.outside C ++ T.keys n) := by
  induction C with
  | nil => exact .refl _
  | cons f C ih =>
    have hframe := T.keys_fill f (T.plug C n)
    rw [outside, List.flatMap_cons, List.append_assoc]
    exact hframe.trans (ih.append_left (T.around f))

theorem nodup_plug_iff : (T.keys (T.plug C n)).Nodup ↔
    (T.outside C).Nodup ∧ (T.keys n).Nodup ∧ ∀ k ∈ T.outside C, k ∉ T.keys n := by
  rw [keys_plug.nodup_iff, List.nodup_append]
  refine and_congr_right fun _ => and_congr_right fun _ => ?_
  exact ⟨fun h k hk hn => h k hk k hn rfl, fun h k hk k' hk' heq => h k hk (heq ▸ hk')⟩

theorem length_keys_lt {f : F} : (T.keys n).length < (T.keys (T.fill f n)).length := by
  have hlength := (T.keys_fill f n).length_eq
  have hpos := List.length_pos_of_mem (T.key_fill f n)
  rw [List.length_append] at hlength
  omega

theorem exists_plug (n : N) (h : k ∈ T.keys n) : ∃ C t, n = T.plug C t ∧ T.key t = k := by
  obtain hkey | ⟨f, c, hfill, hmem⟩ := T.opened n k h
  · exact ⟨[], n, rfl, hkey⟩
  · have hlt : (T.keys c).length < (T.keys n).length := hfill ▸ length_keys_lt
    obtain ⟨C, t, rfl, hkey⟩ := exists_plug c hmem
    exact ⟨f :: C, t, hfill, hkey⟩
termination_by (T.keys n).length

theorem not_mem_outside (h : (T.keys (T.plug C n)).Nodup) (hk : k ∈ T.keys n) :
    k ∉ T.outside C := fun hout => (nodup_plug_iff.1 h).2.2 k hout hk

theorem key_plug_mem (h : C ≠ []) : T.key (T.plug C n) ∈ T.outside C := by
  obtain ⟨f, C, rfl⟩ := List.exists_cons_of_ne_nil h
  rw [outside, List.flatMap_cons]
  exact List.mem_append_left _ (T.key_fill f _)

theorem nodeAt_place : T.nodeAt (T.place C) (T.plug C n) = some n := by
  induction C with
  | nil => rfl
  | cons f C ih =>
    show (T.slot (T.fill f (T.plug C n)) (T.step f)).bind _ = _
    rw [T.slot_fill, Option.bind_some]
    exact ih

theorem ChangedAt.cons {f : F} {p : List S} (h : T.ChangedAt p n n') :
    T.ChangedAt (T.step f :: p) (T.fill f n) (T.fill f n') where
  apart q hbelow habove := by
    cases q with
    | nil => exact absurd List.nil_prefix habove
    | cons s q =>
      show (T.slot (T.fill f n') s).bind (T.nodeAt q) = (T.slot (T.fill f n) s).bind (T.nodeAt q)
      by_cases hs : s = T.step f
      · subst hs
        rw [T.slot_fill, T.slot_fill]
        refine h.apart q (fun hq => hbelow ?_) (fun hq => habove ?_)
        · exact (List.prefix_cons_inj _).2 hq
        · exact (List.prefix_cons_inj _).2 hq
      · rw [T.slot_other f n' n s hs]
  above q s rest hp := by
    cases q with
    | nil =>
      obtain ⟨rfl, -⟩ := List.cons.inj hp
      exact ⟨_, _, rfl, rfl, T.label_fill f n' n, T.slot_other f n' n⟩
    | cons s' q =>
      obtain ⟨hs, htail⟩ := List.cons.inj hp
      subst hs
      obtain ⟨m, m', hm, hm', hsame⟩ := h.above q s rest htail
      refine ⟨m, m', ?_, ?_, hsame⟩
      · show (T.slot (T.fill f n) (T.step f)).bind _ = _
        rw [T.slot_fill]
        exact hm
      · show (T.slot (T.fill f n') (T.step f)).bind _ = _
        rw [T.slot_fill]
        exact hm'

theorem changedAt_plug : T.ChangedAt (T.place C) (T.plug C n) (T.plug C n') := by
  induction C with
  | nil =>
    refine ⟨fun q hbelow _ => absurd List.nil_prefix hbelow, fun q s rest h => ?_⟩
    exact absurd h.symm (by simp [place])
  | cons f C ih => exact ih.cons

theorem search_plug {A : Type} (g : N → A) (ok : N → Prop)
    (hstep : ∀ f m, k ∉ T.around f → ok m → g (T.fill f m) = g m)
    (hok : ∀ f m, k ∉ T.around f → ok (T.fill f m))
    (hn : ok n) (hk : k ∉ T.outside C) : g (T.plug C n) = g n := by
  induction C with
  | nil => rfl
  | cons f C ih =>
    rw [outside, List.flatMap_cons, List.mem_append, not_or] at hk
    have hplug : ok (T.plug C n) := by
      cases C with
      | nil => exact hn
      | cons f' C =>
        refine hok f' _ fun h => hk.2 ?_
        rw [List.flatMap_cons]
        exact List.mem_append_left _ h
    rw [plug_cons, hstep f _ hk.1 hplug]
    exact ih hk.2

theorem rewrite_plug (g : N → N)
    (hstep : ∀ f m, k ∉ T.around f → g (T.fill f m) = T.fill f (g m))
    (hk : k ∉ T.outside C) : g (T.plug C n) = T.plug C (g n) := by
  induction C with
  | nil => rfl
  | cons f C ih =>
    rw [outside, List.flatMap_cons, List.mem_append, not_or] at hk
    rw [plug_cons, hstep f _ hk.1, ih hk.2]
    rfl

end Frames
end Graph
