import Mathlib

/-! A graph in which every vertex leads to one other at most. A walk along it ends at its target,
at a vertex without an edge or at one that it has seen. -/

namespace Graph
open Relation
variable {V : Type} {next next' : V → Option V} {a b p x : V}

def Leads (next : V → Option V) (a b : V) : Prop := next a = some b

def Cyclic (next : V → Option V) : Prop := ∃ v, TransGen (Leads next) v v

theorem Leads.unique (h : Leads next a b) (h' : Leads next a x) : b = x :=
  Option.some.inj (h.symm.trans h')

theorem Cyclic.mono (hsub : ∀ a b, Leads next a b → Leads next' a b) (h : Cyclic next) :
    Cyclic next' := by
  obtain ⟨v, hv⟩ := h
  exact ⟨v, TransGen.mono hsub _ _ hv⟩

section Edge
variable [DecidableEq V]

theorem leads_update_self : Leads (Function.update next x (some p)) x p :=
  Function.update_self ..

theorem leads_update_of_ne (ha : a ≠ x) :
    Leads (Function.update next x (some p)) a b ↔ Leads next a b := by
  unfold Leads
  rw [Function.update_of_ne ha]

theorem path_update (h : ReflTransGen (Leads (Function.update next x (some p))) a b) :
    ReflTransGen (Leads next) a b ∨ ReflTransGen (Leads next) a x ∧
      ReflTransGen (Leads (Function.update next x (some p))) p b := by
  induction h using ReflTransGen.head_induction_on with
  | refl => exact .inl .refl
  | @head a c hedge hrest ih =>
    by_cases ha : a = x
    · subst ha
      obtain rfl := hedge.unique leads_update_self
      exact .inr ⟨.refl, hrest⟩
    · have hold := (leads_update_of_ne ha).1 hedge
      exact ih.imp (.head hold) fun ⟨hx, hp⟩ => ⟨.head hold hx, hp⟩

theorem path_before (h : ReflTransGen (Leads next) a x) :
    ReflTransGen (Leads (Function.update next x (some p))) a x := by
  induction h using ReflTransGen.head_induction_on with
  | refl => exact .refl
  | @head a c hedge hrest ih =>
    by_cases ha : a = x
    · subst ha
      exact .refl
    · exact .head ((leads_update_of_ne ha).2 hedge) ih

theorem closes_iff : TransGen (Leads (Function.update next x (some p))) x x ↔
    ReflTransGen (Leads next) p x := by
  constructor
  · intro h
    obtain ⟨c, hedge, hrest⟩ := TransGen.head'_iff.1 h
    obtain rfl := hedge.unique leads_update_self
    exact (path_update hrest).elim id fun hboth => hboth.1
  · exact fun h => TransGen.head' leads_update_self (path_before h)

theorem cyclic_update (h : Cyclic (Function.update next x (some p))) :
    Cyclic next ∨ ReflTransGen (Leads next) p x := by
  obtain ⟨v, hv⟩ := h
  obtain ⟨c, hedge, hrest⟩ := TransGen.head'_iff.1 hv
  by_cases hvx : v = x
  · subst hvx
    exact .inr (closes_iff.1 hv)
  · have hold := (leads_update_of_ne hvx).1 hedge
    obtain hback | ⟨hx, hp⟩ := path_update hrest
    · exact .inl ⟨v, TransGen.head' hold hback⟩
    · right
      obtain hback | ⟨hback, -⟩ := path_update hp
      · exact hback.trans (.head hold hx)
      · exact hback

end Edge

/-- Whoever leads nowhere, and is led to by no one, is on no cycle: an edge out of it is
harmless. -/
theorem cyclic_fresh [DecidableEq V] (hfresh : ∀ a, ¬Leads next a x) (hp : p ≠ x)
    (h : Cyclic (Function.update next x (some p))) : Cyclic next := by
  refine (cyclic_update h).resolve_right fun hpath => ?_
  obtain rfl | ⟨c, -, hlast⟩ := ReflTransGen.cases_tail hpath
  · exact hp rfl
  · exact hfresh c hlast

def walk [DecidableEq V] (next : V → Option V) (target : Option V) :
    ℕ → List V → Option V → Option Bool
  -- Follow the edges from `cursor`: `true` at the target, `false` where the chain ends or repeats
  -- itself. The fuel bounds the steps.
  | _, _, none => some false
  | 0, _, some _ => none
  | fuel + 1, seen, some cursor =>
    if target = some cursor then some true
    else if cursor ∈ seen then some false
    else walk next target fuel (cursor :: seen) (next cursor)

section Walk
variable [DecidableEq V] {target : Option V} {fuel : ℕ} {seen : List V} {cursor : Option V}

theorem walk_isSome {keys : List V} (hkeys : ∀ v, (next v).isSome = true → v ∈ keys)
    (hnodup : seen.Nodup) (hseen : ∀ v ∈ seen, v ∈ keys)
    (hfuel : keys.length < seen.length + fuel) : (walk next target fuel seen cursor).isSome := by
  induction fuel generalizing seen cursor with
  | zero =>
    have hle := (hnodup.subperm hseen).length_le
    omega
  | succ fuel ih =>
    cases cursor with
    | none => rfl
    | some cursor =>
      rw [walk]
      split_ifs with htarget hmem
      · rfl
      · rfl
      · cases hnext : next cursor with
        | none =>
          cases fuel <;> rfl
        | some u =>
          have hkey : cursor ∈ keys := hkeys cursor (by rw [hnext]; rfl)
          refine ih (List.nodup_cons.2 ⟨hmem, hnodup⟩)
            (List.forall_mem_cons.2 ⟨hkey, hseen⟩) ?_
          rw [List.length_cons]
          omega

theorem path_of_walk (h : walk next (some x) fuel seen cursor = some true) :
    ∃ a, cursor = some a ∧ ReflTransGen (Leads next) a x := by
  induction fuel generalizing seen cursor with
  | zero => cases cursor <;> cases h
  | succ fuel ih =>
    cases cursor with
    | none => cases h
    | some cursor =>
      refine ⟨cursor, rfl, ?_⟩
      rw [walk] at h
      split_ifs at h with htarget hmem
      · obtain rfl := Option.some.inj htarget
        exact .refl
      · cases h
      · obtain ⟨u, hnext, hpath⟩ := ih h
        exact .head hnext hpath

theorem not_path_of_walk (h : walk next (some x) fuel seen cursor = some false)
    (hclosed : ∀ v ∈ seen, ∀ u, Leads next v u → u ∈ seen ∨ cursor = some u)
    (hx : x ∉ seen) : ∃ closed : V → Prop, (∀ a ∈ cursor, closed a) ∧ (∀ v ∈ seen, closed v) ∧
      ¬closed x ∧ ∀ v u, closed v → Leads next v u → closed u := by
  induction fuel generalizing seen cursor with
  | zero =>
    cases cursor with
    | none => exact ⟨(· ∈ seen), nofun, fun _ => id, hx,
        fun v u hv hu => (hclosed v hv u hu).resolve_right nofun⟩
    | some cursor => cases h
  | succ fuel ih =>
    cases cursor with
    | none => exact ⟨(· ∈ seen), nofun, fun _ => id, hx,
        fun v u hv hu => (hclosed v hv u hu).resolve_right nofun⟩
    | some cursor =>
      rw [walk] at h
      split_ifs at h with htarget hmem
      · cases h
      · refine ⟨(· ∈ seen), fun a ha => Option.some.inj ha ▸ hmem, fun _ => id, hx, ?_⟩
        intro v u hv hu
        exact (hclosed v hv u hu).elim id fun heq => Option.some.inj heq ▸ hmem
      · have hne : x ≠ cursor := fun heq => htarget (congrArg some heq)
        have hclosed' : ∀ v ∈ cursor :: seen, ∀ u, Leads next v u →
            u ∈ cursor :: seen ∨ next cursor = some u := by
          intro v hv u hu
          obtain rfl | hv := List.mem_cons.1 hv
          · exact .inr hu
          · obtain hu | hu := hclosed v hv u hu
            · exact .inl (List.mem_cons_of_mem _ hu)
            · exact .inl (List.mem_cons.2 (.inl (Option.some.inj hu).symm))
        obtain ⟨closed, -, hseen, hnot, hedges⟩ :=
          ih h hclosed' (List.not_mem_cons_of_ne_of_not_mem hne hx)
        have hcursor := hseen cursor (List.mem_cons_self ..)
        exact ⟨closed, fun a ha => Option.some.inj ha ▸ hcursor,
          fun v hv => hseen v (List.mem_cons_of_mem _ hv), hnot, hedges⟩

theorem walk_iff (h : (walk next (some x) fuel [] (some p)).isSome) :
    walk next (some x) fuel [] (some p) = some true ↔ ReflTransGen (Leads next) p x := by
  constructor
  · intro htrue
    obtain ⟨a, ha, hpath⟩ := path_of_walk htrue
    exact Option.some.inj ha ▸ hpath
  · intro hpath
    obtain ⟨found, hfound⟩ := Option.isSome_iff_exists.1 h
    cases found with
    | true => exact hfound
    | false =>
      obtain ⟨closed, hp, -, hx, hedges⟩ := not_path_of_walk hfound nofun List.not_mem_nil
      have hreach : ∀ b, ReflTransGen (Leads next) p b → closed b := by
        intro b hb
        induction hb with
        | refl => exact hp p rfl
        | tail _ hedge ih => exact hedges _ _ ih hedge
      exact absurd (hreach x hpath) hx

end Walk

end Graph
