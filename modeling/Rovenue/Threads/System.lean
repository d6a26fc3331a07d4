import Rovenue.Txn.Table

/-! Threads that step one at a time over a shared state. What the outside decides
(a reply, a fault, a choice among rows) comes with the step. -/

namespace Threads
variable {ι σ τ ε δ : Type}

/-- `step` is one atomic step of a thread; `env` moves the shared state and
`reset` every thread at once, as the clock and a restart do. -/
structure System (σ τ ε δ : Type) where
  step : σ → τ → ε → σ × τ
  env : σ → δ → σ
  reset : τ → δ → τ

structure World (ι σ τ : Type) where
  shared : σ
  task : ι → τ

inductive Event (ι ε δ : Type) where
  | act (i : ι) (e : ε)
  | env (d : δ)

namespace System
variable [DecidableEq ι] (S : System σ τ ε δ)

def next (w : World ι σ τ) : Event ι ε δ → World ι σ τ
  | .act i e =>
    ⟨(S.step w.shared (w.task i) e).1,
      Function.update w.task i (S.step w.shared (w.task i) e).2⟩
  | .env d => ⟨S.env w.shared d, fun i => S.reset (w.task i) d⟩

def runAll (w : World ι σ τ) (evs : List (Event ι ε δ)) : World ι σ τ := evs.foldl S.next w

def visited (w : World ι σ τ) : List (Event ι ε δ) → List (World ι σ τ)
  | [] => [w]
  | e :: es => w :: visited (S.next w e) es

def transitions (w : World ι σ τ) : List (Event ι ε δ) → List (World ι σ τ × Event ι ε δ)
  | [] => []
  | e :: es => (w, e) :: transitions (S.next w e) es

variable {S} {w : World ι σ τ} {evs : List (Event ι ε δ)}

@[simp] theorem runAll_nil : S.runAll w [] = w := rfl

@[simp] theorem runAll_cons (e : Event ι ε δ) (es : List (Event ι ε δ)) :
    S.runAll w (e :: es) = S.runAll (S.next w e) es := rfl

theorem runAll_append (es fs : List (Event ι ε δ)) :
    S.runAll w (es ++ fs) = S.runAll (S.runAll w es) fs := List.foldl_append

theorem head_mem_visited : w ∈ S.visited w evs := by cases evs <;> simp [visited]

theorem last_mem_visited : S.runAll w evs ∈ S.visited w evs := by
  induction evs generalizing w with
  | nil => simp [visited]
  | cons e es ih => exact List.mem_cons_of_mem _ ih

theorem transitions_append (es fs : List (Event ι ε δ)) :
    S.transitions w (es ++ fs) = S.transitions w es ++ S.transitions (S.runAll w es) fs := by
  induction es generalizing w with
  | nil => rfl
  | cons e es ih => rw [List.cons_append, transitions, transitions, ih, runAll_cons,
      List.cons_append]

theorem fst_mem_visited {x : World ι σ τ × Event ι ε δ} (h : x ∈ S.transitions w evs) :
    x.1 ∈ S.visited w evs := by
  induction evs generalizing w with
  | nil => cases h
  | cons e es ih =>
    rcases List.mem_cons.1 h with rfl | h
    · exact List.mem_cons_self ..
    · exact List.mem_cons_of_mem _ (ih h)

theorem visited_induct {Inv : World ι σ τ → Prop} {cond : World ι σ τ → Event ι ε δ → Prop}
    (hstep : ∀ w e, Inv w → cond w e → Inv (S.next w e)) (hinit : Inv w)
    (hcond : ∀ x ∈ S.transitions w evs, cond x.1 x.2) : ∀ v ∈ S.visited w evs, Inv v := by
  induction evs generalizing w with
  | nil =>
    intro v hv
    obtain rfl := List.mem_singleton.1 hv
    exact hinit
  | cons e es ih =>
    have hhead : cond w e := hcond (w, e) (by simp [transitions])
    have hrest := ih (hstep w e hinit hhead) fun x hx => hcond x (by simp [transitions, hx])
    intro v hv
    rcases List.mem_cons.1 hv with rfl | hv
    · exact hinit
    · exact hrest v hv

theorem runAll_induct {Inv : World ι σ τ → Prop} {cond : World ι σ τ → Event ι ε δ → Prop}
    (hstep : ∀ w e, Inv w → cond w e → Inv (S.next w e)) (hinit : Inv w)
    (hcond : ∀ x ∈ S.transitions w evs, cond x.1 x.2) : Inv (S.runAll w evs) :=
  visited_induct hstep hinit hcond _ last_mem_visited

theorem visited_invariant {Inv : World ι σ τ → Prop} (hstep : ∀ w e, Inv w → Inv (S.next w e))
    (hinit : Inv w) : ∀ v ∈ S.visited w evs, Inv v := by
  let always : World ι σ τ → Event ι ε δ → Prop := fun _ _ => True
  have hkeeps : ∀ w e, Inv w → always w e → Inv (S.next w e) := fun w e h _ => hstep w e h
  exact visited_induct hkeeps hinit fun _ _ => trivial

/-- Under an invariant of every step, `P` holds along a run exactly when each of its steps
meets the condition under which a step keeps `P`. -/
theorem visited_iff {Inv P : World ι σ τ → Prop} {cond : World ι σ τ → Event ι ε δ → Prop}
    (hinv : ∀ w e, Inv w → Inv (S.next w e))
    (hexact : ∀ w e, Inv w → P w → (P (S.next w e) ↔ cond w e)) (hinit : Inv w) (hP : P w) :
    (∀ v ∈ S.visited w evs, P v) ↔ ∀ x ∈ S.transitions w evs, cond x.1 x.2 := by
  constructor
  · intro hall
    induction evs generalizing w with
    | nil =>
      intro x hx
      cases hx
    | cons e es ih =>
      have hnext : P (S.next w e) := hall _ (List.mem_cons_of_mem _ head_mem_visited)
      have hrest := ih (hinv w e hinit) hnext fun v hv => hall v (List.mem_cons_of_mem _ hv)
      intro x hx
      rcases List.mem_cons.1 hx with rfl | hx
      · exact (hexact w e hinit hP).1 hnext
      · exact hrest x hx
  · intro hcond
    have hstep : ∀ v e, (Inv v ∧ P v) → cond v e → Inv (S.next v e) ∧ P (S.next v e) :=
      fun v e h hc => ⟨hinv v e h.1, (hexact v e h.1 h.2).2 hc⟩
    exact fun v hv => (visited_induct hstep ⟨hinit, hP⟩ hcond v hv).2

/-- What is never undone holds at the end exactly when it held at the start or a step brought
it about. -/
theorem runAll_latch_iff {Inv Q : World ι σ τ → Prop}
    {cond trigger : World ι σ τ → Event ι ε δ → Prop}
    (hinv : ∀ w e, Inv w → cond w e → Inv (S.next w e))
    (hlatch : ∀ w e, Inv w → cond w e → (Q (S.next w e) ↔ Q w ∨ trigger w e)) (hinit : Inv w)
    (hcond : ∀ x ∈ S.transitions w evs, cond x.1 x.2) :
    Q (S.runAll w evs) ↔ Q w ∨ ∃ x ∈ S.transitions w evs, trigger x.1 x.2 := by
  induction evs generalizing w with
  | nil => simp [transitions]
  | cons e es ih =>
    have hhead : cond w e := hcond (w, e) (by simp [transitions])
    have hrest := ih (hinv w e hinit hhead) fun x hx => hcond x (by simp [transitions, hx])
    rw [runAll_cons, hrest, hlatch w e hinit hhead, or_assoc]
    simp only [transitions, List.exists_mem_cons_iff]

end System

structure Annotation (σ τ : Type) where
  inv : σ → Prop
  assert : σ → τ → Prop
  apart : τ → τ → Prop := fun _ _ => True

structure Annotation.Holds (A : Annotation σ τ) (w : World ι σ τ) : Prop where
  inv : A.inv w.shared
  assert : ∀ i, A.assert w.shared (w.task i)
  apart : ∀ i j, i ≠ j → A.apart (w.task i) (w.task j)

theorem Annotation.Holds.update [DecidableEq ι] {A : Annotation σ τ} {w : World ι σ τ}
    (h : A.Holds w) {i : ι} {s : σ} {t : τ} (hinv : A.inv s) (hself : A.assert s t)
    (hothers : ∀ j ≠ i, A.assert s (w.task j))
    (hapart : ∀ j ≠ i, A.apart t (w.task j) ∧ A.apart (w.task j) t) :
    A.Holds ⟨s, Function.update w.task i t⟩ where
  inv := hinv
  assert j := by
    by_cases hj : j = i
    · subst hj
      simpa using hself
    · simpa [Function.update_of_ne hj] using hothers j hj
  apart j k hjk := by
    by_cases hj : j = i
    · subst hj
      have hk : k ≠ j := fun h => hjk h.symm
      simpa [Function.update_of_ne hk] using (hapart k hk).1
    · by_cases hk : k = i
      · subst hk
        simpa [Function.update_of_ne hj] using (hapart j hj).2
      · simpa [Function.update_of_ne hj, Function.update_of_ne hk] using h.apart j k hjk

end Threads

/-! What a run owes. A thread takes obligations on and holds them until it has them done; one
that it lets go of undone is dropped, and stays undone. -/

namespace Threads
open Set
variable {ι σ τ ε κ : Type}

structure Obligations (σ τ κ : Type) where
  owed : σ → Set κ
  done : σ → Set κ
  held : τ → Set κ

namespace Obligations
variable (O : Obligations σ τ κ)

def inHand (s : σ) (t : τ) (s' : σ) : Set κ := O.held t ∪ (O.owed s' \ O.owed s)

structure Honours (s : σ) (t : τ) (s' : σ) (t' : τ) : Prop where
  owed : O.owed s ⊆ O.owed s'
  done : O.done s ⊆ O.done s'
  doneNow : O.done s' ⊆ O.done s ∪ O.inHand s t s'
  held : O.held t' ⊆ O.inHand s t s' \ O.done s'

def Drops (s : σ) (t : τ) (s' : σ) (t' : τ) : Prop :=
  ¬O.inHand s t s' ⊆ O.held t' ∪ O.done s'

structure WellHeld (w : World ι σ τ) : Prop where
  done : O.done w.shared ⊆ O.owed w.shared
  held : ∀ i, O.held (w.task i) ⊆ O.owed w.shared \ O.done w.shared
  apart : ∀ i j, i ≠ j → ∀ x ∈ O.held (w.task i), x ∉ O.held (w.task j)

def Accounted (w : World ι σ τ) : Prop :=
  ∀ x ∈ O.owed w.shared, x ∈ O.done w.shared ∨ ∃ i, x ∈ O.held (w.task i)

section Steps
variable {O} {w : World ι σ τ} {i : ι} {s' : σ} {t' : τ}

theorem inHand_subset (hw : O.WellHeld w) (h : O.Honours w.shared (w.task i) s' t') :
    O.inHand w.shared (w.task i) s' ⊆ O.owed s' := by
  intro x hx
  obtain hheld | hnew := hx
  · exact h.owed (hw.held i hheld).1
  · exact hnew.1

theorem not_inHand (hw : O.WellHeld w) {j : ι} (hji : j ≠ i) {x : κ}
    (hx : x ∈ O.held (w.task j)) : x ∉ O.inHand w.shared (w.task i) s' := by
  intro hhand
  obtain hheld | hnew := hhand
  · exact hw.apart j i hji x hx hheld
  · exact hnew.2 (hw.held j hx).1

variable [DecidableEq ι]

theorem held_update {j : ι} {x : κ} (hx : x ∈ O.held (Function.update w.task i t' j)) :
    (j = i ∧ x ∈ O.held t') ∨ (j ≠ i ∧ x ∈ O.held (w.task j)) := by
  by_cases hji : j = i
  · subst hji
    have hself : Function.update w.task j t' j = t' := Function.update_self ..
    exact .inl ⟨rfl, by rwa [hself] at hx⟩
  · rw [Function.update_of_ne hji] at hx
    exact .inr ⟨hji, hx⟩

theorem WellHeld.step (hw : O.WellHeld w) (h : O.Honours w.shared (w.task i) s' t') :
    O.WellHeld ⟨s', Function.update w.task i t'⟩ where
  done x hx := by
    obtain hdone | hhand := h.doneNow hx
    · exact h.owed (hw.done hdone)
    · exact inHand_subset hw h hhand
  held j x hx := by
    obtain ⟨-, hown⟩ | ⟨hji, hother⟩ := held_update hx
    · obtain ⟨hhand, hundone⟩ := h.held hown
      exact ⟨inHand_subset hw h hhand, hundone⟩
    · refine ⟨h.owed (hw.held j hother).1, fun hdone => ?_⟩
      obtain hbefore | hhand := h.doneNow hdone
      · exact (hw.held j hother).2 hbefore
      · exact not_inHand hw hji hother hhand
  apart j k hjk x hxj hxk := by
    obtain ⟨rfl, hj⟩ | ⟨hji, hj⟩ := held_update hxj
    · obtain ⟨rfl, -⟩ | ⟨hkj, hk⟩ := held_update hxk
      · exact hjk rfl
      · exact not_inHand hw hkj hk (h.held hj).1
    · obtain ⟨rfl, hk⟩ | ⟨-, hk⟩ := held_update hxk
      · exact not_inHand hw hji hj (h.held hk).1
      · exact hw.apart j k hjk x hj hk

theorem accounted_step_iff (hw : O.WellHeld w) (h : O.Honours w.shared (w.task i) s' t') :
    O.Accounted ⟨s', Function.update w.task i t'⟩ ↔
      O.Accounted w ∧ ¬O.Drops w.shared (w.task i) s' t' := by
  have hself : Function.update w.task i t' i = t' := Function.update_self ..
  constructor
  · intro hacc
    constructor
    · intro x hx
      obtain hdone | ⟨j, hj⟩ := hacc x (h.owed hx)
      · obtain hbefore | hheld | hnew := h.doneNow hdone
        · exact .inl hbefore
        · exact .inr ⟨i, hheld⟩
        · exact absurd hx hnew.2
      · obtain ⟨-, hown⟩ | ⟨-, hother⟩ := held_update hj
        · obtain hheld | hnew := (h.held hown).1
          · exact .inr ⟨i, hheld⟩
          · exact absurd hx hnew.2
        · exact .inr ⟨j, hother⟩
    · intro hdrops
      apply hdrops
      intro x hx
      obtain hdone | ⟨j, hj⟩ := hacc x (inHand_subset hw h hx)
      · exact .inr hdone
      · obtain ⟨-, hown⟩ | ⟨hji, hother⟩ := held_update hj
        · exact .inl hown
        · exact absurd hx (not_inHand hw hji hother)
  · intro hboth x hx
    obtain ⟨hacc, hkept⟩ := hboth
    have hhand : x ∈ O.inHand w.shared (w.task i) s' →
        x ∈ O.done s' ∨ ∃ j, x ∈ O.held (Function.update w.task i t' j) := by
      intro hin
      obtain hheld | hdone := not_not.1 hkept hin
      · exact .inr ⟨i, by rwa [hself]⟩
      · exact .inl hdone
    by_cases hold : x ∈ O.owed w.shared
    · obtain hdone | ⟨j, hj⟩ := hacc x hold
      · exact .inl (h.done hdone)
      · by_cases hji : j = i
        · subst hji
          exact hhand (.inl hj)
        · have hother : x ∈ O.held (Function.update w.task i t' j) := by
            rwa [Function.update_of_ne hji]
          exact .inr ⟨j, hother⟩
    · exact hhand (.inr ⟨hx, hold⟩)

end Steps

section Runs
variable [DecidableEq ι] {O} {S : System σ τ ε Empty} {w : World ι σ τ}
  {evs : List (Event ι ε Empty)}

/-- Where `keeps` tells which steps drop nothing: at the end of a run everything is accounted
for exactly when it was at the start and every step keeps. -/
theorem accounted_runAll_iff {Inv : World ι σ τ → Prop}
    {keeps : World ι σ τ → Event ι ε Empty → Prop} (hinv : ∀ w e, Inv w → Inv (S.next w e))
    (hhonours : ∀ w i e, Inv w → O.WellHeld w → O.Honours w.shared (w.task i)
      (S.step w.shared (w.task i) e).1 (S.step w.shared (w.task i) e).2)
    (hkeeps : ∀ w i e, Inv w → O.WellHeld w → (¬O.Drops w.shared (w.task i)
      (S.step w.shared (w.task i) e).1 (S.step w.shared (w.task i) e).2 ↔ keeps w (.act i e)))
    (hinit : Inv w) (hw : O.WellHeld w) :
    O.Accounted (S.runAll w evs) ↔
      O.Accounted w ∧ ∀ x ∈ S.transitions w evs, keeps x.1 x.2 := by
  induction evs generalizing w with
  | nil => simp [System.transitions]
  | cons e es ih =>
    cases e with
    | env d => cases d
    | act i e =>
      have hstep := hhonours w i e hinit hw
      have hrest := ih (hinv w (.act i e) hinit) (hw.step hstep)
      have hfirst : O.Accounted (S.next w (.act i e)) ↔ O.Accounted w ∧ keeps w (.act i e) := by
        rw [← hkeeps w i e hinit hw]
        exact accounted_step_iff hw hstep
      rw [System.runAll_cons, hrest, hfirst, System.transitions, List.forall_mem_cons, and_assoc]

end Runs
end Obligations
end Threads

/-! One value that many tasks read and later overwrite, each with what it made of the part it
read. A measure that every write raises by one tells whether a write was lost. -/

namespace Threads
variable {ι V R A : Type}

/-- `write v a r` is the row `r` after a task that read the part `v` of it has done `a`. -/
structure Cell (V R A : Type) where
  view : R → V
  write : V → A → R → R

namespace Cell
variable (C : Cell V R A)

def apply (r : R) (a : A) : R := C.write (C.view r) a r

def system : System R V (Option A) Empty where
  step r v
    | none => (r, C.view r)
    | some a => (C.write v a r, v)
  env _ d := d.elim
  reset _ d := d.elim

abbrev Access (ι A : Type) := Event ι (Option A) Empty

def written (evs : List (Access ι A)) : List A :=
  evs.filterMap fun
    | .act _ a => a
    | .env d => d.elim

/-- A write lands on what its task read. -/
def Fresh (w : World ι R V) (e : Access ι A) : Prop :=
  ∀ i a, e = .act i (some a) → w.task i = C.view w.shared

variable {C} [DecidableEq ι] {w : World ι R V}

omit [DecidableEq ι] in
theorem written_cons (e : Access ι A) (es : List (Access ι A)) :
    written (e :: es) = written [e] ++ written es := List.filterMap_append (l := [e])

theorem shared_next_of_fresh {e : Access ι A} (h : C.Fresh w e) :
    (C.system.next w e).shared = (written [e]).foldl C.apply w.shared := by
  rcases e with ⟨i, _ | a⟩ | d
  · rfl
  · show C.write (w.task i) a w.shared = C.write (C.view w.shared) a w.shared
    rw [h i a rfl]
  · exact d.elim

theorem shared_runAll_of_fresh {evs : List (Access ι A)}
    (h : ∀ x ∈ C.system.transitions w evs, C.Fresh x.1 x.2) :
    (C.system.runAll w evs).shared = (written evs).foldl C.apply w.shared := by
  induction evs generalizing w with
  | nil => rfl
  | cons e es ih =>
    have hhead : C.Fresh w e := h (w, e) (by simp [System.transitions])
    have hrest := ih (w := C.system.next w e) fun x hx => h x (by simp [System.transitions, hx])
    rw [System.runAll_cons, hrest, shared_next_of_fresh hhead, written_cons e es, List.foldl_append]

section Measure
variable (size : V → ℕ)

structure Tight (C : Cell V R A) (n : ℕ) (w : World ι R V) : Prop where
  value : size (C.view w.shared) = n
  copies : ∀ i, w.task i = C.view w.shared ∨ size (w.task i) < n

structure Short (C : Cell V R A) (n : ℕ) (w : World ι R V) : Prop where
  value : size (C.view w.shared) < n
  copies : ∀ i, size (w.task i) < n

variable {size} {n : ℕ}
  (hsize : ∀ v a r, size (C.view (C.write v a r)) = size v + 1)

include hsize

theorem Short.next (h : Short size C n w) (e : Access ι A) :
    Short size C (n + (written [e]).length) (C.system.next w e) := by
  rcases e with ⟨i, _ | a⟩ | d
  · refine ⟨h.value, fun j => ?_⟩
    show size (Function.update w.task i (C.view w.shared) j) < n
    by_cases hj : j = i
    · subst hj
      rw [Function.update_self]
      exact h.value
    · rw [Function.update_of_ne hj]
      exact h.copies j
  · constructor
    · show size (C.view (C.write (w.task i) a w.shared)) < n + 1
      rw [hsize]
      exact Nat.succ_lt_succ (h.copies i)
    · intro j
      show size (Function.update w.task i (w.task i) j) < n + 1
      rw [Function.update_eq_self]
      exact (h.copies j).trans (Nat.lt_succ_self n)
  · exact d.elim

theorem Short.runAll (h : Short size C n w) (evs : List (Access ι A)) :
    Short size C (n + (written evs).length) (C.system.runAll w evs) := by
  induction evs generalizing w n with
  | nil => exact h
  | cons e es ih =>
    rw [written_cons, List.length_append, ← Nat.add_assoc]
    exact ih (h.next hsize e)

theorem Tight.next_of_fresh (h : Tight size C n w) {e : Access ι A} (hfresh : C.Fresh w e) :
    Tight size C (n + (written [e]).length) (C.system.next w e) := by
  rcases e with ⟨i, _ | a⟩ | d
  · refine ⟨h.value, fun j => ?_⟩
    show Function.update w.task i (C.view w.shared) j = C.view w.shared ∨
      size (Function.update w.task i (C.view w.shared) j) < n
    by_cases hj : j = i
    · subst hj
      exact Or.inl (Function.update_self ..)
    · rw [Function.update_of_ne hj]
      exact h.copies j
  · have hcopy : size (w.task i) = n := by rw [hfresh i a rfl, h.value]
    constructor
    · show size (C.view (C.write (w.task i) a w.shared)) = n + 1
      rw [hsize, hcopy]
    · intro j
      right
      show size (Function.update w.task i (w.task i) j) < n + 1
      rw [Function.update_eq_self]
      rcases h.copies j with hj | hj
      · rw [hj, h.value]
        exact Nat.lt_succ_self n
      · exact hj.trans (Nat.lt_succ_self n)
  · exact d.elim

theorem Tight.next_of_stale (h : Tight size C n w) {e : Access ι A} (hstale : ¬C.Fresh w e) :
    Short size C (n + (written [e]).length) (C.system.next w e) := by
  unfold Fresh at hstale
  push Not at hstale
  obtain ⟨i, a, rfl, hne⟩ := hstale
  have hcopy : size (w.task i) < n := (h.copies i).resolve_left hne
  constructor
  · show size (C.view (C.write (w.task i) a w.shared)) < n + 1
    rw [hsize]
    exact Nat.succ_lt_succ hcopy
  · intro j
    show size (Function.update w.task i (w.task i) j) < n + 1
    rw [Function.update_eq_self]
    rcases h.copies j with hj | hj
    · rw [hj, h.value]
      exact Nat.lt_succ_self n
    · exact hj.trans (Nat.lt_succ_self n)

theorem Tight.runAll_iff (h : Tight size C n w) (evs : List (Access ι A)) :
    size (C.view (C.system.runAll w evs).shared) = n + (written evs).length ↔
      ∀ x ∈ C.system.transitions w evs, C.Fresh x.1 x.2 := by
  induction evs generalizing w n with
  | nil => simpa [System.transitions, written] using h.value
  | cons e es ih =>
    rw [System.transitions, List.forall_mem_cons, System.runAll_cons, written_cons,
      List.length_append, ← Nat.add_assoc]
    by_cases hfresh : C.Fresh w e
    · rw [ih (h.next_of_fresh hsize hfresh)]
      exact (and_iff_right hfresh).symm
    · have hshort := (h.next_of_stale hsize hfresh).runAll hsize es
      exact iff_of_false hshort.value.ne fun hall => hfresh hall.1

end Measure
end Cell
end Threads
