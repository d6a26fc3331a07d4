import Rovenue.Txn.Machine

/-! Rely and guarantee for interleaved clients. A client is safe when, whatever
the others may do between its statements, each of its commits obeys the law;
what the law keeps, every schedule keeps. -/

namespace Txn
open Prog
variable {ι σ κ ω ν α β : Type} [Database σ ω]

/-- `rely i held h h'` is what the others leave alone while `i` holds the locks
`held`; `law` is what a commit owes; `cond` marks the commits under consideration, and
`beside i held j others` those of `i` under `held` that find `j` holding `others`. -/
structure Discipline (ι σ κ ω : Type) [Database σ ω] where
  inv : History ι σ ω → Prop
  rely : ι → Set κ → History ι σ ω → History ι σ ω → Prop
  law : ι → Set κ → List ω → History ι σ ω → Prop
  cond : ι → List ω → History ι σ ω → Prop
  beside : ι → Set κ → ι → Set κ → Prop := fun _ _ _ _ => True
  rely_refl : ∀ i held h, rely i held h h
  rely_trans : ∀ {i held h₁ h₂ h₃}, rely i held h₁ h₂ → rely i held h₂ h₃ → rely i held h₁ h₃
  keeps_inv : ∀ {i held ws h}, law i held ws h → inv h → cond i ws h → inv (h.commit i ws)
  keeps_rely : ∀ {i held ws h}, law i held ws h → inv h → cond i ws h →
    ∀ {j others}, j ≠ i → Disjoint others held → beside i held j others →
      rely j others h (h.commit i ws)

def Safe (D : Discipline ι σ κ ω) (i : ι) : Prog σ κ ω ν α → Set κ → List ω → History ι σ ω →
    (α → Set κ → List ω → History ι σ ω → Prop) → Prop
  -- from history `h`, holding `held` with `pend` queued, `p` obeys the law at every commit and ends
  -- in `Q`, under any interference the discipline allows
  | .done a, held, pend, h, Q => Q a held pend h
  | .fail _, _, _, _, _ => True
  | .clock next, held, pend, h, Q => ∀ t, Safe D i (next t) held pend h Q
  | .draw next, held, pend, h, Q => ∀ v, Safe D i (next v) held pend h Q
  | .stmt needs writes next, held, pend, h, Q => ∀ h', D.inv h' → D.rely i held h h' →
      let view := applyAll h'.db pend
      Safe D i (next view) ({k | k ∈ needs view} ∪ held) (pend ++ writes view) h' Q
  | .commit next, held, pend, h, Q => ∀ h', D.inv h' → D.rely i held h h' →
      D.law i held pend h' ∧ (D.cond i pend h' → Safe D i next ∅ [] (h'.commit i pend) Q)

def Idle (_ : α) (held : Set κ) (pend : List ω) (_ : History ι σ ω) : Prop :=
  held = ∅ ∧ pend = []

namespace Safe
variable {D : Discipline ι σ κ ω} {i : ι} {p : Prog σ κ ω ν α} {f : α → Prog σ κ ω ν β}
  {held : Set κ} {pend : List ω} {h h' : History ι σ ω}

theorem bind_iff {Q : β → Set κ → List ω → History ι σ ω → Prop} :
    Safe D i (p.bind f) held pend h Q ↔
      Safe D i p held pend h fun a held pend h => Safe D i (f a) held pend h Q := by
  induction p generalizing held pend h with
  | done a => rfl
  | fail msg => rfl
  | clock next ih => exact forall_congr' fun t => ih t
  | draw next ih => exact forall_congr' fun v => ih v
  | stmt needs writes next ih =>
    exact forall_congr' fun h' => imp_congr_right fun _ => imp_congr_right fun _ => ih _
  | commit next ih =>
    exact forall_congr' fun h' => imp_congr_right fun _ => imp_congr_right fun _ =>
      and_congr_right fun _ => imp_congr_right fun _ => ih

theorem mono {Q R : α → Set κ → List ω → History ι σ ω → Prop}
    (hp : Safe D i p held pend h Q) (hQ : ∀ a held pend h, Q a held pend h → R a held pend h) :
    Safe D i p held pend h R := by
  induction p generalizing held pend h with
  | done a => exact hQ _ _ _ _ hp
  | fail msg => trivial
  | clock next ih => exact fun t => ih t (hp t)
  | draw next ih => exact fun v => ih v (hp v)
  | stmt needs writes next ih => exact fun h' hi hr => ih _ (hp h' hi hr)
  | commit next ih =>
    exact fun h' hi hr => ⟨(hp h' hi hr).1, fun hc => ih ((hp h' hi hr).2 hc)⟩

theorem bind {Q : α → Set κ → List ω → History ι σ ω → Prop}
    {R : β → Set κ → List ω → History ι σ ω → Prop} (hp : Safe D i p held pend h Q)
    (hf : ∀ a held pend h, Q a held pend h → Safe D i (f a) held pend h R) :
    Safe D i (p.bind f) held pend h R := bind_iff.2 (hp.mono hf)

/-- Interference that the discipline allows leaves a safe client safe, with the outcome it
leaves standing. -/
theorem interfere {R : History ι σ ω → Prop} (hR : ∀ {held h h'}, D.rely i held h h' → R h → R h')
    (hp : Safe D i p held pend h fun _ _ _ h => R h) (hr : D.rely i held h h') :
    Safe D i p held pend h' fun _ _ _ h => R h := by
  induction p with
  | done a => exact hR hr hp
  | fail msg => trivial
  | clock next ih => exact fun t => ih t (hp t)
  | draw next ih => exact fun v => ih v (hp v)
  | stmt needs writes next => exact fun h₂ hi hr₂ => hp h₂ hi (D.rely_trans hr hr₂)
  | commit next => exact fun h₂ hi hr₂ => hp h₂ hi (D.rely_trans hr hr₂)

theorem frame {Q : α → Set κ → List ω → History ι σ ω → Prop} {R : History ι σ ω → Prop}
    (hR : ∀ {held h h'}, D.rely i held h h' → R h → R h')
    (hcommit : ∀ {ws h}, R h → R (h.commit i ws)) (hp : Safe D i p held pend h Q) (hh : R h) :
    Safe D i p held pend h fun a held pend h => Q a held pend h ∧ R h := by
  induction p generalizing held pend h with
  | done a => exact ⟨hp, hh⟩
  | fail msg => trivial
  | clock next ih => exact fun t => ih t (hp t) hh
  | draw next ih => exact fun v => ih v (hp v) hh
  | stmt needs writes next ih => exact fun h' hi hr => ih _ (hp h' hi hr) (hR hr hh)
  | commit next ih =>
    exact fun h' hi hr => ⟨(hp h' hi hr).1, fun hc => ih ((hp h' hi hr).2 hc) (hcommit (hR hr hh))⟩

variable {Q : α → Set κ → List ω → History ι σ ω → Prop}

theorem query {g : σ → α} (hQ : ∀ h', D.inv h' → D.rely i held h h' →
    Q (g (applyAll h'.db pend)) held pend h') :
    Safe D i (Prog.query g : Prog σ κ ω ν α) held pend h Q := by
  intro h' hi hr
  simpa [Safe] using hQ h' hi hr

theorem queryLocked {needs : σ → List κ} {g : σ → α}
    (hQ : ∀ h', D.inv h' → D.rely i held h h' →
      Q (g (applyAll h'.db pend)) ({k | k ∈ needs (applyAll h'.db pend)} ∪ held) pend h') :
    Safe D i (Prog.queryLocked needs g : Prog σ κ ω ν α) held pend h Q := by
  intro h' hi hr
  simpa [Safe] using hQ h' hi hr

theorem acquire {k : κ} {Q : Unit → Set κ → List ω → History ι σ ω → Prop}
    (hQ : ∀ h', D.inv h' → D.rely i held h h' → Q () (insert k held) pend h') :
    Safe D i (Prog.acquire k : Prog σ κ ω ν Unit) held pend h Q := by
  intro h' hi hr
  have hk : ({k' | k' ∈ [k]} ∪ held : Set κ) = insert k held := by ext; simp
  simp only [Safe, List.append_nil, hk]
  exact hQ h' hi hr

theorem exec {needs : σ → List κ} {writes : σ → List ω} {g : σ → α}
    (hQ : ∀ h', D.inv h' → D.rely i held h h' →
      Q (g (applyAll h'.db pend)) ({k | k ∈ needs (applyAll h'.db pend)} ∪ held)
        (pend ++ writes (applyAll h'.db pend)) h') :
    Safe D i (Prog.exec needs writes g : Prog σ κ ω ν α) held pend h Q :=
  fun h' hi hr => hQ h' hi hr

theorem now {Q : ℤ → Set κ → List ω → History ι σ ω → Prop} (hQ : ∀ t, Q t held pend h) :
    Safe D i (Prog.now : Prog σ κ ω ν ℤ) held pend h Q := hQ

theorem fresh {Q : ν → Set κ → List ω → History ι σ ω → Prop} (hQ : ∀ v, Q v held pend h) :
    Safe D i (Prog.fresh : Prog σ κ ω ν ν) held pend h Q := hQ

theorem transaction {body : ℤ → Prog σ κ ω ν α}
    (hb : ∀ t, Safe D i (body t) held pend h fun a held pend h => ∀ h', D.inv h' →
      D.rely i held h h' → D.law i held pend h' ∧
        (D.cond i pend h' → Q a ∅ [] (h'.commit i pend))) :
    Safe D i (Prog.transaction body) held pend h Q := fun t => bind_iff.2 (hb t)

theorem autocommit (hb : Safe D i p held pend h fun a held pend h => ∀ h', D.inv h' →
      D.rely i held h h' → D.law i held pend h' ∧
        (D.cond i pend h' → Q a ∅ [] (h'.commit i pend))) :
    Safe D i p.autocommit held pend h Q := bind_iff.2 hb

theorem autocommit_exec {needs : σ → List κ} {writes : σ → List ω} {g : σ → α}
    (hlaw : ∀ s held h, D.law i held (writes s) h) :
    Safe D i (Prog.exec needs writes g : Prog σ κ ω ν α).autocommit held [] h Idle := by
  refine autocommit (exec fun h₁ _ _ h₂ _ _ => ⟨?_, fun _ => ⟨rfl, rfl⟩⟩)
  rw [List.nil_append]
  exact hlaw _ _ _

theorem forEach {I : Set κ → List ω → History ι σ ω → Prop} {g : β → Prog σ κ ω ν Unit}
    (bs : List β) (hg : ∀ b ∈ bs, ∀ held pend h, I held pend h →
      Safe D i (g b) held pend h fun _ held pend h => I held pend h) (hI : I held pend h) :
    Safe D i (Prog.forEach bs g) held pend h fun _ held pend h => I held pend h := by
  induction bs generalizing held pend h with
  | nil => exact hI
  | cons b bs ih =>
    exact (hg b (by simp) held pend h hI).bind fun _ held pend h hI =>
      ih (fun c hc => hg c (by simp [hc])) hI

/-- Statements that keep `F` true of the locks and the queue, where `F` is lawful at any
commit and true after one. -/
theorem of_stmts {F : Set κ → List ω → Prop} {φ : σ → List κ → List ω → Prop} (hnil : F ∅ [])
    (hstep : ∀ {held pend s needs ws}, F held pend → φ s needs ws →
      F ({k | k ∈ needs} ∪ held) (pend ++ ws))
    (hlaw : ∀ {held ws h}, F held ws → D.law i held ws h) (hp : p.Stmts φ)
    (hpend : F held pend) : Safe D i p held pend h fun _ held pend _ => F held pend := by
  induction p generalizing held pend h with
  | done a => exact hpend
  | fail msg => trivial
  | clock next ih => exact fun t => ih t (hp t) hpend
  | draw next ih => exact fun v => ih v (hp v) hpend
  | stmt needs writes next ih =>
    exact fun h' _ _ => ih _ (hp _).2 (hstep hpend (hp _).1)
  | commit next ih => exact fun h' _ _ => ⟨hlaw hpend, fun _ => ih hp hnil⟩

/-- Statements whose writes keep `F` true of the queue, where `F` is lawful at any commit. -/
theorem of_each {F : List ω → Prop} (hnil : F [])
    (happ : ∀ {ws vs}, F ws → F vs → F (ws ++ vs))
    (hlaw : ∀ {held ws h}, F ws → D.law i held ws h) (hp : p.Each fun _ ws => F ws)
    (hpend : F pend) : Safe D i p held pend h fun _ _ pend _ => F pend :=
  of_stmts (F := fun _ pend => F pend) hnil happ hlaw hp hpend

theorem transaction_of_each {F : List ω → Prop} (hnil : F [])
    (happ : ∀ {ws vs}, F ws → F vs → F (ws ++ vs))
    (hlaw : ∀ {held ws h}, F ws → D.law i held ws h) {body : ℤ → Prog σ κ ω ν α}
    (hp : (Prog.transaction body).Each fun _ ws => F ws) (hpend : F pend) :
    Safe D i (Prog.transaction body) held pend h Idle :=
  transaction fun t => (of_each hnil happ hlaw (Prog.Each.of_bind (hp t)) hpend).mono
    fun _ _ _ _ hF _ _ _ => ⟨hlaw hF, fun _ => ⟨rfl, rfl⟩⟩

end Safe

namespace World
section
variable {D : Discipline ι σ κ ω} {w : World ι σ κ ω ν}

structure SafeTo (D : Discipline ι σ κ ω) (post : ι → History ι σ ω → Prop)
    (w : World ι σ κ ω ν) : Prop where
  inv : D.inv w.hist
  client : ∀ i, Txn.Safe D i (w.client i).prog (w.held i) (w.client i).pending w.hist
    fun _ _ _ h => post i h
  stable : ∀ i {held h h'}, D.rely i held h h' → post i h → post i h'

abbrev Safe (D : Discipline ι σ κ ω) (w : World ι σ κ ω ν) : Prop := w.SafeTo D fun _ _ => True

theorem SafeTo.init {post : ι → History ι σ ω → Prop} {s : σ} {t : ℤ}
    {progs : ι → Prog σ κ ω ν Unit} (hs : D.inv ⟨s, []⟩)
    (hp : ∀ i, Txn.Safe D i (progs i) ∅ [] ⟨s, []⟩ fun _ _ _ h => post i h)
    (hpost : ∀ i {held h h'}, D.rely i held h h' → post i h → post i h') :
    (World.init s t progs).SafeTo D post :=
  ⟨hs, fun i => by rw [held_init]; exact hp i, hpost⟩

theorem Safe.init {s : σ} {t : ℤ} {progs : ι → Prog σ κ ω ν Unit} (hs : D.inv ⟨s, []⟩)
    (hp : ∀ i, Txn.Safe D i (progs i) ∅ [] ⟨s, []⟩ fun _ _ _ _ => True) :
    (World.init s t progs).Safe D := SafeTo.init hs hp fun _ _ _ _ _ _ => trivial

theorem SafeTo.done {post : ι → History ι σ ω → Prop} (hw : w.SafeTo D post) {i : ι}
    (hi : (w.client i).prog = .done ()) : post i w.hist := by
  have hclient := hw.client i
  rw [hi] at hclient
  exact hclient

omit [Database σ ω] in
theorem disjoint_held {i j : ι} (hj : j ≠ i) : Disjoint (w.held j) (w.held i) := by
  rw [Set.disjoint_left]
  intro k hkj hki
  exact hj (Option.some.inj (hkj.symm.trans hki))

end

def Beside (D : Discipline ι σ κ ω) (w : World ι σ κ ω ν) (e : Event ι ν) : Prop :=
  ∀ c, w.commitOf e = some c → ∀ j ≠ c.client,
    D.beside c.client (w.held c.client) j (w.held j)

variable [DecidableEq ι] [DecidableEq κ] {D : Discipline ι σ κ ω} {w w' : World ι σ κ ω ν}
  {evs : List (Event ι ν)} {e : Event ι ν} {post : ι → History ι σ ω → Prop}

omit [DecidableEq κ] [Database σ ω] in
@[simp] theorem held_resume (i j : ι) (c : Client σ κ ω ν) : (w.resume i c).held j = w.held j :=
  rfl

omit [Database σ ω] in
theorem held_take (i j : ι) (ks : List κ) (hfree : ∀ k ∈ ks, w.Free i k) :
    (w.take i ks).held j = if j = i then {k | k ∈ ks} ∪ w.held i else w.held j := by
  ext k
  by_cases hk : k ∈ ks
  · obtain hf | hf := hfree k hk <;> by_cases hj : j = i <;>
      simp [held, take, hk, hf, hj, eq_comm (a := i)]
  · by_cases hj : j = i <;> simp [held, take, hk, hj]

omit [DecidableEq κ] [Database σ ω] in
theorem held_release (i j : ι) : (w.release i).held j = if j = i then ∅ else w.held j := by
  ext k
  by_cases hk : w.holder k = some i <;> by_cases hj : j = i <;>
    simp [held, release, hk, hj, eq_comm (a := i)]

omit [DecidableEq κ] in
theorem SafeTo.resume {i : ι} {c : Client σ κ ω ν} (hi : D.inv w.hist)
    (hpost : ∀ i {held h h'}, D.rely i held h h' → post i h → post i h')
    (others : ∀ j ≠ i, Txn.Safe D j (w.client j).prog (w.held j) (w.client j).pending w.hist
      fun _ _ _ h => post j h)
    (self : Txn.Safe D i c.prog (w.held i) c.pending w.hist fun _ _ _ h => post i h) :
    (w.resume i c).SafeTo D post := by
  refine ⟨hi, fun j => ?_, hpost⟩
  by_cases hj : j = i
  · subst hj
    rw [held_resume]
    simpa only [World.resume, Function.update_self] using self
  · rw [held_resume]
    simpa only [World.resume, Function.update_of_ne hj] using others j hj

theorem Moves.safe (hm : w.Moves w') (hw : w.SafeTo D post) : w'.SafeTo D post := by
  cases hm with
  | stay => exact hw
  | tick n => exact ⟨hw.inv, hw.client, hw.stable⟩
  | abort i msg =>
    refine .resume hw.inv hw.stable (fun j hj => ?_) trivial
    rw [held_release, if_neg hj]
    exact hw.client j
  | clock i hp t =>
    have hc := hw.client i
    rw [hp] at hc
    exact .resume hw.inv hw.stable (fun j _ => hw.client j) (hc t)
  | draw i hp v =>
    have hc := hw.client i
    rw [hp] at hc
    exact .resume hw.inv hw.stable (fun j _ => hw.client j) (hc v)
  | stmt i hp view hv hfree =>
    have hc := hw.client i
    rw [hp] at hc
    refine .resume hw.inv hw.stable (fun j hj => ?_) ?_
    · rw [held_take i j _ hfree, if_neg hj]
      exact hw.client j
    · rw [held_take i i _ hfree, if_pos rfl, hv]
      exact hc w.hist hw.inv (D.rely_refl _ _ _)

theorem SafeTo.law {c : Commit ι σ ω} (hw : w.SafeTo D post) (hc : w.commitOf e = some c) :
    D.inv c.before ∧ D.law c.client (w.held c.client) c.writes c.before := by
  obtain ⟨i, next, hp, rfl, -⟩ := step_commit hc
  have hi := hw.client i
  rw [hp] at hi
  exact ⟨hw.inv, (hi w.hist hw.inv (D.rely_refl _ _ _)).1⟩

theorem SafeTo.commit {c : Commit ι σ ω} (hw : w.SafeTo D post) (hc : w.commitOf e = some c)
    (hcond : D.cond c.client c.writes c.before) (hbeside : w.Beside D e) :
    (w.step e).SafeTo D post := by
  have hothers := hbeside c hc
  have hlaw := (hw.law hc).2
  obtain ⟨i, next, hp, rfl, hs⟩ := step_commit hc
  have hi := hw.client i
  rw [hp] at hi
  rw [hs]
  refine .resume (D.keeps_inv hlaw hw.inv hcond) hw.stable (fun j hj => ?_) ?_
  · rw [held_release, if_neg hj]
    exact (hw.client j).interfere (hw.stable j)
      (D.keeps_rely hlaw hw.inv hcond hj (disjoint_held hj) (hothers j hj))
  · rw [held_release, if_pos rfl]
    exact (hi w.hist hw.inv (D.rely_refl _ _ _)).2 hcond

theorem SafeTo.step (hw : w.SafeTo D post)
    (hcond : ∀ c, w.commitOf e = some c → D.cond c.client c.writes c.before)
    (hbeside : w.Beside D e) : (w.step e).SafeTo D post := by
  cases hc : w.commitOf e with
  | none => exact (step_moves hc).safe hw
  | some c => exact hw.commit hc (hcond c hc) hbeside

theorem SafeTo.runAll (hw : w.SafeTo D post)
    (hcond : ∀ c ∈ w.commits evs, D.cond c.client c.writes c.before)
    (hbeside : ∀ x ∈ w.transitions evs, x.1.Beside D x.2 := by
      exact fun _ _ _ _ _ _ => trivial) :
    (w.runAll evs).SafeTo D post := by
  induction evs generalizing w with
  | nil => exact hw
  | cons e es ih =>
    have hstep : (w.step e).SafeTo D post := hw.step
      (fun c hc => hcond c (by simp [commits, hc])) (hbeside (w, e) (List.mem_cons_self ..))
    exact ih hstep (fun c hc => hcond c (by simp [commits, hc]))
      fun x hx => hbeside x (List.mem_cons_of_mem _ hx)

theorem SafeTo.visited (hw : w.SafeTo D post)
    (hcond : ∀ c ∈ w.commits evs, D.cond c.client c.writes c.before)
    (hbeside : ∀ x ∈ w.transitions evs, x.1.Beside D x.2 := by
      exact fun _ _ _ _ _ _ => trivial) :
    ∀ h ∈ w.visited evs, D.inv h := by
  induction evs generalizing w with
  | nil => simpa [World.visited] using hw.inv
  | cons e es ih =>
    have hstep : (w.step e).SafeTo D post := hw.step
      (fun c hc => hcond c (by simp [commits, hc])) (hbeside (w, e) (List.mem_cons_self ..))
    intro h hh
    obtain rfl | hh := List.mem_cons.1 hh
    · exact hw.inv
    · exact ih hstep (fun c hc => hcond c (by simp [commits, hc]))
        (fun x hx => hbeside x (List.mem_cons_of_mem _ hx)) h hh

theorem SafeTo.commits_law (hw : w.SafeTo D post)
    (hcond : ∀ c ∈ w.commits evs, D.cond c.client c.writes c.before)
    (hbeside : ∀ x ∈ w.transitions evs, x.1.Beside D x.2 := by
      exact fun _ _ _ _ _ _ => trivial) :
    ∀ c ∈ w.commits evs, D.inv c.before ∧ ∃ held, D.law c.client held c.writes c.before := by
  induction evs generalizing w with
  | nil => simp [World.commits]
  | cons e es ih =>
    have hstep : (w.step e).SafeTo D post := hw.step
      (fun c hc => hcond c (by simp [World.commits, hc])) (hbeside (w, e) (List.mem_cons_self ..))
    have hrest := ih hstep (fun c hc => hcond c (by simp [World.commits, hc]))
      fun x hx => hbeside x (List.mem_cons_of_mem _ hx)
    intro c hc
    rw [World.commits, List.mem_append, Option.mem_toList] at hc
    rcases hc with hc | hc
    · obtain ⟨hinv, hlaw⟩ := hw.law hc
      exact ⟨hinv, _, hlaw⟩
    · exact hrest c hc

/-- When a commit that breaks the condition also breaks the property, the
condition at every commit is exactly what the property along the run needs. -/
theorem SafeTo.visited_iff {P : History ι σ ω → Prop} (sound : ∀ h, D.inv h → P h)
    (tight : ∀ {i held ws h}, D.law i held ws h → D.inv h → P (h.commit i ws) → D.cond i ws h)
    (hw : w.SafeTo D post)
    (hbeside : ∀ x ∈ w.transitions evs, x.1.Beside D x.2 := by
      exact fun _ _ _ _ _ _ => trivial) :
    (∀ h ∈ w.visited evs, P h) ↔ ∀ c ∈ w.commits evs, D.cond c.client c.writes c.before := by
  refine ⟨fun hP => ?_, fun hc h hh => sound h (hw.visited hc hbeside h hh)⟩
  induction evs generalizing w with
  | nil => simp [commits]
  | cons e es ih =>
    have hrest : ∀ h ∈ (w.step e).visited es, P h := fun h hh => hP h (List.mem_cons_of_mem _ hh)
    have hcond : ∀ c, w.commitOf e = some c → D.cond c.client c.writes c.before := by
      intro c hc
      have hPc := hrest _ (head_mem_visited _ _)
      obtain ⟨hinv, hlaw⟩ := hw.law hc
      obtain ⟨i, next, -, rfl, hs⟩ := step_commit hc
      rw [hs] at hPc
      exact tight hlaw hinv hPc
    intro c hc
    rw [commits, List.mem_append, Option.mem_toList] at hc
    obtain hc | hc := hc
    · exact hcond c hc
    · have hstep := hw.step hcond (hbeside (w, e) (List.mem_cons_self ..))
      exact ih hstep (fun x hx => hbeside x (List.mem_cons_of_mem _ hx)) hrest c hc

end World
end Txn
