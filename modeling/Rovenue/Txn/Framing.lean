import Rovenue.Txn.Session

/-! Frames of programs that call others. A program spares what a relation keeps if its own
statements keep it, whatever the programs it calls do in between; what has to hold for that is
carried along the run. -/

namespace Txn

structure Framing (σ κ ω ν ι : Type) [Database σ ω] where
  keeps : σ → σ → Prop
  standing : Session σ ω ν → Prop
  aside : ι → Prog σ κ ω ν Unit
  refl : ∀ s, keeps s s
  trans : ∀ {s₁ s₂ s₃}, keeps s₁ s₂ → keeps s₂ s₃ → keeps s₁ s₃
  tick : ∀ {c}, standing c → standing c.tick
  drawn : ∀ {c}, standing c → standing c.drawn
  aside_standing : ∀ {c i c'}, standing c → (aside i).Returns c () c' → standing c'

namespace Framing
variable {σ κ ω ν ι α β : Type} [Database σ ω] (F : Framing σ κ ω ν ι)

def Segments : List ι → Session σ ω ν → Session σ ω ν → Prop
  | [], c, c' => F.keeps c.view c'.view
  | i :: is, c, c' => ∃ c₁ c₂, F.keeps c.view c₁.view ∧ (F.aside i).Returns c₁ () c₂ ∧
      Segments is c₂ c'

def Spares (called : Prop) (p : Prog σ κ ω ν α) (Q : α → Prop) : Prop :=
  -- with asides only if `called` allows them; `Q` is what is known of the result
  ∀ c a c', F.standing c → p.Returns c a c' →
    F.standing c' ∧ Q a ∧ ∃ is, (is ≠ [] → called) ∧ F.Segments is c c'

variable {F} {c c₁ c' : Session σ ω ν} {called : Prop} {p : Prog σ κ ω ν α} {Q : α → Prop}

theorem Segments.keeps_segments {is : List ι} (h : F.keeps c.view c₁.view)
    (h' : F.Segments is c₁ c') : F.Segments is c c' := by
  rcases is with _ | ⟨i, is⟩
  · exact F.trans h h'
  · obtain ⟨d, d', hkeeps, hrun, hrest⟩ := h'
    exact ⟨d, d', F.trans h hkeeps, hrun, hrest⟩

theorem Segments.append {is js : List ι} (h : F.Segments is c c₁) (h' : F.Segments js c₁ c') :
    F.Segments (is ++ js) c c' := by
  induction is generalizing c with
  | nil => exact keeps_segments h h'
  | cons i is ih =>
    obtain ⟨d, d', hkeeps, hrun, hrest⟩ := h
    exact ⟨d, d', hkeeps, hrun, ih hrest⟩

theorem segments_kept (h : F.keeps c.view c'.view) : ∃ is : List ι, (is ≠ [] → called) ∧
    F.Segments is c c' := ⟨[], fun hne => absurd rfl hne, h⟩

theorem spares_of_keeps
    (h : ∀ c a c', F.standing c → p.Returns c a c' →
      F.standing c' ∧ Q a ∧ F.keeps c.view c'.view) : F.Spares called p Q := by
  intro c a c' hc hrun
  obtain ⟨hc', hQ, hkeeps⟩ := h c a c' hc hrun
  exact ⟨hc', hQ, segments_kept hkeeps⟩

theorem Spares.mono {called' : Prop} {Q' : α → Prop} (h : F.Spares called p Q)
    (hcalled : called → called') (hQ : ∀ a, Q a → Q' a) : F.Spares called' p Q' := by
  intro c a c' hc hrun
  obtain ⟨hc', ha, is, his, hsegments⟩ := h c a c' hc hrun
  exact ⟨hc', hQ a ha, is, fun hne => hcalled (his hne), hsegments⟩

theorem spares_done {a : α} (h : Q a) : F.Spares called (Prog.done a) Q := by
  apply spares_of_keeps
  intro c b c' hc hrun
  obtain ⟨rfl, rfl⟩ := Prog.returns_done.1 hrun
  exact ⟨hc, h, F.refl _⟩

theorem spares_throw {msg : String} : F.Spares called (Prog.throw msg) Q :=
  fun _ _ _ _ hrun => (Prog.returns_throw hrun).elim

theorem spares_now : F.Spares called Prog.now fun _ => True := by
  apply spares_of_keeps
  intro c t c' hc hrun
  obtain ⟨-, rfl⟩ := Prog.returns_now.1 hrun
  exact ⟨F.tick hc, trivial, F.refl _⟩

theorem spares_fresh {Q : ν → Prop} (h : ∀ c, F.standing c → Q (c.ids 0)) :
    F.Spares called Prog.fresh Q := by
  apply spares_of_keeps
  intro c v c' hc hrun
  obtain ⟨rfl, rfl⟩ := Prog.returns_fresh.1 hrun
  exact ⟨F.drawn hc, h c hc, F.refl _⟩

theorem spares_query {f : σ → α} (h : ∀ c, F.standing c → Q (f c.view)) :
    F.Spares called (Prog.query f) Q := by
  apply spares_of_keeps
  intro c a c' hc hrun
  obtain ⟨rfl, rfl⟩ := Prog.returns_query.1 hrun
  exact ⟨hc, h c hc, F.refl _⟩

theorem spares_queryLocked {needs : σ → List κ} {f : σ → α}
    (h : ∀ c, F.standing c → Q (f c.view)) : F.Spares called (Prog.queryLocked needs f) Q := by
  apply spares_of_keeps
  intro c a c' hc hrun
  obtain ⟨rfl, rfl⟩ := Prog.returns_queryLocked.1 hrun
  exact ⟨hc, h c hc, F.refl _⟩

theorem spares_exec {needs : σ → List κ} {writes : σ → List ω} {f : σ → α}
    (h : ∀ c, F.standing c → F.standing (c.write (writes c.view)) ∧ Q (f c.view) ∧
      F.keeps c.view (applyAll c.view (writes c.view))) :
    F.Spares called (Prog.exec needs writes f) Q := by
  apply spares_of_keeps
  intro c a c' hc hrun
  obtain ⟨rfl, rfl⟩ := Prog.returns_exec.1 hrun
  exact h c hc

theorem spares_aside (i : ι) : F.Spares True (F.aside i) fun _ => True := by
  intro c u c' hc hrun
  have hc' := F.aside_standing hc hrun
  exact ⟨hc', trivial, [i], fun _ => trivial, c, c', F.refl _, hrun, F.refl _⟩

theorem Spares.bind {f : α → Prog σ κ ω ν β} {Q' : β → Prop} (h : F.Spares called p Q)
    (hf : ∀ a, Q a → F.Spares called (f a) Q') : F.Spares called (p.bind f) Q' := by
  intro c b c' hc hrun
  obtain ⟨a, c₁, hfirst, hsecond⟩ := Prog.returns_bind.1 hrun
  obtain ⟨hc₁, ha, is, his, hsegments⟩ := h c a c₁ hc hfirst
  obtain ⟨hc', hb, js, hjs, hrest⟩ := hf a ha c₁ b c' hc₁ hsecond
  refine ⟨hc', hb, is ++ js, fun hne => ?_, hsegments.append hrest⟩
  rcases is with _ | ⟨i, is⟩
  · exact hjs hne
  · exact his nofun

theorem Spares.autocommit (h : F.Spares called p Q) : F.Spares called p.autocommit Q :=
  fun c a c' hc hrun => h c a c' hc (Prog.returns_autocommit.1 hrun)

theorem Spares.transaction {body : ℤ → Prog σ κ ω ν α} (h : ∀ t, F.Spares called (body t) Q) :
    F.Spares called (Prog.transaction body) Q := by
  intro c a c' hc hrun
  have hbody := Prog.returns_transaction.1 hrun
  obtain ⟨hc', ha, is, his, hsegments⟩ := h (c.clock 0) c.tick a c' (F.tick hc) hbody
  have htick : F.keeps c.view c.tick.view := F.refl _
  exact ⟨hc', ha, is, his, Segments.keeps_segments htick hsegments⟩

theorem spares_forEach {f : β → Prog σ κ ω ν Unit} (bs : List β)
    (h : ∀ b ∈ bs, F.Spares called (f b) fun _ => True) :
    F.Spares called (Prog.forEach bs f) fun _ => True := by
  induction bs with
  | nil => exact spares_done trivial
  | cons b bs ih =>
    apply Spares.bind (h b List.mem_cons_self)
    exact fun _ _ => ih fun d hd => h d (List.mem_cons_of_mem b hd)

end Framing

namespace Prog
variable {σ κ ω ν α : Type} [Database σ ω]

theorem Returns.ids {p : Prog σ κ ω ν α} {c c' : Session σ ω ν} {a : α} (h : p.Returns c a c') :
    ∃ k, ∀ n, c'.ids n = c.ids (n + k) := by
  induction p generalizing c with
  | done x =>
    obtain ⟨-, rfl⟩ := returns_done.1 h
    exact ⟨0, fun n => rfl⟩
  | fail msg => exact (returns_fail h).elim
  | clock next ih => exact ih _ (c := c.tick) h
  | draw next ih =>
    obtain ⟨k, hk⟩ := ih _ (c := c.drawn) h
    refine ⟨k + 1, fun n => ?_⟩
    rw [hk n]
    rfl
  | stmt needs writes next ih => exact ih _ (c := c.write (writes c.view)) h
  | commit next ih => exact ih h

end Prog
end Txn
