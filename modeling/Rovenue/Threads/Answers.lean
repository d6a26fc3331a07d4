import Mathlib

/-! Machines that answer some of their steps. -/

namespace Threads
variable {σ τ ε β : Type} {step : σ → ε → σ × Option β} {plain : τ → ε → τ × Option β}

def answers (step : σ → ε → σ × Option β) : σ → List ε → List β
  | _, [] => []
  | s, e :: es => (step s e).2.toList ++ answers step (step s e).1 es

theorem answers_eq {R : σ → τ → List ε → Prop}
    (hstep : ∀ s t e es, R s t (e :: es) →
      (step s e).2 = (plain t e).2 ∧ R (step s e).1 (plain t e).1 es) :
    ∀ (es : List ε) (s : σ) (t : τ), R s t es → answers step s es = answers plain t es := by
  intro es
  induction es with
  | nil =>
    intro s t _
    rfl
  | cons e es ih =>
    intro s t h
    obtain ⟨hanswer, hrest⟩ := hstep s t e es h
    rw [answers, answers, hanswer, ih _ _ hrest]

theorem answers_induct {I : σ → List β → Prop}
    (hstep : ∀ s past e, I s past → I (step s e).1 (past ++ (step s e).2.toList)) :
    ∀ (es : List ε) (s : σ) (past : List β), I s past → ∃ t, I t (past ++ answers step s es) := by
  intro es
  induction es with
  | nil =>
    intro s past h
    refine ⟨s, ?_⟩
    rw [answers, List.append_nil]
    exact h
  | cons e es ih =>
    intro s past h
    obtain ⟨t, ht⟩ := ih _ _ (hstep s past e h)
    refine ⟨t, ?_⟩
    rw [answers, ← List.append_assoc]
    exact ht

end Threads
