import Rovenue.Revenue.RecordedOnce

/-! The rows that a call records are those that its input asks for. -/

namespace Rovenue.Revenue
variable {M : Type} {s : RevenueDb M} {t : Call M} {fault : Bool}

def Call.Drafted (t : Call M) : Prop :=
  match t.stage with
  | .inserted row | .emitted row _ => row = revenueRow t.input row.id
  | _ => True

theorem createRevenueEvent_input : (createRevenueEvent s t fault).2.input = t.input := by
  rcases fault with _ | _
  · rcases hstage : t.stage with _ | id | _ | id | id | row | ⟨row, message⟩ | _ | _ | _ <;>
      simp only [createRevenueEvent, hstage, Stage.over, Bool.false_eq_true, if_false, if_true]
    · split_ifs <;> rfl
    · split
      · rfl
      · split_ifs <;> rfl
    · split <;> rfl
    · split <;> rfl
    all_goals rfl
  · simp only [createRevenueEvent, if_true]
    split_ifs <;> rfl

theorem Call.Drafted.createRevenueEvent (h : t.Drafted) :
    (createRevenueEvent s t fault).2.Drafted := by
  rcases fault with _ | _
  · rcases hstage : t.stage with _ | id | _ | id | id | row | ⟨row, message⟩ | _ | _ | _ <;>
      simp only [Revenue.createRevenueEvent, hstage, Stage.over, Bool.false_eq_true, if_false,
        if_true]
    · split_ifs <;> trivial
    · split
      · trivial
      · split_ifs
        · trivial
        · exact h
        · trivial
    · split <;> trivial
    · split <;> trivial
    · show revenueRow t.input id = revenueRow t.input id
      rfl
    · have hrow : row = revenueRow t.input row.id := by simpa only [Call.Drafted, hstage] using h
      exact hrow
    · trivial
    all_goals exact h
  · simp only [Revenue.createRevenueEvent, if_true]
    split_ifs
    · exact h
    · trivial
    · trivial

def Call.commits (t : Call M) : Bool → List RevenueEvent
  | true => []
  | false =>
    match t.stage with
    | .emitted row _ => [row]
    | _ => []

theorem recorded_createRevenueEvent :
    (createRevenueEvent s t fault).1.recorded = s.recorded ++ t.commits fault := by
  rcases fault with _ | _
  · rcases hstage : t.stage with _ | id | _ | id | id | row | ⟨row, message⟩ | _ | _ | _ <;>
      simp only [createRevenueEvent, Call.commits, hstage, Stage.over, Bool.false_eq_true, if_false,
        if_true, List.append_nil]
    · split_ifs <;> rfl
    · split
      · rfl
      · split_ifs <;> rfl
    · split <;> rfl
    · split <;> rfl
    · exact RevenueDb.recorded_commit _
  · rw [Call.commits, List.append_nil]
    simp only [createRevenueEvent, if_true]
    split_ifs <;> rfl

theorem mem_commits {row : RevenueEvent} (h : row ∈ t.commits fault) :
    fault = false ∧ ∃ message, t.stage = .emitted row message := by
  rcases fault with _ | _
  · simp only [Call.commits] at h
    split at h
    · rename_i other message hstage
      obtain rfl := List.mem_singleton.1 h
      exact ⟨rfl, message, hstage⟩
    · cases h
  · cases h

theorem purchases_createRevenueEvent : (createRevenueEvent s t fault).1.purchases = s.purchases := by
  rcases fault with _ | _
  · rcases hstage : t.stage with _ | id | _ | id | id | row | ⟨row, message⟩ | _ | _ | _ <;>
      simp only [createRevenueEvent, hstage, Stage.over, Bool.false_eq_true, if_false, if_true]
    · split_ifs <;> rfl
    · split
      · rfl
      · split_ifs <;> rfl
    · split <;> rfl
    · split <;> rfl
    · rfl
  · simp only [createRevenueEvent, if_true]
    split_ifs <;> rfl

theorem returned_none_createRevenueEvent
    (h : (createRevenueEvent s t fault).2.stage = .returned none) :
    t.stage = .returned none ∨ s.familyShared t.input.purchaseId := by
  rcases fault with _ | _
  · rcases hstage : t.stage with _ | id | _ | id | id | row | ⟨row, message⟩ | row | _ | _ <;>
      simp only [createRevenueEvent, hstage, Stage.over, Bool.false_eq_true, if_false, if_true] at h
    · split_ifs at h with hshared
      · exact Or.inr hshared
      · cases h
    · split at h
      · cases h
      · split_ifs at h
        · cases h
        · cases hstage.symm.trans h
        · cases h
    · split at h <;> cases h
    · split at h <;> cases h
    · cases h
    · cases h
    · cases h
    · exact Or.inl h
    · cases h
    · cases h
  · simp only [createRevenueEvent, if_true] at h
    split_ifs at h
    · exact Or.inl h
    · cases h
    · cases h

/-- A call that has drawn no identifier, and will not. -/
def Call.Quiet (t : Call M) : Prop :=
  t.stage = .waiting ∨ t.stage = .returned none ∨ t.stage = .lost

theorem Call.Quiet.createRevenueEvent (h : t.Quiet) (hshared : s.familyShared t.input.purchaseId) :
    (createRevenueEvent s t fault).2.Quiet := by
  unfold Revenue.createRevenueEvent
  rcases h with hstage | hstage | hstage
  · rw [hstage]
    rcases fault with _ | _
    · simp only [Stage.over, Bool.false_eq_true, if_false, hshared, if_true]
      exact Or.inr (Or.inl rfl)
    · simp only [Stage.over, Bool.false_eq_true, if_false, if_true]
      exact Or.inr (Or.inr rfl)
  · rw [hstage]
    exact Or.inr (Or.inl hstage)
  · rw [hstage]
    exact Or.inr (Or.inr hstage)

end Rovenue.Revenue

/-! Threads that make a call of `createRevenueEvent` among other things. What holds of the calls
and of the tables holds whatever else the threads do. -/

namespace Rovenue.Revenue
open Threads
variable {ι σ τ ε δ M : Type}

inductive CallStep (s : RevenueDb M) : Option (Call M) → RevenueDb M → Option (Call M) → Prop where
  | stay (call : Option (Call M)) : CallStep s call s call
  | start (input : CreateRevenueEventInput M) : CallStep s none s (some { input := input })
  | move (call : Call M) (fault : Bool) : CallStep s (some call)
      (createRevenueEvent s call fault).1 (some (createRevenueEvent s call fault).2)

structure Carries (S : System σ τ ε δ) (db : σ → RevenueDb M) (call : τ → Option (Call M)) :
    Prop where
  step : ∀ s t e, CallStep (db s) (call t) (db (S.step s t e).1) (call (S.step s t e).2)
  env : ∀ s d, ∃ d', db (S.env s d) = (db s).outside d'
  reset : ∀ t d, call (S.reset t d) = call t

def drawnBy (call : Option (Call M)) : Option ℕ := call.bind fun c => c.stage.drawn

section Step
variable {s s' : RevenueDb M} {call call' : Option (Call M)}

structure Settled (s : RevenueDb M) (call : Option (Call M)) (s' : RevenueDb M)
    (call' : Option (Call M)) : Prop where
  ledgered : s'.Ledgered
  sound : ∀ c ∈ call', c.Sound s' ∧ c.Drafted
  frame : s.Frame s' (drawnBy call)
  drawn : ∀ id, drawnBy call' = some id → drawnBy call = some id ∨ s.nextId ≤ id

theorem CallStep.settled (h : CallStep s call s' call') (hs : s.Ledgered)
    (hcall : ∀ c ∈ call, c.Sound s ∧ c.Drafted) : Settled s call s' call' := by
  cases h with
  | stay => exact ⟨hs, hcall, .refl s _, fun _ => Or.inl⟩
  | start input =>
    refine ⟨hs, fun c hc => ?_, .refl s _, fun id hid => by cases hid⟩
    obtain rfl := Option.some.inj hc
    exact ⟨trivial, trivial⟩
  | move c fault =>
    obtain ⟨hsound, hdrafted⟩ := hcall c rfl
    have howes := owes_createRevenueEvent hs hsound fault
    refine ⟨howes.ledgered, fun c' hc => ?_, howes.frame, howes.drawn⟩
    obtain rfl := Option.some.inj hc
    exact ⟨howes.sound, hdrafted.createRevenueEvent⟩

theorem CallStep.mem_recorded (h : CallStep s call s' call') {row : RevenueEvent}
    (hrow : row ∈ s'.recorded) :
    row ∈ s.recorded ∨ ∃ c message, call = some c ∧ c.stage = .emitted row message := by
  cases h with
  | stay => exact Or.inl hrow
  | start => exact Or.inl hrow
  | move c fault =>
    rw [recorded_createRevenueEvent] at hrow
    rcases List.mem_append.mp hrow with hrow | hrow
    · exact Or.inl hrow
    · obtain ⟨-, message, hstage⟩ := mem_commits hrow
      exact Or.inr ⟨c, message, rfl, hstage⟩

theorem CallStep.purchases (h : CallStep s call s' call') : s'.purchases = s.purchases := by
  cases h with
  | stay => rfl
  | start => rfl
  | move => exact purchases_createRevenueEvent

end Step

section Run
variable [DecidableEq ι] {S : System σ τ ε δ} {db : σ → RevenueDb M} {call : τ → Option (Call M)}
  {w : World ι σ τ}

def carried (db : σ → RevenueDb M) (call : τ → Option (Call M)) : Annotation σ τ where
  inv s := (db s).Ledgered
  assert s t := ∀ c ∈ call t, c.Sound (db s) ∧ c.Drafted
  apart t t' := ∀ id, drawnBy (call t) = some id → drawnBy (call t') ≠ some id

theorem unused_of_drawn {s : RevenueDb M} {c : Option (Call M)} {id : ℕ}
    (hcall : ∀ d ∈ c, d.Sound s ∧ d.Drafted) (hid : drawnBy c = some id) : s.Unused id := by
  obtain ⟨d, hd, hdrawn⟩ := Option.bind_eq_some_iff.mp hid
  exact (hcall d hd).1.unused hdrawn

theorem Call.Sound.frame_drawnBy {s s' : RevenueDb M} {c : Option (Call M)} {mine : Option ℕ}
    (hcall : ∀ d ∈ c, d.Sound s ∧ d.Drafted) (hframe : s.Frame s' mine)
    (hmine : ∀ id, drawnBy c = some id → mine ≠ some id) : ∀ d ∈ c, d.Sound s' ∧ d.Drafted := by
  intro d hd
  obtain ⟨hsound, hdrafted⟩ := hcall d hd
  obtain rfl : c = some d := hd
  exact ⟨hsound.frame hframe hmine, hdrafted⟩

theorem carried_next (hS : Carries S db call) (h : (carried db call).Holds w) (e : Event ι ε δ) :
    (carried db call).Holds (S.next w e) := by
  rcases e with ⟨i, e⟩ | d
  · have hstep := (hS.step w.shared (w.task i) e).settled h.inv (h.assert i)
    have hapart : ∀ j ≠ i, ∀ id, drawnBy (call (w.task j)) = some id →
        drawnBy (call (S.step w.shared (w.task i) e).2) ≠ some id := by
      intro j hj id hid hmine
      rcases hstep.drawn id hmine with hbefore | hnew
      · exact h.apart j i hj id hid hbefore
      · exact absurd (unused_of_drawn (h.assert j) hid).1 (not_lt.mpr hnew)
    refine h.update hstep.ledgered hstep.sound (fun j hj => ?_) fun j hj => ⟨?_, hapart j hj⟩
    · exact Call.Sound.frame_drawnBy (h.assert j) hstep.frame (h.apart j i hj)
    · exact fun id hmine hid => hapart j hj id hid hmine
  · obtain ⟨d', hd⟩ := hS.env w.shared d
    have hframe : (db w.shared).Frame ((db w.shared).outside d') none := .outside _ d'
    refine ⟨?_, fun i => ?_, fun i j hij => ?_⟩
    · show (db (S.env w.shared d)).Ledgered
      rw [hd]
      exact h.inv.outside d'
    · show ∀ c ∈ call (S.reset (w.task i) d), c.Sound (db (S.env w.shared d)) ∧ c.Drafted
      rw [hd, hS.reset]
      exact Call.Sound.frame_drawnBy (h.assert i) hframe fun _ _ hid => by cases hid
    · show ∀ id, drawnBy (call (S.reset (w.task i) d)) = some id →
        drawnBy (call (S.reset (w.task j) d)) ≠ some id
      rw [hS.reset, hS.reset]
      exact h.apart i j hij

theorem mem_recorded_next (hS : Carries S db call) {e : Event ι ε δ} {row : RevenueEvent}
    (hrow : row ∈ (db (S.next w e).shared).recorded) : row ∈ (db w.shared).recorded ∨
      ∃ i c message, call (w.task i) = some c ∧ c.stage = .emitted row message := by
  rcases e with ⟨i, e⟩ | d
  · rcases (hS.step w.shared (w.task i) e).mem_recorded hrow with hrow | hnew
    · exact Or.inl hrow
    · exact Or.inr ⟨i, hnew⟩
  · obtain ⟨d', hd⟩ := hS.env w.shared d
    have hrow : row ∈ (db (S.env w.shared d)).recorded := hrow
    rw [hd, RevenueDb.recorded_outside] at hrow
    exact Or.inl hrow

end Run

end Rovenue.Revenue
