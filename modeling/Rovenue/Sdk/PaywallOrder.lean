import Rovenue.Sdk.PaywallQueue

/-! The order of the POSTs. A single drain holds the flag from its first look at the
queue to its last, so the row it sends is the oldest there is. -/

namespace Rovenue.Sdk
open Queues Threads PaywallQueue

variable {ι : Type} {parse : String → Option EventEnvelope} {s : PaywallQueue} {t u : Drain}
  {ev : DrainEvent}

def Drain.holds : Drain → Bool
  | .peeking _ | .sending _ _ | .posting _ _ | .deleting _ _ | .clearing _ _ => true
  | _ => false

structure Oldest (s : PaywallQueue) (id : ℕ) : Prop where
  sent : ∀ x ∈ s.sent, x ≤ id
  rows : ∀ e ∈ s.queue.rows, id ≤ e.1
  fresh : id < s.queue.next

structure InOrder (s : PaywallQueue) : Prop where
  sorted : s.sent.Pairwise (· ≤ ·)
  rows : ∀ x ∈ s.sent, ∀ e ∈ s.queue.rows, x ≤ e.1
  fresh : ∀ x ∈ s.sent, x < s.queue.next

def ordered : Annotation PaywallQueue Drain where
  inv := InOrder
  assert s t := (t.holds = true → s.inFlight = true) ∧
    ∀ rearmed id, t = .sending rearmed id → Oldest s id
  apart t u := ¬ (t.holds = true ∧ u.holds = true)

structure Effect (s : PaywallQueue) (t : Drain) (out : PaywallQueue × Drain) : Prop where
  rows : ∀ e ∈ out.1.queue.rows, e ∈ s.queue.rows ∨ e.1 = s.queue.next
  grows : s.queue.next ≤ out.1.queue.next
  sent : out.1.sent = s.sent ∨
    ∃ rearmed id, t = .sending rearmed id ∧ out.1 = { s with sent := s.sent ++ [id] }
  flag : s.inFlight = true → t.holds = false → out.1.inFlight = true
  enters : out.2.holds = true → t.holds = true ∨ s.inFlight = false

theorem Effect.of_same {out : PaywallQueue × Drain} (hq : out.1.queue = s.queue)
    (hf : out.1.inFlight = s.inFlight) (hs : out.1.sent = s.sent)
    (ht : out.2.holds = true → t.holds = true) : Effect s t out where
  rows e he := .inl (hq ▸ he)
  grows := by rw [hq]
  sent := .inl hs
  flag h _ := hf.trans h
  enters h := .inl (ht h)

theorem tryEnter_effect (rearmed : Bool) : Effect s t (s.tryEnter rearmed) := by
  rw [tryEnter]
  by_cases hflag : s.inFlight = true
  · rw [if_pos hflag]
    exact .of_same rfl rfl rfl (by rintro ⟨⟩)
  · rw [if_neg hflag]
    exact ⟨fun e he => .inl he, le_rfl, .inl rfl, fun h _ => absurd h hflag,
      fun _ => .inr (by simpa using hflag)⟩

theorem append_effect {json : String} {fault : Option AppendFault} {q : Fifo String} :
    (∀ e ∈ (append paywallEventsCap json fault q).1.rows, e ∈ q.rows ∨ e.1 = q.next) ∧
      q.next ≤ (append paywallEventsCap json fault q).1.next := by
  refine ⟨fun e he => ?_, ?_⟩
  · rcases mem_append he with he | rfl
    · exact .inl he
    · exact .inr rfl
  · rcases fault with _ | _ | _
    · exact Nat.le_succ _
    · exact le_rfl
    · exact Nat.le_succ _

theorem step_effect (parse : String → Option EventEnvelope) (s : PaywallQueue) (t : Drain)
    (ev : DrainEvent) : Effect s t (s.step parse t ev) := by
  unfold PaywallQueue.step
  split
  · rename_i json fault
    rw [enqueue]
    split_ifs
    · exact ⟨append_effect.1, append_effect.2, .inl rfl, fun h _ => h, by rintro ⟨⟩⟩
    · exact ⟨append_effect.1, append_effect.2, .inl rfl, fun h _ => h, by rintro ⟨⟩⟩
    · exact .of_same rfl rfl rfl (by rintro ⟨⟩)
  · exact .of_same rfl rfl rfl (by rintro ⟨⟩)
  · exact tryEnter_effect _
  · rename_i rearmed ok
    cases s.nextRow ok with
    | none => exact .of_same rfl rfl rfl fun _ => rfl
    | some r =>
      rw [drainOne]
      split_ifs
      · exact .of_same rfl rfl rfl fun _ => rfl
      · exact .of_same rfl rfl rfl fun _ => rfl
  · exact ⟨fun e he => .inl he, le_rfl, .inr ⟨_, _, rfl, rfl⟩, fun h _ => h, fun _ => .inl rfl⟩
  · rename_i rearmed id replies
    cases postJson true replies with
    | ok status => exact .of_same rfl rfl rfl fun _ => rfl
    | error err =>
      rw [answered]
      split_ifs
      · exact .of_same rfl rfl rfl fun _ => rfl
      · exact .of_same rfl rfl rfl fun _ => rfl
  · split_ifs
    · exact ⟨fun e he => .inl (Fifo.mem_remove.1 he).1, le_rfl, .inl rfl, fun h _ => h,
        fun _ => .inl rfl⟩
    · exact .of_same rfl rfl rfl fun _ => rfl
  · refine ⟨fun e he => .inl he, le_rfl, .inl rfl, ?_, fun _ => .inl rfl⟩
    rintro - ⟨⟩
  · refine .of_same rfl rfl rfl fun h => ?_
    simp only at h
    split_ifs at h <;> exact h
  · exact tryEnter_effect _
  · exact .of_same rfl rfl rfl id

theorem tryEnter_holds {rearmed : Bool} (h : (s.tryEnter rearmed).2.holds = true) :
    (s.tryEnter rearmed).1.inFlight = true := by
  rw [tryEnter] at h ⊢
  split_ifs at h ⊢
  · cases h
  · rfl

theorem step_holds (hself : t.holds = true → s.inFlight = true)
    (h : (s.step parse t ev).2.holds = true) : (s.step parse t ev).1.inFlight = true := by
  unfold PaywallQueue.step at h ⊢
  split at h
  · rw [enqueue] at h
    split_ifs at h <;> cases h
  · cases h
  · exact tryEnter_holds h
  · rename_i rearmed ok
    have hflag : s.inFlight = true := hself rfl
    cases s.nextRow ok with
    | none => exact hflag
    | some r =>
      simp only [drainOne]
      split_ifs <;> exact hflag
  · exact hself rfl
  · rename_i rearmed id replies
    have hflag : s.inFlight = true := hself rfl
    cases postJson true replies with
    | ok status => exact hflag
    | error err =>
      simp only [answered]
      split_ifs <;> exact hflag
  · have hflag : s.inFlight = true := hself rfl
    simp only
    split_ifs <;> exact hflag
  · simp only at h
    split_ifs at h <;> cases h
  · simp only at h
    split_ifs at h <;> cases h
  · exact tryEnter_holds h
  · exact hself h

theorem oldest_nextRow (hinv : InOrder s) {ok : Bool} {row : ℕ × String}
    (h : s.nextRow ok = some row) : Oldest s row.1 := by
  rw [nextRow] at h
  split_ifs at h
  obtain ⟨hmem, hle⟩ := Fifo.head_oldest h
  exact ⟨fun x hx => hinv.rows x hx row hmem, hle, s.queue.below row hmem⟩

theorem step_sending (hinv : InOrder s) (hself : ∀ rearmed id, t = .sending rearmed id → Oldest s id)
    {rearmed : Bool} {id : ℕ} (h : (s.step parse t ev).2 = .sending rearmed id) :
    Oldest (s.step parse t ev).1 id := by
  unfold PaywallQueue.step at h ⊢
  split at h
  · rw [enqueue] at h
    split_ifs at h
  · cases h
  · rw [tryEnter] at h
    split_ifs at h
  · rename_i rearmed' ok
    cases hnext : s.nextRow ok with
    | none =>
      rw [hnext] at h
      cases h
    | some row =>
      simp only [hnext, drainOne] at h ⊢
      split_ifs at h ⊢
      cases h
      exact oldest_nextRow hinv hnext
  · cases h
  · rename_i rearmed' id' replies
    cases hpost : postJson true replies with
    | ok status =>
      rw [hpost] at h
      cases h
    | error err =>
      rw [hpost, answered] at h
      split_ifs at h
  · cases h
  · simp only at h
    split_ifs at h
  · simp only at h
    split_ifs at h
  · rw [tryEnter] at h
    split_ifs at h
  · exact hself rearmed id h

theorem step_inOrder (hinv : InOrder s)
    (hself : ∀ rearmed id, t = .sending rearmed id → Oldest s id) :
    InOrder (s.step parse t ev).1 := by
  have heffect := step_effect parse s t ev
  rcases heffect.sent with hsent | ⟨rearmed, id, ht, hout⟩
  · refine ⟨hsent ▸ hinv.sorted, fun x hx e he => ?_, fun x hx => ?_⟩
    · rw [hsent] at hx
      rcases heffect.rows e he with he | he
      · exact hinv.rows x hx e he
      · exact he ▸ (hinv.fresh x hx).le
    · rw [hsent] at hx
      exact (hinv.fresh x hx).trans_le heffect.grows
  · have hold := hself rearmed id ht
    rw [hout]
    refine ⟨?_, fun x hx e he => ?_, fun x hx => ?_⟩
    · rw [List.pairwise_append]
      refine ⟨hinv.sorted, List.pairwise_singleton .., fun x hx y hy => ?_⟩
      rw [List.mem_singleton] at hy
      exact hy ▸ hold.sent x hx
    · rcases List.mem_append.1 hx with hx | hx
      · exact hinv.rows x hx e he
      · rw [List.mem_singleton] at hx
        exact hx ▸ hold.rows e he
    · rcases List.mem_append.1 hx with hx | hx
      · exact hinv.fresh x hx
      · rw [List.mem_singleton] at hx
        exact hx ▸ hold.fresh

theorem Effect.oldest {out : PaywallQueue × Drain} (h : Effect s t out) (ht : t.holds = false)
    {id : ℕ} (hold : Oldest s id) : Oldest out.1 id := by
  have hsent : out.1.sent = s.sent := by
    rcases h.sent with hsent | ⟨rearmed, id', rfl, -⟩
    · exact hsent
    · cases ht
  refine ⟨fun x hx => hold.sent x (hsent ▸ hx), fun e he => ?_, hold.fresh.trans_le h.grows⟩
  rcases h.rows e he with he | he
  · exact hold.rows e he
  · exact he ▸ hold.fresh.le

theorem ordered_next [DecidableEq ι] {w : PaywallWorld ι} (h : ordered.Holds w)
    (e : Event ι DrainEvent Restart) : ordered.Holds ((paywallSystem parse).next w e) := by
  cases e with
  | env d =>
    refine ⟨⟨h.inv.sorted, h.inv.rows, h.inv.fresh⟩, fun i => ⟨?_, ?_⟩, fun i j hij => ?_⟩
    · rintro ⟨⟩
    · rintro rearmed id ⟨⟩
    · rintro ⟨⟨⟩, -⟩
  | act i ev =>
    obtain ⟨hflag, hsending⟩ := h.assert i
    have heffect := step_effect parse w.shared (w.task i) ev
    have hapart : ∀ j ≠ i, (w.task j).holds = true →
        (w.task i).holds = false ∧ w.shared.inFlight = true := by
      intro j hj hholds
      refine ⟨?_, (h.assert j).1 hholds⟩
      have hnot := h.apart i j hj.symm
      simpa using fun hi => hnot ⟨hi, hholds⟩
    have hother : ∀ j ≠ i, ¬ ((w.shared.step parse (w.task i) ev).2.holds = true ∧
        (w.task j).holds = true) := by
      rintro j hj ⟨henter, hholds⟩
      obtain ⟨hi, hset⟩ := hapart j hj hholds
      rcases heffect.enters henter with hi' | hclear
      · rw [hi] at hi'
        cases hi'
      · rw [hset] at hclear
        cases hclear
    refine h.update (step_inOrder h.inv hsending)
      ⟨step_holds hflag, fun rearmed id => step_sending h.inv hsending⟩ (fun j hj => ⟨?_, ?_⟩)
      fun j hj => ⟨hother j hj, fun hboth => hother j hj hboth.symm⟩
    · intro hholds
      obtain ⟨hi, hset⟩ := hapart j hj hholds
      exact heffect.flag hset hi
    · intro rearmed id hid
      have hholds : (w.task j).holds = true := by rw [hid]; rfl
      exact heffect.oldest (hapart j hj hholds).1 ((h.assert j).2 rearmed id hid)

end Rovenue.Sdk
