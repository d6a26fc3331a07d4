import Rovenue.Sdk.PaywallOrder

/-! When a quiet paywall queue is an empty one. A drain looks again after it clears the
flag, but only once, so a trigger can meet a drain that will not look any more. -/

namespace Rovenue.Sdk
open Queues Threads PaywallQueue

variable {ι : Type} {parse : String → Option EventEnvelope} {s : PaywallQueue} {t : Drain}
  {ev : DrainEvent} {w : PaywallWorld ι}

def Drain.willLook : Drain → Bool
  | .starting | .peeking _ | .sending _ _ | .posting _ _ | .deleting _ _ => true
  | .clearing false false | .rechecking | .rearming => true
  | _ => false

def Drain.leaves : Drain → Bool
  | .clearing rearmed stoppedEarly => rearmed || stoppedEarly
  | _ => false

def NoDrain (w : PaywallWorld ι) : Prop := ∀ i, w.task i = .idle

/-- Nothing is queued, or some drain has still to look. -/
def Covered (w : PaywallWorld ι) : Prop :=
  w.shared.queue.rows = [] ∨ ∃ i, (w.task i).willLook = true

/-- No POST ends in an error that retains the row, no statement fails, and no trigger
meets a drain that is leaving. -/
def Drain.Smooth (w : PaywallWorld ι) : Drain → DrainEvent → Prop
  | .posting _ _, .reply replies => ∀ err, postJson true replies = .error err → err.isPoison = true
  | .starting, .compareExchange => ∀ j, (w.task j).leaves = false
  | .rearming, .compareExchange => ∀ j, (w.task j).leaves = false
  | _, .enqueue _ fault => fault = none
  | _, .peek ok => ok = true
  | _, .delete ok => ok = true
  | _, .recheck ok => ok = true
  | _, _ => True

def Smooth (w : PaywallWorld ι) : Event ι DrainEvent Restart → Prop
  | .act i ev => (w.task i).Smooth w ev
  | .env _ => False

def Guarded (w : PaywallWorld ι) : Prop :=
  w.shared.inFlight = true → ∃ i, (w.task i).holds = true

theorem step_guards (h : (s.step parse t ev).2.holds = false ∧ (s.step parse t ev).1.inFlight = true) :
    s.inFlight = true ∧ t.holds = false := by
  unfold PaywallQueue.step at h
  split at h
  · rw [enqueue] at h
    split_ifs at h <;> exact ⟨h.2, rfl⟩
  · exact ⟨h.2, rfl⟩
  · rw [tryEnter] at h
    split_ifs at h with hflag
    · exact ⟨hflag, rfl⟩
    · cases h.1
  · rename_i rearmed ok
    cases hnext : s.nextRow ok with
    | none =>
      rw [hnext] at h
      cases h.1
    | some row =>
      rw [hnext, drainOne] at h
      split_ifs at h <;> cases h.1
  · cases h.1
  · rename_i rearmed id replies
    cases hpost : postJson true replies with
    | ok status =>
      rw [hpost] at h
      cases h.1
    | error err =>
      rw [hpost, answered] at h
      split_ifs at h <;> cases h.1
  · cases h.1
  · cases h.2
  · exact ⟨h.2, rfl⟩
  · rw [tryEnter] at h
    split_ifs at h with hflag
    · exact ⟨hflag, rfl⟩
    · cases h.1
  · exact ⟨h.2, h.1⟩

theorem Guarded.next [DecidableEq ι] (h : Guarded w) (e : Event ι DrainEvent Restart) :
    Guarded ((paywallSystem parse).next w e) := by
  cases e with
  | env d => rintro ⟨⟩
  | act i ev =>
    intro hset
    cases hout : (w.shared.step parse (w.task i) ev).2.holds with
    | true => exact ⟨i, by simpa [System.next, paywallSystem] using hout⟩
    | false =>
      obtain ⟨hflag, hi⟩ := step_guards ⟨hout, hset⟩
      obtain ⟨j, hj⟩ := h hflag
      have hji : j ≠ i := by
        rintro rfl
        rw [hi] at hj
        cases hj
      exact ⟨j, by simpa [System.next, Function.update_of_ne hji] using hj⟩

theorem Drain.willLook_of_holds (h : t.holds = true) (hleaves : t.leaves = false) :
    t.willLook = true := by
  cases t with
  | clearing rearmed stoppedEarly =>
    cases rearmed <;> cases stoppedEarly <;> simp_all [Drain.leaves, Drain.willLook]
  | _ => first | rfl | cases h

theorem step_looks (parse : String → Option EventEnvelope) (hsmooth : t.Smooth w ev) :
    (s.step parse t ev).1.queue.rows = [] ∨ (s.step parse t ev).2.willLook = true ∨
      (t.willLook = false ∧ (s.step parse t ev).1.queue = s.queue) ∨
        (s.inFlight = true ∧ t.holds = false ∧ ∀ j, (w.task j).leaves = false) := by
  -- what a smooth step leaves: an empty queue, a drain that will look, a thread that would not have
  -- looked and added nothing, or a trigger that found the flag set
  unfold PaywallQueue.step
  split
  · rename_i json fault
    obtain rfl : fault = none := hsmooth
    rw [enqueue]
    by_cases hparse : (parse json).any isPaywallEvent = true
    · rw [if_pos hparse]
      exact .inr (.inl rfl)
    · rw [if_neg hparse]
      exact .inr (.inr (.inl ⟨rfl, rfl⟩))
  · exact .inr (.inl rfl)
  · rw [tryEnter]
    split_ifs with hflag
    · exact .inr (.inr (.inr ⟨hflag, rfl, hsmooth⟩))
    · exact .inr (.inl rfl)
  · rename_i rearmed ok
    obtain rfl : ok = true := hsmooth
    cases hnext : s.nextRow true with
    | none => exact .inl (Fifo.rows_eq_nil hnext)
    | some row =>
      rw [drainOne]
      split_ifs <;> exact .inr (.inl rfl)
  · exact .inr (.inl rfl)
  · rename_i rearmed id replies
    cases hpost : postJson true replies with
    | ok status => exact .inr (.inl rfl)
    | error err =>
      have hpoison : err.isPoison = true := hsmooth err hpost
      rw [answered, if_pos hpoison]
      exact .inr (.inl rfl)
  · exact .inr (.inl rfl)
  · rename_i rearmed stoppedEarly
    cases rearmed <;> cases stoppedEarly
    · exact .inr (.inl rfl)
    · exact .inr (.inr (.inl ⟨rfl, rfl⟩))
    · exact .inr (.inr (.inl ⟨rfl, rfl⟩))
    · exact .inr (.inr (.inl ⟨rfl, rfl⟩))
  · rename_i ok
    obtain rfl : ok = true := hsmooth
    cases hnext : s.nextRow true with
    | none => exact .inl (Fifo.rows_eq_nil hnext)
    | some row => exact .inr (.inl rfl)
  · rw [tryEnter]
    split_ifs with hflag
    · exact .inr (.inr (.inr ⟨hflag, rfl, hsmooth⟩))
    · exact .inr (.inl rfl)
  · by_cases hlook : t.willLook = true
    · exact .inr (.inl hlook)
    · exact .inr (.inr (.inl ⟨by simpa using hlook, rfl⟩))

theorem Covered.next [DecidableEq ι] (h : Covered w) (hguard : Guarded w)
    {e : Event ι DrainEvent Restart} (hsmooth : Smooth w e) :
    Covered ((paywallSystem parse).next w e) := by
  cases e with
  | env d => exact hsmooth.elim
  | act i ev =>
    have hstays : ∀ j, (w.task i).willLook = false ∨
        (w.task i).holds = false ∧ (w.task j).holds = true → (w.task j).willLook = true →
          ∃ k, (((paywallSystem parse).next w (.act i ev)).task k).willLook = true := by
      intro j hi hj
      have hji : j ≠ i := by
        rintro rfl
        rcases hi with hi | ⟨hi, hi'⟩
        · rw [hi] at hj
          cases hj
        · rw [hi] at hi'
          cases hi'
      exact ⟨j, by simpa [System.next, Function.update_of_ne hji] using hj⟩
    rcases step_looks parse (s := w.shared) hsmooth with
      hempty | hlook | ⟨hi, hqueue⟩ | ⟨hflag, hi, hleaves⟩
    · exact .inl hempty
    · exact .inr ⟨i, by simpa [System.next, paywallSystem] using hlook⟩
    · rcases h with hempty | ⟨j, hj⟩
      · left
        change (w.shared.step parse (w.task i) ev).1.queue.rows = []
        rw [hqueue, hempty]
      · exact .inr (hstays j (.inl hi) hj)
    · obtain ⟨j, hj⟩ := hguard hflag
      exact .inr (hstays j (.inr ⟨hi, hj⟩) (Drain.willLook_of_holds hj (hleaves j)))

theorem PaywallStarts.guarded (h : PaywallStarts w) : Guarded w := by
  intro hflag
  rw [h.flag] at hflag
  cases hflag

theorem PaywallStarts.judged (h : PaywallStarts w) : judged.Holds w where
  inv p hp := by
    rw [h.verdicts] at hp
    exact absurd hp List.not_mem_nil
  assert i rearmed id hid := by
    rw [h.idle i] at hid
    cases hid
  apart _ _ _ := trivial

theorem PaywallStarts.ordered (h : PaywallStarts w) : ordered.Holds w where
  inv := by
    refine ⟨?_, ?_, ?_⟩ <;> simp [h.sent]
  assert i := by
    rw [h.idle i]
    exact ⟨by rintro ⟨⟩, by rintro _ _ ⟨⟩⟩
  apart i j _ := by
    rw [h.idle i]
    rintro ⟨⟨⟩, -⟩

variable [DecidableEq ι]

/-- A row leaves only when it was answered with a status that counts as delivered, was
judged poison, or is among the oldest beyond the cap; the rows are sent in the order
of their ids; and from a covered point on, smooth steps end in an empty queue. -/
theorem paywall_queue_delivers (parse : String → Option EventEnvelope) (w : PaywallWorld ι)
    (hstart : PaywallStarts w) (evs : List (Event ι DrainEvent Restart)) :
    (∀ x ∈ (paywallSystem parse).transitions w evs, ∀ row ∈ x.1.shared.queue.rows,
      row ∉ ((paywallSystem parse).next x.1 x.2).shared.queue.rows →
        DropsOldest x.1 x.2 row ∨ ∃ v, (row.1, v) ∈ x.1.shared.verdicts ∧ v.Sound) ∧
    ((paywallSystem parse).runAll w evs).shared.sent.Pairwise (· ≤ ·) ∧
    ∀ pre post, evs = pre ++ post → Covered ((paywallSystem parse).runAll w pre) →
      (∀ x ∈ (paywallSystem parse).transitions ((paywallSystem parse).runAll w pre) post,
        Smooth x.1 x.2) →
          NoDrain ((paywallSystem parse).runAll w evs) →
            ((paywallSystem parse).runAll w evs).shared.queue.rows = [] := by
  refine ⟨fun x hx row hrow hgone => ?_, ?_, fun pre post hevs hcovered hsmooth hquiet => ?_⟩
  · have hstep : ∀ (w : PaywallWorld ι) e, judged.Holds w →
        judged.Holds ((paywallSystem parse).next w e) := fun w e h => judged_next h e
    have hjudged := System.visited_invariant hstep hstart.judged x.1 (System.fst_mem_visited hx)
    obtain ⟨v, e⟩ := x
    cases e with
    | env d => exact absurd hrow hgone
    | act i ev =>
      rcases step_removes hrow hgone with ⟨json, rfl, hmem⟩ | ⟨rearmed, htask⟩
      · exact .inl ⟨i, json, rfl, hmem⟩
      · obtain ⟨verdict, hmem⟩ := hjudged.assert i rearmed row.1 htask
        exact .inr ⟨verdict, hmem, hjudged.inv _ hmem⟩
  · have hstep : ∀ (w : PaywallWorld ι) e, ordered.Holds w →
        ordered.Holds ((paywallSystem parse).next w e) := fun w e h => ordered_next h e
    have hrun := System.visited_invariant hstep hstart.ordered
      ((paywallSystem parse).runAll w evs) System.last_mem_visited
    exact hrun.inv.sorted
  · have hflag : ∀ (w : PaywallWorld ι) e, Guarded w →
        Guarded ((paywallSystem parse).next w e) := fun w e h => h.next e
    have hguard := System.visited_invariant hflag hstart.guarded
      ((paywallSystem parse).runAll w pre) System.last_mem_visited
    have hstep : ∀ (w : PaywallWorld ι) e, Covered w ∧ Guarded w → Smooth w e →
        Covered ((paywallSystem parse).next w e) ∧ Guarded ((paywallSystem parse).next w e) :=
      fun w e h hs => ⟨h.1.next h.2 hs, h.2.next e⟩
    have hrun := System.runAll_induct hstep ⟨hcovered, hguard⟩ hsmooth
    rw [← System.runAll_append, ← hevs] at hrun
    rcases hrun.1 with hempty | ⟨i, hi⟩
    · exact hempty
    · rw [hquiet i] at hi
      cases hi

inductive EventThread where
  | first | second | third
deriving DecidableEq

def emptyQueue : PaywallWorld EventThread := ⟨⟨Fifo.empty, false, [], []⟩, fun _ => .idle⟩

theorem emptyQueue_starts : PaywallStarts emptyQueue := ⟨fun _ => rfl, rfl, rfl, rfl⟩

def parseView : String → Option EventEnvelope := fun _ => some ⟨"paywall_view", none⟩

def deliverOne (i : EventThread) (status : ℕ) : List (Event EventThread DrainEvent Restart) :=
  -- a drain's way through one row, answered with `status`, and back to the queue
  [.act i (.peek true), .act i .send, .act i (.reply fun _ => .response status none true),
    .act i (.delete true)]

def appendAndDrain (status : ℕ) : List (Event EventThread DrainEvent Restart) :=
  [.act .first (.enqueue "a" none), .act .first .compareExchange] ++ deliverOne .first status

theorem paywall_queue_delivers_appendAndDrain :
    (∀ x ∈ (paywallSystem parseView).transitions emptyQueue (appendAndDrain 202),
      ∀ row ∈ x.1.shared.queue.rows,
        row ∉ ((paywallSystem parseView).next x.1 x.2).shared.queue.rows →
          DropsOldest x.1 x.2 row ∨ ∃ v, (row.1, v) ∈ x.1.shared.verdicts ∧ v.Sound) ∧
    ((paywallSystem parseView).runAll emptyQueue (appendAndDrain 202)).shared.sent.Pairwise
      (· ≤ ·) ∧
    ∀ pre post, appendAndDrain 202 = pre ++ post →
      Covered ((paywallSystem parseView).runAll emptyQueue pre) →
        (∀ x ∈ (paywallSystem parseView).transitions
          ((paywallSystem parseView).runAll emptyQueue pre) post, Smooth x.1 x.2) →
            NoDrain ((paywallSystem parseView).runAll emptyQueue (appendAndDrain 202)) →
              ((paywallSystem parseView).runAll emptyQueue (appendAndDrain 202)).shared.queue.rows =
                [] :=
  paywall_queue_delivers parseView emptyQueue emptyQueue_starts (appendAndDrain 202)

def lateAppends : List (Event EventThread DrainEvent Restart) :=
  -- Every POST is answered 202. The third event arrives after the re-armed pass has seen the queue
  -- empty and before it clears the flag, so its own drain is turned away.
  appendAndDrain 202 ++ [.act .first (.peek true), .act .second (.enqueue "b" none),
    .act .second .compareExchange, .act .first .clear, .act .first (.recheck true),
    .act .first .compareExchange] ++ deliverOne .first 202 ++ [.act .first (.peek true),
    .act .second (.enqueue "c" none), .act .second .compareExchange, .act .first .clear]

/-- A 409 deletes a row that no 2xx answered, and appends alone can leave a row behind
although every POST succeeds. -/
theorem conflict_deletes_and_late_append_stays :
    (∃ x ∈ (paywallSystem parseView).transitions emptyQueue (appendAndDrain 409),
      ∃ row ∈ x.1.shared.queue.rows,
        row ∉ ((paywallSystem parseView).next x.1 x.2).shared.queue.rows ∧
          ¬ DropsOldest x.1 x.2 row ∧ x.1.shared.verdicts = [(row.1, .delivered 409)]) ∧
    NoDrain ((paywallSystem parseView).runAll emptyQueue lateAppends) ∧
      ((paywallSystem parseView).runAll emptyQueue lateAppends).shared.queue.rows ≠ [] := by
  refine ⟨⟨((paywallSystem parseView).runAll emptyQueue ((appendAndDrain 409).take 5),
    .act .first (.delete true)), ?_, (1, "a"), by decide, by decide, ?_, by decide⟩, ?_, by decide⟩
  · exact List.mem_cons_of_mem _ (List.mem_cons_of_mem _ (List.mem_cons_of_mem _
      (List.mem_cons_of_mem _ (List.mem_cons_of_mem _ (List.mem_cons_self ..)))))
  · rintro ⟨i, json, h, -⟩
    cases h
  · intro i
    cases i <;> rfl

end Rovenue.Sdk
