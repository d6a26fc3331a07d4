import Rovenue.Sdk.CacheStore
import Rovenue.Sdk.HttpClient
import Rovenue.Threads.System

/-! The durable queue of paywall events: appends from any thread, each with a drain of
its own, and one flag that lets a single drain through. -/

namespace Rovenue.Sdk
open Queues Threads

structure EventEnvelope where
  eventType : String
  subscriberId : Option String

inductive Verdict where
  | delivered (status : ℕ)
  | poison
deriving DecidableEq

/-- `sent` and `verdicts` are the ids POSTed and judged so far, and no columns. -/
structure PaywallQueue where
  queue : Fifo String
  inFlight : Bool
  sent : List ℕ
  verdicts : List (ℕ × Verdict)

/-- Where a `drain_once` stands; `rearmed` is its second pass. -/
inductive Drain where
  | idle
  | starting
  | peeking (rearmed : Bool)
  | sending (rearmed : Bool) (id : ℕ)
  | posting (rearmed : Bool) (id : ℕ)
  | deleting (rearmed : Bool) (id : ℕ)
  | clearing (rearmed stoppedEarly : Bool)
  | rechecking
  | rearming
deriving DecidableEq

inductive DrainEvent where
  | enqueue (envelopeJson : String) (fault : Option AppendFault)
  | trigger
  | compareExchange
  | peek (ok : Bool)
  | send
  | reply (replies : ℕ → Reply)
  | delete (ok : Bool)
  | clear
  | recheck (ok : Bool)

namespace PaywallQueue

def nextRow (s : PaywallQueue) (ok : Bool) : Option (ℕ × String) :=
  if ok then (s.queue.oldest 1).head? else none

def isPaywallEvent (e : EventEnvelope) : Bool := "paywall_".toList.isPrefixOf e.eventType.toList

section Parse
variable (parse : String → Option EventEnvelope)

def enqueue (s : PaywallQueue) (envelopeJson : String) (fault : Option AppendFault) :
    PaywallQueue × Drain :=
  if (parse envelopeJson).any isPaywallEvent then
    ({ s with queue := (append paywallEventsCap envelopeJson fault s.queue).1 },
      if fault = none then .starting else .idle)
  else (s, .idle)

def tryEnter (s : PaywallQueue) (rearmed : Bool) : PaywallQueue × Drain :=
  if s.inFlight then (s, .idle) else ({ s with inFlight := true }, .peeking rearmed)

def judge (s : PaywallQueue) (id : ℕ) (v : Verdict) : PaywallQueue :=
  { s with verdicts := s.verdicts ++ [(id, v)] }

def drainOne (s : PaywallQueue) (rearmed : Bool) : Option (ℕ × String) → PaywallQueue × Drain
  | none => (s, .clearing rearmed false)
  | some (id, envelopeJson) =>
    if (parse envelopeJson).isSome then (s, .sending rearmed id)
    else (s.judge id .poison, .deleting rearmed id)

def answered (s : PaywallQueue) (rearmed : Bool) (id : ℕ) :
    Except RovenueError ℕ → PaywallQueue × Drain
  | .ok status => (s.judge id (.delivered status), .deleting rearmed id)
  | .error err =>
    if err.isPoison then (s.judge id .poison, .deleting rearmed id)
    else (s, .clearing rearmed true)

def step (s : PaywallQueue) : Drain → DrainEvent → PaywallQueue × Drain
  | .idle, .enqueue envelopeJson fault => s.enqueue parse envelopeJson fault
  | .idle, .trigger => (s, .starting)
  | .starting, .compareExchange => s.tryEnter false
  | .peeking rearmed, .peek ok => s.drainOne parse rearmed (s.nextRow ok)
  | .sending rearmed id, .send => ({ s with sent := s.sent ++ [id] }, .posting rearmed id)
  | .posting rearmed id, .reply replies => s.answered rearmed id (postJson true replies)
  | .deleting rearmed id, .delete ok =>
    (if ok then { s with queue := s.queue.remove [id] } else s, .peeking rearmed)
  | .clearing rearmed stoppedEarly, .clear =>
    ({ s with inFlight := false }, if rearmed || stoppedEarly then .idle else .rechecking)
  | .rechecking, .recheck ok => (s, if (s.nextRow ok).isSome then .rearming else .idle)
  | .rearming, .compareExchange => s.tryEnter true
  | t, _ => (s, t)

end Parse
end PaywallQueue

inductive Restart where
  | restart
deriving DecidableEq

def paywallSystem (parse : String → Option EventEnvelope) :
    System PaywallQueue Drain DrainEvent Restart where
  step := PaywallQueue.step parse
  env s _ := { s with inFlight := false }
  reset _ _ := .idle

end Rovenue.Sdk

/-! Why a row leaves the paywall queue: it was answered, it was judged poison, or an
append went over the cap. -/

namespace Rovenue.Sdk
open Queues Threads PaywallQueue

variable {ι : Type} {parse : String → Option EventEnvelope} {s : PaywallQueue} {t u : Drain}
  {ev : DrainEvent}

abbrev PaywallWorld (ι : Type) := World ι PaywallQueue Drain

/-- A process that starts on whatever rows an earlier one left. -/
structure PaywallStarts (w : PaywallWorld ι) : Prop where
  idle : ∀ i, w.task i = .idle
  flag : w.shared.inFlight = false
  sent : w.shared.sent = []
  verdicts : w.shared.verdicts = []

/-- The oldest rows beyond the cap, dropped by the append that goes over it. -/
def DropsOldest (w : PaywallWorld ι) (e : Event ι DrainEvent Restart) (row : ℕ × String) : Prop :=
  ∃ i envelopeJson, e = .act i (.enqueue envelopeJson none) ∧
    row ∈ w.shared.queue.rows.take (w.shared.queue.rows.length + 1 - paywallEventsCap)

/-- A status that counts as delivered, or poison. -/
def Verdict.Sound : Verdict → Prop
  | .delivered status => Accepted status
  | .poison => True

theorem append_removes {json : String} {fault : Option AppendFault} {q : Fifo String}
    {row : ℕ × String} (hrow : row ∈ q.rows)
    (hgone : row ∉ (append paywallEventsCap json fault q).1.rows) :
    fault = none ∧ row ∈ q.rows.take (q.rows.length + 1 - paywallEventsCap) := by
  rcases fault with _ | _ | _
  · exact ⟨rfl, Fifo.mem_take_of_dropped (by decide) hrow hgone⟩
  · exact absurd hrow hgone
  · exact absurd (Fifo.mem_push.2 (.inl hrow)) hgone

theorem step_removes {row : ℕ × String} (hrow : row ∈ s.queue.rows)
    (hgone : row ∉ (s.step parse t ev).1.queue.rows) :
    (∃ json, ev = .enqueue json none ∧
      row ∈ s.queue.rows.take (s.queue.rows.length + 1 - paywallEventsCap)) ∨
    ∃ rearmed, t = .deleting rearmed row.1 := by
  unfold PaywallQueue.step at hgone
  split at hgone
  · rename_i json fault
    left
    by_cases hparse : (parse json).any isPaywallEvent = true
    · rw [enqueue, if_pos hparse] at hgone
      obtain ⟨rfl, hmem⟩ := append_removes hrow hgone
      exact ⟨json, rfl, hmem⟩
    · rw [enqueue, if_neg hparse] at hgone
      exact absurd hrow hgone
  · exact absurd hrow hgone
  · rw [tryEnter] at hgone
    split_ifs at hgone <;> exact absurd hrow hgone
  · rename_i rearmed ok
    cases hnext : s.nextRow ok with
    | none => exact absurd hrow (by simpa [hnext, drainOne] using hgone)
    | some r =>
      rw [hnext, drainOne] at hgone
      split_ifs at hgone <;> exact absurd hrow hgone
  · exact absurd hrow hgone
  · rename_i rearmed id replies
    cases hpost : postJson true replies with
    | ok status => exact absurd hrow (by simpa [hpost, answered, judge] using hgone)
    | error err =>
      rw [hpost, answered] at hgone
      split_ifs at hgone <;> exact absurd hrow hgone
  · rename_i rearmed id ok
    right
    split_ifs at hgone
    · have hid : row.1 = id := by
        by_contra hne
        exact hgone (Fifo.mem_remove.2 ⟨hrow, by simpa using hne⟩)
      exact ⟨rearmed, by rw [hid]⟩
    · exact absurd hrow hgone
  · exact absurd hrow hgone
  · exact absurd hrow hgone
  · rw [tryEnter] at hgone
    split_ifs at hgone <;> exact absurd hrow hgone
  · exact absurd hrow hgone

def judged : Annotation PaywallQueue Drain where
  inv s := ∀ p ∈ s.verdicts, p.2.Sound
  assert s t := ∀ rearmed id, t = .deleting rearmed id → ∃ v, (id, v) ∈ s.verdicts

theorem judge_mem (s : PaywallQueue) (id : ℕ) (v : Verdict) : (id, v) ∈ (s.judge id v).verdicts :=
  List.mem_append_right _ (List.mem_singleton.2 rfl)

theorem judge_sound (h : judged.inv s) (id : ℕ) {v : Verdict} (hv : v.Sound) :
    judged.inv (s.judge id v) := by
  intro p hp
  rcases List.mem_append.1 hp with hp | hp
  · exact h p hp
  · rw [List.mem_singleton] at hp
    rw [hp]
    exact hv

theorem step_judged (parse : String → Option EventEnvelope) (ev : DrainEvent)
    (hinv : judged.inv s) (hself : judged.assert s t) :
    judged.inv (s.step parse t ev).1 ∧ judged.assert (s.step parse t ev).1 (s.step parse t ev).2 ∧
      s.verdicts ⊆ (s.step parse t ev).1.verdicts := by
  have hkeep : s.verdicts ⊆ s.verdicts := List.Subset.refl _
  have hjudge : ∀ id v, s.verdicts ⊆ (s.judge id v).verdicts :=
    fun id v => List.subset_append_left ..
  unfold PaywallQueue.step
  split
  · rw [enqueue]
    split_ifs
    · exact ⟨hinv, by rintro _ _ ⟨⟩, hkeep⟩
    · exact ⟨hinv, by rintro _ _ ⟨⟩, hkeep⟩
    · exact ⟨hinv, by rintro _ _ ⟨⟩, hkeep⟩
  · exact ⟨hinv, by rintro _ _ ⟨⟩, hkeep⟩
  · rw [tryEnter]
    split_ifs <;> exact ⟨hinv, by rintro _ _ ⟨⟩, hkeep⟩
  · rename_i rearmed ok
    cases s.nextRow ok with
    | none => exact ⟨hinv, by rintro _ _ ⟨⟩, hkeep⟩
    | some r =>
      rw [drainOne]
      split_ifs
      · exact ⟨hinv, by rintro _ _ ⟨⟩, hkeep⟩
      · exact ⟨judge_sound hinv r.1 trivial, by rintro _ _ ⟨⟩; exact ⟨_, judge_mem ..⟩, hjudge ..⟩
  · exact ⟨hinv, by rintro _ _ ⟨⟩, hkeep⟩
  · rename_i rearmed id replies
    cases hpost : postJson true replies with
    | ok status =>
      have hsound : (Verdict.delivered status).Sound := (postJson_ok hpost).1
      exact ⟨judge_sound hinv id hsound, by rintro _ _ ⟨⟩; exact ⟨_, judge_mem ..⟩, hjudge ..⟩
    | error err =>
      rw [answered]
      split_ifs
      · exact ⟨judge_sound hinv id trivial, by rintro _ _ ⟨⟩; exact ⟨_, judge_mem ..⟩, hjudge ..⟩
      · exact ⟨hinv, by rintro _ _ ⟨⟩, hkeep⟩
  · split_ifs <;> exact ⟨hinv, by rintro _ _ ⟨⟩, hkeep⟩
  · refine ⟨hinv, fun _ _ h => ?_, hkeep⟩
    simp only at h
    split_ifs at h
  · refine ⟨hinv, fun _ _ h => ?_, hkeep⟩
    simp only at h
    split_ifs at h
  · rw [tryEnter]
    split_ifs <;> exact ⟨hinv, by rintro _ _ ⟨⟩, hkeep⟩
  · exact ⟨hinv, hself, hkeep⟩

theorem judged_next [DecidableEq ι] {w : PaywallWorld ι} (h : judged.Holds w)
    (e : Event ι DrainEvent Restart) : judged.Holds ((paywallSystem parse).next w e) := by
  cases e with
  | env d => exact ⟨h.inv, by rintro _ _ _ ⟨⟩, fun _ _ _ => trivial⟩
  | act i ev =>
    obtain ⟨hinv, hself, hkeep⟩ := step_judged parse ev h.inv (h.assert i)
    refine h.update hinv hself (fun j hj rearmed id hid => ?_) fun _ _ => ⟨trivial, trivial⟩
    obtain ⟨v, hv⟩ := h.assert j rearmed id hid
    exact ⟨v, hkeep hv⟩

end Rovenue.Sdk
