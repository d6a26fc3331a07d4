import Rovenue.Txn.Session
import Rovenue.Webhooks.WebhookEvents

/-! The reaper that stops on its way. The reclaim commits the whole batch before the first replay
is enqueued, and no later run looks at a row that is FAILED. -/

namespace Rovenue.Webhooks
open Txn Prog

def reaperStopped (time : ℤ) (n : ℕ) (s : EventDb) : EventDb :=
  -- what a run at `time` leaves behind that stops before its commit number `n`: the reclaim is
  -- number zero, the replays come after it
  (runWebhookReaper : EventService WebhookReaperResult).stopped n
    (Session.start s (fun _ => time) fun _ => "") s

def replays (time : ℤ) (s : EventDb) : List (String × WebhookJobData) :=
  ((staleEntries time s).map fun e => e.2.reclaim time).filterMap replayOf

def EventDb.jobIds (s : EventDb) : List String := s.replayQueue.map Prod.fst

def LaterSelected (s : EventDb) (key : WebhookEventKey) : Prop :=
  ∃ runs : List (ℤ × ℕ), ∃ time e,
    (runs.foldl (fun s run => reaperStopped run.1 run.2 s) s).webhookEvents.get? key = some e ∧
      e.orphaned time

/-- Each orphaned row that can be replayed has its job, or is seen by a later run. -/
def LosesNothing (time : ℤ) (n : ℕ) (s : EventDb) : Prop :=
  ∀ key e replay, (key, e) ∈ staleEntries time s → replayOf (e.reclaim time) = some replay →
    replay.1 ∈ (reaperStopped time n s).jobIds ∨ LaterSelected (reaperStopped time n s) key

/-- Nothing is left to enqueue from the stop on, but jobs that the queue knows. -/
def StopsInTime (time : ℤ) (n : ℕ) (s : EventDb) : Prop :=
  n = 0 ∨ ∀ replay ∈ (replays time s).drop (n - 1),
    replay.1 ∈ s.jobIds ++ ((replays time s).take (n - 1)).map Prod.fst

variable {s : EventDb} {time : ℤ} {n : ℕ} {key : WebhookEventKey} {e : WebhookEvent}

def reclaimed (time : ℤ) (s : EventDb) : EventDb :=
  applyAll s ((staleEntries time s).map fun e => .reclaim e.1 time)

def enqueued (jobs : List (String × WebhookJobData)) (s : EventDb) : EventDb :=
  applyAll s (jobs.map fun replay => .enqueueReplay replay.1 replay.2)

theorem reaperStopped_succ : reaperStopped time (n + 1) s =
    enqueued ((replays time s).take n) (reclaimed time s) := by
  have hloop := stopped_forEach (σ := EventDb) (κ := WebhookEventKey) (ω := EventWrite)
    (ν := String) (fun _ _ => [])
    (fun replay : String × WebhookJobData => [.enqueueReplay replay.1 replay.2]) (replays time s)
    (WebhookReaperResult.mk ((staleEntries time s).map fun e => e.2.reclaim time).length
      (replays time s).length)
    (((Session.start s (fun _ => time) fun _ => "").tick).write
      ((staleEntries time s).map fun e => .reclaim e.1 time)) n
  have hwrites : ((replays time s).take n).flatMap
      (fun replay => [EventWrite.enqueueReplay replay.1 replay.2]) =
        ((replays time s).take n).map fun replay => .enqueueReplay replay.1 replay.2 := by
    rw [← List.map_eq_flatMap]
  rw [hwrites] at hloop
  exact hloop

theorem WebhookEvent.reclaim_reclaim (time : ℤ) (e : WebhookEvent) :
    (e.reclaim time).reclaim time = e.reclaim time := by
  unfold reclaim
  by_cases horphaned : e.orphaned time
  · rw [if_pos horphaned, if_neg]
    simp [orphaned]
  · rw [if_neg horphaned, if_neg horphaned]

theorem WebhookEvent.reclaim_of_not_orphaned (h : e.orphaned time = false) :
    e.reclaim time = e := by
  unfold reclaim
  rw [if_neg (Bool.eq_false_iff.1 h)]

theorem webhookEvents_reclaimed (time : ℤ) (s : EventDb) : (reclaimed time s).webhookEvents =
    ((staleEntries time s).map Prod.fst).foldl
      (fun t k => t.modify k (WebhookEvent.reclaim time)) s.webhookEvents := by
  unfold reclaimed
  generalize staleEntries time s = entries
  induction entries generalizing s with
  | nil => rfl
  | cons entry entries ih => exact ih _

theorem jobIds_reclaimed : (reclaimed time s).jobIds = s.jobIds := by
  refine applyAll_congr EventDb.jobIds (fun w hw s => ?_) s
  obtain ⟨e, -, rfl⟩ := List.mem_map.1 hw
  rfl

theorem webhookEvents_enqueued {jobs : List (String × WebhookJobData)} :
    (enqueued jobs s).webhookEvents = s.webhookEvents := by
  refine applyAll_congr EventDb.webhookEvents (fun w hw s => ?_) s
  obtain ⟨replay, -, rfl⟩ := List.mem_map.1 hw
  show (EventDb.write s _).webhookEvents = _
  rw [EventDb.write]
  split_ifs <;> rfl

theorem mem_jobIds_enqueued {jobs : List (String × WebhookJobData)} {id : String} :
    id ∈ (enqueued jobs s).jobIds ↔ id ∈ s.jobIds ++ jobs.map Prod.fst := by
  unfold enqueued
  induction jobs generalizing s with
  | nil => rw [List.map_nil, List.map_nil, List.append_nil, applyAll_nil]
  | cons job jobs ih =>
    have hstep : id ∈ (s.write (.enqueueReplay job.1 job.2)).jobIds ↔
        id ∈ s.jobIds ∨ id = job.1 := by
      rw [EventDb.write]
      split_ifs with hknown
      · refine ⟨.inl, fun h => h.elim (fun hmem => hmem) fun heq => ?_⟩
        exact heq ▸ hknown
      · simp [EventDb.jobIds]
    rw [List.map_cons, applyAll_cons, apply_eq, ih, List.mem_append, hstep, List.map_cons,
      List.mem_append, List.mem_cons, or_assoc]

theorem get_reaperStopped (hget : s.webhookEvents.get? key = some e) (h : e.status = .failed) :
    (reaperStopped time n s).webhookEvents.get? key = some e := by
  cases n with
  | zero => exact hget
  | succ n =>
    have hsame : e.reclaim time = e := by
      refine WebhookEvent.reclaim_of_not_orphaned ?_
      simp [WebhookEvent.orphaned, h]
    rw [reaperStopped_succ, webhookEvents_enqueued, webhookEvents_reclaimed,
      Table.get?_foldl_modify _ (WebhookEvent.reclaim_reclaim time), hget]
    split_ifs
    · exact congrArg some hsame
    · rfl

theorem not_laterSelected (hget : s.webhookEvents.get? key = some e) (h : e.status = .failed) :
    ¬LaterSelected s key := by
  rintro ⟨runs, time, e', hget', horphaned⟩
  have hsame : (runs.foldl (fun s run => reaperStopped run.1 run.2 s) s).webhookEvents.get? key =
      some e := by
    clear hget' horphaned
    induction runs generalizing s with
    | nil => exact hget
    | cons run runs ih => exact ih (get_reaperStopped hget h)
  rw [hsame] at hget'
  cases hget'
  simp [WebhookEvent.orphaned, h] at horphaned

theorem get_of_stale (h : (key, e) ∈ staleEntries time s) :
    s.webhookEvents.get? key = some e ∧ e.orphaned time := by
  obtain ⟨hentry, horphaned⟩ := List.mem_filter.1 h
  exact ⟨s.webhookEvents.mem_entries.1 hentry, horphaned⟩

theorem get_reclaimed (h : (key, e) ∈ staleEntries time s) :
    (reaperStopped time (n + 1) s).webhookEvents.get? key = some (e.reclaim time) ∧
      (e.reclaim time).status = .failed := by
  obtain ⟨hget, horphaned⟩ := get_of_stale h
  constructor
  · rw [reaperStopped_succ, webhookEvents_enqueued, webhookEvents_reclaimed,
      Table.get?_foldl_modify _ (WebhookEvent.reclaim_reclaim time),
      if_pos (List.mem_map_of_mem h), hget]
    rfl
  · unfold WebhookEvent.reclaim
    rw [if_pos horphaned]

/-- A stopped run loses no event just when it stops in time. -/
theorem losesNothing_iff : LosesNothing time n s ↔ StopsInTime time n s := by
  cases n with
  | zero =>
    refine ⟨fun _ => .inl rfl, fun _ key e replay hstale _ => .inr ?_⟩
    obtain ⟨hget, horphaned⟩ := get_of_stale hstale
    exact ⟨[], time, e, hget, horphaned⟩
  | succ n =>
    have hjobs (id : String) : id ∈ (reaperStopped time (n + 1) s).jobIds ↔
        id ∈ s.jobIds ++ ((replays time s).take n).map Prod.fst := by
      rw [reaperStopped_succ, mem_jobIds_enqueued, jobIds_reclaimed]
    constructor
    · intro h
      refine .inr fun replay hreplay => ?_
      obtain ⟨row, hrow, hreplayOf⟩ := List.mem_filterMap.1 (List.mem_of_mem_drop hreplay)
      obtain ⟨⟨key, e⟩, hstale, rfl⟩ := List.mem_map.1 hrow
      obtain hjob | hselected := h key e replay hstale hreplayOf
      · exact (hjobs replay.1).1 hjob
      · obtain ⟨hget, hfailed⟩ := get_reclaimed (n := n) hstale
        exact absurd hselected (not_laterSelected hget hfailed)
    · intro h key e replay hstale hreplayOf
      refine .inl ((hjobs replay.1).2 ?_)
      have hmem : replay ∈ replays time s :=
        List.mem_filterMap.2 ⟨_, List.mem_map_of_mem hstale, hreplayOf⟩
      rw [← List.take_append_drop n (replays time s)] at hmem
      obtain htake | hdrop := List.mem_append.1 hmem
      · exact List.mem_append_right _ (List.mem_map_of_mem htake)
      · exact (h.resolve_left (Nat.succ_ne_zero n)) replay hdrop

def stripeEvent (id : String) : WebhookEvent where
  id := id
  key := ⟨.stripe, id⟩
  projectId := "p"
  eventType := "invoice.paid"
  payload := .record [("id", .text id), ("type", .text "invoice.paid")]
  status := .processing
  claimedAt := some 0

def twoOrphans : EventDb where
  webhookEvents := (Table.empty.insert ⟨.stripe, "a"⟩ (stripeEvent "a")).insert ⟨.stripe, "b"⟩
    (stripeEvent "b")

/-- The second row is FAILED without a job. -/
theorem second_orphan_lost : ¬∀ s time n, LosesNothing time n s := by
  intro claim
  have htime := losesNothing_iff.1 (claim twoOrphans 600000 2)
  unfold StopsInTime at htime
  revert htime
  decide

end Rovenue.Webhooks
