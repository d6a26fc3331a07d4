import Rovenue.Txn.OrderLimit

/-! The outbox relay: claim the oldest unpublished rows, hold back those whose
topic is backing off, publish the rest topic by topic and mark what went out. -/

namespace Rovenue.Outbox
open Txn

inductive AggregateType where
  | exposure | revenueEvent | creditLedger | billing | notification | funnel | paywallEvent
  | subscription | mcpAccess
  deriving DecidableEq

def aggregateToTopic : AggregateType → String
  | .exposure => "rovenue.exposures"
  | .revenueEvent => "rovenue.revenue"
  | .creditLedger => "rovenue.credit"
  | .billing => "rovenue.billing"
  | .notification => "rovenue.notifications"
  | .funnel => "rovenue.funnel"
  | .paywallEvent => "rovenue.paywall_events"
  | .subscription => "rovenue.subscription"
  | .mcpAccess => "rovenue.mcp_access"

structure OutboxEvent where
  id : String
  aggregateType : AggregateType
  aggregateId : String
  eventType : String
  createdAt : ℤ
  publishedAt : Option ℤ := none
  deriving DecidableEq

def OutboxEvent.topic (r : OutboxEvent) : String := aggregateToTopic r.aggregateType

def batchSize : ℕ := 250
def backoffBaseMs : ℤ := 500
def backoffMaxMs : ℤ := 30000

structure BackoffState where
  consecutiveFailures : ℕ
  nextAttemptAt : ℤ

structure Dispatcher where
  outboxEvents : Table String OutboxEvent := .empty
  topicBackoff : String → Option BackoffState := fun _ => none

def onTopicFailure (backoff : String → Option BackoffState) (topic : String) (now : ℤ) :
    String → Option BackoffState :=
  let prev := (backoff topic).getD ⟨0, 0⟩
  let failures := prev.consecutiveFailures + 1
  let delay := min backoffMaxMs (backoffBaseMs * 2 ^ failures)
  Function.update backoff topic (some ⟨failures, now + delay⟩)

def onTopicSuccess (backoff : String → Option BackoffState) (topic : String) :
    String → Option BackoffState := Function.update backoff topic none

def isTopicBackingOff (backoff : String → Option BackoffState) (topic : String) (now : ℤ) :
    Bool :=
  match backoff topic with
  | none => false
  | some s => s.nextAttemptAt > now

def unpublished (s : Dispatcher) : List OutboxEvent :=
  (s.outboxEvents.entries.map Prod.snd).filter fun r => r.publishedAt = none

def ClaimBatch (limit : ℕ) (s : Dispatcher) (batch : List OutboxEvent) : Prop :=
  OrderLimit OutboxEvent.createdAt limit (unpublished s) batch

def OutboxEvent.markPublished (now : ℤ) (r : OutboxEvent) : OutboxEvent :=
  { r with publishedAt := r.publishedAt.or (some now) }

def markPublished (ids : List String) (now : ℤ) (table : Table String OutboxEvent) :
    Table String OutboxEvent :=
  ids.foldl (fun table id => table.modify id (.markPublished now)) table

/-- What a tick meets: `checkedAt n` is the clock as the `n`-th row of the batch
is checked, `send` what the producer answers to a topic's rows. -/
structure Tick where
  checkedAt : ℕ → ℤ
  send : String → List OutboxEvent → Except String Unit
  failedAt : String → ℤ
  publishedAt : ℤ

def eligibleRows (backoff : String → Option BackoffState) :
    (ℕ → ℤ) → List OutboxEvent → List OutboxEvent
  | _, [] => []
  | checkedAt, r :: rs =>
    let rest := eligibleRows backoff (fun n => checkedAt (n + 1)) rs
    if isTopicBackingOff backoff r.topic (checkedAt 0) then rest else r :: rest

def addToTopic (r : OutboxEvent) : List (String × List OutboxEvent) →
    List (String × List OutboxEvent)
  | [] => [(r.topic, [r])]
  | (topic, rows) :: groups =>
    if topic = r.topic then (topic, rows ++ [r]) :: groups
    else (topic, rows) :: addToTopic r groups

def groupByTopic (rows : List OutboxEvent) : List (String × List OutboxEvent) :=
  rows.foldl (fun groups r => addToTopic r groups) []

structure TickResult where
  -- whether the loop polls again without sleeping
  flushed : Bool
  -- the sends issued, each a topic and its rows
  sent : List (String × List OutboxEvent)
  after : Dispatcher

def TickResult.sentRows (r : TickResult) : List OutboxEvent := r.sent.flatMap Prod.snd

def runOnce (s : Dispatcher) (batch : List OutboxEvent) (tick : Tick) : TickResult :=
  if batch = [] then ⟨false, [], s⟩
  else
    let eligible := eligibleRows s.topicBackoff tick.checkedAt batch
    if eligible = [] then ⟨false, [], s⟩
    else
      let byTopic := groupByTopic eligible
      let fulfilled := byTopic.filter fun g => (tick.send g.1 g.2).isOk
      let succeeded := fulfilled.flatMap Prod.snd
      let succeededIds := succeeded.map OutboxEvent.id
      let afterSuccess := (fulfilled.map Prod.fst).foldl onTopicSuccess s.topicBackoff
      let failed := byTopic.filter fun g => !g.2.all fun r => r.id ∈ succeededIds
      let backoff := (failed.map Prod.fst).foldl
        (fun backoff topic => onTopicFailure backoff topic (tick.failedAt topic)) afterSuccess
      if succeeded = [] then ⟨false, byTopic, { s with topicBackoff := backoff }⟩
      else ⟨true, byTopic,
        ⟨markPublished succeededIds tick.publishedAt s.outboxEvents, backoff⟩⟩

def RunsOnce (s : Dispatcher) (now : ℤ) (r : TickResult) : Prop :=
  -- a tick that starts at `now`: time only passes from there
  ∃ batch tick, ClaimBatch batchSize s batch ∧ (∀ n, now ≤ tick.checkedAt n) ∧
    (∀ n, tick.checkedAt n ≤ tick.checkedAt (n + 1)) ∧ r = runOnce s batch tick

end Rovenue.Outbox

/-! Whether a failing topic holds the others up. The claim takes the oldest rows
of all topics, and the backoff filter comes after it. -/

namespace Rovenue.Outbox
open Txn

def OutboxEvent.deferred (s : Dispatcher) (now : ℤ) (r : OutboxEvent) : Bool :=
  isTopicBackingOff s.topicBackoff r.topic now

/-- With a row waiting on a topic that is not backing off, a tick sends such a row. -/
def TopicIsolated (s : Dispatcher) (now : ℤ) : Prop :=
  (∃ r ∈ unpublished s, r.deferred s now = false) → ∀ result, RunsOnce s now result →
    ∃ r ∈ result.sentRows, r.deferred s now = false

section Filter
variable {backoff : String → Option BackoffState} {checkedAt : ℕ → ℤ} {now : ℤ}
  {rows : List OutboxEvent}

theorem isTopicBackingOff_thaws {topic : String} {later : ℤ} (hle : now ≤ later)
    (h : isTopicBackingOff backoff topic now = false) :
    isTopicBackingOff backoff topic later = false := by
  rw [isTopicBackingOff] at h ⊢
  cases hs : backoff topic with
  | none => rfl
  | some s =>
    rw [hs] at h
    simp only [gt_iff_lt, decide_eq_false_iff_not, not_lt] at h ⊢
    exact h.trans hle

theorem mem_eligibleRows (hclock : ∀ n, now ≤ checkedAt n) {r : OutboxEvent} (hr : r ∈ rows)
    (h : isTopicBackingOff backoff r.topic now = false) :
    r ∈ eligibleRows backoff checkedAt rows := by
  induction rows generalizing checkedAt with
  | nil => simp at hr
  | cons a rows ih =>
    rw [eligibleRows]
    rcases List.mem_cons.1 hr with rfl | hr
    · simp [isTopicBackingOff_thaws (hclock 0) h]
    · have hrest := @ih (fun n => checkedAt (n + 1)) (fun n => hclock (n + 1)) hr
      split_ifs
      · exact hrest
      · exact List.mem_cons_of_mem _ hrest

theorem eligibleRows_eq_nil (h : ∀ r ∈ rows, isTopicBackingOff backoff r.topic now = true) :
    eligibleRows backoff (fun _ => now) rows = [] := by
  induction rows with
  | nil => rfl
  | cons a rows ih =>
    rw [eligibleRows, if_pos (h a (by simp))]
    exact ih fun r hr => h r (by simp [hr])

end Filter

theorem addToTopic_perm (r : OutboxEvent) (groups : List (String × List OutboxEvent)) :
    ((addToTopic r groups).flatMap Prod.snd).Perm (groups.flatMap Prod.snd ++ [r]) := by
  induction groups with
  | nil => simp [addToTopic]
  | cons g groups ih =>
    obtain ⟨topic, rows⟩ := g
    rw [addToTopic]
    split_ifs
    · have hswap : ([r] ++ groups.flatMap Prod.snd).Perm (groups.flatMap Prod.snd ++ [r]) :=
        List.perm_append_comm
      simpa using hswap.append_left rows
    · simpa using ih.append_left rows

theorem groupByTopic_perm (rows : List OutboxEvent) :
    ((groupByTopic rows).flatMap Prod.snd).Perm rows := by
  have key : ∀ groups, ((rows.foldl (fun groups r => addToTopic r groups) groups).flatMap
      Prod.snd).Perm (groups.flatMap Prod.snd ++ rows) := by
    induction rows with
    | nil => simp
    | cons r rows ih =>
      intro groups
      rw [List.foldl_cons]
      refine (ih _).trans ?_
      have hstep := (addToTopic_perm r groups).append_right rows
      simpa using hstep
  simpa [groupByTopic] using key []

theorem sentRows_perm (s : Dispatcher) (batch : List OutboxEvent) (tick : Tick) :
    (runOnce s batch tick).sentRows.Perm (eligibleRows s.topicBackoff tick.checkedAt batch) := by
  have hgroups := groupByTopic_perm (eligibleRows s.topicBackoff tick.checkedAt batch)
  simp only [runOnce]
  split_ifs with hbatch heligible
  · rw [hbatch]
    rfl
  · rw [heligible]
    rfl
  · exact hgroups
  · exact hgroups

/-- A failing topic's rows, up to the age of `r`, leave room for `r` in the batch. -/
def HasRoom (s : Dispatcher) (now : ℤ) (r : OutboxEvent) : Prop :=
  (OrderLimit.ahead OutboxEvent.createdAt (OutboxEvent.deferred s now) (unpublished s) r).length <
    batchSize

theorem sends_of_hasRoom {s : Dispatcher} {now : ℤ} {r : OutboxEvent} (hr : r ∈ unpublished s)
    (hnot : r.deferred s now = false) (hroom : HasRoom s now r) {result : TickResult}
    (hrun : RunsOnce s now result) : ∃ r ∈ result.sentRows, r.deferred s now = false := by
  obtain ⟨batch, tick, hclaim, hclock, -, rfl⟩ := hrun
  obtain ⟨a, ha, hready⟩ := hclaim.exists_not_delayed (OutboxEvent.deferred s now) hr hnot hroom
  have heligible : a ∈ eligibleRows s.topicBackoff tick.checkedAt batch :=
    mem_eligibleRows hclock ha hready
  exact ⟨a, (sentRows_perm s batch tick).mem_iff.2 heligible, hready⟩

theorem sentRows_eq_nil {s : Dispatcher} {now : ℤ} {batch : List OutboxEvent} {tick : Tick}
    (hclock : tick.checkedAt = fun _ => now) (h : ∀ r ∈ batch, r.deferred s now = true) :
    (runOnce s batch tick).sentRows = [] := by
  have hnone : eligibleRows s.topicBackoff tick.checkedAt batch = [] := by
    rw [hclock]
    exact eligibleRows_eq_nil h
  have hperm := sentRows_perm s batch tick
  rw [hnone] at hperm
  exact hperm.eq_nil

/-- A tick isolates the topics exactly when some row of a topic that is not
backing off has fewer than a batch of deferred rows as old as itself or older. -/
theorem topic_isolated_iff (s : Dispatcher) (now : ℤ) :
    TopicIsolated s now ↔ ((∃ r ∈ unpublished s, r.deferred s now = false) →
      ∃ r ∈ unpublished s, r.deferred s now = false ∧ HasRoom s now r) := by
  constructor
  · intro hisolated hready
    by_contra hnone
    push Not at hnone
    have hmany : ∀ r ∈ unpublished s, r.deferred s now = false → batchSize ≤
        (OrderLimit.ahead OutboxEvent.createdAt (OutboxEvent.deferred s now)
          (unpublished s) r).length := fun r hr hnot => not_lt.1 (hnone r hr hnot)
    obtain ⟨batch, hclaim, hall⟩ := OrderLimit.exists_all_delayed _ hmany
    let tick : Tick := ⟨fun _ => now, fun _ _ => .ok (), fun _ => now, now⟩
    have hrun : RunsOnce s now (runOnce s batch tick) :=
      ⟨batch, tick, hclaim, fun _ => le_rfl, fun _ => le_rfl, rfl⟩
    obtain ⟨r, hr, -⟩ := hisolated hready _ hrun
    rw [sentRows_eq_nil rfl hall] at hr
    simp at hr
  · intro hroom hready result hrun
    obtain ⟨r, hr, hnot, hr'⟩ := hroom hready
    exact sends_of_hasRoom hr hnot hr' hrun

def revenueRow (n : ℕ) : OutboxEvent where
  id := String.ofList (List.replicate n 'r')
  aggregateType := .revenueEvent
  aggregateId := "p1"
  eventType := "RENEWAL"
  createdAt := 0

def creditRow : OutboxEvent where
  id := "credit"
  aggregateType := .creditLedger
  aggregateId := "p1"
  eventType := "SPEND"
  createdAt := 1

theorem revenueRow_id_injective {m n : ℕ} (h : (revenueRow m).id = (revenueRow n).id) : m = n := by
  have hlist : List.replicate m 'r' = List.replicate n 'r' := String.ofList_injective h
  simpa using congrArg List.length hlist

def stuckRows : List OutboxEvent := (List.range batchSize).map revenueRow ++ [creditRow]

theorem stuckRows_nodup : ((stuckRows.map fun r => (r.id, r)).map Prod.fst).Nodup := by
  rw [List.map_map, stuckRows, List.map_append, List.map_map, List.nodup_append]
  refine ⟨List.nodup_range.map fun m n h => revenueRow_id_injective h, by simp, ?_⟩
  intro a ha b hb hab
  obtain ⟨n, -, rfl⟩ := List.mem_map.1 ha
  obtain rfl : b = "credit" := by simpa [creditRow] using hb
  have hlist : List.replicate n 'r' = "credit".toList := by
    rw [← hab]
    exact String.toList_ofList.symm
  have hc : 'c' ∈ List.replicate n 'r' := by
    rw [hlist]
    decide
  exact absurd (List.eq_of_mem_replicate hc) (by decide)

def stuckDispatcher : Dispatcher where
  outboxEvents := ⟨stuckRows.map fun r => (r.id, r), stuckRows_nodup⟩
  topicBackoff := Function.update (fun _ => none) "rovenue.revenue" (some ⟨1, 1000⟩)

theorem unpublished_stuck : unpublished stuckDispatcher = stuckRows := by
  have hrows : stuckDispatcher.outboxEvents.entries.map Prod.snd = stuckRows := by
    simp only [stuckDispatcher, List.map_map]
    exact List.map_id _
  rw [unpublished, hrows]
  refine List.filter_eq_self.2 fun r hr => ?_
  rcases List.mem_append.1 hr with hr | hr
  · obtain ⟨n, -, rfl⟩ := List.mem_map.1 hr
    rfl
  · obtain rfl : r = creditRow := by simpa using hr
    rfl

theorem full_batch_starves : ¬∀ (s : Dispatcher) (now : ℤ), TopicIsolated s now := by
  intro claim
  let batch := (List.range batchSize).map revenueRow
  have hclaim : ClaimBatch batchSize stuckDispatcher batch := by
    refine ⟨stuckRows, by rw [unpublished_stuck], ?_, ?_⟩
    · rw [stuckRows, List.pairwise_append]
      refine ⟨List.pairwise_map.2 (List.pairwise_of_forall fun _ _ => le_rfl), by simp, ?_⟩
      intro a ha b hb
      obtain ⟨n, -, rfl⟩ := List.mem_map.1 ha
      obtain rfl : b = creditRow := by simpa using hb
      exact zero_le_one
    · have hlength : batch.length = batchSize := by simp [batch]
      rw [stuckRows, List.take_append_of_le_length hlength.ge, ← hlength, List.take_length]
  let tick : Tick := ⟨fun _ => 0, fun _ _ => .ok (), fun _ => 0, 0⟩
  have hrun : RunsOnce stuckDispatcher 0 (runOnce stuckDispatcher batch tick) :=
    ⟨batch, tick, hclaim, fun _ => le_rfl, fun _ => le_rfl, rfl⟩
  have hcredit : creditRow ∈ unpublished stuckDispatcher := by
    rw [unpublished_stuck, stuckRows]
    simp
  obtain ⟨r, hr, -⟩ := claim stuckDispatcher 0 ⟨creditRow, hcredit, by decide⟩ _ hrun
  have hdeferred : ∀ r ∈ batch, r.deferred stuckDispatcher 0 = true := by
    intro r hr
    obtain ⟨n, -, rfl⟩ := List.mem_map.1 hr
    rfl
  rw [sentRows_eq_nil rfl hdeferred] at hr
  simp at hr

end Rovenue.Outbox
