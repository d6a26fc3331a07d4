import Rovenue.Webhooks.OutgoingWebhooks
import Rovenue.Threads.System

/-! The delivery loops of the replicas: take back stale deliveries, claim a batch
of due rows under one lease, and attempt them one after another. -/

namespace Rovenue.Webhooks
open Txn

def maxAttempts : ℕ := 5
def backoffScheduleMs : List ℤ := [60000, 300000, 1800000, 7200000, 43200000]
def deliveryBatchSize : ℕ := 50
def deliveryTimeoutMs : ℤ := 10000
def claimLeaseMs : ℤ := 5 * 60000

abbrev OutgoingRows := Table String OutgoingWebhook

structure UpdateOutgoingWebhookInput where
  status : OutgoingWebhookStatus
  httpStatus : Option ℕ
  responseBody : Option String
  lastErrorMessage : Option (Option String) := none
  attempts : ℕ
  sentAt : Option ℤ := none
  deadAt : Option ℤ := none
  -- `none` leaves the column as it is, `some none` clears it
  nextRetryAt : Option (Option ℤ) := none

def UpdateOutgoingWebhookInput.apply (patch : UpdateOutgoingWebhookInput) (r : OutgoingWebhook) :
    OutgoingWebhook :=
  { r with
    status := patch.status
    httpStatus := patch.httpStatus
    responseBody := patch.responseBody
    lastErrorMessage := patch.lastErrorMessage.getD r.lastErrorMessage
    attempts := patch.attempts
    sentAt := patch.sentAt.or r.sentAt
    deadAt := patch.deadAt.or r.deadAt
    nextRetryAt := patch.nextRetryAt.getD r.nextRetryAt }

def updateOutgoingWebhook (id : String) (patch : UpdateOutgoingWebhookInput)
    (rows : OutgoingRows) : OutgoingRows := rows.modify id patch.apply

def OutgoingWebhook.stale (now : ℤ) (r : OutgoingWebhook) : Bool :=
  -- the reclaim's `where`; a missing `claimedAt` is never past the lease
  r.status = .delivering && r.claimedAt.any (· < now - claimLeaseMs)

def reclaimStaleDeliveries (now : ℤ) (rows : OutgoingRows) : OutgoingRows :=
  rows.map fun r => if r.stale now then { r with status := .pending, claimedAt := none } else r

def OutgoingWebhook.due (now : ℤ) (r : OutgoingWebhook) : Bool :=
  -- the claim's `where`; a missing `nextRetryAt` never comes due
  r.status = .pending || (r.status = .failed && r.nextRetryAt.any (· ≤ now))

def dueRows (now : ℤ) (rows : OutgoingRows) : List (String × OutgoingWebhook) :=
  rows.entries.filter fun e => e.2.due now

structure PendingWebhookRow where
  id : String
  url : String
  payload : OutgoingPayload
  attempts : ℕ

/-- One answer to the claim: the first rows of an order by `createdAt`, returned in any order. -/
structure ClaimAnswer where
  order : List (String × OutgoingWebhook)
  returned : List (String × OutgoingWebhook)

def ClaimAnswer.Answers (a : ClaimAnswer) (now : ℤ) (rows : OutgoingRows) : Prop :=
  a.order.Perm (dueRows now rows) ∧
    a.order.Pairwise (fun e f => e.2.createdAt ≤ f.2.createdAt) ∧
      a.returned.Perm (a.order.take deliveryBatchSize)

instance (a : ClaimAnswer) (now : ℤ) (rows : OutgoingRows) : Decidable (a.Answers now rows) :=
  inferInstanceAs (Decidable (_ ∧ _ ∧ _))

def ClaimAnswer.pending (a : ClaimAnswer) : List PendingWebhookRow :=
  a.returned.map fun e => ⟨e.1, e.2.url, e.2.payload, e.2.attempts⟩

def claimPendingWebhooks (now : ℤ) (a : ClaimAnswer) (rows : OutgoingRows) : OutgoingRows :=
  (a.returned.map Prod.fst).foldl (fun rows id =>
    rows.modify id fun r => { r with status := .delivering, claimedAt := some now }) rows

inductive FetchResult where
  | response (status : ℕ) (body : Option String)
  | error (message : String)

def attemptDelivery (wh : PendingWebhookRow) (now : ℤ) (result : FetchResult) :
    UpdateOutgoingWebhookInput :=
  -- The row an attempt begun at `now` leaves. Death comes only after the last entry of the backoff
  -- schedule has been used.
  let newAttempts := wh.attempts + 1
  let (httpStatus, responseBody, errorMessage) : Option ℕ × Option String × String :=
    match result with
    | .response status body => (some status, body, body.getD s!"HTTP {status}")
    | .error message => (none, none, message)
  if httpStatus.any fun status => 200 ≤ status ∧ status ≤ 299 then
    { status := .sent
      httpStatus := httpStatus
      responseBody := responseBody
      attempts := newAttempts
      sentAt := some now
      nextRetryAt := some none }
  else if newAttempts > maxAttempts then
    { status := .dead
      httpStatus := httpStatus
      responseBody := responseBody
      lastErrorMessage := some (some errorMessage)
      attempts := newAttempts
      deadAt := some now
      nextRetryAt := some none }
  else
    { status := .failed
      httpStatus := httpStatus
      responseBody := responseBody
      lastErrorMessage := some (some errorMessage)
      attempts := newAttempts
      nextRetryAt := some (some (now + backoffScheduleMs.getD (newAttempts - 1) 43200000)) }

structure DeliveryState where
  now : ℤ
  rows : OutgoingRows

/-- Where a replica's loop stands: between ticks, between its two statements, or
in an HTTP attempt begun at `startedAt` with the rest of the batch to come. -/
inductive Replica where
  | idle
  | reclaimed (now : ℤ)
  | delivering (wh : PendingWebhookRow) (startedAt : ℤ) (rest : List PendingWebhookRow)

inductive DeliveryEvent where
  | tick
  | claim (a : ClaimAnswer)
  | finish (result : FetchResult)

def Replica.attemptNext (now : ℤ) : List PendingWebhookRow → Replica
  | [] => .idle
  | wh :: rest => .delivering wh now rest

def deliverWebhooks (s : DeliveryState) : Replica → DeliveryEvent → DeliveryState × Replica
  | .idle, .tick => ({ s with rows := reclaimStaleDeliveries s.now s.rows }, .reclaimed s.now)
  | .reclaimed now, .claim a =>
    if a.Answers now s.rows then
      ({ s with rows := claimPendingWebhooks now a s.rows }, .attemptNext s.now a.pending)
    else (s, .reclaimed now)
  | .delivering wh startedAt rest, .finish result =>
    ({ s with rows := updateOutgoingWebhook wh.id (attemptDelivery wh startedAt result) s.rows },
      .attemptNext s.now rest)
  | t, _ => (s, t)

def deliverySystem : Threads.System DeliveryState Replica DeliveryEvent ℕ where
  step := deliverWebhooks
  env s n := { s with now := s.now + n }
  reset t _ := t

end Rovenue.Webhooks
