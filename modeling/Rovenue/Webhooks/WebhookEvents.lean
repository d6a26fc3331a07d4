import Rovenue.Txn.Guarantee
import Rovenue.Txn.Table

/-! Inbound store events: the leased claim on a `webhook_events` row, the
handlers that work under it and the reaper that takes orphaned claims back. -/

namespace Rovenue.Webhooks
open Txn Prog

inductive WebhookSource where
  | apple | google | stripe | stripeBilling
  deriving DecidableEq

inductive WebhookEventStatus where
  | received | processing | processed | failed
  deriving DecidableEq

/-- `webhook_events_source_storeEventId_key`. An update by id picks the row by
this key: the two name the same row. -/
structure WebhookEventKey where
  source : WebhookSource
  storeEventId : String
  deriving DecidableEq

inductive JsonValue where
  | text (s : String)
  | record (fields : List (String × JsonValue))
  | other

def JsonValue.field : JsonValue → String → Option JsonValue
  | .record fields, name => (fields.find? fun f => f.1 = name).map Prod.snd
  | _, _ => none

def JsonValue.text? : JsonValue → Option String
  | .text s => some s
  | _ => none

structure WebhookEvent where
  id : String
  key : WebhookEventKey
  projectId : String
  eventType : String
  payload : JsonValue
  status : WebhookEventStatus := .received
  subscriberId : Option String := none
  purchaseId : Option String := none
  errorMessage : Option String := none
  processedAt : Option ℤ := none
  retryCount : ℕ := 0
  claimedAt : Option ℤ := none

structure ClaimWebhookEventInput where
  key : WebhookEventKey
  projectId : String
  eventType : String
  payload : JsonValue

structure UpdateWebhookEventInput where
  status : Option WebhookEventStatus := none
  processedAt : Option ℤ := none
  errorMessage : Option String := none
  subscriberId : Option String := none
  purchaseId : Option String := none
  incrementRetryCount : Bool := false
  deriving DecidableEq

def webhookClaimLeaseMs : ℤ := 5 * 60000

def reclaimErrorMessage : String := "reclaimed: orphaned PROCESSING past lease"

namespace WebhookEvent

def leaseExpired (e : WebhookEvent) (now : ℤ) : Bool :=
  -- a missing `claimedAt` compares as unknown, which is not past the lease
  match e.claimedAt with
  | none => false
  | some t => t < now - webhookClaimLeaseMs

def claimable (e : WebhookEvent) (now : ℤ) : Bool :=
  e.status ≠ .processed && (e.status ≠ .processing || e.leaseExpired now)

def orphaned (e : WebhookEvent) (now : ℤ) : Bool := e.status = .processing && e.leaseExpired now

def claim (now : ℤ) (e : WebhookEvent) : WebhookEvent :=
  if e.claimable now then { e with status := .processing, claimedAt := some now } else e

def reclaim (now : ℤ) (e : WebhookEvent) : WebhookEvent :=
  if e.orphaned now then
    { e with
      status := .failed
      errorMessage := some reclaimErrorMessage
      retryCount := e.retryCount + 1 }
  else e

end WebhookEvent

def ClaimWebhookEventInput.row (input : ClaimWebhookEventInput) (id : String) (now : ℤ) :
    WebhookEvent where
  id := id
  key := input.key
  projectId := input.projectId
  eventType := input.eventType
  payload := input.payload
  status := .processing
  claimedAt := some now

def UpdateWebhookEventInput.apply (patch : UpdateWebhookEventInput) (e : WebhookEvent) :
    WebhookEvent :=
  { e with
    status := patch.status.getD e.status
    processedAt := patch.processedAt.or e.processedAt
    errorMessage := patch.errorMessage.or e.errorMessage
    subscriberId := patch.subscriberId.or e.subscriberId
    purchaseId := patch.purchaseId.or e.purchaseId
    retryCount := if patch.incrementRetryCount then e.retryCount + 1 else e.retryCount }

inductive WebhookJobData where
  | apple (projectId signedPayload : String)
  | google (projectId : String) (pushBody : JsonValue)
  | stripe (projectId : String) (event : JsonValue)

structure EventDb where
  webhookEvents : Table WebhookEventKey WebhookEvent := .empty
  replayQueue : List (String × WebhookJobData) := []

inductive EventWrite where
  | claim (input : ClaimWebhookEventInput) (id : String) (now : ℤ)
  | update (key : WebhookEventKey) (patch : UpdateWebhookEventInput)
  | reclaim (key : WebhookEventKey) (now : ℤ)
  | enqueueReplay (jobId : String) (job : WebhookJobData)

def EventDb.write (s : EventDb) : EventWrite → EventDb
  | .claim input id now =>
    match s.webhookEvents.get? input.key with
    | none => { s with webhookEvents := s.webhookEvents.insert input.key (input.row id now) }
    | some _ => { s with webhookEvents := s.webhookEvents.modify input.key (.claim now) }
  | .update key patch => { s with webhookEvents := s.webhookEvents.modify key patch.apply }
  | .reclaim key now => { s with webhookEvents := s.webhookEvents.modify key (.reclaim now) }
  | .enqueueReplay jobId job =>
    -- the queue ignores a job whose id it knows
    if jobId ∈ s.replayQueue.map Prod.fst then s
    else { s with replayQueue := s.replayQueue ++ [(jobId, job)] }

instance : Database EventDb EventWrite := ⟨EventDb.write⟩

@[simp] theorem apply_eq (s : EventDb) (w : EventWrite) : Database.apply s w = s.write w := rfl

abbrev EventService := Prog EventDb WebhookEventKey EventWrite String

inductive ClaimResult where
  | claimed (row : WebhookEvent)
  | duplicate
  | inProgress

def claimedRow (input : ClaimWebhookEventInput) (id : String) (now : ℤ) (s : EventDb) :
    Option WebhookEvent :=
  -- the row the upsert returns: none when its `setWhere` is false
  match s.webhookEvents.get? input.key with
  | none => some (input.row id now)
  | some e => if e.claimable now then some (e.claim now) else none

def findWebhookEventByStoreId (key : WebhookEventKey) (s : EventDb) : Option WebhookEvent :=
  s.webhookEvents.get? key

def claimWebhookEvent (input : ClaimWebhookEventInput) : EventService ClaimResult := do
  let time ← now
  let id ← fresh
  let claimed ← autocommit (exec (fun _ => [input.key]) (fun _ => [.claim input id time])
    (claimedRow input id time))
  match claimed with
  | some row => pure (.claimed row)
  | none =>
    -- the `setWhere` was false: done already, or somebody is on it
    let existing ← query (findWebhookEventByStoreId input.key)
    if existing.map WebhookEvent.status = some .processed then pure .duplicate
    else pure .inProgress

def updateWebhookEvent (row : WebhookEvent) (patch : UpdateWebhookEventInput) :
    EventService Unit :=
  if patch = {} then pure ()
  else exec (fun _ => [row.key]) (fun _ => [.update row.key patch]) fun _ => ()

def staleEntries (now : ℤ) (s : EventDb) : List (WebhookEventKey × WebhookEvent) :=
  s.webhookEvents.entries.filter fun e => e.2.orphaned now

def reclaimStaleWebhookEvents (time : ℤ) : EventService (List WebhookEvent) :=
  autocommit (exec (fun s => (staleEntries time s).map Prod.fst)
    (fun s => (staleEntries time s).map fun e => .reclaim e.1 time)
    fun s => (staleEntries time s).map fun e => e.2.reclaim time)

structure WebhookOutcome where
  subscriberId : Option String := none
  purchaseId : Option String := none

/-- What a handler's dispatch and side effects come to, and the error that stands
in for the reply to its PROCESSED mark when that reply is lost. -/
structure HandlerRun where
  work : Except String WebhookOutcome
  lostReply : Option String := none

def markProcessed (row : WebhookEvent) (outcome : WebhookOutcome) : EventService Unit := do
  let time ← now
  updateWebhookEvent row
    { status := some .processed
      processedAt := some time
      subscriberId := outcome.subscriberId
      purchaseId := outcome.purchaseId }

def markFailed (row : WebhookEvent) (message : String) : EventService Unit :=
  updateWebhookEvent row
    { status := some .failed, errorMessage := some message, incrementRetryCount := true }

def underClaim (input : ClaimWebhookEventInput) (body : WebhookEvent → EventService Unit) :
    EventService Unit := do
  let claim ← claimWebhookEvent input
  match claim with
  | .duplicate => pure ()
  | .inProgress => throw s!"webhook {input.key.storeEventId} claim in progress; retry"
  | .claimed row => body row

def processClaimed (run : HandlerRun) (row : WebhookEvent) : EventService Unit :=
  -- the `try` of the store handlers; the PROCESSED mark is inside it
  match run.work with
  | .error message => do
    autocommit (markFailed row message)
    throw message
  | .ok outcome => do
    autocommit (markProcessed row outcome)
    match run.lostReply with
    | none => pure ()
    | some message => do
      autocommit (markFailed row message)
      throw message

def handleAppleNotification (projectId notificationType notificationUUID signedPayload : String)
    (notification : JsonValue) (run : HandlerRun) : EventService Unit :=
  underClaim
    { key := ⟨.apple, notificationUUID⟩
      projectId := projectId
      eventType := notificationType
      payload := .record [("signedPayload", .text signedPayload), ("notification", notification)] }
    (processClaimed run)

structure GooglePubSubPushBody where
  messageId : String
  data : String
  subscription : String

def GooglePubSubPushBody.json (body : GooglePubSubPushBody) : JsonValue :=
  .record [("message", .record [("messageId", .text body.messageId), ("data", .text body.data)]),
    ("subscription", .text body.subscription)]

def handleGoogleNotification (projectId kind : String) (pushBody : GooglePubSubPushBody)
    (notification : JsonValue) (isTest hasVerifyConfig : Bool) (run : HandlerRun) :
    EventService Unit :=
  if isTest then pure ()
  else underClaim
    { key := ⟨.google, pushBody.messageId⟩
      projectId := projectId
      eventType := kind
      payload := .record [("pushBody", pushBody.json), ("notification", notification)] }
    fun row => if hasVerifyConfig then processClaimed run row else autocommit (markProcessed row {})

def processStripeEvent (projectId eventId eventType : String) (event : JsonValue)
    (run : HandlerRun) : EventService Unit :=
  underClaim
    { key := ⟨.stripe, eventId⟩, projectId := projectId, eventType := eventType, payload := event }
    (processClaimed run)

/-- A billing handler throws, finishes inside its transaction, or leaves a
follow-up call to make after it. -/
inductive BillingRun where
  | throws (message : String)
  | finished
  | followUp (result : Except String Unit)

def dispatchStripeBillingEvent (projectId eventId eventType : String) (event : JsonValue)
    (run : BillingRun) : EventService Unit :=
  underClaim
    { key := ⟨.stripeBilling, eventId⟩
      projectId := projectId
      eventType := eventType
      payload := event }
    fun row =>
      match run with
      | .throws message => throw message
      | .finished => transaction fun _ => markProcessed row {}
      | .followUp (.ok ()) => autocommit (markProcessed row {})
      | .followUp (.error message) => do
        autocommit (markFailed row s!"follow-up failed: {message}")
        throw message

def maxReaperRequeues : ℕ := 5

def buildReplayJobData (row : WebhookEvent) : Option WebhookJobData :=
  match row.key.source with
  | .apple => do
    let signedPayload ← (← row.payload.field "signedPayload").text?
    return .apple row.projectId signedPayload
  | .google => do
    let pushBody ← row.payload.field "pushBody"
    let _ ← (← (← pushBody.field "message").field "messageId").text?
    return .google row.projectId pushBody
  | .stripe => do
    let _ ← (← row.payload.field "id").text?
    let _ ← (← row.payload.field "type").text?
    return .stripe row.projectId row.payload
  | .stripeBilling => none

def replayOf (row : WebhookEvent) : Option (String × WebhookJobData) :=
  if row.retryCount > maxReaperRequeues then none
  else (buildReplayJobData row).map fun job => (s!"webhook-replay:{row.id}:{row.retryCount}", job)

def enqueueReplay (replay : String × WebhookJobData) : EventService Unit :=
  autocommit (exec (fun _ => []) (fun _ => [.enqueueReplay replay.1 replay.2]) fun _ => ())

structure WebhookReaperResult where
  reclaimed : ℕ
  requeued : ℕ

def runWebhookReaper : EventService WebhookReaperResult := do
  let time ← now
  let rows ← reclaimStaleWebhookEvents time
  forEach (rows.filterMap replayOf) enqueueReplay
  pure ⟨rows.length, (rows.filterMap replayOf).length⟩

end Rovenue.Webhooks
