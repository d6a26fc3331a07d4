import Rovenue.Txn.Guarantee
import Rovenue.Txn.Table

/-! Store events on their way out: the row for the project's own webhook (v1) and
the outbox row for the integrations, written in one transaction. -/

namespace Rovenue.Webhooks
open Txn Prog

def rovenueEventKeys : List String :=
  ["revenue.INITIAL", "revenue.TRIAL_CONVERSION", "revenue.RENEWAL", "revenue.CREDIT_PURCHASE",
    "revenue.NON_RENEWING_PURCHASE", "revenue.REACTIVATION", "revenue.REFUND",
    "revenue.CANCELLATION", "subscription.trial.started", "subscriber.identified",
    "subscription.cancel_requested", "subscription.expired", "subscription.billing_issue",
    "subscription.grace_period", "subscription.uncancelled", "subscription.product_changed",
    "subscription.paused", "subscription.recovered", "subscription.revoked",
    "subscription.offer_redeemed", "paywall.view", "paywall.close", "credit.ledger.appended"]

def isRovenueEventKey (s : String) : Bool := s ∈ rovenueEventKeys

def storeEventToPublicKey : List (String × String) :=
  [("DID_FAIL_TO_RENEW", "subscription.billing_issue"),
    ("GRACE_PERIOD_EXPIRED", "subscription.billing_issue"),
    ("DID_CHANGE_RENEWAL_PREF", "subscription.product_changed"),
    ("SUBSCRIPTION_ON_HOLD", "subscription.billing_issue"),
    ("SUBSCRIPTION_IN_GRACE_PERIOD", "subscription.grace_period"),
    ("SUBSCRIPTION_RESTARTED", "subscription.uncancelled"),
    ("SUBSCRIPTION_PRICE_CHANGE_CONFIRMED", "subscription.product_changed"),
    ("SUBSCRIPTION_DEFERRED", "subscription.product_changed"),
    ("SUBSCRIPTION_PAUSED", "subscription.paused"),
    ("SUBSCRIPTION_RECOVERED", "subscription.recovered"),
    ("SUBSCRIPTION_REVOKED", "subscription.revoked"),
    ("REVOKE", "subscription.revoked"),
    ("OFFER_REDEEMED", "subscription.offer_redeemed"),
    ("invoice.payment_failed", "subscription.billing_issue")]

structure StoreEventContext where
  autoRenewEnabled : Option Bool := none
  appleGracePeriodSubtype : Option Bool := none
  applePrefChangeAlreadyApplied : Option Bool := none

def resolveStorePublicKey (eventType : String) (context : StoreEventContext) : Option String :=
  if eventType = "DID_CHANGE_RENEWAL_STATUS" then
    if context.autoRenewEnabled = some true then some "subscription.uncancelled" else none
  else if eventType = "DID_FAIL_TO_RENEW" ∧ context.appleGracePeriodSubtype = some true then
    some "subscription.grace_period"
  else if eventType = "DID_CHANGE_RENEWAL_PREF" ∧
      context.applePrefChangeAlreadyApplied = some true then none
  else storeEventToPublicKey.lookup eventType

inductive WebhookEventCategory where
  | purchase | renewal | cancellation | refund | billingIssue | expiration | productChange
  deriving DecidableEq

def eventTypeToCategory : List (String × WebhookEventCategory) :=
  [("SUBSCRIBED", .purchase), ("OFFER_REDEEMED", .purchase), ("DID_RENEW", .renewal),
    ("RENEWAL_EXTENDED", .renewal), ("DID_CHANGE_RENEWAL_STATUS", .cancellation),
    ("REFUND", .refund), ("REFUND_DECLINED", .refund), ("DID_FAIL_TO_RENEW", .billingIssue),
    ("GRACE_PERIOD_EXPIRED", .billingIssue), ("EXPIRED", .expiration), ("REVOKE", .expiration),
    ("DID_CHANGE_RENEWAL_PREF", .productChange), ("PRICE_INCREASE", .productChange),
    ("SUBSCRIPTION_PURCHASED", .purchase), ("SUBSCRIPTION_RESTARTED", .purchase),
    ("SUBSCRIPTION_RENEWED", .renewal), ("SUBSCRIPTION_RECOVERED", .renewal),
    ("SUBSCRIPTION_CANCELED", .cancellation), ("SUBSCRIPTION_PAUSED", .cancellation),
    ("SUBSCRIPTION_ON_HOLD", .billingIssue), ("SUBSCRIPTION_IN_GRACE_PERIOD", .billingIssue),
    ("SUBSCRIPTION_EXPIRED", .expiration), ("SUBSCRIPTION_REVOKED", .expiration),
    ("SUBSCRIPTION_PRICE_CHANGE_CONFIRMED", .productChange),
    ("SUBSCRIPTION_DEFERRED", .productChange), ("customer.subscription.created", .purchase),
    ("invoice.payment_succeeded", .renewal), ("invoice.paid", .renewal),
    ("customer.subscription.deleted", .cancellation), ("charge.refunded", .refund),
    ("invoice.payment_failed", .billingIssue), ("customer.subscription.updated", .productChange)]

def toWebhookEventCategory (eventType : String) : Option WebhookEventCategory :=
  eventTypeToCategory.lookup eventType

inductive OutgoingWebhookStatus where
  | pending | delivering | sent | failed | dead | dismissed
  deriving DecidableEq

structure OutgoingPayload where
  eventType : String
  subscriberId : String
  purchaseId : Option String
  webhookEventId : Option String
  timestamp : ℤ
  deriving DecidableEq

structure OutgoingWebhook where
  id : String
  projectId : String
  eventType : String
  subscriberId : String
  purchaseId : Option String
  payload : OutgoingPayload
  url : String
  status : OutgoingWebhookStatus := .pending
  httpStatus : Option ℕ := none
  responseBody : Option String := none
  lastErrorMessage : Option String := none
  attempts : ℕ := 0
  nextRetryAt : Option ℤ := none
  claimedAt : Option ℤ := none
  sentAt : Option ℤ := none
  deadAt : Option ℤ := none
  createdAt : ℤ
  deriving DecidableEq

/-- An `outbox_events` row of aggregate type SUBSCRIPTION. -/
structure BridgedEvent where
  aggregateId : String
  eventType : String
  projectId : String
  purchaseId : Option String
  webhookEventId : String
  storeEventType : String
  timestamp : ℤ
  deriving DecidableEq

structure ProjectWebhookConfig where
  url : Option String := none
  eventCategories : List WebhookEventCategory := []

structure OutgoingDb where
  projects : Table String ProjectWebhookConfig := .empty
  outboxEvents : List BridgedEvent := []
  outgoingWebhooks : List OutgoingWebhook := []

inductive OutgoingWrite where
  | insertOutbox (row : BridgedEvent)
  | insertOutgoing (row : OutgoingWebhook)

def OutgoingDb.write (s : OutgoingDb) : OutgoingWrite → OutgoingDb
  | .insertOutbox row => { s with outboxEvents := s.outboxEvents ++ [row] }
  | .insertOutgoing row => { s with outgoingWebhooks := s.outgoingWebhooks ++ [row] }

instance : Database OutgoingDb OutgoingWrite := ⟨OutgoingDb.write⟩

@[simp] theorem outgoing_apply_eq (s : OutgoingDb) (w : OutgoingWrite) :
    Database.apply s w = s.write w := rfl

abbrev OutgoingService := Prog OutgoingDb Empty OutgoingWrite String

def findProjectWebhookConfig (projectId : String) (s : OutgoingDb) : Option ProjectWebhookConfig :=
  s.projects.get? projectId

def findByWebhookEventAndType (aggregateId eventType webhookEventId : String) (s : OutgoingDb) :
    Option BridgedEvent :=
  s.outboxEvents.find? fun r => r.aggregateId = aggregateId ∧ r.eventType = eventType ∧
    r.webhookEventId = webhookEventId

def findByPurchaseAndType (aggregateId eventType purchaseId : String) (s : OutgoingDb) :
    Option BridgedEvent :=
  s.outboxEvents.find? fun r => r.aggregateId = aggregateId ∧ r.eventType = eventType ∧
    r.purchaseId = some purchaseId

def findRecentOutgoingByPurchaseAndType (projectId subscriberId eventType purchaseId : String)
    (s : OutgoingDb) : Option OutgoingWebhook :=
  s.outgoingWebhooks.find? fun r => r.projectId = projectId ∧ r.subscriberId = subscriberId ∧
    r.eventType = eventType ∧ r.purchaseId = some purchaseId

def findOutgoingByWebhookEvent (projectId subscriberId eventType webhookEventId : String)
    (s : OutgoingDb) : Option OutgoingWebhook :=
  s.outgoingWebhooks.find? fun r => r.projectId = projectId ∧ r.subscriberId = subscriberId ∧
    r.eventType = eventType ∧ r.payload.webhookEventId = some webhookEventId

structure EnqueueOutgoingWebhookArgs where
  projectId : String
  subscriberId : String
  purchaseId : Option String := none
  eventType : String
  webhookEventId : String
  eventContext : StoreEventContext := {}

def truthy (s : Option String) : Option String := s.filter (· ≠ "")

def publicKey (args : EnqueueOutgoingWebhookArgs) : Option String :=
  if isRovenueEventKey args.eventType then some args.eventType
  else resolveStorePublicKey args.eventType args.eventContext

def findBridged (args : EnqueueOutgoingWebhookArgs) (key : String) (s : OutgoingDb) :
    Option BridgedEvent :=
  if args.webhookEventId ≠ "" then
    findByWebhookEventAndType args.subscriberId key args.webhookEventId s
  else
    match truthy args.purchaseId with
    | some purchaseId => findByPurchaseAndType args.subscriberId key purchaseId s
    | none => none

def bridgeToOutbox (args : EnqueueOutgoingWebhookArgs) (key : String) : OutgoingService Unit := do
  let alreadyBridged ← query (findBridged args key)
  if alreadyBridged.isSome then pure ()
  else
    let time ← now
    exec (fun _ => []) (fun _ => [.insertOutbox
      { aggregateId := args.subscriberId
        eventType := key
        projectId := args.projectId
        purchaseId := args.purchaseId
        webhookEventId := args.webhookEventId
        storeEventType := args.eventType
        timestamp := time }]) fun _ => ()

def passesCategoryFilter (config : ProjectWebhookConfig) (eventType : String) : Bool :=
  config.eventCategories = [] ||
    match toWebhookEventCategory eventType with
    | none => true
    | some category => category ∈ config.eventCategories

def findExistingOutgoing (args : EnqueueOutgoingWebhookArgs) (s : OutgoingDb) :
    Option OutgoingWebhook :=
  match truthy args.purchaseId with
  | some purchaseId => findRecentOutgoingByPurchaseAndType args.projectId args.subscriberId
      args.eventType purchaseId s
  | none => findOutgoingByWebhookEvent args.projectId args.subscriberId args.eventType
      args.webhookEventId s

def outgoingRow (args : EnqueueOutgoingWebhookArgs) (url id : String) (time createdAt : ℤ) :
    OutgoingWebhook where
  -- The row the enqueue inserts. `createdAt` is the transaction's start.
  id := id
  projectId := args.projectId
  eventType := args.eventType
  subscriberId := args.subscriberId
  purchaseId := args.purchaseId
  payload :=
    { eventType := args.eventType
      subscriberId := args.subscriberId
      purchaseId := args.purchaseId
      webhookEventId := some args.webhookEventId
      timestamp := time }
  url := url
  createdAt := createdAt

def enqueueForUrl (args : EnqueueOutgoingWebhookArgs) (config : ProjectWebhookConfig)
    (url : String) (createdAt : ℤ) : OutgoingService Unit :=
  if !passesCategoryFilter config args.eventType then pure ()
  else do
    let existing ← query (findExistingOutgoing args)
    if existing.isSome then pure ()
    else
      let time ← now
      let id ← fresh
      exec (fun _ => []) (fun _ => [.insertOutgoing (outgoingRow args url id time createdAt)])
        fun _ => ()

def enqueueOutgoingWebhook (args : EnqueueOutgoingWebhookArgs) : OutgoingService Unit := do
  let config ← query (findProjectWebhookConfig args.projectId)
  transaction fun createdAt =>
    (match publicKey args with
      | none => pure ()
      | some key => bridgeToOutbox args key).bind fun _ =>
    match config.bind fun c => (truthy c.url).map fun url => (c, url) with
    | none => pure ()
    | some (config, url) => enqueueForUrl args config url createdAt

end Rovenue.Webhooks
