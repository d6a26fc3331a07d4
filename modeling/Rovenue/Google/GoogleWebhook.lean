import Rovenue.Purchases.TransitionGuard
import Rovenue.Ledger.PurchaseCredits

/-! The Google handlers. A purchase token names one row for the life of its
subscription, and the status written is derived from the state fetched from Google,
not from the notification. -/

namespace Rovenue
open Txn

inductive GoogleSubscriptionState where
  | unspecified | pending | active | paused | inGracePeriod | onHold | canceled | expired
  | pendingPurchaseCanceled
  | unrecognised (label : String)
  deriving DecidableEq, Repr

inductive GoogleSubscriptionNotificationType where
  | recovered | renewed | canceled | purchased | onHold | inGracePeriod | restarted
  | priceChangeConfirmed | deferred | paused | pauseScheduleChanged | revoked | expired
  | pendingPurchaseCanceled
  deriving DecidableEq, Repr

structure GoogleSubscriptionPurchaseLineItem where
  productId : String
  expiryTime : Option ℤ := none
  autoRenewEnabled : Option Bool := none
  deferredProductId : Option String := none

structure GoogleSubscriptionPurchaseV2 where
  -- the first one; no other is read
  lineItem : Option GoogleSubscriptionPurchaseLineItem := none
  startTime : Option ℤ := none
  subscriptionState : GoogleSubscriptionState
  linkedPurchaseToken : Option String := none
  cancelTime : Option ℤ := none

structure GoogleRtdnSubscriptionNotification where
  notificationType : GoogleSubscriptionNotificationType
  purchaseToken : String
  subscriptionId : String

def googleKey (purchaseToken : String) : PurchaseKey := ⟨.playStore, purchaseToken⟩

def mapSubscriptionStateToStatus : GoogleSubscriptionState → PurchaseStatus
  | .active | .canceled => .active
  | .inGracePeriod => .gracePeriod
  | .onHold => .billingIssue
  | .paused => .paused
  | .expired => .expired
  | .pending | .pendingPurchaseCanceled => .expired
  | .unspecified | .unrecognised _ => .expired

def mapStatus (state : GoogleSubscriptionState) (type : GoogleSubscriptionNotificationType) :
    PurchaseStatus :=
  -- Google answers `EXPIRED` for a revoked subscription, so the notification decides
  if type = .revoked then .revoked else mapSubscriptionStateToStatus state

namespace Google

structure SubscriptionCtx where
  projectId : String
  notification : GoogleRtdnSubscriptionNotification

namespace SubscriptionCtx
variable (ctx : SubscriptionCtx)

def purchaseToken : String := ctx.notification.purchaseToken

def key : PurchaseKey := googleKey ctx.purchaseToken

def syntheticId : String := "google:" ++ String.ofList (ctx.purchaseToken.toList.take 24)

end SubscriptionCtx

def resolveSubscriber (ctx : SubscriptionCtx) : Service SubscriberRow := do
  let existingPurchase ← Prog.query (findPurchaseByStoreTransaction ctx.projectId ctx.key)
  let existingSubscriber ← Prog.query fun s =>
    existingPurchase.bind fun purchase => findSubscriberById purchase.subscriberId s
  match existingSubscriber with
  | some row => pure row
  | none =>
    upsertSubscriber
      { projectId := ctx.projectId
        rovenueId := ctx.syntheticId
        appUserId := some ctx.syntheticId }

def resolveDeferredProduct (ctx : SubscriptionCtx) (deferredStoreProductId : Option String)
    (currentStoreProductId : String) (s : Db) : Option String :=
  (deferredStoreProductId.filter fun id => id ≠ "" ∧ id ≠ currentStoreProductId).bind fun id =>
    (findProductByStoreId ctx.projectId "google" id s).map Prod.fst

structure SubscriptionWrite where
  ctx : SubscriptionCtx
  purchase : GoogleSubscriptionPurchaseV2
  subscriberId : String
  productId : String
  pending : PendingPlanChange
  startTime : ℤ
  eventTime : ℤ

namespace SubscriptionWrite
variable (w : SubscriptionWrite)

def status : PurchaseStatus :=
  mapStatus w.purchase.subscriptionState w.ctx.notification.notificationType

def expiresDate : Option ℤ := w.purchase.lineItem.bind (·.expiryTime)

def autoRenewStatus : Option Bool := w.purchase.lineItem.bind (·.autoRenewEnabled)

def guard : GuardStatusWriteArgs where
  key := w.ctx.key
  toStatus := w.status
  eventTime := some w.eventTime

def create (now startedAt : ℤ) : Purchase where
  id := ""
  projectId := w.ctx.projectId
  subscriberId := w.subscriberId
  productId := w.productId
  originalTransactionId := w.purchase.linkedPurchaseToken.getD w.ctx.purchaseToken
  status := w.status
  purchaseDate := w.startTime
  expiresDate := w.expiresDate
  autoRenewStatus := w.autoRenewStatus
  cancellationDate := w.purchase.cancelTime
  verifiedAt := some now
  lastStoreEventAt := some w.eventTime
  billingIssueDetectedAt := (billingIssueStamp none w.status w.eventTime).join
  pending := w.pending
  createdAt := startedAt

def refresh (now : ℤ) : PurchasePatch where
  expiresDate := some w.expiresDate
  autoRenewStatus := some w.autoRenewStatus
  cancellationDate := some w.purchase.cancelTime
  verifiedAt := some (some now)

def update (decided : GuardStatusWriteResult) (now : ℤ) : PurchasePatch :=
  if decided.apply then
    { w.refresh now with
      status := some w.status
      lastStoreEventAt := some (some w.eventTime)
      billingIssueDetectedAt := billingIssueStamp decided.fromStatus w.status w.eventTime
      productId := some w.productId
      pending := some w.pending }
  else w.refresh now

end SubscriptionWrite

def writeSubscription (w : SubscriptionWrite) : Service (Purchase × Bool) :=
  -- the guarded read and the upsert, in one transaction: the row, and whether the status was
  -- written
  Prog.transaction fun startedAt => do
    let decided ← guardStatusWrite w.guard
    let insertedAt ← Prog.now
    let updatedAt ← Prog.now
    let row ← upsertPurchase w.ctx.key (w.create insertedAt startedAt) (w.update decided updatedAt)
    pure (row, decided.apply)

def expireSupersededGooglePurchase (projectId supersededToken currentToken : String) :
    Service Unit :=
  if supersededToken = currentToken then pure ()
  else do
    let old ← Prog.query (findPurchaseByStoreTransaction projectId (googleKey supersededToken))
    match old with
    | none => pure ()
    | some old => do
      let now ← Prog.now
      Prog.transaction fun _ => do
        let guard ← guardStatusWrite
          { key := googleKey supersededToken, toStatus := .expired, eventTime := some now }
        if guard.apply then
          updatePurchase (googleKey supersededToken)
            { status := some .expired
              expiresDate := some (some now)
              autoRenewStatus := some (some false)
              lastStoreEventAt := some (some now) }
        else pure ()
      (revokeAccessByPurchaseId old.id).autocommit

def supersedeLinked (ctx : SubscriptionCtx) (purchase : GoogleSubscriptionPurchaseV2) :
    Service Unit :=
  match purchase.linkedPurchaseToken.filter (· ≠ "") with
  | none => pure ()
  | some supersededToken =>
    expireSupersededGooglePurchase ctx.projectId supersededToken ctx.purchaseToken

def entitle (w : SubscriptionWrite) (accessIds : List String) (persisted : Purchase)
    (applied : Bool) : Service Unit :=
  if applied && w.status ∈ accessGrantingStatuses then
    grantAccess
      { subscriberId := w.subscriberId
        purchaseId := persisted.id
        accessIds := accessIds
        expiresDate := entitlementExpiry w.status w.expiresDate persisted.gracePeriodExpires
        store := .playStore }
  else (revokeAccessByPurchaseId persisted.id).autocommit

def processSubscriptionNotification (ctx : SubscriptionCtx)
    (purchase : GoogleSubscriptionPurchaseV2) : Service DispatchOutcome := do
  let subscriber ← resolveSubscriber ctx
  let storeProductId := (purchase.lineItem.map (·.productId)).getD ctx.notification.subscriptionId
  let product ← Prog.query (findProductByStoreId ctx.projectId "google" storeProductId)
  match product with
  | none =>
    Prog.throw ("No product mapped for Google productId " ++ storeProductId ++ " in project " ++
      ctx.projectId)
  | some product => do
    let readAt ← Prog.now
    let announced ← Prog.query (resolveDeferredProduct ctx
      (purchase.lineItem.bind (·.deferredProductId)) storeProductId)
    let eventTime ← Prog.now
    let w : SubscriptionWrite :=
      { ctx := ctx
        purchase := purchase
        subscriberId := subscriber.1
        productId := product.1
        pending := pendingPlanChangeFields product.1 announced none
          (purchase.lineItem.bind (·.expiryTime))
        startTime := purchase.startTime.getD readAt
        eventTime := eventTime }
    let written ← writeSubscription w
    supersedeLinked ctx purchase
    entitle w product.2.accessIds written.1 written.2
    pure { subscriberId := some subscriber.1, purchaseId := some written.1.id }

def voidGuard (purchaseToken : String) (voidEventTime : ℤ) : GuardStatusWriteArgs where
  key := googleKey purchaseToken
  toStatus := .refunded
  eventTime := some voidEventTime

def processVoidedPurchase (projectId purchaseToken : String) : Service DispatchOutcome := do
  let found ← Prog.query (findPurchaseByStoreTransaction projectId (googleKey purchaseToken))
  match found with
  | none => pure {}
  | some purchase => do
    let voidEventTime ← Prog.now
    Prog.transaction fun _ => do
      let decided ← guardStatusWrite (voidGuard purchaseToken voidEventTime)
      updatePurchase (googleKey purchaseToken)
        (if decided.apply then
          { status := some .refunded
            refundDate := some (some voidEventTime)
            lastStoreEventAt := some (some voidEventTime) }
        else {})
    (revokeAccessByPurchaseId purchase.id).autocommit
    pure { subscriberId := some purchase.subscriberId, purchaseId := some purchase.id }

inductive GoogleNotification where
  | subscription (ctx : SubscriptionCtx) (purchase : GoogleSubscriptionPurchaseV2)
  | voided (projectId purchaseToken : String)
  -- persisted only: a one-time product, or a kind unknown here
  | other

def dispatch : GoogleNotification → Service DispatchOutcome
  | .subscription ctx purchase => processSubscriptionNotification ctx purchase
  | .voided projectId purchaseToken => processVoidedPurchase projectId purchaseToken
  | .other => pure {}

def handleGoogleNotification (notification : GoogleNotification) : Service Unit := do
  let outcome ← dispatch notification
  postProcess outcome

end Google
end Rovenue
