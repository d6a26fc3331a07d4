import Rovenue.Purchases.TransitionGuard
import Rovenue.Ledger.PurchaseCredits

/-! The Apple handlers. A renewal has a transaction id of its own, so a
subscription is a chain of rows under one original transaction id; some handlers
write one row of it, some the chain. -/

namespace Rovenue
open Txn

inductive AppleNotificationType where
  | subscribed | didRenew | didChangeRenewalPref | didChangeRenewalStatus | offerRedeemed
  | didFailToRenew | gracePeriodExpired | expired | refund | refundDeclined | refundReversed
  | revoke | consumptionRequest
  -- acknowledged without a state change
  | other
  deriving DecidableEq, Repr

inductive AppleNotificationSubtype where
  | upgrade | downgrade | gracePeriod | other
  deriving DecidableEq, Repr

inductive AppleOfferType where
  | introductory | promotional | subscriptionOfferCode | winBack
  deriving DecidableEq, Repr

structure AppleTransaction where
  transactionId : String
  originalTransactionId : String
  productId : String
  purchaseDate : ℤ := 0
  expiresDate : Option ℤ := none
  signedDate : ℤ := 0
  price : Option ℤ := none
  offerType : Option AppleOfferType := none
  appAccountToken : Option String := none

structure AppleRenewalInfo where
  autoRenewStatus : ℤ := 0
  autoRenewProductId : Option String := none
  gracePeriodExpiresDate : Option ℤ := none

structure AppleNotification where
  notificationType : AppleNotificationType
  subtype : Option AppleNotificationSubtype := none
  signedDate : ℤ

def appleKey (transactionId : String) : PurchaseKey := ⟨.appStore, transactionId⟩

def appleDate (t : Option ℤ) : Option ℤ := t.filter (· ≠ 0)

def applePlanChangeType : Option AppleNotificationSubtype → Option PlanChangeType
  | some .upgrade => some .upgrade
  | some .downgrade => some .downgrade
  | _ => none

def findSubscriberByAppleAppAccountToken (projectId token : String) (s : Db) :
    Option SubscriberRow :=
  s.subscribers.entries.find? fun e =>
    e.2.projectId = projectId ∧ e.2.appleAppAccountToken = some token

namespace Apple

structure DispatchContext where
  projectId : String
  notification : AppleNotification
  transaction : AppleTransaction
  renewalInfo : Option AppleRenewalInfo := none

namespace DispatchContext
variable (ctx : DispatchContext)

def appleNotificationEventTime : ℤ := ctx.notification.signedDate

def originalTransactionId : String := ctx.transaction.originalTransactionId

def key : PurchaseKey := appleKey ctx.transaction.transactionId

def autoRenewStatus : Bool := (ctx.renewalInfo.map AppleRenewalInfo.autoRenewStatus) = some 1

def expiresDate : Option ℤ := appleDate ctx.transaction.expiresDate

end DispatchContext

def isTrial (transaction : AppleTransaction) : Bool :=
  transaction.offerType = some .introductory ∧ transaction.price.getD 0 = 0

def findChainPurchase (ctx : DispatchContext) (s : Db) : Option PurchaseRecord :=
  findPurchaseByOriginalTransaction ctx.projectId ctx.originalTransactionId s

def resolveSubscriber (ctx : DispatchContext) : Service SubscriberRow := do
  let token := ctx.transaction.appAccountToken.filter (· ≠ "")
  let byToken ← Prog.query fun s =>
    token.bind fun token => findSubscriberByAppleAppAccountToken ctx.projectId token s
  match byToken with
  | some row => pure row
  | none => do
    let existingPurchase ← Prog.query (findChainPurchase ctx)
    let existingSubscriber ← Prog.query fun s =>
      existingPurchase.bind fun purchase => findSubscriberById purchase.2.subscriberId s
    match existingSubscriber with
    | some row => pure row
    | none =>
      let syntheticId := "apple:" ++ ctx.originalTransactionId
      upsertSubscriber
        { projectId := ctx.projectId
          rovenueId := syntheticId
          appUserId := some syntheticId
          appleAppAccountToken := ctx.transaction.appAccountToken }

def resolveAutoRenewProduct (ctx : DispatchContext) (currentStoreProductId : String) (s : Db) :
    Option String :=
  ((ctx.renewalInfo.bind AppleRenewalInfo.autoRenewProductId).filter
    fun id => id ≠ "" ∧ id ≠ currentStoreProductId).bind fun id =>
      (findProductByStoreId ctx.projectId "apple" id s).map Prod.fst

def retireRow (key : PurchaseKey) (now : ℤ) : Service Unit := do
  -- a guarded move of one row to `EXPIRED`, inside the caller's transaction
  let guard ← guardStatusWrite { key := key, toStatus := .expired, eventTime := some now }
  if guard.apply then
    updatePurchase key { status := some .expired, lastStoreEventAt := some (some now) }
  else pure ()

def retireChainBillingIssue (projectId originalTransactionId : String) (excluded : PurchaseKey)
    (now : ℤ) : Service Unit := do
  -- every other `BILLING_ISSUE` row of the chain, once a delivery recovers it
  let stale ← Prog.query (findChainBillingIssuePurchases projectId originalTransactionId excluded)
  Prog.forEach stale fun key => retireRow key now

def expireSupersededApplePurchases (projectId originalTransactionId : String)
    (current : PurchaseKey) (now : ℤ) : Service Unit := do
  let siblings ← Prog.query
    (findSupersedableApplePurchases projectId originalTransactionId current now)
  Prog.forEach siblings fun sibling => do
    Prog.transaction fun _ => retireRow sibling.1 now
    syncAccess sibling.2.subscriberId

structure TransactionWrite where
  ctx : DispatchContext
  subscriberId : String
  status : PurchaseStatus
  productId : String
  pending : PendingPlanChange
  now : ℤ

namespace TransactionWrite
variable (w : TransactionWrite)

def create (startedAt : ℤ) : Purchase where
  id := ""
  projectId := w.ctx.projectId
  subscriberId := w.subscriberId
  productId := w.productId
  originalTransactionId := w.ctx.originalTransactionId
  status := w.status
  isTrial := isTrial w.ctx.transaction
  purchaseDate := w.ctx.transaction.purchaseDate
  expiresDate := w.ctx.expiresDate
  autoRenewStatus := some w.ctx.autoRenewStatus
  verifiedAt := some w.now
  lastStoreEventAt := some w.ctx.appleNotificationEventTime
  pending := w.pending
  createdAt := startedAt

def refresh : PurchasePatch where
  autoRenewStatus := some (some w.ctx.autoRenewStatus)
  expiresDate := some w.ctx.expiresDate
  verifiedAt := some (some w.now)

def update (guard : GuardStatusWriteResult) : PurchasePatch :=
  if guard.apply then
    { w.refresh with
      status := some w.status
      lastStoreEventAt := some (some w.ctx.appleNotificationEventTime)
      billingIssueDetectedAt :=
        billingIssueStamp guard.fromStatus w.status w.ctx.appleNotificationEventTime
      productId := some w.productId
      pending := some w.pending }
  else w.refresh

end TransactionWrite

structure UpsertedPurchase where
  product : String × Product
  purchase : Purchase
  statusApplied : Bool

def upsertGuard (ctx : DispatchContext) (status : PurchaseStatus) : GuardStatusWriteArgs where
  key := ctx.key
  toStatus := status
  eventTime := some ctx.appleNotificationEventTime

def recoverChain (ctx : DispatchContext) (status : PurchaseStatus)
    (guard : GuardStatusWriteResult) : Service Unit :=
  if guard.fromStatus ≠ some .billingIssue ∧ guard.apply ∧ status.grantsAccess then
    retireChainBillingIssue ctx.projectId ctx.originalTransactionId ctx.key
      ctx.appleNotificationEventTime
  else pure ()

def writeTransaction (ctx : DispatchContext) (subscriberId : String) (status : PurchaseStatus)
    (productId : String) (pending : PendingPlanChange) : Service (Purchase × Bool) :=
  -- the transaction of `upsertPurchase`: guard, upsert, and the chain's recovery
  Prog.transaction fun startedAt => do
    let guard ← guardStatusWrite (upsertGuard ctx status)
    let now ← Prog.now
    let w : TransactionWrite := ⟨ctx, subscriberId, status, productId, pending, now⟩
    let persisted ← Rovenue.upsertPurchase ctx.key (w.create startedAt) (w.update guard)
    recoverChain ctx status guard
    pure (persisted, guard.apply)

def upsertPurchase (ctx : DispatchContext) (subscriberId : String) (status : PurchaseStatus) :
    Service UpsertedPurchase := do
  let product ← Prog.query
    (findProductByStoreId ctx.projectId "apple" ctx.transaction.productId)
  match product with
  | none =>
    Prog.throw ("No product mapped for Apple productId " ++ ctx.transaction.productId ++
      " in project " ++ ctx.projectId)
  | some product => do
    let announced ← Prog.query (resolveAutoRenewProduct ctx ctx.transaction.productId)
    let written ← writeTransaction ctx subscriberId status product.1
      (pendingPlanChangeFields product.1 announced
        (applePlanChangeType ctx.notification.subtype) ctx.expiresDate)
    pure ⟨product, written.1, written.2⟩

def grantAccess (ctx : DispatchContext) (subscriberId : String) (upserted : UpsertedPurchase) :
    Service Unit :=
  Rovenue.grantAccess
    { subscriberId := subscriberId
      purchaseId := upserted.purchase.id
      accessIds := upserted.product.2.accessIds
      expiresDate := entitlementExpiry upserted.purchase.status ctx.expiresDate
        upserted.purchase.gracePeriodExpires
      store := .appStore }

def supersedeSiblings (ctx : DispatchContext) (supersedes : Bool) : Service Unit :=
  if supersedes then
    expireSupersededApplePurchases ctx.projectId ctx.originalTransactionId ctx.key
      ctx.appleNotificationEventTime
  else pure ()

def entitle (ctx : DispatchContext) (subscriberId : String) (upserted : UpsertedPurchase)
    (supersedes : Bool) : Service Unit :=
  -- nothing follows a withheld status; an upgrade retires what it replaced before it grants
  if upserted.statusApplied then do
    supersedeSiblings ctx supersedes
    grantAccess ctx subscriberId upserted
  else pure ()

def applyTransaction (ctx : DispatchContext) (status : PurchaseStatus) (supersedes : Bool) :
    Service DispatchOutcome := do
  let subscriber ← resolveSubscriber ctx
  let upserted ← upsertPurchase ctx subscriber.1 status
  entitle ctx subscriber.1 upserted supersedes
  pure { subscriberId := some subscriber.1, purchaseId := some upserted.purchase.id }

def trialOrActive (ctx : DispatchContext) : PurchaseStatus :=
  if isTrial ctx.transaction then .trial else .active

def applySubscribed (ctx : DispatchContext) : Service DispatchOutcome :=
  applyTransaction ctx (trialOrActive ctx) false

def applyRenewal (ctx : DispatchContext) : Service DispatchOutcome := do
  let outcome ← applyTransaction ctx .active false
  pure { outcome with isRenewalCharge := true }

def recordApplePendingChange (ctx : DispatchContext) : Service DispatchOutcome := do
  let current ← Prog.query (findChainPurchase ctx)
  match current with
  | none => pure {}
  | some current => do
    let announced ← Prog.query (resolveAutoRenewProduct ctx ctx.transaction.productId)
    Prog.transaction fun _ => do
      let locked ← lockPurchaseStatusByStoreTransaction current.1
      match locked with
      | none => pure ()
      | some locked =>
        if locked.status ∈ terminalStatuses then pure ()
        else
          updatePurchase current.1
            { pending := some (pendingPlanChangeFields locked.productId announced
                (applePlanChangeType ctx.notification.subtype) current.2.expiresDate) }
    pure { subscriberId := some current.2.subscriberId, purchaseId := some current.2.id }

def applyRenewalPrefChange (ctx : DispatchContext) : Service DispatchOutcome :=
  if ctx.notification.subtype = some .upgrade then applyTransaction ctx .active true
  else recordApplePendingChange ctx

def applyOfferRedeemed (ctx : DispatchContext) : Service DispatchOutcome :=
  if ctx.notification.subtype = some .downgrade then recordApplePendingChange ctx
  else applyTransaction ctx (trialOrActive ctx) (ctx.notification.subtype = some .upgrade)

def chainOutcome (ctx : DispatchContext) : Service DispatchOutcome := do
  let purchase ← Prog.query (findChainPurchase ctx)
  match purchase with
  | none => pure {}
  | some purchase =>
    pure { subscriberId := some purchase.2.subscriberId, purchaseId := some purchase.2.id }

def applyRenewalStatusChange (ctx : DispatchContext) : Service DispatchOutcome := do
  (updatePurchasesByOriginalTransaction ctx.projectId ctx.originalTransactionId
    { autoRenewStatus := some (some ctx.autoRenewStatus) }).autocommit
  chainOutcome ctx

def guardedChainStatusWrite (ctx : DispatchContext) (patch : PurchasePatch) : Service ℕ :=
  (updateChainStatusGuarded ctx.projectId ctx.originalTransactionId patch).autocommit

def failedRenewalStatus (ctx : DispatchContext) : PurchaseStatus :=
  if ctx.notification.subtype = some .gracePeriod then .gracePeriod else .billingIssue

def applyFailedRenewal (ctx : DispatchContext) : Service DispatchOutcome := do
  let status := failedRenewalStatus ctx
  let current ← Prog.query (findChainPurchase ctx)
  let _ ← guardedChainStatusWrite ctx
    { status := some status
      gracePeriodExpires :=
        some (appleDate (ctx.renewalInfo.bind AppleRenewalInfo.gracePeriodExpiresDate))
      billingIssueDetectedAt := billingIssueStamp (current.map fun e => e.2.status) status
        ctx.appleNotificationEventTime }
  pure {}

def revokeAccessForTransaction (ctx : DispatchContext) : Service Unit :=
  (revokeAccessByOriginalTransaction ctx.projectId ctx.originalTransactionId).autocommit

def purchaseOutcome (purchase : Option Purchase) : Service DispatchOutcome := do
  let subscriber ← Prog.query fun s =>
    purchase.bind fun purchase => findSubscriberById purchase.subscriberId s
  match purchase, subscriber with
  | some purchase, some subscriber =>
    pure { subscriberId := some subscriber.1, purchaseId := some purchase.id }
  | _, _ => pure {}

def emitCancellationEvent (ctx : DispatchContext) : Service DispatchOutcome := do
  let purchase ← Prog.query (findChainPurchase ctx)
  purchaseOutcome (purchase.map Prod.snd)

def applyExpired (ctx : DispatchContext) : Service DispatchOutcome := do
  let updatedCount ← guardedChainStatusWrite ctx { status := some .expired }
  revokeAccessForTransaction ctx
  if updatedCount = 0 then pure {} else emitCancellationEvent ctx

def applyRevoke (ctx : DispatchContext) : Service DispatchOutcome := do
  let _ ← guardedChainStatusWrite ctx { status := some .revoked }
  revokeAccessForTransaction ctx
  chainOutcome ctx

def refundGuard (ctx : DispatchContext) : GuardStatusWriteArgs where
  key := ctx.key
  toStatus := .refunded
  eventTime := some ctx.appleNotificationEventTime

def refundRow (ctx : DispatchContext) : Service Unit := do
  let found ← Prog.query (findPurchaseByStoreTransaction ctx.projectId ctx.key)
  match found with
  | none => pure ()
  | some found => do
    Prog.transaction fun _ => do
      let guard ← guardStatusWrite (refundGuard ctx)
      if guard.apply then
        updatePurchase ctx.key
          { status := some .refunded
            refundDate := some (some ctx.transaction.signedDate)
            lastStoreEventAt := some (some ctx.appleNotificationEventTime) }
      else pure ()
    (revokeAccessByPurchaseId found.id).autocommit

def applyRefund (ctx : DispatchContext) : Service DispatchOutcome := do
  refundRow ctx
  let purchase ← Prog.query (findPurchaseByStoreTransaction ctx.projectId ctx.key)
  purchaseOutcome purchase

def restoredStatus (ctx : DispatchContext) (now : ℤ) : PurchaseStatus :=
  if ctx.transaction.expiresDate.all (now < ·) then .active else .expired

def reversalGuard (ctx : DispatchContext) (now : ℤ) : GuardStatusWriteArgs where
  key := ctx.key
  toStatus := restoredStatus ctx now
  allowFrom := [.refunded]
  eventTime := some ctx.appleNotificationEventTime

def applyRefundReversed (ctx : DispatchContext) : Service DispatchOutcome := do
  -- the one exit from a terminal status: out of `REFUNDED`, with neither the graph nor the
  -- repository's `CASE` in the way
  let found ← Prog.query (findPurchaseByStoreTransaction ctx.projectId ctx.key)
  match found with
  | none => pure {}
  | some purchase => do
    let now ← Prog.now
    Prog.transaction fun _ => do
      let guard ← guardStatusWrite (reversalGuard ctx now)
      let patch : PurchasePatch := { refundDate := some none }
      updatePurchase ctx.key
        (if guard.apply then
          { patch with
            status := some (restoredStatus ctx now)
            lastStoreEventAt := some (some ctx.appleNotificationEventTime) }
        else patch) false
    purchaseOutcome (some purchase)

def applyConsumptionRequest (ctx : DispatchContext) : Service DispatchOutcome := do
  let token := ctx.transaction.appAccountToken.filter (· ≠ "")
  let byToken ← Prog.query fun s =>
    token.bind fun token => findSubscriberByAppleAppAccountToken ctx.projectId token s
  match byToken with
  | some row => pure { subscriberId := some row.1 }
  | none => do
    let purchase ← Prog.query (findChainPurchase ctx)
    pure { subscriberId := purchase.map fun e => e.2.subscriberId }

def dispatch (ctx : DispatchContext) : Service DispatchOutcome :=
  match ctx.notification.notificationType with
  | .subscribed => applySubscribed ctx
  | .didRenew => applyRenewal ctx
  | .didChangeRenewalPref => applyRenewalPrefChange ctx
  | .didChangeRenewalStatus => applyRenewalStatusChange ctx
  | .offerRedeemed => applyOfferRedeemed ctx
  | .didFailToRenew => applyFailedRenewal ctx
  | .gracePeriodExpired => applyExpired ctx
  | .expired => applyExpired ctx
  | .refund => applyRefund ctx
  | .refundDeclined => pure {}
  | .refundReversed => applyRefundReversed ctx
  | .revoke => applyRevoke ctx
  | .consumptionRequest => applyConsumptionRequest ctx
  | .other => pure {}

def handleAppleNotification (ctx : DispatchContext) : Service Unit := do
  let outcome ← dispatch ctx
  postProcess outcome

end Apple
end Rovenue
