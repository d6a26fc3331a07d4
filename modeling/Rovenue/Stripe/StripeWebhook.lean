import Rovenue.Purchases.TransitionGuard
import Rovenue.Ledger.PurchaseCredits

/-! The Stripe handlers. Stripe's instants are whole seconds, and a zero reads
as absent. -/

namespace Rovenue
open Txn

inductive StripeSubscriptionStatus where
  | active | trialing | pastDue | unpaid | incomplete | incompleteExpired | canceled | paused
  | unrecognised (label : String)
  deriving DecidableEq, Repr

structure StripePendingUpdate where
  priceIds : List String := []
  billingCycleAnchor : Option ℤ := none

structure StripeSubscription where
  id : String
  customer : String
  status : StripeSubscriptionStatus
  -- `metadata.app_user_id`, the key the checkout stamps
  appUserId : Option String := none
  -- `metadata.appUserId`
  legacyAppUserId : Option String := none
  priceIds : List String
  currentPeriodEnd : Option ℤ := none
  startDate : Option ℤ := none
  canceledAt : Option ℤ := none
  cancelAtPeriodEnd : Bool := false
  pendingUpdate : Option StripePendingUpdate := none
  defaultPaymentMethod : Option String := none
  -- only the confirm route can fill it in
  pendingSetupIntentStatus : Option String := none

structure StripeInvoice where
  subscription : Option String

structure StripeCharge where
  invoice : Option String
  -- the subscription of that invoice, as the account's API returns it
  invoiceSubscription : Option String
  amount : Option ℤ := none
  amountCaptured : Option ℤ := none
  amountRefunded : Option ℤ := none

inductive StripeEventData where
  | subscriptionSync (subscription : StripeSubscription)
  | subscriptionDeleted (subscription : StripeSubscription)
  | invoicePaid (invoice : StripeInvoice)
  -- `invoice.payment_failed` and `invoice.payment_action_required`
  | invoicePaymentFailed (invoice : StripeInvoice)
  | chargeRefunded (charge : StripeCharge)

structure StripeContext where
  projectId : String
  created : ℤ

def fromSeconds (t : Option ℤ) : Option ℤ := (t.filter (· ≠ 0)).map (· * 1000)

def stripeEventTime (ctx : StripeContext) : Option ℤ := fromSeconds (some ctx.created)

def stripeKey (subscriptionId : String) : PurchaseKey := ⟨.stripe, subscriptionId⟩

def mapStripeSubscriptionStatus : StripeSubscriptionStatus → Option PurchaseStatus
  | .active => some .active
  | .trialing => some .trial
  | .pastDue => some .gracePeriod
  | .unpaid => some .billingIssue
  | .incomplete => some .billingIssue
  | .incompleteExpired => some .expired
  | .canceled => some .expired
  | .paused => some .paused
  | .unrecognised _ => none

def hasPaidOrAttachedACard (subscription : StripeSubscription) : Bool :=
  if subscription.status = .active then true
  else if subscription.status = .trialing then
    subscription.defaultPaymentMethod.isSome ||
      subscription.pendingSetupIntentStatus = some "succeeded"
  else false

def resolveStripeSubscriber (projectId : String) (subscription : StripeSubscription) :
    Service (Option SubscriberRow) := do
  -- the row's subscriber: the survivor of its anchor, a new anchor when there is none at all,
  -- `none` when the anchor is dead
  let appUserId := (subscription.appUserId.or subscription.legacyAppUserId).getD
    ("stripe:" ++ subscription.customer)
  let resolved ← resolveSubscriberByRovenueId projectId appUserId
  match resolved with
  | some row => pure (some row)
  | none => do
    let existing ← Prog.query (findSubscriberByRovenueId projectId appUserId)
    match existing with
    | some _ => pure none
    | none => do
      let row ← upsertSubscriber
        { projectId := projectId, rovenueId := appUserId, appUserId := some appUserId }
      pure (some row)

structure SubscriptionWrite where
  ctx : StripeContext
  subscription : StripeSubscription
  subscriberId : String
  status : PurchaseStatus
  productId : String
  pending : PendingPlanChange
  startDate : ℤ
  now : ℤ

namespace SubscriptionWrite
variable (w : SubscriptionWrite)

def expiresDate : Option ℤ := fromSeconds w.subscription.currentPeriodEnd

def isTrial : Bool := w.subscription.status = .trialing

def stampTime : ℤ := (stripeEventTime w.ctx).getD w.now

def create (startedAt : ℤ) : Purchase where
  id := ""
  projectId := w.ctx.projectId
  subscriberId := w.subscriberId
  productId := w.productId
  originalTransactionId := w.subscription.id
  status := w.status
  isTrial := w.isTrial
  purchaseDate := w.startDate
  expiresDate := w.expiresDate
  autoRenewStatus := some (!w.subscription.cancelAtPeriodEnd)
  cancellationDate := fromSeconds w.subscription.canceledAt
  verifiedAt := some w.now
  lastStoreEventAt := stripeEventTime w.ctx
  billingIssueDetectedAt := (billingIssueStamp none w.status w.stampTime).join
  pending := w.pending
  createdAt := startedAt

def refresh : PurchasePatch where
  isTrial := some w.isTrial
  expiresDate := some w.expiresDate
  autoRenewStatus := some (some !w.subscription.cancelAtPeriodEnd)
  cancellationDate := some (fromSeconds w.subscription.canceledAt)
  verifiedAt := some (some w.now)

def update (guard : GuardStatusWriteResult) : PurchasePatch :=
  if guard.apply then
    { w.refresh with
      status := some w.status
      lastStoreEventAt := (stripeEventTime w.ctx).map some
      billingIssueDetectedAt := billingIssueStamp guard.fromStatus w.status w.stampTime
      productId := some w.productId
      pending := some w.pending }
  else w.refresh

end SubscriptionWrite

def findPendingProduct (projectId : String) (subscription : StripeSubscription) (priceId : String)
    (s : Db) : Option String :=
  (subscription.pendingUpdate.bind fun u => u.priceIds.head?).bind fun pendingPriceId =>
    if pendingPriceId = priceId then none
    else (findProductByStoreId projectId "stripe" pendingPriceId s).map Prod.fst

def subscriptionWrite (ctx : StripeContext) (subscription : StripeSubscription)
    (subscriberId : String) (status : PurchaseStatus) (productId : String)
    (pendingProduct : Option String) (now : ℤ) : SubscriptionWrite where
  ctx := ctx
  subscription := subscription
  subscriberId := subscriberId
  status := status
  productId := productId
  pending := pendingPlanChangeFields productId pendingProduct none
    (fromSeconds (subscription.pendingUpdate.bind StripePendingUpdate.billingCycleAnchor))
  startDate := (fromSeconds subscription.startDate).getD now
  now := now

def upsertPurchaseFromSubscription (ctx : StripeContext) (subscription : StripeSubscription)
    (subscriberId : String) (status : PurchaseStatus) (guard : GuardStatusWriteResult)
    (startedAt : ℤ) : Service ((String × Product) × Purchase) := do
  match subscription.priceIds.head? with
  | none => Prog.throw ("Stripe subscription " ++ subscription.id ++ " has no items")
  | some priceId => do
    let product ← Prog.query (findProductByStoreId ctx.projectId "stripe" priceId)
    match product with
    | none =>
      Prog.throw ("No product mapped for Stripe price " ++ priceId ++ " in project " ++
        ctx.projectId)
    | some product => do
      let now ← Prog.now
      let pendingProduct ← Prog.query (findPendingProduct ctx.projectId subscription priceId)
      let w := subscriptionWrite ctx subscription subscriberId status product.1 pendingProduct now
      let purchase ← upsertPurchase (stripeKey subscription.id) (w.create startedAt)
        (w.update guard)
      pure (product, purchase)

def syncGuard (ctx : StripeContext) (subscription : StripeSubscription) (status : PurchaseStatus) :
    GuardStatusWriteArgs where
  key := stripeKey subscription.id
  toStatus := status
  eventTime := stripeEventTime ctx

structure SyncedSubscription where
  product : String × Product
  purchase : Purchase
  statusApplied : Bool

def writeSubscription (ctx : StripeContext) (subscription : StripeSubscription)
    (subscriberId : String) (status : PurchaseStatus) : Service SyncedSubscription :=
  Prog.transaction fun startedAt => do
    let guard ← guardStatusWrite (syncGuard ctx subscription status)
    let result ← upsertPurchaseFromSubscription ctx subscription subscriberId status guard startedAt
    pure ⟨result.1, result.2, guard.apply⟩

def isSpeculativeInitialState (subscription : StripeSubscription) : Bool :=
  subscription.status = .incomplete ∨ subscription.status = .trialing

def syncSubscription (ctx : StripeContext) (subscription : StripeSubscription) :
    Service DispatchOutcome := do
  let subscriber ← resolveStripeSubscriber ctx.projectId subscription
  match subscriber, mapStripeSubscriptionStatus subscription.status with
  | none, _ => pure {}
  | some _, none => pure {}
  | some subscriber, some status => do
    let synced ← writeSubscription ctx subscription subscriber.1 status
    let grantsAccess := synced.statusApplied && status ∈ accessGrantingStatuses &&
      (!isSpeculativeInitialState subscription || hasPaidOrAttachedACard subscription)
    if grantsAccess then
      grantAccess
        { subscriberId := subscriber.1
          purchaseId := synced.purchase.id
          accessIds := synced.product.2.accessIds
          expiresDate := entitlementExpiry synced.purchase.status synced.purchase.expiresDate
            synced.purchase.gracePeriodExpires
          store := .stripe }
    else (revokeAccessByPurchaseId synced.purchase.id).autocommit
    pure { subscriberId := some subscriber.1, purchaseId := some synced.purchase.id }

def applySubscriptionDeleted (ctx : StripeContext) (subscription : StripeSubscription) :
    Service DispatchOutcome := do
  let found ← Prog.query
    (findPurchaseByStoreTransaction ctx.projectId (stripeKey subscription.id))
  match found with
  | none => pure {}
  | some purchase => do
    Prog.transaction fun _ => do
      let guard ← guardStatusWrite
        { key := stripeKey subscription.id
          toStatus := .expired
          eventTime := stripeEventTime ctx }
      let now ← Prog.now
      let patch : PurchasePatch :=
        { cancellationDate := some (some ((fromSeconds subscription.canceledAt).getD now))
          autoRenewStatus := some (some false) }
      updatePurchase (stripeKey subscription.id)
        (if guard.apply then
          { patch with
            status := some .expired
            lastStoreEventAt := (stripeEventTime ctx).map some }
        else patch)
    (revokeAccessByPurchaseId purchase.id).autocommit
    pure { subscriberId := some purchase.subscriberId, purchaseId := some purchase.id }

def applyInvoicePaid (ctx : StripeContext) (invoice : StripeInvoice) : Service DispatchOutcome := do
  match invoice.subscription with
  | none => pure {}
  | some subscriptionId => do
    let found ← Prog.query
      (findPurchaseByStoreTransaction ctx.projectId (stripeKey subscriptionId))
    match found with
    | none => pure {}
    | some purchase => do
      if purchase.isTrial then
        (updatePurchase (stripeKey subscriptionId) { isTrial := some false }).autocommit
      else pure ()
      pure { subscriberId := some purchase.subscriberId, purchaseId := some purchase.id }

def applyInvoicePaymentFailed (ctx : StripeContext) (invoice : StripeInvoice) :
    Service DispatchOutcome := do
  -- the guard runs on the pool, so its lock is gone before the update, and the update carries no
  -- guard of its own
  match invoice.subscription with
  | none => pure {}
  | some subscriptionId => do
    let guard ← (guardStatusWrite
      { key := stripeKey subscriptionId
        toStatus := .gracePeriod
        eventTime := stripeEventTime ctx }).autocommit
    if guard.apply then
      (updatePurchaseByStoreTransaction (stripeKey subscriptionId)
        { status := some .gracePeriod
          lastStoreEventAt := (stripeEventTime ctx).map some }).autocommit
    else pure ()
    pure {}

def StripeCharge.isFullRefund (charge : StripeCharge) : Bool :=
  let captured := (charge.amountCaptured.or charge.amount).getD 0
  0 < captured ∧ captured ≤ charge.amountRefunded.getD 0

def applyChargeRefunded (ctx : StripeContext) (charge : StripeCharge) :
    Service DispatchOutcome := do
  match charge.invoice, charge.invoiceSubscription with
  | none, _ => pure {}
  | some _, none => pure {}
  | some _, some subscriptionId => do
    let found ← Prog.query
      (findPurchaseByStoreTransaction ctx.projectId (stripeKey subscriptionId))
    match found with
    | none => pure {}
    | some purchase => do
      let now ← Prog.now
      let eventDate := (stripeEventTime ctx).getD now
      if charge.isFullRefund then do
        let guard ← (guardStatusWrite
          { key := stripeKey subscriptionId
            toStatus := .refunded
            eventTime := stripeEventTime ctx }).autocommit
        if guard.apply then do
          (updatePurchase (stripeKey subscriptionId)
            { status := some .refunded
              refundDate := some (some eventDate)
              lastStoreEventAt := (stripeEventTime ctx).map some }).autocommit
          (revokeAccessByPurchaseId purchase.id).autocommit
        else pure ()
      else pure ()
      pure { subscriberId := some purchase.subscriberId, purchaseId := some purchase.id }

def StripeEventData.dispatch (ctx : StripeContext) : StripeEventData → Service DispatchOutcome
  | .subscriptionSync subscription => syncSubscription ctx subscription
  | .subscriptionDeleted subscription => applySubscriptionDeleted ctx subscription
  | .invoicePaid invoice => applyInvoicePaid ctx invoice
  | .invoicePaymentFailed invoice => applyInvoicePaymentFailed ctx invoice
  | .chargeRefunded charge => applyChargeRefunded ctx charge

def processStripeEvent (ctx : StripeContext) (data : StripeEventData) : Service Unit := do
  let outcome ← data.dispatch ctx
  postProcess outcome

structure OneTimePurchase where
  projectId : String
  subscriberId : String
  productId : String
  accessIds : List String
  stripePaymentIntentId : String

def grantOneTimePurchase (args : OneTimePurchase) : Service Unit :=
  -- what the completion of a one-time funnel purchase writes here, inside its transaction
  Prog.transaction fun startedAt => do
    let purchasedAt ← Prog.now
    let purchase ← upsertPurchase (stripeKey args.stripePaymentIntentId)
      { id := ""
        projectId := args.projectId
        subscriberId := args.subscriberId
        productId := args.productId
        originalTransactionId := args.stripePaymentIntentId
        status := .active
        purchaseDate := purchasedAt
        autoRenewStatus := some false
        verifiedAt := some purchasedAt
        createdAt := startedAt }
      { status := some .active, verifiedAt := some (some purchasedAt) }
    Prog.forEach args.accessIds fun accessId => do
      let existing ← Prog.query
        (findAccessByPurchaseAndAccessId args.subscriberId purchase.id accessId)
      match existing with
      | some existing => setAccessActiveAndExpiry existing.1 true none
      | none =>
        createAccess
          { subscriberId := args.subscriberId
            purchaseId := purchase.id
            accessId := accessId
            isActive := true
            expiresDate := none
            store := .stripe }

end Rovenue
