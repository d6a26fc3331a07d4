import Rovenue.Google.TokenRuns
import Rovenue.Revenue.RevenueEvents

/-! Revenue for the orders of one purchase token, recorded by a notification or by a client's
receipt verification. Each path classifies the order by evidence of its own, and only then
derives the dedupe key. -/

namespace Rovenue.Google
open Threads
open Revenue

structure OrderedLineItem extends GoogleSubscriptionPurchaseLineItem where
  latestSuccessfulOrderId : Option String := none

structure SubscriptionAnswer where
  lineItems : List OrderedLineItem := []
  startTime : Option ℤ := none
  subscriptionState : GoogleSubscriptionState
  linkedPurchaseToken : Option String := none
  cancelTime : Option ℤ := none
  latestOrderId : Option String := none

def SubscriptionAnswer.purchase (answer : SubscriptionAnswer) : GoogleSubscriptionPurchaseV2 where
  lineItem := answer.lineItems.head?.map (·.toGoogleSubscriptionPurchaseLineItem)
  startTime := answer.startTime
  subscriptionState := answer.subscriptionState
  linkedPurchaseToken := answer.linkedPurchaseToken
  cancelTime := answer.cancelTime

def effectiveGoogleOrderId (answer : SubscriptionAnswer) (lineItem : Option OrderedLineItem) :
    Option String :=
  (lineItem.bind (·.latestSuccessfulOrderId)).orElse fun _ => answer.latestOrderId

def isGoogleRenewalOrderId (orderId : String) : Bool :=
  let reversed := orderId.toList.reverse
  let digits := reversed.takeWhile Char.isDigit
  !digits.isEmpty && ['.', '.'].isPrefixOf (reversed.drop digits.length)

def mapRevenueEventType : GoogleSubscriptionNotificationType → Option RevenueEventType
  | .purchased => some .initial
  | .renewed => some .renewal
  | .recovered | .restarted => some .reactivation
  | .canceled | .expired => some .cancellation
  | .revoked => some .refund
  | _ => none

def googleAccessEligibleSubscriptionStates : List GoogleSubscriptionState :=
  [.active, .inGracePeriod, .canceled]

def receiptRevenueEventType (orderId : Option String) : RevenueEventType :=
  if orderId.any isGoogleRenewalOrderId then .renewal else .initial

inductive OrderPath where
  | notification (type : GoogleSubscriptionNotificationType) (subscriptionId : String)
  -- for the product the client names, by its Google store id
  | receipt (googleStoreProductId : String)

def purchaseNotPaidMessage : String :=
  "Google purchase has not been paid yet; retry verification after payment completes"

namespace OrderPath

def lineItem (answer : SubscriptionAnswer) : OrderPath → Option OrderedLineItem
  | .notification .. => answer.lineItems.head?
  | .receipt productId => answer.lineItems.find? fun item => item.productId = productId

def orderId (answer : SubscriptionAnswer) (path : OrderPath) : Option String :=
  effectiveGoogleOrderId answer (path.lineItem answer)

def refusal (answer : SubscriptionAnswer) : OrderPath → Option String
  | .notification .. => none
  | .receipt productId =>
    if ((OrderPath.receipt productId).lineItem answer).isNone then
      some "productId does not match the verified transaction"
    else if answer.subscriptionState = .pending then some purchaseNotPaidMessage
    else none

def revenueEventType (applied : Bool) (answer : SubscriptionAnswer) :
    OrderPath → Option RevenueEventType
  -- the type of the row to record: a notification's if its status was written, a receipt's if the
  -- state is a paid one
  | .notification type _ => if applied then mapRevenueEventType type else none
  | .receipt productId =>
    if answer.subscriptionState ∈ googleAccessEligibleSubscriptionStates then
      some (receiptRevenueEventType ((OrderPath.receipt productId).orderId answer))
    else none

end OrderPath

def googleDedupeKey (name : String) (type : RevenueEventType) : String :=
  "google:" ++ name ++ ":" ++ revenueDedupeKind type

structure ReceiptWrite where
  projectId : String
  purchaseToken : String
  subscriberId : String
  productId : String
  answer : SubscriptionAnswer
  item : Option OrderedLineItem
  startTime : ℤ
  eventTime : ℤ

namespace ReceiptWrite
variable (w : ReceiptWrite)

def status : PurchaseStatus := mapSubscriptionStateToStatus w.answer.subscriptionState

def expiresDate : Option ℤ := w.item.bind (·.expiryTime)

def autoRenewStatus : Option Bool := w.item.bind (·.autoRenewEnabled)

def guard : GuardStatusWriteArgs where
  key := googleKey w.purchaseToken
  toStatus := w.status
  eventTime := some w.eventTime

def create (now startedAt : ℤ) : Purchase where
  id := ""
  projectId := w.projectId
  subscriberId := w.subscriberId
  productId := w.productId
  originalTransactionId := w.answer.linkedPurchaseToken.getD w.purchaseToken
  status := w.status
  purchaseDate := w.startTime
  expiresDate := w.expiresDate
  autoRenewStatus := w.autoRenewStatus
  verifiedAt := some now
  lastStoreEventAt := some w.eventTime
  billingIssueDetectedAt := (billingIssueStamp none w.status w.eventTime).join
  createdAt := startedAt

def refresh (now : ℤ) : PurchasePatch where
  expiresDate := some w.expiresDate
  autoRenewStatus := some w.autoRenewStatus
  verifiedAt := some (some now)

def update (decided : GuardStatusWriteResult) (now : ℤ) : PurchasePatch :=
  if decided.apply then
    { w.refresh now with
      status := some w.status
      lastStoreEventAt := some (some w.eventTime)
      billingIssueDetectedAt := billingIssueStamp decided.fromStatus w.status w.eventTime }
  else w.refresh now

def upserted (seen : Option Purchase) (startedAt insertedAt updatedAt : ℤ) (id : String) :
    Option Purchase → Purchase
  | none => { w.create insertedAt startedAt with id := id }
  | some row => StatusGuard.caseTerminal.patch (w.update (w.guard.result seen) updatedAt) row

end ReceiptWrite

structure OrderLookups where
  subscriberId : String
  productId : String
  announced : Option String := none
  readAt : ℤ

inductive OrderWrite where
  | notification (w : SubscriptionWrite)
  | receipt (w : ReceiptWrite)

namespace OrderWrite

def guard : OrderWrite → GuardStatusWriteArgs
  | .notification w => w.guard
  | .receipt w => w.guard

def upserted (seen : Option Purchase) (startedAt insertedAt updatedAt : ℤ) (id : String)
    (current : Option Purchase) : OrderWrite → Purchase
  | .notification w => w.upserted seen startedAt insertedAt updatedAt id current
  | .receipt w => w.upserted seen startedAt insertedAt updatedAt id current

end OrderWrite

def OrderPath.write (projectId purchaseToken : String) (answer : SubscriptionAnswer)
    (found : OrderLookups) (eventTime : ℤ) : OrderPath → OrderWrite
  | .notification type subscriptionId =>
    .notification (.of ⟨projectId, ⟨type, purchaseToken, subscriptionId⟩⟩ answer.purchase
      found.subscriberId found.productId found.announced found.readAt eventTime)
  | .receipt productId =>
    .receipt
      { projectId := projectId
        purchaseToken := purchaseToken
        subscriberId := found.subscriberId
        productId := found.productId
        answer := answer
        item := (OrderPath.receipt productId).lineItem answer
        startTime := answer.startTime.getD found.readAt
        eventTime := eventTime }

structure OrderState (M : Type) where
  row : Option Purchase
  locked : Bool := false
  revenue : RevenueDb M

structure RevenueFacts (M : Type) where
  amount : String
  currency : String
  amountUsd : String
  eventDate : ℤ
  metadata : Option M := none
  country : Option String := none

inductive OrderStage (M : Type) where
  | waiting
  | fetched (answer : SubscriptionAnswer)
  -- in the transaction, past the guard's read
  | opened (answer : SubscriptionAnswer) (found : OrderLookups) (w : OrderWrite)
    (seen : Option Purchase)
  | saved (answer : SubscriptionAnswer) (found : OrderLookups) (purchaseId : String)
    (applied : Bool)
  -- with the name the dedupe key gives the order
  | recording (name : String) (call : Call M)
  | finished
  | refused (msg : String)
  | lost

structure Delivery (M : Type) where
  path : OrderPath
  stage : OrderStage M := .waiting

inductive OrderEvent (M : Type) where
  | fetch (answer : SubscriptionAnswer)
  | openTx (found : OrderLookups) (eventTime : ℤ)
  | save (startedAt insertedAt updatedAt : ℤ) (id : String)
  -- `none` where no price could be resolved
  | price (facts : Option (RevenueFacts M))
  | record (fault : Bool)
  -- an error, a lost connection or a restart
  | abandon

inductive OrderEnv where
  | rewrite (row : Option Purchase)
  | revenue (d : Outside)

section Step
variable {M : Type}

def Delivery.go (t : Delivery M) (stage : OrderStage M) : Delivery M := { t with stage := stage }

def revenueInput (projectId name : String) (found : OrderLookups) (purchaseId : String)
    (type : RevenueEventType) (facts : RevenueFacts M) : CreateRevenueEventInput M where
  projectId := projectId
  subscriberId := found.subscriberId
  purchaseId := purchaseId
  productId := found.productId
  type := type
  amount := facts.amount
  currency := facts.currency
  amountUsd := facts.amountUsd
  store := .playStore
  eventDate := facts.eventDate
  dedupeKey := some (googleDedupeKey name type)
  metadata := facts.metadata
  country := facts.country

def orderStep (projectId purchaseToken : String) (s : OrderState M) (t : Delivery M)
    (e : OrderEvent M) : OrderState M × Delivery M :=
  match t.stage, e with
  | .waiting, .fetch answer =>
    match t.path.refusal answer with
    | some msg => (s, t.go (.refused msg))
    | none => (s, t.go (.fetched answer))
  | .fetched answer, .openTx found eventTime =>
    let w := t.path.write projectId purchaseToken answer found eventTime
    match s.row with
    | none => (s, t.go (.opened answer found w none))
    | some row =>
      if s.locked then (s, t)
      else ({ s with locked := true }, t.go (.opened answer found w (some row)))
  | .opened answer found w seen, .save startedAt insertedAt updatedAt id =>
    -- the upsert waits for a row that another transaction has locked
    if seen.isSome || !s.locked then
      let row := w.upserted seen startedAt insertedAt updatedAt id s.row
      ({ s with row := some row, locked := false },
        t.go (.saved answer found row.id (w.guard.admits seen)))
    else (s, t)
  | .saved answer found purchaseId applied, .price facts =>
    match t.path.revenueEventType applied answer, facts with
    | some type, some facts =>
      let name := (t.path.orderId answer).getD purchaseToken
      (s, t.go (.recording name
        { input := revenueInput projectId name found purchaseId type facts }))
    | _, _ => (s, t.go .finished)
  | .recording name call, .record fault =>
    let r := createRevenueEvent s.revenue call fault
    ({ s with revenue := r.1 }, t.go (.recording name r.2))
  | .opened _ _ _ seen, .abandon => ({ s with locked := s.locked && !seen.isSome }, t.go .lost)
  | .waiting, .abandon | .fetched _, .abandon | .saved .., .abandon => (s, t.go .lost)
  | _, _ => (s, t)

def orderEnv (s : OrderState M) : OrderEnv → OrderState M
  | .rewrite row => if s.locked then s else { s with row := row }
  | .revenue d => { s with revenue := s.revenue.outside d }

def orderSystem (M : Type) (projectId purchaseToken : String) :
    System (OrderState M) (Delivery M) (OrderEvent M) OrderEnv where
  step := orderStep projectId purchaseToken
  env := orderEnv
  reset t _ := t

abbrev OrderWorld (ι M : Type) := World ι (OrderState M) (Delivery M)

def orderStart {ι : Type} (row : Option Purchase) (purchases : Txn.Table String (Option String))
    (path : ι → OrderPath) : OrderWorld ι M :=
  ⟨{ row := row, revenue := { purchases := purchases } }, fun i => { path := path i }⟩

end Step

end Rovenue.Google
