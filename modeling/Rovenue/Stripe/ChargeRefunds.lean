import Rovenue.Revenue.RevenueEvents
import Rovenue.Text.Decimal

/-! The refunds of a charge, recorded event by event. An event carries what has been refunded so
far in all, and mostly the refunds themselves. -/

namespace Rovenue.Stripe
open Revenue Text Threads

structure RefundedCharge where
  invoice : Option String
  amountRefunded : Option ℕ
  -- the amounts of `refunds.data`
  refunds : Option (List ℕ)
  currency : Option String := none
  country : Option String := none

def RefundedCharge.refunded (charge : RefundedCharge) : ℕ :=
  ((charge.refunds.bind List.head?).or charge.amountRefunded).getD 0

/-- A `charge.refunded` event. -/
structure ChargeRefunded where
  id : String
  created : ℤ
  charge : RefundedCharge

structure RefundedPurchase (M : Type) where
  id : String
  subscriberId : String
  productId : String
  priceCurrency : Option String := none
  presentedContext : Option M := none

structure RefundLookups (M : Type) where
  projectId : String
  invoiceSubscription : String → Option String
  findPurchaseByStoreTransaction : String → Option (RefundedPurchase M)
  normalizeAlpha2Country : Option String → Option String

variable {M : Type}

def RefundLookups.purchase (lookups : RefundLookups M) (charge : RefundedCharge) :
    Option (RefundedPurchase M) := do
  let invoiceId ← charge.invoice.filter (· ≠ "")
  let subscriptionId ← (lookups.invoiceSubscription invoiceId).filter (· ≠ "")
  lookups.findPurchaseByStoreTransaction subscriptionId

def refundKey (eventId : String) : String := "stripe:" ++ eventId ++ ":refund"

def refundInput (lookups : RefundLookups M) (event : ChargeRefunded)
    (purchase : RefundedPurchase M) (now : ℤ) (amountUsd : String) : CreateRevenueEventInput M where
  -- what is recorded of an event; `now` stands in for an event without a date
  projectId := lookups.projectId
  subscriberId := purchase.subscriberId
  purchaseId := purchase.id
  productId := purchase.productId
  type := .refund
  amount := String.ofList (hundredthsText event.charge.refunded)
  currency := ((event.charge.currency.map String.toUpper).or purchase.priceCurrency).getD "USD"
  amountUsd := amountUsd
  store := .stripe
  eventDate := if event.created = 0 then now else event.created * 1000
  dedupeKey := some (refundKey event.id)
  metadata := purchase.presentedContext
  country := lookups.normalizeAlpha2Country event.charge.country

inductive RefundStage (M : Type) where
  | received
  -- without an invoice, a subscription or a purchase
  | ignored
  | recording (call : Call M)
  | lost

structure RefundDelivery (M : Type) where
  event : ChargeRefunded
  stage : RefundStage M := .received

def RefundDelivery.go (t : RefundDelivery M) (stage : RefundStage M) : RefundDelivery M :=
  { t with stage := stage }

inductive RefundStep where
  -- the lookups, with the amount in dollars as it was converted
  | lookUp (now : ℤ) (amountUsd : String)
  | record (fault : Bool)
  -- an error, a lost connection or a restart
  | abandon

def refundStep (lookups : RefundLookups M) (s : RevenueDb M) (t : RefundDelivery M)
    (e : RefundStep) : RevenueDb M × RefundDelivery M :=
  match t.stage, e with
  | .received, .lookUp now amountUsd =>
    match lookups.purchase t.event.charge with
    | none => (s, t.go .ignored)
    | some purchase =>
      (s, t.go (.recording { input := refundInput lookups t.event purchase now amountUsd }))
  | .received, .abandon => (s, t.go .lost)
  | .recording call, .record fault =>
    let r := createRevenueEvent s call fault
    (r.1, t.go (.recording r.2))
  | _, _ => (s, t)

def refundDeliveries (lookups : RefundLookups M) :
    System (RevenueDb M) (RefundDelivery M) RefundStep (ℤ × ℤ) where
  step := refundStep lookups
  env s range := s.outside (.dropPartition range.1 range.2)
  reset t _ := t

/-- The event has been dealt with. -/
def RefundDelivery.Done (t : RefundDelivery M) : Prop :=
  match t.stage with
  | .ignored => True
  | .recording call => ∃ row, call.stage = .returned row
  | _ => False

structure Refund where
  amount : ℕ
  eventId : String
  created : ℤ
  -- whether its event carries the refunds
  listed : Bool

structure RefundHistory where
  invoice : Option String
  currency : Option String := none
  country : Option String := none
  refunds : List Refund
  positive : ∀ r ∈ refunds, 0 < r.amount
  distinct : (refunds.map Refund.eventId).Nodup

namespace RefundHistory
variable (h : RefundHistory)

def total : ℕ := (h.refunds.map Refund.amount).sum

def upTo (k : ℕ) : List ℕ := (h.refunds.map Refund.amount).take (k + 1)

def charge (k : Fin h.refunds.length) : RefundedCharge where
  invoice := h.invoice
  amountRefunded := some (h.upTo k).sum
  refunds := if (h.refunds.get k).listed then some (h.upTo k).reverse else none
  currency := h.currency
  country := h.country

def event (k : Fin h.refunds.length) : ChargeRefunded where
  id := (h.refunds.get k).eventId
  created := (h.refunds.get k).created
  charge := h.charge k

def start {ι : Type} (s : RevenueDb M) (which : ι → Fin h.refunds.length) :
    World ι (RevenueDb M) (RefundDelivery M) :=
  ⟨s, fun i => { event := h.event (which i) }⟩

def recordedAmount (projectId : String) (s : RevenueDb M) : ℚ :=
  (h.refunds.map fun r =>
    (((s.rowsFor (projectId, refundKey r.eventId)).filter fun row => row.type = .refund).map
      fun row => pointValue row.amount.toList).sum).sum

def AddsUp (projectId : String) (s : RevenueDb M) : Prop :=
  h.recordedAmount projectId s = h.total / 100

end RefundHistory
end Rovenue.Stripe
