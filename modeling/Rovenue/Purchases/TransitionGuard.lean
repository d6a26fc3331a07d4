import Rovenue.Purchases.Repository

/-! The guard on status writes: a locked read of the row, its event time
against the delivery's, then the transition machine. -/

namespace Rovenue
open Txn

structure GuardStatusWriteArgs where
  key : PurchaseKey
  toStatus : PurchaseStatus
  allowFrom : List PurchaseStatus := []
  -- `none` leaves the order of deliveries unchecked
  eventTime : Option ℤ := none

structure GuardStatusWriteResult where
  apply : Bool
  purchaseId : Option String
  fromStatus : Option PurchaseStatus
  toStatus : PurchaseStatus
  previous : Option Purchase

def staleFor (eventTime : Option ℤ) (row : Purchase) : Bool :=
  eventTime.any fun t => row.lastStoreEventAt.any (t < ·)

def GuardStatusWriteArgs.admits (args : GuardStatusWriteArgs) : Option Purchase → Bool
  | none => true
  | some row => !staleFor args.eventTime row &&
      ((decideTransition (some row.status) args.toStatus).apply || row.status ∈ args.allowFrom)

def GuardStatusWriteArgs.result (args : GuardStatusWriteArgs) (current : Option Purchase) :
    GuardStatusWriteResult where
  apply := args.admits current
  purchaseId := current.map Purchase.id
  fromStatus := current.map Purchase.status
  toStatus := args.toStatus
  previous := current

def guardStatusWrite (args : GuardStatusWriteArgs) : Service GuardStatusWriteResult := do
  let current ← lockPurchaseStatusByStoreTransaction args.key
  pure (args.result current)

theorem admits_status {args : GuardStatusWriteArgs} {row : Purchase}
    (h : args.admits (some row) = true) :
    validateTransition row.status args.toStatus = true ∨ row.status ∈ args.allowFrom := by
  simp only [GuardStatusWriteArgs.admits, decideTransition, Bool.and_eq_true, Bool.or_eq_true,
    decide_eq_true_eq] at h
  exact h.2

theorem admits_eventTime {args : GuardStatusWriteArgs} {row : Purchase} {t last : ℤ}
    (h : args.admits (some row) = true) (ht : args.eventTime = some t)
    (hlast : row.lastStoreEventAt = some last) : last ≤ t := by
  simp only [GuardStatusWriteArgs.admits, staleFor, ht, hlast, Option.any_some, Bool.and_eq_true,
    Bool.not_eq_true', decide_eq_false_iff_not, not_lt] at h
  exact h.1

@[simp] theorem returns_guardStatusWrite {args : GuardStatusWriteArgs}
    {c c' : Session Db Write String} {r : GuardStatusWriteResult} :
    (guardStatusWrite args).Returns c r c' ↔
      args.result (c.view.purchases.get? args.key) = r ∧ c = c' := by
  simp [guardStatusWrite, lockPurchaseStatusByStoreTransaction, and_comm]

def pendingPlanChangeFields (writtenProductId : String) (announcedProductId : Option String)
    (changeType : Option PlanChangeType) (effectiveAt : Option ℤ) : PendingPlanChange :=
  match announcedProductId with
  | none => {}
  | some announced =>
    if announced = writtenProductId then {}
    else
      { pendingProductId := some announced
        pendingChangeType := changeType
        pendingChangeEffectiveAt := effectiveAt }

end Rovenue

/-! A refund that an operator issues against the store, and the access it revokes ahead of the
store's webhook. -/

namespace Rovenue
open Txn

inductive RefundCode where
  | appleUnsupported | alreadyRefunded | missingStoreRef | storeError
  deriving DecidableEq, Repr

inductive RefundResult where
  | ok (store reference : String)
  | rejected (code : RefundCode) (message : String)
  deriving DecidableEq, Repr

structure RefundedPurchase where
  id : String
  productId : String
  key : PurchaseKey
  status : PurchaseStatus

/-- The stores' answers: `none` where the project has no connection or no credentials. -/
structure RefundStores where
  -- `refunds.create`, for a charge or a payment intent, under an idempotency key
  stripe : Option (Bool → String → String → Except String String)
  -- the order id of a purchase token
  googleOrderId : Option (String → String → Except String (Option String))
  -- `orders.refund`
  googleRefund : String → Except String Unit

namespace RefundStores

def refundStripe (stores : RefundStores) (purchase : RefundedPurchase) (ref : String) :
    RefundResult :=
  match stores.stripe with
  | none => .rejected .storeError "No Stripe connection for this project."
  | some refund =>
    match refund (ref.startsWith "pi_") ref ("refund_" ++ purchase.id) with
    | .ok reference => .ok "stripe" reference
    | .error msg => .rejected .storeError msg

def refundPlay (stores : RefundStores) (purchase : RefundedPurchase) (ref : String) :
    RefundResult :=
  match stores.googleOrderId with
  | none => .rejected .storeError "Google Play credentials not configured for this project."
  | some orderIdOf =>
    match orderIdOf purchase.productId ref with
    | .error msg => .rejected .storeError msg
    | .ok orderId =>
      match orderId.filter (· ≠ "") with
      | none =>
        .rejected .storeError "Could not resolve the Google order id for this purchase token."
      | some orderId =>
        match stores.googleRefund orderId with
        | .ok () => .ok "play" orderId
        | .error msg => .rejected .storeError msg

end RefundStores

def refundAtStore (stores : RefundStores) (purchase : RefundedPurchase) : RefundResult :=
  if purchase.key.store = .appStore then
    .rejected .appleUnsupported
      "Apple processes App Store refunds; no merchant-initiated refund is available."
  else if purchase.status ∈ terminalStatuses then
    .rejected .alreadyRefunded "This transaction is already refunded or revoked."
  else if purchase.key.storeTransactionId = "" then
    .rejected .missingStoreRef "No store transaction reference on this purchase."
  else match purchase.key.store with
    | .stripe => stores.refundStripe purchase purchase.key.storeTransactionId
    | .playStore => stores.refundPlay purchase purchase.key.storeTransactionId
    | .manual => .rejected .storeError "Refund unsupported for store \"MANUAL\"."
    | .appStore => .rejected .storeError "Refund unsupported for store \"APP_STORE\"."

def operatorRefund (key : PurchaseKey) (now : ℤ) : GuardStatusWriteArgs where
  key := key
  toStatus := .refunded
  eventTime := some now

def revokeAccessAfterRefund (purchase : RefundedPurchase) (statements : ℕ) : Service Unit := do
  -- `statements` of its three statements reach the database before an error, if there is one, and
  -- the error is swallowed
  let now ← Prog.now
  if statements = 0 then pure ()
  else do
    let guard ← (guardStatusWrite (operatorRefund purchase.key now)).autocommit
    if guard.apply ∧ 2 ≤ statements then do
      (updatePurchase purchase.key
        { status := some .refunded
          refundDate := some (some now)
          lastStoreEventAt := some (some now) }).autocommit
      if 3 ≤ statements then (revokeAccessByPurchaseId purchase.id).autocommit
      else pure ()
    else pure ()

def refundTransaction (stores : RefundStores) (purchase : RefundedPurchase) (statements : ℕ) :
    Service RefundResult :=
  match refundAtStore stores purchase with
  | .ok store reference => do
    revokeAccessAfterRefund purchase statements
    pure (.ok store reference)
  | .rejected code message => pure (.rejected code message)

end Rovenue
