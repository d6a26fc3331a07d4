import Rovenue.Txn.Program
import Rovenue.Txn.Table

/-! The tables the services read and write, one record a row, and the
statements' effects on them. Instants are whole milliseconds. -/

namespace Rovenue
open Txn

inductive Store where
  | appStore | playStore | stripe | manual
  deriving DecidableEq, Repr

inductive PurchaseStatus where
  | trial | active | expired | refunded | revoked | paused | gracePeriod | billingIssue
  deriving DecidableEq, Repr

inductive CreditLedgerType where
  | purchase | spend | refund | bonus | expire | transferIn | transferOut
  deriving DecidableEq, Repr

inductive CurrencyGrantTrigger where
  | purchase | renewal | both
  deriving DecidableEq, Repr

inductive PlanChangeType where
  | upgrade | downgrade
  deriving DecidableEq, Repr

structure Subscriber where
  projectId : String
  rovenueId : String
  appUserId : Option String := none
  deletedAt : Option ℤ := none
  mergedInto : Option String := none
  identifiedAt : Option ℤ := none
  appleAppAccountToken : Option String := none
  deriving DecidableEq

structure CreditLedgerRow where
  id : String
  projectId : String
  subscriberId : String
  type : CreditLedgerType
  currencyId : String
  amount : ℤ
  balance : ℤ
  referenceType : Option String := none
  referenceId : Option String := none
  description : Option String := none
  createdAt : ℤ
  deriving DecidableEq

structure Product where
  projectId : String
  identifier : String
  storeIds : List (String × String) := []
  accessIds : List String := []
  deriving DecidableEq

structure ProductCurrencyGrant where
  amount : ℤ
  grantOn : CurrencyGrantTrigger := .purchase
  deriving DecidableEq

/-- `purchases_store_storeTransactionId_key`, the unique index every ingestion
path upserts on. -/
structure PurchaseKey where
  store : Store
  storeTransactionId : String
  deriving DecidableEq

structure PendingPlanChange where
  pendingProductId : Option String := none
  pendingChangeType : Option PlanChangeType := none
  pendingChangeEffectiveAt : Option ℤ := none
  deriving DecidableEq

structure Purchase where
  id : String
  projectId : String
  subscriberId : String
  productId : String
  originalTransactionId : String
  status : PurchaseStatus
  isTrial : Bool := false
  purchaseDate : ℤ := 0
  expiresDate : Option ℤ := none
  gracePeriodExpires : Option ℤ := none
  autoRenewStatus : Option Bool := none
  cancellationDate : Option ℤ := none
  refundDate : Option ℤ := none
  verifiedAt : Option ℤ := none
  lastStoreEventAt : Option ℤ := none
  billingIssueDetectedAt : Option ℤ := none
  pending : PendingPlanChange := {}
  createdAt : ℤ := 0
  deriving DecidableEq

structure SubscriberAccess where
  subscriberId : String
  purchaseId : String
  accessId : String
  isActive : Bool := true
  expiresDate : Option ℤ
  store : Store
  deriving DecidableEq

structure Db where
  subscribers : Table String Subscriber := .empty
  purchases : Table PurchaseKey Purchase := .empty
  products : Table String Product := .empty
  -- keyed by `(productId, currencyId)`, its unique index
  productCurrencyGrants : Table (String × String) ProductCurrencyGrant := .empty
  subscriberAccess : Table String SubscriberAccess := .empty
  -- in the order the rows were committed
  creditLedger : List CreditLedgerRow := []

structure SubscriberPatch where
  appUserId : Option String := none
  identifiedAt : Option ℤ := none
  deletedAt : Option ℤ := none
  mergedInto : Option String := none
  appleAppAccountToken : Option String := none

def SubscriberPatch.apply (p : SubscriberPatch) (r : Subscriber) : Subscriber :=
  { r with
    appUserId := p.appUserId.orElse fun _ => r.appUserId
    identifiedAt := p.identifiedAt.orElse fun _ => r.identifiedAt
    deletedAt := p.deletedAt.orElse fun _ => r.deletedAt
    mergedInto := p.mergedInto.orElse fun _ => r.mergedInto
    appleAppAccountToken := p.appleAppAccountToken.orElse fun _ => r.appleAppAccountToken }

structure PurchasePatch where
  subscriberId : Option String := none
  productId : Option String := none
  status : Option PurchaseStatus := none
  isTrial : Option Bool := none
  expiresDate : Option (Option ℤ) := none
  gracePeriodExpires : Option (Option ℤ) := none
  autoRenewStatus : Option (Option Bool) := none
  cancellationDate : Option (Option ℤ) := none
  refundDate : Option (Option ℤ) := none
  verifiedAt : Option (Option ℤ) := none
  lastStoreEventAt : Option (Option ℤ) := none
  billingIssueDetectedAt : Option (Option ℤ) := none
  pending : Option PendingPlanChange := none

def PurchasePatch.apply (p : PurchasePatch) (r : Purchase) : Purchase :=
  { r with
    subscriberId := p.subscriberId.getD r.subscriberId
    productId := p.productId.getD r.productId
    status := p.status.getD r.status
    isTrial := p.isTrial.getD r.isTrial
    expiresDate := p.expiresDate.getD r.expiresDate
    gracePeriodExpires := p.gracePeriodExpires.getD r.gracePeriodExpires
    autoRenewStatus := p.autoRenewStatus.getD r.autoRenewStatus
    cancellationDate := p.cancellationDate.getD r.cancellationDate
    refundDate := p.refundDate.getD r.refundDate
    verifiedAt := p.verifiedAt.getD r.verifiedAt
    lastStoreEventAt := p.lastStoreEventAt.getD r.lastStoreEventAt
    billingIssueDetectedAt := p.billingIssueDetectedAt.getD r.billingIssueDetectedAt
    pending := p.pending.getD r.pending }

structure AccessPatch where
  subscriberId : Option String := none
  isActive : Option Bool := none
  expiresDate : Option (Option ℤ) := none

def AccessPatch.apply (p : AccessPatch) (r : SubscriberAccess) : SubscriberAccess :=
  { r with
    subscriberId := p.subscriberId.getD r.subscriberId
    isActive := p.isActive.getD r.isActive
    expiresDate := p.expiresDate.getD r.expiresDate }

def repoTerminalStatuses : List PurchaseStatus := [.refunded, .revoked]

/-- What an `UPDATE purchases` asks of the row it meets. -/
inductive StatusGuard where
  -- `SET status = …` whatever the row
  | unguarded
  -- `SET status = CASE WHEN status IN (terminal) THEN status ELSE … END`
  | caseTerminal
  -- `… WHERE status NOT IN (terminal)`
  | notTerminal
  -- `… WHERE status = s`
  | whenStatus (s : PurchaseStatus)
  deriving DecidableEq

def StatusGuard.patch (g : StatusGuard) (p : PurchasePatch) (r : Purchase) : Purchase :=
  match g with
  | .unguarded => p.apply r
  | .caseTerminal =>
    if r.status ∈ repoTerminalStatuses then { p with status := none }.apply r else p.apply r
  | .notTerminal => if r.status ∈ repoTerminalStatuses then r else p.apply r
  | .whenStatus s => if r.status = s then p.apply r else r

/-- Statements by row. `found` is not a column: it is the balance the writer had
read for the wallet when it computed the new one. -/
inductive Write where
  | insertCreditLedger (found : ℤ) (row : CreditLedgerRow)
  | updateSubscriber (id : String) (set : SubscriberPatch)
  | insertSubscriber (id : String) (row : Subscriber)
  | insertPurchase (key : PurchaseKey) (row : Purchase)
  | updatePurchase (key : PurchaseKey) (guard : StatusGuard) (set : PurchasePatch)
  | insertAccess (id : String) (row : SubscriberAccess)
  | updateAccess (id : String) (set : AccessPatch)

def Db.write (s : Db) : Write → Db
  | .insertCreditLedger _ row => { s with creditLedger := s.creditLedger ++ [row] }
  | .updateSubscriber id set => { s with subscribers := s.subscribers.modify id set.apply }
  | .insertSubscriber id row => { s with subscribers := s.subscribers.insert id row }
  | .insertPurchase key row => { s with purchases := s.purchases.insert key row }
  | .updatePurchase key guard set =>
    { s with purchases := s.purchases.modify key (guard.patch set) }
  | .insertAccess id row => { s with subscriberAccess := s.subscriberAccess.insert id row }
  | .updateAccess id set => { s with subscriberAccess := s.subscriberAccess.modify id set.apply }

instance : Database Db Write := ⟨Db.write⟩

inductive LockKey where
  | advisory (key : String)
  | subscriber (id : String)
  | purchase (key : PurchaseKey)
  | access (id : String)
  deriving DecidableEq

def freshIds (n : ℕ) : String := String.ofList (List.replicate (n + 1) 'x')

theorem freshIds_injective : Function.Injective freshIds := by
  intro m n h
  have hlist := congrArg List.length (String.ofList_injective h)
  simpa using hlist

abbrev Service (α : Type) := Prog Db LockKey Write String α

@[simp] theorem apply_eq (s : Db) (w : Write) : Database.apply s w = s.write w := rfl

def Write.OnLedger : Write → Prop
  | .insertCreditLedger .. => True
  | _ => False

def Write.OnPurchases : Write → Prop
  | .insertPurchase .. | .updatePurchase .. => True
  | _ => False

def Write.OnAccess : Write → Prop
  | .insertAccess .. | .updateAccess .. => True
  | _ => False

def Write.OnSubscribers : Write → Prop
  | .insertSubscriber .. | .updateSubscriber .. => True
  | _ => False

variable (s : Db) (w : Write) (ws : List Write)

@[simp] theorem write_products : (s.write w).products = s.products := by cases w <;> rfl

@[simp] theorem write_grants :
    (s.write w).productCurrencyGrants = s.productCurrencyGrants := by cases w <;> rfl

theorem write_creditLedger (h : ¬w.OnLedger) : (s.write w).creditLedger = s.creditLedger := by
  cases w with
  | insertCreditLedger found row => exact absurd trivial h
  | _ => rfl

theorem write_purchases (h : ¬w.OnPurchases) : (s.write w).purchases = s.purchases := by
  cases w with
  | insertPurchase key row => exact absurd trivial h
  | updatePurchase key guard set => exact absurd trivial h
  | _ => rfl

theorem write_subscriberAccess (h : ¬w.OnAccess) :
    (s.write w).subscriberAccess = s.subscriberAccess := by
  cases w with
  | insertAccess id row => exact absurd trivial h
  | updateAccess id set => exact absurd trivial h
  | _ => rfl

theorem write_subscribers (h : ¬w.OnSubscribers) : (s.write w).subscribers = s.subscribers := by
  cases w with
  | insertSubscriber id row => exact absurd trivial h
  | updateSubscriber id set => exact absurd trivial h
  | _ => rfl

@[simp] theorem applyAll_products : (applyAll s ws).products = s.products :=
  applyAll_congr Db.products (fun w _ s => write_products s w) s

@[simp] theorem applyAll_grants :
    (applyAll s ws).productCurrencyGrants = s.productCurrencyGrants :=
  applyAll_congr Db.productCurrencyGrants (fun w _ s => write_grants s w) s

theorem applyAll_purchases (h : ∀ w ∈ ws, ¬w.OnPurchases) :
    (applyAll s ws).purchases = s.purchases :=
  applyAll_congr Db.purchases (fun w hw s => write_purchases s w (h w hw)) s

theorem applyAll_subscriberAccess (h : ∀ w ∈ ws, ¬w.OnAccess) :
    (applyAll s ws).subscriberAccess = s.subscriberAccess :=
  applyAll_congr Db.subscriberAccess (fun w hw s => write_subscriberAccess s w (h w hw)) s

theorem applyAll_subscribers (h : ∀ w ∈ ws, ¬w.OnSubscribers) :
    (applyAll s ws).subscribers = s.subscribers :=
  applyAll_congr Db.subscribers (fun w hw s => write_subscribers s w (h w hw)) s

variable {g : StatusGuard} {p : PurchasePatch} {r : Purchase}

@[simp] theorem PurchasePatch.apply_status : (p.apply r).status = p.status.getD r.status := rfl

theorem PurchasePatch.apply_keeps_status (h : p.status = none) : (p.apply r).status = r.status := by
  rw [apply_status, h, Option.getD_none]

theorem StatusGuard.patch_cases (g : StatusGuard) (p : PurchasePatch) (r : Purchase) :
    g.patch p r = p.apply r ∨ g.patch p r = { p with status := none }.apply r ∨ g.patch p r = r := by
  cases g with
  | unguarded => exact .inl rfl
  | caseTerminal =>
    by_cases h : r.status ∈ repoTerminalStatuses
    · exact .inr (.inl (if_pos h))
    · exact .inl (if_neg h)
  | notTerminal =>
    by_cases h : r.status ∈ repoTerminalStatuses
    · exact .inr (.inr (if_pos h))
    · exact .inl (if_neg h)
  | whenStatus s =>
    by_cases h : r.status = s
    · exact .inl (if_pos h)
    · exact .inr (.inr (if_neg h))

theorem StatusGuard.patch_congr {β : Type} (f : Purchase → β) (g : StatusGuard)
    (h : ∀ status, f ({ p with status := status }.apply r) = f r) : f (g.patch p r) = f r := by
  obtain hg | hg | hg := g.patch_cases p r
  · rw [hg]
    exact h p.status
  · rw [hg]
    exact h none
  · rw [hg]

@[simp] theorem StatusGuard.patch_id : (g.patch p r).id = r.id :=
  g.patch_congr Purchase.id fun _ => rfl

theorem StatusGuard.patch_productId (g : StatusGuard) {p : PurchasePatch}
    (hp : p.productId = none) (r : Purchase) : (g.patch p r).productId = r.productId :=
  g.patch_congr Purchase.productId fun _ => by simp [PurchasePatch.apply, hp]

theorem StatusGuard.patch_open (hr : r.status ∉ repoTerminalStatuses) :
    StatusGuard.caseTerminal.patch p r = p.apply r := if_neg hr

theorem StatusGuard.patch_terminal (hr : r.status ∈ repoTerminalStatuses)
    (hg : g = .unguarded → p.status = none)
    (hs : ∀ s, g = .whenStatus s → s ∉ repoTerminalStatuses ∨ p.status = none) :
    (g.patch p r).status = r.status := by
  cases g with
  | unguarded => exact PurchasePatch.apply_keeps_status (hg rfl)
  | caseTerminal => simp [StatusGuard.patch, hr]
  | notTerminal => simp [StatusGuard.patch, hr]
  | whenStatus s =>
    obtain hs | hs := hs s rfl
    · rw [StatusGuard.patch, if_neg fun h : r.status = s => hs (h ▸ hr)]
    · simp only [StatusGuard.patch]
      split_ifs
      · exact PurchasePatch.apply_keeps_status hs
      · rfl

end Rovenue
