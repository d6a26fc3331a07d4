import Rovenue.Subscription.Status
import Rovenue.Txn.Session

/-! Entitlements derived from purchases, written to `subscriber_access` and
read back from it. -/

namespace Rovenue
open Txn

structure PurchaseWithAccessIds where
  id : String
  status : PurchaseStatus
  expiresDate : Option ℤ
  gracePeriodExpires : Option ℤ
  store : Store
  accessIds : List String
  deriving DecidableEq

structure DesiredAccess where
  purchaseId : String
  expiresDate : Option ℤ
  store : Store
  deriving DecidableEq

def isLaterExpiry (a b : Option ℤ) : Bool :=
  match a, b with
  | none, none => false
  | none, some _ => true
  | some _, none => false
  | some a, some b => b < a

def entitlementExpiry (status : PurchaseStatus) (expiresDate gracePeriodExpires : Option ℤ) :
    Option ℤ :=
  if status ≠ .gracePeriod then expiresDate
  else match expiresDate, gracePeriodExpires with
    | none, _ => none
    | some e, none => some e
    | some e, some grace => if e < grace then some grace else some e

def PurchaseWithAccessIds.expiry (p : PurchaseWithAccessIds) : Option ℤ :=
  entitlementExpiry p.status p.expiresDate p.gracePeriodExpires

def PurchaseWithAccessIds.grantsAt (p : PurchaseWithAccessIds) (now : ℤ) : Bool :=
  p.status ∈ accessGrantingStatuses && !p.expiry.any (· < now)

def PurchaseWithAccessIds.desire (p : PurchaseWithAccessIds)
    (desired : Table String DesiredAccess) (accessId : String) : Table String DesiredAccess :=
  if (desired.get? accessId).all fun existing => isLaterExpiry p.expiry existing.expiresDate then
    desired.set accessId ⟨p.id, p.expiry, p.store⟩
  else desired

def computeDesiredAccess (purchases : List PurchaseWithAccessIds) (now : ℤ) :
    Table String DesiredAccess :=
  purchases.foldl (fun desired p =>
    if p.grantsAt now then p.accessIds.foldl p.desire desired else desired) .empty

abbrev AccessRecord := String × SubscriberAccess

def withAccessIds (subscriberId : String) (products : Table String Product)
    (purchases : List (PurchaseKey × Purchase)) : List PurchaseWithAccessIds :=
  (purchases.filter fun e => e.2.subscriberId = subscriberId).filterMap fun e =>
    (products.get? e.2.productId).map fun product =>
      { id := e.2.id
        status := e.2.status
        expiresDate := e.2.expiresDate
        gracePeriodExpires := e.2.gracePeriodExpires
        store := e.1.store
        accessIds := product.accessIds }

def findPurchasesWithAccessIds (subscriberId : String) (s : Db) : List PurchaseWithAccessIds :=
  withAccessIds subscriberId s.products s.purchases.entries

def findAllAccessBySubscriber (subscriberId : String) (s : Db) : List AccessRecord :=
  s.subscriberAccess.entries.filter fun e => e.2.subscriberId = subscriberId

def SubscriberAccess.liveAt (r : SubscriberAccess) (now : ℤ) : Bool :=
  r.isActive && r.expiresDate.all (now < ·)

def findActiveAccess (subscriberId : String) (now : ℤ) (s : Db) : List AccessRecord :=
  (findAllAccessBySubscriber subscriberId s).filter fun e => e.2.liveAt now

def updateAccess (id : String) (set : AccessPatch) : Service Unit :=
  Prog.exec (fun _ => [.access id]) (fun _ => [.updateAccess id set]) fun _ => ()

def setAccessActive (id : String) (isActive : Bool) : Service Unit :=
  updateAccess id { isActive := some isActive }

def setAccessActiveAndExpiry (id : String) (isActive : Bool) (expiresDate : Option ℤ) :
    Service Unit :=
  updateAccess id { isActive := some isActive, expiresDate := some expiresDate }

def createAccess (row : SubscriberAccess) : Service Unit := do
  let id ← Prog.fresh
  Prog.exec (fun _ => [.access id]) (fun _ => [.insertAccess id row]) fun _ => ()

def accessIdsForPurchases (purchaseIds : List String) (s : Db) : List String :=
  (s.subscriberAccess.entries.filter fun e => e.2.purchaseId ∈ purchaseIds).map Prod.fst

def revokeAccess (ids : Db → List String) : Service Unit :=
  -- `UPDATE subscriber_access SET isActive = false` on the rows a query picks
  Prog.exec (fun s => (ids s).map .access)
    (fun s => (ids s).map fun id => .updateAccess id { isActive := some false }) fun _ => ()

def revokeAccessByPurchaseId (purchaseId : String) : Service Unit :=
  revokeAccess (accessIdsForPurchases [purchaseId])

def chainPurchaseIds (projectId originalTransactionId : String) (s : Db) : List String :=
  (s.purchases.entries.filter fun e => e.2.projectId = projectId ∧
    e.2.originalTransactionId = originalTransactionId).map fun e => e.2.id

def revokeAccessByOriginalTransaction (projectId originalTransactionId : String) :
    Service Unit := do
  let ids ← Prog.query fun s =>
    accessIdsForPurchases (chainPurchaseIds projectId originalTransactionId s) s
  revokeAccess fun _ => ids

def sourceRecord (current : List AccessRecord) (accessId purchaseId : String) :
    Option AccessRecord :=
  current.find? fun r => r.2.accessId = accessId ∧ r.2.purchaseId = purchaseId

def isSource (desired : Table String DesiredAccess) (r : SubscriberAccess) : Bool :=
  (desired.get? r.accessId).any fun target => target.purchaseId = r.purchaseId

def deactivateStale (desired : Table String DesiredAccess) (record : AccessRecord) :
    Service Unit :=
  if !isSource desired record.2 && record.2.isActive then setAccessActive record.1 false
  else pure ()

def repairAccess (subscriberId : String) (current : List AccessRecord)
    (entry : String × DesiredAccess) : Service Unit :=
  match sourceRecord current entry.1 entry.2.purchaseId with
  | some existing =>
    if !existing.2.isActive || existing.2.expiresDate ≠ entry.2.expiresDate then
      setAccessActiveAndExpiry existing.1 true entry.2.expiresDate
    else pure ()
  | none =>
    createAccess
      { subscriberId := subscriberId
        purchaseId := entry.2.purchaseId
        accessId := entry.1
        isActive := true
        expiresDate := entry.2.expiresDate
        store := entry.2.store }

def syncAccess (subscriberId : String) : Service Unit :=
  Prog.transaction fun _ => do
    Prog.acquire (.advisory subscriberId)
    let purchases ← Prog.query (findPurchasesWithAccessIds subscriberId)
    let now ← Prog.now
    let desired := computeDesiredAccess purchases now
    let current ← Prog.query (findAllAccessBySubscriber subscriberId)
    Prog.forEach current (deactivateStale desired)
    Prog.forEach desired.entries (repairAccess subscriberId current)

theorem updateAccess_each (id : String) (set : AccessPatch) :
    (updateAccess id set).Each fun _ ws => ∀ w ∈ ws, w.OnAccess :=
  Prog.each_exec fun _ => by simp [Write.OnAccess]

theorem syncAccess_each (subscriberId : String) :
    (syncAccess subscriberId).Each fun _ ws => ∀ w ∈ ws, w.OnAccess := by
  have hnil : ∀ _ : Db, ∀ w ∈ ([] : List Write), w.OnAccess := by simp
  refine Prog.Each.transaction fun _ => ?_
  refine (Prog.each_acquire hnil _).bind fun _ => ?_
  refine (Prog.each_query hnil _).bind fun purchases => fun now => ?_
  refine (Prog.each_query hnil _).bind fun current => ?_
  refine (Prog.each_forEach _ fun record _ => ?_).bind fun _ =>
    Prog.each_forEach _ fun entry _ => ?_
  · unfold deactivateStale setAccessActive
    split_ifs
    · exact updateAccess_each _ _
    · trivial
  · unfold repairAccess setAccessActiveAndExpiry
    cases sourceRecord current entry.1 entry.2.purchaseId with
    | none => exact fun _ => Prog.each_exec fun _ => by simp [Write.OnAccess]
    | some existing =>
      dsimp only
      split_ifs
      · exact updateAccess_each _ _
      · trivial

structure ActiveAccessEntry where
  isActive : Bool
  expiresDate : Option ℤ
  store : Store
  purchaseId : String
  deriving DecidableEq

def addActiveAccess (result : Table String ActiveAccessEntry) (record : AccessRecord) :
    Table String ActiveAccessEntry :=
  if (result.get? record.2.accessId).all fun existing =>
      isLaterExpiry record.2.expiresDate existing.expiresDate then
    result.set record.2.accessId
      ⟨record.2.isActive, record.2.expiresDate, record.2.store, record.2.purchaseId⟩
  else result

def activeAccessAt (subscriberId : String) (now : ℤ) (s : Db) : Table String ActiveAccessEntry :=
  (findActiveAccess subscriberId now s).foldl addActiveAccess .empty

def getActiveAccess (subscriberId : String) : Service (Table String ActiveAccessEntry) := do
  let now ← Prog.now
  Prog.query (activeAccessAt subscriberId now)

def hasAccess (subscriberId accessId : String) : Service Bool := do
  let now ← Prog.now
  Prog.query fun s => (findActiveAccess subscriberId now s).any fun r => r.2.accessId = accessId

end Rovenue
