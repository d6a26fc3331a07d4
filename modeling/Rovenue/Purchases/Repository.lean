import Rovenue.Subscription.Status
import Rovenue.Access.AccessEngine
import Rovenue.Subscribers

/-! The statements on `purchases`. A row's primary key and its
`(store, storeTransactionId)` name the same row, so an update by id is stated on
the latter. -/

namespace Rovenue
open Txn

abbrev PurchaseRecord := PurchaseKey × Purchase

def purchasesWhere (p : PurchaseRecord → Bool) (s : Db) : List PurchaseRecord :=
  s.purchases.entries.filter p

def findPurchaseByStoreTransaction (projectId : String) (key : PurchaseKey) (s : Db) :
    Option Purchase :=
  (s.purchases.get? key).filter fun row => row.projectId = projectId

def lockPurchaseStatusByStoreTransaction (key : PurchaseKey) : Service (Option Purchase) :=
  Prog.queryLocked (fun s => (s.purchases.get? key).toList.map fun _ => .purchase key)
    fun s => s.purchases.get? key

def inChain (projectId originalTransactionId : String) (e : PurchaseRecord) : Bool :=
  e.2.projectId = projectId ∧ e.2.originalTransactionId = originalTransactionId

def Purchase.newerThan (a b : Purchase) : Bool :=
  -- `(createdAt, purchaseDate, id)`, the order that picks a chain's newest row
  b.createdAt < a.createdAt ∨ b.createdAt = a.createdAt ∧
    (b.purchaseDate < a.purchaseDate ∨ b.purchaseDate = a.purchaseDate ∧ b.id < a.id)

def newestPurchase : List PurchaseRecord → Option PurchaseRecord
  | [] => none
  | e :: es =>
    match newestPurchase es with
    | none => some e
    | some best => if best.2.newerThan e.2 then some best else some e

def findPurchaseByOriginalTransaction (projectId originalTransactionId : String) (s : Db) :
    Option PurchaseRecord :=
  newestPurchase (purchasesWhere (fun e =>
    inChain projectId originalTransactionId e && e.1.store = .appStore) s)

def findChainBillingIssuePurchases (projectId originalTransactionId : String)
    (excluded : PurchaseKey) (s : Db) : List PurchaseKey :=
  (purchasesWhere (fun e => inChain projectId originalTransactionId e && e.1.store = .appStore &&
    e.1 ≠ excluded && e.2.status = .billingIssue) s).map Prod.fst

def findSupersedableApplePurchases (projectId originalTransactionId : String)
    (excluded : PurchaseKey) (now : ℤ) (s : Db) : List PurchaseRecord :=
  purchasesWhere (fun e => inChain projectId originalTransactionId e && e.1.store = .appStore &&
    e.1 ≠ excluded && e.2.status ∉ terminalStatuses && e.2.expiresDate.any (now < ·)) s

def findOverduePurchases (now : ℤ) (statuses : List PurchaseStatus) (limit : ℕ) (s : Db) :
    List PurchaseRecord :=
  ((purchasesWhere (fun e => e.2.status ∈ statuses && e.2.expiresDate.any (· ≤ now) &&
    (e.2.status ≠ .gracePeriod || e.2.gracePeriodExpires.all (· ≤ now))) s).insertionSort
      fun a b => a.2.expiresDate.getD 0 ≤ b.2.expiresDate.getD 0).take limit

def findAgedBillingIssuePurchases (cutoff : ℤ) (limit : ℕ) (s : Db) : List PurchaseRecord :=
  ((purchasesWhere (fun e => e.2.status = .billingIssue &&
    e.2.billingIssueDetectedAt.any (· < cutoff)) s).insertionSort
      fun a b => a.2.billingIssueDetectedAt.getD 0 ≤ b.2.billingIssueDetectedAt.getD 0).take limit

def findProductByStoreId (projectId store storeId : String) (s : Db) : Option (String × Product) :=
  -- the first product of the project whose `storeIds` names the store's product
  s.products.entries.find? fun e =>
    e.2.projectId = projectId ∧ e.2.storeIds.lookup store = some storeId

def upsertWrites (key : PurchaseKey) (create : Purchase) (update : PurchasePatch) (s : Db) :
    List Write :=
  match s.purchases.get? key with
  | none => [.insertPurchase key create]
  | some _ => [.updatePurchase key .caseTerminal update]

def upsertedRow (key : PurchaseKey) (create : Purchase) (update : PurchasePatch) (s : Db) :
    Purchase :=
  match s.purchases.get? key with
  | none => create
  | some row => StatusGuard.caseTerminal.patch update row

def upsertPurchase (key : PurchaseKey) (create : Purchase) (update : PurchasePatch) :
    Service Purchase := do
  -- `INSERT … ON CONFLICT (store, storeTransactionId) DO UPDATE … RETURNING *`
  let id ← Prog.fresh
  Prog.exec (fun _ => [.purchase key]) (upsertWrites key { create with id := id } update)
    (upsertedRow key { create with id := id } update)

def updatePurchaseRow (key : PurchaseKey) (guard : StatusGuard) (patch : PurchasePatch) :
    Service Unit :=
  Prog.exec (fun _ => [.purchase key]) (fun _ => [.updatePurchase key guard patch]) fun _ => ()

def updatePurchase (key : PurchaseKey) (patch : PurchasePatch) (guardTerminalStatus : Bool := true) :
    Service Unit :=
  updatePurchaseRow key (if guardTerminalStatus then .caseTerminal else .unguarded) patch

def updatePurchaseByStoreTransaction (key : PurchaseKey) (patch : PurchasePatch) : Service Unit :=
  updatePurchaseRow key .unguarded patch

def updatePurchaseStatusIf (key : PurchaseKey) (expected new : PurchaseStatus) : Service ℕ :=
  Prog.exec (fun _ => [.purchase key])
    (fun _ => [.updatePurchase key (.whenStatus expected) { status := some new }])
    fun s => if (s.purchases.get? key).any fun row => row.status = expected then 1 else 0

def chainKeys (projectId originalTransactionId : String) (s : Db) : List PurchaseKey :=
  (purchasesWhere (inChain projectId originalTransactionId) s).map Prod.fst

def updatePurchasesByOriginalTransaction (projectId originalTransactionId : String)
    (patch : PurchasePatch) : Service Unit :=
  Prog.exec (fun s => (chainKeys projectId originalTransactionId s).map .purchase)
    (fun s => (chainKeys projectId originalTransactionId s).map fun key =>
      .updatePurchase key .unguarded patch) fun _ => ()

def openChainKeys (projectId originalTransactionId : String) (s : Db) : List PurchaseKey :=
  (purchasesWhere (fun e => inChain projectId originalTransactionId e &&
    e.2.status ∉ repoTerminalStatuses) s).map Prod.fst

def updateChainStatusGuarded (projectId originalTransactionId : String) (patch : PurchasePatch) :
    Service ℕ :=
  -- with a `status` in the patch; the number of rows updated
  Prog.exec (fun s => (openChainKeys projectId originalTransactionId s).map .purchase)
    (fun s => (openChainKeys projectId originalTransactionId s).map fun key =>
      .updatePurchase key .notTerminal patch)
    fun s => (openChainKeys projectId originalTransactionId s).length

def findAccessByPurchaseAndAccessId (subscriberId purchaseId accessId : String) (s : Db) :
    Option AccessRecord :=
  s.subscriberAccess.entries.find? fun e =>
    e.2.subscriberId = subscriberId ∧ e.2.purchaseId = purchaseId ∧ e.2.accessId = accessId

structure GrantAccessArgs where
  subscriberId : String
  purchaseId : String
  accessIds : List String
  expiresDate : Option ℤ
  store : Store

def grantAccess (args : GrantAccessArgs) : Service Unit :=
  -- the three stores' `grantAccess`, each with its own `store` and expiry
  Prog.forEach args.accessIds fun accessId => do
    let existing ← Prog.query
      (findAccessByPurchaseAndAccessId args.subscriberId args.purchaseId accessId)
    match existing with
    | some existing => (setAccessActiveAndExpiry existing.1 true args.expiresDate).autocommit
    | none =>
      (createAccess
        { subscriberId := args.subscriberId
          purchaseId := args.purchaseId
          accessId := accessId
          isActive := true
          expiresDate := args.expiresDate
          store := args.store }).autocommit

structure UpsertSubscriberInput where
  projectId : String
  rovenueId : String
  appUserId : Option String := none
  appleAppAccountToken : Option String := none

def UpsertSubscriberInput.row (input : UpsertSubscriberInput) : Subscriber where
  projectId := input.projectId
  rovenueId := input.rovenueId
  appUserId := input.appUserId
  appleAppAccountToken := input.appleAppAccountToken

def upsertSubscriber (input : UpsertSubscriberInput) : Service SubscriberRow := do
  -- conflicts on `(projectId, rovenueId)`, whatever the row's `deletedAt`
  let id ← Prog.fresh
  let existing := findSubscriberByRovenueId input.projectId input.rovenueId
  let set : SubscriberPatch := { appleAppAccountToken := input.appleAppAccountToken }
  (Prog.exec (fun s => [.subscriber ((existing s).elim id Prod.fst)])
    (fun s => [match existing s with
      | some row => .updateSubscriber row.1 set
      | none => .insertSubscriber id input.row])
    fun s => match existing s with
      | some row => (row.1, set.apply row.2)
      | none => (id, input.row)).autocommit

theorem upsertWrites_get? (key : PurchaseKey) (create : Purchase) (update : PurchasePatch)
    (s : Db) : (applyAll s (upsertWrites key create update s)).purchases.get? key =
      some (upsertedRow key create update s) := by
  unfold upsertWrites upsertedRow
  cases h : s.purchases.get? key with
  | none => simp [Db.write, Table.get?_insert, h]
  | some row => simp [Db.write, Table.get?_modify, h]

theorem upsertWrites_not_onAccess (key : PurchaseKey) (create : Purchase) (update : PurchasePatch)
    (s : Db) : ∀ w ∈ upsertWrites key create update s, ¬w.OnAccess := by
  unfold upsertWrites
  cases s.purchases.get? key <;> simp [Write.OnAccess]

theorem returns_upsertPurchase {key : PurchaseKey} {create row : Purchase} {update : PurchasePatch}
    {c c' : Session Db Write String} (h : (upsertPurchase key create update).Returns c row c') :
    ∃ id, upsertedRow key { create with id := id } update c.view = row ∧
      c'.view.purchases.get? key = some row := by
  obtain ⟨id, c₁, hid, hexec⟩ := Prog.returns_bind.1 h
  obtain ⟨-, rfl⟩ := Prog.returns_fresh.1 hid
  obtain ⟨hrow, rfl⟩ := Prog.returns_exec.1 hexec
  refine ⟨id, hrow, ?_⟩
  rw [Session.write_view, Session.drawn_view, upsertWrites_get?, ← hrow]
  rfl

theorem Write.OnAccess.not_onPurchases {w : Write} (h : w.OnAccess) : ¬w.OnPurchases := by
  cases w <;> simp_all [Write.OnPurchases, Write.OnAccess]

theorem grantAccess_each (args : GrantAccessArgs) :
    (grantAccess args).Each fun _ ws => ∀ w ∈ ws, w.OnAccess := by
  have hnil : ∀ _ : Db, ∀ w ∈ ([] : List Write), w.OnAccess := by simp
  refine Prog.each_forEach _ fun accessId _ => (Prog.each_query hnil _).bind fun existing => ?_
  cases existing with
  | none => exact .autocommit fun id => Prog.each_exec fun _ => by simp [Write.OnAccess]
  | some existing => exact .autocommit (Prog.each_exec fun _ => by simp [Write.OnAccess])

theorem revokeAccess_each (ids : Db → List String) :
    (revokeAccess ids).Each fun _ ws => ∀ w ∈ ws, w.OnAccess :=
  Prog.each_exec fun s w hw => by
    obtain ⟨id, -, rfl⟩ := List.mem_map.1 hw
    trivial

theorem revokeAccessByPurchaseId_each (purchaseId : String) :
    (revokeAccessByPurchaseId purchaseId).Each fun _ ws => ∀ w ∈ ws, w.OnAccess :=
  revokeAccess_each _

theorem revokeAccessByOriginalTransaction_each (projectId originalTransactionId : String) :
    (revokeAccessByOriginalTransaction projectId originalTransactionId).Each
      fun _ ws => ∀ w ∈ ws, w.OnAccess :=
  (Prog.each_query (by simp) _).bind fun _ => revokeAccess_each _

theorem upsertSubscriber_each (input : UpsertSubscriberInput) :
    (upsertSubscriber input).Each fun _ ws => ∀ w ∈ ws, ¬w.OnPurchases :=
  fun id => .autocommit (Prog.each_exec fun s w hw => by
    obtain rfl := List.mem_singleton.1 hw
    cases findSubscriberByRovenueId input.projectId input.rovenueId s <;>
      simp [Write.OnPurchases])

theorem keeps_purchases_of_each {α : Type} {p : Service α}
    (hp : p.Each fun _ ws => ∀ w ∈ ws, ¬w.OnPurchases) {c c' : Session Db Write String} {a : α}
    (h : p.Returns c a c') :
    c'.view.purchases = c.view.purchases ∧ c'.view.products = c.view.products :=
  Prog.Each.returns
    (R := fun s s' : Db => s'.purchases = s.purchases ∧ s'.products = s.products)
    (fun _ => ⟨rfl, rfl⟩) (fun h g => ⟨g.1.trans h.1, g.2.trans h.2⟩)
    (fun s ws hws => ⟨applyAll_purchases s ws hws, applyAll_products s ws⟩) hp h

theorem syncAccess_keeps {subscriberId : String} {c c' : Session Db Write String} {u : Unit}
    (h : (syncAccess subscriberId).Returns c u c') :
    c'.view.purchases = c.view.purchases ∧ c'.view.products = c.view.products :=
  keeps_purchases_of_each
    ((syncAccess_each subscriberId).mono fun _ _ h w hw => (h w hw).not_onPurchases) h

end Rovenue
