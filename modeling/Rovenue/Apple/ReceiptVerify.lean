import Rovenue.Apple.AppleWebhook
import Rovenue.Access.DirectRevoke

/-! Verification of a StoreKit receipt. The status waits for the guard, the expiry is written beside
it, and the payload's revocation is not read. -/

namespace Rovenue
open Txn

def findProductByIdentifierOrStoreId (projectId identifier store storeId : String) (s : Db) :
    Option (String × Product) :=
  -- `WHERE identifier = … OR storeIds ->> store = … LIMIT 1`
  s.products.entries.find? fun e => e.2.projectId = projectId ∧
    (e.2.identifier = identifier ∨ e.2.storeIds.lookup store = some storeId)

namespace Apple

structure AttestedTransaction extends AppleTransaction where
  revocationDate : Option ℤ := none
  -- `Number.isFinite(signedDate)`
  signed : Bool := true

namespace AttestedTransaction
variable (transaction : AttestedTransaction)

def key : PurchaseKey := appleKey transaction.transactionId

def expiry : Option ℤ := appleDate transaction.expiresDate

def status : PurchaseStatus :=
  if isTrial transaction.toAppleTransaction then .trial else .active

def eventTimeAt (t : ℤ) : ℤ := if transaction.signed then transaction.signedDate else t

end AttestedTransaction

structure VerifyReceiptArgs where
  projectId : String
  receipt : String
  productId : String
  -- the subscriber the receipt was reconciled with
  subscriberId : String

def productMatchesTransaction (product : Product) (transaction : AttestedTransaction) : Bool :=
  match product.storeIds.lookup "apple" with
  | some appleStoreId => appleStoreId = transaction.productId
  | none => product.identifier = transaction.productId

def receiptProduct (args : VerifyReceiptArgs) (transaction : AttestedTransaction) (s : Db) :
    Option (String × Product) :=
  findProductByIdentifierOrStoreId args.projectId args.productId "apple" transaction.productId s

def receiptGuard (transaction : AttestedTransaction) (eventTime : ℤ) : GuardStatusWriteArgs where
  key := transaction.key
  toStatus := transaction.status
  eventTime := some eventTime

structure ReceiptWrite where
  args : VerifyReceiptArgs
  transaction : AttestedTransaction
  productId : String
  eventTime : ℤ
  now : ℤ

namespace ReceiptWrite
variable (w : ReceiptWrite)

def create (startedAt : ℤ) : Purchase where
  id := ""
  projectId := w.args.projectId
  subscriberId := w.args.subscriberId
  productId := w.productId
  originalTransactionId := w.transaction.originalTransactionId
  status := w.transaction.status
  isTrial := isTrial w.transaction.toAppleTransaction
  purchaseDate := w.transaction.purchaseDate
  expiresDate := w.transaction.expiry
  verifiedAt := some w.now
  lastStoreEventAt := some w.eventTime
  createdAt := startedAt

def refresh : PurchasePatch where
  expiresDate := some w.transaction.expiry
  verifiedAt := some (some w.now)

def update (guard : GuardStatusWriteResult) : PurchasePatch :=
  if guard.apply then
    { w.refresh with
      status := some w.transaction.status
      lastStoreEventAt := some (some w.eventTime)
      billingIssueDetectedAt :=
        billingIssueStamp guard.fromStatus w.transaction.status w.eventTime }
  else w.refresh

end ReceiptWrite

def appleEventTime (transaction : AttestedTransaction) : Service ℤ :=
  if transaction.signed then pure transaction.signedDate else Prog.now

def writeReceipt (args : VerifyReceiptArgs) (transaction : AttestedTransaction)
    (productId : String) (eventTime : ℤ) : Service Purchase :=
  Prog.transaction fun startedAt => do
    let guard ← guardStatusWrite (receiptGuard transaction eventTime)
    let now ← Prog.now
    let w : ReceiptWrite := ⟨args, transaction, productId, eventTime, now⟩
    Rovenue.upsertPurchase transaction.key (w.create startedAt) (w.update guard)

abbrev Verifier := Option (String → Option AttestedTransaction)

def Verifier.attested (verifier : Verifier) (receipt : String) : Option AttestedTransaction :=
  verifier.bind fun verifyTransaction => verifyTransaction receipt

def verifyAppleReceipt (verifier : Verifier) (args : VerifyReceiptArgs) :
    Service ((String × Product) × Purchase) :=
  match verifier with
  | none => Prog.throw "Project not configured for Apple receipt verification"
  | some verifyTransaction =>
    match verifyTransaction args.receipt with
    | none => Prog.throw "Apple receipt verification failed"
    | some transaction => do
      let product ← Prog.query (receiptProduct args transaction)
      match product with
      | none => Prog.throw ("Product not found for Apple productId " ++ transaction.productId)
      | some product =>
        if productMatchesTransaction product.2 transaction then do
          let eventTime ← appleEventTime transaction
          let purchase ← writeReceipt args transaction product.1 eventTime
          pure (product, purchase)
        else Prog.throw "productId does not match the verified transaction"

/-- `purchases.id` is the primary key. -/
def UniquePurchaseIds (s : Db) : Prop :=
  ∀ key key' row row', s.purchases.get? key = some row → s.purchases.get? key' = some row' →
    row.id = row'.id → key = key'

def entitledBy (key : PurchaseKey) (t : ℤ) (s : Db) : Table String DesiredAccess :=
  match s.purchases.get? key with
  | none => .empty
  | some row => computeDesiredAccess (withAccessIds row.subscriberId s.products [(key, row)]) t

/-- The purchase entitles to nothing at `t`, and no active row of the subscriber names it. -/
structure GrantsNothing (subscriberId : String) (key : PurchaseKey) (t : ℤ) (s : Db) : Prop where
  entitled : ∀ accessId, (entitledBy key t s).get? accessId = none
  served : ∀ row, s.purchases.get? key = some row → ∀ id r, s.subscriberAccess.get? id = some r →
    r.subscriberId = subscriberId → r.isActive = true → r.purchaseId ≠ row.id

/-- A newer event was applied to the row than the one the payload attests. -/
def Outdated (transaction : AttestedTransaction) (row : Purchase) : Prop :=
  transaction.signed = true ∧ ∃ last, row.lastStoreEventAt = some last ∧ transaction.signedDate < last

/-- What a newer event wrote stands. -/
def KeepsNewer (transaction : AttestedTransaction) (s s' : Db) : Prop :=
  ∀ row, s.purchases.get? transaction.key = some row → Outdated transaction row →
    ∃ row', s'.purchases.get? transaction.key = some row' ∧ row'.status = row.status ∧
      row'.expiresDate = row.expiresDate ∧
      entitlementExpiry row'.status row'.expiresDate row'.gracePeriodExpires =
        entitlementExpiry row.status row.expiresDate row.gracePeriodExpires

def Entitles (productId : String) (s : Db) : Prop :=
  ∃ product, s.products.get? productId = some product ∧ product.accessIds ≠ []

/-- The row, or the new one, would entitle at `t` if nothing were revoked. -/
def LivesOn (args : VerifyReceiptArgs) (transaction : AttestedTransaction) (eventTime t : ℤ)
    (s : Db) : Prop :=
  match s.purchases.get? transaction.key with
  | none => (∃ product, receiptProduct args transaction s = some product ∧ Entitles product.1 s) ∧
      (t : WithTop ℤ) ≤ lifespan transaction.expiry
  | some row => Entitles row.productId s ∧
      if (receiptGuard transaction eventTime).admits (some row) then
        (t : WithTop ℤ) ≤ lifespan transaction.expiry
      else row.status ∈ accessGrantingStatuses ∧ (t : WithTop ℤ) ≤
        lifespan (entitlementExpiry row.status transaction.expiry row.gracePeriodExpires)

structure Verified (args : VerifyReceiptArgs) (transaction : AttestedTransaction) (eventTime : ℤ)
    (id : String) (s s' : Db) : Prop where
  products : s'.products = s.products
  others : ∀ key, key ≠ transaction.key → s'.purchases.get? key = s.purchases.get? key
  inserted : s.purchases.get? transaction.key = none → ∃ product row',
    receiptProduct args transaction s = some product ∧
      s'.purchases.get? transaction.key = some row' ∧ row'.id = id ∧
      row'.productId = product.1 ∧ row'.status = transaction.status ∧
      row'.expiresDate = transaction.expiry
  updated : ∀ row, s.purchases.get? transaction.key = some row → ∃ row',
    s'.purchases.get? transaction.key = some row' ∧ row'.id = row.id ∧
      row'.productId = row.productId ∧
      row'.status = (if (receiptGuard transaction eventTime).admits (some row) then
        transaction.status else row.status) ∧
      row'.expiresDate = transaction.expiry ∧ row'.gracePeriodExpires = row.gracePeriodExpires

section Verified
variable {args : VerifyReceiptArgs} {transaction : AttestedTransaction} {eventTime t : ℤ}
  {id : String} {s s' : Db}

theorem status_grants (transaction : AttestedTransaction) :
    transaction.status ∈ accessGrantingStatuses := by
  rw [AttestedTransaction.status]
  split_ifs <;> decide

theorem receiptGuard_terminal {row : Purchase}
    (h : (receiptGuard transaction eventTime).admits (some row) = true) :
    row.status ∉ repoTerminalStatuses := by
  intro hterminal
  obtain hedge | hfrom := admits_status h
  · have hsame := validateTransition_terminal (mem_repoTerminalStatuses.1 hterminal) hedge
    have hgrants := status_grants transaction
    rw [← show (receiptGuard transaction eventTime).toStatus = transaction.status from rfl,
      hsame] at hgrants
    revert hgrants hterminal
    cases row.status <;> decide
  · exact absurd hfrom List.not_mem_nil

theorem verified_upsert {product : String × Product} {startedAt now : ℤ} {w : ReceiptWrite}
    (hw : w = ⟨args, transaction, product.1, eventTime, now⟩)
    (hproduct : receiptProduct args transaction s = some product) :
    Verified args transaction eventTime id s
      (applyAll s (upsertWrites transaction.key { w.create startedAt with id := id }
        (w.update ((receiptGuard transaction eventTime).result
          (s.purchases.get? transaction.key))) s)) := by
  subst hw
  let w : ReceiptWrite := ⟨args, transaction, product.1, eventTime, now⟩
  have hrow := upsertWrites_get? transaction.key { w.create startedAt with id := id }
    (w.update ((receiptGuard transaction eventTime).result (s.purchases.get? transaction.key))) s
  constructor
  · exact applyAll_products _ _
  · intro key hkey
    rw [upsertWrites]
    cases hget : s.purchases.get? transaction.key with
    | none => simp [Db.write, Table.get?_insert, hkey]
    | some row => simp [Db.write, Table.get?_modify, hkey]
  · intro hnone
    refine ⟨product, _, hproduct, hrow, ?_⟩
    rw [upsertedRow, hnone]
    exact ⟨rfl, rfl, rfl, rfl⟩
  · intro row hsome
    refine ⟨_, hrow, ?_⟩
    rw [upsertedRow, hsome]
    cases hadmits : (receiptGuard transaction eventTime).admits (some row) with
    | false =>
      have hupdate : w.update ((receiptGuard transaction eventTime).result (some row)) =
          w.refresh := by
        rw [ReceiptWrite.update, GuardStatusWriteArgs.result, hadmits]
        rfl
      simp only [hupdate, StatusGuard.patch, Bool.false_eq_true, if_false]
      split_ifs <;> exact ⟨rfl, rfl, rfl, rfl, rfl⟩
    | true =>
      simp only [StatusGuard.patch, if_neg (receiptGuard_terminal hadmits), ReceiptWrite.update,
        GuardStatusWriteArgs.result, hadmits]
      exact ⟨rfl, rfl, rfl, rfl, rfl⟩

theorem returns_verifyAppleReceipt {verifier : Verifier} {clock : ℕ → ℤ} {ids : ℕ → String}
    {result : (String × Product) × Purchase} {c : Session Db Write String}
    (hattested : verifier.attested args.receipt = some transaction)
    (h : (verifyAppleReceipt verifier args).Returns (.start s clock ids) result c) :
    Verified args transaction (transaction.eventTimeAt (clock 0)) (ids 0) s c.view ∧
      c.view.subscriberAccess = s.subscriberAccess := by
  obtain ⟨verifyTransaction, rfl, htransaction⟩ := Option.bind_eq_some_iff.1 hattested
  simp only [verifyAppleReceipt, htransaction] at h
  obtain ⟨found, c₁, hquery, hrest⟩ := Prog.returns_bind.1 h
  obtain ⟨hproduct, rfl⟩ := Prog.returns_query.1 hquery
  cases found with
  | none => exact (Prog.returns_throw hrest).elim
  | some product =>
    by_cases hmatch : productMatchesTransaction product.2 transaction = true
    swap
    · simp only [if_neg hmatch] at hrest
      exact (Prog.returns_throw hrest).elim
    simp only [if_pos hmatch] at hrest
    obtain ⟨eventTime, c₂, htime, hrest⟩ := Prog.returns_bind.1 hrest
    have hread : eventTime = transaction.eventTimeAt (clock 0) ∧ c₂.view = s ∧ c₂.ids = ids := by
      rw [appleEventTime] at htime
      rw [AttestedTransaction.eventTimeAt]
      split_ifs at htime ⊢
      · obtain ⟨rfl, rfl⟩ := Prog.returns_done.1 htime
        exact ⟨rfl, rfl, rfl⟩
      · obtain ⟨rfl, rfl⟩ := Prog.returns_now.1 htime
        exact ⟨rfl, rfl, rfl⟩
    obtain ⟨rfl, hview, hids⟩ := hread
    obtain ⟨purchase, c₃, hwrite, hdone⟩ := Prog.returns_bind.1 hrest
    obtain ⟨-, rfl⟩ := Prog.returns_done.1 hdone
    have hbody := Prog.returns_transaction.1 hwrite
    obtain ⟨guard, c₄, hguard, hbody⟩ := Prog.returns_bind.1 hbody
    obtain ⟨rfl, rfl⟩ := returns_guardStatusWrite.1 hguard
    obtain ⟨now, c₅, hnow, hbody⟩ := Prog.returns_bind.1 hbody
    obtain ⟨rfl, rfl⟩ := Prog.returns_now.1 hnow
    obtain ⟨id, c₆, hid, hexec⟩ := Prog.returns_bind.1 hbody
    obtain ⟨rfl, rfl⟩ := Prog.returns_fresh.1 hid
    obtain ⟨-, rfl⟩ := Prog.returns_exec.1 hexec
    simp only [Session.write_view, Session.drawn_view, Session.tick_view, Session.tick_ids, hview,
      hids]
    exact ⟨verified_upsert rfl hproduct, applyAll_subscriberAccess _ _ (upsertWrites_not_onAccess _ _ _ _)⟩

theorem Verified.congr {s'' : Db} (h : Verified args transaction eventTime id s s')
    (hpurchases : s''.purchases = s'.purchases) (hproducts : s''.products = s'.products) :
    Verified args transaction eventTime id s s'' where
  products := hproducts.trans h.products
  others key hkey := by rw [hpurchases]; exact h.others key hkey
  inserted hnone := by rw [hpurchases]; exact h.inserted hnone
  updated row hrow := by rw [hpurchases]; exact h.updated row hrow

theorem Verified.id_origin (h : Verified args transaction eventTime id s s') {key : PurchaseKey}
    {row' : Purchase} (hrow' : s'.purchases.get? key = some row') :
    (∃ row, s.purchases.get? key = some row ∧ row.id = row'.id) ∨
      key = transaction.key ∧ row'.id = id := by
  by_cases hkey : key = transaction.key
  · subst hkey
    cases hget : s.purchases.get? transaction.key with
    | none =>
      obtain ⟨-, found, -, hfound, hid, -⟩ := h.inserted hget
      obtain rfl : row' = found := Option.some.inj (hrow'.symm.trans hfound)
      exact .inr ⟨rfl, hid⟩
    | some row =>
      obtain ⟨found, hfound, hid, -⟩ := h.updated row hget
      obtain rfl : row' = found := Option.some.inj (hrow'.symm.trans hfound)
      exact .inl ⟨row, rfl, hid.symm⟩
  · rw [h.others key hkey] at hrow'
    exact .inl ⟨row', hrow', rfl⟩

theorem Verified.unique (h : Verified args transaction eventTime id s s')
    (hunique : UniquePurchaseIds s)
    (hdrawn : ∀ key row, s.purchases.get? key = some row → row.id ≠ id) : UniquePurchaseIds s' := by
  intro key key' row row' hrow hrow' hsame
  obtain ⟨old, hold, hid⟩ | ⟨rfl, hid⟩ := h.id_origin hrow
  · obtain ⟨old', hold', hid'⟩ | ⟨rfl, hid'⟩ := h.id_origin hrow'
    · exact hunique key key' old old' hold hold' (hid.trans (hsame.trans hid'.symm))
    · exact absurd (hid.trans (hsame.trans hid')) (hdrawn key old hold)
  · obtain ⟨old', hold', hid'⟩ | ⟨rfl, -⟩ := h.id_origin hrow'
    · exact absurd (hid'.trans (hsame.symm.trans hid)) (hdrawn key' old' hold')
    · rfl

theorem entitledBy_eq_none_iff {key : PurchaseKey} {row : Purchase}
    (hrow : s.purchases.get? key = some row) :
    (∀ accessId, (entitledBy key t s).get? accessId = none) ↔
      ¬(Entitles row.productId s ∧ row.status ∈ accessGrantingStatuses ∧ (t : WithTop ℤ) ≤
        lifespan (entitlementExpiry row.status row.expiresDate row.gracePeriodExpires)) := by
  -- a purchase alone entitles to nothing just when its product lists nothing, its status grants
  -- nothing or it has ended
  simp only [entitledBy, hrow, computeDesiredAccess_eq_none_iff, mem_entitling]
  constructor
  · rintro hnone ⟨⟨product, hproduct, hlists⟩, hstatus, hlife⟩
    obtain ⟨accessId, haccess⟩ := List.exists_mem_of_ne_nil _ hlists
    have hjoined : withAccessIds row.subscriberId s.products [(key, row)] =
        [⟨row.id, row.status, row.expiresDate, row.gracePeriodExpires, key.store,
          product.accessIds⟩] := by
      simp [withAccessIds, hproduct]
    rw [hjoined] at hnone
    exact hnone accessId _ ⟨List.mem_singleton_self _, hstatus, haccess, hlife⟩
  · intro hdead accessId q hq
    obtain ⟨hmem, hstatus, haccess, hlife⟩ := hq
    apply hdead
    simp only [withAccessIds, List.mem_filterMap, List.mem_filter, List.mem_singleton,
      Option.map_eq_some_iff] at hmem
    obtain ⟨e, ⟨rfl, -⟩, product, hproduct, rfl⟩ := hmem
    exact ⟨⟨product, hproduct, List.ne_nil_of_mem haccess⟩, hstatus, hlife⟩

theorem grantsNothing_iff {subscriberId : String} {key : PurchaseKey} {row : Purchase}
    (hsynced : Synced subscriberId t s)
    (hunique : UniquePurchaseIds s) (hrow : s.purchases.get? key = some row) :
    GrantsNothing subscriberId key t s ↔
      ¬(Entitles row.productId s ∧ row.status ∈ accessGrantingStatuses ∧ (t : WithTop ℤ) ≤
        lifespan (entitlementExpiry row.status row.expiresDate row.gracePeriodExpires)) := by
  rw [← entitledBy_eq_none_iff hrow]
  refine ⟨GrantsNothing.entitled, fun hnone => ⟨hnone, ?_⟩⟩
  intro row' hrow' id r hget hsub hactive hnames
  obtain rfl : row = row' := Option.some.inj (hrow.symm.trans hrow')
  obtain ⟨target, htarget, hsource⟩ := hsynced.source id r hget hsub hactive
  obtain ⟨q, hq, -, rfl⟩ := derived_source htarget
  obtain ⟨hmem, hstatus, haccess, hlife⟩ := mem_entitling.1 hq
  simp only [findPurchasesWithAccessIds, withAccessIds, List.mem_filterMap, List.mem_filter,
    Option.map_eq_some_iff] at hmem
  obtain ⟨⟨key', row'⟩, ⟨he, -⟩, product, hproduct, rfl⟩ := hmem
  have hget' := s.purchases.mem_entries.1 he
  have hid : row'.id = row.id := hsource.symm.trans hnames
  obtain rfl := hunique key' key row' row hget' hrow hid
  obtain rfl : row = row' := Option.some.inj (hrow.symm.trans hget')
  refine (entitledBy_eq_none_iff hrow).1 hnone ⟨⟨product, hproduct, ?_⟩, hstatus, hlife⟩
  exact List.ne_nil_of_mem haccess

theorem Entitles.congr {productId : String} (h : s'.products = s.products) :
    Entitles productId s' ↔ Entitles productId s := by rw [Entitles, Entitles, h]

theorem Verified.grants_iff (h : Verified args transaction eventTime id s s') :
    ∃ row', s'.purchases.get? transaction.key = some row' ∧
      (Entitles row'.productId s' ∧ row'.status ∈ accessGrantingStatuses ∧ (t : WithTop ℤ) ≤
        lifespan (entitlementExpiry row'.status row'.expiresDate row'.gracePeriodExpires) ↔
      LivesOn args transaction eventTime t s) := by
  have hgrants := status_grants transaction
  have hexpiry : ∀ grace, entitlementExpiry transaction.status transaction.expiry grace =
      transaction.expiry := by
    intro grace
    unfold entitlementExpiry
    rw [if_pos]
    rw [AttestedTransaction.status]
    split_ifs <;> decide
  cases hget : s.purchases.get? transaction.key with
  | none =>
    obtain ⟨product, row', hproduct, hrow', -, hproductId, hstatus, hexp⟩ := h.inserted hget
    refine ⟨row', hrow', ?_⟩
    simp only [LivesOn, hget]
    rw [hproductId, hstatus, hexp, hexpiry, Entitles.congr h.products]
    constructor
    · rintro ⟨hentitles, -, hlife⟩
      exact ⟨⟨product, hproduct, hentitles⟩, hlife⟩
    · rintro ⟨⟨found, hfound, hentitles⟩, hlife⟩
      obtain rfl : product = found := Option.some.inj (hproduct.symm.trans hfound)
      exact ⟨hentitles, hgrants, hlife⟩
  | some row =>
    obtain ⟨row', hrow', -, hproductId, hstatus, hexp, hgrace⟩ := h.updated row hget
    refine ⟨row', hrow', ?_⟩
    simp only [LivesOn, hget]
    rw [hproductId, hstatus, hexp, hgrace, Entitles.congr h.products]
    refine and_congr_right fun _ => ?_
    split_ifs with hadmits
    · rw [hexpiry]
      exact and_iff_right hgrants
    · rfl

theorem Verified.keepsNewer_iff
    (h : Verified args transaction (transaction.eventTimeAt t) id s s') :
    KeepsNewer transaction s s' ↔ ∀ row, s.purchases.get? transaction.key = some row →
      Outdated transaction row → transaction.expiry = row.expiresDate := by
  refine forall_congr' fun row => forall_congr' fun hget => forall_congr' fun houtdated => ?_
  obtain ⟨row', hrow', -, -, hstatus, hexp, hgrace⟩ := h.updated row hget
  have hrefused : ¬(receiptGuard transaction (transaction.eventTimeAt t)).admits (some row) =
      true := by
    intro hadmits
    obtain ⟨hsigned, last, hlast, hlt⟩ := houtdated
    have hle := admits_eventTime hadmits rfl hlast
    rw [AttestedTransaction.eventTimeAt, if_pos hsigned] at hle
    exact absurd hlt (not_lt.2 hle)
  rw [if_neg hrefused] at hstatus
  constructor
  · rintro ⟨found, hfound, -, hkept, -⟩
    obtain rfl : row' = found := Option.some.inj (hrow'.symm.trans hfound)
    exact hexp.symm.trans hkept
  · intro hsame
    refine ⟨row', hrow', hstatus, hexp.trans hsame, ?_⟩
    rw [hstatus, hexp, hgrace, hsame]

/-- A revoked payload grants nothing, and an outdated one leaves what it finds, just when the
purchase has no life left beside the revocation and the outdated payload's expiry is the row's. -/
theorem verify_within_attestation_iff {verifier : Verifier} {clock syncClock : ℕ → ℤ}
    {ids syncIds : ℕ → String} {result : (String × Product) × Purchase}
    {c c' : Session Db Write String}
    (hattested : verifier.attested args.receipt = some transaction)
    (hverify : (verifyAppleReceipt verifier args).Returns (.start s clock ids) result c)
    (hsync : (syncAccess args.subscriberId).Returns (.start c.view syncClock syncIds) () c')
    (hunique : UniquePurchaseIds s)
    (hdrawn : ∀ key row, s.purchases.get? key = some row → row.id ≠ ids 0)
    (hids : Function.Injective syncIds)
    (hfresh : ∀ n, s.subscriberAccess.get? (syncIds n) = none) :
    ((transaction.revocationDate.isSome = true →
        GrantsNothing args.subscriberId transaction.key (syncClock 1) c'.view) ∧
      KeepsNewer transaction s c'.view) ↔
    ((transaction.revocationDate.isSome = true →
        ¬LivesOn args transaction (transaction.eventTimeAt (clock 0)) (syncClock 1) s) ∧
      ∀ row, s.purchases.get? transaction.key = some row → Outdated transaction row →
        transaction.expiry = row.expiresDate) := by
  obtain ⟨hverified, haccess⟩ := returns_verifyAppleReceipt hattested hverify
  have hkeeps := syncAccess_keeps hsync
  have hsynced : Synced args.subscriberId (syncClock 1) c'.view := by
    refine synced_syncAccess hids (fun n => ?_) hsync
    rw [haccess]
    exact hfresh n
  -- the sync leaves the row as the verification wrote it
  have hafter := hverified.congr hkeeps.1 hkeeps.2
  obtain ⟨row', hrow', hgrants⟩ := hafter.grants_iff (t := syncClock 1)
  refine and_congr (imp_congr_right fun _ => ?_) hafter.keepsNewer_iff
  rw [grantsNothing_iff hsynced (hafter.unique hunique hdrawn) hrow']
  exact not_congr hgrants

end Verified

def receiptDb : Db where
  products := ⟨[("prod", { projectId := "p1", identifier := "pro", accessIds := ["pro"] })],
    List.nodup_singleton "prod"⟩
  purchases := ⟨[(appleKey "tx1",
    { id := "pu1", projectId := "p1", subscriberId := "s1", productId := "prod"
      originalTransactionId := "tx1", status := .active, expiresDate := some 300
      lastStoreEventAt := some 20 })], by decide⟩

def receiptArgs : VerifyReceiptArgs where
  projectId := "p1"
  receipt := "jws"
  productId := "pro"
  subscriberId := "s1"

def revokedPayload : AttestedTransaction where
  transactionId := "tx1"
  originalTransactionId := "tx1"
  productId := "pro"
  expiresDate := some 300
  signedDate := 30
  revocationDate := some 25

def olderPayload : AttestedTransaction where
  transactionId := "tx1"
  originalTransactionId := "tx1"
  productId := "pro"
  expiresDate := some 100
  signedDate := 10

theorem receipt_beyond_attestation :
    (∃ result c c',
      (verifyAppleReceipt (some fun _ => some revokedPayload) receiptArgs).Returns
          (.start receiptDb (fun _ => 40) freshIds) result c ∧
        (syncAccess "s1").Returns (.start c.view (fun _ => 40) freshIds) () c' ∧
        revokedPayload.revocationDate.isSome = true ∧
        servedAt "s1" 40 c'.view "pro" = some ⟨"pu1", some 300, .appStore⟩ ∧
        ¬GrantsNothing "s1" revokedPayload.key 40 c'.view) ∧
      ∃ result c c',
        (verifyAppleReceipt (some fun _ => some olderPayload) receiptArgs).Returns
            (.start receiptDb (fun _ => 40) freshIds) result c ∧
          (syncAccess "s1").Returns (.start c.view (fun _ => 40) freshIds) () c' ∧
          ¬KeepsNewer olderPayload receiptDb c'.view := by
  constructor
  · refine ⟨_, _, _, rfl, rfl, rfl, by decide, fun h => ?_⟩
    exact absurd (h.entitled "pro") (by decide)
  · refine ⟨_, _, _, rfl, rfl, fun h => ?_⟩
    obtain ⟨row', hrow', -, hexpires, -⟩ := h _ rfl ⟨rfl, 20, rfl, by decide⟩
    cases hrow'
    revert hexpires
    decide

theorem verify_within_attestation_iff_revoked :
    ∃ result c c',
      (verifyAppleReceipt (some fun _ => some revokedPayload) receiptArgs).Returns
          (.start receiptDb (fun _ => 40) freshIds) result c ∧
        (syncAccess "s1").Returns (.start c.view (fun _ => 40) freshIds) () c' ∧
        (((revokedPayload.revocationDate.isSome = true →
            GrantsNothing "s1" revokedPayload.key 40 c'.view) ∧
          KeepsNewer revokedPayload receiptDb c'.view) ↔
        ((revokedPayload.revocationDate.isSome = true →
            ¬LivesOn receiptArgs revokedPayload (revokedPayload.eventTimeAt 40) 40 receiptDb) ∧
          ∀ row, receiptDb.purchases.get? revokedPayload.key = some row →
            Outdated revokedPayload row → revokedPayload.expiry = row.expiresDate)) := by
  obtain ⟨result, c, c', hverify, hsync⟩ : ∃ result c c',
      (verifyAppleReceipt (some fun _ => some revokedPayload) receiptArgs).Returns
          (.start receiptDb (fun _ => 40) freshIds) result c ∧
        (syncAccess "s1").Returns (.start c.view (fun _ => 40) freshIds) () c' :=
    ⟨_, _, _, rfl, rfl⟩
  refine ⟨result, c, c', hverify, hsync, ?_⟩
  refine verify_within_attestation_iff rfl hverify hsync ?_ ?_ freshIds_injective fun _ => rfl
  · intro key key' row row' hrow hrow' _
    obtain ⟨rfl, -⟩ := Prod.mk.inj (List.mem_singleton.1 (receiptDb.purchases.mem_entries.2 hrow))
    obtain ⟨rfl, -⟩ := Prod.mk.inj (List.mem_singleton.1 (receiptDb.purchases.mem_entries.2 hrow'))
    rfl
  · intro key row hrow
    obtain ⟨-, rfl⟩ := Prod.mk.inj (List.mem_singleton.1 (receiptDb.purchases.mem_entries.2 hrow))
    decide

end Apple
end Rovenue
