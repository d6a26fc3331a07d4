import Rovenue.Ledger.SubscriberTransfer

/-! Currency grants of a product, and the post-processing of a webhook that
pays them. -/

namespace Rovenue
open Txn

inductive GrantEventTrigger where
  | purchase | renewal
  deriving DecidableEq, Repr

def grantTriggerMatches : CurrencyGrantTrigger → GrantEventTrigger → Bool
  | .purchase, trigger => trigger = .purchase
  | .renewal, trigger => trigger = .renewal
  | .both, _ => true

def grantReferenceType : GrantEventTrigger → String
  | .purchase => "purchase"
  | .renewal => "renewal"

structure PurchaseWithCreditInfo where
  id : String
  subscriberId : String
  productId : String
  productIdentifier : String

def findPurchaseWithCreditInfo (id : String) (s : Db) : Option PurchaseWithCreditInfo :=
  (s.purchases.entries.find? fun e => e.2.id = id).bind fun e =>
    (s.products.get? e.2.productId).map fun product =>
      ⟨id, e.2.subscriberId, e.2.productId, product.identifier⟩

def listProductGrantsForTrigger (productId : String) (trigger : GrantEventTrigger) (s : Db) :
    List (String × ℤ) :=
  (s.productCurrencyGrants.entries.filter fun e =>
    e.1.1 = productId ∧ grantTriggerMatches e.2.grantOn trigger).map fun e => (e.1.2, e.2.amount)

theorem mem_listProductGrants {productId : String} {trigger : GrantEventTrigger} {s : Db}
    {entry : String × ℤ} : entry ∈ listProductGrantsForTrigger productId trigger s ↔
      ∃ grant, s.productCurrencyGrants.get? (productId, entry.1) = some grant ∧
        grantTriggerMatches grant.grantOn trigger = true ∧ entry.2 = grant.amount := by
  constructor
  · intro h
    obtain ⟨⟨⟨p, c⟩, grant⟩, hmem, rfl⟩ := List.mem_map.1 h
    obtain ⟨hgrants, hmatch⟩ := List.mem_filter.1 hmem
    obtain ⟨hproduct, htrigger⟩ := of_decide_eq_true hmatch
    obtain rfl : p = productId := hproduct
    exact ⟨grant, s.productCurrencyGrants.mem_entries.1 hgrants, htrigger, rfl⟩
  · intro h
    obtain ⟨grant, hget, htrigger, hamount⟩ := h
    refine List.mem_map.2 ⟨((productId, entry.1), grant), List.mem_filter.2 ⟨?_, ?_⟩, ?_⟩
    · exact s.productCurrencyGrants.mem_entries.2 hget
    · exact decide_eq_true ⟨rfl, htrigger⟩
    · exact Prod.ext rfl hamount.symm

structure GrantProductCurrenciesArgs where
  subscriberId : String
  productId : String
  referenceId : String
  productIdentifier : String
  trigger : GrantEventTrigger

def GrantProductCurrenciesArgs.addCreditsArgs (args : GrantProductCurrenciesArgs)
    (grant : String × ℤ) : AddCreditsArgs where
  subscriberId := args.subscriberId
  currencyId := grant.1
  amount := grant.2
  referenceType := some (grantReferenceType args.trigger)
  referenceId := some args.referenceId
  description := some ("Credits for " ++ args.productIdentifier)
  dedupeOnReference := true

def grantProductCurrencies (order : LedgerOrder) (args : GrantProductCurrenciesArgs) :
    Service Unit := do
  let grants ← Prog.query (listProductGrantsForTrigger args.productId args.trigger)
  Prog.forEach grants fun grant =>
    if grant.2 ≤ 0 then pure ()
    else (addCredits order (args.addCreditsArgs grant)).bind fun _ => pure ()

def maybeCreditConsumablePurchase (order : LedgerOrder) (subscriberId purchaseId : String) :
    Service Unit := do
  let purchase ← Prog.query (findPurchaseWithCreditInfo purchaseId)
  match purchase with
  | none => pure ()
  | some purchase =>
    grantProductCurrencies order
      { subscriberId := subscriberId
        productId := purchase.productId
        referenceId := purchaseId
        productIdentifier := purchase.productIdentifier
        trigger := .purchase }

structure PostProcessingArgs where
  subscriberId : String
  purchaseId : Option String := none
  isRenewalCharge : Bool := false

def runPostProcessing (order : LedgerOrder) (args : PostProcessingArgs) : Service Unit := do
  -- access sync, then the purchase's grant; the outgoing webhook it enqueues last writes nothing
  -- modelled here
  syncAccess args.subscriberId
  if truthy args.purchaseId && !args.isRenewalCharge then
    maybeCreditConsumablePurchase order args.subscriberId (args.purchaseId.getD "")
  else pure ()

structure DispatchOutcome where
  subscriberId : Option String := none
  purchaseId : Option String := none
  isRenewalCharge : Bool := false

def postProcess (outcome : DispatchOutcome) : Service Unit :=
  -- the worker's `postProcess`: nothing without a subscriber
  match outcome.subscriberId with
  | none => pure ()
  | some subscriberId =>
    if subscriberId = "" then pure ()
    else runPostProcessing .createdAt
      { subscriberId := subscriberId
        purchaseId := outcome.purchaseId
        isRenewalCharge := outcome.isRenewalCharge }

theorem addCredits_each (order : LedgerOrder) (args : AddCreditsArgs) :
    (addCredits order args).Each fun _ ws => ∀ w ∈ ws, w.OnLedger := by
  have hnil : ∀ _ : Db, ∀ w ∈ ([] : List Write), w.OnLedger := by simp
  unfold addCredits
  split_ifs
  · trivial
  refine Prog.Each.transaction fun startedAt => (Prog.each_acquire hnil _).bind fun _ =>
    (Prog.each_query hnil _).bind fun subscriber => ?_
  cases subscriber with
  | none => trivial
  | some projectId =>
    refine (Prog.each_query hnil _).bind fun existing => ?_
    cases existing with
    | some row => trivial
    | none =>
      refine (Prog.each_query hnil _).bind fun last => ?_
      unfold insertCreditLedger
      split_ifs
      · trivial
      · exact fun _ => Prog.each_exec fun _ => by simp [Write.OnLedger]
      · trivial

theorem maybeCreditConsumablePurchase_each (order : LedgerOrder)
    (subscriberId purchaseId : String) :
    (maybeCreditConsumablePurchase order subscriberId purchaseId).Each
      fun _ ws => ∀ w ∈ ws, w.OnLedger := by
  have hnil : ∀ _ : Db, ∀ w ∈ ([] : List Write), w.OnLedger := by simp
  refine (Prog.each_query hnil _).bind fun purchase => ?_
  cases purchase with
  | none => trivial
  | some purchase =>
    refine (Prog.each_query hnil _).bind fun grants => Prog.each_forEach _ fun grant _ => ?_
    split_ifs
    · trivial
    · exact (addCredits_each _ _).bind fun _ => trivial

theorem postProcess_each (outcome : DispatchOutcome) :
    (postProcess outcome).Each fun _ ws => ∀ w ∈ ws, ¬w.OnPurchases := by
  unfold postProcess
  cases outcome.subscriberId with
  | none => trivial
  | some subscriberId =>
    dsimp only
    split_ifs
    · trivial
    · refine ((syncAccess_each _).mono fun _ ws h w hw => ?_).bind fun _ => ?_
      · have haccess := h w hw
        cases w <;> simp_all [Write.OnPurchases, Write.OnAccess]
      · split_ifs
        · refine (maybeCreditConsumablePurchase_each _ _ _).mono fun _ ws h w hw => ?_
          have hledger := h w hw
          cases w <;> simp_all [Write.OnPurchases, Write.OnLedger]
        · trivial

theorem postProcess_returns {outcome : DispatchOutcome} {subscriberId : String}
    (hsub : outcome.subscriberId = some subscriberId) (hset : subscriberId ≠ "")
    {c c' : Session Db Write String} {u : Unit} (h : (postProcess outcome).Returns c u c') :
    ∃ c₁, (syncAccess subscriberId).Returns c () c₁ ∧
      c'.view.subscriberAccess = c₁.view.subscriberAccess := by
  simp only [postProcess, hsub, hset, if_false, runPostProcessing, Prog.bind_eq,
    Prog.returns_bind] at h
  obtain ⟨_, c₁, hsync, h⟩ := h
  refine ⟨c₁, hsync, ?_⟩
  split_ifs at h
  · refine Prog.Each.returns (R := fun s s' : Db => s'.subscriberAccess = s.subscriberAccess)
      (fun _ => rfl) (fun h g => g.trans h) (fun s ws hws => ?_)
      (maybeCreditConsumablePurchase_each _ _ _) h
    refine applyAll_subscriberAccess s ws fun w hw => ?_
    have hledger := hws w hw
    cases w <;> simp_all [Write.OnAccess, Write.OnLedger]
  · rw [(Prog.returns_done.1 h).2]

end Rovenue
