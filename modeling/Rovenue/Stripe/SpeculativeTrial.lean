import Rovenue.Stripe.SyncSubscription
import Rovenue.Access.Ranking

/-! Whether a trial nobody has paid for is kept from entitling. The handler
withholds the grant; the sync that follows derives entitlements from the row's
status, and does not ask about payment. -/

namespace Rovenue
open Txn

/-- No active access row names the purchase. -/
def Unserved (s : Db) (purchaseId : String) : Prop :=
  ∀ id r, s.subscriberAccess.get? id = some r → r.purchaseId = purchaseId → r.isActive = false

theorem Unserved.congr {s s' : Db} {purchaseId : String}
    (h : s'.subscriberAccess = s.subscriberAccess) :
    Unserved s' purchaseId ↔ Unserved s purchaseId := by rw [Unserved, h, Unserved]

section Sync
variable {subscriberId purchaseId : String} {desired : Table String DesiredAccess} {s : Db}
  {ids : ℕ → String} {now : ℤ}

theorem unserved_sync_iff (hids : Function.Injective ids)
    (hfresh : ∀ n, s.subscriberAccess.get? (ids n) = none) (hnone : Unserved s purchaseId) :
    Unserved (applyAll s (syncWrites subscriberId desired s ids)) purchaseId ↔
      ∀ accessId target, desired.get? accessId = some target →
        target.purchaseId ≠ purchaseId := by
  constructor
  · intro h accessId target hd hp
    obtain ⟨id, r, hget, -, -, hpurchase, hact, -⟩ :=
      @synced_target subscriberId desired s ids accessId target hids hfresh hd
    simp [h id r hget (hpurchase.trans hp)] at hact
  · intro h id r hget hp
    by_contra hact
    rw [Bool.not_eq_false] at hact
    by_cases hsub : r.subscriberId = subscriberId
    · obtain ⟨target, hd, hpurchase, -⟩ := synced_active hids hfresh hget hsub hact
      exact h _ _ hd (hpurchase.symm.trans hp)
    · cases hs : s.subscriberAccess.get? id with
      | none =>
        rw [synced_new hs hids, ← Table.mem_entries] at hget
        obtain ⟨e, -, -, hrow⟩ := created_row hget
        exact hsub (congrArg SubscriberAccess.subscriberId hrow)
      | some r₀ =>
        have hne : ∀ n, ids n ≠ id := fun n hn => by simpa [hn, hs] using hfresh n
        have hsub₀ : r₀.subscriberId ≠ subscriberId := by
          intro h₀
          have hmem : (id, r₀) ∈ findAllAccessBySubscriber subscriberId s :=
            List.mem_filter.2 ⟨s.subscriberAccess.mem_entries.2 hs, by simpa using h₀⟩
          rw [synced_of_mem hmem hne, Option.some.injEq] at hget
          refine hsub (hget ▸ ?_)
          unfold syncedRow
          split
          · exact h₀
          · split_ifs <;> exact h₀
        rw [synced_of_other hs hsub₀ hne, Option.some.injEq] at hget
        subst hget
        simp [hnone id _ hs hp] at hact

theorem derives_iff {before after : List PurchaseWithAccessIds} {p : PurchaseWithAccessIds}
    (hbefore : ∀ q ∈ before, q.id ≠ p.id) (hafter : ∀ q ∈ after, q.id ≠ p.id) :
    (∃ accessId target,
        (computeDesiredAccess (before ++ p :: after) now).get? accessId = some target ∧
          target.purchaseId = p.id) ↔
      p.grantsAt now = true ∧ ∃ accessId ∈ p.accessIds,
        Leads (entitling before accessId now) (entitling after accessId now) p := by
  have hnot : ∀ l : List PurchaseWithAccessIds, (∀ q ∈ l, q.id ≠ p.id) → ∀ accessId,
      p ∉ entitling l accessId now := fun l hl accessId hp => hl p (List.mem_filter.1 hp).1 rfl
  have hsplit : ∀ accessId, entitling (before ++ p :: after) accessId now =
      if p.grantsAt now = true ∧ accessId ∈ p.accessIds then
        entitling before accessId now ++ p :: entitling after accessId now
      else entitling before accessId now ++ entitling after accessId now := by
    intro accessId
    by_cases hp : p.grantsAt now = true ∧ accessId ∈ p.accessIds <;>
      simp [entitling, List.filter_append, hp]
  constructor
  · rintro ⟨accessId, target, hd, htarget⟩
    obtain ⟨q, hmem, htop, rfl⟩ := derived_source hd
    obtain ⟨hlist, hgrants⟩ := List.mem_filter.1 hmem
    obtain rfl : q = p := by
      obtain hq | hq := List.mem_append.1 hlist
      · exact absurd htarget (hbefore q hq)
      · obtain rfl | hq := List.mem_cons.1 hq
        · rfl
        · exact absurd htarget (hafter q hq)
    obtain ⟨hgrants, hacc⟩ : q.grantsAt now = true ∧ accessId ∈ q.accessIds := by
      simpa using hgrants
    rw [hsplit, if_pos ⟨hgrants, hacc⟩,
      topRanked_eq_some_iff (hnot _ hbefore _) (hnot _ hafter _)] at htop
    exact ⟨hgrants, accessId, hacc, htop⟩
  · rintro ⟨hgrants, accessId, hacc, hleads⟩
    refine ⟨accessId, p.source, ?_, rfl⟩
    rw [computeDesiredAccess_get?, hsplit, if_pos ⟨hgrants, hacc⟩,
      (topRanked_eq_some_iff (hnot _ hbefore _) (hnot _ hafter _)).2 hleads]
    rfl

end Sync

def purchaseLeft (ctx : StripeContext) (subscription : StripeSubscription)
    (status : PurchaseStatus) (subscriberId productId : String) : Option Purchase → Purchase
  | none =>
    { id := ""
      projectId := ctx.projectId
      subscriberId := subscriberId
      productId := productId
      originalTransactionId := subscription.id
      status := status
      expiresDate := fromSeconds subscription.currentPeriodEnd }
  | some prior =>
    let left := { prior with expiresDate := fromSeconds subscription.currentPeriodEnd }
    if (syncGuard ctx subscription status).admits (some prior) then
      { left with status := status, productId := productId }
    else left

/-- The subscriber's own purchases other than the subscription's, as the sync
joins them, on either side of it. -/
def rivalsBefore (subscriberId : String) (key : PurchaseKey) (s : Db) :
    List PurchaseWithAccessIds := withAccessIds subscriberId s.products (s.purchases.before key)

def rivalsAfter (subscriberId : String) (key : PurchaseKey) (s : Db) :
    List PurchaseWithAccessIds := withAccessIds subscriberId s.products (s.purchases.after key)

/-- The row left belongs to the subscriber, grants at `now`, and none of the
subscriber's other purchases outranks it for some entitlement of its product. -/
def LeftEntitling (ctx : StripeContext) (subscription : StripeSubscription)
    (status : PurchaseStatus) (subscriberId productId : String) (now : ℤ) (s : Db) : Prop :=
  ∃ p ∈ withAccessIds subscriberId s.products [(stripeKey subscription.id,
      purchaseLeft ctx subscription status subscriberId productId
        (s.purchases.get? (stripeKey subscription.id)))],
    p.grantsAt now = true ∧ ∃ accessId ∈ p.accessIds,
      Leads (entitling (rivalsBefore subscriberId (stripeKey subscription.id) s) accessId now)
        (entitling (rivalsAfter subscriberId (stripeKey subscription.id) s) accessId now) p

theorem withAccessIds_append (subscriberId : String) (products : Table String Product)
    (xs ys : List PurchaseRecord) : withAccessIds subscriberId products (xs ++ ys) =
      withAccessIds subscriberId products xs ++ withAccessIds subscriberId products ys := by
  rw [withAccessIds, List.filter_append, List.filterMap_append, ← withAccessIds, ← withAccessIds]

theorem mem_withAccessIds {subscriberId : String} {products : Table String Product}
    {es : List PurchaseRecord} {p : PurchaseWithAccessIds}
    (h : p ∈ withAccessIds subscriberId products es) : ∃ e ∈ es, p.id = e.2.id := by
  obtain ⟨e, he, hp⟩ := List.mem_filterMap.1 h
  obtain ⟨product, -, rfl⟩ := Option.map_eq_some_iff.1 hp
  exact ⟨e, (List.mem_filter.1 he).1, rfl⟩

section Row
variable {ctx : StripeContext} {subscription : StripeSubscription} {status : PurchaseStatus}
  {subscriberId productId : String} {pendingProduct : Option String} {now startedAt : ℤ}
  {id : String} {prior : Option Purchase} {products : Table String Product}

theorem withAccessIds_row (hstatus : status ∉ repoTerminalStatuses) :
    withAccessIds subscriberId products [(stripeKey subscription.id,
        (subscriptionWrite ctx subscription subscriberId status productId pendingProduct now).row
          startedAt id prior)] =
      (withAccessIds subscriberId products [(stripeKey subscription.id,
        purchaseLeft ctx subscription status subscriberId productId prior)]).map fun p =>
          { p with id := ((subscriptionWrite ctx subscription subscriberId status productId
            pendingProduct now).row startedAt id prior).id } := by
  cases prior with
  | none =>
    simp only [withAccessIds, SubscriptionWrite.row, SubscriptionWrite.create, purchaseLeft,
      subscriptionWrite, SubscriptionWrite.expiresDate, decide_true, List.filter_cons,
      List.filter_nil, if_true, List.filterMap_cons, List.filterMap_nil]
    cases products.get? productId <;> rfl
  | some prior =>
    by_cases hadm : (syncGuard ctx subscription status).admits (some prior) = true
    · have hopen : prior.status ∉ repoTerminalStatuses := by
        intro hterm
        obtain hv | hv := admits_status hadm
        · have hsame : status = prior.status :=
            validateTransition_terminal (mem_repoTerminalStatuses.1 hterm) hv
          exact hstatus (hsame ▸ hterm)
        · simp [syncGuard] at hv
      simp only [withAccessIds, SubscriptionWrite.row, SubscriptionWrite.update, purchaseLeft,
        subscriptionWrite, SubscriptionWrite.refresh, GuardStatusWriteArgs.result, hadm, if_true,
        StatusGuard.patch, hopen, if_false, PurchasePatch.apply, Option.getD_some, Option.getD_none,
        SubscriptionWrite.expiresDate, List.filter_cons, List.filter_nil]
      split_ifs
      · simp only [List.filterMap_cons, List.filterMap_nil]
        cases products.get? productId <;> rfl
      · rfl
    · rw [Bool.not_eq_true] at hadm
      simp only [withAccessIds, SubscriptionWrite.row, SubscriptionWrite.update, purchaseLeft,
        subscriptionWrite, SubscriptionWrite.refresh, GuardStatusWriteArgs.result, hadm,
        Bool.false_eq_true, if_false, StatusGuard.patch, ite_self, PurchasePatch.apply,
        Option.getD_some, Option.getD_none, SubscriptionWrite.expiresDate, List.filter_cons,
        List.filter_nil]
      split_ifs
      · simp only [List.filterMap_cons, List.filterMap_nil]
        cases products.get? prior.productId <;> rfl
      · rfl

end Row

theorem speculative_status {subscription : StripeSubscription} {status : PurchaseStatus}
    (hspec : isSpeculativeInitialState subscription = true)
    (hmap : mapStripeSubscriptionStatus subscription.status = some status) :
    status ∉ repoTerminalStatuses := by
  obtain h | h := of_decide_eq_true hspec <;>
    · rw [h] at hmap
      obtain rfl := Option.some.inj hmap
      decide

theorem unserved_revoked (s : Db) (purchaseId : String) :
    Unserved (applyAll s (revokeWrites purchaseId s)) purchaseId := by
  intro id r hget hp
  rw [revoked_access, Option.map_eq_some_iff] at hget
  obtain ⟨r₀, -, rfl⟩ := hget
  split_ifs at hp ⊢ with h
  · rfl
  · exact absurd hp h

theorem desiredAt_source_iff {subscriberId : String} {s : Db} {now : ℤ} {key : PurchaseKey}
    {row : Purchase} {before after : List PurchaseRecord}
    (hentries : s.purchases.entries = before ++ (key, row) :: after)
    (hbefore : ∀ e ∈ before, e.2.id ≠ row.id) (hafter : ∀ e ∈ after, e.2.id ≠ row.id) :
    (∃ accessId target, (desiredAt subscriberId s now).get? accessId = some target ∧
        target.purchaseId = row.id) ↔
      ∃ p ∈ withAccessIds subscriberId s.products [(key, row)], p.grantsAt now = true ∧
        ∃ accessId ∈ p.accessIds,
          Leads (entitling (withAccessIds subscriberId s.products before) accessId now)
            (entitling (withAccessIds subscriberId s.products after) accessId now) p := by
  have hrivals : ∀ es : List PurchaseRecord, (∀ e ∈ es, e.2.id ≠ row.id) →
      ∀ q ∈ withAccessIds subscriberId s.products es, q.id ≠ row.id := by
    intro es hes q hq
    obtain ⟨e, he, hid⟩ := mem_withAccessIds hq
    exact hid ▸ hes e he
  have hlist : findPurchasesWithAccessIds subscriberId s =
      withAccessIds subscriberId s.products before ++
        (withAccessIds subscriberId s.products [(key, row)] ++
          withAccessIds subscriberId s.products after) := by
    rw [findPurchasesWithAccessIds, hentries, ← List.singleton_append, withAccessIds_append,
      withAccessIds_append]
  rw [desiredAt, hlist]
  have hone : withAccessIds subscriberId s.products [(key, row)] = [] ∨
      ∃ p, withAccessIds subscriberId s.products [(key, row)] = [p] ∧ p.id = row.id := by
    by_cases hsub : row.subscriberId = subscriberId
    · cases hp : s.products.get? row.productId with
      | none => simp [withAccessIds, hsub, hp]
      | some product => exact .inr ⟨_, by simp [withAccessIds, hsub, hp]; rfl, rfl⟩
    · simp [withAccessIds, hsub]
  obtain hnil | ⟨p, hp, hid⟩ := hone
  · refine iff_of_false ?_ (by simp [hnil])
    rintro ⟨accessId, target, hd, htarget⟩
    obtain ⟨q, hq, -, rfl⟩ := derived_source hd
    obtain hq | hq := List.mem_append.1 (List.mem_filter.1 hq).1
    · exact hrivals before hbefore q hq htarget
    · rw [hnil, List.nil_append] at hq
      exact hrivals after hafter q hq htarget
  · rw [hp, List.singleton_append, ← hid,
      derives_iff (hid ▸ hrivals before hbefore) (hid ▸ hrivals after hafter)]
    simp

theorem unserved_postProcess_iff {c c' : Session Db Write String} {subscriberId : String}
    {key : PurchaseKey} {row : Purchase} {before after : List PurchaseRecord}
    (hset : subscriberId ≠ "")
    (hentries : c.view.purchases.entries = before ++ (key, row) :: after)
    (hbefore : ∀ e ∈ before, e.2.id ≠ row.id) (hafter : ∀ e ∈ after, e.2.id ≠ row.id)
    (hids : Function.Injective c.ids)
    (hfresh : ∀ n, c.view.subscriberAccess.get? (c.ids n) = none)
    (hpost : (postProcess { subscriberId := some subscriberId, purchaseId := some row.id }).Returns
      (c.write (revokeWrites row.id c.view)) () c') :
    Unserved c'.view row.id ↔
      ¬∃ p ∈ withAccessIds subscriberId c.view.products [(key, row)],
        p.grantsAt (c.clock 1) = true ∧ ∃ accessId ∈ p.accessIds,
          Leads (entitling (withAccessIds subscriberId c.view.products before) accessId (c.clock 1))
            (entitling (withAccessIds subscriberId c.view.products after) accessId (c.clock 1)) p := by
  obtain ⟨c₁, hsync, haccess⟩ := postProcess_returns rfl hset hpost
  have hpurchases := applyAll_purchases c.view _ (revokeWrites_not_onPurchases row.id c.view)
  have hdesired := @desiredAt_source_iff subscriberId
    (applyAll c.view (revokeWrites row.id c.view)) (c.clock 1) key row before after
    (hpurchases ▸ hentries) hbefore hafter
  rw [applyAll_products] at hdesired
  rw [Unserved.congr haccess, syncAccess_returns hsync, ← hdesired, Session.write_view,
    Session.write_ids, Session.write_clock,
    unserved_sync_iff hids (fun n => ?_) (unserved_revoked c.view row.id)]
  · simp only [not_exists, not_and, ne_eq]
  · rw [revoked_access, hfresh, Option.map_none]

section Processed
variable {ctx : StripeContext} {subscription : StripeSubscription} {s : Db} {clock : ℕ → ℤ}
  {ids : ℕ → String} {status : PurchaseStatus}

theorem processed_speculative {c c' : Session Db Write String} {u : Unit}
    {resolved : Option SubscriberRow} {c₀ : Session Db Write String}
    (hmap : mapStripeSubscriptionStatus subscription.status = some status)
    (hspec : isSpeculativeInitialState subscription = true)
    (hunpaid : hasPaidOrAttachedACard subscription = false)
    (hres : (resolveStripeSubscriber ctx.projectId subscription).Returns c resolved c₀)
    (h : (processStripeEvent ctx (.subscriptionSync subscription)).Returns c u c') :
    match resolved with
    | none => c' = c₀
    | some subscriber => ∃ synced c₁, (writeSubscription ctx subscription subscriber.1
        status).Returns c₀ synced c₁ ∧
      (postProcess { subscriberId := some subscriber.1,
                     purchaseId := some synced.purchase.id }).Returns
        (c₁.write (revokeWrites synced.purchase.id c₁.view)) () c' := by
  simp only [processStripeEvent, StripeEventData.dispatch, syncSubscription, Prog.bind_eq,
    Prog.returns_bind] at h
  obtain ⟨outcome, c₂, ⟨resolved', c₁, hres', h⟩, hpost⟩ := h
  obtain ⟨rfl, rfl⟩ : resolved' = resolved ∧ c₁ = c₀ := by
    simpa using Except.ok.inj (hres'.symm.trans hres)
  cases resolved' with
  | none =>
    simp only [Prog.pure_eq, Prog.returns_done] at h
    obtain ⟨rfl, rfl⟩ := h
    exact (Prog.returns_done.1 hpost).2.symm
  | some subscriber =>
    simp only [hmap, hspec, hunpaid, Bool.not_true, Bool.or_false, Bool.and_false,
      Bool.false_eq_true, if_false, Prog.returns_bind, Prog.returns_autocommit,
      revokeAccessByPurchaseId, revokeAccess, Prog.returns_exec, Prog.pure_eq,
      Prog.returns_done] at h
    obtain ⟨synced, c₃, hwrite, _, c₄, ⟨-, rfl⟩, rfl, rfl⟩ := h
    exact ⟨synced, c₃, hwrite, hpost⟩

/-- After an unpaid speculative event the purchase serves nothing exactly when
the row the event leaves entitles to nothing of its own. -/
theorem unserved_iff_not_leftEntitling
    (hmap : mapStripeSubscriptionStatus subscription.status = some status)
    (hspec : isSpeculativeInitialState subscription = true)
    (hunpaid : hasPaidOrAttachedACard subscription = false)
    (hids : Function.Injective ids) (hfresh : ∀ n, s.subscriberAccess.get? (ids n) = none)
    {resolved : Option SubscriberRow} {c₀ c' : Session Db Write String} {row : Purchase}
    (hres : (resolveStripeSubscriber ctx.projectId subscription).Returns
      (.start s clock ids) resolved c₀)
    (h : (processStripeEvent ctx (.subscriptionSync subscription)).Returns
      (.start s clock ids) () c')
    (hrow : c'.view.purchases.get? (stripeKey subscription.id) = some row)
    (hkey : ∀ key r, s.purchases.get? key = some r → r.id = row.id →
      key = stripeKey subscription.id)
    (hprior : Unserved s row.id) :
    Unserved c'.view row.id ↔
      ∀ subscriber ∈ resolved, subscriber.1 ≠ "" → ∀ product ∈ eventProduct ctx subscription s,
        ¬LeftEntitling ctx subscription status subscriber.1 product.1 (clock 3) s := by
  have hp := processed_speculative hmap hspec hunpaid hres h
  have hanchor := resolveStripeSubscriber_returns hres
  cases resolved with
  | none =>
    obtain rfl : c' = c₀ := hp
    simpa [Unserved.congr hanchor.subscriberAccess] using hprior
  | some subscriber =>
    obtain ⟨synced, c₁, hwrite, hpost⟩ := hp
    obtain ⟨priceId, product, pendingProduct, hprice, hfound, rfl, hclock, hidstream, hentries,
      hproducts, haccess⟩ := writeSubscription_returns hwrite
    have hproduct : eventProduct ctx subscription s = some product := by
      rw [eventProduct, hprice, Option.bind_some, ← hfound, findProductByStoreId,
        findProductByStoreId, hanchor.products]
      rfl
    rw [hanchor.purchases, Session.start_view] at hentries
    dsimp only at hpost
    generalize hw : subscriptionWrite ctx subscription subscriber.1 status product.1 pendingProduct
      (c₀.clock 1) = w at hentries hpost
    have hpurchases : c'.view.purchases = c₁.view.purchases := by
      refine (Prog.Each.returns (R := fun s s' : Db => s'.purchases = s.purchases) (fun _ => rfl)
        (fun h g => g.trans h) (fun s ws hws => applyAll_purchases s ws hws)
        (postProcess_each _) hpost).trans ?_
      exact applyAll_purchases _ _ (revokeWrites_not_onPurchases _ _)
    have hmine : c₁.view.purchases.get? (stripeKey subscription.id) =
        some (w.row (c₀.clock 0) (c₀.ids 0) (s.purchases.get? (stripeKey subscription.id))) :=
      c₁.view.purchases.mem_entries.1 (by simp [hentries])
    rw [hpurchases, hmine, Option.some.injEq] at hrow
    rw [hanchor.purchases, Session.start_view, hrow] at hpost
    rw [hrow] at hentries
    simp only [Option.mem_some_iff, forall_eq', hproduct]
    by_cases hset : subscriber.1 = ""
    · have hc' : c₁.write (revokeWrites row.id c₁.view) = c' := by
        simpa [postProcess, hset] using hpost
      exact iff_of_true (hc' ▸ unserved_revoked c₁.view row.id) fun hne => absurd hset hne
    have hother : ∀ e ∈ s.purchases.entries, e.1 ≠ stripeKey subscription.id → e.2.id ≠ row.id :=
      fun e he hne hid => hne (hkey e.1 e.2 (s.purchases.mem_entries.1 he) hid)
    obtain ⟨k, hk⟩ := hanchor.ids
    rw [unserved_postProcess_iff hset hentries
      (fun e he => hother e (Table.mem_before _ he).1 (Table.mem_before _ he).2)
      (fun e he => hother e (Table.mem_after _ he).1 (Table.mem_after _ he).2) ?_ ?_ hpost]
    · rw [hproducts, hanchor.products, hclock, hanchor.clock, ← hrow, ← hw,
        withAccessIds_row (speculative_status hspec hmap), LeftEntitling, rivalsBefore, rivalsAfter]
      simp only [hset, not_false_eq_true, true_imp_iff, List.mem_map, ne_eq]
      refine not_congr ⟨?_, ?_⟩
      · rintro ⟨_, ⟨p, hp, rfl⟩, hgrants, accessId, hacc, hleads⟩
        exact ⟨p, hp, hgrants, accessId, hacc, hleads⟩
      · rintro ⟨p, hp, hgrants, accessId, hacc, hleads⟩
        exact ⟨_, ⟨p, hp, rfl⟩, hgrants, accessId, hacc, hleads⟩
    · intro m n hmn
      rw [hidstream, hk] at hmn
      have := hids hmn
      omega
    · intro n
      rw [hidstream, hk, haccess, hanchor.subscriberAccess]
      exact hfresh _

end Processed

def trialDb : Db where
  products := Table.empty.insert "prod"
    { projectId := "p1", identifier := "pro"
      storeIds := [("stripe", "price1")], accessIds := ["pro"] }

def trialContext : StripeContext := { projectId := "p1", created := 5 }

def trialSubscription : StripeSubscription where
  id := "sub1"
  customer := "cus1"
  status := .trialing
  priceIds := ["price1"]
  currentPeriodEnd := some 100

/-- `customer.subscription.created` for a trial without a card. -/
theorem unpaid_trial_entitles :
    hasPaidOrAttachedACard trialSubscription = false ∧ trialDb.subscriberAccess.entries = [] ∧
      ∃ c', (processStripeEvent trialContext (.subscriptionSync trialSubscription)).Returns
          (.start trialDb (fun _ => 10) freshIds) () c' ∧
        ∃ row access, c'.view.purchases.get? (stripeKey "sub1") = some row ∧
          row.status = .trial ∧ c'.view.subscriberAccess.get? "xxx" = some access ∧
          access.purchaseId = row.id ∧ access.isActive = true ∧ ¬Unserved c'.view row.id := by
  refine ⟨by decide, rfl, _, rfl, _, _, rfl, rfl, rfl, rfl, rfl, fun h => ?_⟩
  exact absurd (h "xxx" _ rfl rfl) (by decide)

def trialAnchor : SubscriberRow :=
  ("x", { projectId := "p1", rovenueId := "stripe:cus1", appUserId := some "stripe:cus1" })

theorem unserved_iff_not_leftEntitling_trial :
    ∃ c' row, (processStripeEvent trialContext (.subscriptionSync trialSubscription)).Returns
        (.start trialDb (fun _ => 10) freshIds) () c' ∧
      c'.view.purchases.get? (stripeKey "sub1") = some row ∧
      (Unserved c'.view row.id ↔ ∀ subscriber ∈ some trialAnchor, subscriber.1 ≠ "" →
        ∀ product ∈ eventProduct trialContext trialSubscription trialDb,
          ¬LeftEntitling trialContext trialSubscription .trial subscriber.1 product.1 10 trialDb) := by
  refine ⟨_, _, rfl, rfl, ?_⟩
  exact @unserved_iff_not_leftEntitling trialContext trialSubscription trialDb (fun _ => 10)
    freshIds .trial rfl rfl rfl freshIds_injective (fun _ => rfl) _ _ _ _ rfl rfl rfl
    (fun key r h => by simp [trialDb] at h) (fun id r h => by simp [trialDb] at h)

end Rovenue
