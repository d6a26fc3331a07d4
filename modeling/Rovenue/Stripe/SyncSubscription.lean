import Rovenue.Stripe.StripeWebhook
import Rovenue.Access.Sync

/-! What one processed subscription event leaves: the row it writes, and the
tables it does not. -/

namespace Rovenue
open Txn

theorem followMergedInto_returns {hops : ℕ} {cursor : SubscriberRow}
    {c c' : Session Db Write String} {r : Option SubscriberRow}
    (h : (followMergedInto hops cursor).Returns c r c') : c' = c := by
  induction hops generalizing cursor with
  | zero => exact (Prog.returns_done.1 h).2.symm
  | succ hops ih =>
    unfold followMergedInto at h
    split at h
    · simp only [Prog.bind_eq, Prog.returns_bind, Prog.returns_query] at h
      obtain ⟨next, c₁, ⟨-, rfl⟩, h⟩ := h
      cases next with
      | none => exact (Prog.returns_done.1 h).2.symm
      | some cursor => exact ih h
    · exact (Prog.returns_done.1 h).2.symm
    · exact (Prog.returns_done.1 h).2.symm

theorem resolveSubscriberByRovenueId_returns {projectId rovenueId : String}
    {c c' : Session Db Write String} {r : Option SubscriberRow}
    (h : (resolveSubscriberByRovenueId projectId rovenueId).Returns c r c') : c' = c := by
  simp only [resolveSubscriberByRovenueId, Prog.bind_eq, Prog.returns_bind,
    Prog.returns_query] at h
  obtain ⟨found, c₁, ⟨-, rfl⟩, h⟩ := h
  cases found with
  | none => exact (Prog.returns_done.1 h).2.symm
  | some row =>
    dsimp only at h
    split_ifs at h
    · exact (Prog.returns_done.1 h).2.symm
    · exact followMergedInto_returns h

structure OnlySubscribers (c c' : Session Db Write String) : Prop where
  clock : c'.clock = c.clock
  ids : ∃ k, c'.ids = fun n => c.ids (n + k)
  purchases : c'.view.purchases = c.view.purchases
  products : c'.view.products = c.view.products
  subscriberAccess : c'.view.subscriberAccess = c.view.subscriberAccess

theorem OnlySubscribers.refl (c : Session Db Write String) : OnlySubscribers c c :=
  ⟨rfl, ⟨0, rfl⟩, rfl, rfl, rfl⟩

theorem upsertSubscriber_returns {input : UpsertSubscriberInput} {c c' : Session Db Write String}
    {r : SubscriberRow} (h : (upsertSubscriber input).Returns c r c') : OnlySubscribers c c' := by
  simp only [upsertSubscriber, Prog.bind_eq, Prog.returns_bind, Prog.returns_fresh,
    Prog.returns_autocommit, Prog.returns_exec] at h
  obtain ⟨id, c₁, ⟨rfl, rfl⟩, -, rfl⟩ := h
  refine ⟨rfl, ⟨1, rfl⟩, ?_, by simp, ?_⟩
  all_goals
    cases hr : findSubscriberByRovenueId input.projectId input.rovenueId c.view <;>
      simp [hr, Db.write]

theorem resolveStripeSubscriber_returns {projectId : String} {subscription : StripeSubscription}
    {c c' : Session Db Write String} {r : Option SubscriberRow}
    (h : (resolveStripeSubscriber projectId subscription).Returns c r c') :
    OnlySubscribers c c' := by
  simp only [resolveStripeSubscriber, Prog.bind_eq, Prog.returns_bind] at h
  obtain ⟨resolved, c₁, hr, h⟩ := h
  obtain rfl := resolveSubscriberByRovenueId_returns hr
  cases resolved with
  | some row => obtain ⟨-, rfl⟩ := Prog.returns_done.1 h; exact .refl _
  | none =>
    simp only [Prog.returns_bind, Prog.returns_query] at h
    obtain ⟨existing, c₂, ⟨-, rfl⟩, h⟩ := h
    cases existing with
    | some row => obtain ⟨-, rfl⟩ := Prog.returns_done.1 h; exact .refl _
    | none =>
      simp only [Prog.returns_bind] at h
      obtain ⟨row, c₃, hu, h⟩ := h
      obtain ⟨-, rfl⟩ := Prog.returns_done.1 h
      exact upsertSubscriber_returns hu

def eventProduct (ctx : StripeContext) (subscription : StripeSubscription) (s : Db) :
    Option (String × Product) :=
  subscription.priceIds.head?.bind fun priceId =>
    findProductByStoreId ctx.projectId "stripe" priceId s

theorem eventProduct_congr {s s' : Db} (h : s'.products = s.products) :
    eventProduct ctx subscription s' = eventProduct ctx subscription s := by
  simp only [eventProduct, findProductByStoreId, h]

section Write
variable {ctx : StripeContext} {subscription : StripeSubscription} {subscriberId : String}
  {status : PurchaseStatus}

def SubscriptionWrite.row (w : SubscriptionWrite) (startedAt : ℤ) (id : String) :
    Option Purchase → Purchase
  | none => { w.create startedAt with id := id }
  | some prior => StatusGuard.caseTerminal.patch
      (w.update ((syncGuard w.ctx w.subscription w.status).result (some prior))) prior

theorem upsertWrites_entries (key : PurchaseKey) (create : Purchase) (update : PurchasePatch)
    (s : Db) : (applyAll s (upsertWrites key create update s)).purchases.entries =
      s.purchases.before key ++ (key, upsertedRow key create update s) :: s.purchases.after key := by
  unfold upsertWrites upsertedRow
  cases h : s.purchases.get? key with
  | none => simp [Db.write, Table.entries_insert _ h]
  | some row => simp [Db.write, Table.entries_modify _ h]

theorem upsertWrites_onPurchases (key : PurchaseKey) (create : Purchase) (update : PurchasePatch)
    (s : Db) : ∀ w ∈ upsertWrites key create update s, w.OnPurchases := by
  unfold upsertWrites
  cases s.purchases.get? key <;> simp [Write.OnPurchases]

theorem writeSubscription_returns {c c' : Session Db Write String} {r : SyncedSubscription}
    (h : (writeSubscription ctx subscription subscriberId status).Returns c r c') :
    ∃ priceId product pendingProduct, subscription.priceIds.head? = some priceId ∧
      findProductByStoreId ctx.projectId "stripe" priceId c.view = some product ∧
      let w := subscriptionWrite ctx subscription subscriberId status product.1 pendingProduct
        (c.clock 1)
      let prior := c.view.purchases.get? (stripeKey subscription.id)
      r = ⟨product, w.row (c.clock 0) (c.ids 0) prior,
        (syncGuard ctx subscription status).admits prior⟩ ∧
      c'.clock = (fun n => c.clock (n + 2)) ∧ c'.ids = (fun n => c.ids (n + 1)) ∧
      c'.view.purchases.entries = c.view.purchases.before (stripeKey subscription.id) ++
        (stripeKey subscription.id, w.row (c.clock 0) (c.ids 0) prior) ::
          c.view.purchases.after (stripeKey subscription.id) ∧
      c'.view.products = c.view.products ∧
      c'.view.subscriberAccess = c.view.subscriberAccess := by
  simp only [writeSubscription, Prog.returns_transaction, Prog.bind_eq, Prog.returns_bind,
    returns_guardStatusWrite, upsertPurchaseFromSubscription] at h
  obtain ⟨guard, c₁, ⟨rfl, rfl⟩, result, c₂, h, hr⟩ := h
  obtain ⟨rfl, rfl⟩ := Prog.returns_done.1 hr
  cases hprice : subscription.priceIds.head? with
  | none => simp [hprice] at h
  | some priceId =>
    simp only [hprice, Prog.returns_bind, Prog.returns_query] at h
    obtain ⟨found, c₃, ⟨hfound, rfl⟩, h⟩ := h
    cases found with
    | none => exact (Prog.returns_fail h).elim
    | some product =>
      simp only [Prog.returns_bind, Prog.returns_query, Prog.returns_now, upsertPurchase,
        Prog.bind_eq, Prog.returns_fresh, Prog.returns_exec, Prog.pure_eq,
        Prog.returns_done] at h
      obtain ⟨now, c₄, ⟨rfl, rfl⟩, pendingProduct, c₅, ⟨-, rfl⟩, purchase, c₆,
        ⟨id, c₇, ⟨rfl, rfl⟩, rfl, rfl⟩, rfl, rfl⟩ := h
      have hrow : ∀ (w : SubscriptionWrite) (startedAt : ℤ) (id : String) (key : PurchaseKey)
          (hctx : syncGuard w.ctx w.subscription w.status = syncGuard ctx subscription status),
          upsertedRow key { w.create startedAt with id := id } (w.update
            ((syncGuard ctx subscription status).result (c.view.purchases.get? key))) c.view =
          w.row startedAt id (c.view.purchases.get? key) := by
        intro w startedAt id key hctx
        unfold upsertedRow SubscriptionWrite.row
        cases c.view.purchases.get? key <;> simp [hctx]
      refine ⟨priceId, product, pendingProduct, rfl, hfound, ?_, rfl, rfl, ?_, ?_, ?_⟩
      · rw [← hrow _ _ _ _ rfl]
        rfl
      · rw [← hrow _ _ _ _ rfl]
        exact upsertWrites_entries ..
      · simp
      · refine applyAll_subscriberAccess _ _ fun w hw => ?_
        have hpurchases := upsertWrites_onPurchases _ _ _ _ w hw
        cases w <;> simp_all [Write.OnPurchases, Write.OnAccess]

end Write

theorem processed_row {ctx : StripeContext} {subscription : StripeSubscription}
    {status : PurchaseStatus} {c c₀ c' : Session Db Write String} {subscriber : SubscriberRow}
    (hmap : mapStripeSubscriptionStatus subscription.status = some status)
    (hres : (resolveStripeSubscriber ctx.projectId subscription).Returns c (some subscriber) c₀)
    (h : (processStripeEvent ctx (.subscriptionSync subscription)).Returns c () c') :
    ∃ product pendingProduct id, eventProduct ctx subscription c.view = some product ∧
      c'.view.purchases.get? (stripeKey subscription.id) =
        some ((subscriptionWrite ctx subscription subscriber.1 status product.1 pendingProduct
          (c₀.clock 1)).row (c₀.clock 0) id (c.view.purchases.get? (stripeKey subscription.id))) ∧
      c'.view.products = c.view.products := by
  simp only [processStripeEvent, StripeEventData.dispatch, syncSubscription, Prog.bind_eq,
    Prog.returns_bind] at h
  obtain ⟨outcome, c₂, ⟨resolved, c₁, hres', h⟩, hpost⟩ := h
  obtain ⟨rfl, rfl⟩ : resolved = some subscriber ∧ c₁ = c₀ := by
    simpa using Except.ok.inj (hres'.symm.trans hres)
  simp only [hmap, Prog.returns_bind] at h
  obtain ⟨synced, c₃, hwrite, h⟩ := h
  have hanchor := resolveStripeSubscriber_returns hres
  obtain ⟨priceId, product, pendingProduct, hprice, hfound, -, -, -, hentries, hproducts, -⟩ :=
    writeSubscription_returns hwrite
  have hkeep : c₂.view.purchases = c₃.view.purchases ∧ c₂.view.products = c₃.view.products := by
    split_ifs at h
    · refine keeps_purchases_of_each (Prog.Each.bind ?_ fun _ => ?_) h
      · exact (grantAccess_each _).mono fun _ _ h w hw => (h w hw).not_onPurchases
      · trivial
    · refine keeps_purchases_of_each (Prog.Each.bind (.autocommit ?_) fun _ => ?_) h
      · exact (revokeAccessByPurchaseId_each _).mono fun _ _ h w hw => (h w hw).not_onPurchases
      · trivial
  obtain ⟨hpurchases, hlast⟩ := keeps_purchases_of_each (postProcess_each _) hpost
  refine ⟨product, pendingProduct, c₁.ids 0, ?_, ?_, ?_⟩
  · rw [eventProduct, hprice, Option.bind_some, ← hfound, findProductByStoreId,
      findProductByStoreId, hanchor.products]
  · rw [hpurchases, hkeep.1, ← hanchor.purchases]
    exact c₃.view.purchases.mem_entries.1 (by simp [hentries])
  · rw [hlast, hkeep.2, hproducts, hanchor.products]

end Rovenue
