import Rovenue.Stripe.SyncSubscription

/-! The events of one subscription in any order of delivery. The guard holds the
status and the product to the newest event; the period end follows the delivery. -/

namespace Rovenue
open Txn

structure StripeDelivery where
  ctx : StripeContext
  subscription : StripeSubscription

namespace StripeDelivery
variable (d : StripeDelivery)

def created : ℤ := d.ctx.created

def status : Option PurchaseStatus := mapStripeSubscriptionStatus d.subscription.status

def productId (s : Db) : Option String := (eventProduct d.ctx d.subscription s).map Prod.fst

def expiresDate : Option ℤ := fromSeconds d.subscription.currentPeriodEnd

def Processed (c : Session Db Write String) (resolved : Option SubscriberRow) (s' : Db) : Prop :=
  -- the event, processed from the state `c` starts in, for the subscriber it resolves
  ∃ c₀ c', (resolveStripeSubscriber d.ctx.projectId d.subscription).Returns c resolved c₀ ∧
    (processStripeEvent d.ctx (.subscriptionSync d.subscription)).Returns c () c' ∧ c'.view = s'

end StripeDelivery

/-- Subscription events processed one after another. A delivery whose anchor is
dead is skipped, and not listed. -/
inductive Delivered : Db → List StripeDelivery → Db → Prop where
  | nil (s : Db) : Delivered s [] s
  | skip {d : StripeDelivery} {s s₁ s' : Db} {ds : List StripeDelivery} (clock : ℕ → ℤ)
      (ids : ℕ → String) (h : d.Processed (.start s clock ids) none s₁)
      (rest : Delivered s₁ ds s') : Delivered s ds s'
  | take {d : StripeDelivery} {s s₁ s' : Db} {ds : List StripeDelivery} (clock : ℕ → ℤ)
      (ids : ℕ → String) (subscriber : SubscriberRow)
      (h : d.Processed (.start s clock ids) (some subscriber) s₁)
      (rest : Delivered s₁ ds s') : Delivered s (d :: ds) s'

/-- The status graph allows either event's status after the other's. -/
def Exchangeable (d e : StripeDelivery) : Prop :=
  ∃ a b, d.status = some a ∧ e.status = some b ∧ validateTransition a b = true

/-- The row carries `newest`'s status, product and event time, and `last`'s period end. -/
structure Tracks (s : Db) (key : PurchaseKey) (newest last : StripeDelivery) (row : Purchase) :
    Prop where
  get : s.purchases.get? key = some row
  status : newest.status = some row.status
  productId : newest.productId s = some row.productId
  lastStoreEventAt : row.lastStoreEventAt = some (newest.created * 1000)
  expiresDate : row.expiresDate = last.expiresDate

section Steps
variable {s s' : Db} {clock : ℕ → ℤ} {ids : ℕ → String} {id : String} {d : StripeDelivery}

theorem stripeEventTime_of_ne {ctx : StripeContext} (h : ctx.created ≠ 0) :
    stripeEventTime ctx = some (ctx.created * 1000) := by simp [stripeEventTime, fromSeconds, h]

theorem mapStripeSubscriptionStatus_open {label : StripeSubscriptionStatus}
    {status : PurchaseStatus} (h : mapStripeSubscriptionStatus label = some status) :
    status ∉ repoTerminalStatuses := by
  cases label <;> simp only [mapStripeSubscriptionStatus, Option.some.injEq, reduceCtorEq] at h <;>
    subst h <;> decide

theorem skipped_keeps (h : d.Processed (.start s clock ids) none s') :
    s'.purchases = s.purchases ∧ s'.products = s.products := by
  obtain ⟨c₀, c', hres, h, rfl⟩ := h
  have hanchor := resolveStripeSubscriber_returns hres
  simp only [processStripeEvent, StripeEventData.dispatch, syncSubscription, Prog.bind_eq,
    Prog.returns_bind] at h
  obtain ⟨outcome, c₂, ⟨resolved, c₁, hres', h⟩, hpost⟩ := h
  obtain ⟨rfl, rfl⟩ : resolved = none ∧ c₁ = c₀ := by
    simpa using Except.ok.inj (hres'.symm.trans hres)
  simp only [Prog.pure_eq, Prog.returns_done] at h
  obtain ⟨rfl, rfl⟩ := h
  obtain rfl := (Prog.returns_done.1 hpost).2
  exact ⟨hanchor.purchases, hanchor.products⟩

theorem first_tracks {subscriber : SubscriberRow} (hid : d.subscription.id = id)
    (hcreated : d.created ≠ 0) (hstatus : d.status.isSome)
    (hnone : s.purchases.get? (stripeKey id) = none)
    (h : d.Processed (.start s clock ids) (some subscriber) s') :
    ∃ row, Tracks s' (stripeKey id) d d row := by
  subst hid
  obtain ⟨status, hmap⟩ := Option.isSome_iff_exists.1 hstatus
  obtain ⟨c₀, c', hres, hproc, rfl⟩ := h
  obtain ⟨product, pendingProduct, rowId, hproduct, hrow, hproducts⟩ :=
    processed_row hmap hres hproc
  rw [Session.start_view, hnone] at hrow
  refine ⟨_, ⟨hrow, hmap, ?_, stripeEventTime_of_ne hcreated, rfl⟩⟩
  rw [StripeDelivery.productId, eventProduct_congr hproducts, hproduct]
  rfl

theorem next_tracks {subscriber : SubscriberRow} {newest last : StripeDelivery} {row : Purchase}
    (hid : d.subscription.id = id) (hcreated : d.created ≠ 0) (hlegal : Exchangeable newest d)
    (ht : Tracks s (stripeKey id) newest last row)
    (h : d.Processed (.start s clock ids) (some subscriber) s') :
    ∃ row', Tracks s' (stripeKey id) (if newest.created ≤ d.created then d else newest) d row' := by
  -- every later one takes the status and the product only from a newer event, and the period end
  -- regardless
  subst hid
  obtain ⟨a, status, ha, hmap, hedge⟩ := hlegal
  obtain rfl : a = row.status := Option.some.inj (ha.symm.trans ht.status)
  obtain ⟨c₀, c', hres, hproc, rfl⟩ := h
  obtain ⟨product, pendingProduct, rowId, hproduct, hrow, hproducts⟩ :=
    processed_row hmap hres hproc
  have hopen : row.status ∉ repoTerminalStatuses := mapStripeSubscriptionStatus_open ha
  have htime := stripeEventTime_of_ne hcreated
  rw [Session.start_view, ht.get, SubscriptionWrite.row, StatusGuard.patch_open hopen,
    SubscriptionWrite.update] at hrow
  have hadmits : (syncGuard d.ctx d.subscription status).admits (some row) =
      decide (newest.created ≤ d.created) := by
    have hdec : (decideTransition (some row.status) status).apply = true := hedge
    rw [Bool.eq_iff_iff, decide_eq_true_eq, GuardStatusWriteArgs.admits, staleFor, syncGuard,
      htime, ht.lastStoreEventAt]
    simp only [Option.any_some, hdec, Bool.true_or, Bool.and_true, Bool.not_eq_true',
      decide_eq_false_iff_not, not_lt, StripeDelivery.created]
    omega
  have hguard : ((syncGuard d.ctx d.subscription status).result (some row)).apply =
      decide (newest.created ≤ d.created) := hadmits
  split_ifs with hle
  · rw [if_pos (by simpa [subscriptionWrite] using hguard.trans (decide_eq_true hle))] at hrow
    refine ⟨_, ⟨hrow, hmap, ?_, ?_, rfl⟩⟩
    · rw [StripeDelivery.productId, eventProduct_congr hproducts, hproduct]
      rfl
    · simp [subscriptionWrite, PurchasePatch.apply, htime, StripeDelivery.created]
  · rw [if_neg (by simpa [subscriptionWrite] using hguard.trans (decide_eq_false hle))] at hrow
    refine ⟨_, ⟨hrow, ht.status, ?_, ht.lastStoreEventAt, rfl⟩⟩
    rw [StripeDelivery.productId, eventProduct_congr hproducts]
    exact ht.productId

end Steps

theorem delivered_tracks {s s' : Db} {id : String} {ds : List StripeDelivery}
    {newest last : StripeDelivery} {row : Purchase} (run : Delivered s ds s')
    (hid : ∀ d ∈ ds, d.subscription.id = id) (hcreated : ∀ d ∈ ds, d.created ≠ 0)
    (hlegal : ∀ d ∈ newest :: ds, ∀ e ∈ newest :: ds, Exchangeable d e)
    (ht : Tracks s (stripeKey id) newest last row) :
    ∃ newest' row', newest' ∈ newest :: ds ∧ (∀ d ∈ newest :: ds, d.created ≤ newest'.created) ∧
      Tracks s' (stripeKey id) newest' (ds.getLastD last) row' := by
  induction run generalizing newest last row with
  | nil s => exact ⟨newest, row, by simp, by simp, ht⟩
  | skip clock ids h rest ih =>
    obtain ⟨hpurchases, hproducts⟩ := skipped_keeps h
    have hkept : Tracks _ (stripeKey id) newest last row :=
      ⟨hpurchases ▸ ht.get, ht.status, by
        rw [StripeDelivery.productId, eventProduct_congr hproducts]
        exact ht.productId, ht.lastStoreEventAt, ht.expiresDate⟩
    exact ih hid hcreated hlegal hkept
  | @take d s s₁ s' ds clock ids subscriber h rest ih =>
    obtain ⟨row₁, ht₁⟩ := next_tracks (hid d (by simp)) (hcreated d (by simp))
      (hlegal newest (by simp) d (by simp)) ht h
    generalize hn : (if newest.created ≤ d.created then d else newest) = n at ht₁
    have hmem : ∀ e ∈ n :: ds, e ∈ newest :: d :: ds := by
      intro e he
      obtain rfl | he := List.mem_cons.1 he
      · rw [← hn]
        split_ifs <;> simp
      · simp [he]
    obtain ⟨newest', row', hin, hmax, ht'⟩ := ih (fun e he => hid e (by simp [he]))
      (fun e he => hcreated e (by simp [he]))
      (fun e he e' he' => hlegal e (hmem e he) e' (hmem e' he')) ht₁
    have hmaxn := hmax n (by simp)
    have hboth : newest.created ≤ n.created ∧ d.created ≤ n.created := by
      rw [← hn]
      split_ifs <;> omega
    refine ⟨newest', row', hmem _ hin, fun e he => ?_, by rwa [List.getLastD_cons]⟩
    obtain rfl | he := List.mem_cons.1 he
    · exact hboth.1.trans hmaxn
    · obtain rfl | he := List.mem_cons.1 he
      · exact hboth.2.trans hmaxn
      · exact hmax e (by simp [he])

theorem Delivered.products {s s' : Db} {ds : List StripeDelivery} (run : Delivered s ds s') :
    s'.products = s.products := by
  have hone : ∀ {d : StripeDelivery} {s s' : Db} {clock : ℕ → ℤ} {ids : ℕ → String}
      {resolved : Option SubscriberRow}, d.Processed (.start s clock ids) resolved s' →
      s'.products = s.products := by
    rintro d s - clock ids resolved ⟨c₀, c', -, h, rfl⟩
    obtain ⟨ws, -, hview⟩ := h.view
    rw [hview, applyAll_products, Session.start_view]
  induction run with
  | nil s => rfl
  | skip clock ids h rest ih => rw [ih, hone h]
  | take clock ids subscriber h rest ih => rw [ih, hone h]

/-- Whatever the order of delivery, the row ends with the status and the product
of the newest event, and with the period end of the one delivered last. -/
theorem newest_status_last_expiry {s s' : Db} {id : String} {ds : List StripeDelivery}
    {newest last : StripeDelivery} (run : Delivered s ds s')
    (hnone : s.purchases.get? (stripeKey id) = none)
    (hid : ∀ d ∈ ds, d.subscription.id = id) (hcreated : ∀ d ∈ ds, d.created ≠ 0)
    (hdistinct : (ds.map StripeDelivery.created).Nodup)
    (hlegal : ∀ d ∈ ds, ∀ e ∈ ds, Exchangeable d e)
    (hnewest : newest ∈ ds ∧ ∀ d ∈ ds, d.created ≤ newest.created)
    (hlast : ds.getLast? = some last) :
    ∃ row, s'.purchases.get? (stripeKey id) = some row ∧ newest.status = some row.status ∧
      newest.productId s = some row.productId ∧ row.expiresDate = last.expiresDate := by
  rw [StripeDelivery.productId, ← eventProduct_congr run.products]
  induction run with
  | nil s => simp at hlast
  | skip clock ids h rest ih =>
    exact ih ((skipped_keeps h).1 ▸ hnone) hid hcreated hdistinct hlegal hnewest hlast
  | @take d s s₁ s' ds clock ids subscriber h rest =>
    obtain ⟨_, _, hstatus, -⟩ := hlegal d (by simp) d (by simp)
    obtain ⟨row, ht⟩ := first_tracks (hid d (by simp)) (hcreated d (by simp))
      (by simp [hstatus]) hnone h
    obtain ⟨newest', row', hin, hmax, ht'⟩ := delivered_tracks rest
      (fun e he => hid e (by simp [he])) (fun e he => hcreated e (by simp [he])) hlegal ht
    obtain rfl : newest' = newest := List.inj_on_of_nodup_map hdistinct hin hnewest.1
      ((hnewest.2 _ hin).antisymm (hmax _ hnewest.1))
    obtain rfl : ds.getLastD d = last := by
      rw [List.getLast?_cons, Option.some.injEq] at hlast
      rw [← hlast, List.getLastD_eq_getLast?]
    exact ⟨row', ht'.get, ht'.status, ht'.productId, ht'.expiresDate⟩

def orderDb : Db where
  products := ⟨[("prod", { projectId := "p1", identifier := "pro"
                           storeIds := [("stripe", "price1")], accessIds := ["pro"] })], by decide⟩

def orderDelivery (created periodEnd : ℤ) : StripeDelivery where
  ctx := { projectId := "p1", created := created }
  subscription :=
    { id := "sub1"
      customer := "cus1"
      status := .active
      priceIds := ["price1"]
      currentPeriodEnd := some periodEnd }

theorem orderDelivery_exchangeable (created periodEnd created' periodEnd' : ℤ) :
    Exchangeable (orderDelivery created periodEnd) (orderDelivery created' periodEnd') :=
  ⟨.active, .active, rfl, rfl, rfl⟩

theorem renewal_then_stale :
    ∃ s', Delivered orderDb [orderDelivery 200 1000, orderDelivery 100 500] s' ∧
      ∃ row, s'.purchases.get? (stripeKey "sub1") = some row ∧ row.expiresDate = some 500000 :=
  ⟨_, .take (fun _ => 10) freshIds _ ⟨_, _, rfl, rfl, rfl⟩
    (.take (fun _ => 20) (fun n => "y" ++ freshIds n) _ ⟨_, _, rfl, rfl, rfl⟩ (.nil _)), _, rfl, rfl⟩

/-- An older event delivered second takes the period end with it. -/
theorem stale_event_moves_expiry :
    ¬∀ (s s' : Db) (id : String) (ds : List StripeDelivery) (newest : StripeDelivery),
      Delivered s ds s' → s.purchases.get? (stripeKey id) = none →
      (∀ d ∈ ds, d.subscription.id = id) → (∀ d ∈ ds, d.created ≠ 0) →
      (ds.map StripeDelivery.created).Nodup →
      (∀ d ∈ ds, ∀ e ∈ ds, Exchangeable d e) →
      (newest ∈ ds ∧ ∀ d ∈ ds, d.created ≤ newest.created) →
      ∃ row, s'.purchases.get? (stripeKey id) = some row ∧ newest.status = some row.status ∧
        newest.productId s = some row.productId ∧ row.expiresDate = newest.expiresDate := by
  intro claim
  obtain ⟨s', run, row, hrow, hexpires⟩ := renewal_then_stale
  obtain ⟨row', hrow', -, -, hclaim⟩ := claim orderDb s' "sub1" _ (orderDelivery 200 1000) run rfl
    (by simp [orderDelivery]) (by simp [StripeDelivery.created, orderDelivery]) (by decide)
    (by simp [orderDelivery_exchangeable]) (by simp [StripeDelivery.created, orderDelivery])
  obtain rfl : row' = row := Option.some.inj (hrow'.symm.trans hrow)
  rw [hexpires] at hclaim
  revert hclaim
  decide

theorem newest_status_last_expiry_stale :
    ∃ (s' : Db) (row : Purchase), s'.purchases.get? (stripeKey "sub1") = some row ∧
      (orderDelivery 200 1000).status = some row.status ∧
      (orderDelivery 200 1000).productId orderDb = some row.productId ∧
      row.expiresDate = (orderDelivery 100 500).expiresDate := by
  obtain ⟨s', run, -⟩ := renewal_then_stale
  obtain ⟨row, h⟩ := @newest_status_last_expiry orderDb s' "sub1" _ (orderDelivery 200 1000)
    (orderDelivery 100 500) run rfl (by simp [orderDelivery])
    (by simp [StripeDelivery.created, orderDelivery]) (by decide)
    (by simp [orderDelivery_exchangeable]) (by simp [StripeDelivery.created, orderDelivery]) rfl
  exact ⟨s', row, h⟩

end Rovenue
