import Rovenue.Apple.ReceiptVerify
import Rovenue.Apple.NotificationPlan
import Rovenue.Txn.Framing

/-! What an Apple notification does to the rows of the other stores. The reads of a chain are
scoped to the App Store; the updates of a chain and the revoke of its access go by the project
and the original transaction id alone. -/

namespace Rovenue.Apple
open Txn

def otherStoreIds (s : Db) : Set String :=
  {id | ∃ key row, s.purchases.get? key = some row ∧ key.store ≠ .appStore ∧ row.id = id}

/-- The purchases of other stores, and the access rows whose source is in `ids`, as they were. -/
structure KeepsOthers (ids : Set String) (s s' : Db) : Prop where
  purchases : ∀ key : PurchaseKey, key.store ≠ .appStore →
    s'.purchases.get? key = s.purchases.get? key
  access : ∀ id row, s.subscriberAccess.get? id = some row → row.purchaseId ∈ ids →
    s'.subscriberAccess.get? id = some row

structure Apart (ids : Set String) (c : Session Db Write String) : Prop where
  drawn : ∀ n, c.ids n ∉ ids
  purchases : ∀ key row, c.view.purchases.get? key = some row → key.store = .appStore →
    row.id ∉ ids

section Frame
variable {ids : Set String} {s s' : Db} {c c' : Session Db Write String}

theorem KeepsOthers.refl (s : Db) : KeepsOthers ids s s := ⟨fun _ _ => rfl, fun _ _ h _ => h⟩

theorem KeepsOthers.trans {s₁ s₂ s₃ : Db} (h : KeepsOthers ids s₁ s₂)
    (h' : KeepsOthers ids s₂ s₃) : KeepsOthers ids s₁ s₃ where
  purchases key hkey := (h'.purchases key hkey).trans (h.purchases key hkey)
  access id row hrow hids := h'.access id row (h.access id row hrow hids) hids

theorem Apart.of_sync {subscriberId : String} {u : Unit} (h : Apart ids c)
    (hrun : (syncAccess subscriberId).Returns c u c') : Apart ids c' where
  drawn n := by
    obtain ⟨k, hk⟩ := hrun.ids
    rw [hk n]
    exact h.drawn (n + k)
  purchases key row hrow := by
    rw [(syncAccess_keeps hrun).1] at hrow
    exact h.purchases key row hrow

variable (ids) in
def otherStores : Framing Db LockKey Write String String where
  keeps := KeepsOthers ids
  standing := Apart ids
  aside := syncAccess
  refl := KeepsOthers.refl
  trans := KeepsOthers.trans
  tick h := ⟨h.drawn, h.purchases⟩
  drawn h := ⟨fun n => h.drawn (n + 1), h.purchases⟩
  aside_standing h hrun := h.of_sync hrun

variable {called : Prop} {α : Type}

theorem keepsOthers_updatePurchase {key : PurchaseKey} (hkey : key.store = .appStore)
    (guard : StatusGuard) (patch : PurchasePatch) (s : Db) :
    KeepsOthers ids s (s.write (.updatePurchase key guard patch)) where
  purchases k hk := by
    have hne : k ≠ key := fun h => hk (h ▸ hkey)
    exact get?_write_of_ne hne s
  access id row hrow _ := hrow

theorem Apart.updatePurchase (h : Apart ids c) (key : PurchaseKey) (guard : StatusGuard)
    (patch : PurchasePatch) : Apart ids (c.write [.updatePurchase key guard patch]) where
  drawn := h.drawn
  purchases k row hrow hk := by
    have hat : (c.view.write (.updatePurchase key guard patch)).purchases.get? k = some row := hrow
    rw [write_purchaseAt, Write.purchaseAt] at hat
    split_ifs at hat with hkey
    · obtain ⟨old, hold, rfl⟩ := Option.map_eq_some_iff.1 hat
      rw [StatusGuard.patch_id]
      exact h.purchases k old hold hk
    · exact h.purchases k row hat hk

theorem spares_updatePurchaseRow {key : PurchaseKey} (hkey : key.store = .appStore)
    (guard : StatusGuard) (patch : PurchasePatch) :
    (otherStores ids).Spares called (updatePurchaseRow key guard patch) fun _ => True :=
  Framing.spares_exec fun _ hc =>
    ⟨hc.updatePurchase key guard patch, trivial, keepsOthers_updatePurchase hkey guard patch _⟩

theorem spares_lockPurchase (key : PurchaseKey) :
    (otherStores ids).Spares called (lockPurchaseStatusByStoreTransaction key) fun _ => True :=
  Framing.spares_queryLocked fun _ _ => trivial

theorem spares_guardStatusWrite (args : GuardStatusWriteArgs) :
    (otherStores ids).Spares called (guardStatusWrite args) fun _ => True := by
  apply (spares_lockPurchase args.key).bind
  exact fun _ _ => Framing.spares_done trivial

theorem spares_query (f : Db → α) :
    (otherStores ids).Spares called (Prog.query f) fun _ => True :=
  Framing.spares_query fun _ _ => trivial

theorem keepsOthers_accessAt (hpurchases : s'.purchases = s.purchases)
    (h : ∀ id row, s.subscriberAccess.get? id = some row →
      s'.subscriberAccess.get? id = some row ∨ row.purchaseId ∉ ids) : KeepsOthers ids s s' where
  purchases key _ := by rw [hpurchases]
  access id row hrow hids := (h id row hrow).resolve_right fun hnot => hnot hids

theorem Apart.of_purchases (h : Apart ids c) (hids : ∀ n, c'.ids n ∉ ids)
    (hpurchases : c'.view.purchases = c.view.purchases) : Apart ids c' where
  drawn := hids
  purchases key row hrow := by
    rw [hpurchases] at hrow
    exact h.purchases key row hrow

theorem spares_revokeAccessByPurchaseId {purchaseId : String} (h : purchaseId ∉ ids) :
    (otherStores ids).Spares called (revokeAccessByPurchaseId purchaseId) fun _ => True := by
  apply Framing.spares_exec
  intro c hc
  have hpurchases : (applyAll c.view (revokeWrites purchaseId c.view)).purchases =
      c.view.purchases := applyAll_purchases _ _ (revokeWrites_not_onPurchases purchaseId _)
  refine ⟨hc.of_purchases hc.drawn hpurchases, trivial, keepsOthers_accessAt hpurchases ?_⟩
  intro id row hrow
  by_cases hp : row.purchaseId = purchaseId
  · exact .inr (hp ▸ h)
  · left
    have hafter := revoked_access c.view purchaseId id
    rw [hrow, Option.map_some, if_neg hp] at hafter
    exact hafter

theorem mem_findAccess {subscriberId purchaseId accessId : String} {record : AccessRecord}
    (h : findAccessByPurchaseAndAccessId subscriberId purchaseId accessId s = some record) :
    s.subscriberAccess.get? record.1 = some record.2 ∧ record.2.purchaseId = purchaseId := by
  have hmem := List.mem_of_find?_eq_some h
  have hmatch := List.find?_some h
  simp only [decide_eq_true_eq] at hmatch
  exact ⟨s.subscriberAccess.mem_entries.1 hmem, hmatch.2.1⟩

theorem spares_grantAccess {args : GrantAccessArgs} (h : args.purchaseId ∉ ids) :
    (otherStores ids).Spares called (Rovenue.grantAccess args) fun _ => True := by
  apply Framing.spares_forEach
  intro accessId _
  apply Framing.spares_of_keeps
  intro c u c' hc hrun
  -- the row that is updated is the one found just before
  obtain ⟨existing, c₁, hfound, hwrite⟩ := Prog.returns_bind.1 hrun
  obtain ⟨rfl, rfl⟩ := Prog.returns_query.1 hfound
  rcases hexisting : findAccessByPurchaseAndAccessId args.subscriberId args.purchaseId accessId
    c.view with _ | record
  · simp only [hexisting, Prog.returns_autocommit] at hwrite
    obtain ⟨id, c₂, hid, hinsert⟩ := Prog.returns_bind.1 hwrite
    obtain ⟨-, rfl⟩ := Prog.returns_fresh.1 hid
    obtain ⟨-, rfl⟩ := Prog.returns_exec.1 hinsert
    refine ⟨hc.of_purchases (fun n => hc.drawn (n + 1)) rfl, trivial,
      keepsOthers_accessAt rfl fun other row hrow => .inl ?_⟩
    show (c.view.write (.insertAccess id _)).subscriberAccess.get? other = some row
    rw [write_accessAt, hrow]
    simp only [Write.accessAt, Option.getD_some, ite_self]
  · simp only [hexisting, Prog.returns_autocommit] at hwrite
    obtain ⟨-, rfl⟩ := Prog.returns_exec.1 hwrite
    refine ⟨hc.of_purchases hc.drawn rfl, trivial,
      keepsOthers_accessAt rfl fun other row hrow => ?_⟩
    obtain ⟨hrecord, hpurchase⟩ := mem_findAccess hexisting
    by_cases hother : other = record.1
    · right
      rw [hother, hrecord] at hrow
      rw [← Option.some_inj.1 hrow, hpurchase]
      exact h
    · left
      show (c.view.write (.updateAccess record.1 _)).subscriberAccess.get? other = some row
      rw [write_accessAt, Write.accessAt, if_neg hother]
      exact hrow

theorem upsertedRow_id {key : PurchaseKey} {create : Purchase} {update : PurchasePatch}
    (hcreate : create.id ∉ ids)
    (h : ∀ row, s.purchases.get? key = some row → row.id ∉ ids) :
    (upsertedRow key create update s).id ∉ ids := by
  unfold upsertedRow
  rcases hrow : s.purchases.get? key with _ | row
  · exact hcreate
  · simp only [StatusGuard.patch_id]
    exact h row hrow

theorem spares_upsertPurchase {key : PurchaseKey} (hkey : key.store = .appStore)
    (create : Purchase) (update : PurchasePatch) :
    (otherStores ids).Spares called (Rovenue.upsertPurchase key create update)
      fun purchase => purchase.id ∉ ids := by
  have hfresh : (otherStores ids).Spares called (Prog.fresh : Service String) fun id => id ∉ ids :=
    Framing.spares_fresh fun c hc => hc.drawn 0
  apply hfresh.bind
  intro id hid
  apply Framing.spares_exec
  intro c hc
  have hrow : (upsertedRow key { create with id := id } update c.view).id ∉ ids :=
    upsertedRow_id hid fun row hrow => hc.purchases key row hrow hkey
  refine ⟨⟨hc.drawn, fun k row hget hk => ?_⟩, hrow, fun k hk => ?_, fun other row hother _ => ?_⟩
  · by_cases hkk : k = key
    · subst hkk
      have hat := upsertWrites_get? k { create with id := id } update c.view
      obtain rfl := Option.some_inj.1 (hget.symm.trans hat)
      exact hrow
    · have hsame := upsert_get?_of_ne hkk { create with id := id } update c.view
      exact hc.purchases k row (hsame.symm.trans hget) hk
  · have hne : k ≠ key := fun h => hk (h ▸ hkey)
    exact upsert_get?_of_ne hne _ update c.view
  · have hsame := applyAll_subscriberAccess c.view _
      (upsertWrites_not_onAccess key { create with id := id } update c.view)
    rw [hsame]
    exact hother

theorem spares_upsertSubscriber (input : UpsertSubscriberInput) :
    (otherStores ids).Spares called (upsertSubscriber input) fun _ => True := by
  have hfresh : (otherStores ids).Spares called (Prog.fresh : Service String) fun _ => True :=
    Framing.spares_fresh fun _ _ => trivial
  apply hfresh.bind
  intro id _
  apply Framing.Spares.autocommit
  apply Framing.spares_exec
  intro c hc
  rcases hexisting : findSubscriberByRovenueId input.projectId input.rovenueId c.view <;>
    exact ⟨⟨hc.drawn, hc.purchases⟩, trivial, fun _ _ => rfl, fun _ _ hrow _ => hrow⟩

variable {ctx : DispatchContext}

theorem newestPurchase_mem {records : List PurchaseRecord} {record : PurchaseRecord}
    (h : newestPurchase records = some record) : record ∈ records := by
  induction records generalizing record with
  | nil => exact nomatch h
  | cons e es ih =>
    rw [newestPurchase] at h
    rcases hbest : newestPurchase es with _ | best
    · rw [hbest] at h
      obtain rfl := Option.some_inj.1 h
      exact List.mem_cons_self
    · rw [hbest] at h
      simp only at h
      split_ifs at h
      · obtain rfl := Option.some_inj.1 h
        exact List.mem_cons_of_mem _ (ih hbest)
      · obtain rfl := Option.some_inj.1 h
        exact List.mem_cons_self

theorem findChainPurchase_store {record : PurchaseRecord}
    (h : findChainPurchase ctx s = some record) : record.1.store = .appStore := by
  have hmem := (List.mem_filter.1 (newestPurchase_mem h)).2
  simp only [Bool.and_eq_true, decide_eq_true_eq] at hmem
  exact hmem.2

theorem spares_retireRow {key : PurchaseKey} (hkey : key.store = .appStore) (now : ℤ) :
    (otherStores ids).Spares called (retireRow key now) fun _ => True := by
  apply (spares_guardStatusWrite _).bind
  intro guard _
  split_ifs
  · exact spares_updatePurchaseRow hkey _ _
  · exact Framing.spares_done trivial

theorem spares_recoverChain (status : PurchaseStatus) (guard : GuardStatusWriteResult) :
    (otherStores ids).Spares called (recoverChain ctx status guard) fun _ => True := by
  unfold recoverChain
  split_ifs
  · have hstale : (otherStores ids).Spares called
        (Prog.query (findChainBillingIssuePurchases ctx.projectId ctx.originalTransactionId ctx.key) :
          Service (List PurchaseKey)) fun keys => ∀ key ∈ keys, key.store = .appStore := by
      apply Framing.spares_query
      intro c _ key hkey
      obtain ⟨row, -, hrow⟩ := mem_purchasesWhere_keys.1 hkey
      simp only [Bool.and_eq_true, decide_eq_true_eq] at hrow
      exact hrow.1.1.2
    apply hstale.bind
    intro stale hstale
    exact Framing.spares_forEach _ fun key hkey => spares_retireRow (hstale key hkey) _
  · exact Framing.spares_done trivial

theorem spares_upsert (subscriberId : String) (status : PurchaseStatus) :
    (otherStores ids).Spares called (upsertPurchase ctx subscriberId status)
      fun upserted => upserted.purchase.id ∉ ids := by
  apply (spares_query _).bind
  intro product _
  rcases product with _ | product
  · exact Framing.spares_throw
  · apply (spares_query _).bind
    intro announced _
    have hwritten : (otherStores ids).Spares called
        (writeTransaction ctx subscriberId status product.1
          (pendingPlanChangeFields product.1 announced
            (applePlanChangeType ctx.notification.subtype) ctx.expiresDate))
        fun written => written.1.id ∉ ids := by
      apply Framing.Spares.transaction
      intro startedAt
      apply (spares_guardStatusWrite _).bind
      intro guard _
      apply Framing.spares_now.bind
      intro now _
      apply (spares_upsertPurchase rfl _ _).bind
      intro persisted hpersisted
      apply (spares_recoverChain status guard).bind
      exact fun _ _ => Framing.spares_done hpersisted
    apply hwritten.bind
    exact fun written hid => Framing.spares_done hid

theorem spares_supersedeSiblings (supersedes : Bool) :
    (otherStores ids).Spares (supersedes = true) (supersedeSiblings ctx supersedes)
      fun _ => True := by
  unfold supersedeSiblings
  split_ifs with hsupersedes
  · have hsiblings : (otherStores ids).Spares (supersedes = true)
        (Prog.query (findSupersedableApplePurchases ctx.projectId ctx.originalTransactionId ctx.key
          ctx.appleNotificationEventTime) : Service (List PurchaseRecord))
        fun siblings => ∀ sibling ∈ siblings, sibling.1.store = .appStore := by
      apply Framing.spares_query
      intro c _ sibling hsibling
      have hmatch := (List.mem_filter.1 hsibling).2
      simp only [Bool.and_eq_true, decide_eq_true_eq] at hmatch
      exact hmatch.1.1.1.2
    apply hsiblings.bind
    intro siblings hstores
    apply Framing.spares_forEach
    intro sibling hsibling
    have hretire : (otherStores ids).Spares (supersedes = true)
        (Prog.transaction fun _ => retireRow sibling.1 ctx.appleNotificationEventTime)
        fun _ => True := .transaction fun _ => spares_retireRow (hstores sibling hsibling) _
    apply hretire.bind
    intro _ _
    have hsync := (otherStores ids).spares_aside sibling.2.subscriberId
    exact hsync.mono (fun _ => hsupersedes) fun _ _ => trivial
  · exact Framing.spares_done trivial

theorem spares_resolveSubscriber :
    (otherStores ids).Spares called (resolveSubscriber ctx) fun _ => True := by
  apply (spares_query _).bind
  intro byToken _
  rcases byToken with _ | row
  · apply (spares_query _).bind
    intro existingPurchase _
    apply (spares_query _).bind
    intro existingSubscriber _
    rcases existingSubscriber with _ | row
    · exact spares_upsertSubscriber _
    · exact Framing.spares_done trivial
  · exact Framing.spares_done trivial

theorem spares_applyTransaction (status : PurchaseStatus) (supersedes : Bool) :
    (otherStores ids).Spares (supersedes = true) (applyTransaction ctx status supersedes)
      fun _ => True := by
  apply spares_resolveSubscriber.bind
  intro subscriber _
  apply (spares_upsert subscriber.1 status).bind
  intro upserted hid
  have hentitle : (otherStores ids).Spares (supersedes = true)
      (entitle ctx subscriber.1 upserted supersedes) fun _ => True := by
    unfold entitle
    split_ifs
    · apply (spares_supersedeSiblings supersedes).bind
      exact fun _ _ => spares_grantAccess hid
    · exact Framing.spares_done trivial
  apply hentitle.bind
  exact fun _ _ => Framing.spares_done trivial

theorem spares_recordApplePendingChange :
    (otherStores ids).Spares called (recordApplePendingChange ctx) fun _ => True := by
  have hcurrent : (otherStores ids).Spares called
      (Prog.query (findChainPurchase ctx) : Service (Option PurchaseRecord))
      fun current => ∀ record, current = some record → record.1.store = .appStore :=
    Framing.spares_query fun _ _ _ h => findChainPurchase_store h
  apply hcurrent.bind
  intro current hstore
  rcases current with _ | current
  · exact Framing.spares_done trivial
  · apply (spares_query _).bind
    intro announced _
    refine Framing.Spares.bind (Q := fun _ => True) ?_ fun _ _ => Framing.spares_done trivial
    apply Framing.Spares.transaction
    intro _
    apply (spares_lockPurchase current.1).bind
    intro locked _
    rcases locked with _ | locked
    · exact Framing.spares_done trivial
    · dsimp only
      split_ifs
      · exact Framing.spares_done trivial
      · exact spares_updatePurchaseRow (hstore current rfl) _ _

theorem spares_purchaseOutcome (purchase : Option Purchase) :
    (otherStores ids).Spares called (purchaseOutcome purchase) fun _ => True := by
  apply (spares_query _).bind
  intro subscriber _
  rcases purchase with _ | purchase
  · exact Framing.spares_done trivial
  · rcases subscriber with _ | subscriber <;> exact Framing.spares_done trivial

theorem spares_findOwn : (otherStores ids).Spares called
    (Prog.query (findPurchaseByStoreTransaction ctx.projectId ctx.key) : Service (Option Purchase))
    fun found => ∀ purchase, found = some purchase → purchase.id ∉ ids := by
  apply Framing.spares_query
  intro c hc purchase h
  exact hc.purchases ctx.key purchase (Option.filter_eq_some_iff.1 h).1 rfl

theorem spares_applyRefund :
    (otherStores ids).Spares called (applyRefund ctx) fun _ => True := by
  have hrow : (otherStores ids).Spares called (refundRow ctx) fun _ => True := by
    apply spares_findOwn.bind
    intro found hfound
    rcases found with _ | found
    · exact Framing.spares_done trivial
    · have hwrite : (otherStores ids).Spares called
          (Prog.transaction fun _ => do
            let guard ← guardStatusWrite (refundGuard ctx)
            if guard.apply then
              updatePurchase ctx.key
                { status := some .refunded
                  refundDate := some (some ctx.transaction.signedDate)
                  lastStoreEventAt := some (some ctx.appleNotificationEventTime) }
            else pure ()) fun _ => True := by
        apply Framing.Spares.transaction
        intro _
        apply (spares_guardStatusWrite _).bind
        intro guard _
        split_ifs
        · exact spares_updatePurchaseRow rfl _ _
        · exact Framing.spares_done trivial
      apply hwrite.bind
      exact fun _ _ => (spares_revokeAccessByPurchaseId (hfound found rfl)).autocommit
  apply hrow.bind
  intro _ _
  apply (spares_query _).bind
  exact fun purchase _ => spares_purchaseOutcome purchase

theorem spares_applyRefundReversed :
    (otherStores ids).Spares called (applyRefundReversed ctx) fun _ => True := by
  apply (spares_query _).bind
  intro found _
  rcases found with _ | purchase
  · exact Framing.spares_done trivial
  · apply Framing.spares_now.bind
    intro now _
    have hwrite : (otherStores ids).Spares called
        (Prog.transaction fun _ => do
          let guard ← guardStatusWrite (reversalGuard ctx now)
          let patch : PurchasePatch := { refundDate := some none }
          updatePurchase ctx.key
            (if guard.apply then
              { patch with
                status := some (restoredStatus ctx now)
                lastStoreEventAt := some (some ctx.appleNotificationEventTime) }
            else patch) false) fun _ => True := by
      apply Framing.Spares.transaction
      intro _
      apply (spares_guardStatusWrite _).bind
      exact fun guard _ => spares_updatePurchaseRow rfl _ _
    apply hwrite.bind
    exact fun _ _ => spares_purchaseOutcome _

theorem spares_applyConsumptionRequest :
    (otherStores ids).Spares called (applyConsumptionRequest ctx) fun _ => True := by
  apply (spares_query _).bind
  intro byToken _
  rcases byToken with _ | row
  · apply (spares_query _).bind
    exact fun _ _ => Framing.spares_done trivial
  · exact Framing.spares_done trivial

def writesChain (ctx : DispatchContext) : Bool :=
  ctx.notification.notificationType ∈ [AppleNotificationType.didChangeRenewalStatus,
    .didFailToRenew, .gracePeriodExpired, .expired, .revoke]

def upgrades (ctx : DispatchContext) : Bool :=
  ctx.notification.notificationType ∈
      [AppleNotificationType.didChangeRenewalPref, .offerRedeemed] &&
    ctx.notification.subtype = some .upgrade

theorem spares_dispatch (h : writesChain ctx = false) :
    (otherStores ids).Spares (upgrades ctx = true) (dispatch ctx) fun _ => True := by
  unfold writesChain at h
  unfold dispatch upgrades
  rcases htype : ctx.notification.notificationType <;>
    simp only [htype, List.mem_cons, List.not_mem_nil, reduceCtorEq, or_false, or_true, or_self,
      decide_false, decide_true, Bool.true_eq_false, Bool.true_and, Bool.false_and,
      Bool.false_eq_true, decide_eq_true_eq] at h ⊢
  · exact (spares_applyTransaction _ false).mono nofun fun _ _ => trivial
  · have hrenewal : (otherStores ids).Spares False (applyTransaction ctx .active false)
        fun _ => True := (spares_applyTransaction _ false).mono nofun fun _ _ => trivial
    apply hrenewal.bind
    exact fun _ _ => Framing.spares_done trivial
  · unfold applyRenewalPrefChange
    split_ifs with hupgrade
    · exact (spares_applyTransaction _ true).mono (fun _ => hupgrade) fun _ _ => trivial
    · exact spares_recordApplePendingChange
  · unfold applyOfferRedeemed
    split_ifs with hdowngrade
    · exact spares_recordApplePendingChange
    · exact (spares_applyTransaction _ _).mono (fun h => of_decide_eq_true h) fun _ _ => trivial
  · exact spares_applyRefund
  · exact Framing.spares_done trivial
  · exact spares_applyRefundReversed
  · exact spares_applyConsumptionRequest
  · exact Framing.spares_done trivial

end Frame
end Rovenue.Apple
