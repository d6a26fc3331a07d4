import Rovenue.Apple.DunningClock
import Rovenue.Apple.OtherStores

/-! When the writes of a chain leave the other stores alone: the rows that share its project and
its original transaction id have to stand already as they would be written. -/

namespace Rovenue.Apple
open Txn

/-- A purchase of another store under the chain's project and original transaction id. -/
def SharesChain (ctx : DispatchContext) (s : Db) (key : PurchaseKey) (row : Purchase) : Prop :=
  s.purchases.get? key = some row ∧ key.store ≠ .appStore ∧
    inChain ctx.projectId ctx.originalTransactionId (key, row) = true

def NoActiveAccess (s : Db) (purchaseId : String) : Prop :=
  ∀ id row, s.subscriberAccess.get? id = some row → row.purchaseId = purchaseId →
    row.isActive = false

def failedRenewalStamp (ctx : DispatchContext) (s : Db) : Option (Option ℤ) :=
  billingIssueStamp ((findChainPurchase ctx s).map fun e => e.2.status) (failedRenewalStatus ctx)
    ctx.appleNotificationEventTime

structure FailedAlready (ctx : DispatchContext) (s : Db) (row : Purchase) : Prop where
  status : row.status = failedRenewalStatus ctx
  gracePeriodExpires : row.gracePeriodExpires =
    appleDate (ctx.renewalInfo.bind AppleRenewalInfo.gracePeriodExpiresDate)
  clock : ∀ stamp, failedRenewalStamp ctx s = some stamp → row.billingIssueDetectedAt = stamp

/-- The row holds already what a notification of the type writes on the chain. -/
def StandsAlready (ctx : DispatchContext) (s : Db) (row : Purchase) : Prop :=
  match ctx.notification.notificationType with
  | .didChangeRenewalStatus => row.autoRenewStatus = some ctx.autoRenewStatus
  | .didFailToRenew => row.status ∈ repoTerminalStatuses ∨ FailedAlready ctx s row
  | .gracePeriodExpired | .expired =>
    (row.status ∈ repoTerminalStatuses ∨ row.status = .expired) ∧ NoActiveAccess s row.id
  | .revoke => row.status ∈ repoTerminalStatuses ∧ NoActiveAccess s row.id
  | _ => True

section Chain
variable {ctx : DispatchContext} {s : Db} {c c' : Session Db Write String}

theorem updates_keep_iff {keys : List PurchaseKey} (hkeys : keys.Nodup) (guard : StatusGuard)
    (patch : PurchasePatch) :
    (∀ key : PurchaseKey, key.store ≠ .appStore →
      (applyAll s (updatesOf keys guard patch)).purchases.get? key = s.purchases.get? key) ↔
      ∀ key row, key ∈ keys → key.store ≠ .appStore → s.purchases.get? key = some row →
        guard.patch patch row = row := by
  constructor
  · intro h key row hmem hstore hrow
    have hsame := h key hstore
    rw [get?_updatesOf hkeys, if_pos hmem, hrow, Option.map_some] at hsame
    exact Option.some_inj.1 hsame
  · intro h key hstore
    rw [get?_updatesOf hkeys]
    split_ifs with hmem
    · rcases hrow : s.purchases.get? key with _ | row
      · rfl
      · rw [Option.map_some, h key row hmem hstore hrow]
    · rfl

theorem updatesOf_not_onAccess (keys : List PurchaseKey) (guard : StatusGuard)
    (patch : PurchasePatch) : ∀ w ∈ updatesOf keys guard patch, ¬w.OnAccess := by
  intro w hw
  obtain ⟨key, -, rfl⟩ := List.mem_map.1 hw
  exact id

theorem mem_chainKeys {key : PurchaseKey} :
    key ∈ chainKeys ctx.projectId ctx.originalTransactionId s ↔ ∃ row,
      s.purchases.get? key = some row ∧
        inChain ctx.projectId ctx.originalTransactionId (key, row) = true :=
  mem_purchasesWhere_keys

theorem apply_eq_self_iff {patch : PurchasePatch} {row : Purchase} (hid : patch.subscriberId = none)
    (hproduct : patch.productId = none) (htrial : patch.isTrial = none)
    (hexpires : patch.expiresDate = none) (hcancelled : patch.cancellationDate = none)
    (hrefund : patch.refundDate = none) (hverified : patch.verifiedAt = none)
    (hevent : patch.lastStoreEventAt = none) (hpending : patch.pending = none) :
    patch.apply row = row ↔
      patch.status.getD row.status = row.status ∧
      patch.gracePeriodExpires.getD row.gracePeriodExpires = row.gracePeriodExpires ∧
      patch.autoRenewStatus.getD row.autoRenewStatus = row.autoRenewStatus ∧
      patch.billingIssueDetectedAt.getD row.billingIssueDetectedAt =
        row.billingIssueDetectedAt := by
  obtain ⟨⟩ := row
  simp [PurchasePatch.apply, hid, hproduct, htrial, hexpires, hcancelled, hrefund, hverified,
    hevent, hpending]

def renewalStatusView (ctx : DispatchContext) (s : Db) : Db :=
  applyAll s (updatesOf (chainKeys ctx.projectId ctx.originalTransactionId s) .unguarded
    { autoRenewStatus := some (some ctx.autoRenewStatus) })

theorem exists_chainOutcome (ctx : DispatchContext) (c : Session Db Write String) :
    ∃ outcome, (chainOutcome ctx).Returns c outcome c := by
  unfold chainOutcome
  rcases h : findChainPurchase ctx c.view with _ | purchase
  · exact ⟨{}, by simp [h]⟩
  · exact ⟨{ subscriberId := some purchase.2.subscriberId, purchaseId := some purchase.2.id },
      by simp [h]⟩

theorem exists_renewalStatusChange (ctx : DispatchContext) (c : Session Db Write String) :
    ∃ outcome c', (applyRenewalStatusChange ctx).Returns c outcome c' ∧
      c'.view = renewalStatusView ctx c.view := by
  let c₁ := c.write (updatesOf (chainKeys ctx.projectId ctx.originalTransactionId c.view) .unguarded
    { autoRenewStatus := some (some ctx.autoRenewStatus) })
  obtain ⟨outcome, houtcome⟩ := exists_chainOutcome ctx c₁
  refine ⟨outcome, c₁, ?_, rfl⟩
  unfold applyRenewalStatusChange
  apply Prog.returns_bind.2
  exact ⟨(), c₁, Prog.returns_autocommit.2 rfl, houtcome⟩

theorem renewalStatus_keeps_iff {ids : Set String} :
    KeepsOthers ids s (renewalStatusView ctx s) ↔ ∀ key row, SharesChain ctx s key row →
      row.autoRenewStatus = some ctx.autoRenewStatus := by
  have hrows := updates_keep_iff (s := s) (purchasesWhere_keys_nodup
    (inChain ctx.projectId ctx.originalTransactionId) s) .unguarded
      { autoRenewStatus := some (some ctx.autoRenewStatus) }
  have hcolumn (row : Purchase) : StatusGuard.unguarded.patch
      { autoRenewStatus := some (some ctx.autoRenewStatus) } row = row ↔
        row.autoRenewStatus = some ctx.autoRenewStatus := by
    show PurchasePatch.apply _ row = row ↔ _
    rw [apply_eq_self_iff rfl rfl rfl rfl rfl rfl rfl rfl rfl]
    simp [eq_comm]
  constructor
  · rintro h key row ⟨hrow, hstore, hchain⟩
    have hkept := hrows.1 h.purchases key row (mem_chainKeys.2 ⟨row, hrow, hchain⟩) hstore hrow
    exact (hcolumn row).1 hkept
  · intro h
    refine ⟨hrows.2 fun key row hmem hstore hrow => ?_, fun id row hrow _ => ?_⟩
    · obtain ⟨row', hrow', hchain⟩ := mem_chainKeys.1 hmem
      obtain rfl := Option.some_inj.1 (hrow'.symm.trans hrow)
      exact (hcolumn row').2 (h key row' ⟨hrow, hstore, hchain⟩)
    · unfold renewalStatusView
      rw [applyAll_subscriberAccess _ _ (updatesOf_not_onAccess _ _ _)]
      exact hrow

def openUpdates (ctx : DispatchContext) (patch : PurchasePatch) (s : Db) : List Write :=
  updatesOf (openChainKeys ctx.projectId ctx.originalTransactionId s) .notTerminal patch

theorem openUpdates_keep_iff (ctx : DispatchContext) (s : Db) (patch : PurchasePatch) :
    (∀ key : PurchaseKey, key.store ≠ .appStore →
      (applyAll s (openUpdates ctx patch s)).purchases.get? key = s.purchases.get? key) ↔
      ∀ key row, SharesChain ctx s key row →
        row.status ∈ repoTerminalStatuses ∨ patch.apply row = row := by
  have hnodup := openChainKeys_nodup ctx.projectId ctx.originalTransactionId s
  unfold openUpdates
  rw [updates_keep_iff hnodup]
  constructor
  · rintro h key row ⟨hrow, hstore, hchain⟩
    by_cases hopen : row.status ∈ repoTerminalStatuses
    · exact .inl hopen
    · right
      have hkept := h key row (mem_openChainKeys.2 ⟨row, hrow, hchain, hopen⟩) hstore hrow
      rwa [StatusGuard.patch, if_neg hopen] at hkept
  · intro h key row hmem hstore hrow
    obtain ⟨row', hrow', hchain, hopen⟩ := mem_openChainKeys.1 hmem
    obtain rfl := Option.some_inj.1 (hrow'.symm.trans hrow)
    rw [StatusGuard.patch, if_neg hopen]
    exact (h key row' ⟨hrow, hstore, hchain⟩).resolve_left hopen

theorem exists_failedRenewal (ctx : DispatchContext) (c : Session Db Write String) :
    ∃ outcome c', (applyFailedRenewal ctx).Returns c outcome c' ∧
      c'.view = applyAll c.view (openUpdates ctx (failedRenewalPatch ctx c.view) c.view) := by
  refine ⟨{}, c.write (openUpdates ctx (failedRenewalPatch ctx c.view) c.view), ?_, rfl⟩
  unfold applyFailedRenewal
  apply Prog.returns_bind.2
  refine ⟨_, c, Prog.returns_query.2 ⟨rfl, rfl⟩, ?_⟩
  apply Prog.returns_bind.2
  exact ⟨_, _, Prog.returns_autocommit.2 (Prog.returns_exec.2 ⟨rfl, rfl⟩), rfl⟩

theorem failedRenewal_keeps_iff {ids : Set String} :
    KeepsOthers ids s (applyAll s (openUpdates ctx (failedRenewalPatch ctx s) s)) ↔
      ∀ key row, SharesChain ctx s key row →
        row.status ∈ repoTerminalStatuses ∨ FailedAlready ctx s row := by
  have hcolumns (row : Purchase) :
      (failedRenewalPatch ctx s).apply row = row ↔ FailedAlready ctx s row := by
    rw [apply_eq_self_iff rfl rfl rfl rfl rfl rfl rfl rfl rfl]
    have hclock : (failedRenewalStamp ctx s).getD row.billingIssueDetectedAt =
        row.billingIssueDetectedAt ↔
          ∀ stamp, failedRenewalStamp ctx s = some stamp → row.billingIssueDetectedAt = stamp := by
      rcases failedRenewalStamp ctx s with _ | stamp
      · simp
      · simp [eq_comm]
    constructor
    · rintro ⟨hstatus, hgrace, -, hstamp⟩
      exact ⟨hstatus.symm, hgrace.symm, hclock.1 hstamp⟩
    · intro h
      exact ⟨h.status.symm, h.gracePeriodExpires.symm, rfl, hclock.2 h.clock⟩
  constructor
  · intro h key row hshares
    exact (openUpdates_keep_iff ctx s _).1 h.purchases key row hshares |>.imp_right (hcolumns row).1
  · intro h
    refine ⟨(openUpdates_keep_iff ctx s _).2 fun key row hshares => ?_, fun id row hrow _ => ?_⟩
    · exact (h key row hshares).imp_right (hcolumns row).2
    · unfold openUpdates
      rw [applyAll_subscriberAccess _ _ (updatesOf_not_onAccess _ _ _)]
      exact hrow

def closedView (ctx : DispatchContext) (status : PurchaseStatus) (s : Db) : Db :=
  let moved := applyAll s (openUpdates ctx { status := some status } s)
  applyAll moved ((accessIdsForPurchases
    (chainPurchaseIds ctx.projectId ctx.originalTransactionId moved) moved).map
      fun id => .updateAccess id { isActive := some false })

theorem exists_close (ctx : DispatchContext) (status : PurchaseStatus)
    (c : Session Db Write String) :
    ∃ n c₁ c', (guardedChainStatusWrite ctx { status := some status }).Returns c n c₁ ∧
      (revokeAccessForTransaction ctx).Returns c₁ () c' ∧ c'.view = closedView ctx status c.view := by
  refine ⟨_, c.write (openUpdates ctx { status := some status } c.view), _,
    Prog.returns_autocommit.2 (Prog.returns_exec.2 ⟨rfl, rfl⟩),
    Prog.returns_autocommit.2 (Prog.returns_bind.2
      ⟨_, _, Prog.returns_query.2 ⟨rfl, rfl⟩, Prog.returns_exec.2 ⟨rfl, rfl⟩⟩), rfl⟩

theorem exists_cancellation (ctx : DispatchContext) (n : ℕ) (c : Session Db Write String) :
    ∃ outcome, (if n = 0 then pure {} else emitCancellationEvent ctx :
      Service DispatchOutcome).Returns c outcome c := by
  split_ifs
  · exact ⟨{}, rfl⟩
  · unfold emitCancellationEvent purchaseOutcome
    rcases hpurchase : findChainPurchase ctx c.view with _ | purchase
    · exact ⟨{}, by simp [hpurchase]⟩
    · rcases hsubscriber : findSubscriberById purchase.2.subscriberId c.view with _ | subscriber
      · exact ⟨{}, by simp [hpurchase, hsubscriber]⟩
      · exact ⟨{ subscriberId := some subscriber.1, purchaseId := some purchase.2.id },
          by simp [hpurchase, hsubscriber]⟩

theorem exists_expired (ctx : DispatchContext) (c : Session Db Write String) :
    ∃ outcome c', (applyExpired ctx).Returns c outcome c' ∧
      c'.view = closedView ctx .expired c.view := by
  obtain ⟨n, c₁, c', hwrite, hrevoke, hview⟩ := exists_close ctx .expired c
  obtain ⟨outcome, houtcome⟩ := exists_cancellation ctx n c'
  refine ⟨outcome, c', ?_, hview⟩
  unfold applyExpired
  apply Prog.returns_bind.2
  exact ⟨n, c₁, hwrite, Prog.returns_bind.2 ⟨(), c', hrevoke, houtcome⟩⟩

theorem exists_revoke (ctx : DispatchContext) (c : Session Db Write String) :
    ∃ outcome c', (applyRevoke ctx).Returns c outcome c' ∧
      c'.view = closedView ctx .revoked c.view := by
  obtain ⟨n, c₁, c', hwrite, hrevoke, hview⟩ := exists_close ctx .revoked c
  obtain ⟨outcome, houtcome⟩ := exists_chainOutcome ctx c'
  refine ⟨outcome, c', ?_, hview⟩
  unfold applyRevoke
  apply Prog.returns_bind.2
  exact ⟨n, c₁, hwrite, Prog.returns_bind.2 ⟨(), c', hrevoke, houtcome⟩⟩

theorem mem_chainPurchaseIds {purchaseId : String} :
    purchaseId ∈ chainPurchaseIds ctx.projectId ctx.originalTransactionId s ↔
      ∃ key row, s.purchases.get? key = some row ∧
        inChain ctx.projectId ctx.originalTransactionId (key, row) = true ∧ row.id = purchaseId := by
  unfold chainPurchaseIds inChain
  simp only [List.mem_map, List.mem_filter, decide_eq_true_eq]
  constructor
  · rintro ⟨⟨key, row⟩, ⟨hmem, hchain⟩, hid⟩
    exact ⟨key, row, s.purchases.mem_entries.1 hmem, hchain, hid⟩
  · rintro ⟨key, row, hrow, hchain, hid⟩
    exact ⟨(key, row), ⟨s.purchases.mem_entries.2 hrow, hchain⟩, hid⟩

theorem mem_chainPurchaseIds_moved {status : PurchaseStatus} {purchaseId : String} :
    purchaseId ∈ chainPurchaseIds ctx.projectId ctx.originalTransactionId
        (applyAll s (openUpdates ctx { status := some status } s)) ↔
      purchaseId ∈ chainPurchaseIds ctx.projectId ctx.originalTransactionId s := by
  have hnodup := openChainKeys_nodup ctx.projectId ctx.originalTransactionId s
  have hplace (row : Purchase) (key : PurchaseKey) :
      let moved := StatusGuard.notTerminal.patch { status := some status } row
      moved.id = row.id ∧ inChain ctx.projectId ctx.originalTransactionId (key, moved) =
        inChain ctx.projectId ctx.originalTransactionId (key, row) := by
    rcases StatusGuard.patch_cases .notTerminal { status := some status } row with h | h | h <;>
      rw [h] <;> exact ⟨rfl, rfl⟩
  rw [mem_chainPurchaseIds, mem_chainPurchaseIds]
  unfold openUpdates
  constructor
  · rintro ⟨key, row, hrow, hchain, hid⟩
    rw [get?_updatesOf hnodup] at hrow
    split_ifs at hrow
    · obtain ⟨old, hold, rfl⟩ := Option.map_eq_some_iff.1 hrow
      rw [(hplace old key).2] at hchain
      exact ⟨key, old, hold, hchain, (hplace old key).1.symm.trans hid⟩
    · exact ⟨key, row, hrow, hchain, hid⟩
  · rintro ⟨key, row, hrow, hchain, hid⟩
    by_cases hmem : key ∈ openChainKeys ctx.projectId ctx.originalTransactionId s
    · refine ⟨key, StatusGuard.notTerminal.patch { status := some status } row, ?_, ?_, ?_⟩
      · rw [get?_updatesOf hnodup, if_pos hmem, hrow, Option.map_some]
      · rw [(hplace row key).2, hchain]
      · rw [(hplace row key).1, hid]
    · refine ⟨key, row, ?_, hchain, hid⟩
      rw [get?_updatesOf hnodup, if_neg hmem, hrow]

theorem closed_purchases (ctx : DispatchContext) (status : PurchaseStatus) (s : Db) :
    (closedView ctx status s).purchases =
      (applyAll s (openUpdates ctx { status := some status } s)).purchases := by
  apply applyAll_purchases
  intro w hw
  obtain ⟨rowId, -, rfl⟩ := List.mem_map.1 hw
  exact id

theorem closed_access {status : PurchaseStatus} {id : String} {row : SubscriberAccess}
    (hrow : s.subscriberAccess.get? id = some row) :
    (closedView ctx status s).subscriberAccess.get? id =
      some (if row.purchaseId ∈ chainPurchaseIds ctx.projectId ctx.originalTransactionId s then
        deactivated row else row) := by
  have hmoved : (applyAll s (openUpdates ctx { status := some status } s)).subscriberAccess =
      s.subscriberAccess :=
    applyAll_subscriberAccess _ _ (updatesOf_not_onAccess _ _ _)
  have hmem : id ∈ accessIdsForPurchases (chainPurchaseIds ctx.projectId ctx.originalTransactionId
      (applyAll s (openUpdates ctx { status := some status } s)))
        (applyAll s (openUpdates ctx { status := some status } s)) ↔
      row.purchaseId ∈ chainPurchaseIds ctx.projectId ctx.originalTransactionId s := by
    unfold accessIdsForPurchases
    rw [hmoved]
    simp only [List.mem_map, List.mem_filter, decide_eq_true_eq, mem_chainPurchaseIds_moved]
    constructor
    · rintro ⟨⟨id', row'⟩, ⟨hentry, hchain⟩, rfl⟩
      obtain rfl := Option.some_inj.1 (hrow.symm.trans (s.subscriberAccess.mem_entries.1 hentry))
      exact hchain
    · intro hchain
      exact ⟨(id, row), ⟨s.subscriberAccess.mem_entries.2 hrow, hchain⟩, rfl⟩
  unfold closedView
  rw [applyAll_accessFold, deactivate_fold, hmoved, hrow]
  simp only [hmem, Option.map_some]
  split_ifs <;> rfl

theorem closed_keeps_iff (ctx : DispatchContext) (hunique : UniquePurchaseIds s)
    (status : PurchaseStatus) :
    KeepsOthers (otherStoreIds s) s (closedView ctx status s) ↔
      ∀ key row, SharesChain ctx s key row →
        (row.status ∈ repoTerminalStatuses ∨ row.status = status) ∧ NoActiveAccess s row.id := by
  have hcolumn (row : Purchase) :
      PurchasePatch.apply { status := some status } row = row ↔ row.status = status := by
    rw [apply_eq_self_iff rfl rfl rfl rfl rfl rfl rfl rfl rfl]
    simp [eq_comm]
  have hpurchases := openUpdates_keep_iff ctx s { status := some status }
  rw [← closed_purchases] at hpurchases
  constructor
  · intro h key row hshares
    refine ⟨(hpurchases.1 h.purchases key row hshares).imp_right (hcolumn row).1, ?_⟩
    intro id access haccess hsource
    obtain ⟨hrow, hstore, hchain⟩ := hshares
    have hother : access.purchaseId ∈ otherStoreIds s := ⟨key, row, hrow, hstore, hsource.symm⟩
    have hkept := h.access id access haccess hother
    have hmem : access.purchaseId ∈ chainPurchaseIds ctx.projectId ctx.originalTransactionId s :=
      mem_chainPurchaseIds.2 ⟨key, row, hrow, hchain, hsource.symm⟩
    rw [closed_access haccess, if_pos hmem] at hkept
    rw [← Option.some_inj.1 hkept]
    rfl
  · intro h
    refine ⟨hpurchases.2 fun key row hshares => (h key row hshares).1.imp_right (hcolumn row).2, ?_⟩
    rintro id access haccess ⟨key, row, hrow, hstore, hsource⟩
    rw [closed_access haccess]
    split_ifs with hmem
    · obtain ⟨key', row', hrow', hchain, hsource'⟩ := mem_chainPurchaseIds.1 hmem
      obtain rfl : key = key' := hunique key key' row row' hrow hrow' (hsource.trans hsource'.symm)
      obtain rfl := Option.some_inj.1 (hrow.symm.trans hrow')
      have hinactive := (h key row ⟨hrow, hstore, hchain⟩).2 id access haccess hsource.symm
      rw [deactivated_eq_self hinactive]
    · rfl

/-- What the handler does by itself spares the rows of the other stores. Only an upgrade syncs
subscribers on the way, and a sync answers for itself. -/
def TouchesOnlyApple (ctx : DispatchContext) (s : Db) (clock : ℕ → ℤ) (drawn : ℕ → String) : Prop :=
  ∀ outcome c', (dispatch ctx).Returns (.start s clock drawn) outcome c' →
    ∃ synced, (synced ≠ [] → upgrades ctx = true) ∧
      (otherStores (otherStoreIds s)).Segments synced (.start s clock drawn) c'

theorem apart_start {clock : ℕ → ℤ} {drawn : ℕ → String} (hunique : UniquePurchaseIds s)
    (hdrawn : ∀ n, drawn n ∉ otherStoreIds s) :
    Apart (otherStoreIds s) (.start s clock drawn) where
  drawn := hdrawn
  purchases key row hrow hstore := by
    rintro ⟨key', row', hrow', hother, hid⟩
    obtain rfl : key' = key := hunique key' key row' row hrow' hrow hid
    exact hother hstore

theorem touches_iff_keeps {clock : ℕ → ℤ} {drawn : ℕ → String} {view : Db}
    (hsyncs : upgrades ctx = false)
    (hrun : ∃ outcome c', (dispatch ctx).Returns (.start s clock drawn) outcome c' ∧
      c'.view = view) :
    TouchesOnlyApple ctx s clock drawn ↔ KeepsOthers (otherStoreIds s) s view := by
  obtain ⟨outcome, c', hreturns, hview⟩ := hrun
  constructor
  · intro h
    obtain ⟨synced, hcalled, hsegments⟩ := h outcome c' hreturns
    obtain rfl : synced = [] := by
      by_contra hne
      rw [hcalled hne] at hsyncs
      exact nomatch hsyncs
    rw [← hview]
    exact hsegments
  · intro h outcome₂ c₂ hreturns₂
    have hsame : (outcome, c') = (outcome₂, c₂) := Except.ok.inj (hreturns.symm.trans hreturns₂)
    obtain rfl : c' = c₂ := congrArg Prod.snd hsame
    refine ⟨[], fun hne => absurd rfl hne, ?_⟩
    show KeepsOthers _ s c'.view
    rw [hview]
    exact h

theorem touchesOnlyApple_iff (ctx : DispatchContext) (s : Db) (clock : ℕ → ℤ) (drawn : ℕ → String)
    (hunique : UniquePurchaseIds s) (hdrawn : ∀ n, drawn n ∉ otherStoreIds s) :
    TouchesOnlyApple ctx s clock drawn ↔
      ∀ key row, SharesChain ctx s key row → StandsAlready ctx s row := by
  by_cases hchain : writesChain ctx = false
  · refine iff_of_true ?_ ?_
    · intro outcome c' hreturns
      exact (spares_dispatch hchain _ outcome c' (apart_start hunique hdrawn) hreturns).2.2
    · intro key row _
      unfold writesChain at hchain
      unfold StandsAlready
      rcases htype : ctx.notification.notificationType <;> simp [htype] at hchain ⊢
  · have hsyncs : upgrades ctx = false := by
      unfold writesChain at hchain
      unfold upgrades
      rcases htype : ctx.notification.notificationType <;> simp [htype] at hchain ⊢
    unfold writesChain at hchain
    unfold StandsAlready
    rcases htype : ctx.notification.notificationType <;> simp [htype] at hchain
    · have hrun := exists_renewalStatusChange ctx (.start s clock drawn)
      rw [touches_iff_keeps hsyncs (by rw [dispatch, htype]; exact hrun)]
      exact renewalStatus_keeps_iff
    · have hrun := exists_failedRenewal ctx (.start s clock drawn)
      rw [touches_iff_keeps hsyncs (by rw [dispatch, htype]; exact hrun)]
      exact failedRenewal_keeps_iff
    · have hrun := exists_expired ctx (.start s clock drawn)
      rw [touches_iff_keeps hsyncs (by rw [dispatch, htype]; exact hrun)]
      exact closed_keeps_iff ctx hunique .expired
    · have hrun := exists_expired ctx (.start s clock drawn)
      rw [touches_iff_keeps hsyncs (by rw [dispatch, htype]; exact hrun)]
      exact closed_keeps_iff ctx hunique .expired
    · have hrun := exists_revoke ctx (.start s clock drawn)
      -- a revoked row is a terminal one
      have hterminal (row : Purchase) : row.status ∈ repoTerminalStatuses ∨ row.status = .revoked ↔
          row.status ∈ repoTerminalStatuses :=
        or_iff_left_of_imp fun h => by rw [h]; decide
      have hclosed := closed_keeps_iff ctx hunique .revoked
      simp only [hterminal] at hclosed
      rw [touches_iff_keeps hsyncs (by rw [dispatch, htype]; exact hrun)]
      exact hclosed

def stripeKey : PurchaseKey := ⟨.stripe, "sub_1"⟩

def twoStores (stripeChain : String) : Db where
  purchases := ⟨[
      (appleKey "1000",
        { id := "a1", projectId := "app", subscriberId := "ann", productId := "pro"
          originalTransactionId := "1000", status := .active }),
      (stripeKey,
        { id := "s1", projectId := "app", subscriberId := "sue", productId := "pro"
          originalTransactionId := stripeChain, status := .active })],
    by show [appleKey "1000", stripeKey].Nodup; decide⟩
  subscriberAccess := Table.empty.insert "grant"
    { subscriberId := "sue", purchaseId := "s1", accessId := "premium", expiresDate := none
      store := .stripe }

def termEnded : DispatchContext where
  projectId := "app"
  notification := { notificationType := .expired, signedDate := 10 }
  transaction :=
    { transactionId := "1000", originalTransactionId := "1000", productId := "com.pro" }

theorem twoStores_rows {stripeChain : String} {key : PurchaseKey} {row : Purchase}
    (h : (twoStores stripeChain).purchases.get? key = some row) :
    key = appleKey "1000" ∧ row.id = "a1" ∨
      key = stripeKey ∧ row.id = "s1" ∧ row.originalTransactionId = stripeChain := by
  have hmem := (Table.mem_entries _).2 h
  simp only [twoStores, List.mem_cons, List.not_mem_nil, or_false, Prod.mk.injEq] at hmem
  rcases hmem with ⟨rfl, rfl⟩ | ⟨rfl, rfl⟩
  · exact .inl ⟨rfl, rfl⟩
  · exact .inr ⟨rfl, rfl, rfl⟩

theorem freshIds_ne {id : String} (h : ∃ ch ∈ id.toList, ch ≠ 'x') (n : ℕ) : freshIds n ≠ id := by
  rintro rfl
  obtain ⟨ch, hmem, hne⟩ := h
  unfold freshIds at hmem
  rw [String.toList_ofList] at hmem
  exact hne (List.eq_of_mem_replicate hmem)

theorem touchesOnlyApple_twoStores :
    TouchesOnlyApple termEnded (twoStores "sub_1") (fun _ => 10) freshIds := by
  have hunique : UniquePurchaseIds (twoStores "sub_1") := by
    intro key key' row row' hrow hrow' hid
    rcases twoStores_rows hrow with ⟨rfl, h⟩ | ⟨rfl, h, -⟩ <;>
      rcases twoStores_rows hrow' with ⟨rfl, h'⟩ | ⟨rfl, h', -⟩
    · rfl
    · rw [h, h'] at hid
      exact absurd hid (by decide)
    · rw [h, h'] at hid
      exact absurd hid (by decide)
    · rfl
  have hdrawn : ∀ n, freshIds n ∉ otherStoreIds (twoStores "sub_1") := by
    rintro n ⟨key, row, hrow, -, hid⟩
    rcases twoStores_rows hrow with ⟨-, h⟩ | ⟨-, h, -⟩ <;> rw [h] at hid
    · exact freshIds_ne ⟨'a', by decide, by decide⟩ n hid.symm
    · exact freshIds_ne ⟨'s', by decide, by decide⟩ n hid.symm
  refine (touchesOnlyApple_iff termEnded _ _ _ hunique hdrawn).2 ?_
  rintro key row ⟨hrow, hstore, hchain⟩
  rcases twoStores_rows hrow with ⟨rfl, -⟩ | ⟨-, -, h⟩
  · exact absurd rfl hstore
  · simp only [inChain, decide_eq_true_eq] at hchain
    rw [h] at hchain
    exact absurd hchain.2 (by decide)

theorem expired_strikes_stripe :
    ∃ outcome c', (dispatch termEnded).Returns (.start (twoStores "1000") (fun _ => 10) freshIds)
        outcome c' ∧
      ((twoStores "1000").purchases.get? stripeKey).map Purchase.status = some .active ∧
      (c'.view.purchases.get? stripeKey).map Purchase.status = some .expired ∧
      (c'.view.subscriberAccess.get? "grant").map SubscriberAccess.isActive = some false ∧
      ¬TouchesOnlyApple termEnded (twoStores "1000") (fun _ => 10) freshIds := by
  refine ⟨_, _, rfl, by decide, by decide, by decide, fun h => ?_⟩
  obtain ⟨synced, hcalled, hsegments⟩ := h _ _ rfl
  rcases synced with _ | ⟨subscriberId, synced⟩
  · have hstripe := congrArg (Option.map Purchase.status) (hsegments.purchases stripeKey nofun)
    exact absurd hstripe (by decide)
  · exact absurd (hcalled nofun) (by decide)

end Chain
end Rovenue.Apple
