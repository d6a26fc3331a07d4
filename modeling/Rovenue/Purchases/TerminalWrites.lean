import Rovenue.Apple.AppleWebhook
import Rovenue.Google.GoogleWebhook
import Rovenue.Stripe.StripeWebhook
import Rovenue.Workers.SweepPlan

/-! Which statements can move a row off `REFUNDED` or `REVOKED`. All routines but two
issue none, and take the lock of every row they write. -/

namespace Rovenue
open Txn

/-- The write carries a guard of its own against leaving a terminal status. -/
def Write.KeepsTerminal : Write → Prop
  | .updatePurchase _ guard set =>
    (guard = .unguarded → set.status = none) ∧
      ∀ s, guard = .whenStatus s → s ∉ repoTerminalStatuses ∨ set.status = none
  | _ => True

def Write.purchaseKey? : Write → Option PurchaseKey
  | .insertPurchase key _ => some key
  | .updatePurchase key _ _ => some key
  | _ => none

theorem Write.purchaseKey?_eq_none {w : Write} (h : ¬w.OnPurchases) : w.purchaseKey? = none := by
  cases w <;> first | rfl | exact absurd trivial h

theorem Write.KeepsTerminal.of_not_onPurchases {w : Write} (h : ¬w.OnPurchases) :
    w.KeepsTerminal := by
  cases w <;> first | trivial | exact absurd trivial h

section Rows
variable {s : Db} {w : Write} {ws : List Write} {key : PurchaseKey} {r : Purchase}

theorem get?_write_of_key_ne (h : w.purchaseKey? ≠ some key) :
    (s.write w).purchases.get? key = s.purchases.get? key := by
  rw [write_purchaseAt]
  cases w with
  | insertPurchase key' row => exact if_neg fun hk => h (congrArg some hk.symm)
  | updatePurchase key' guard set => exact if_neg fun hk => h (congrArg some hk.symm)
  | _ => rfl

theorem isSome_get?_applyAll (h : (s.purchases.get? key).isSome) :
    ((applyAll s ws).purchases.get? key).isSome := by
  induction ws generalizing s with
  | nil => exact h
  | cons w ws ih =>
    apply ih
    rw [apply_eq, write_purchaseAt]
    cases w with
    | insertPurchase key' row =>
      simp only [Write.purchaseAt]
      split_ifs
      · rfl
      · exact h
    | updatePurchase key' guard set =>
      simp only [Write.purchaseAt]
      split_ifs
      · simpa using h
      · exact h
    | _ => exact h

theorem get?_applyAll_of_key_ne (h : ∀ w ∈ ws, w.purchaseKey? ≠ some key) :
    (applyAll s ws).purchases.get? key = s.purchases.get? key :=
  applyAll_congr (fun s => s.purchases.get? key) (fun w hw _ => get?_write_of_key_ne (h w hw)) s

theorem Write.KeepsTerminal.write (h : w.KeepsTerminal) (hget : s.purchases.get? key = some r)
    (hr : r.status ∈ repoTerminalStatuses) :
    ∃ r', (s.write w).purchases.get? key = some r' ∧ r'.status = r.status := by
  rw [write_purchaseAt, hget]
  cases w with
  | insertPurchase key' row =>
    simp only [Write.purchaseAt]
    split_ifs <;> exact ⟨r, rfl, rfl⟩
  | updatePurchase key' guard set =>
    simp only [Write.purchaseAt]
    split_ifs
    · exact ⟨_, rfl, StatusGuard.patch_terminal hr h.1 h.2⟩
    · exact ⟨r, rfl, rfl⟩
  | _ => exact ⟨r, rfl, rfl⟩

theorem keepsTerminal_applyAll (h : ∀ w ∈ ws, w.KeepsTerminal)
    (hget : s.purchases.get? key = some r) (hr : r.status ∈ repoTerminalStatuses) :
    ∃ r', (applyAll s ws).purchases.get? key = some r' ∧ r'.status = r.status := by
  induction ws generalizing s r with
  | nil => exact ⟨r, hget, rfl⟩
  | cons w ws ih =>
    obtain ⟨r₁, hget₁, hsame₁⟩ := (h w (List.mem_cons_self ..)).write hget hr
    have hrest := ih (fun v hv => h v (List.mem_cons_of_mem _ hv)) hget₁ (hsame₁ ▸ hr)
    rwa [hsame₁] at hrest

end Rows

/-- Every row a statement writes is locked by it, and keeps a terminal status. -/
def Orderly (_ : Db) (needs : List LockKey) (ws : List Write) : Prop :=
  ∀ w ∈ ws, w.KeepsTerminal ∧ ∀ key, w.purchaseKey? = some key → .purchase key ∈ needs

theorem orderly_nil (s : Db) (needs : List LockKey) : Orderly s needs [] := by
  intro w hw
  exact absurd hw List.not_mem_nil

theorem orderly_of_not_onPurchases {s : Db} {needs : List LockKey} {ws : List Write}
    (h : ∀ w ∈ ws, ¬w.OnPurchases) : Orderly s needs ws := by
  intro w hw
  refine ⟨.of_not_onPurchases (h w hw), fun key hkey => ?_⟩
  rw [Write.purchaseKey?_eq_none (h w hw)] at hkey
  cases hkey

section Statements
variable {α : Type}

theorem orderly_of_each {p : Service α} (h : p.Each fun _ ws => ∀ w ∈ ws, ¬w.OnPurchases) :
    p.Stmts Orderly := Prog.Stmts.mono h fun _ _ _ hws => orderly_of_not_onPurchases hws

theorem orderly_guardStatusWrite (args : GuardStatusWriteArgs) :
    (guardStatusWrite args).Stmts Orderly :=
  (Prog.stmts_queryLocked (fun s => orderly_nil s _) _).bind fun _ => trivial

theorem orderly_lockPurchase (key : PurchaseKey) :
    (lockPurchaseStatusByStoreTransaction key).Stmts Orderly :=
  Prog.stmts_queryLocked (fun s => orderly_nil s _) _

theorem orderly_updatePurchaseRow (key : PurchaseKey) {guard : StatusGuard} {set : PurchasePatch}
    (h : (Write.updatePurchase key guard set).KeepsTerminal) :
    (updatePurchaseRow key guard set).Stmts Orderly := by
  refine Prog.stmts_exec fun s w hw => ?_
  obtain rfl := List.mem_singleton.1 hw
  refine ⟨h, fun key' hkey => ?_⟩
  obtain rfl := Option.some.inj hkey
  exact List.mem_singleton.2 rfl

theorem orderly_updatePurchase (key : PurchaseKey) (set : PurchasePatch) :
    (updatePurchase key set).Stmts Orderly :=
  orderly_updatePurchaseRow key ⟨by rintro ⟨⟩, by rintro s ⟨⟩⟩

theorem orderly_upsertPurchase (key : PurchaseKey) (create : Purchase) (update : PurchasePatch) :
    (upsertPurchase key create update).Stmts Orderly := by
  intro id
  refine Prog.stmts_exec fun s w hw => ?_
  unfold upsertWrites at hw
  split at hw <;>
    obtain rfl := List.mem_singleton.1 hw <;>
    refine ⟨?_, fun key' hkey => ?_⟩
  · trivial
  · obtain rfl := Option.some.inj hkey
    exact List.mem_singleton.2 rfl
  · exact ⟨by rintro ⟨⟩, by rintro s ⟨⟩⟩
  · obtain rfl := Option.some.inj hkey
    exact List.mem_singleton.2 rfl

theorem orderly_updates {keys : Db → List PurchaseKey} {guard : StatusGuard} {set : PurchasePatch}
    {f : Db → α} (h : ∀ key, (Write.updatePurchase key guard set).KeepsTerminal) :
    (Prog.exec (fun s => (keys s).map .purchase)
      (fun s => (keys s).map fun key => .updatePurchase key guard set) f : Service α).Stmts
        Orderly := by
  refine Prog.stmts_exec fun s w hw => ?_
  obtain ⟨key, hkey, rfl⟩ := List.mem_map.1 hw
  refine ⟨h key, fun key' hkey' => ?_⟩
  obtain rfl := Option.some.inj hkey'
  exact List.mem_map.2 ⟨_, hkey, rfl⟩

theorem orderly_grantAccess (args : GrantAccessArgs) : (grantAccess args).Stmts Orderly :=
  orderly_of_each ((grantAccess_each args).mono fun _ _ h w hw => (h w hw).not_onPurchases)

theorem orderly_revokeAccessByPurchaseId (purchaseId : String) :
    (revokeAccessByPurchaseId purchaseId).Stmts Orderly :=
  orderly_of_each ((revokeAccessByPurchaseId_each purchaseId).mono fun _ _ h w hw =>
    (h w hw).not_onPurchases)

theorem orderly_syncAccess (subscriberId : String) : (syncAccess subscriberId).Stmts Orderly :=
  orderly_of_each ((syncAccess_each subscriberId).mono fun _ _ h w hw => (h w hw).not_onPurchases)

theorem orderly_upsertSubscriber (input : UpsertSubscriberInput) :
    (upsertSubscriber input).Stmts Orderly := orderly_of_each (upsertSubscriber_each input)

theorem orderly_postProcess (outcome : DispatchOutcome) : (postProcess outcome).Stmts Orderly :=
  orderly_of_each (postProcess_each outcome)

theorem orderly_now : (Prog.now : Service ℤ).Stmts Orderly := fun _ => trivial

theorem orderly_query_bind {β : Type} {f : Db → α} {g : α → Service β}
    (h : ∀ s, (g (f s)).Stmts Orderly) : ((Prog.query f).bind g).Stmts Orderly :=
  fun s => ⟨orderly_nil s _, h s⟩

end Statements

theorem orderly_moveCandidate (candidate : PurchaseRecord) {expected : PurchaseStatus}
    (new : PurchaseStatus) (h : expected ∉ repoTerminalStatuses) :
    (moveCandidate candidate expected new).Stmts Orderly := by
  have hswap : (updatePurchaseStatusIf candidate.1 expected new).Stmts Orderly := by
    refine Prog.stmts_exec fun s w hw => ?_
    obtain rfl := List.mem_singleton.1 hw
    refine ⟨⟨by rintro ⟨⟩, fun s hs => .inl ?_⟩, fun key hkey => ?_⟩
    · obtain rfl := StatusGuard.whenStatus.inj hs
      exact h
    · obtain rfl := Option.some.inj hkey
      exact List.mem_singleton.2 rfl
  refine (Prog.Stmts.autocommit hswap).bind fun updated => ?_
  split_ifs
  · trivial
  · exact orderly_syncAccess _

theorem orderly_processCandidate (candidate : PurchaseRecord) (now : ℤ)
    (h : candidate.2.status ∉ repoTerminalStatuses) :
    (processCandidate candidate now).Stmts Orderly := by
  unfold processCandidate
  split_ifs
  · exact orderly_moveCandidate candidate .gracePeriod h
  · trivial
  · exact orderly_moveCandidate candidate .expired h

theorem sweepable_not_terminal {status : PurchaseStatus} (h : status ∈ expirySweepStatuses) :
    status ∉ repoTerminalStatuses := by
  revert h
  cases status <;> decide

theorem orderly_runExpiryCheck : runExpiryCheck.Stmts Orderly := by
  intro now
  refine orderly_query_bind fun s => Prog.stmts_forEach _ fun candidate hmem => ?_
  have hwhere := (mem_candidates hmem).2
  simp only [Bool.and_eq_true, decide_eq_true_eq] at hwhere
  exact orderly_processCandidate candidate now (sweepable_not_terminal hwhere.1.1)

theorem orderly_runBillingIssueAgeing : runBillingIssueAgeing.Stmts Orderly := by
  intro now
  exact orderly_query_bind fun s => Prog.stmts_forEach _ fun candidate _ =>
    orderly_moveCandidate candidate .expired (by decide)

section Stripe
variable (ctx : StripeContext)

theorem orderly_resolveStripeSubscriber (projectId : String) (subscription : StripeSubscription) :
    (resolveStripeSubscriber projectId subscription).Stmts Orderly := by
  have hmerge : ∀ hops cursor, (followMergedInto hops cursor).Stmts Orderly := by
    intro hops
    induction hops with
    | zero => exact fun _ => trivial
    | succ hops ih =>
      intro cursor
      unfold followMergedInto
      split
      · refine orderly_query_bind fun s => ?_
        cases findSubscriberById _ s with
        | none => trivial
        | some next => exact ih next
      · trivial
      · trivial
  have hresolve : ∀ rovenueId, (resolveSubscriberByRovenueId projectId rovenueId).Stmts Orderly := by
    intro rovenueId
    refine orderly_query_bind fun s => ?_
    cases findSubscriberByRovenueId projectId rovenueId s with
    | none => trivial
    | some row =>
      dsimp only
      split_ifs
      · trivial
      · exact hmerge _ row
  refine (hresolve _).bind fun resolved => ?_
  cases resolved with
  | some row => trivial
  | none =>
    refine orderly_query_bind fun s => ?_
    cases findSubscriberByRovenueId projectId _ s with
    | some row => trivial
    | none => exact (orderly_upsertSubscriber _).bind fun _ => trivial

theorem orderly_writeSubscription (subscription : StripeSubscription) (subscriberId : String)
    (status : PurchaseStatus) :
    (writeSubscription ctx subscription subscriberId status).Stmts Orderly := by
  refine Prog.Stmts.transaction fun startedAt => ?_
  refine (orderly_guardStatusWrite _).bind fun guard => ?_
  refine Prog.Stmts.bind ?_ fun _ => trivial
  unfold upsertPurchaseFromSubscription
  split
  · trivial
  · refine orderly_query_bind fun s => ?_
    cases findProductByStoreId ctx.projectId "stripe" _ s with
    | none => trivial
    | some product =>
      intro now
      exact orderly_query_bind fun s =>
        (orderly_upsertPurchase _ _ _).bind fun _ => trivial

theorem orderly_syncSubscription (subscription : StripeSubscription) :
    (syncSubscription ctx subscription).Stmts Orderly := by
  refine (orderly_resolveStripeSubscriber _ _).bind fun subscriber => ?_
  split
  · trivial
  · trivial
  · refine (orderly_writeSubscription _ _ _ _).bind fun synced => ?_
    dsimp only
    split_ifs
    · exact (orderly_grantAccess _).bind fun _ => trivial
    · exact (Prog.Stmts.autocommit (orderly_revokeAccessByPurchaseId _)).bind fun _ => trivial

theorem orderly_applySubscriptionDeleted (subscription : StripeSubscription) :
    (applySubscriptionDeleted ctx subscription).Stmts Orderly := by
  refine orderly_query_bind fun s => ?_
  cases findPurchaseByStoreTransaction ctx.projectId (stripeKey subscription.id) s with
  | none => trivial
  | some purchase =>
    refine Prog.Stmts.bind (Prog.Stmts.transaction fun _ => ?_) fun _ => ?_
    · exact (orderly_guardStatusWrite _).bind fun guard => fun now => orderly_updatePurchase _ _
    · exact (Prog.Stmts.autocommit (orderly_revokeAccessByPurchaseId _)).bind fun _ => trivial

theorem orderly_applyInvoicePaid (invoice : StripeInvoice) :
    (applyInvoicePaid ctx invoice).Stmts Orderly := by
  unfold applyInvoicePaid
  split
  · trivial
  · refine orderly_query_bind fun s => ?_
    cases findPurchaseByStoreTransaction ctx.projectId _ s with
    | none => trivial
    | some purchase =>
      dsimp only
      split_ifs
      · exact (Prog.Stmts.autocommit (orderly_updatePurchase _ _)).bind fun _ => trivial
      · trivial

theorem orderly_applyChargeRefunded (charge : StripeCharge) :
    (applyChargeRefunded ctx charge).Stmts Orderly := by
  unfold applyChargeRefunded
  split
  · trivial
  · trivial
  · refine orderly_query_bind fun s => ?_
    cases findPurchaseByStoreTransaction ctx.projectId _ s with
    | none => trivial
    | some purchase =>
      intro now
      dsimp only
      split_ifs
      · refine (Prog.Stmts.autocommit (orderly_guardStatusWrite _)).bind fun guard => ?_
        split_ifs
        · exact (Prog.Stmts.autocommit (orderly_updatePurchase _ _)).bind fun _ =>
            (Prog.Stmts.autocommit (orderly_revokeAccessByPurchaseId _)).bind fun _ => trivial
        · trivial
      · trivial

theorem orderly_grantOneTimePurchase (args : OneTimePurchase) :
    (grantOneTimePurchase args).Stmts Orderly := by
  refine Prog.Stmts.transaction fun startedAt => fun purchasedAt => ?_
  refine (orderly_upsertPurchase _ _ _).bind fun purchase => ?_
  refine Prog.stmts_forEach _ fun accessId _ => orderly_query_bind fun s => ?_
  cases findAccessByPurchaseAndAccessId args.subscriberId purchase.id accessId s with
  | none => exact orderly_of_each fun id => Prog.each_exec fun _ => by simp [Write.OnPurchases]
  | some existing => exact orderly_of_each (Prog.each_exec fun _ => by simp [Write.OnPurchases])

end Stripe

namespace Google

theorem orderly_writeSubscription (w : SubscriptionWrite) : (writeSubscription w).Stmts Orderly := by
  refine Prog.Stmts.transaction fun startedAt => ?_
  refine (orderly_guardStatusWrite _).bind fun decided => fun insertedAt => fun updatedAt => ?_
  exact (orderly_upsertPurchase _ _ _).bind fun _ => trivial

theorem orderly_supersedeLinked (ctx : SubscriptionCtx) (purchase : GoogleSubscriptionPurchaseV2) :
    (supersedeLinked ctx purchase).Stmts Orderly := by
  unfold supersedeLinked
  split
  · trivial
  · unfold expireSupersededGooglePurchase
    split_ifs
    · trivial
    · refine orderly_query_bind fun s => ?_
      cases findPurchaseByStoreTransaction ctx.projectId _ s with
      | none => trivial
      | some old =>
        refine orderly_now.bind fun now => ?_
        refine Prog.Stmts.bind (Prog.Stmts.transaction fun _ => ?_) fun _ =>
          Prog.Stmts.autocommit (orderly_revokeAccessByPurchaseId _)
        refine (orderly_guardStatusWrite _).bind fun guard => ?_
        split_ifs
        · exact orderly_updatePurchase _ _
        · trivial

theorem orderly_processSubscriptionNotification (ctx : SubscriptionCtx)
    (purchase : GoogleSubscriptionPurchaseV2) :
    (processSubscriptionNotification ctx purchase).Stmts Orderly := by
  have hsubscriber : (resolveSubscriber ctx).Stmts Orderly := by
    refine orderly_query_bind fun s => orderly_query_bind fun s => ?_
    split
    · trivial
    · exact orderly_upsertSubscriber _
  refine hsubscriber.bind fun subscriber => orderly_query_bind fun s => ?_
  split
  · trivial
  · refine fun readAt => orderly_query_bind fun s => fun eventTime => ?_
    refine (orderly_writeSubscription _).bind fun written => ?_
    refine (orderly_supersedeLinked _ _).bind fun _ => ?_
    refine Prog.Stmts.bind ?_ fun _ => trivial
    unfold entitle
    split_ifs
    · exact orderly_grantAccess _
    · exact Prog.Stmts.autocommit (orderly_revokeAccessByPurchaseId _)

theorem orderly_processVoidedPurchase (projectId purchaseToken : String) :
    (processVoidedPurchase projectId purchaseToken).Stmts Orderly := by
  refine orderly_query_bind fun s => ?_
  cases findPurchaseByStoreTransaction projectId (googleKey purchaseToken) s with
  | none => trivial
  | some purchase =>
    refine orderly_now.bind fun voidEventTime => ?_
    refine Prog.Stmts.bind (Prog.Stmts.transaction fun _ => ?_) fun _ => ?_
    · exact (orderly_guardStatusWrite _).bind fun decided => orderly_updatePurchase _ _
    · exact (Prog.Stmts.autocommit (orderly_revokeAccessByPurchaseId _)).bind fun _ => trivial

theorem orderly_handleGoogleNotification (notification : GoogleNotification) :
    (handleGoogleNotification notification).Stmts Orderly := by
  refine Prog.Stmts.bind ?_ fun outcome => orderly_postProcess outcome
  cases notification with
  | subscription ctx purchase => exact orderly_processSubscriptionNotification ctx purchase
  | voided projectId purchaseToken => exact orderly_processVoidedPurchase projectId purchaseToken
  | other => trivial

end Google

namespace Apple
variable (ctx : DispatchContext)

theorem orderly_retireRow (key : PurchaseKey) (now : ℤ) : (retireRow key now).Stmts Orderly := by
  refine (orderly_guardStatusWrite _).bind fun guard => ?_
  split_ifs
  · exact orderly_updatePurchase _ _
  · trivial

theorem orderly_resolveSubscriber : (resolveSubscriber ctx).Stmts Orderly := by
  refine orderly_query_bind fun s => ?_
  split
  · trivial
  · refine orderly_query_bind fun s => orderly_query_bind fun s => ?_
    split
    · trivial
    · exact orderly_upsertSubscriber _

theorem orderly_writeTransaction (subscriberId : String) (status : PurchaseStatus)
    (productId : String) (pending : PendingPlanChange) :
    (writeTransaction ctx subscriberId status productId pending).Stmts Orderly := by
  refine Prog.Stmts.transaction fun startedAt => ?_
  refine (orderly_guardStatusWrite _).bind fun guard => fun now => ?_
  refine (orderly_upsertPurchase _ _ _).bind fun persisted => ?_
  refine Prog.Stmts.bind ?_ fun _ => trivial
  unfold recoverChain
  split_ifs
  · exact orderly_query_bind fun s => Prog.stmts_forEach _ fun key _ => orderly_retireRow key _
  · trivial

theorem orderly_entitle (subscriberId : String) (upserted : UpsertedPurchase) (supersedes : Bool) :
    (entitle ctx subscriberId upserted supersedes).Stmts Orderly := by
  unfold entitle
  split_ifs
  · refine Prog.Stmts.bind ?_ fun _ => orderly_grantAccess _
    unfold supersedeSiblings
    split_ifs
    · refine orderly_query_bind fun s => Prog.stmts_forEach _ fun sibling _ => ?_
      exact Prog.Stmts.bind (Prog.Stmts.transaction fun _ => orderly_retireRow _ _) fun _ =>
        orderly_syncAccess _
    · trivial
  · trivial

theorem orderly_applyTransaction (status : PurchaseStatus) (supersedes : Bool) :
    (applyTransaction ctx status supersedes).Stmts Orderly := by
  refine (orderly_resolveSubscriber ctx).bind fun subscriber => ?_
  refine Prog.Stmts.bind ?_ fun upserted =>
    (orderly_entitle ctx subscriber.1 upserted supersedes).bind fun _ => trivial
  refine orderly_query_bind fun s => ?_
  split
  · trivial
  · exact orderly_query_bind fun s =>
      (orderly_writeTransaction _ _ _ _ _).bind fun _ => trivial

theorem orderly_recordApplePendingChange : (recordApplePendingChange ctx).Stmts Orderly := by
  refine orderly_query_bind fun s => ?_
  split
  · trivial
  · refine orderly_query_bind fun s => ?_
    refine Prog.Stmts.bind (Prog.Stmts.transaction fun _ => ?_) fun _ => trivial
    refine (orderly_lockPurchase _).bind fun locked => ?_
    split
    · trivial
    · split_ifs
      · trivial
      · exact orderly_updatePurchase _ _

theorem orderly_chainOutcome : (chainOutcome ctx).Stmts Orderly := by
  refine orderly_query_bind fun s => ?_
  split <;> trivial

theorem orderly_guardedChainStatusWrite (patch : PurchasePatch) :
    (guardedChainStatusWrite ctx patch).Stmts Orderly :=
  Prog.Stmts.autocommit (orderly_updates fun key => ⟨by rintro ⟨⟩, by rintro s ⟨⟩⟩)

theorem orderly_revokeAccessForTransaction : (revokeAccessForTransaction ctx).Stmts Orderly :=
  Prog.Stmts.autocommit (orderly_of_each
    ((revokeAccessByOriginalTransaction_each _ _).mono fun _ _ h w hw => (h w hw).not_onPurchases))

theorem orderly_applyRenewalStatusChange : (applyRenewalStatusChange ctx).Stmts Orderly :=
  (Prog.Stmts.autocommit (orderly_updates fun key => ⟨fun _ => rfl, by rintro s ⟨⟩⟩)).bind
    fun _ => orderly_chainOutcome ctx

theorem orderly_applyFailedRenewal : (applyFailedRenewal ctx).Stmts Orderly :=
  orderly_query_bind fun _ => (orderly_guardedChainStatusWrite ctx _).bind fun _ => trivial

theorem orderly_purchaseOutcome (purchase : Option Purchase) :
    (purchaseOutcome purchase).Stmts Orderly := by
  refine orderly_query_bind fun s => ?_
  split <;> trivial

theorem orderly_emitCancellationEvent : (emitCancellationEvent ctx).Stmts Orderly :=
  orderly_query_bind fun _ => orderly_purchaseOutcome _

theorem orderly_applyExpired : (applyExpired ctx).Stmts Orderly := by
  refine (orderly_guardedChainStatusWrite ctx _).bind fun updatedCount =>
    (orderly_revokeAccessForTransaction ctx).bind fun _ => ?_
  split_ifs
  · trivial
  · exact orderly_emitCancellationEvent ctx

theorem orderly_applyRevoke : (applyRevoke ctx).Stmts Orderly :=
  (orderly_guardedChainStatusWrite ctx _).bind fun _ =>
    (orderly_revokeAccessForTransaction ctx).bind fun _ => orderly_chainOutcome ctx

theorem orderly_applyRefund : (applyRefund ctx).Stmts Orderly := by
  refine Prog.Stmts.bind ?_ fun _ => orderly_query_bind fun _ => orderly_purchaseOutcome _
  refine orderly_query_bind fun s => ?_
  split
  · trivial
  · refine Prog.Stmts.bind (Prog.Stmts.transaction fun _ => ?_) fun _ =>
      Prog.Stmts.autocommit (orderly_revokeAccessByPurchaseId _)
    refine (orderly_guardStatusWrite _).bind fun guard => ?_
    split_ifs
    · exact orderly_updatePurchase _ _
    · trivial

theorem orderly_applyConsumptionRequest : (applyConsumptionRequest ctx).Stmts Orderly := by
  refine orderly_query_bind fun s => ?_
  split
  · trivial
  · exact orderly_query_bind fun _ => trivial

theorem orderly_dispatch (h : ctx.notification.notificationType ≠ .refundReversed) :
    (dispatch ctx).Stmts Orderly := by
  unfold dispatch
  cases hty : ctx.notification.notificationType with
  | subscribed => exact orderly_applyTransaction ctx _ _
  | didRenew => exact (orderly_applyTransaction ctx _ _).bind fun _ => trivial
  | didChangeRenewalPref =>
    simp only [applyRenewalPrefChange]
    split_ifs
    · exact orderly_applyTransaction ctx _ _
    · exact orderly_recordApplePendingChange ctx
  | didChangeRenewalStatus => exact orderly_applyRenewalStatusChange ctx
  | offerRedeemed =>
    simp only [applyOfferRedeemed]
    split_ifs
    · exact orderly_recordApplePendingChange ctx
    · exact orderly_applyTransaction ctx _ _
  | didFailToRenew => exact orderly_applyFailedRenewal ctx
  | gracePeriodExpired => exact orderly_applyExpired ctx
  | expired => exact orderly_applyExpired ctx
  | refund => exact orderly_applyRefund ctx
  | refundDeclined => trivial
  | refundReversed => exact absurd hty h
  | revoke => exact orderly_applyRevoke ctx
  | consumptionRequest => exact orderly_applyConsumptionRequest ctx
  | other => trivial

end Apple

end Rovenue
