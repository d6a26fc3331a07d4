import Rovenue.Apple.AppleWebhook
import Rovenue.Purchases.StatusPlan

/-! The status plan of each Apple notification, and that its handler follows it. -/

namespace Rovenue.Apple
open Txn

def retireGuard (now : ℤ) (key : PurchaseKey) : GuardStatusWriteArgs where
  key := key
  toStatus := .expired
  eventTime := some now

def retirePlan (now : ℤ) (s : Db) (key : PurchaseKey) : Option StatusWrite :=
  (retireGuard now key).plan (standingAt s key)

section Retire
variable {c c' : Session Db Write String} {u : Unit} {now : ℤ}

theorem retireRow_follows {key : PurchaseKey} (h : (retireRow key now).Returns c u c') :
    Follows (onlyRow key (retirePlan now c.view key)) c c' := by
  simp only [retireRow, Prog.bind_eq, Prog.returns_bind, returns_guardStatusWrite] at h
  obtain ⟨guard, c₁, ⟨rfl, rfl⟩, h⟩ := h
  split_ifs at h with hadmits
  · obtain ⟨-, rfl⟩ := Prog.returns_exec.1 h
    exact @follows_guarded (retireGuard now key) _ _ _ (.inr ⟨rfl, rfl⟩) rfl rfl hadmits
  · obtain ⟨-, rfl⟩ := Prog.returns_done.1 h
    refine (Follows.refl c).congr fun k => ?_
    rw [retirePlan, @withheld_plan (retireGuard now key) _ _ (Bool.eq_false_iff.2 hadmits),
      onlyRow_none]

theorem retireAll_follows {β : Type} {f : β → Service Unit} {keyOf : β → PurchaseKey}
    (hf : ∀ b c (u : Unit) c', (f b).Returns c u c' →
      Follows (onlyRow (keyOf b) (retirePlan now c.view (keyOf b))) c c')
    (bs : List β) (h : (Prog.forEach bs f).Returns c u c') :
    Follows (fun k => if k ∈ bs.map keyOf then retirePlan now c.view k else none) c c' := by
  induction bs generalizing c with
  | nil =>
    obtain ⟨-, rfl⟩ := Prog.returns_done.1 h
    exact (Follows.refl c).congr fun k => by simp
  | cons b bs ih =>
    simp only [Prog.forEach, Prog.returns_bind] at h
    obtain ⟨u', c₁, hb, h⟩ := h
    have hfirst := hf b c u' c₁ hb
    refine (hfirst.andThen (ih h)).congr fun k => ?_
    have hlater : retirePlan now c₁.view k = (retireGuard now k).plan
        (StatusWrite.on (onlyRow (keyOf b) (retirePlan now c.view (keyOf b)) k)
          (standingAt c.view k)) := by rw [retirePlan, hfirst.standing]
    rw [hlater, onlyRow]
    by_cases hk : k = keyOf b
    · subst hk
      by_cases hmem : keyOf b ∈ bs.map keyOf
      · rw [if_pos (by simp), if_pos rfl, if_pos hmem]
        exact (GuardStatusWriteArgs.plan_again _).symm
      · rw [if_pos (by simp), if_pos rfl, if_neg hmem, StatusWrite.andThen_none]
    · simp [hk, StatusWrite.on, retirePlan]

def chainColumns (r : Purchase) : String × String × Option ℤ :=
  (r.projectId, r.originalTransactionId, r.expiresDate)

theorem retireRow_each (key : PurchaseKey) (now : ℤ) :
    (retireRow key now).Each fun _ ws => ∀ w ∈ ws, w.Keeps chainColumns := by
  refine (Prog.each_queryLocked (by simp) _ _).bind fun current => ?_
  split_ifs
  · refine Prog.each_exec fun _ w hw => ?_
    obtain rfl := List.mem_singleton.1 hw
    exact fun r => StatusGuard.patch_congr chainColumns _ fun _ => rfl
  · trivial

end Retire

def recovers (ctx : DispatchContext) (status : PurchaseStatus) (s : Db) (key : PurchaseKey) : Bool :=
  (s.purchases.get? ctx.key).map Purchase.status ≠ some .billingIssue && status.grantsAccess &&
    key ∈ findChainBillingIssuePurchases ctx.projectId ctx.originalTransactionId ctx.key s

def replaces (ctx : DispatchContext) (s : Db) (key : PurchaseKey) : Bool :=
  key ∈ (findSupersedableApplePurchases ctx.projectId ctx.originalTransactionId ctx.key
    ctx.appleNotificationEventTime s).map Prod.fst

def retires (ctx : DispatchContext) (status : PurchaseStatus) (supersedes : Bool) (s : Db)
    (key : PurchaseKey) : Bool :=
  (upsertGuard ctx status).admits (s.purchases.get? ctx.key) &&
    (recovers ctx status s key || supersedes && replaces ctx s key)

def transactionPlan (ctx : DispatchContext) (status : PurchaseStatus) (supersedes : Bool) (s : Db)
    (key : PurchaseKey) : Option StatusWrite :=
  if key = ctx.key then (upsertGuard ctx status).upsertPlan (standingAt s key)
  else if retires ctx status supersedes s key then
    retirePlan ctx.appleNotificationEventTime s key
  else none

section Transaction
variable {ctx : DispatchContext} {c c' : Session Db Write String}

theorem not_replaces_self (s : Db) : replaces ctx s ctx.key = false := by
  simp [replaces, findSupersedableApplePurchases, mem_purchasesWhere_keys]

theorem upsert_get?_of_ne {key k : PurchaseKey} (hk : k ≠ key) (create : Purchase)
    (update : PurchasePatch) (s : Db) :
    (applyAll s (upsertWrites key create update s)).purchases.get? k = s.purchases.get? k := by
  unfold upsertWrites
  cases s.purchases.get? key <;>
    rw [applyAll_cons, applyAll_nil, apply_eq, write_purchaseAt, Write.purchaseAt, if_neg hk]

theorem recoverChain_follows {status : PurchaseStatus} {guard : GuardStatusWriteResult} {u : Unit}
    (h : (recoverChain ctx status guard).Returns c u c') :
    Follows (fun k => if guard.fromStatus ≠ some .billingIssue ∧ guard.apply ∧
        status.grantsAccess ∧ k ∈ findChainBillingIssuePurchases ctx.projectId
          ctx.originalTransactionId ctx.key c.view then
        retirePlan ctx.appleNotificationEventTime c.view k else none) c c' := by
  unfold recoverChain at h
  split_ifs at h with hcond
  · simp only [retireChainBillingIssue, Prog.bind_eq, Prog.returns_bind, Prog.returns_query] at h
    obtain ⟨stale, c₁, ⟨rfl, rfl⟩, h⟩ := h
    refine (retireAll_follows (fun key c u c' h => retireRow_follows h) _ h).congr fun k => ?_
    simp [hcond]
  · obtain ⟨-, rfl⟩ := Prog.returns_done.1 h
    refine (Follows.refl c).congr fun k => if_neg fun hk => hcond ⟨hk.1, hk.2.1, hk.2.2.1⟩

theorem recoverChain_each (ctx : DispatchContext) (status : PurchaseStatus)
    (guard : GuardStatusWriteResult) :
    (recoverChain ctx status guard).Each fun _ ws => ∀ w ∈ ws, w.Keeps chainColumns := by
  unfold recoverChain
  split_ifs
  · exact (Prog.each_query (by simp) _).bind fun stale =>
      Prog.each_forEach _ fun key _ => retireRow_each key _
  · trivial

theorem TransactionWrite.update_status (w : TransactionWrite) (guard : GuardStatusWriteResult) :
    (w.update guard).status = if guard.apply then some w.status else none := by
  unfold TransactionWrite.update
  split_ifs <;> rfl

theorem TransactionWrite.update_event (w : TransactionWrite) (guard : GuardStatusWriteResult) :
    (w.update guard).lastStoreEventAt =
      if guard.apply then some (some w.ctx.appleNotificationEventTime) else none := by
  unfold TransactionWrite.update
  split_ifs <;> rfl

theorem writeTransaction_follows {subscriberId productId : String} {status : PurchaseStatus}
    {pending : PendingPlanChange} {r : Purchase × Bool}
    (h : (writeTransaction ctx subscriberId status productId pending).Returns c r c') :
    Follows (transactionPlan ctx status false c.view) c c' ∧
      r.2 = (upsertGuard ctx status).admits (c.view.purchases.get? ctx.key) ∧
      ∀ k, k ≠ ctx.key → (c'.view.purchases.get? k).map chainColumns =
        (c.view.purchases.get? k).map chainColumns := by
  simp only [writeTransaction, Prog.returns_transaction, Prog.bind_eq, Prog.returns_bind,
    returns_guardStatusWrite, Prog.returns_now, Rovenue.upsertPurchase, Prog.returns_fresh,
    Prog.returns_exec, Prog.pure_eq, Prog.returns_done] at h
  obtain ⟨guard, c₁, ⟨rfl, rfl⟩, now, c₂, ⟨rfl, rfl⟩, persisted, c₃, ⟨id, c₄, ⟨rfl, rfl⟩, rfl, hwrite⟩,
    u, c₅, hrecover, rfl, rfl⟩ := h
  have hother : ∀ k, k ≠ ctx.key → c₃.view.purchases.get? k = c.view.purchases.get? k :=
    fun k hk => by
      rw [← hwrite]
      exact upsert_get?_of_ne hk _ _ _
  refine ⟨?_, rfl, fun k hk => ?_⟩
  swap
  · rw [get?_of_keeps (recoverChain_each ctx status _) hrecover, hother k hk]
  let w : TransactionWrite := ⟨ctx, subscriberId, status, productId, pending, c.clock 1⟩
  have hupsert : Follows (onlyRow ctx.key
      ((upsertGuard ctx status).upsertPlan (standingAt c.view ctx.key))) c c₃ := by
    subst hwrite
    refine Follows.start (d := c.tick.tick.drawn) ?_ rfl rfl
    refine @follows_upsert (upsertGuard ctx status) _ c.tick.tick.drawn
      { w.create (c.clock 0) with id := c.ids 0 } rfl rfl (w.update_status _) (w.update_event _)
  refine (hupsert.andThen (recoverChain_follows hrecover)).congr fun k => ?_
  rw [transactionPlan, onlyRow]
  by_cases hk : k = ctx.key
  · rw [if_pos hk, if_pos hk, if_neg, StatusWrite.andThen_none, hk]
    rintro ⟨-, -, -, hmem⟩
    simp [findChainBillingIssuePurchases, mem_purchasesWhere_keys, hk] at hmem
  · have hsame := hother k hk
    have hstale : k ∈ findChainBillingIssuePurchases ctx.projectId ctx.originalTransactionId
        ctx.key c₃.view ↔ k ∈ findChainBillingIssuePurchases ctx.projectId
          ctx.originalTransactionId ctx.key c.view := by
      simp only [findChainBillingIssuePurchases, mem_purchasesWhere_keys, hsame]
    have hplan : retirePlan ctx.appleNotificationEventTime c₃.view k =
        retirePlan ctx.appleNotificationEventTime c.view k := by
      rw [retirePlan, retirePlan, standingAt, hsame, standingAt]
    rw [if_neg hk, if_neg hk, StatusWrite.none_andThen, hplan]
    refine if_congr ?_ rfl rfl
    simp only [retires, recovers, Bool.false_and, Bool.or_false, Bool.and_eq_true,
      decide_eq_true_eq, hstale, GuardStatusWriteArgs.result, upsertGuard, Session.tick_view]
    tauto

theorem supersedeRow_follows {key : PurchaseKey} {now : ℤ} {subscriberId : String} {u : Unit}
    (h : ((Prog.transaction fun _ => retireRow key now).bind fun _ =>
      syncAccess subscriberId).Returns c u c') :
    Follows (onlyRow key (retirePlan now c.view key)) c c' := by
  obtain ⟨u', c₁, hretire, hsync⟩ := Prog.returns_bind.1 h
  have hretire : (retireRow key now).Returns c.tick u' c₁ := Prog.returns_transaction.1 hretire
  have hrow : Follows (onlyRow key (retirePlan now c.view key)) c c₁ :=
    (retireRow_follows hretire).start rfl rfl
  have hrest := follows_of_each ((syncAccess_each subscriberId).mono
    fun _ _ hws w hw => (hws w hw).not_onPurchases) hsync
  exact (hrow.andThen hrest).congr fun k => by rw [StatusWrite.andThen_none]

theorem supersedeSiblings_follows {supersedes : Bool} {u : Unit}
    (h : (supersedeSiblings ctx supersedes).Returns c u c') :
    Follows (fun k => if supersedes && replaces ctx c.view k then
      retirePlan ctx.appleNotificationEventTime c.view k else none) c c' := by
  unfold supersedeSiblings at h
  split_ifs at h with hsup
  · simp only [expireSupersededApplePurchases, Prog.bind_eq, Prog.returns_bind,
      Prog.returns_query] at h
    obtain ⟨siblings, c₁, ⟨rfl, rfl⟩, h⟩ := h
    have hall := @retireAll_follows _ _ _ ctx.appleNotificationEventTime _ _ Prod.fst
      (fun sibling c u c' h => supersedeRow_follows h) _ h
    refine hall.congr fun k => ?_
    rw [hsup, Bool.true_and, replaces]
    simp only [decide_eq_true_eq]
  · obtain ⟨-, rfl⟩ := Prog.returns_done.1 h
    exact (Follows.refl c).congr fun k => by simp [hsup]

theorem replaces_congr {s s' : Db} {k : PurchaseKey} {plan : Option StatusWrite}
    (hcolumns : (s'.purchases.get? k).map chainColumns = (s.purchases.get? k).map chainColumns)
    (hstanding : standingAt s' k = StatusWrite.on plan (standingAt s k))
    (hplan : plan = none ∨ plan = retirePlan ctx.appleNotificationEventTime s k) :
    replaces ctx s' k = replaces ctx s k := by
  rw [Bool.eq_iff_iff]
  simp only [replaces, findSupersedableApplePurchases, decide_eq_true_eq, mem_purchasesWhere_keys]
  cases hr : s.purchases.get? k with
  | none =>
    rw [hr, Option.map_none, Option.map_eq_none_iff] at hcolumns
    simp [hcolumns]
  | some r =>
    rw [hr, Option.map_some, Option.map_eq_some_iff] at hcolumns
    obtain ⟨r', hr', hcols⟩ := hcolumns
    have hstatus : r'.status ∈ terminalStatuses ↔ r.status ∈ terminalStatuses := by
      rw [standingAt, hr', standingAt, hr, Option.map_some, Option.map_some] at hstanding
      obtain rfl | rfl := hplan
      · have hsame : r'.status = r.status := congrArg Prod.fst (Option.some.inj hstanding)
        rw [hsame]
      · rw [retirePlan, standingAt, hr, Option.map_some, GuardStatusWriteArgs.plan_some] at hstanding
        split_ifs at hstanding with hadmits
        · have hexpired : r'.status = .expired := congrArg Prod.fst (Option.some.inj hstanding)
          have hedge : validateTransition r.status .expired = true := by
            simpa [retireGuard] using admits_status hadmits
          rw [hexpired]
          revert hedge
          cases r.status <;> decide
        · have hsame : r'.status = r.status := congrArg Prod.fst (Option.some.inj hstanding)
          rw [hsame]
    simp only [chainColumns, Prod.mk.injEq] at hcols
    simp [hr', hstatus, inChain, hcols]

theorem resolveSubscriber_each (ctx : DispatchContext) :
    (resolveSubscriber ctx).Each fun _ ws => ∀ w ∈ ws, ¬w.OnPurchases := by
  have hnil : ∀ _ : Db, ∀ w ∈ ([] : List Write), ¬w.OnPurchases := by simp
  refine (Prog.each_query hnil _).bind fun byToken => ?_
  cases byToken with
  | some row => trivial
  | none =>
    refine (Prog.each_query hnil _).bind fun existing => (Prog.each_query hnil _).bind fun sub => ?_
    cases sub with
    | some row => trivial
    | none => exact upsertSubscriber_each _

theorem transactionPlan_congr {s s' : Db} (h : s'.purchases = s.purchases)
    {status : PurchaseStatus} {supersedes : Bool} {k : PurchaseKey} :
    transactionPlan ctx status supersedes s' k = transactionPlan ctx status supersedes s k := by
  cases s
  cases s'
  subst h
  rfl

theorem entitle_follows {subscriberId : String} {upserted : UpsertedPurchase} {supersedes : Bool}
    {u : Unit} (h : (entitle ctx subscriberId upserted supersedes).Returns c u c') :
    Follows (fun k => if upserted.statusApplied && supersedes && replaces ctx c.view k then
      retirePlan ctx.appleNotificationEventTime c.view k else none) c c' := by
  unfold entitle at h
  split_ifs at h with happlied
  · obtain ⟨u', c₁, hsup, hgrant⟩ := Prog.returns_bind.1 h
    refine ((supersedeSiblings_follows hsup).andThen (follows_of_each ?_ hgrant)).congr fun k => ?_
    · exact (grantAccess_each _).mono fun _ _ hws w hw => (hws w hw).not_onPurchases
    · rw [StatusWrite.andThen_none, happlied, Bool.true_and]
  · obtain ⟨-, rfl⟩ := Prog.returns_done.1 h
    exact (Follows.refl c).congr fun k => by simp [happlied]

theorem applyTransaction_follows {status : PurchaseStatus} {supersedes : Bool}
    {outcome : DispatchOutcome}
    (h : (applyTransaction ctx status supersedes).Returns c outcome c') :
    Follows (transactionPlan ctx status supersedes c.view) c c' := by
  simp only [applyTransaction, upsertPurchase, Prog.bind_eq, Prog.returns_bind,
    Prog.returns_query] at h
  obtain ⟨subscriber, c₀, hres, upserted, c₂, ⟨product, c₁, ⟨hproduct, rfl⟩, hwrite⟩, u, c₃, hent,
    hdone⟩ := h
  obtain ⟨-, rfl⟩ := Prog.returns_done.1 hdone
  cases product with
  | none => exact (Prog.returns_fail hwrite).elim
  | some product =>
    simp only [Prog.returns_bind, Prog.returns_query] at hwrite
    obtain ⟨announced, c₁, ⟨-, rfl⟩, written, c₄, hwrite, hdone⟩ := hwrite
    obtain ⟨rfl, rfl⟩ := Prog.returns_done.1 hdone
    have hpurchases := (keeps_purchases_of_each (resolveSubscriber_each ctx) hres).1
    obtain ⟨hfollows, happlied, hcolumns⟩ := writeTransaction_follows hwrite
    have hnone := follows_of_each (resolveSubscriber_each ctx) hres
    have hent := entitle_follows hent
    refine ((hnone.andThen hfollows).andThen hent).congr fun k => ?_
    rw [StatusWrite.none_andThen, ← transactionPlan_congr hpurchases]
    by_cases hk : k = ctx.key
    · subst hk
      simp [transactionPlan, not_replaces_self]
    · have hplan : transactionPlan ctx status false c₀.view k = none ∨
          transactionPlan ctx status false c₀.view k =
            retirePlan ctx.appleNotificationEventTime c₀.view k := by
        rw [transactionPlan, if_neg hk]
        split_ifs
        · exact .inr rfl
        · exact .inl rfl
      have hlater : retirePlan ctx.appleNotificationEventTime c₄.view k =
          (retireGuard ctx.appleNotificationEventTime k).plan (StatusWrite.on
            (transactionPlan ctx status false c₀.view k) (standingAt c₀.view k)) := by
        rw [retirePlan, hfollows.standing]
      rw [replaces_congr (hcolumns k hk) (hfollows.standing k) hplan, hlater, happlied]
      simp only [transactionPlan, if_neg hk, retires, Bool.false_and, Bool.or_false]
      by_cases hadmits : (upsertGuard ctx status).admits (c₀.view.purchases.get? ctx.key) = true
      · by_cases hrecovers : recovers ctx status c₀.view k = true <;>
          by_cases hreplaces : (supersedes && replaces ctx c₀.view k) = true
        · simp only [hadmits, hrecovers, hreplaces, Bool.true_and, Bool.true_or, if_true]
          exact (GuardStatusWriteArgs.plan_again _).symm
        · simp [hadmits, hrecovers, hreplaces]
        · simp [hadmits, hrecovers, hreplaces, StatusWrite.on, retirePlan]
        · simp [hadmits, hrecovers, hreplaces]
      · simp [hadmits]

end Transaction

def chainPlan (ctx : DispatchContext) (status : PurchaseStatus) (s : Db) (key : PurchaseKey) :
    Option StatusWrite :=
  if key ∈ openChainKeys ctx.projectId ctx.originalTransactionId s then some ⟨status, none⟩
  else none

def foundPlan (ctx : DispatchContext) (args : GuardStatusWriteArgs) (s : Db) (key : PurchaseKey) :
    Option StatusWrite :=
  onlyRow args.key (if (findPurchaseByStoreTransaction ctx.projectId ctx.key s).isSome then
    args.plan (standingAt s args.key) else none) key

def notificationPlan (ctx : DispatchContext) (now : ℤ) (s : Db) (key : PurchaseKey) :
    Option StatusWrite :=
  match ctx.notification.notificationType with
  | .subscribed => transactionPlan ctx (trialOrActive ctx) false s key
  | .didRenew => transactionPlan ctx .active false s key
  | .didChangeRenewalPref =>
    if ctx.notification.subtype = some .upgrade then transactionPlan ctx .active true s key
    else none
  | .offerRedeemed =>
    if ctx.notification.subtype = some .downgrade then none
    else transactionPlan ctx (trialOrActive ctx) (ctx.notification.subtype = some .upgrade) s key
  | .didFailToRenew => chainPlan ctx (failedRenewalStatus ctx) s key
  | .gracePeriodExpired => chainPlan ctx .expired s key
  | .expired => chainPlan ctx .expired s key
  | .refund => foundPlan ctx (refundGuard ctx) s key
  | .refundReversed => foundPlan ctx (reversalGuard ctx now) s key
  | .revoke => chainPlan ctx .revoked s key
  | .didChangeRenewalStatus | .refundDeclined | .consumptionRequest | .other => none

section Notification
variable {ctx : DispatchContext} {c c' : Session Db Write String} {outcome : DispatchOutcome}

theorem guardedChainStatusWrite_follows {patch : PurchasePatch} {status : PurchaseStatus} {n : ℕ}
    (hs : patch.status = some status) (ht : patch.lastStoreEventAt = none)
    (h : (guardedChainStatusWrite ctx patch).Returns c n c') :
    Follows (chainPlan ctx status c.view) c c' := by
  obtain ⟨-, rfl⟩ := Prog.returns_exec.1 (Prog.returns_autocommit.1 h)
  exact follows_chain _ _ hs ht

theorem chainOutcome_each (ctx : DispatchContext) :
    (chainOutcome ctx).Each fun _ ws => ∀ w ∈ ws, ¬w.OnPurchases :=
  (Prog.each_query (by simp) _).bind fun purchase => by cases purchase <;> trivial

theorem purchaseOutcome_each (purchase : Option Purchase) :
    (purchaseOutcome purchase).Each fun _ ws => ∀ w ∈ ws, ¬w.OnPurchases :=
  (Prog.each_query (by simp) _).bind fun subscriber => by
    cases purchase <;> cases subscriber <;> trivial

theorem cancellation_each (n : ℕ) :
    (if n = 0 then pure {} else emitCancellationEvent ctx : Service DispatchOutcome).Each
      fun _ ws => ∀ w ∈ ws, ¬w.OnPurchases := by
  split_ifs
  · trivial
  · exact (Prog.each_query (by simp) _).bind fun purchase => purchaseOutcome_each _

theorem recordApplePendingChange_follows
    (h : (recordApplePendingChange ctx).Returns c outcome c') :
    Follows (fun _ => none) c c' := by
  simp only [recordApplePendingChange, Prog.bind_eq, Prog.returns_bind, Prog.returns_query] at h
  obtain ⟨current, c₁, ⟨-, rfl⟩, h⟩ := h
  cases current with
  | none => obtain ⟨-, rfl⟩ := Prog.returns_done.1 h; exact .refl _
  | some current =>
    simp only [Prog.returns_bind, Prog.returns_query, Prog.returns_transaction,
      lockPurchaseStatusByStoreTransaction, Prog.returns_queryLocked] at h
    obtain ⟨announced, c₂, ⟨-, rfl⟩, u, c₃, ⟨locked, c₄, ⟨-, rfl⟩, hwrite⟩, hdone⟩ := h
    obtain ⟨-, rfl⟩ := Prog.returns_done.1 hdone
    refine Follows.start (d := c.tick) ?_ rfl rfl
    cases locked with
    | none => obtain ⟨-, rfl⟩ := Prog.returns_done.1 hwrite; exact .refl _
    | some locked =>
      dsimp only at hwrite
      split_ifs at hwrite
      · obtain ⟨-, rfl⟩ := Prog.returns_done.1 hwrite
        exact .refl _
      · obtain ⟨-, rfl⟩ := Prog.returns_exec.1 hwrite
        exact follows_silent _ _ rfl rfl

theorem applyRenewalStatusChange_follows
    (h : (applyRenewalStatusChange ctx).Returns c outcome c') :
    Follows (fun _ => none) c c' := by
  obtain ⟨u, c₁, hwrite, hrest⟩ := Prog.returns_bind.1 h
  obtain ⟨-, rfl⟩ := Prog.returns_exec.1 (Prog.returns_autocommit.1 hwrite)
  exact (follows_silent_all _ _ rfl rfl).andThen (follows_of_each (chainOutcome_each ctx) hrest)

theorem applyFailedRenewal_follows (h : (applyFailedRenewal ctx).Returns c outcome c') :
    Follows (chainPlan ctx (failedRenewalStatus ctx) c.view) c c' := by
  simp only [applyFailedRenewal, Prog.bind_eq, Prog.returns_bind, Prog.returns_query] at h
  obtain ⟨current, c₁, ⟨-, rfl⟩, n, c₂, hwrite, hdone⟩ := h
  obtain ⟨-, rfl⟩ := Prog.returns_done.1 hdone
  exact guardedChainStatusWrite_follows rfl rfl hwrite

theorem chainWrite_follows {status : PurchaseStatus} {rest : ℕ → Service DispatchOutcome}
    (hrest : ∀ n, (rest n).Each fun _ ws => ∀ w ∈ ws, ¬w.OnPurchases)
    (h : ((guardedChainStatusWrite ctx { status := some status }).bind fun n =>
      (revokeAccessForTransaction ctx).bind fun _ => rest n).Returns c outcome c') :
    Follows (chainPlan ctx status c.view) c c' := by
  obtain ⟨n, c₁, hwrite, h⟩ := Prog.returns_bind.1 h
  obtain ⟨u, c₂, hrevoke, h⟩ := Prog.returns_bind.1 h
  have hchain := guardedChainStatusWrite_follows rfl rfl hwrite
  have haccess := follows_of_each ((revokeAccessByOriginalTransaction_each ctx.projectId
    ctx.originalTransactionId).autocommit.mono fun _ _ hws w hw => (hws w hw).not_onPurchases) hrevoke
  exact ((hchain.andThen haccess).andThen (follows_of_each (hrest n) h)).congr fun k => by simp

theorem applyExpired_follows (h : (applyExpired ctx).Returns c outcome c') :
    Follows (chainPlan ctx .expired c.view) c c' := chainWrite_follows cancellation_each h

theorem refundRow_follows {u : Unit} (h : (refundRow ctx).Returns c u c') :
    Follows (foundPlan ctx (refundGuard ctx) c.view) c c' := by
  simp only [refundRow, Prog.bind_eq, Prog.returns_bind, Prog.returns_query] at h
  obtain ⟨found, c₁, ⟨hfound, rfl⟩, h⟩ := h
  cases found with
  | none =>
    obtain ⟨-, rfl⟩ := Prog.returns_done.1 h
    refine (Follows.refl _).congr fun k => ?_
    rw [foundPlan, hfound]
    exact onlyRow_none _ _
  | some found =>
    simp only [Prog.returns_bind, Prog.returns_transaction, returns_guardStatusWrite] at h
    obtain ⟨u', c₂, ⟨guard, c₃, ⟨rfl, rfl⟩, hwrite⟩, hrevoke⟩ := h
    have haccess := follows_of_each ((revokeAccessByPurchaseId_each found.id).autocommit.mono
      fun _ _ hws w hw => (hws w hw).not_onPurchases) hrevoke
    have hrow : Follows (onlyRow ctx.key ((refundGuard ctx).plan (standingAt c.view ctx.key)))
        c c₂ := by
      refine Follows.start (d := c.tick) ?_ rfl rfl
      split_ifs at hwrite with hadmits
      · obtain ⟨-, rfl⟩ := Prog.returns_exec.1 hwrite
        exact @follows_guarded (refundGuard ctx) _ c.tick _ (.inr ⟨rfl, rfl⟩) rfl rfl hadmits
      · obtain ⟨-, rfl⟩ := Prog.returns_done.1 hwrite
        refine (Follows.refl c.tick).congr fun k => ?_
        have hnone := @withheld_plan (refundGuard ctx) c.view ctx.key (Bool.eq_false_iff.2 hadmits)
        rw [hnone, onlyRow_none]
    refine (hrow.andThen haccess).congr fun k => ?_
    rw [StatusWrite.andThen_none, foundPlan, hfound]
    rfl

theorem applyRefundReversed_follows (h : (applyRefundReversed ctx).Returns c outcome c') :
    Follows (foundPlan ctx (reversalGuard ctx (c.clock 0)) c.view) c c' := by
  simp only [applyRefundReversed, Prog.bind_eq, Prog.returns_bind, Prog.returns_query] at h
  obtain ⟨found, c₁, ⟨hfound, rfl⟩, h⟩ := h
  cases found with
  | none =>
    obtain ⟨-, rfl⟩ := Prog.returns_done.1 h
    refine (Follows.refl _).congr fun k => ?_
    rw [foundPlan, hfound]
    exact onlyRow_none _ _
  | some found =>
    simp only [Prog.returns_bind, Prog.returns_now, Prog.returns_transaction,
      returns_guardStatusWrite] at h
    obtain ⟨now, c₂, ⟨rfl, rfl⟩, u', c₃, ⟨guard, c₄, ⟨rfl, rfl⟩, hwrite⟩, hrest⟩ := h
    have hnone := follows_of_each (purchaseOutcome_each _) hrest
    have hrow : Follows (onlyRow ctx.key ((reversalGuard ctx (c.clock 0)).plan
        (standingAt c.view ctx.key))) c c₃ := by
      refine Follows.start (d := c.tick.tick) ?_ rfl rfl
      obtain ⟨-, rfl⟩ := Prog.returns_exec.1 hwrite
      by_cases hadmits : (reversalGuard ctx (c.clock 0)).admits
          (c.view.purchases.get? ctx.key) = true
      · refine @follows_guarded (reversalGuard ctx (c.clock 0)) _ c.tick.tick _ (.inl rfl) ?_ ?_
          hadmits
        · exact congrArg PurchasePatch.status (if_pos hadmits)
        · exact congrArg PurchasePatch.lastStoreEventAt (if_pos hadmits)
      · refine (follows_silent _ _ ?_ ?_).congr fun k => ?_
        · exact congrArg PurchasePatch.status (if_neg hadmits)
        · exact congrArg PurchasePatch.lastStoreEventAt (if_neg hadmits)
        · have hnone := @withheld_plan (reversalGuard ctx (c.clock 0)) c.view ctx.key
            (Bool.eq_false_iff.2 hadmits)
          rw [hnone, onlyRow_none]
    refine (hrow.andThen hnone).congr fun k => ?_
    rw [StatusWrite.andThen_none, foundPlan, hfound]
    rfl

theorem dispatch_follows (h : (dispatch ctx).Returns c outcome c') :
    Follows (notificationPlan ctx (c.clock 0) c.view) c c' := by
  unfold dispatch at h
  unfold notificationPlan
  cases htype : ctx.notification.notificationType <;> simp only [htype] at h ⊢
  case subscribed => exact applyTransaction_follows h
  case didRenew =>
    simp only [applyRenewal, Prog.bind_eq, Prog.returns_bind] at h
    obtain ⟨outcome', c₁, h, hdone⟩ := h
    obtain ⟨-, rfl⟩ := Prog.returns_done.1 hdone
    exact applyTransaction_follows h
  case didChangeRenewalPref =>
    unfold applyRenewalPrefChange at h
    split_ifs at h ⊢
    · exact applyTransaction_follows h
    · exact recordApplePendingChange_follows h
  case offerRedeemed =>
    unfold applyOfferRedeemed at h
    split_ifs at h ⊢
    · exact recordApplePendingChange_follows h
    · exact applyTransaction_follows h
  case didChangeRenewalStatus => exact applyRenewalStatusChange_follows h
  case didFailToRenew => exact applyFailedRenewal_follows h
  case gracePeriodExpired => exact applyExpired_follows h
  case expired => exact applyExpired_follows h
  case revoke => exact chainWrite_follows (fun _ => chainOutcome_each ctx) h
  case refund =>
    obtain ⟨u, c₁, hrow, hrest⟩ := Prog.returns_bind.1 h
    refine ((refundRow_follows hrow).andThen (follows_of_each ?_ hrest)).congr fun k => by simp
    exact (Prog.each_query (by simp) _).bind fun _ => purchaseOutcome_each _
  case refundReversed => exact applyRefundReversed_follows h
  case consumptionRequest =>
    refine follows_of_each ((Prog.each_query (by simp) _).bind fun byToken => ?_) h
    cases byToken with
    | some row => trivial
    | none => exact (Prog.each_query (by simp) _).bind fun _ => trivial
  all_goals
    obtain ⟨-, rfl⟩ := Prog.returns_done.1 h
    exact .refl _

theorem handleAppleNotification_follows {u : Unit}
    (h : (handleAppleNotification ctx).Returns c u c') :
    Follows (notificationPlan ctx (c.clock 0) c.view) c c' := by
  obtain ⟨outcome, c₁, hdispatch, hpost⟩ := Prog.returns_bind.1 h
  exact ((dispatch_follows hdispatch).andThen (follows_of_each (postProcess_each _) hpost)).congr
    fun k => by simp

end Notification
end Rovenue.Apple
