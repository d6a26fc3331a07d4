import Rovenue.Apple.ChainOrder
import Rovenue.Workers.SweepPlan

/-! When a row fell into `BILLING_ISSUE`. A failed renewal writes every open row of the chain and
takes the stamp from its newest: a row that differs from the newest gets the wrong clock. -/

namespace Rovenue
open Txn

def Held (s : Db) (key : PurchaseKey) : Bool :=
  (s.purchases.get? key).any fun r => r.status = .billingIssue

/-- Each held row has a stamp, and it is the time it was last entered. -/
def Clocked (entered : PurchaseKey → Option ℤ) (s : Db) : Prop :=
  ∀ key r, s.purchases.get? key = some r → r.status = .billingIssue →
    ∃ e, entered key = some e ∧ r.billingIssueDetectedAt = some e

def heldSince (e : ℤ) (s : Db) : List PurchaseRecord :=
  -- the held rows stamped no later than `e`, itself among them
  purchasesWhere (fun x => x.2.status = .billingIssue && x.2.billingIssueDetectedAt.any (· ≤ e)) s

def AgedOnTime (entered : PurchaseKey → Option ℤ) (s : Db) : Prop :=
  -- the ageing query returns no held row before its sixty days are over, and each one after, once
  -- it is among the first `limit` of its query
  ∀ key r e, s.purchases.get? key = some r → r.status = .billingIssue → entered key = some e →
    ∀ now limit,
      ((key, r) ∈ findAgedBillingIssuePurchases (now - billingIssueMaxAge) limit s →
        e + billingIssueMaxAge < now) ∧
      (e + billingIssueMaxAge < now → (heldSince e s).length ≤ limit →
        (key, r) ∈ findAgedBillingIssuePurchases (now - billingIssueMaxAge) limit s)

section Aged
variable {α : Type} {key : α → ℤ} {l : List α} {x : α} {limit : ℕ}

theorem mem_take_insertionSort (hx : x ∈ l)
    (hfew : (l.filter fun y => key y ≤ key x).length ≤ limit) :
    x ∈ (l.insertionSort fun a b => key a ≤ key b).take limit := by
  have hsorted : (l.insertionSort fun a b => key a ≤ key b).Pairwise fun a b => key a ≤ key b := by
    have htotal : Std.Total fun a b : α => key a ≤ key b := ⟨fun a b => le_total _ _⟩
    have htrans : IsTrans α fun a b => key a ≤ key b := ⟨fun a b c hab hbc => hab.trans hbc⟩
    exact List.pairwise_insertionSort _ l
  have hperm := List.perm_insertionSort (fun a b => key a ≤ key b) l
  obtain ⟨before, after, hsplit⟩ := List.append_of_mem (hperm.mem_iff.2 hx)
  rw [hsplit] at hsorted hperm ⊢
  have hbefore : ∀ y ∈ before, key y ≤ key x := fun y hy =>
    (List.pairwise_append.1 hsorted).2.2 y hy x (List.mem_cons_self ..)
  have hcount : before.length + 1 ≤ limit := by
    have hlength := (hperm.filter fun y => key y ≤ key x).length_eq
    have hall : before.filter (fun y => key y ≤ key x) = before :=
      List.filter_eq_self.2 fun y hy => decide_eq_true (hbefore y hy)
    rw [List.filter_append, hall, List.filter_cons_of_pos (by simp), List.length_append,
      List.length_cons] at hlength
    omega
  rw [List.take_append]
  refine List.mem_append_right _ ?_
  obtain ⟨n, hn⟩ : ∃ n, limit - before.length = n + 1 := ⟨limit - before.length - 1, by omega⟩
  rw [hn, List.take_succ_cons]
  exact List.mem_cons_self ..

theorem agedOnTime_of_clocked {entered : PurchaseKey → Option ℤ} {s : Db}
    (h : Clocked entered s) : AgedOnTime entered s := by
  intro key r e hget hheld hentered now limit
  obtain ⟨e', hentered', hstamp⟩ := h key r hget hheld
  obtain rfl : e = e' := Option.some.inj (hentered.symm.trans hentered')
  constructor
  · intro hmem
    have hwhere := (mem_candidates hmem).2
    simp only [hstamp, Option.any_some, Bool.and_eq_true, decide_eq_true_eq] at hwhere
    omega
  · intro hdue hfew
    refine mem_take_insertionSort ?_ ?_
    · refine List.mem_filter.2 ⟨s.purchases.mem_entries.2 hget, ?_⟩
      have hcutoff : e < now - billingIssueMaxAge := by omega
      simp [hheld, hstamp, hcutoff]
    · refine le_trans (List.Sublist.length_le ?_) hfew
      rw [purchasesWhere, List.filter_filter, heldSince, purchasesWhere]
      refine List.monotone_filter_right _ fun x hx => ?_
      simp only [hstamp, Option.getD_some, Bool.and_eq_true, decide_eq_true_eq] at hx ⊢
      obtain ⟨hle, hstatus, hany⟩ := hx
      cases hx' : x.2.billingIssueDetectedAt with
      | none => simp [hx'] at hany
      | some d =>
        rw [hx', Option.getD_some] at hle
        exact ⟨hstatus, by simpa using hle⟩

end Aged

def Write.Releases : Write → Prop
  -- the write moves no row into `BILLING_ISSUE`, and stamps no row it leaves there
  | .insertPurchase _ row => row.status ≠ .billingIssue
  | .updatePurchase _ _ set =>
    set.status ≠ some .billingIssue ∧ (set.billingIssueDetectedAt = none ∨ set.status ≠ none)
  | _ => True

theorem Write.Releases.of_not_onPurchases {w : Write} (h : ¬w.OnPurchases) : w.Releases := by
  cases w <;> first | trivial | exact absurd trivial h

def KeepsHeld (s s' : Db) : Prop :=
  ∀ key r', s'.purchases.get? key = some r' → r'.status = .billingIssue →
    ∃ r, s.purchases.get? key = some r ∧ r.status = .billingIssue ∧
      r.billingIssueDetectedAt = r'.billingIssueDetectedAt

theorem KeepsHeld.refl (s : Db) : KeepsHeld s s := fun _ r' hget hheld => ⟨r', hget, hheld, rfl⟩

theorem KeepsHeld.trans {s s₁ s₂ : Db} (h : KeepsHeld s s₁) (h' : KeepsHeld s₁ s₂) :
    KeepsHeld s s₂ := by
  intro key r₂ hget hheld
  obtain ⟨r₁, hget₁, hheld₁, hstamp₁⟩ := h' key r₂ hget hheld
  obtain ⟨r, hget₀, hheld₀, hstamp₀⟩ := h key r₁ hget₁ hheld₁
  exact ⟨r, hget₀, hheld₀, hstamp₀.trans hstamp₁⟩

theorem PurchasePatch.apply_releases {set : PurchasePatch} {r : Purchase}
    (h : set.status ≠ some .billingIssue ∧ (set.billingIssueDetectedAt = none ∨ set.status ≠ none))
    (hheld : (set.apply r).status = .billingIssue) :
    r.status = .billingIssue ∧
      (set.apply r).billingIssueDetectedAt = r.billingIssueDetectedAt := by
  obtain ⟨hstatus, hstamp⟩ := h
  rw [PurchasePatch.apply_status] at hheld
  cases hs : set.status with
  | some status =>
    rw [hs, Option.getD_some] at hheld
    exact absurd (hheld ▸ hs) hstatus
  | none =>
    rw [hs, Option.getD_none] at hheld
    have hnone : set.billingIssueDetectedAt = none := hstamp.resolve_right fun hne => hne hs
    refine ⟨hheld, ?_⟩
    rw [PurchasePatch.apply, hnone, Option.getD_none]

theorem StatusGuard.patch_releases {guard : StatusGuard} {set : PurchasePatch} {r : Purchase}
    (h : set.status ≠ some .billingIssue ∧ (set.billingIssueDetectedAt = none ∨ set.status ≠ none))
    (hheld : (guard.patch set r).status = .billingIssue) :
    r.status = .billingIssue ∧
      (guard.patch set r).billingIssueDetectedAt = r.billingIssueDetectedAt := by
  have hterminal : r.status ∈ repoTerminalStatuses → r.status ≠ .billingIssue := by
    intro hmem heq
    rw [heq] at hmem
    exact absurd hmem (by decide)
  cases guard with
  | unguarded => exact PurchasePatch.apply_releases h hheld
  | caseTerminal =>
    rw [StatusGuard.patch] at hheld ⊢
    split_ifs at hheld ⊢ with hr
    · exact absurd hheld (hterminal hr)
    · exact PurchasePatch.apply_releases h hheld
  | notTerminal =>
    rw [StatusGuard.patch] at hheld ⊢
    split_ifs at hheld ⊢ with hr
    · exact ⟨hheld, rfl⟩
    · exact PurchasePatch.apply_releases h hheld
  | whenStatus status =>
    rw [StatusGuard.patch] at hheld ⊢
    split_ifs at hheld ⊢ with hr
    · exact PurchasePatch.apply_releases h hheld
    · exact ⟨hheld, rfl⟩

theorem Write.Releases.keepsHeld {w : Write} (h : w.Releases) (s : Db) :
    KeepsHeld s (s.write w) := by
  intro key r' hget hheld
  rw [write_purchaseAt] at hget
  cases w with
  | insertPurchase key' row =>
    rw [Write.purchaseAt] at hget
    split_ifs at hget
    · cases hold : s.purchases.get? key with
      | none =>
        rw [hold, Option.getD_none, Option.some.injEq] at hget
        exact absurd (hget ▸ hheld) h
      | some r =>
        rw [hold, Option.getD_some, Option.some.injEq] at hget
        exact ⟨r, rfl, hget ▸ hheld, congrArg _ hget⟩
    · exact ⟨r', hget, hheld, rfl⟩
  | updatePurchase key' guard set =>
    rw [Write.purchaseAt] at hget
    split_ifs at hget
    · obtain ⟨r, hold, rfl⟩ := Option.map_eq_some_iff.1 hget
      obtain ⟨hheld', hstamp⟩ := StatusGuard.patch_releases h hheld
      exact ⟨r, hold, hheld', hstamp.symm⟩
    · exact ⟨r', hget, hheld, rfl⟩
  | _ => exact ⟨r', hget, hheld, rfl⟩

theorem keepsHeld_applyAll {ws : List Write} (h : ∀ w ∈ ws, w.Releases) (s : Db) :
    KeepsHeld s (applyAll s ws) := by
  induction ws generalizing s with
  | nil => exact .refl s
  | cons w ws ih =>
    rw [applyAll_cons]
    have hfirst := (h w (List.mem_cons_self ..)).keepsHeld s
    exact hfirst.trans (ih (fun v hv => h v (List.mem_cons_of_mem _ hv)) _)

def Releasing {α : Type} (p : Service α) : Prop := p.Each fun _ ws => ∀ w ∈ ws, w.Releases

section Statements
variable {α : Type}

theorem releasing_of_each {p : Service α} (h : p.Each fun _ ws => ∀ w ∈ ws, ¬w.OnPurchases) :
    Releasing p := Prog.Each.mono h fun _ _ hws w hw => .of_not_onPurchases (hws w hw)

theorem releasing_query (f : Db → α) : Releasing (Prog.query f) :=
  Prog.each_query (by simp) f

theorem releasing_guardStatusWrite (args : GuardStatusWriteArgs) :
    Releasing (guardStatusWrite args) :=
  (Prog.each_queryLocked (by simp) _ _).bind fun _ => trivial

theorem releasing_updatePurchaseRow {key : PurchaseKey} {guard : StatusGuard}
    {set : PurchasePatch} (h : (Write.updatePurchase key guard set).Releases) :
    Releasing (updatePurchaseRow key guard set) := by
  refine Prog.each_exec fun s w hw => ?_
  obtain rfl := List.mem_singleton.1 hw
  exact h

theorem releasing_updates {keys : Db → List PurchaseKey} {guard : StatusGuard}
    {set : PurchasePatch} {f : Db → α}
    (h : ∀ key, (Write.updatePurchase key guard set).Releases) :
    Releasing (Prog.exec (fun s => (keys s).map .purchase)
      (fun s => (keys s).map fun key => .updatePurchase key guard set) f : Service α) := by
  refine Prog.each_exec fun s w hw => ?_
  obtain ⟨key, -, rfl⟩ := List.mem_map.1 hw
  exact h key

theorem releasing_upsertPurchase {key : PurchaseKey} {create : Purchase} {update : PurchasePatch}
    (hcreate : create.status ≠ .billingIssue)
    (hupdate : (Write.updatePurchase key .caseTerminal update).Releases) :
    Releasing (upsertPurchase key create update) := by
  intro id
  refine Prog.each_exec fun s w hw => ?_
  unfold upsertWrites at hw
  split at hw
  · obtain rfl := List.mem_singleton.1 hw
    exact hcreate
  · obtain rfl := List.mem_singleton.1 hw
    exact hupdate

theorem releasing_onAccess {p : Service α} (h : p.Each fun _ ws => ∀ w ∈ ws, w.OnAccess) :
    Releasing p := releasing_of_each (h.mono fun _ _ hws w hw => (hws w hw).not_onPurchases)

end Statements

namespace Apple
variable (ctx : DispatchContext)

theorem releasing_retireRow (key : PurchaseKey) (now : ℤ) : Releasing (retireRow key now) := by
  refine (releasing_guardStatusWrite _).bind fun guard => ?_
  split_ifs
  · exact releasing_updatePurchaseRow ⟨by simp, .inl rfl⟩
  · trivial

theorem TransactionWrite.update_releases (w : TransactionWrite) (guard : GuardStatusWriteResult)
    (key : PurchaseKey) (h : w.status ≠ .billingIssue) :
    (Write.updatePurchase key .caseTerminal (w.update guard)).Releases := by
  rw [TransactionWrite.update]
  split_ifs
  · exact ⟨fun heq => h (Option.some.inj heq), .inr (by simp)⟩
  · exact ⟨by simp [TransactionWrite.refresh], .inl rfl⟩

theorem releasing_writeTransaction (subscriberId : String) {status : PurchaseStatus}
    (h : status ≠ .billingIssue) (productId : String) (pending : PendingPlanChange) :
    Releasing (writeTransaction ctx subscriberId status productId pending) := by
  refine Prog.Each.transaction fun startedAt => ?_
  refine (releasing_guardStatusWrite _).bind fun guard => fun now => ?_
  let w : TransactionWrite := ⟨ctx, subscriberId, status, productId, pending, now⟩
  have hupsert : Releasing (Rovenue.upsertPurchase ctx.key (w.create startedAt) (w.update guard)) :=
    releasing_upsertPurchase h (w.update_releases guard ctx.key h)
  refine hupsert.bind fun persisted => Prog.Each.bind ?_ fun _ => trivial
  unfold recoverChain
  split_ifs
  · exact (releasing_query _).bind fun keys => Prog.each_forEach _ fun key _ =>
      releasing_retireRow key _
  · trivial

theorem releasing_entitle (subscriberId : String) (upserted : UpsertedPurchase)
    (supersedes : Bool) : Releasing (entitle ctx subscriberId upserted supersedes) := by
  unfold entitle
  split_ifs
  · refine Prog.Each.bind ?_ fun _ => releasing_onAccess (grantAccess_each _)
    unfold supersedeSiblings
    split_ifs
    · refine (releasing_query _).bind fun siblings => Prog.each_forEach _ fun sibling _ => ?_
      exact Prog.Each.bind (Prog.Each.transaction fun _ => releasing_retireRow _ _) fun _ =>
        releasing_onAccess (syncAccess_each _)
    · trivial
  · trivial

theorem releasing_applyTransaction {status : PurchaseStatus} (h : status ≠ .billingIssue)
    (supersedes : Bool) : Releasing (applyTransaction ctx status supersedes) := by
  refine (releasing_of_each (resolveSubscriber_each ctx)).bind fun subscriber => ?_
  refine Prog.Each.bind ?_ fun upserted =>
    (releasing_entitle ctx subscriber.1 upserted supersedes).bind fun _ => trivial
  refine (releasing_query _).bind fun product => ?_
  cases product with
  | none => trivial
  | some product =>
    exact (releasing_query _).bind fun announced =>
      (releasing_writeTransaction ctx _ h _ _).bind fun _ => trivial

theorem trialOrActive_ne : trialOrActive ctx ≠ .billingIssue := by
  unfold trialOrActive
  split_ifs <;> simp

theorem releasing_recordApplePendingChange : Releasing (recordApplePendingChange ctx) := by
  refine (releasing_query _).bind fun current => ?_
  cases current with
  | none => trivial
  | some current =>
    refine (releasing_query _).bind fun announced => ?_
    refine Prog.Each.bind (Prog.Each.transaction fun _ => ?_) fun _ => trivial
    refine (Prog.each_queryLocked (by simp) _ _).bind fun locked => ?_
    cases locked with
    | none => trivial
    | some locked =>
      dsimp only
      split_ifs
      · trivial
      · exact releasing_updatePurchaseRow ⟨by simp, .inl rfl⟩

theorem releasing_guardedChainStatusWrite {patch : PurchasePatch}
    (h : ∀ key, (Write.updatePurchase key .notTerminal patch).Releases) :
    Releasing (guardedChainStatusWrite ctx patch) := Prog.Each.autocommit (releasing_updates h)

theorem releasing_revokeAccessForTransaction : Releasing (revokeAccessForTransaction ctx) :=
  Prog.Each.autocommit (releasing_onAccess (revokeAccessByOriginalTransaction_each _ _))

theorem releasing_applyExpired : Releasing (applyExpired ctx) :=
  (releasing_guardedChainStatusWrite ctx fun _ => ⟨by simp, .inl rfl⟩).bind fun _ =>
    (releasing_revokeAccessForTransaction ctx).bind fun _ =>
      releasing_of_each (cancellation_each _)

theorem releasing_applyRevoke : Releasing (applyRevoke ctx) :=
  (releasing_guardedChainStatusWrite ctx fun _ => ⟨by simp, .inl rfl⟩).bind fun _ =>
    (releasing_revokeAccessForTransaction ctx).bind fun _ =>
      releasing_of_each (chainOutcome_each ctx)

theorem releasing_applyRefund : Releasing (applyRefund ctx) := by
  refine Prog.Each.bind ?_ fun _ => (releasing_query _).bind fun purchase =>
    releasing_of_each (purchaseOutcome_each purchase)
  refine (releasing_query _).bind fun found => ?_
  cases found with
  | none => trivial
  | some found =>
    refine Prog.Each.bind (Prog.Each.transaction fun _ => ?_) fun _ =>
      Prog.Each.autocommit (releasing_onAccess (revokeAccessByPurchaseId_each _))
    refine (releasing_guardStatusWrite _).bind fun guard => ?_
    split_ifs
    · exact releasing_updatePurchaseRow ⟨by simp, .inl rfl⟩
    · trivial

theorem restoredStatus_ne (now : ℤ) : restoredStatus ctx now ≠ .billingIssue := by
  unfold restoredStatus
  split_ifs <;> simp

theorem releasing_applyRefundReversed : Releasing (applyRefundReversed ctx) := by
  refine (releasing_query _).bind fun found => ?_
  cases found with
  | none => trivial
  | some purchase =>
    have hnow : Releasing (Prog.now : Service ℤ) := fun _ => trivial
    refine hnow.bind fun now => Prog.Each.bind (Prog.Each.transaction fun _ => ?_) fun _ =>
      releasing_of_each (purchaseOutcome_each _)
    refine (releasing_guardStatusWrite _).bind fun guard => ?_
    cases guard.apply with
    | true =>
      have hstatus := restoredStatus_ne ctx now
      exact releasing_updatePurchaseRow ⟨fun heq => hstatus (Option.some.inj heq), .inl rfl⟩
    | false => exact releasing_updatePurchaseRow ⟨by simp, .inl rfl⟩

theorem releasing_applyConsumptionRequest : Releasing (applyConsumptionRequest ctx) := by
  refine (releasing_query _).bind fun byToken => ?_
  cases byToken with
  | some row => trivial
  | none => exact (releasing_query _).bind fun _ => trivial

theorem releasing_applyFailedRenewal (h : failedRenewalStatus ctx ≠ .billingIssue) :
    Releasing (applyFailedRenewal ctx) := by
  refine (releasing_query _).bind fun current => ?_
  refine Prog.Each.bind (releasing_guardedChainStatusWrite ctx fun _ => ?_) fun _ => trivial
  exact ⟨fun heq => h (Option.some.inj heq), .inr (by simp)⟩

def failsPayment : Bool :=
  ctx.notification.notificationType = .didFailToRenew && failedRenewalStatus ctx = .billingIssue

theorem releasing_handleAppleNotification (h : failsPayment ctx = false) :
    Releasing (handleAppleNotification ctx) := by
  refine Prog.Each.bind ?_ fun outcome => releasing_of_each (postProcess_each outcome)
  have hpaid : PurchaseStatus.active ≠ .billingIssue := by decide
  unfold dispatch
  cases hty : ctx.notification.notificationType with
  | subscribed => exact releasing_applyTransaction ctx (trialOrActive_ne ctx) _
  | didRenew => exact (releasing_applyTransaction ctx hpaid _).bind fun _ => trivial
  | didChangeRenewalPref =>
    simp only [applyRenewalPrefChange]
    split_ifs
    · exact releasing_applyTransaction ctx hpaid _
    · exact releasing_recordApplePendingChange ctx
  | didChangeRenewalStatus =>
    exact (Prog.Each.autocommit (releasing_updates fun _ => ⟨by simp, .inl rfl⟩)).bind fun _ =>
      releasing_of_each (chainOutcome_each ctx)
  | offerRedeemed =>
    simp only [applyOfferRedeemed]
    split_ifs
    · exact releasing_recordApplePendingChange ctx
    · exact releasing_applyTransaction ctx (trialOrActive_ne ctx) _
  | didFailToRenew =>
    refine releasing_applyFailedRenewal ctx fun hstatus => ?_
    simp [failsPayment, hty, hstatus] at h
  | gracePeriodExpired => exact releasing_applyExpired ctx
  | expired => exact releasing_applyExpired ctx
  | refund => exact releasing_applyRefund ctx
  | refundDeclined => trivial
  | refundReversed => exact releasing_applyRefundReversed ctx
  | revoke => exact releasing_applyRevoke ctx
  | consumptionRequest => exact releasing_applyConsumptionRequest ctx
  | other => trivial

def newestHeld (s : Db) : Bool :=
  (findChainPurchase ctx s).any fun e => e.2.status = .billingIssue

def failedRenewalPatch (s : Db) : PurchasePatch where
  status := some (failedRenewalStatus ctx)
  gracePeriodExpires :=
    some (appleDate (ctx.renewalInfo.bind AppleRenewalInfo.gracePeriodExpiresDate))
  billingIssueDetectedAt := billingIssueStamp ((findChainPurchase ctx s).map fun e => e.2.status)
    (failedRenewalStatus ctx) ctx.appleNotificationEventTime

theorem failedRenewalPatch_stamp (s : Db) (h : failedRenewalStatus ctx = .billingIssue) :
    (failedRenewalPatch ctx s).billingIssueDetectedAt =
      if newestHeld ctx s then none else some (some ctx.appleNotificationEventTime) := by
  have hfrom : (findChainPurchase ctx s).map (fun e => e.2.status) = some .billingIssue ↔
      newestHeld ctx s = true := by
    rw [newestHeld, Option.map_eq_some_iff, Option.any_eq_true]
    simp only [decide_eq_true_eq]
  simp only [failedRenewalPatch, billingIssueStamp, h, if_true, hfrom]

theorem failedRenewal_get? {c c' : Session Db Write String} {u : Unit}
    (h : (handleAppleNotification ctx).Returns c u c')
    (hty : ctx.notification.notificationType = .didFailToRenew) (key : PurchaseKey) :
    c'.view.purchases.get? key =
      if key ∈ openChainKeys ctx.projectId ctx.originalTransactionId c.view then
        (c.view.purchases.get? key).map (failedRenewalPatch ctx c.view).apply
      else c.view.purchases.get? key := by
  obtain ⟨outcome, c₁, hdispatch, hpost⟩ := Prog.returns_bind.1 h
  rw [dispatch, hty] at hdispatch
  simp only [applyFailedRenewal, guardedChainStatusWrite, updateChainStatusGuarded, Prog.bind_eq,
    Prog.pure_eq, Prog.returns_bind, Prog.returns_query, Prog.returns_autocommit,
    Prog.returns_exec, Prog.returns_done] at hdispatch
  obtain ⟨_, _, ⟨rfl, rfl⟩, _, _, ⟨-, rfl⟩, -, rfl⟩ := hdispatch
  rw [(keeps_purchases_of_each (postProcess_each outcome) hpost).1, Session.write_view]
  have hnodup := openChainKeys_nodup ctx.projectId ctx.originalTransactionId c.view
  refine (get?_updatesOf hnodup .notTerminal c.view key).trans ?_
  split_ifs with hmem
  · obtain ⟨r, hr, -, hopen⟩ := mem_openChainKeys.1 hmem
    rw [hr, Option.map_some, Option.map_some, StatusGuard.patch, if_neg hopen]
    rfl
  · rfl

namespace Delivery
variable (t : Delivery)

def entries (entered : PurchaseKey → Option ℤ) (key : PurchaseKey) : Option ℤ :=
  if Held t.after key && !Held t.before key then some t.date else entered key

/-- On the state before it: the open rows of the chain are held exactly if the newest is, but
for rows that carry the delivery's own date. -/
def InStep : Prop :=
  failsPayment t.label = true → ∀ key r, t.before.purchases.get? key = some r →
    key ∈ openChainKeys t.label.projectId t.label.originalTransactionId t.before →
    (r.status = .billingIssue ↔ newestHeld t.label t.before = true) ∨
      r.billingIssueDetectedAt = some t.date

end Delivery

section Step
variable {t : Delivery} {entered : PurchaseKey → Option ℤ}

theorem held_of_get? {s : Db} {key : PurchaseKey} {r : Purchase}
    (hget : s.purchases.get? key = some r) :
    Held s key = true ↔ r.status = .billingIssue := by
  simp [Held, hget]

theorem clocked_of_keepsHeld (hkeeps : KeepsHeld t.before t.after)
    (h : Clocked entered t.before) : Clocked (t.entries entered) t.after := by
  intro key r' hget hheld
  obtain ⟨r, hget₀, hheld₀, hstamp⟩ := hkeeps key r' hget hheld
  obtain ⟨e, hentered, he⟩ := h key r hget₀ hheld₀
  refine ⟨e, ?_, hstamp ▸ he⟩
  rw [Delivery.entries, (held_of_get? hget₀).2 hheld₀]
  simpa using hentered

theorem failed_clock_iff (h : t.Completes handleAppleNotification)
    (hfails : failsPayment t.label = true) (hclocked : Clocked entered t.before)
    {key : PurchaseKey} {r : Purchase} (hget : t.before.purchases.get? key = some r)
    (hopen : key ∈ openChainKeys t.label.projectId t.label.originalTransactionId t.before) :
    ∃ r', t.after.purchases.get? key = some r' ∧ r'.status = .billingIssue ∧
      ((∃ e, t.entries entered key = some e ∧ r'.billingIssueDetectedAt = some e) ↔
        (r.status = .billingIssue ↔ newestHeld t.label t.before = true) ∨
          r.billingIssueDetectedAt = some t.date) := by
  obtain ⟨c', hreturns, -, hafter⟩ := h
  simp only [failsPayment, Bool.and_eq_true, decide_eq_true_eq] at hfails
  obtain ⟨hty, hstatus⟩ := hfails
  have hwritten := failedRenewal_get? t.label hreturns hty key
  rw [Session.start_view, if_pos hopen, hget, Option.map_some, hafter] at hwritten
  have hheld : ((failedRenewalPatch t.label t.before).apply r).status = .billingIssue := hstatus
  have hstamp : ((failedRenewalPatch t.label t.before).apply r).billingIssueDetectedAt =
      if newestHeld t.label t.before then r.billingIssueDetectedAt else some t.date := by
    rw [PurchasePatch.apply, failedRenewalPatch_stamp t.label t.before hstatus]
    split_ifs <;> rfl
  refine ⟨_, hwritten, hheld, ?_⟩
  rw [hstamp, Delivery.entries, (held_of_get? hwritten).2 hheld, Bool.true_and]
  by_cases hbefore : r.status = .billingIssue
  · -- the row was held: its clock must not move
    obtain ⟨e, hentered, he⟩ := hclocked key r hget hbefore
    rw [(held_of_get? hget).2 hbefore, hentered, he]
    cases newestHeld t.label t.before <;> simp [hbefore, eq_comm]
  · -- the row is entered now
    have hnot : Held t.before key = false := by
      rw [Bool.eq_false_iff]
      exact fun hh => hbefore ((held_of_get? hget).1 hh)
    rw [hnot]
    cases newestHeld t.label t.before <;> simp [hbefore, eq_comm]

theorem clocked_step_iff (h : t.Completes handleAppleNotification)
    (hclocked : Clocked entered t.before) :
    Clocked (t.entries entered) t.after ↔ t.InStep := by
  cases hfails : failsPayment t.label with
  | false =>
    obtain ⟨c', hreturns, -, hafter⟩ := h
    have hkeeps : KeepsHeld t.before t.after := by
      rw [← hafter]
      exact Prog.Each.returns KeepsHeld.refl KeepsHeld.trans
        (fun s ws hws => keepsHeld_applyAll hws s)
        (releasing_handleAppleNotification t.label hfails) hreturns
    refine iff_of_true (clocked_of_keepsHeld hkeeps hclocked) fun hfails' => ?_
    rw [hfails] at hfails'
    cases hfails'
  | true =>
    constructor
    · intro hafter _ key r hget hopen
      obtain ⟨r', hget', hheld', hiff⟩ := failed_clock_iff h hfails hclocked hget hopen
      exact hiff.1 (hafter key r' hget' hheld')
    · intro hstep key r' hget' hheld'
      by_cases hopen : key ∈ openChainKeys t.label.projectId t.label.originalTransactionId t.before
      · obtain ⟨r, hget, -, -⟩ := mem_openChainKeys.1 hopen
        obtain ⟨r₁, hget₁, -, hiff⟩ := failed_clock_iff h hfails hclocked hget hopen
        obtain rfl : r' = r₁ := Option.some.inj (hget'.symm.trans hget₁)
        exact hiff.2 (hstep hfails key r hget hopen)
      · -- a row outside the chain's open rows is as it was
        obtain ⟨c', hreturns, -, hafter⟩ := h
        have hty : t.label.notification.notificationType = .didFailToRenew := by
          simp only [failsPayment, Bool.and_eq_true, decide_eq_true_eq] at hfails
          exact hfails.1
        have hwritten := failedRenewal_get? t.label hreturns hty key
        rw [Session.start_view, if_neg hopen, hafter, hget'] at hwritten
        obtain ⟨e, hentered, he⟩ := hclocked key r' hwritten.symm hheld'
        refine ⟨e, ?_, he⟩
        rw [Delivery.entries, (held_of_get? hwritten.symm).2 hheld']
        simpa using hentered

end Step

def enteredAfter (entered : PurchaseKey → Option ℤ) (ts : List Delivery) :
    PurchaseKey → Option ℤ := ts.foldl (fun entered t => t.entries entered) entered

/-- After every prefix of a run the held rows carry their clocks, and age by them. -/
def DunningClock (entered : PurchaseKey → Option ℤ) (ts : List Delivery) : Prop :=
  ∀ front t back, ts = front ++ t :: back →
    Clocked (enteredAfter entered (front ++ [t])) t.after ∧
      AgedOnTime (enteredAfter entered (front ++ [t])) t.after

theorem dunningClock_cons (entered : PurchaseKey → Option ℤ) (t : Delivery) (ts : List Delivery) :
    DunningClock entered (t :: ts) ↔
      Clocked (t.entries entered) t.after ∧ DunningClock (t.entries entered) ts := by
  constructor
  · intro h
    refine ⟨(h [] t ts rfl).1, fun front t' back heq => ?_⟩
    exact h (t :: front) t' back (by rw [heq, List.cons_append])
  · rintro ⟨hfirst, hrest⟩ front t' back heq
    cases front with
    | nil =>
      obtain ⟨rfl, rfl⟩ := List.cons.inj heq
      exact ⟨hfirst, agedOnTime_of_clocked hfirst⟩
    | cons t₀ front =>
      obtain ⟨rfl, htail⟩ := List.cons.inj heq
      exact hrest front t' back htail

/-- In a run of notifications of any kind every held row has the clock of its own last entry
exactly when each failed renewal finds its chain in step. -/
theorem dunningClock_iff_inStep {s s' : Db} {ts : List Delivery}
    (run : Turns handleAppleNotification s ts s') {entered : PurchaseKey → Option ℤ}
    (h : Clocked entered s) : DunningClock entered ts ↔ ∀ t ∈ ts, t.InStep := by
  induction run generalizing entered with
  | nil s =>
    refine iff_of_true (fun front t back heq => ?_) (by simp)
    exact absurd heq (by simp)
  | cons hcompletes rest ih =>
    rw [dunningClock_cons, List.forall_mem_cons]
    constructor
    · rintro ⟨hfirst, hrest⟩
      exact ⟨(clocked_step_iff hcompletes h).1 hfirst, (ih hfirst).1 hrest⟩
    · rintro ⟨hstep, hsteps⟩
      have hfirst := (clocked_step_iff hcompletes h).2 hstep
      exact ⟨hfirst, (ih hfirst).2 hsteps⟩

def dunningTransaction (transactionId : String) (expiresDate : ℤ) : AppleTransaction where
  transactionId := transactionId
  originalTransactionId := "t1"
  productId := "com.pro"
  expiresDate := some expiresDate

def firstTerm : DispatchContext where
  projectId := "p1"
  notification := { notificationType := .subscribed, signedDate := 100 }
  transaction := dunningTransaction "t1" 200

def secondTerm : DispatchContext where
  projectId := "p1"
  notification := { notificationType := .didRenew, signedDate := 200 }
  transaction := dunningTransaction "t2" 300

def paymentFailed (signedDate : ℤ) : DispatchContext where
  projectId := "p1"
  notification := { notificationType := .didFailToRenew, signedDate := signedDate }
  transaction := dunningTransaction "t2" 300

/-- The first term's row leaves the hold alone, and comes back to it without a clock. -/
theorem redelivery_loses_clock :
    ∃ (ts : List Delivery) (s' : Db), Turns handleAppleNotification chainDb ts s' ∧
      ts.map Turn.label =
        [firstTerm, secondTerm, paymentFailed 300, firstTerm, paymentFailed 400] ∧
      (∃ r, s'.purchases.get? (appleKey "t1") = some r ∧ r.status = .billingIssue ∧
        r.billingIssueDetectedAt = none) ∧
      Clocked (fun _ => none) chainDb ∧ ¬DunningClock (fun _ => none) ts := by
  refine ⟨[_, _, _, _, _], _,
    @Turns.turn _ _ _ _ _ _ handleAppleNotification firstTerm _ _ (fun _ => 110) freshIds _ _ rfl
    (@Turns.turn _ _ _ _ _ _ handleAppleNotification secondTerm _ _ (fun _ => 210)
      (fun n => "b" ++ freshIds n) _ _ rfl
    (@Turns.turn _ _ _ _ _ _ handleAppleNotification (paymentFailed 300) _ _ (fun _ => 310)
      (fun n => "c" ++ freshIds n) _ _ rfl
    (@Turns.turn _ _ _ _ _ _ handleAppleNotification firstTerm _ _ (fun _ => 320)
      (fun n => "d" ++ freshIds n) _ _ rfl
    (@Turns.turn _ _ _ _ _ _ handleAppleNotification (paymentFailed 400) _ _ (fun _ => 410)
      (fun n => "e" ++ freshIds n) _ _ rfl (.nil _))))),
    rfl, ⟨_, rfl, rfl, rfl⟩, fun key r hget => ?_, fun hclock => ?_⟩
  · exact absurd hget (by simp [chainDb])
  · obtain ⟨e, -, hstamp⟩ := (hclock [_, _, _, _] _ [] rfl).1 (appleKey "t1") _ rfl rfl
    have hnone : none = some e := hstamp
    cases hnone

theorem dunningClock_iff_inStep_redelivery :
    ∃ (ts : List Delivery) (s' : Db), Turns handleAppleNotification chainDb ts s' ∧
      (DunningClock (fun _ => none) ts ↔ ∀ t ∈ ts, t.InStep) := by
  obtain ⟨ts, s', run, -, -, hclocked, -⟩ := redelivery_loses_clock
  exact ⟨ts, s', run, dunningClock_iff_inStep run hclocked⟩

end Apple

end Rovenue
