import Rovenue.Purchases.TerminalWrites

/-! `REFUNDED` and `REVOKED` under every interleaving of the routines that write the
status column. One of them writes without a guard, on the word of a read whose lock is gone. -/

namespace Rovenue
open Txn

inductive PurchaseClient where
  | stripe (ctx : StripeContext) (data : StripeEventData)
  | oneTimePurchase (args : OneTimePurchase)
  | google (notification : Google.GoogleNotification)
  | apple (ctx : Apple.DispatchContext)
  | expirySweep
  | billingIssueAgeing

namespace PurchaseClient

def run : PurchaseClient → Service Unit
  | .stripe ctx data => processStripeEvent ctx data
  | .oneTimePurchase args => grantOneTimePurchase args
  | .google notification => Google.handleGoogleNotification notification
  | .apple ctx => Apple.handleAppleNotification ctx
  | .expirySweep => runExpiryCheck
  | .billingIssueAgeing => runBillingIssueAgeing

def FailsPayment : PurchaseClient → Prop
  | .stripe _ (.invoicePaymentFailed _) => True
  | _ => False

def ReversesRefund : PurchaseClient → Prop
  | .apple ctx => ctx.notification.notificationType = .refundReversed
  | _ => False

/-- The rows that are `REFUNDED` or `REVOKED` keep that status through a commit, unless a
reversal takes them out of `REFUNDED`. -/
def Absorbs (client : PurchaseClient) (s : Db) (ws : List Write) : Prop :=
  ∀ key r, s.purchases.get? key = some r → r.status ∈ terminalStatuses →
    ∃ r', (applyAll s ws).purchases.get? key = some r' ∧
      (r'.status = r.status ∨ r.status = .refunded ∧ client.ReversesRefund)

/-- A status that `applyInvoicePaymentFailed` writes finds its row in neither status. -/
def FindsOpen (client : PurchaseClient) (s : Db) (ws : List Write) : Prop :=
  client.FailsPayment → ∀ key set r, .updatePurchase key .unguarded set ∈ ws →
    set.status.isSome → s.purchases.get? key = some r → r.status ∉ terminalStatuses

inductive Lawful (client : PurchaseClient) (s : Db) : List Write → Prop
  | keeps {ws} (h : ∀ w ∈ ws, w.KeepsTerminal) : Lawful client s ws
  | paymentFailed {key set} (hclient : client.FailsPayment) (hset : set.status = some .gracePeriod) :
      Lawful client s [.updatePurchase key .unguarded set]
  | refundReversed {key set} (hclient : client.ReversesRefund)
      (hset : ∀ r, s.purchases.get? key = some r → r.status = .revoked → set.status = none) :
      Lawful client s [.updatePurchase key .unguarded set]

end PurchaseClient

open PurchaseClient

theorem mem_terminalStatuses {status : PurchaseStatus} :
    status ∈ terminalStatuses ↔ status = .refunded ∨ status = .revoked := by
  cases status <;> decide

theorem mem_terminal_iff_repo {status : PurchaseStatus} :
    status ∈ terminalStatuses ↔ status ∈ repoTerminalStatuses := by
  cases status <;> decide

section Commit
variable {client : PurchaseClient} {s : Db} {ws : List Write} {key : PurchaseKey}
  {set : PurchasePatch} {r : Purchase}

theorem get?_unguarded (hget : s.purchases.get? key = some r) :
    (applyAll s [.updatePurchase key .unguarded set]).purchases.get? key =
      some (set.apply r) := by
  rw [applyAll_cons, applyAll_nil, apply_eq, write_purchaseAt, hget]
  simp [Write.purchaseAt, StatusGuard.patch]

theorem absorbs_of_keeps (h : ∀ w ∈ ws, w.KeepsTerminal) : client.Absorbs s ws := by
  intro key r hget hr
  obtain ⟨r', hget', hsame⟩ := keepsTerminal_applyAll h hget (mem_terminal_iff_repo.1 hr)
  exact ⟨r', hget', .inl hsame⟩

theorem absorbs_update (h : ∀ r, s.purchases.get? key = some r → r.status ∈ terminalStatuses →
      (set.apply r).status = r.status ∨ r.status = .refunded ∧ client.ReversesRefund) :
    client.Absorbs s [.updatePurchase key .unguarded set] := by
  intro key' r hget hr
  by_cases hkey : key' = key
  · subst hkey
    exact ⟨_, get?_unguarded hget, h r hget hr⟩
  · refine ⟨r, ?_, .inl rfl⟩
    rw [get?_applyAll_of_key_ne, hget]
    intro w hw
    obtain rfl := List.mem_singleton.1 hw
    exact fun hk => hkey (Option.some.inj hk).symm

theorem PurchaseClient.Lawful.absorbs_iff (h : Lawful client s ws) :
    client.Absorbs s ws ↔ client.FindsOpen s ws := by
  cases h with
  | keeps h =>
    refine ⟨fun _ _ key set r hmem hset => ?_, fun _ => absorbs_of_keeps h⟩
    have hnone := (h _ hmem).1 rfl
    rw [hnone] at hset
    cases hset
  | paymentFailed hclient hset =>
    rename_i key set
    constructor
    · intro habsorbs _ key' set' r hmem _ hget hr
      obtain ⟨rfl, rfl⟩ : key' = key ∧ set' = set := by simpa using hmem
      obtain ⟨r', hget', hstatus⟩ := habsorbs key' r hget hr
      rw [get?_unguarded hget, Option.some.injEq] at hget'
      have hgrace : r'.status = .gracePeriod := by
        rw [← hget', PurchasePatch.apply_status, hset]
        rfl
      rcases hstatus with hsame | ⟨-, hreverses⟩
      · rw [← hsame, hgrace] at hr
        revert hr
        decide
      · cases client <;> first | exact hclient.elim | exact hreverses.elim
    · intro hopen
      refine absorbs_update fun r hget hr => ?_
      exact absurd hr (hopen hclient key set r (List.mem_singleton.2 rfl) (by simp [hset]) hget)
  | refundReversed hclient hset =>
    rename_i key set
    constructor
    · intro _ hfails
      cases client <;> first | exact hclient.elim | exact hfails.elim
    · intro _
      refine absorbs_update fun r hget hr => ?_
      rcases mem_terminalStatuses.1 hr with hrefunded | hrevoked
      · exact .inr ⟨hrefunded, hclient⟩
      · exact .inl (PurchasePatch.apply_keeps_status (hset r hget hrevoked))

end Commit

variable {ι : Type}

def absorbing (clients : ι → PurchaseClient) : Discipline ι Db LockKey Write where
  inv _ := True
  rely _ held h h' :=
    (∀ key, .purchase key ∈ held → h'.db.purchases.get? key = h.db.purchases.get? key) ∧
      ∀ key, (h.db.purchases.get? key).isSome → (h'.db.purchases.get? key).isSome
  law i held ws h :=
    (∀ w ∈ ws, ∀ key, w.purchaseKey? = some key → .purchase key ∈ held) ∧
      Lawful (clients i) h.db ws
  cond _ _ _ := True
  rely_refl _ _ _ := ⟨fun _ _ => rfl, fun _ h => h⟩
  rely_trans h h' := ⟨fun key hkey => (h'.1 key hkey).trans (h.1 key hkey),
    fun key hsome => h'.2 key (h.2 key hsome)⟩
  keeps_inv _ _ _ := trivial
  keeps_rely := by
    intro i held ws h hlaw _ _ j others _ hdisjoint _
    refine ⟨fun key hkey => get?_applyAll_of_key_ne fun w hw hwkey => ?_,
      fun key hsome => isSome_get?_applyAll hsome⟩
    exact Set.disjoint_left.1 hdisjoint hkey (hlaw.1 w hw key hwkey)

def OrderlyQueue (held : Set LockKey) (pend : List Write) : Prop :=
  ∀ w ∈ pend, w.KeepsTerminal ∧ ∀ key, w.purchaseKey? = some key → .purchase key ∈ held

theorem orderlyQueue_nil (held : Set LockKey) : OrderlyQueue held [] := by
  intro w hw
  exact absurd hw List.not_mem_nil

section Safe
variable {clients : ι → PurchaseClient} {i : ι} {held : Set LockKey} {pend : List Write}
  {h : History ι Db Write} {α : Type}

theorem OrderlyQueue.law (hq : OrderlyQueue held pend) : (absorbing clients).law i held pend h :=
  ⟨fun w hw => (hq w hw).2, .keeps fun w hw => (hq w hw).1⟩

theorem OrderlyQueue.stmt {s : Db} {needs : List LockKey} {ws : List Write}
    (hq : OrderlyQueue held pend) (ho : Orderly s needs ws) :
    OrderlyQueue ({k | k ∈ needs} ∪ held) (pend ++ ws) := by
  intro w hw
  rcases List.mem_append.1 hw with hw | hw
  · exact ⟨(hq w hw).1, fun key hkey => .inr ((hq w hw).2 key hkey)⟩
  · exact ⟨(ho w hw).1, fun key hkey => .inl ((ho w hw).2 key hkey)⟩

theorem Orderly.safe {p : Service α} (hp : p.Stmts Orderly) (hq : OrderlyQueue held pend) :
    Safe (absorbing clients) i p held pend h fun _ held pend _ => OrderlyQueue held pend :=
  Safe.of_stmts (orderlyQueue_nil ∅) OrderlyQueue.stmt OrderlyQueue.law hp hq

theorem guardStatusWrite_idle (args : GuardStatusWriteArgs) :
    Safe (absorbing clients) i (guardStatusWrite args).autocommit ∅ [] h Idle := by
  have hread : Safe (absorbing clients) i (lockPurchaseStatusByStoreTransaction args.key) ∅ [] h
      fun _ _ pend _ => pend = [] := Safe.queryLocked fun h' _ _ => rfl
  refine Safe.autocommit (hread.bind fun current held pend h₁ hpend => ?_)
  intro h₂ _ _
  rw [hpend]
  exact ⟨(orderlyQueue_nil _).law, fun _ => ⟨rfl, rfl⟩⟩

theorem applyInvoicePaymentFailed_safe {ctx : StripeContext} {invoice : StripeInvoice}
    (hclient : (clients i).FailsPayment) :
    Safe (absorbing clients) i (applyInvoicePaymentFailed ctx invoice) ∅ [] h Idle := by
  unfold applyInvoicePaymentFailed
  split
  · exact ⟨rfl, rfl⟩
  · refine (guardStatusWrite_idle _).bind fun guard held pend h₁ hidle => ?_
    obtain ⟨rfl, rfl⟩ := hidle
    dsimp only
    split_ifs
    · refine Safe.bind (Safe.autocommit (Safe.exec fun h₂ _ _ h₃ _ _ =>
        ⟨⟨?_, .paymentFailed hclient rfl⟩, fun _ => ⟨rfl, rfl⟩⟩)) fun _ held pend h₂ hidle => hidle
      intro w hw key hkey
      obtain rfl := List.mem_singleton.1 hw
      obtain rfl := Option.some.inj hkey
      exact .inl (List.mem_singleton.2 rfl)
    · exact ⟨rfl, rfl⟩

theorem reversal_withholds {ctx : Apple.DispatchContext} {now : ℤ} {r : Purchase}
    (hr : r.status = .revoked) : (Apple.reversalGuard ctx now).admits (some r) = false := by
  rw [Bool.eq_false_iff]
  intro hadmits
  rcases admits_status hadmits with hedge | hallow
  · rw [hr] at hedge
    revert hedge
    simp only [Apple.reversalGuard, Apple.restoredStatus]
    split_ifs <;> decide
  · rw [hr] at hallow
    revert hallow
    simp [Apple.reversalGuard]

theorem reversal_transaction {ctx : Apple.DispatchContext} {now : ℤ}
    (hclient : (clients i).ReversesRefund) (hrow : (h.db.purchases.get? ctx.key).isSome) :
    Safe (absorbing clients) i
      (Prog.transaction fun _ => do
        let guard ← guardStatusWrite (Apple.reversalGuard ctx now)
        let patch : PurchasePatch := { refundDate := some none }
        updatePurchase ctx.key
          (if guard.apply then
            { patch with
              status := some (Apple.restoredStatus ctx now)
              lastStoreEventAt := some (some ctx.appleNotificationEventTime) }
          else patch) false) ∅ [] h Idle := by
  refine Safe.transaction fun _ => ?_
  have hread : Safe (absorbing clients) i (guardStatusWrite (Apple.reversalGuard ctx now)) ∅ [] h
      fun guard held pend h' => .purchase ctx.key ∈ held ∧ pend = [] ∧
        guard = (Apple.reversalGuard ctx now).result (h'.db.purchases.get? ctx.key) := by
    refine Safe.bind (Safe.queryLocked fun h₁ _ hr => ?_) fun _ _ _ _ hq => hq
    obtain ⟨r, hget⟩ := Option.isSome_iff_exists.1 (hr.2 _ hrow)
    refine ⟨.inl ?_, rfl, rfl⟩
    have hkey : (Apple.reversalGuard ctx now).key = ctx.key := rfl
    simp [hkey, hget]
  refine hread.bind fun guard held pend h₁ hguard => ?_
  obtain ⟨hheld, rfl, rfl⟩ := hguard
  refine Safe.exec fun h₂ _ hr₂ h₃ _ hr₃ => ⟨⟨?_, .refundReversed hclient ?_⟩, fun _ => ⟨rfl, rfl⟩⟩
  · intro w hw key hkey
    obtain rfl := List.mem_singleton.1 hw
    obtain rfl := Option.some.inj hkey
    exact .inl (List.mem_singleton.2 rfl)
  · intro r hget hrevoked
    have hsame : h₁.db.purchases.get? ctx.key = some r := by
      rw [← hr₂.1 ctx.key hheld, ← hr₃.1 ctx.key (.inr hheld), hget]
    have hwithheld : ((Apple.reversalGuard ctx now).result
        (h₁.db.purchases.get? ctx.key)).apply = false := by
      rw [hsame]
      exact reversal_withholds hrevoked
    rw [hwithheld]
    rfl

theorem applyRefundReversed_safe {ctx : Apple.DispatchContext}
    (hclient : (clients i).ReversesRefund) :
    Safe (absorbing clients) i (Apple.applyRefundReversed ctx) ∅ [] h
      fun _ held pend _ => OrderlyQueue held pend := by
  have hfind : Safe (absorbing clients) i
      (Prog.query (findPurchaseByStoreTransaction ctx.projectId ctx.key) :
        Service (Option Purchase)) ∅ [] h
      fun found held pend h' => held = ∅ ∧ pend = [] ∧
        (found.isSome → (h'.db.purchases.get? ctx.key).isSome) := by
    refine Safe.query fun h₁ _ _ => ⟨rfl, rfl, fun hsome => ?_⟩
    obtain ⟨r, hr⟩ := Option.isSome_iff_exists.1 hsome
    rw [Option.isSome_iff_exists]
    exact ⟨r, (Option.filter_eq_some_iff.1 hr).1⟩
  refine hfind.bind fun found held pend h₁ hfound => ?_
  obtain ⟨rfl, rfl, hrow⟩ := hfound
  cases found with
  | none => exact orderlyQueue_nil _
  | some purchase =>
    intro now
    refine (reversal_transaction hclient (hrow rfl)).bind fun _ held pend h₂ hidle => ?_
    obtain ⟨rfl, rfl⟩ := hidle
    exact Orderly.safe (Apple.orderly_purchaseOutcome _) (orderlyQueue_nil _)

theorem PurchaseClient.run_safe : Safe (absorbing clients) i (clients i).run ∅ [] h
    fun _ _ _ _ => True := by
  have horderly : ∀ p : Service Unit, p.Stmts Orderly →
      Safe (absorbing clients) i p ∅ [] h fun _ _ _ _ => True :=
    fun p hp => (Orderly.safe hp (orderlyQueue_nil _)).mono fun _ _ _ _ _ => trivial
  have hpost : ∀ (outcome : DispatchOutcome) held pend (h : History ι Db Write),
      OrderlyQueue held pend →
      Safe (absorbing clients) i (postProcess outcome) held pend h fun _ _ _ _ => True :=
    fun outcome _ _ _ hq =>
      (Orderly.safe (orderly_postProcess outcome) hq).mono fun _ _ _ _ _ => trivial
  cases hclient : clients i with
  | stripe ctx data =>
    cases data with
    | subscriptionSync subscription =>
      exact horderly _ ((orderly_syncSubscription ctx subscription).bind orderly_postProcess)
    | subscriptionDeleted subscription =>
      exact horderly _ ((orderly_applySubscriptionDeleted ctx subscription).bind orderly_postProcess)
    | invoicePaid invoice =>
      exact horderly _ ((orderly_applyInvoicePaid ctx invoice).bind orderly_postProcess)
    | invoicePaymentFailed invoice =>
      refine (applyInvoicePaymentFailed_safe (hclient ▸ trivial)).bind fun outcome held pend h₁ hidle => ?_
      obtain ⟨rfl, rfl⟩ := hidle
      exact hpost _ _ _ _ (orderlyQueue_nil _)
    | chargeRefunded charge =>
      exact horderly _ ((orderly_applyChargeRefunded ctx charge).bind orderly_postProcess)
  | oneTimePurchase args => exact horderly _ (orderly_grantOneTimePurchase args)
  | google notification => exact horderly _ (Google.orderly_handleGoogleNotification notification)
  | apple ctx =>
    by_cases hreverses : ctx.notification.notificationType = .refundReversed
    · have hdispatch : Apple.dispatch ctx = Apple.applyRefundReversed ctx := by
        rw [Apple.dispatch, hreverses]
      change Safe (absorbing clients) i ((Apple.dispatch ctx).bind postProcess) _ _ _ _
      rw [hdispatch]
      exact (applyRefundReversed_safe (hclient ▸ hreverses)).bind fun outcome held pend h₁ hq =>
        hpost _ _ _ _ hq
    · exact horderly _ ((Apple.orderly_dispatch ctx hreverses).bind orderly_postProcess)
  | expirySweep => exact horderly _ orderly_runExpiryCheck
  | billingIssueAgeing => exact horderly _ orderly_runBillingIssueAgeing

end Safe

variable [DecidableEq ι]

def purchaseWorld (s₀ : Db) (t : ℤ) (clients : ι → PurchaseClient) :
    World ι Db LockKey Write String := World.init s₀ t fun i => (clients i).run

/-- Whatever the routines and however they interleave, the two statuses are absorbing along
a run exactly when each status that `applyInvoicePaymentFailed` writes finds its row in
neither. -/
theorem absorbing_iff_failure_finds_open (s₀ : Db) (t : ℤ) (clients : ι → PurchaseClient)
    (evs : List (Event ι String)) :
    (∀ c ∈ (purchaseWorld s₀ t clients).commits evs,
      (clients c.client).Absorbs c.before.db c.writes) ↔
    ∀ c ∈ (purchaseWorld s₀ t clients).commits evs,
      (clients c.client).FindsOpen c.before.db c.writes := by
  have hsafe : (purchaseWorld s₀ t clients).Safe (absorbing clients) :=
    .init trivial fun i => run_safe
  have hlaw : ∀ c ∈ (purchaseWorld s₀ t clients).commits evs, (absorbing clients).inv c.before ∧
      ∃ held, (absorbing clients).law c.client held c.writes c.before :=
    hsafe.commits_law fun _ _ => trivial
  refine forall_congr' fun c => forall_congr' fun hc => ?_
  obtain ⟨-, held, -, hlawful⟩ := hlaw c hc
  exact hlawful.absorbs_iff

inductive StripeHandler where
  | paymentFailed | refunded
  deriving DecidableEq

def paidSubscription : Db where
  purchases := Table.empty.insert (stripeKey "sub_1")
    { id := "pu_1"
      projectId := "p"
      subscriberId := "s"
      productId := "gold"
      originalTransactionId := "sub_1"
      status := .active }

def failureAndRefund : StripeHandler → PurchaseClient
  | .paymentFailed => .stripe ⟨"p", 10⟩ (.invoicePaymentFailed ⟨some "sub_1"⟩)
  | .refunded => .stripe ⟨"p", 20⟩ (.chargeRefunded
      { invoice := some "in_1"
        invoiceSubscription := some "sub_1"
        amount := some 5
        amountRefunded := some 5 })

def refundInBetween : List (Event StripeHandler String) :=
  [.run .paymentFailed, .run .paymentFailed, .run .refunded, .run .refunded, .run .refunded,
    .run .refunded, .run .refunded, .run .refunded, .run .paymentFailed, .run .paymentFailed]

theorem refunded_returns_to_grace :
    ¬∀ (s₀ : Db) (t : ℤ) (clients : StripeHandler → PurchaseClient)
      (evs : List (Event StripeHandler String)),
      ∀ c ∈ (purchaseWorld s₀ t clients).commits evs,
        (clients c.client).Absorbs c.before.db c.writes := by
  intro claim
  have hmoves : ((purchaseWorld paidSubscription 0 failureAndRefund).commits refundInBetween).any
      (fun c =>
        (c.before.db.purchases.get? (stripeKey "sub_1")).map Purchase.status = some .refunded &&
          ((applyAll c.before.db c.writes).purchases.get? (stripeKey "sub_1")).map
            Purchase.status = some .gracePeriod) = true := by decide
  obtain ⟨c, hc, hstatus⟩ := List.any_eq_true.1 hmoves
  simp only [Bool.and_eq_true, decide_eq_true_eq, Option.map_eq_some_iff] at hstatus
  obtain ⟨⟨r, hget, hrefunded⟩, r₁, hget₁, hgrace⟩ := hstatus
  have habsorbs := claim paidSubscription 0 failureAndRefund refundInBetween c hc
  obtain ⟨r', hget', hsame | ⟨-, hreverses⟩⟩ :=
    habsorbs (stripeKey "sub_1") r hget (by rw [hrefunded]; decide)
  · rw [hget₁, Option.some.injEq] at hget'
    rw [← hget', hgrace, hrefunded] at hsame
    cases hsame
  · cases hclient : c.client <;> rw [hclient] at hreverses <;> exact hreverses

end Rovenue
