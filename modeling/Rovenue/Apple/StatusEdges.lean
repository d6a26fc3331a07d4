import Rovenue.Apple.NotificationPlan
import Rovenue.Workers.SweepPlan

/-! Which status moves are edges of the transition graph. A guarded write asks
the graph; a chain-wide write and the sweeper's promotion to grace do not. -/

namespace Rovenue
open Txn

inductive StatusStep where
  | notification (ctx : Apple.DispatchContext)
  | expiryCheck
  | billingIssueAgeing

namespace StatusStep

def prog : StatusStep → Service Unit
  | .notification ctx => Apple.handleAppleNotification ctx
  | .expiryCheck => runExpiryCheck
  | .billingIssueAgeing => runBillingIssueAgeing

def plan (now : ℤ) (s : Db) : StatusStep → PurchaseKey → Option StatusWrite
  | .notification ctx => Apple.notificationPlan ctx now s
  | .expiryCheck => expiryPlan now s
  | .billingIssueAgeing => ageingPlan now s

def exempts : StatusStep → PurchaseStatus → Bool
  | .notification ctx, status =>
    ctx.notification.notificationType = .refundReversed && status = .refunded
  | _, _ => false

/-- Each row that changes status moves along an edge. -/
def MovesAlongEdges (step : StatusStep) (s s' : Db) : Prop :=
  ∀ key r r', s.purchases.get? key = some r → s'.purchases.get? key = some r' →
    r'.status ≠ r.status → validateTransition r.status r'.status = true ∨ step.exempts r.status

def ChainAvoids (ctx : Apple.DispatchContext) (statuses : List PurchaseStatus) (s : Db) : Prop :=
  ∀ key r, s.purchases.get? key = some r →
    inChain ctx.projectId ctx.originalTransactionId (key, r) = true → r.status ∉ statuses

def withoutEdge : PurchaseStatus → List PurchaseStatus
  | .gracePeriod => [.trial, .paused, .expired, .billingIssue]
  | .billingIssue => [.paused, .expired]
  | .revoked => [.expired]
  | _ => []

/-- On the state before the step: the chain written over has no row without an
edge, and no trial is promoted to grace. -/
def Meets (s : Db) (now : ℤ) : StatusStep → Prop
  | .notification ctx =>
    match ctx.notification.notificationType with
    | .didFailToRenew => ChainAvoids ctx (withoutEdge (Apple.failedRenewalStatus ctx)) s
    | .revoke => ChainAvoids ctx (withoutEdge .revoked) s
    | _ => True
  | .expiryCheck =>
    ∀ e ∈ findOverduePurchases now expirySweepStatuses maxCandidatesPerRun s,
      ¬(e.2.status = .trial ∧ e.2.gracePeriodExpires.any (now < ·) = true)
  | .billingIssueAgeing => True

end StatusStep

section Moves
variable {step : StatusStep} {c c' : Session Db Write String} {u : Unit}

theorem step_follows (h : step.prog.Returns c u c') :
    Follows (step.plan (c.clock 0) c.view) c c' := by
  cases step with
  | notification ctx => exact Apple.handleAppleNotification_follows h
  | expiryCheck => exact runExpiryCheck_follows h
  | billingIssueAgeing => exact runBillingIssueAgeing_follows h

theorem movesAlongEdges_iff_plan {plan : PurchaseKey → Option StatusWrite}
    (h : Follows plan c c') :
    step.MovesAlongEdges c.view c'.view ↔ ∀ key r w, c.view.purchases.get? key = some r →
      plan key = some w → validateTransition r.status w.status = true ∨ step.exempts r.status := by
  constructor
  · intro hmoves key r w hr hw
    have hstanding := h.standing key
    rw [hw, standingAt, standingAt, hr, Option.map_some, StatusWrite.on,
      Option.map_eq_some_iff] at hstanding
    obtain ⟨r', hr', hstand⟩ := hstanding
    have hstatus : r'.status = w.status := congrArg Prod.fst hstand
    rw [← hstatus]
    by_cases hsame : r'.status = r.status
    · left
      rw [hsame, validateTransition_self]
    · exact hmoves key r r' hr hr' hsame
  · intro hplan key r r' hr hr' hne
    have hstanding := h.standing key
    rw [standingAt, standingAt, hr, hr', Option.map_some, Option.map_some] at hstanding
    cases hw : plan key with
    | none =>
      rw [hw] at hstanding
      exact absurd (congrArg Prod.fst (Option.some.inj hstanding)) hne
    | some w =>
      rw [hw] at hstanding
      have hstatus : r'.status = w.status := congrArg Prod.fst (Option.some.inj hstanding)
      rw [hstatus]
      exact hplan key r w hr hw

theorem guard_plan_edge {args : GuardStatusWriteArgs} {s : Db} {key : PurchaseKey} {r : Purchase}
    {w : StatusWrite} (hr : s.purchases.get? key = some r)
    (hw : args.plan (standingAt s key) = some w) :
    validateTransition r.status w.status = true ∨ r.status ∈ args.allowFrom := by
  rw [standingAt, hr, Option.map_some, args.plan_some] at hw
  split_ifs at hw with hadmits
  obtain rfl := Option.some.inj hw
  exact admits_status hadmits

theorem transactionPlan_edge {ctx : Apple.DispatchContext} {status : PurchaseStatus}
    {supersedes : Bool} {s : Db} {key : PurchaseKey} {r : Purchase} {w : StatusWrite}
    (hr : s.purchases.get? key = some r)
    (hw : Apple.transactionPlan ctx status supersedes s key = some w) :
    validateTransition r.status w.status = true := by
  unfold Apple.transactionPlan at hw
  split_ifs at hw with hkey hretires
  · rw [GuardStatusWriteArgs.upsertPlan, if_neg (by simp [standingAt, hr])] at hw
    simpa [Apple.upsertGuard] using guard_plan_edge hr hw
  · simpa [Apple.retireGuard] using guard_plan_edge hr hw

theorem edge_iff_not_withoutEdge {a : PurchaseStatus} (ha : a ∉ repoTerminalStatuses)
    {status : PurchaseStatus}
    (hs : status ∈ [PurchaseStatus.gracePeriod, .billingIssue, .revoked, .expired]) :
    validateTransition a status = true ↔ a ∉ StatusStep.withoutEdge status := by
  revert a status
  decide

theorem terminal_not_withoutEdge {a : PurchaseStatus} (ha : a ∈ repoTerminalStatuses)
    (status : PurchaseStatus) : a ∉ StatusStep.withoutEdge status := by
  revert a status
  decide

theorem chainPlan_edges_iff {ctx : Apple.DispatchContext} {status : PurchaseStatus} {s : Db}
    (hs : status ∈ [PurchaseStatus.gracePeriod, .billingIssue, .revoked, .expired]) :
    (∀ key r w, s.purchases.get? key = some r → Apple.chainPlan ctx status s key = some w →
        validateTransition r.status w.status = true) ↔
      StatusStep.ChainAvoids ctx (StatusStep.withoutEdge status) s := by
  constructor
  · intro h key r hr hchain
    by_cases hopen : r.status ∈ repoTerminalStatuses
    · exact terminal_not_withoutEdge hopen status
    · refine (edge_iff_not_withoutEdge hopen hs).1 (h key r ⟨status, none⟩ hr ?_)
      rw [Apple.chainPlan, if_pos (mem_openChainKeys.2 ⟨r, hr, hchain, hopen⟩)]
  · intro h key r w hr hw
    unfold Apple.chainPlan at hw
    split_ifs at hw with hmem
    obtain rfl := Option.some.inj hw
    obtain ⟨r', hr', hchain, hopen⟩ := mem_openChainKeys.1 hmem
    obtain rfl : r' = r := Option.some.inj (hr'.symm.trans hr)
    exact (edge_iff_not_withoutEdge hopen hs).2 (h key r' hr hchain)

theorem foundPlan_edge {ctx : Apple.DispatchContext} {args : GuardStatusWriteArgs} {s : Db}
    {key : PurchaseKey} {r : Purchase} {w : StatusWrite} (hr : s.purchases.get? key = some r)
    (hw : Apple.foundPlan ctx args s key = some w) :
    validateTransition r.status w.status = true ∨ r.status ∈ args.allowFrom := by
  unfold Apple.foundPlan onlyRow at hw
  split_ifs at hw with hkey hfound
  exact guard_plan_edge hr (hkey ▸ hw)

theorem sweepPlan_some {candidates : List PurchaseRecord}
    {plan : PurchaseRecord → Option Standing → Option StatusWrite} {s : Db} {key : PurchaseKey}
    {r : Purchase} {w : StatusWrite}
    (hrows : ∀ e ∈ candidates, s.purchases.get? e.1 = some e.2)
    (hr : s.purchases.get? key = some r) (hw : sweepPlan candidates plan s key = some w) :
    (key, r) ∈ candidates ∧ plan (key, r) (some r.standing) = some w := by
  obtain ⟨e, hfind, hplan⟩ := Option.bind_eq_some_iff.1 hw
  obtain rfl : e.1 = key := by simpa using List.find?_some hfind
  have hmem := List.mem_of_find?_eq_some hfind
  obtain rfl : e.2 = r := Option.some.inj ((hrows e hmem).symm.trans hr)
  rw [standingAt, hr, Option.map_some] at hplan
  exact ⟨hmem, hplan⟩

theorem sweepPlan_of_mem {candidates : List PurchaseRecord}
    {plan : PurchaseRecord → Option Standing → Option StatusWrite} {s : Db} {e : PurchaseRecord}
    (hrows : ∀ e ∈ candidates, s.purchases.get? e.1 = some e.2) (he : e ∈ candidates) :
    sweepPlan candidates plan s e.1 = plan e (some e.2.standing) := by
  unfold sweepPlan
  cases hfind : candidates.find? fun e' => e'.1 = e.1 with
  | none => simpa using List.find?_eq_none.1 hfind e he
  | some e' =>
    have hkey : e'.1 = e.1 := by simpa using List.find?_some hfind
    have hrow : e'.2 = e.2 := by
      have hget := hrows e' (List.mem_of_find?_eq_some hfind)
      rw [hkey, hrows e he] at hget
      exact (Option.some.inj hget).symm
    rw [Option.bind_some, Prod.ext hkey hrow, standingAt, hrows e he, Option.map_some]

theorem swapPlan_standing {expected new : PurchaseStatus} {r : Purchase} {w : StatusWrite} :
    swapPlan expected new (some r.standing) = some w ↔
      r.status = expected ∧ w = ⟨new, none⟩ := by
  simp only [swapPlan, Purchase.standing, Option.bind_some, Option.ite_none_right_eq_some,
    Option.some.injEq]
  exact and_congr_right fun _ => eq_comm

theorem expiryPlan_edges_iff {s : Db} {now : ℤ} :
    (∀ key r w, s.purchases.get? key = some r → expiryPlan now s key = some w →
        validateTransition r.status w.status = true) ↔ StatusStep.expiryCheck.Meets s now := by
  have hrows : ∀ e ∈ findOverduePurchases now expirySweepStatuses maxCandidatesPerRun s,
      s.purchases.get? e.1 = some e.2 ∧ e.2.status ∈ expirySweepStatuses := by
    intro e he
    obtain ⟨hget, hp⟩ := mem_candidates he
    simp only [Bool.and_eq_true, decide_eq_true_eq] at hp
    exact ⟨hget, hp.1.1⟩
  constructor
  · rintro h e he ⟨htrial, hgrace⟩
    have hactive : e.2.hasActiveGrace now = true := by
      simp [Purchase.hasActiveGrace, htrial, hgrace]
    have hplan : expiryPlan now s e.1 = some ⟨.gracePeriod, none⟩ := by
      rw [expiryPlan, sweepPlan_of_mem (fun e he => (hrows e he).1) he, candidatePlan,
        if_pos hactive]
      exact swapPlan_standing.2 ⟨rfl, rfl⟩
    have hedge := h e.1 e.2 _ (hrows e he).1 hplan
    rw [htrial] at hedge
    exact absurd hedge (by decide)
  · intro h key r w hr hw
    obtain ⟨hmem, hplan⟩ := sweepPlan_some (fun e he => (hrows e he).1) hr hw
    have hsweep : r.status ∈ expirySweepStatuses := (hrows _ hmem).2
    unfold candidatePlan at hplan
    split_ifs at hplan with hactive
    · obtain ⟨-, rfl⟩ := swapPlan_standing.1 hplan
      simp only [Purchase.hasActiveGrace, Bool.and_eq_true, decide_eq_true_eq] at hactive
      have hnotTrial : r.status ≠ .trial := fun htrial => h _ hmem ⟨htrial, hactive.2⟩
      obtain ⟨⟨hnotGrace, hnotPaused⟩, -⟩ := hactive
      revert hsweep hnotTrial hnotGrace hnotPaused
      generalize r.status = a
      revert a
      decide
    · obtain ⟨-, rfl⟩ := swapPlan_standing.1 hplan
      revert hsweep
      generalize r.status = a
      revert a
      decide

theorem notification_edges_iff {ctx : Apple.DispatchContext} (s : Db) (now : ℤ) :
    (∀ key r w, s.purchases.get? key = some r → Apple.notificationPlan ctx now s key = some w →
        validateTransition r.status w.status = true ∨
          (StatusStep.notification ctx).exempts r.status) ↔
      (StatusStep.notification ctx).Meets s now := by
  -- the plans of guarded handlers are edges; a chain-wide plan, away from the statuses listed
  unfold StatusStep.Meets Apple.notificationPlan StatusStep.exempts
  have hfailed : Apple.failedRenewalStatus ctx ∈
      [PurchaseStatus.gracePeriod, .billingIssue, .revoked, .expired] := by
    unfold Apple.failedRenewalStatus
    split_ifs <;> decide
  have hexpired := (@chainPlan_edges_iff ctx .expired s (by decide)).2 fun _ _ _ _ =>
    List.not_mem_nil
  cases htype : ctx.notification.notificationType <;>
    simp only [htype, decide_false, decide_true, Bool.false_and, Bool.true_and,
      Bool.false_eq_true, or_false, reduceCtorEq, iff_true]
  case didFailToRenew => exact chainPlan_edges_iff hfailed
  case revoke => exact chainPlan_edges_iff (by decide)
  case gracePeriodExpired => exact hexpired
  case expired => exact hexpired
  case subscribed => exact fun key r w hr hw => transactionPlan_edge hr hw
  case didRenew => exact fun key r w hr hw => transactionPlan_edge hr hw
  case didChangeRenewalPref =>
    intro key r w hr hw
    split_ifs at hw
    exact transactionPlan_edge hr hw
  case offerRedeemed =>
    intro key r w hr hw
    split_ifs at hw
    exact transactionPlan_edge hr hw
  case refund =>
    intro key r w hr hw
    simpa [Apple.refundGuard] using foundPlan_edge hr hw
  case refundReversed =>
    intro key r w hr hw
    simpa [Apple.reversalGuard] using foundPlan_edge hr hw
  all_goals
    intro key r w hr hw
    exact absurd hw (by simp)

theorem step_edges_iff (h : step.prog.Returns c u c') :
    step.MovesAlongEdges c.view c'.view ↔ step.Meets c.view (c.clock 0) := by
  rw [movesAlongEdges_iff_plan (step_follows h)]
  cases step with
  | notification ctx =>
    exact notification_edges_iff c.view (c.clock 0)
  | expiryCheck =>
    simp only [StatusStep.exempts, Bool.false_eq_true, or_false]
    exact expiryPlan_edges_iff
  | billingIssueAgeing =>
    refine iff_of_true (fun key r w hr hw => .inl ?_) trivial
    obtain ⟨-, hplan⟩ := sweepPlan_some (fun e he => (mem_candidates he).1) hr hw
    obtain ⟨hstatus, rfl⟩ := swapPlan_standing.1 hplan
    rw [hstatus]
    rfl

/-- Every status move of every step of a run is an edge exactly when every step
meets the condition on the state it starts from. -/
theorem moves_along_edges_iff_meets {s s' : Db}
    {ts : List (Turn StatusStep Db Write String)} (run : Turns StatusStep.prog s ts s') :
    (∀ t ∈ ts, t.label.MovesAlongEdges t.before t.after) ↔
      ∀ t ∈ ts, t.label.Meets t.before (t.clock 0) := by
  refine forall₂_congr fun t ht => ?_
  obtain ⟨c', hreturns, -, hafter⟩ := run.completes t ht
  rw [← hafter]
  exact step_edges_iff hreturns

end Moves

def edgeDb : Db where
  products := Table.empty.insert "prod"
    { projectId := "p1", identifier := "pro"
      storeIds := [("apple", "com.pro")], accessIds := ["pro"] }

def edgeTransaction : AppleTransaction where
  transactionId := "t1"
  originalTransactionId := "t1"
  productId := "com.pro"
  expiresDate := some 100
  offerType := some .introductory

def trialSubscribed : StatusStep := .notification
  { projectId := "p1"
    notification := { notificationType := .subscribed, signedDate := 10 }
    transaction := edgeTransaction }

def trialRenewalFailed : StatusStep := .notification
  { projectId := "p1"
    notification :=
      { notificationType := .didFailToRenew, subtype := some .gracePeriod, signedDate := 110 }
    transaction := edgeTransaction
    renewalInfo := some { autoRenewStatus := 1, gracePeriodExpiresDate := some 200 } }

/-- `SUBSCRIBED` on a free trial, then `DID_FAIL_TO_RENEW` with a grace period:
the graph has no edge from `TRIAL` to `GRACE_PERIOD`. -/
theorem trial_enters_grace :
    ∃ (t₁ t₂ : Turn StatusStep Db Write String) (s' : Db),
      Turns StatusStep.prog edgeDb [t₁, t₂] s' ∧ t₁.label = trialSubscribed ∧
      t₂.label = trialRenewalFailed ∧
      ∃ r r', t₂.before.purchases.get? (appleKey "t1") = some r ∧ r.status = .trial ∧
        t₂.after.purchases.get? (appleKey "t1") = some r' ∧ r'.status = .gracePeriod ∧
        validateTransition r.status r'.status = false ∧
        ¬t₂.label.MovesAlongEdges t₂.before t₂.after := by
  refine ⟨_, _, _,
    @Turns.turn _ _ _ _ _ _ StatusStep.prog trialSubscribed _ _ (fun _ => 10) freshIds _ _ rfl
      (@Turns.turn _ _ _ _ _ _ StatusStep.prog trialRenewalFailed _ _ (fun _ => 110)
        (fun n => "y" ++ freshIds n) _ _ rfl (.nil _)),
    rfl, rfl, _, _, rfl, rfl, rfl, rfl, rfl, fun h => ?_⟩
  exact absurd (h (appleKey "t1") _ _ rfl rfl (by decide)) (by decide)

theorem moves_along_edges_iff_meets_trial :
    ∃ (ts : List (Turn StatusStep Db Write String)) (s' : Db), Turns StatusStep.prog edgeDb ts s' ∧
      ((∀ t ∈ ts, t.label.MovesAlongEdges t.before t.after) ↔
        ∀ t ∈ ts, t.label.Meets t.before (t.clock 0)) := by
  obtain ⟨t₁, t₂, s', run, -⟩ := trial_enters_grace
  exact ⟨_, _, run, moves_along_edges_iff_meets run⟩

end Rovenue
