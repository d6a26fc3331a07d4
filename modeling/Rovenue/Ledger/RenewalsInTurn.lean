import Rovenue.Ledger.RenewalCredits

/-! Jobs and merges in turn. Two jobs of a wallet share its key, and so may two merges; a job and
a merge are kept apart by nothing but the schedule. -/

namespace Rovenue
open Txn

variable {ι : Type}

def RenewalCall.Covers (s : Db) (held : Set LockKey) (sub cur : String) : RenewalCall → Prop
  | .grant job => sub = job.subscriberId ∧ walletKey sub cur ∈ held ∧
    walletKey sub cur ∈ lockKeys s (.grant job)
  | .transfer p a b => findSubscriberProjectId sub s = some p ∧ ∀ k ∈ transferKeys p a b, k ∈ held
  | .bind p r a => findSubscriberProjectId sub s = some p ∧ ∀ k ∈ bindKeys p r a, k ∈ held

theorem RenewalCall.Covers.inside {s : Db} {held : Set LockKey} {sub cur : String}
    {call : RenewalCall} (h : call.Covers s held sub cur) : call.Inside s (· ∈ held) := by
  cases call with
  | grant job => exact ⟨_, h.2.2, h.2.1⟩
  | transfer p a b => exact h.2
  | bind p r a => exact h.2

theorem RenewalCall.Covers.projectId {s : Db} {held : Set LockKey} {sub cur : String}
    {call : RenewalCall} (h : call.Covers s held sub cur) :
    call.projectId s = findSubscriberProjectId sub s := by
  cases call with
  | grant job => rw [h.1]; rfl
  | transfer p a b => exact h.1.symm
  | bind p r a => exact h.1.symm

def MergeWrites (s₀ : Db) (call : RenewalCall) (held : Set LockKey) (s : Db) (ws : List Write) :
    Prop :=
  call.merges = true ∧ ∃ projectId, call.projectId s₀ = some projectId ∧
    MergeCommit s₀ s projectId ws ∧
      ((∀ w ∈ ws, w.OnAccess) ∨ ∀ k ∈ call.lockKeys s₀, k ∈ held)

def GrantWrites (s₀ : Db) (events : Finset RenewalGrantJob) (call : RenewalCall)
    (held : Set LockKey) (s : Db) (ws : List Write) : Prop :=
  ∃ job ∈ events, call = .grant job ∧ (ws = [] ∨ ∃ found row, ws = [.insertCreditLedger found row] ∧
    RenewalCommit s₀ job held s found row ∧
      walletKey row.subscriberId row.currencyId ∈ call.lockKeys s₀)

section Apart
variable {s₀ s : Db} {a b : RenewalCall} {held others : Set LockKey} {ws : List Write}
  {sub cur : String}

theorem merge_apart (ha : a.merges = true) (hkeys : ∀ k ∈ a.lockKeys s₀, k ∈ held)
    (hdisj : Disjoint others held)
    (hbeside : a.Inside s₀ (· ∈ held) → b.Inside s₀ (· ∈ others) → ¬a.Contend s₀ b) :
    (∀ {sub cur}, b.Covers s₀ others sub cur → a.projectId s₀ ≠ findSubscriberProjectId sub s₀) ∧
      (b.merges = true → ¬∀ k ∈ b.lockKeys s₀, k ∈ others) := by
  have hinside : a.Inside s₀ (· ∈ held) := by
    cases a with
    | grant => cases ha
    | transfer | bind => exact hkeys
  have hmerges : b.merges = true → ¬∀ k ∈ b.lockKeys s₀, k ∈ others := by
    intro hb hother
    have hinside' : b.Inside s₀ (· ∈ others) := by
      cases b with
      | grant => cases hb
      | transfer | bind => exact hother
    refine hbeside hinside hinside' ?_
    rw [RenewalCall.Contend, if_pos ⟨ha, hb⟩]
    exact fun k hk hk' => Set.disjoint_left.1 hdisj (hother k hk') (hkeys k hk)
  refine ⟨fun hcovers hproject => ?_, hmerges⟩
  cases hb : b.merges with
  | true =>
    refine hmerges hb ?_
    cases b with
    | grant => cases hb
    | transfer | bind => exact hcovers.2
  | false =>
    refine hbeside hinside hcovers.inside ?_
    rw [RenewalCall.Contend, if_neg (by simp [hb])]
    exact ⟨.inl ha, hproject.trans hcovers.projectId.symm⟩

theorem grant_apart (ha : a.merges = false)
    (hheld : walletKey sub cur ∈ held) (hkey : walletKey sub cur ∈ a.lockKeys s₀)
    (hproject : a.projectId s₀ = findSubscriberProjectId sub s₀) (hdisj : Disjoint others held)
    (hbeside : a.Inside s₀ (· ∈ held) → b.Inside s₀ (· ∈ others) → ¬a.Contend s₀ b) :
    ¬b.Covers s₀ others sub cur := by
  intro hcovers
  have hinside : a.Inside s₀ (· ∈ held) := by
    cases a with
    | grant job => exact ⟨_, hkey, hheld⟩
    | transfer | bind => cases ha
  cases hb : b.merges with
  | true =>
    refine hbeside hinside hcovers.inside ?_
    rw [RenewalCall.Contend, if_neg (by simp [ha])]
    exact ⟨.inr hb, hproject.trans hcovers.projectId.symm⟩
  | false =>
    cases b with
    | grant job => exact Set.disjoint_left.1 hdisj hcovers.2.1 hheld
    | transfer | bind => cases hb

end Apart

def renewalDiscipline (calls : ι → RenewalCall) (s₀ : Db) {events : Finset RenewalGrantJob}
    (hids : ∀ a ∈ events, ∀ b ∈ events, a.revenueEventId = b.revenueEventId → a = b) :
    Discipline ι Db LockKey Write where
  inv h := RenewalInv s₀ events h.db
  rely i held h h' := h.db.creditLedger <+: h'.db.creditLedger ∧
    (∀ (job : RenewalGrantJob) cur, walletKey job.subscriberId cur ∈ held →
      renewalRows h'.db job cur = renewalRows h.db job cur) ∧
    (∀ sub cur, (calls i).Covers s₀ held sub cur →
      walletRows h'.db sub cur = walletRows h.db sub cur) ∧
    ((calls i).merges = true → (∀ k ∈ (calls i).lockKeys s₀, k ∈ held) →
      h'.db.subscribers = h.db.subscribers)
  law i held ws h := MergeWrites s₀ (calls i) held h.db ws ∨
    GrantWrites s₀ events (calls i) held h.db ws
  cond i ws h := InOrder h.db ws ∧ (calls i).PaysTheLiving h.db ws
  beside i held j others := (calls i).Inside s₀ (· ∈ held) → (calls j).Inside s₀ (· ∈ others) →
    ¬(calls i).Contend s₀ (calls j)
  rely_refl _ _ _ := ⟨List.prefix_rfl, fun _ _ _ => rfl, fun _ _ _ => rfl, fun _ _ => rfl⟩
  rely_trans h₁ h₂ := ⟨h₁.1.trans h₂.1,
    fun job cur hk => (h₂.2.1 job cur hk).trans (h₁.2.1 job cur hk),
    fun sub cur hc => (h₂.2.2.1 sub cur hc).trans (h₁.2.2.1 sub cur hc),
    fun hm hk => (h₂.2.2.2 hm hk).trans (h₁.2.2.2 hm hk)⟩
  keeps_inv := by
    intro i held ws h hlaw hinv hcond
    obtain ⟨-, p, -, hcommit, -⟩ | ⟨job, hjob, hcall, rfl | ⟨found, row, rfl, hcommit, -⟩⟩ := hlaw
    · exact hinv.transfers hcommit hcond.1
    · exact hinv
    · refine hinv.grant hids hjob hcommit hcond.1.1 ?_
      have hliving := hcond.2
      rw [hcall] at hliving
      rw [hcommit.subscriber]
      exact hliving (by simp)
  keeps_rely := by
    intro i held ws h hlaw _ _ j others _ hdisj hbeside
    refine ⟨creditLedger_grows h.db ws, ?_⟩
    obtain ⟨hmerges, p, hp, hcommit, haccess | hkeys⟩ |
      ⟨job, -, hcall, rfl | ⟨found, row, rfl, hcommit, hkey⟩⟩ := hlaw
    · refine ⟨fun job cur _ => renewalRows_transfers hcommit.transfers.2 h.db job cur,
        fun sub cur _ => ?_, fun _ _ => ?_⟩
      · refine walletRows_applyAll_of_ne (fun found row hrow _ => ?_) h.db
        exact (haccess _ hrow).elim
      · refine applyAll_subscribers h.db ws fun w hw hsubscriber => ?_
        have hw := haccess w hw
        cases w <;> first | exact hw.elim | exact hsubscriber.elim
    · obtain ⟨hapart, hmerging⟩ := merge_apart hmerges hkeys hdisj hbeside
      refine ⟨fun job cur _ => renewalRows_transfers hcommit.transfers.2 h.db job cur,
        fun sub cur hcovers => ?_, fun hj hothers => absurd hothers (hmerging hj)⟩
      refine walletRows_applyAll_of_ne (fun found row hrow hwallet => ?_) h.db
      refine hapart hcovers ?_
      rw [hp, ← hwallet.1, hcommit.transfers.project hrow, (hcommit.rows found row hrow).1]
    · exact ⟨fun _ _ _ => rfl, fun _ _ _ => rfl, fun _ _ => rfl⟩
    · refine ⟨fun job' cur hk => ?_, fun sub cur hcovers => ?_, fun _ _ => rfl⟩
      · show renewalRows (h.db.write (.insertCreditLedger found row)) job' cur = _
        rw [renewalRows_insert, if_neg, List.append_nil]
        intro hmatch
        obtain ⟨hsub, -, -, rfl⟩ := hmatch
        have hlocked := hcommit.locked
        rw [hsub] at hlocked
        exact Set.disjoint_left.1 hdisj hk hlocked
      · refine walletRows_applyAll_of_ne (fun found' row' hrow hwallet => ?_) h.db
        obtain ⟨-, rfl⟩ := Write.insertCreditLedger.inj (List.mem_singleton.1 hrow)
        obtain ⟨rfl, rfl⟩ := hwallet
        refine grant_apart (by rw [hcall]; rfl) hcommit.locked hkey ?_ hdisj hbeside hcovers
        rw [hcall, hcommit.subscriber]
        rfl

section Calls
variable {calls : ι → RenewalCall} {s₀ : Db} {events : Finset RenewalGrantJob}
  (hids : ∀ a ∈ events, ∀ b ∈ events, a.revenueEventId = b.revenueEventId → a = b) {i : ι}
  {held : Set LockKey} {h h' : History ι Db Write} {job : RenewalGrantJob}

theorem allowsMerges_renewal {p : String} {keys : List LockKey}
    (hmerges : (calls i).merges = true) (hproject : (calls i).projectId s₀ = some p)
    (hkeys : (calls i).lockKeys s₀ = keys) :
    AllowsMerges (renewalDiscipline calls s₀ hids) .createdAt s₀ i p keys
      fun x y s => x ≠ y ∧ Present s y := by
  subst hkeys
  have hcovers : ∀ {held sub cur}, (∀ k ∈ (calls i).lockKeys s₀, k ∈ held) →
      findSubscriberProjectId sub s₀ = some p → (calls i).Covers s₀ held sub cur := by
    intro held sub cur hheld hsub
    cases hi : calls i with
    | grant =>
      rw [hi] at hmerges
      cases hmerges
    | transfer | bind =>
      rw [hi] at hproject hheld
      obtain rfl := Option.some.inj hproject
      exact ⟨hsub, hheld⟩
  refine ⟨fun hi => hi.projects, fun hi => hi.agrees, ?_, ?_, fun h => .inr h.1, ?_, ?_, ?_⟩
  · exact fun hheld hr sub hsub cur => hr.2.2.1 sub cur (hcovers hheld hsub)
  · intro held h h' x y hheld hr hparties
    refine ⟨hparties.1, ?_⟩
    rw [Present, hr.2.2.2 hmerges hheld]
    exact hparties.2
  · intro held ws h hws
    refine .inl ⟨hmerges, p, hproject, mergeCommit_of_plain (fun w hw => (hws w hw).plain)
      (fun w hw id hmarks => ?_), .inl hws⟩
    have haccess := hws w hw
    cases w <;> first | exact haccess.elim | exact hmarks.elim
  · intro held ws h hheld hws
    refine .inl ⟨hmerges, p, hproject, mergeCommit_of_plain (fun w hw => ?_)
      (fun w hw id hmarks => ?_), .inr hheld⟩
    · have hlabels := hws w hw
      cases w <;> first | exact hlabels.elim | trivial
    · have hlabels := hws w hw
      cases w with
      | updateSubscriber id' set =>
        rw [Write.MarksMerged, hlabels.1] at hmarks
        cases hmarks.2
      | _ => exact hmarks.elim
  · intro held ws h x y hheld hparties hhanded
    exact .inl ⟨hmerges, p, hproject, hhanded.commit hparties.1 hparties.2, .inr hheld⟩

def Paid (s₀ s : Db) (job : RenewalGrantJob) : Prop :=
  ∀ cur, 0 < renewalAmount s₀ job cur → renewalRows s job cur ≠ []

theorem renewalRows_ne_nil {s s' : Db} (hgrows : s.creditLedger <+: s'.creditLedger) {cur : String}
    (hrows : renewalRows s job cur ≠ []) : renewalRows s' job cur ≠ [] := by
  obtain ⟨r, hr⟩ := List.exists_mem_of_ne_nil _ hrows
  obtain ⟨hledger, hmatch⟩ := List.mem_filter.1 hr
  exact List.ne_nil_of_mem (List.mem_filter.2 ⟨hgrows.subset hledger, hmatch⟩)

theorem existing_renewal (product : Product) (entry : String × ℤ) (s : Db) :
    ((job.grantArgs product).addCreditsArgs entry).existing s = none ↔
      renewalRows s job entry.1 = [] := by
  have hdedupes : ((job.grantArgs product).addCreditsArgs entry).dedupes = true := by
    simp [AddCreditsArgs.dedupes, GrantProductCurrenciesArgs.addCreditsArgs, truthy, job.named,
      RenewalGrantJob.grantArgs, grantReferenceType]
  rw [AddCreditsArgs.existing, if_pos hdedupes, List.find?_eq_none, renewalRows,
    List.filter_eq_nil_iff]
  constructor
  · intro hnone r hr hmatch
    obtain ⟨hsub, htype, hid, hcur⟩ := of_decide_eq_true hmatch
    refine hnone r (List.mem_filter.2 ⟨hr, decide_eq_true ⟨hsub, hcur⟩⟩) ?_
    simp [GrantProductCurrenciesArgs.addCreditsArgs, RenewalGrantJob.grantArgs,
      grantReferenceType, htype, hid]
  · intro hnone r hr hmatch
    obtain ⟨hledger, hwallet⟩ := List.mem_filter.1 hr
    obtain ⟨hsub, hcur⟩ := of_decide_eq_true hwallet
    refine hnone r hledger (decide_eq_true ?_)
    have href := of_decide_eq_true hmatch
    simp only [GrantProductCurrenciesArgs.addCreditsArgs, RenewalGrantJob.grantArgs,
      grantReferenceType] at href hsub hcur
    exact ⟨hsub, href.1, href.2, hcur⟩

theorem payRenewal_safe (hjob : job ∈ events) (hcall : calls i = .grant job) (product : Product)
    {entry : String × ℤ}
    (hlisted : entry ∈ listProductGrantsForTrigger job.productId .renewal s₀)
    (hamount : entry.2 = renewalAmount s₀ job entry.1) (hpos : 0 < entry.2) :
    Safe (renewalDiscipline calls s₀ hids) i
      (addCredits .createdAt ((job.grantArgs product).addCreditsArgs entry)) ∅ [] h
      fun _ held pend h => (held = ∅ ∧ pend = []) ∧ renewalRows h.db job entry.1 ≠ [] := by
  apply addCredits_safe_of
  · intro hd hc row _ hrely hexisting
    refine ⟨.inr ⟨job, hjob, hcall, .inl rfl⟩, fun _ => ⟨⟨rfl, rfl⟩, ?_⟩⟩
    have hpaid : renewalRows hd.db job entry.1 ≠ [] := by
      intro hnone
      rw [(existing_renewal product entry hd.db).2 hnone] at hexisting
      cases hexisting
    exact renewalRows_ne_nil hrely.1 hpaid
  · intro hp hd hb hc projectId id startedAt hpi _ _ hr₁ hr₂ hr₃ _ hproject hexisting found row
      hsolvent
    have hunpaid : renewalRows hc.db job entry.1 = [] := by
      rw [hr₃.2.1 job entry.1 (Set.mem_singleton _), hr₂.2.1 job entry.1 (Set.mem_singleton _)]
      exact (existing_renewal product entry hd.db).1 hexisting
    have hkey : walletKey job.subscriberId entry.1 ∈ (calls i).lockKeys s₀ := by
      rw [hcall]
      exact List.mem_map_of_mem hlisted
    have hcurrent : found = balance .createdAt hc.db job.subscriberId entry.1 := by
      refine (balance_of_walletRows (hr₃.2.2.1 _ _ ?_) .createdAt).symm
      rw [hcall] at hkey ⊢
      exact ⟨rfl, Set.mem_singleton _, hkey⟩
    have hreference : row.referenceType = some "renewal" ∧
        row.referenceId = some job.revenueEventId := ⟨rfl, rfl⟩
    refine ⟨.inr ⟨job, hjob, hcall, .inr ⟨found, row, rfl, ?_, hkey⟩⟩, fun _ => ⟨⟨rfl, rfl⟩, ?_⟩⟩
    · exact ⟨Set.mem_singleton _, rfl, hreference, (hpi.projects _).symm.trans hproject, hamount,
        hpos, hcurrent, rfl, hsolvent, hunpaid⟩
    · show renewalRows (hc.db.write (.insertCreditLedger found row)) job entry.1 ≠ []
      rw [renewalRows_insert, if_pos ⟨rfl, hreference.1, hreference.2, rfl⟩]
      simp

theorem payRenewals_safe (hjob : job ∈ events) (hcall : calls i = .grant job) (product : Product)
    (entries : List (String × ℤ))
    (hlisted : ∀ e ∈ entries, e ∈ listProductGrantsForTrigger job.productId .renewal s₀)
    (hamounts : ∀ e ∈ entries, 0 < e.2 → e.2 = renewalAmount s₀ job e.1) :
    Safe (renewalDiscipline calls s₀ hids) i
      (Prog.forEach entries fun entry =>
        if entry.2 ≤ 0 then pure ()
        else (addCredits .createdAt ((job.grantArgs product).addCreditsArgs entry)).bind
          fun _ => pure ()) ∅ [] h
      fun _ _ _ h => ∀ e ∈ entries, 0 < e.2 → renewalRows h.db job e.1 ≠ [] := by
  induction entries generalizing h with
  | nil => exact fun e he => absurd he List.not_mem_nil
  | cons entry rest ih =>
    have hstep : Safe (renewalDiscipline calls s₀ hids) i
        (if entry.2 ≤ 0 then pure ()
          else (addCredits .createdAt ((job.grantArgs product).addCreditsArgs entry)).bind
            fun _ => pure ()) ∅ [] h
        fun _ held pend h => (held = ∅ ∧ pend = []) ∧
          (0 < entry.2 → renewalRows h.db job entry.1 ≠ []) := by
      split_ifs with hle
      · exact ⟨⟨rfl, rfl⟩, fun hpos => absurd hle (not_le.2 hpos)⟩
      · have hpos : 0 < entry.2 := not_le.1 hle
        have hamount := hamounts entry (List.mem_cons_self ..) hpos
        exact (payRenewal_safe hids hjob hcall product (hlisted entry (List.mem_cons_self ..))
          hamount hpos).bind
          fun _ _ _ _ hpaid => ⟨hpaid.1, fun _ => hpaid.2⟩
    refine hstep.bind fun _ held pend h hfirst => ?_
    obtain ⟨⟨rfl, rfl⟩, hpaid⟩ := hfirst
    have hrest := ih (h := h) (fun e he => hlisted e (List.mem_cons_of_mem _ he))
      fun e he => hamounts e (List.mem_cons_of_mem _ he)
    -- the first currency stays paid while the rest is
    refine (hrest.frame (R := fun h => 0 < entry.2 → renewalRows h.db job entry.1 ≠ [])
      ?_ ?_ hpaid).mono ?_
    · exact fun hrely hrows hpos => renewalRows_ne_nil hrely.1 (hrows hpos)
    · exact fun hrows hpos => renewalRows_ne_nil (creditLedger_grows _ _) (hrows hpos)
    · intro _ _ _ h hboth e he hpos
      obtain rfl | he := List.mem_cons.1 he
      · exact hboth.2 hpos
      · exact hboth.1 e he hpos

theorem renewalAmount_of_grant {product : Product} {cur : String} {grant : ProductCurrencyGrant}
    (htype : job.type ∈ renewalGrantEventTypes)
    (hproduct : findProductById job.projectId job.productId s₀ = some product)
    (hget : s₀.productCurrencyGrants.get? (job.productId, cur) = some grant) :
    renewalAmount s₀ job cur =
      if grantTriggerMatches grant.grantOn .renewal ∧ 0 < grant.amount then grant.amount else 0 := by
  rw [renewalAmount, if_pos ⟨htype, by rw [hproduct]; rfl⟩, hget]

theorem mem_grants_of_renewalAmount {cur : String} (hpos : 0 < renewalAmount s₀ job cur) :
    (cur, renewalAmount s₀ job cur) ∈ listProductGrantsForTrigger job.productId .renewal s₀ := by
  rw [mem_listProductGrants]
  unfold renewalAmount at hpos ⊢
  split_ifs at hpos ⊢ with hjob
  · cases hget : s₀.productCurrencyGrants.get? (job.productId, cur) with
    | none => simp [hget] at hpos
    | some grant =>
      simp only [hget] at hpos ⊢
      split_ifs at hpos ⊢ with hmatch
      · exact ⟨grant, rfl, hmatch.1, rfl⟩
      · exact absurd hpos (lt_irrefl 0)
  · exact absurd hpos (lt_irrefl 0)

theorem runRenewalGrant_safe (hjob : job ∈ events) (hcall : calls i = .grant job) :
    Safe (renewalDiscipline calls s₀ hids) i (runRenewalGrant .createdAt job) ∅ [] h
      fun _ _ _ h => Paid s₀ h.db job := by
  unfold runRenewalGrant
  split_ifs with htype
  swap
  · intro cur hpos
    rw [renewalAmount, if_neg fun hboth => htype hboth.1] at hpos
    exact absurd hpos (lt_irrefl 0)
  refine Safe.bind_iff.2 (Safe.query fun h₁ hi₁ _ => ?_)
  have hfind : findProductById job.projectId job.productId (applyAll h₁.db []) =
      findProductById job.projectId job.productId s₀ := by
    show (h₁.db.products.get? _).filter _ = _
    rw [hi₁.products]
    rfl
  rw [hfind]
  cases hproduct : findProductById job.projectId job.productId s₀ with
  | none =>
    intro cur hpos
    rw [renewalAmount, if_neg fun hboth => by simp [hproduct] at hboth] at hpos
    exact absurd hpos (lt_irrefl 0)
  | some product =>
    refine Safe.bind (Q := fun _ _ _ h => Paid s₀ h.db job) ?_ fun _ _ _ _ hpaid => hpaid
    refine Safe.bind_iff.2 (Safe.query fun h₂ hi₂ _ => ?_)
    have hlist : listProductGrantsForTrigger job.productId .renewal (applyAll h₂.db []) =
        listProductGrantsForTrigger job.productId .renewal s₀ := by
      show ((h₂.db.productCurrencyGrants.entries).filter _).map _ = _
      rw [hi₂.grants]
      rfl
    have hamounts : ∀ e ∈ listProductGrantsForTrigger job.productId .renewal s₀, 0 < e.2 →
        e.2 = renewalAmount s₀ job e.1 := by
      intro e he hpos
      obtain ⟨grant, hget, htrigger, hamount⟩ := mem_listProductGrants.1 he
      rw [hamount] at hpos
      rw [renewalAmount_of_grant htype hproduct hget, if_pos ⟨htrigger, hpos⟩, hamount]
    have hpay := payRenewals_safe hids (i := i) (h := h₂) hjob hcall product _
      (fun _ he => he) hamounts
    rw [← hlist] at hpay
    refine hpay.mono fun _ _ _ h hall cur hpos => ?_
    exact hall _ (by rw [hlist]; exact mem_grants_of_renewalAmount hpos) hpos

end Calls

section Runs
variable {calls : ι → RenewalCall} {s₀ : Db} {events : Finset RenewalGrantJob}

theorem renewalCall_safe (hids : ∀ a ∈ events, ∀ b ∈ events,
      a.revenueEventId = b.revenueEventId → a = b)
    (hcalls : ∀ i job, calls i = .grant job → job ∈ events) (i : ι) (h : History ι Db Write) :
    Safe (renewalDiscipline calls s₀ hids) i ((calls i).run .createdAt) ∅ [] h
      fun _ _ _ h => ∀ job, calls i = .grant job → Paid s₀ h.db job := by
  cases hcall : calls i with
  | grant job =>
    refine (runRenewalGrant_safe hids (hcalls i job hcall) hcall).bind fun _ _ _ _ hpaid => ?_
    intro job' hsame
    obtain rfl := RenewalCall.grant.inj hsame
    exact hpaid
  | transfer p a b =>
    have hm : AllowsMerges (renewalDiscipline calls s₀ hids) .createdAt s₀ i p
        (transferKeys p a b) fun x y s => x ≠ y ∧ Present s y := by
      apply allowsMerges_renewal <;> rw [hcall] <;> rfl
    refine (transferSubscriber_safe hm ?_).bind fun _ _ _ _ _ _ hsame => nomatch hsame
    intro held h₁ h₂ source target hkeys _ hr _ hsource _ htarget halive hlabels
    have hsame : h₂.db.subscribers = h₁.db.subscribers := by
      refine hr.2.2.2 ?_ ?_ <;> rw [hcall]
      · rfl
      · exact hkeys
    obtain ⟨hget, hlabel⟩ := findSubscriberByAppUserId_some hsource
    obtain ⟨hget', hlabel'⟩ := findSubscriberByAppUserId_some htarget
    refine ⟨fun hid => hlabels ?_, target.2, hget', halive⟩
    -- one row has one label
    rw [hsame, ← hid, hget] at hget'
    rw [← Option.some.inj hget', hlabel] at hlabel'
    exact Option.some.inj hlabel'
  | bind p r a =>
    have hm : AllowsMerges (renewalDiscipline calls s₀ hids) .createdAt s₀ i p
        (bindKeys p r a) fun x y s => x ≠ y ∧ Present s y := by
      apply allowsMerges_renewal <;> rw [hcall] <;> rfl
    refine (bindAppUserId_safe hm ?_).bind fun _ _ _ _ _ _ hsame => nomatch hsame
    intro held h₁ h₂ other x hkeys hpresent hr _ _ _ hne
    have hsame : h₂.db.subscribers = h₁.db.subscribers := by
      refine hr.2.2.2 ?_ ?_ <;> rw [hcall]
      · rfl
      · exact hkeys
    refine ⟨hne, ?_⟩
    rw [Present, hsame]
    exact hpresent

theorem renewalInv_init (hledger : s₀.creditLedger = []) (hdeleted : MergedDeleted s₀) :
    RenewalInv s₀ events s₀ := by
  have hbalance : ∀ order sub cur, balance order s₀ sub cur = 0 := by
    intro order sub cur
    by_contra hne
    obtain ⟨r, hr, -⟩ := exists_row_of_balance hne
    rw [hledger] at hr
    cases hr
  have hrows : ∀ job cur, renewalRows s₀ job cur = [] := by
    intro job cur
    rw [renewalRows, hledger]
    rfl
  constructor
  · exact fun _ => rfl
  · rfl
  · rfl
  · exact fun sub cur => by rw [hbalance, hbalance]
  · intro p cur
    simp [totalCredits, hbalance, paidFor, hrows]
  · exact fun job _ cur => .inl (hrows job cur)
  · exact fun id _ cur => hbalance _ id cur
  · exact fun sub cur => (hbalance _ sub cur).ge
  · exact hdeleted

theorem PaidOnce.paidFor {s : Db} {job : RenewalGrantJob} {cur : String}
    (h : PaidOnce s₀ s job cur) (hpaid : Paid s₀ s job) :
    paidFor s job cur = renewalAmount s₀ job cur := by
  obtain hnone | ⟨r, hrows, hamount, -⟩ := h
  · have hnot : ¬0 < renewalAmount s₀ job cur := fun hpos => hpaid cur hpos hnone
    have hnonneg : 0 ≤ renewalAmount s₀ job cur := by
      unfold renewalAmount
      split
      · split
        · split_ifs with hmatch
          · exact hmatch.2.le
          · exact le_rfl
        · exact le_rfl
      · exact le_rfl
    rw [Rovenue.paidFor, hnone, List.map_nil, List.sum_nil]
    omega
  · rw [Rovenue.paidFor, hrows, List.map_singleton, List.sum_singleton, hamount]

theorem RenewalInv.liveCredits {s : Db} (h : RenewalInv s₀ events s) (p cur : String) :
    liveCredits s p cur = totalCredits s p cur := by
  unfold Rovenue.liveCredits totalCredits
  congr 1
  refine List.map_congr_left fun e he => ?_
  rw [h.agrees]
  by_cases hp : e.2.projectId = p
  · cases hmerged : e.2.mergedInto with
    | none => simp [hp]
    | some into =>
      have hrow := s.subscribers.mem_entries.1 (show (e.1, e.2) ∈ s.subscribers.entries from he)
      have haway : MergedAway s e.1 := by
        rw [MergedAway, hrow]
        simp [hmerged]
      simp [h.merged e.1 haway]
  · simp [hp]

/-- Where commits keep the order of their wallets, jobs commit before their subscribers are merged
away, and no merge commits into a job of its project, or a job into a merge, the events whose jobs
are done have each been paid to the living, once. -/
theorem renewalsPaid_of_inTurn [DecidableEq ι] (s₀ : Db) (t : ℤ)
    (calls : ι → RenewalCall) (events : Finset RenewalGrantJob) (evs : List (Event ι String))
    (hids : ∀ a ∈ events, ∀ b ∈ events, a.revenueEventId = b.revenueEventId → a = b)
    (hcalls : ∀ i job, calls i = .grant job → job ∈ events) (hledger : s₀.creditLedger = [])
    (hdeleted : MergedDeleted s₀)
    (hturn : ∀ x ∈ (renewalWorld s₀ t calls).transitions evs, InTurn s₀ calls x.1 x.2)
    (hdone : ∀ job ∈ events, ∃ i, calls i = .grant job ∧
      (((renewalWorld s₀ t calls).runAll evs).client i).prog = .done ()) :
    RenewalsPaid s₀ events ((renewalWorld s₀ t calls).runAll evs).hist.db := by
  have hsafe : (renewalWorld s₀ t calls).SafeTo (renewalDiscipline calls s₀ hids)
      fun i h => ∀ job, calls i = .grant job → Paid s₀ h.db job := by
    refine .init (renewalInv_init hledger hdeleted) (fun i => renewalCall_safe hids hcalls i _) ?_
    intro i held h h' hrely hpaid job hjob cur hpos
    exact renewalRows_ne_nil hrely.1 (hpaid job hjob cur hpos)
  have hcond : ∀ c ∈ (renewalWorld s₀ t calls).commits evs,
      InOrder c.before.db c.writes ∧ (calls c.client).PaysTheLiving c.before.db c.writes := by
    intro c hc
    obtain ⟨x, hx, hcommit⟩ := World.mem_commits.1 hc
    exact ⟨(hturn x hx).ordered c hcommit, (hturn x hx).living c hcommit⟩
  have hend := hsafe.runAll hcond fun x hx c hc j hj hself hother =>
    (hturn x hx).apart c hc hself j hj hother
  have hinv : RenewalInv s₀ events ((renewalWorld s₀ t calls).runAll evs).hist.db := hend.inv
  constructor
  · intro p cur
    rw [hinv.liveCredits, hinv.total, renewalsOwed]
    refine Finset.sum_congr rfl fun job hjob => ?_
    obtain ⟨i, hcall, hprog⟩ := hdone job hjob
    rw [(hinv.once job hjob cur).paidFor (hend.done hprog job hcall)]
  · intro id hmerged cur
    rw [hinv.agrees]
    exact hinv.merged id hmerged cur

end Runs

def renewedDb : Db where
  subscribers := (Table.empty.insert "s1"
      { projectId := "p1", rovenueId := "r1", appUserId := some "ann" }).insert "s2"
    { projectId := "p1", rovenueId := "r2", appUserId := some "bob" }
  products := Table.empty.insert "plan" { projectId := "p1", identifier := "plan" }
  productCurrencyGrants := Table.empty.insert ("plan", "gold")
    { amount := 10, grantOn := .renewal }

def renewedJob : RenewalGrantJob where
  revenueEventId := "re1"
  projectId := "p1"
  subscriberId := "s1"
  productId := "plan"
  type := .renewal
  named := by decide

inductive RenewalClient where
  | granting | merging
  deriving DecidableEq

instance : Fintype RenewalClient where
  elems := {.granting, .merging}
  complete client := by cases client <;> decide

def renewedCalls : RenewalClient → RenewalCall
  | .granting => .grant renewedJob
  | .merging => .transfer "p1" "ann" "bob"

def grantWhole : List (Event RenewalClient String) :=
  List.replicate 7 (.run .granting) ++ [.draw .granting "c1", .run .granting, .run .granting]

def mergeEmpty : List (Event RenewalClient String) := List.replicate 19 (.run .merging)

def mergeCredits : List (Event RenewalClient String) :=
  List.replicate 10 (.run .merging) ++ [.draw .merging "c2", .run .merging, .run .merging,
    .draw .merging "c3"] ++ List.replicate 10 (.run .merging)

/-- Both calls end well, and the ten credits sit on the subscriber that was merged away. -/
theorem renewal_reaches_merged_subscriber :
    let w := (renewalWorld renewedDb 0 renewedCalls).runAll (mergeEmpty ++ grantWhole)
    (∀ client, (w.client client).prog = .done ()) ∧ MergedAway w.hist.db "s1" ∧
      balance .createdAt w.hist.db "s1" "gold" = 10 ∧
        ¬RenewalsPaid renewedDb {renewedJob} w.hist.db := by
  have hdone : ∀ client, (((renewalWorld renewedDb 0 renewedCalls).runAll
      (mergeEmpty ++ grantWhole)).client client).prog = .done () := by
    intro client
    cases client <;> rfl
  have hmerged : MergedAway ((renewalWorld renewedDb 0 renewedCalls).runAll
      (mergeEmpty ++ grantWhole)).hist.db "s1" := by decide
  have hbalance : balance .createdAt ((renewalWorld renewedDb 0 renewedCalls).runAll
      (mergeEmpty ++ grantWhole)).hist.db "s1" "gold" = 10 := by decide
  refine ⟨hdone, hmerged, hbalance, fun hpaid => ?_⟩
  have hzero := hpaid.2 "s1" hmerged "gold"
  rw [hbalance] at hzero
  cases hzero

theorem renewalsPaid_of_inTurn_merge :
    RenewalsPaid renewedDb {renewedJob}
      ((renewalWorld renewedDb 0 renewedCalls).runAll (grantWhole ++ mergeCredits)).hist.db := by
  refine renewalsPaid_of_inTurn renewedDb 0 renewedCalls {renewedJob} _ ?_ ?_ rfl ?_
    (by decide) ?_
  · intro a ha b hb _
    rw [Finset.mem_singleton.1 ha, Finset.mem_singleton.1 hb]
  · intro client job hcall
    cases client with
    | granting =>
      obtain rfl := RenewalCall.grant.inj hcall
      exact Finset.mem_singleton_self _
    | merging => cases hcall
  · intro id haway
    have hnone : ∀ e ∈ renewedDb.subscribers.entries, e.2.mergedInto = none := by decide
    cases hget : renewedDb.subscribers.get? id with
    | none => simp [MergedAway, hget] at haway
    | some row =>
      rw [MergedAway, hget, Option.any_some,
        hnone _ (renewedDb.subscribers.mem_entries.2 hget)] at haway
      cases haway
  · intro job hjob
    rw [Finset.mem_singleton.1 hjob]
    exact ⟨.granting, rfl, rfl⟩

end Rovenue
