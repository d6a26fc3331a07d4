import Rovenue.Ledger.PurchaseCredits

/-! How often a purchase's currency grant is paid, over redeliveries, retries
and merges. The dedupe looks at one subscriber's wallet, and a merge moves the
purchase without its ledger rows. -/

namespace Rovenue
open Txn

inductive GrantCall where
  | postProcess (args : PostProcessingArgs)
  | transfer (projectId fromAppUserId toAppUserId : String)
  | bind (projectId rovenueId appUserId : String)

def GrantCall.run (order : LedgerOrder) : GrantCall → Service Unit
  | .postProcess args => runPostProcessing order args
  | .transfer p a b => (transferSubscriber order p a b).bind fun _ => .done ()
  | .bind p r a => (bindAppUserId order p r a).bind fun _ => .done ()

def purchaseGrantRows (s : Db) (purchaseId currencyId : String) : List CreditLedgerRow :=
  s.creditLedger.filter fun r => r.referenceType = some "purchase" ∧
    r.referenceId = some purchaseId ∧ r.currencyId = currencyId

def totalGranted (s : Db) (purchaseId currencyId : String) : ℤ :=
  ((purchaseGrantRows s purchaseId currencyId).map CreditLedgerRow.amount).sum

def configuredGrant (s : Db) (purchaseId currencyId : String) : Option ProductCurrencyGrant :=
  (findPurchaseWithCreditInfo purchaseId s).bind fun purchase =>
    s.productCurrencyGrants.get? (purchase.productId, currencyId)

/-- When a grant for the purchase is committed, nobody else holds one already. -/
def NoOtherHolder (purchaseId currencyId : String) (ws : List Write) (s : Db) : Prop :=
  ∀ found row, .insertCreditLedger found row ∈ ws → row.referenceType = some "purchase" →
    row.referenceId = some purchaseId → row.currencyId = currencyId →
    ∀ r ∈ purchaseGrantRows s purchaseId currencyId, r.subscriberId = row.subscriberId

def Write.Neutral : Write → Prop
  | .insertCreditLedger _ row => row.referenceType ≠ some "purchase"
  | .insertPurchase .. => False
  | .updatePurchase _ _ set => set.productId = none
  | _ => True

theorem Write.OfMerge.neutral {w : Write} (h : w.OfMerge) : w.Neutral := by
  obtain h | ⟨found, row, rfl, hrow⟩ := h
  · cases w with
    | updatePurchase key guard set => obtain ⟨toId, rfl⟩ := h; rfl
    | _ => first | exact h.elim | trivial
  · simp [Write.Neutral, hrow]

theorem configuredGrant_neutral {w : Write} (h : w.Neutral) (s : Db)
    (purchaseId currencyId : String) :
    configuredGrant (s.write w) purchaseId currencyId =
      configuredGrant s purchaseId currencyId := by
  cases w with
  | insertPurchase key row => exact h.elim
  | updatePurchase key guard set =>
    simp only [configuredGrant, findPurchaseWithCreditInfo, Db.write, Table.modify]
    rw [List.find?_map, show ((fun e : PurchaseKey × Purchase => decide (e.2.id = purchaseId)) ∘
      fun e => if e.1 = key then (e.1, guard.patch set e.2) else e) =
        fun e => decide (e.2.id = purchaseId) by
      funext e
      by_cases he : e.1 = key <;> simp [he, StatusGuard.patch_id]]
    cases s.purchases.entries.find? fun e => decide (e.2.id = purchaseId) with
    | none => rfl
    | some e =>
      by_cases he : e.1 = key
      · simp only [Option.map_some, he, if_true, Option.bind_some,
          StatusGuard.patch_productId guard h]
        cases s.products.get? e.2.productId <;> rfl
      · simp only [Option.map_some, he, if_false]
  | _ => rfl

theorem configuredGrant_applyAll {ws : List Write} (h : ∀ w ∈ ws, w.Neutral) (s : Db)
    (purchaseId currencyId : String) :
    configuredGrant (applyAll s ws) purchaseId currencyId =
      configuredGrant s purchaseId currencyId :=
  applyAll_congr (fun s => configuredGrant s purchaseId currencyId)
    (fun w hw s => configuredGrant_neutral (h w hw) s purchaseId currencyId) s

def walletGrants (s : Db) (sub cur : String) : List CreditLedgerRow :=
  (walletRows s sub cur).filter fun r => r.referenceType = some "purchase"

theorem Write.Neutral.filter {w : Write} (h : w.Neutral) (s : Db) :
    (s.write w).creditLedger.filter (fun r => r.referenceType = some "purchase") =
      s.creditLedger.filter fun r => r.referenceType = some "purchase" := by
  cases w with
  | insertCreditLedger found row =>
    simp [Db.write, List.filter_append, show ¬row.referenceType = some "purchase" from h]
  | _ => rfl

theorem applyAll_grants_filter {ws : List Write} (h : ∀ w ∈ ws, w.Neutral) (s : Db) :
    (applyAll s ws).creditLedger.filter (fun r => r.referenceType = some "purchase") =
      s.creditLedger.filter fun r => r.referenceType = some "purchase" :=
  applyAll_congr (fun s : Db => s.creditLedger.filter fun r => r.referenceType = some "purchase")
    (fun w hw s => (h w hw).filter s) s

theorem walletGrants_eq (s : Db) (sub cur : String) : walletGrants s sub cur =
    (s.creditLedger.filter fun r => r.referenceType = some "purchase").filter fun r =>
      r.subscriberId = sub ∧ r.currencyId = cur := by
  rw [walletGrants, walletRows, List.filter_filter, List.filter_filter]
  exact List.filter_congr fun r _ => Bool.and_comm _ _

theorem purchaseGrantRows_eq (s : Db) (purchaseId currencyId : String) :
    purchaseGrantRows s purchaseId currencyId =
      (s.creditLedger.filter fun r => r.referenceType = some "purchase").filter fun r =>
        r.referenceId = some purchaseId ∧ r.currencyId = currencyId := by
  rw [purchaseGrantRows, List.filter_filter]
  exact List.filter_congr fun r _ => by
    simp only [Bool.decide_and]
    exact Bool.and_comm _ _

theorem purchaseGrantRows_insert (s : Db) (found : ℤ) (row : CreditLedgerRow)
    (purchaseId currencyId : String) :
    purchaseGrantRows (s.write (.insertCreditLedger found row)) purchaseId currencyId =
      if row.referenceType = some "purchase" ∧ row.referenceId = some purchaseId ∧
        row.currencyId = currencyId then purchaseGrantRows s purchaseId currencyId ++ [row]
      else purchaseGrantRows s purchaseId currencyId := by
  by_cases h : row.referenceType = some "purchase" ∧ row.referenceId = some purchaseId ∧
      row.currencyId = currencyId <;> simp [purchaseGrantRows, Db.write, List.filter_append, h]

def GrantCommit (s₀ : Db) (held : Set LockKey) (ws : List Write) (s : Db) : Prop :=
  -- under the wallet's lock: one grant, of the configured amount, for a purchase that this wallet
  -- has no grant for
  ∃ found row purchaseId grant, ws = [.insertCreditLedger found row] ∧
    walletKey row.subscriberId row.currencyId ∈ held ∧
    row.referenceType = some "purchase" ∧ row.referenceId = some purchaseId ∧
    configuredGrant s₀ purchaseId row.currencyId = some grant ∧ row.amount = grant.amount ∧
    0 < grant.amount ∧
    ∀ r ∈ walletGrants s row.subscriberId row.currencyId, r.referenceId ≠ some purchaseId

theorem holder_ne {s : Db} {row : CreditLedgerRow} {purchaseId : String}
    (hnone : ∀ r ∈ walletGrants s row.subscriberId row.currencyId,
      r.referenceId ≠ some purchaseId) :
    ∀ r ∈ purchaseGrantRows s purchaseId row.currencyId, r.subscriberId ≠ row.subscriberId := by
  intro r hr hsub
  obtain ⟨hledger, hmatch⟩ := List.mem_filter.1 hr
  obtain ⟨htype, hid, hcur⟩ := of_decide_eq_true hmatch
  refine hnone r (List.mem_filter.2 ⟨List.mem_filter.2 ⟨hledger, ?_⟩, ?_⟩) hid
  · simp [hsub, hcur]
  · simp [htype]

theorem purchaseGrantRows_neutral {ws : List Write} (h : ∀ w ∈ ws, w.Neutral) (s : Db)
    (purchaseId currencyId : String) : purchaseGrantRows (applyAll s ws) purchaseId currencyId =
      purchaseGrantRows s purchaseId currencyId := by
  rw [purchaseGrantRows_eq, applyAll_grants_filter h, ← purchaseGrantRows_eq]

theorem walletGrants_neutral {ws : List Write} (h : ∀ w ∈ ws, w.Neutral) (s : Db)
    (sub cur : String) : walletGrants (applyAll s ws) sub cur = walletGrants s sub cur := by
  rw [walletGrants_eq, applyAll_grants_filter h, ← walletGrants_eq]

def GrantedOnce (purchaseId currencyId : String) (amount : ℤ) (s : Db) : Prop :=
  purchaseGrantRows s purchaseId currencyId = [] ∨
    ∃ r, purchaseGrantRows s purchaseId currencyId = [r] ∧ r.amount = amount

theorem GrantedOnce.total_le {s : Db} {purchaseId currencyId : String} {amount : ℤ}
    (h : GrantedOnce purchaseId currencyId amount s) (hpos : 0 ≤ amount) :
    totalGranted s purchaseId currencyId ≤ amount := by
  obtain h | ⟨r, h, hr⟩ := h
  · simpa [totalGranted, h] using hpos
  · simp [totalGranted, h, hr]

theorem GrantCommit.grantedOnce {s₀ : Db} {held : Set LockKey} {ws : List Write} {s : Db}
    {purchaseId currencyId : String} {grant : ProductCurrencyGrant}
    (hgrant : configuredGrant s₀ purchaseId currencyId = some grant)
    (hws : GrantCommit s₀ held ws s) (hs : GrantedOnce purchaseId currencyId grant.amount s)
    (hcond : NoOtherHolder purchaseId currencyId ws s) :
    GrantedOnce purchaseId currencyId grant.amount (applyAll s ws) := by
  obtain ⟨found, row, p, grant', rfl, -, htype, hid, hconf, hamount, -, hnone⟩ := hws
  by_cases hrow : row.referenceId = some purchaseId ∧ row.currencyId = currencyId
  · obtain ⟨hp, rfl⟩ := hrow
    obtain rfl : p = purchaseId := Option.some.inj (hid.symm.trans hp)
    have hempty : purchaseGrantRows s p row.currencyId = [] :=
      List.eq_nil_iff_forall_not_mem.2 fun r hr =>
        holder_ne hnone r hr (hcond found row (by simp) htype hid rfl r hr)
    obtain rfl : grant = grant' := Option.some.inj (hgrant.symm.trans hconf)
    refine .inr ⟨row, ?_, hamount⟩
    simp [purchaseGrantRows_insert, htype, hid, hempty]
  · have hsame : purchaseGrantRows (applyAll s [.insertCreditLedger found row]) purchaseId
        currencyId = purchaseGrantRows s purchaseId currencyId := by
      rw [applyAll_cons, applyAll_nil, apply_eq, purchaseGrantRows_insert,
        if_neg fun h => hrow h.2]
    rw [GrantedOnce, hsame]
    exact hs

def grantDiscipline (ι : Type) {s₀ : Db} {purchaseId currencyId : String}
    {grant : ProductCurrencyGrant}
    (hgrant : configuredGrant s₀ purchaseId currencyId = some grant) :
    Discipline ι Db LockKey Write where
  inv h := (∀ p c, configuredGrant h.db p c = configuredGrant s₀ p c) ∧
    h.db.productCurrencyGrants = s₀.productCurrencyGrants ∧
    GrantedOnce purchaseId currencyId grant.amount h.db
  rely _ held h h' := ∀ sub cur, walletKey sub cur ∈ held →
    walletGrants h'.db sub cur = walletGrants h.db sub cur
  law _ held ws h := (∀ w ∈ ws, w.Neutral) ∨ GrantCommit s₀ held ws h.db
  cond _ ws h := NoOtherHolder purchaseId currencyId ws h.db
  rely_refl _ _ _ := fun _ _ _ => rfl
  rely_trans h₁ h₂ := fun sub cur hk => (h₂ sub cur hk).trans (h₁ sub cur hk)
  keeps_inv := by
    rintro i held ws h (hws | hws) ⟨hconf, htable, honce⟩ hcond
    · refine ⟨fun p c => (configuredGrant_applyAll hws h.db p c).trans (hconf p c),
        (applyAll_grants h.db ws).trans htable, ?_⟩
      rw [GrantedOnce, History.commit_db, purchaseGrantRows_neutral hws]
      exact honce
    · refine ⟨?_, (applyAll_grants h.db ws).trans htable, hws.grantedOnce hgrant honce hcond⟩
      obtain ⟨found, row, -, -, rfl, -⟩ := hws
      exact hconf
  keeps_rely := by
    rintro i held ws h (hws | ⟨found, row, p, grant, rfl, hheld, -⟩) - - j others - hdisj - sub cur hk
    · exact walletGrants_neutral hws h.db sub cur
    · have hw : ¬(row.subscriberId = sub ∧ row.currencyId = cur) := by
        rintro ⟨rfl, rfl⟩
        exact Set.disjoint_left.1 hdisj hk hheld
      simp [walletGrants, walletRows_insert, hw]

section Calls
variable {ι : Type} {s₀ : Db} {purchaseId currencyId : String} {grant : ProductCurrencyGrant}
  {hgrant : configuredGrant s₀ purchaseId currencyId = some grant} {i : ι}
  {h : History ι Db Write} {order : LedgerOrder}

theorem neutral_append {ws vs : List Write} (hws : ∀ w ∈ ws, w.Neutral)
    (hvs : ∀ w ∈ vs, w.Neutral) : ∀ w ∈ ws ++ vs, w.Neutral :=
  fun w hw => (List.mem_append.1 hw).elim (hws w) (hvs w)

theorem merge_safe {α : Type} {p : Service α} (hp : p.Each fun _ ws => ∀ w ∈ ws, w.OfMerge) :
    Safe (grantDiscipline ι hgrant) i p ∅ [] h fun _ _ _ _ => True :=
  (Safe.of_each (F := fun ws : List Write => ∀ w ∈ ws, w.Neutral) (by simp) neutral_append Or.inl
    (hp.mono fun _ _ hw w hm => (hw w hm).neutral) (by simp)).mono fun _ _ _ _ _ => trivial

theorem syncAccess_idle (subscriberId : String) :
    Safe (grantDiscipline ι hgrant) i (syncAccess subscriberId) ∅ [] h Idle :=
  Safe.transaction_of_each (F := fun ws : List Write => ∀ w ∈ ws, w.Neutral) (by simp)
    neutral_append Or.inl
    ((each_ofMerge (syncAccess_plain subscriberId)).mono fun _ _ hw w hm => (hw w hm).neutral)
    (by simp)

theorem grantCredits_safe {args : GrantProductCurrenciesArgs} {entry : String × ℤ}
    {grant' : ProductCurrencyGrant} (htrigger : args.trigger = .purchase)
    (hset : args.referenceId ≠ "")
    (hconf : configuredGrant s₀ args.referenceId entry.1 = some grant')
    (hamount : entry.2 = grant'.amount) :
    Safe (grantDiscipline ι hgrant) i (addCredits order (args.addCreditsArgs entry)) ∅ [] h Idle := by
  refine addCredits_safe (fun _ => Or.inl (by simp)) ?_
  intro hp hd hb hc projectId id startedAt _ _ _ _ hr₁ hr₂ hpos _ hexisting found _
  refine Or.inr ⟨found, _, args.referenceId, grant', rfl, rfl, ?_, rfl, hconf, hamount,
    hamount ▸ hpos, ?_⟩
  · simp [AddCreditsArgs.entry, CreditLedgerEntry.row, GrantProductCurrenciesArgs.addCreditsArgs,
      htrigger, grantReferenceType]
  · intro r hr hid
    have hsame := (hr₂ _ _ (Set.mem_singleton _)).trans (hr₁ _ _ (Set.mem_singleton _))
    have hrd : r ∈ walletGrants hd.db args.subscriberId entry.1 := hsame ▸ hr
    obtain ⟨hwallet, htype⟩ := List.mem_filter.1 hrd
    have hdedupes : (args.addCreditsArgs entry).dedupes = true := by
      simp [AddCreditsArgs.dedupes, GrantProductCurrenciesArgs.addCreditsArgs, truthy, hset,
        htrigger, grantReferenceType]
    rw [AddCreditsArgs.existing, if_pos hdedupes, List.find?_eq_none] at hexisting
    refine hexisting r hwallet ?_
    simpa [GrantProductCurrenciesArgs.addCreditsArgs, htrigger, grantReferenceType, hid] using htype

theorem runPostProcessing_safe (args : PostProcessingArgs) :
    Safe (grantDiscipline ι hgrant) i (runPostProcessing order args) ∅ [] h
      fun _ _ _ _ => True := by
  refine (syncAccess_idle args.subscriberId).bind ?_
  rintro - held pend h ⟨rfl, rfl⟩
  split_ifs with hpurchase
  swap
  · trivial
  simp only [Bool.and_eq_true] at hpurchase
  have hset : args.purchaseId.getD "" ≠ "" := by
    cases hid : args.purchaseId with
    | none => simp [hid, truthy] at hpurchase
    | some p => simpa [hid, truthy] using hpurchase.1
  generalize args.purchaseId.getD "" = purchaseId' at hset
  refine Safe.bind_iff.2 (Safe.query fun h₁ hi₁ _ => ?_)
  cases hfind : findPurchaseWithCreditInfo purchaseId' (applyAll h₁.db []) with
  | none => trivial
  | some purchase =>
    refine Safe.bind_iff.2 (Safe.query fun h₂ hi₂ _ => ?_)
    refine (Safe.forEach (I := fun held pend _ => held = ∅ ∧ pend = []) _ ?_ ⟨rfl, rfl⟩).mono
      fun _ _ _ _ _ => trivial
    rintro entry hentry held pend h ⟨rfl, rfl⟩
    split_ifs
    · exact ⟨rfl, rfl⟩
    · obtain ⟨grant', hget, -, hamount⟩ := mem_listProductGrants.1 hentry
      have hconf : configuredGrant s₀ purchaseId' entry.1 = some grant' := by
        rw [← hi₁.1, configuredGrant, show findPurchaseWithCreditInfo purchaseId' h₁.db =
          some purchase from hfind, Option.bind_some, hi₁.2.1, ← hi₂.2.1]
        exact hget
      exact (grantCredits_safe rfl hset hconf hamount).bind fun _ _ _ _ hidle => hidle

end Calls

def grantWorld {ι : Type} (order : LedgerOrder) (s : Db) (t : ℤ) (calls : ι → GrantCall) :
    World ι Db LockKey Write String := .init s t fun i => (calls i).run order

/-- From a state with nothing granted for the purchase, the total granted stays
within the configured amount exactly while no grant follows another
subscriber's. `positive` is what the product form requires of an amount. -/
theorem granted_le_iff_noOtherHolder {ι : Type} [DecidableEq ι] (order : LedgerOrder)
    (calls : ι → GrantCall) (s : Db) (t : ℤ) (evs : List (Event ι String))
    (purchaseId currencyId : String) (grant : ProductCurrencyGrant)
    (hgrant : configuredGrant s purchaseId currencyId = some grant) (positive : 0 < grant.amount)
    (hnone : purchaseGrantRows s purchaseId currencyId = []) :
    (∀ h ∈ (grantWorld order s t calls).visited evs,
        totalGranted h.db purchaseId currencyId ≤ grant.amount) ↔
      ∀ c ∈ (grantWorld order s t calls).commits evs,
        NoOtherHolder purchaseId currencyId c.writes c.before.db := by
  have hsafe : (grantWorld order s t calls).Safe (grantDiscipline ι hgrant) := by
    refine .init ⟨fun _ _ => rfl, rfl, .inl hnone⟩ fun i => ?_
    cases calls i with
    | postProcess args => exact runPostProcessing_safe args
    | transfer p a b =>
      exact (merge_safe (transferSubscriber_ofMerge order p a b)).bind fun _ _ _ _ _ => trivial
    | bind p r a =>
      exact (merge_safe (bindAppUserId_ofMerge order p r a)).bind fun _ _ _ _ _ => trivial
  refine hsafe.visited_iff (P := fun h => totalGranted h.db purchaseId currencyId ≤ grant.amount)
    (fun h (hinv : (grantDiscipline ι hgrant).inv h) =>
      GrantedOnce.total_le hinv.2.2 positive.le) ?_
  rintro i held ws h (hws | ⟨found, row, p, grant', rfl, -, -, -, -, hamount, hpos, -⟩) ⟨-, -, honce⟩
    hP found' row' hmem htype hid hcur
  · exact absurd htype (hws _ hmem)
  · obtain ⟨rfl, rfl⟩ : found' = found ∧ row' = row := by simpa using hmem
    obtain hrows | ⟨r, hrows, hr⟩ := honce
    · simp [hrows]
    · simp only [totalGranted, History.commit_db, applyAll_cons, applyAll_nil, apply_eq,
        purchaseGrantRows_insert, htype, hid, hcur, true_and, if_true, hrows, List.cons_append,
        List.nil_append, List.map_cons, List.map_nil, List.sum_cons, List.sum_nil] at hP
      omega

def regrantDb : Db where
  subscribers := (Table.empty.insert "s1"
      { projectId := "p1", rovenueId := "r1", appUserId := some "ann" }).insert "s2"
    { projectId := "p1", rovenueId := "r2", appUserId := some "bob" }
  purchases := Table.empty.insert ⟨.playStore, "token1"⟩
    { id := "pu1", projectId := "p1", subscriberId := "s1", productId := "coins"
      originalTransactionId := "token1", status := .active }
  products := Table.empty.insert "coins" { projectId := "p1", identifier := "coins" }
  productCurrencyGrants := Table.empty.insert ("coins", "gold") { amount := 10 }

def regrantCalls : Fin 3 → GrantCall
  | 0 => .postProcess { subscriberId := "s1", purchaseId := some "pu1" }
  | 1 => .transfer "p1" "ann" "bob"
  | 2 => .postProcess { subscriberId := "s2", purchaseId := some "pu1" }

def runs (i : Fin 3) (n : ℕ) : List (Event (Fin 3) String) := List.replicate n (.run i)

def regrantEvents : List (Event (Fin 3) String) :=
  runs 0 13 ++ [.draw 0 "a"] ++ runs 0 2 ++ runs 1 10 ++ [.draw 1 "out"] ++ runs 1 2 ++
    [.draw 1 "in"] ++ runs 1 10 ++ runs 2 13 ++ [.draw 2 "b"] ++ runs 2 2

theorem merged_purchase_granted_twice :
    let w := grantWorld .createdAt regrantDb 0 regrantCalls
    configuredGrant regrantDb "pu1" "gold" = some { amount := 10 } ∧
      totalGranted (w.runAll regrantEvents).hist.db "pu1" "gold" = 20 ∧
      ¬∀ h ∈ w.visited regrantEvents, totalGranted h.db "pu1" "gold" ≤ 10 := by
  have htotal : totalGranted
      ((grantWorld .createdAt regrantDb 0 regrantCalls).runAll regrantEvents).hist.db
        "pu1" "gold" = 20 := by decide +kernel
  refine ⟨by decide, htotal, fun h => ?_⟩
  have hlast := h _ (World.last_mem_visited _ _)
  omega

theorem granted_le_iff_noOtherHolder_regrant :
    (∀ h ∈ (grantWorld .createdAt regrantDb 0 regrantCalls).visited regrantEvents,
        totalGranted h.db "pu1" "gold" ≤ 10) ↔
      ∀ c ∈ (grantWorld .createdAt regrantDb 0 regrantCalls).commits regrantEvents,
        NoOtherHolder "pu1" "gold" c.writes c.before.db :=
  granted_le_iff_noOtherHolder .createdAt regrantCalls regrantDb 0 regrantEvents "pu1" "gold"
    { amount := 10 } (by decide) (by decide) (by decide)

end Rovenue
