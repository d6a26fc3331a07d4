import Rovenue.Ledger.RenewalGrant

/-! Whether renewal credits reach the living. A job keeps the subscriber id of its message, the
dedupe looks at that wallet alone, and nothing asks whether the subscriber was merged away. -/

namespace Rovenue
open Txn

def renewalRows (s : Db) (job : RenewalGrantJob) (currencyId : String) : List CreditLedgerRow :=
  s.creditLedger.filter fun r => r.subscriberId = job.subscriberId ∧
    r.referenceType = some "renewal" ∧ r.referenceId = some job.revenueEventId ∧
      r.currencyId = currencyId

def paidFor (s : Db) (job : RenewalGrantJob) (currencyId : String) : ℤ :=
  ((renewalRows s job currencyId).map CreditLedgerRow.amount).sum

def PaidOnce (s₀ s : Db) (job : RenewalGrantJob) (currencyId : String) : Prop :=
  renewalRows s job currencyId = [] ∨ ∃ r, renewalRows s job currencyId = [r] ∧
    r.amount = renewalAmount s₀ job currencyId ∧ 0 < r.amount

def Solvent (s : Db) : Prop := ∀ sub cur, 0 ≤ balance .committed s sub cur

/-- Whoever is merged away is deleted. -/
def MergedDeleted (s : Db) : Prop := ∀ id, MergedAway s id → ¬Present s id

structure RenewalInv (s₀ : Db) (events : Finset RenewalGrantJob) (s : Db) : Prop where
  projects : ∀ id, findSubscriberProjectId id s = findSubscriberProjectId id s₀
  products : s.products = s₀.products
  grants : s.productCurrencyGrants = s₀.productCurrencyGrants
  agrees : LedgerOrder.createdAt.Agrees s
  total : ∀ p cur, totalCredits s p cur = ∑ job ∈ events,
    if findSubscriberProjectId job.subscriberId s₀ = some p then paidFor s job cur else 0
  once : ∀ job ∈ events, ∀ cur, PaidOnce s₀ s job cur
  merged : ∀ id, MergedAway s id → ∀ cur, balance .committed s id cur = 0
  solvent : Solvent s
  deleted : MergedDeleted s

section Ledger
variable {s : Db} {w : Write} {ws : List Write}

theorem creditLedger_grows (s : Db) (ws : List Write) :
    s.creditLedger <+: (applyAll s ws).creditLedger := by
  induction ws generalizing s with
  | nil => exact List.prefix_rfl
  | cons w ws ih =>
    refine List.IsPrefix.trans ?_ (ih (s.write w))
    cases w with
    | insertCreditLedger found row => exact List.prefix_append _ _
    | _ => exact List.prefix_rfl

theorem balance_insert_of_ne {order : LedgerOrder} {found : ℤ} {row : CreditLedgerRow}
    {sub cur : String} (h : ¬(row.subscriberId = sub ∧ row.currencyId = cur)) :
    balance order (s.write (.insertCreditLedger found row)) sub cur = balance order s sub cur := by
  rw [balance, findLatestBalance, walletRows_insert, if_neg h, ← findLatestBalance, ← balance]

theorem agrees_write (h : LedgerOrder.createdAt.Agrees s) (hw : SortsLast s w) :
    LedgerOrder.createdAt.Agrees (s.write w) := by
  intro sub cur
  by_cases hl : w.OnLedger
  · cases w with
    | insertCreditLedger found row =>
      by_cases hrow : row.subscriberId = sub ∧ row.currencyId = cur
      · obtain ⟨rfl, rfl⟩ := hrow
        have hlast : ∀ r ∈ walletRows s row.subscriberId row.currencyId, r.Precedes row := hw
        rw [balance_insert, if_pos hlast, committed_balance_insert, if_pos ⟨rfl, rfl⟩]
      · rw [balance_insert_of_ne hrow, balance_insert_of_ne hrow, h sub cur]
    | _ => exact hl.elim
  · have hsame := write_creditLedger s w hl
    rw [balance_of_creditLedger_eq hsame, balance_of_creditLedger_eq hsame, h sub cur]

theorem agrees_applyAll (h : LedgerOrder.createdAt.Agrees s) (hws : InOrder s ws) :
    LedgerOrder.createdAt.Agrees (applyAll s ws) := by
  induction ws generalizing s with
  | nil => exact h
  | cons w ws ih => exact ih (agrees_write h hws.1) hws.2

theorem solvent_applyAll (h : Solvent s)
    (hws : ∀ found row, .insertCreditLedger found row ∈ ws → 0 ≤ row.balance) :
    Solvent (applyAll s ws) := by
  induction ws generalizing s with
  | nil => exact h
  | cons w ws ih =>
    refine ih (fun sub cur => ?_) fun found row hrow => hws found row (List.mem_cons_of_mem w hrow)
    cases w with
    | insertCreditLedger found row =>
      show 0 ≤ balance .committed (s.write (.insertCreditLedger found row)) sub cur
      rw [committed_balance_insert]
      split_ifs
      · exact hws found row (List.mem_cons_self ..)
      · exact h sub cur
    | _ => exact h sub cur

theorem balance_applyAll_zero {sub cur : String} (h : balance .committed s sub cur = 0)
    (hrows : ∀ found row, .insertCreditLedger found row ∈ ws →
      row.subscriberId = sub → row.balance = 0) :
    balance .committed (applyAll s ws) sub cur = 0 := by
  induction ws generalizing s with
  | nil => exact h
  | cons w ws ih =>
    refine ih ?_ fun found row hrow => hrows found row (List.mem_cons_of_mem w hrow)
    cases w with
    | insertCreditLedger found row =>
      show balance .committed (s.write (.insertCreditLedger found row)) sub cur = 0
      rw [committed_balance_insert]
      split_ifs with hwallet
      · exact hrows found row (List.mem_cons_self ..) hwallet.1
      · exact h
    | _ => exact h

theorem exists_row_of_balance {order : LedgerOrder} {sub cur : String}
    (h : balance order s sub cur ≠ 0) :
    ∃ r ∈ s.creditLedger, r.subscriberId = sub ∧ r.currencyId = cur := by
  by_contra hnone
  push Not at hnone
  have hempty : walletRows s sub cur = [] :=
    List.filter_eq_nil_iff.2 fun r hr => by simpa using hnone r hr
  apply h
  rw [balance, findLatestBalance, hempty]
  cases order <;> rfl

end Ledger

section Merges
variable {s₀ s : Db} {ws : List Write} {events : Finset RenewalGrantJob}

theorem mergedAway_applyAll (hws : ∀ w ∈ ws, CarriesForward s₀ w) {id : String}
    (h : MergedAway (applyAll s ws) id) :
    MergedAway s id ∨ ∃ w ∈ ws, w.MarksMerged id := by
  induction ws generalizing s with
  | nil => exact .inl h
  | cons w ws ih =>
    obtain hbefore | ⟨v, hv, hmarks⟩ := ih (fun v hv => hws v (List.mem_cons_of_mem w hv)) h
    · by_cases hw : w.MarksMerged id
      · exact .inr ⟨w, List.mem_cons_self .., hw⟩
      · left
        cases w with
        | updateSubscriber id' set =>
          have hrow : ((s.subscribers.modify id' set.apply).get? id).any
              fun r => r.mergedInto.isSome := hbefore
          rw [Table.get?_modify] at hrow
          unfold MergedAway
          split_ifs at hrow with hid
          · cases hget : s.subscribers.get? id with
            | none => simp [hget] at hrow
            | some r =>
              have hset : ¬set.mergedInto.isSome = true := fun hset => hw ⟨hid.symm, hset⟩
              simp only [Option.not_isSome_iff_eq_none] at hset
              simpa [hget, SubscriberPatch.apply, hset] using hrow
          · exact hrow
        | insertSubscriber id' row => exact (hws _ (List.mem_cons_self ..)).elim
        | _ => exact hbefore
    · exact .inr ⟨v, List.mem_cons_of_mem w hv, hmarks⟩

theorem renewalRows_transfers (hws : ∀ w ∈ ws, w.IsTransfer) (s : Db) (job : RenewalGrantJob)
    (cur : String) : renewalRows (applyAll s ws) job cur = renewalRows s job cur := by
  refine applyAll_congr (fun s => renewalRows s job cur) (fun w hw s => ?_) s
  have htransfer := hws w hw
  cases w with
  | insertCreditLedger found row =>
    show (s.creditLedger ++ [row]).filter _ = _
    rw [List.filter_append]
    simp [renewalRows, htransfer.1]
  | _ => rfl

theorem mergedDeleted_applyAll (h : MergedDeleted s) (hws : ∀ w ∈ ws, CarriesForward s₀ w)
    (hdies : ∀ id set, .updateSubscriber id set ∈ ws → set.mergedInto.isSome = true →
      set.deletedAt.isSome = true) : MergedDeleted (applyAll s ws) := by
  induction ws generalizing s with
  | nil => exact h
  | cons w ws ih =>
    refine ih ?_ (fun v hv => hws v (List.mem_cons_of_mem w hv))
      fun id set hmem => hdies id set (List.mem_cons_of_mem w hmem)
    have hdies := hdies
    cases w with
    | updateSubscriber id' set =>
      intro id hmerged hpresent
      obtain ⟨row', hget', halive⟩ := hpresent
      change (s.subscribers.modify id' set.apply).get? id = some row' at hget'
      have hmerged' : ((s.subscribers.modify id' set.apply).get? id).any
          fun r => r.mergedInto.isSome := hmerged
      rw [hget', Option.any_some] at hmerged'
      rw [Table.get?_modify] at hget'
      split_ifs at hget' with hid
      · obtain ⟨row, hget, rfl⟩ := Option.map_eq_some_iff.1 hget'
        have hset := hdies id' set (List.mem_cons_self ..)
        have hbefore := h id
        rw [MergedAway, Present, hget] at hbefore
        cases hinto : set.mergedInto <;> cases hat : set.deletedAt <;>
          simp_all [SubscriberPatch.apply]
      · refine h id ?_ ⟨row', hget', halive⟩
        rw [MergedAway, hget']
        exact hmerged'
    | insertSubscriber id row => exact (hws _ (List.mem_cons_self ..)).elim
    | _ => exact h

structure MergeCommit (s₀ s : Db) (projectId : String) (ws : List Write) : Prop where
  transfers : Transfers s₀ ws
  continues : Continues s ws
  rows : ∀ found row, .insertCreditLedger found row ∈ ws →
    row.projectId = projectId ∧ 0 ≤ row.balance
  living : ∀ found row, .insertCreditLedger found row ∈ ws → 0 < row.amount →
    Present s row.subscriberId ∧ ∀ w ∈ ws, ¬w.MarksMerged row.subscriberId
  emptied : ∀ id, (∃ w ∈ ws, w.MarksMerged id) →
    ∀ cur, balance .committed (applyAll s ws) id cur ≤ 0
  dies : ∀ id set, .updateSubscriber id set ∈ ws → set.mergedInto.isSome = true →
    set.deletedAt.isSome = true

theorem Handed.commit {projectId x y : String} (h : Handed s₀ s projectId x y ws) (hne : x ≠ y)
    (hpresent : Present s y) : MergeCommit s₀ s projectId ws where
  transfers := h.transfers
  continues := h.continues
  rows found row hrow := ⟨(h.rows found row hrow).1, (h.rows found row hrow).2.1⟩
  living found row hrow hpos := by
    have htarget := (h.rows found row hrow).2.2 hpos
    rw [htarget]
    exact ⟨hpresent, fun w hw hmarks => hne (h.marks w hw y hmarks).symm⟩
  emptied id hmarks cur := by
    obtain ⟨w, hw, hmark⟩ := hmarks
    rw [h.marks w hw id hmark]
    exact h.emptied hne cur
  dies := h.dies

theorem mergeCommit_of_plain {projectId : String} (hplain : ∀ w ∈ ws, w.Plain)
    (hunmarked : ∀ w ∈ ws, ∀ id, ¬w.MarksMerged id) : MergeCommit s₀ s projectId ws where
  transfers := transfers_of_plain hplain
  continues := continues_of_not_onLedger fun w hw => (hplain w hw).not_onLedger
  rows _ _ hrow := (hplain _ hrow).elim
  living _ _ hrow := (hplain _ hrow).elim
  emptied id hmarks := by
    obtain ⟨w, hw, hmark⟩ := hmarks
    exact absurd hmark (hunmarked w hw id)
  dies id _ hw hmarks := absurd ⟨rfl, hmarks⟩ (hunmarked _ hw id)

theorem MergeCommit.merged {projectId : String} (h : MergeCommit s₀ s projectId ws)
    (hinv : RenewalInv s₀ events s) {id : String} (haway : MergedAway (applyAll s ws) id)
    (cur : String) : balance .committed (applyAll s ws) id cur = 0 := by
  obtain hbefore | hmarks := mergedAway_applyAll h.transfers.1.1 haway
  · refine balance_applyAll_zero (hinv.merged id hbefore cur) fun found row hrow hsub => ?_
    obtain hzero | hpos := (h.transfers.2 _ hrow).2
    · exact hzero
    · have hpresent := (h.living found row hrow hpos).1
      rw [hsub] at hpresent
      exact absurd hpresent (hinv.deleted id hbefore)
  · refine le_antisymm (h.emptied id hmarks cur) ?_
    exact solvent_applyAll hinv.solvent (fun found row hrow => (h.rows found row hrow).2) id cur

theorem RenewalInv.transfers {projectId : String} (hinv : RenewalInv s₀ events s)
    (h : MergeCommit s₀ s projectId ws) (hordered : InOrder s ws) :
    RenewalInv s₀ events (applyAll s ws) := by
  have hrows := renewalRows_transfers h.transfers.2 s
  constructor
  · exact fun id => (applyAll_projectId h.transfers.1.1 s id).trans (hinv.projects id)
  · rw [applyAll_products, hinv.products]
  · rw [applyAll_grants, hinv.grants]
  · exact agrees_applyAll hinv.agrees hordered
  · intro p cur
    rw [totalCredits_applyAll hinv.projects h.transfers.1.1 h.continues, h.transfers.1.2,
      add_zero, hinv.total]
    simp only [paidFor, hrows]
  · intro job hjob cur
    rw [PaidOnce, hrows]
    exact hinv.once job hjob cur
  · exact fun id haway cur => h.merged hinv haway cur
  · exact solvent_applyAll hinv.solvent fun found row hrow => (h.rows found row hrow).2
  · exact mergedDeleted_applyAll hinv.deleted h.transfers.1.1 h.dies

end Merges

structure RenewalCommit (s₀ : Db) (job : RenewalGrantJob) (held : Set LockKey) (s : Db)
    (found : ℤ) (row : CreditLedgerRow) : Prop where
  locked : walletKey row.subscriberId row.currencyId ∈ held
  subscriber : row.subscriberId = job.subscriberId
  reference : row.referenceType = some "renewal" ∧ row.referenceId = some job.revenueEventId
  project : findSubscriberProjectId row.subscriberId s₀ = some row.projectId
  amount : row.amount = renewalAmount s₀ job row.currencyId
  positive : 0 < row.amount
  current : found = balance .createdAt s row.subscriberId row.currencyId
  balance : row.balance = found + row.amount
  solvent : 0 ≤ row.balance
  unpaid : renewalRows s job row.currencyId = []

section Grants
variable {s₀ s : Db} {events : Finset RenewalGrantJob} {held : Set LockKey} {found : ℤ}
  {row : CreditLedgerRow} {job : RenewalGrantJob}

theorem renewalRows_insert (job' : RenewalGrantJob) (cur : String) :
    renewalRows (s.write (.insertCreditLedger found row)) job' cur = renewalRows s job' cur ++
      if row.subscriberId = job'.subscriberId ∧ row.referenceType = some "renewal" ∧
        row.referenceId = some job'.revenueEventId ∧ row.currencyId = cur then [row] else [] := by
  show (s.creditLedger ++ [row]).filter _ = _
  rw [List.filter_append, renewalRows, List.filter_cons, List.filter_nil]
  simp only [decide_eq_true_eq]

theorem RenewalCommit.rows (h : RenewalCommit s₀ job held s found row)
    (hids : ∀ a ∈ events, ∀ b ∈ events, a.revenueEventId = b.revenueEventId → a = b)
    (hjob : job ∈ events) {job' : RenewalGrantJob} (hjob' : job' ∈ events) (cur : String) :
    renewalRows (s.write (.insertCreditLedger found row)) job' cur =
      if job' = job ∧ row.currencyId = cur then [row] else renewalRows s job' cur := by
  rw [renewalRows_insert]
  by_cases hsame : job' = job ∧ row.currencyId = cur
  · obtain ⟨rfl, rfl⟩ := hsame
    rw [if_pos ⟨h.subscriber, h.reference.1, h.reference.2, rfl⟩, if_pos ⟨rfl, rfl⟩, h.unpaid,
      List.nil_append]
  · rw [if_neg hsame, if_neg, List.append_nil]
    intro hmatch
    obtain ⟨-, -, hid, hcur⟩ := hmatch
    rw [h.reference.2] at hid
    exact hsame ⟨hids job' hjob' job hjob (Option.some.inj hid).symm, hcur⟩

theorem RenewalInv.grant (hinv : RenewalInv s₀ events s)
    (hids : ∀ a ∈ events, ∀ b ∈ events, a.revenueEventId = b.revenueEventId → a = b)
    (hjob : job ∈ events) (h : RenewalCommit s₀ job held s found row)
    (hlast : SortsLast s (.insertCreditLedger found row))
    (hliving : ¬MergedAway s row.subscriberId) :
    RenewalInv s₀ events (s.write (.insertCreditLedger found row)) := by
  have hrows : ∀ job' ∈ events, ∀ cur, renewalRows (s.write (.insertCreditLedger found row)) job'
      cur = if job' = job ∧ row.currencyId = cur then [row] else renewalRows s job' cur :=
    fun job' hjob' cur => h.rows hids hjob hjob' cur
  constructor
  · exact hinv.projects
  · exact hinv.products
  · exact hinv.grants
  · exact agrees_write hinv.agrees hlast
  · intro p cur
    have hfound : found = balance .committed s row.subscriberId row.currencyId :=
      h.current.trans (hinv.agrees _ _)
    have hproject : findSubscriberProjectId row.subscriberId s = some row.projectId :=
      (hinv.projects _).trans h.project
    rw [totalCredits_insert hproject, hinv.total, h.balance, ← hfound, add_sub_cancel_left]
    -- only the event's own entry of the sum changes, by the row's amount
    have hentry : ∀ job' ∈ events,
        (if findSubscriberProjectId job'.subscriberId s₀ = some p then
          paidFor (s.write (.insertCreditLedger found row)) job' cur else 0) =
        (if findSubscriberProjectId job'.subscriberId s₀ = some p then
          paidFor s job' cur else 0) +
        if job' = job then
          if row.projectId = p ∧ row.currencyId = cur then row.amount else 0
        else 0 := by
      intro job' hjob'
      rw [paidFor, paidFor, hrows job' hjob']
      by_cases hsame : job' = job
      · subst hsame
        have hsub := h.project
        rw [h.subscriber] at hsub
        rw [hsub]
        by_cases hcur : row.currencyId = cur
        · subst hcur
          by_cases hp : row.projectId = p <;> simp [hp, h.unpaid]
        · simp [hcur]
      · simp [hsame]
    rw [Finset.sum_congr rfl hentry, Finset.sum_add_distrib, Finset.sum_ite_eq' events job,
      if_pos hjob]
  · intro job' hjob' cur
    rw [PaidOnce, hrows job' hjob']
    split_ifs with hsame
    · obtain ⟨rfl, rfl⟩ := hsame
      exact .inr ⟨row, rfl, h.amount, h.positive⟩
    · exact hinv.once job' hjob' cur
  · intro id hmerged cur
    have hne : ¬(row.subscriberId = id ∧ row.currencyId = cur) := by
      intro hsame
      rw [hsame.1] at hliving
      exact hliving hmerged
    rw [balance_insert_of_ne hne]
    exact hinv.merged id hmerged cur
  · have hws : ∀ found' row', Write.insertCreditLedger found' row' ∈
        [Write.insertCreditLedger found row] → 0 ≤ row'.balance := by
      intro found' row' hmem
      obtain ⟨-, rfl⟩ := Write.insertCreditLedger.inj (List.mem_singleton.1 hmem)
      exact h.solvent
    exact solvent_applyAll hinv.solvent hws
  · exact hinv.deleted

end Grants

end Rovenue
