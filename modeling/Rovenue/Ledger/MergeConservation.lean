import Rovenue.Ledger.SubscriberTransfer
import Rovenue.Ledger.WalletConservation

/-! Credits per project and currency, and what a list of writes does to them: rows that continue
their wallets add their amounts, and those of a merge cancel out. -/

namespace Rovenue
open Txn

def totalCredits (s : Db) (projectId currencyId : String) : ℤ :=
  (s.subscribers.entries.map fun e =>
    if e.2.projectId = projectId then balance .committed s e.1 currencyId else 0).sum

def ContinuesAt (s : Db) : Write → Prop
  -- an appended row was computed from its wallet's balance in `s`
  | .insertCreditLedger found row =>
    found = balance .committed s row.subscriberId row.currencyId
  | _ => True

def Continues (s : Db) : List Write → Prop
  -- each appended row was computed from the balance its wallet has when the row is committed, the
  -- transaction's own earlier rows included
  | [] => True
  | w :: ws => ContinuesAt s w ∧ Continues (s.write w) ws

theorem committed_balance_insert (s : Db) (found : ℤ) (row : CreditLedgerRow) (sub cur : String) :
    balance .committed (s.write (.insertCreditLedger found row)) sub cur =
      if row.subscriberId = sub ∧ row.currencyId = cur then row.balance
      else balance .committed s sub cur := by
  rw [balance, findLatestBalance, walletRows_insert]
  split_ifs with h
  · simp [LedgerOrder.newest]
  · rfl

theorem Write.Plain.not_onLedger {w : Write} (h : w.Plain) : ¬w.OnLedger := by
  cases w <;> simp_all [Write.Plain, Write.OnLedger]

theorem totalCredits_plain {w : Write} (h : w.Plain) (s : Db) (p cur : String) :
    totalCredits (s.write w) p cur = totalCredits s p cur := by
  have hbal := fun sub => balance_of_creditLedger_eq
    (write_creditLedger s w h.not_onLedger) .committed sub cur
  simp only [totalCredits, hbal]
  cases w with
  | insertCreditLedger found row => exact h.elim
  | insertSubscriber id row => exact h.elim
  | updateSubscriber id set =>
    simp only [Db.write, Table.modify, List.map_map]
    congr 1
    refine List.map_congr_left fun e _ => ?_
    by_cases he : e.1 = id <;> simp [he, SubscriberPatch.apply]
  | _ => rfl

theorem findSubscriberProjectId_plain {w : Write} (h : w.Plain) (s : Db) (id : String) :
    findSubscriberProjectId id (s.write w) = findSubscriberProjectId id s := by
  cases w with
  | insertSubscriber id row => exact h.elim
  | updateSubscriber id' set =>
    simp only [findSubscriberProjectId, Db.write, Table.get?_modify]
    split_ifs
    · rw [Option.map_map]
      rfl
    · rfl
  | _ => rfl

theorem totalCredits_insert {s : Db} {found : ℤ} {row : CreditLedgerRow}
    (hproj : findSubscriberProjectId row.subscriberId s = some row.projectId) (p cur : String) :
    totalCredits (s.write (.insertCreditLedger found row)) p cur = totalCredits s p cur +
      if row.projectId = p ∧ row.currencyId = cur then
        row.balance - balance .committed s row.subscriberId row.currencyId else 0 := by
  obtain ⟨r, hr, hrp⟩ := Option.map_eq_some_iff.1 hproj
  -- the row's own wallet is one entry of the sum; every other entry keeps its balance
  have hentry : ∀ e ∈ s.subscribers.entries,
      (if e.2.projectId = p then
        balance .committed (s.write (.insertCreditLedger found row)) e.1 cur else 0) =
      (if e.2.projectId = p then balance .committed s e.1 cur else 0) +
        if e.1 = row.subscriberId then
          if row.projectId = p ∧ row.currencyId = cur then
            row.balance - balance .committed s row.subscriberId row.currencyId else 0
        else 0 := by
    intro e he
    rw [committed_balance_insert]
    by_cases hid : e.1 = row.subscriberId
    · have her : e.2 = r := by
        have := s.subscribers.mem_entries.1 (show (e.1, e.2) ∈ s.subscribers.entries from he)
        rw [hid, hr] at this
        exact (Option.some.inj this).symm
      rw [her, hrp, hid]
      by_cases hp : row.projectId = p <;> by_cases hc : row.currencyId = cur <;> simp [hp, hc]
    · simp [hid, Ne.symm hid]
  rw [totalCredits, show (s.write (.insertCreditLedger found row)).subscribers = s.subscribers
    from rfl, List.map_congr_left hentry, List.sum_map_add, s.subscribers.sum_map_ite hr,
    totalCredits]

def Write.amountIn (p cur : String) : Write → ℤ
  | .insertCreditLedger _ row => if row.projectId = p ∧ row.currencyId = cur then row.amount else 0
  | _ => 0

def amountsIn (p cur : String) (ws : List Write) : ℤ := (ws.map (Write.amountIn p cur)).sum

def CarriesForward (s₀ : Db) : Write → Prop
  | .insertCreditLedger found row => row.balance = found + row.amount ∧
      findSubscriberProjectId row.subscriberId s₀ = some row.projectId
  | w => w.Plain

theorem Write.Plain.carriesForward {w : Write} (h : w.Plain) (s₀ : Db) : CarriesForward s₀ w := by
  cases w <;> first | exact h.elim | trivial

theorem CarriesForward.plain {s₀ : Db} {w : Write} (h : CarriesForward s₀ w)
    (hl : ¬w.OnLedger) : w.Plain := by
  cases w <;> first | exact h | exact absurd trivial hl

theorem Write.Plain.amountIn {w : Write} (h : w.Plain) (p cur : String) : w.amountIn p cur = 0 := by
  cases w <;> first | exact h.elim | rfl

theorem CarriesForward.projectId {s₀ : Db} {w : Write} (h : CarriesForward s₀ w) (s : Db)
    (id : String) : findSubscriberProjectId id (s.write w) = findSubscriberProjectId id s := by
  by_cases hl : w.OnLedger
  · cases w <;> first | rfl | exact hl.elim
  · exact findSubscriberProjectId_plain (h.plain hl) s id

theorem applyAll_projectId {s₀ : Db} {ws : List Write} (hws : ∀ w ∈ ws, CarriesForward s₀ w)
    (s : Db) (id : String) :
    findSubscriberProjectId id (applyAll s ws) = findSubscriberProjectId id s :=
  applyAll_congr (findSubscriberProjectId id) (fun w hw s => (hws w hw).projectId s id) s

theorem totalCredits_applyAll {s₀ s : Db} {ws : List Write}
    (hproj : ∀ id, findSubscriberProjectId id s = findSubscriberProjectId id s₀)
    (hws : ∀ w ∈ ws, CarriesForward s₀ w) (hcont : Continues s ws) (p cur : String) :
    totalCredits (applyAll s ws) p cur = totalCredits s p cur + amountsIn p cur ws := by
  induction ws generalizing s with
  | nil => simp [amountsIn]
  | cons w ws ih =>
    have hw := hws w (by simp)
    have hrest : ∀ w ∈ ws, CarriesForward s₀ w := fun v hv => hws v (by simp [hv])
    obtain ⟨hfound, hrow⟩ := hcont
    rw [applyAll_cons, apply_eq, ih (fun id => (hw.projectId s id).trans (hproj id)) hrest hrow]
    by_cases hplain : w.Plain
    · rw [totalCredits_plain hplain]
      simp [amountsIn, hplain.amountIn]
    · cases w with
      | insertCreditLedger found row =>
        obtain ⟨hbal, hsub⟩ := hw
        rw [totalCredits_insert ((hproj _).trans hsub), hbal,
          show found = balance .committed s row.subscriberId row.currencyId from hfound]
        simp only [amountsIn, List.map_cons, List.sum_cons, Write.amountIn, add_sub_cancel_left,
          add_assoc]
      | _ => exact absurd hw hplain

section Merges
variable {s₀ : Db}

def Balanced (s₀ : Db) (ws : List Write) : Prop :=
  (∀ w ∈ ws, CarriesForward s₀ w) ∧ ∀ p cur, amountsIn p cur ws = 0

theorem balanced_of_plain {ws : List Write} (h : ∀ w ∈ ws, w.Plain) : Balanced s₀ ws := by
  refine ⟨fun w hw => (h w hw).carriesForward s₀, fun p cur => ?_⟩
  rw [amountsIn, List.map_congr_left fun w hw => (h w hw).amountIn p cur]
  simp

theorem Balanced.append {ws vs : List Write} (hw : Balanced s₀ ws) (hv : Balanced s₀ vs) :
    Balanced s₀ (ws ++ vs) := by
  refine ⟨fun w h => ?_, fun p cur => ?_⟩
  · obtain h | h := List.mem_append.1 h
    · exact hw.1 w h
    · exact hv.1 w h
  · have h₁ := hw.2 p cur
    have h₂ := hv.2 p cur
    unfold amountsIn at h₁ h₂ ⊢
    rw [List.map_append, List.sum_append, h₁, h₂, add_zero]

theorem amountsIn_row {found : ℤ} {row : CreditLedgerRow} (p cur : String) :
    amountsIn p cur [.insertCreditLedger found row] =
      if row.projectId = p ∧ row.currencyId = cur then row.amount else 0 := by
  simp [amountsIn, Write.amountIn]

def Write.IsTransfer : Write → Prop
  | .insertCreditLedger _ row =>
    row.referenceType = some "transfer" ∧ (row.balance = 0 ∨ 0 < row.amount)
  | _ => True

def Transfers (s₀ : Db) (ws : List Write) : Prop :=
  Balanced s₀ ws ∧ ∀ w ∈ ws, w.IsTransfer

theorem transfers_of_plain {ws : List Write} (h : ∀ w ∈ ws, w.Plain) :
    Transfers s₀ ws := by
  refine ⟨balanced_of_plain h, fun w hw => ?_⟩
  have hplain := h w hw
  cases w <;> first | exact hplain.elim | trivial

theorem Transfers.append {ws vs : List Write} (hw : Transfers s₀ ws)
    (hv : Transfers s₀ vs) : Transfers s₀ (ws ++ vs) :=
  ⟨hw.1.append hv.1, fun w h => (List.mem_append.1 h).elim (hw.2 w) (hv.2 w)⟩

end Merges
end Rovenue
