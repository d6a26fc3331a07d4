import Rovenue.Schema

/-! The append-only ledger and the reads that take a wallet's balance from its
newest row. -/

namespace Rovenue
open Txn

def walletKey (subscriberId currencyId : String) : LockKey :=
  .advisory (subscriberId ++ ":" ++ currencyId)

def walletRows (s : Db) (subscriberId currencyId : String) : List CreditLedgerRow :=
  s.creditLedger.filter fun r => r.subscriberId = subscriberId ∧ r.currencyId = currencyId

def CreditLedgerRow.Precedes (a b : CreditLedgerRow) : Prop :=
  a.createdAt < b.createdAt ∨ a.createdAt = b.createdAt ∧ a.id ≤ b.id

instance (a b : CreditLedgerRow) : Decidable (a.Precedes b) :=
  inferInstanceAs (Decidable (_ ∨ _))

theorem CreditLedgerRow.Precedes.trans {a b c : CreditLedgerRow} (hab : a.Precedes b)
    (hbc : b.Precedes c) : a.Precedes c := by
  obtain hab | ⟨hab, hid⟩ := hab <;> obtain hbc | ⟨hbc, hid'⟩ := hbc
  · exact .inl (hab.trans hbc)
  · exact .inl (hbc ▸ hab)
  · exact .inl (hab ▸ hbc)
  · exact .inr ⟨hab.trans hbc, hid.trans hid'⟩

theorem CreditLedgerRow.precedes_of_not {a b : CreditLedgerRow} (h : ¬a.Precedes b) :
    b.Precedes a := by
  simp only [Precedes, not_or, not_and, not_lt, not_le] at h
  obtain hlt | heq := h.1.lt_or_eq
  · exact .inl hlt
  · exact .inr ⟨heq, (h.2 heq.symm).le⟩

/-- The row order a balance read relies on: the columns the query sorts by, or
the order the rows were committed in. -/
inductive LedgerOrder where
  | createdAt | committed

def laterRow (best : Option CreditLedgerRow) (r : CreditLedgerRow) : Option CreditLedgerRow :=
  match best with
  | none => some r
  | some b => if b.Precedes r then some r else some b

def LedgerOrder.newest : LedgerOrder → List CreditLedgerRow → Option CreditLedgerRow
  -- `ORDER BY createdAt DESC, id DESC LIMIT 1`, or the last row committed
  | .createdAt, rows => rows.foldl laterRow none
  | .committed, rows => rows.getLast?

theorem newest_append (rows : List CreditLedgerRow) (r : CreditLedgerRow) :
    LedgerOrder.createdAt.newest (rows ++ [r]) =
      laterRow (LedgerOrder.createdAt.newest rows) r := by
  simp [LedgerOrder.newest]

theorem newest_spec (rows : List CreditLedgerRow) :
    match LedgerOrder.createdAt.newest rows with
    | none => rows = []
    | some b => b ∈ rows ∧ ∀ r ∈ rows, r.Precedes b := by
  induction rows using List.reverseRecOn with
  | nil => rfl
  | append_singleton rows r ih =>
    rw [newest_append]
    cases h : LedgerOrder.createdAt.newest rows with
    | none =>
      rw [h] at ih
      subst ih
      simp [laterRow, CreditLedgerRow.Precedes]
    | some b =>
      rw [h] at ih
      simp only [laterRow]
      split_ifs with hbr
      · refine ⟨by simp, fun x hx => ?_⟩
        obtain hx | hx := List.mem_append.1 hx
        · exact (ih.2 x hx).trans hbr
        · rw [List.mem_singleton.1 hx]
          exact .inr ⟨rfl, le_rfl⟩
      · refine ⟨by simp [ih.1], fun x hx => ?_⟩
        obtain hx | hx := List.mem_append.1 hx
        · exact ih.2 x hx
        · rw [List.mem_singleton.1 hx]
          exact CreditLedgerRow.precedes_of_not hbr

theorem newest_append_eq_some_iff (rows : List CreditLedgerRow) (r : CreditLedgerRow) :
    (∀ x ∈ rows, x.Precedes r) ↔
      ∀ b, LedgerOrder.createdAt.newest rows = some b → b.Precedes r := by
  have hs := newest_spec rows
  constructor
  · intro h b hb
    rw [hb] at hs
    exact h b hs.1
  · intro h x hx
    cases hb : LedgerOrder.createdAt.newest rows with
    | none =>
      rw [hb] at hs
      simp [show rows = [] from hs] at hx
    | some b =>
      rw [hb] at hs
      exact (hs.2 x hx).trans (h b hb)

def findLatestBalance (order : LedgerOrder) (subscriberId currencyId : String) (s : Db) :
    Option ℤ :=
  (order.newest (walletRows s subscriberId currencyId)).map CreditLedgerRow.balance

def balance (order : LedgerOrder) (s : Db) (subscriberId currencyId : String) : ℤ :=
  -- the balance a wallet is read to have; `last?.balance ?? 0`
  (findLatestBalance order subscriberId currencyId s).getD 0

def findAllBalances (order : LedgerOrder) (subscriberId : String) (s : Db) :
    List (String × ℤ) :=
  let currencies := ((s.creditLedger.filter fun r => r.subscriberId = subscriberId).map
    CreditLedgerRow.currencyId).dedup.insertionSort (· ≤ ·)
  currencies.map fun currencyId => (currencyId, balance order s subscriberId currencyId)

theorem mem_findAllBalances {s : Db} {x cur : String} {order : LedgerOrder} :
    cur ∈ (findAllBalances order x s).map Prod.fst ↔ walletRows s x cur ≠ [] := by
  simp only [findAllBalances, List.map_map, List.mem_map, Function.comp_apply,
    List.mem_insertionSort, List.mem_dedup, List.mem_filter, decide_eq_true_eq, exists_eq_right,
    walletRows, ne_eq, List.filter_eq_nil_iff, not_forall, not_not]
  constructor
  · rintro ⟨row, ⟨hrow, hsub⟩, hcur⟩
    exact ⟨row, hrow, hsub, hcur⟩
  · rintro ⟨row, hrow, hsub, hcur⟩
    exact ⟨row, ⟨hrow, hsub⟩, hcur⟩

theorem nodup_findAllBalances (s : Db) (x : String) (order : LedgerOrder) :
    ((findAllBalances order x s).map Prod.fst).Nodup := by
  have hmap : (fun cur : String => ((cur, balance order s x cur) : String × ℤ).1) = id := rfl
  simp only [findAllBalances, List.map_map, Function.comp_def, List.map_id']
  exact (List.perm_insertionSort _ _).nodup_iff.2 (List.nodup_dedup _)

structure CreditLedgerEntry where
  projectId : String
  subscriberId : String
  currencyId : String
  type : CreditLedgerType
  amount : ℤ
  balance : ℤ
  referenceType : Option String := none
  referenceId : Option String := none
  description : Option String := none

def CreditLedgerEntry.row (e : CreditLedgerEntry) (id : String) (createdAt : ℤ) :
    CreditLedgerRow where
  id := id
  projectId := e.projectId
  subscriberId := e.subscriberId
  type := e.type
  currencyId := e.currencyId
  amount := e.amount
  balance := e.balance
  referenceType := e.referenceType
  referenceId := e.referenceId
  description := e.description
  createdAt := createdAt

def int4 (n : ℤ) : Prop := -2147483648 ≤ n ∧ n ≤ 2147483647

instance (n : ℤ) : Decidable (int4 n) := inferInstanceAs (Decidable (_ ∧ _))

def insertCreditLedger (startedAt found : ℤ) (entry : CreditLedgerEntry) :
    Service CreditLedgerRow :=
  -- `createdAt` defaults to `now()`, the start of the surrounding transaction. The insert fails on
  -- a value outside `integer` and on a negative balance.
  if ¬(int4 entry.amount ∧ int4 entry.balance) then
    Prog.throw "integer out of range"
  else if entry.balance < 0 then
    Prog.throw "credit_ledger_balance_non_negative"
  else do
    let id ← Prog.fresh
    let row := entry.row id startedAt
    Prog.exec (fun _ => []) (fun _ => [.insertCreditLedger found row]) fun _ => row

theorem walletRows_insert (s : Db) (found : ℤ) (row : CreditLedgerRow) (sub cur : String) :
    walletRows (s.write (.insertCreditLedger found row)) sub cur =
      if row.subscriberId = sub ∧ row.currencyId = cur then walletRows s sub cur ++ [row]
      else walletRows s sub cur := by
  by_cases h : row.subscriberId = sub ∧ row.currencyId = cur <;>
    simp [walletRows, Db.write, List.filter_append, h]

theorem walletRows_applyAll_of_ne {ws : List Write} {sub cur : String}
    (h : ∀ found row, .insertCreditLedger found row ∈ ws →
      ¬(row.subscriberId = sub ∧ row.currencyId = cur)) (s : Db) :
    walletRows (applyAll s ws) sub cur = walletRows s sub cur := by
  refine applyAll_congr (fun s => walletRows s sub cur) (fun w hw s => ?_) s
  cases w with
  | insertCreditLedger found row => exact (walletRows_insert ..).trans (if_neg (h found row hw))
  | _ => rfl

theorem walletRows_applyAll_congr {s s' : Db} {sub cur : String}
    (h : walletRows s' sub cur = walletRows s sub cur) (ws : List Write) :
    walletRows (applyAll s' ws) sub cur = walletRows (applyAll s ws) sub cur := by
  induction ws generalizing s s' with
  | nil => exact h
  | cons w ws ih =>
    refine ih ?_
    cases w with
    | insertCreditLedger found row =>
      exact (walletRows_insert ..).trans (h ▸ (walletRows_insert ..).symm)
    | _ => exact h

theorem balance_of_walletRows {s s' : Db} {sub cur : String}
    (h : walletRows s' sub cur = walletRows s sub cur) (order : LedgerOrder) :
    balance order s' sub cur = balance order s sub cur := by
  simp only [balance, findLatestBalance, h]

end Rovenue
