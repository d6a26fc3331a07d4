import Rovenue.Ledger.CreditEngine

/-! Whether a wallet's newest balance is the sum of its rows, over every
interleaving of engine calls. It is, exactly while rows are committed in the
order the balance read sorts them. -/

namespace Rovenue
open Txn

def walletSum (s : Db) (sub cur : String) : ℤ :=
  ((walletRows s sub cur).map CreditLedgerRow.amount).sum

def WalletConserved (s : Db) (sub cur : String) : Prop :=
  balance .createdAt s sub cur = walletSum s sub cur ∧ 0 ≤ walletSum s sub cur

instance (s : Db) (sub cur : String) : Decidable (WalletConserved s sub cur) :=
  inferInstanceAs (Decidable (_ ∧ _))

/-- Every row the transaction commits sorts after the rows its wallet holds. -/
def CommitsInOrder (ws : List Write) (s : Db) : Prop :=
  ∀ found row, .insertCreditLedger found row ∈ ws →
    ∀ r ∈ walletRows s row.subscriberId row.currencyId, r.Precedes row

theorem walletSum_insert (s : Db) (found : ℤ) (row : CreditLedgerRow) :
    walletSum (s.write (.insertCreditLedger found row)) row.subscriberId row.currencyId =
      walletSum s row.subscriberId row.currencyId + row.amount := by
  simp [walletSum, walletRows_insert]

theorem balance_of_creditLedger_eq {s s' : Db} (h : s'.creditLedger = s.creditLedger)
    (order : LedgerOrder) (sub cur : String) : balance order s' sub cur = balance order s sub cur := by
  simp only [balance, findLatestBalance, walletRows, h]

theorem balance_insert (s : Db) (found : ℤ) (row : CreditLedgerRow) :
    balance .createdAt (s.write (.insertCreditLedger found row)) row.subscriberId row.currencyId =
      if ∀ r ∈ walletRows s row.subscriberId row.currencyId, r.Precedes row then row.balance
      else balance .createdAt s row.subscriberId row.currencyId := by
  rw [balance, findLatestBalance, walletRows_insert, if_pos ⟨rfl, rfl⟩, newest_append]
  simp only [newest_append_eq_some_iff, balance, findLatestBalance]
  cases LedgerOrder.createdAt.newest (walletRows s row.subscriberId row.currencyId) with
  | none => simp [laterRow]
  | some b =>
    by_cases hb : b.Precedes row <;> simp [laterRow, hb]

theorem conserved_insert_iff {s : Db} (found : ℤ) {row : CreditLedgerRow}
    (hs : WalletConserved s row.subscriberId row.currencyId) (hamount : row.amount ≠ 0)
    (hbal : row.balance = balance .createdAt s row.subscriberId row.currencyId + row.amount)
    (hpos : 0 ≤ row.balance) :
    WalletConserved (s.write (.insertCreditLedger found row)) row.subscriberId row.currencyId ↔
      ∀ r ∈ walletRows s row.subscriberId row.currencyId, r.Precedes row := by
  -- a row computed from the current balance keeps its wallet conserved exactly when it becomes the
  -- newest
  rw [WalletConserved, walletSum_insert, balance_insert]
  obtain ⟨hsum, -⟩ := hs
  constructor
  · rintro ⟨h, -⟩
    by_contra hord
    rw [if_neg hord, hsum] at h
    omega
  · intro hord
    rw [if_pos hord]
    omega

theorem conserved_insert_of_ne {s : Db} (found : ℤ) {row : CreditLedgerRow} {sub cur : String}
    (h : ¬(row.subscriberId = sub ∧ row.currencyId = cur)) :
    WalletConserved (s.write (.insertCreditLedger found row)) sub cur ↔
      WalletConserved s sub cur := by
  simp [WalletConserved, walletSum, balance, findLatestBalance, walletRows_insert, h]

def EngineCommit (held : Set LockKey) (ws : List Write) (s : Db) : Prop :=
  ws = [] ∨ ∃ found row, ws = [.insertCreditLedger found row] ∧
    walletKey row.subscriberId row.currencyId ∈ held ∧ row.amount ≠ 0 ∧
    row.balance = balance .createdAt s row.subscriberId row.currencyId + row.amount ∧
    0 ≤ row.balance

def walletDiscipline (ι : Type) : Discipline ι Db LockKey Write where
  inv h := ∀ sub cur, WalletConserved h.db sub cur
  rely _ held h h' := ∀ sub cur, walletKey sub cur ∈ held →
    walletRows h'.db sub cur = walletRows h.db sub cur
  law _ held ws h := EngineCommit held ws h.db
  cond _ ws h := CommitsInOrder ws h.db
  rely_refl _ _ _ := fun _ _ _ => rfl
  rely_trans h₁ h₂ := fun sub cur hk => (h₂ sub cur hk).trans (h₁ sub cur hk)
  keeps_inv := by
    rintro i held ws h (rfl | ⟨found, row, rfl, -, hamount, hbal, hpos⟩) hinv hord sub cur
    · exact hinv sub cur
    · by_cases hw : row.subscriberId = sub ∧ row.currencyId = cur
      · obtain ⟨rfl, rfl⟩ := hw
        exact (conserved_insert_iff found (hinv _ _) hamount hbal hpos).2 (hord found row (by simp))
      · exact (conserved_insert_of_ne found hw).2 (hinv sub cur)
  keeps_rely := by
    rintro i held ws h (rfl | ⟨found, row, rfl, hheld, -⟩) - - j others - hdisj - sub cur hk
    · rfl
    · have hw : ¬(row.subscriberId = sub ∧ row.currencyId = cur) := by
        rintro ⟨rfl, rfl⟩
        exact Set.disjoint_left.1 hdisj hk hheld
      simp [walletRows_insert, hw]

inductive EngineCall where
  | add (args : AddCreditsArgs)
  | spend (args : SpendCreditsArgs)

def EngineCall.run (order : LedgerOrder) : EngineCall → Service Unit
  | .add args => (addCredits order args).bind fun _ => .done ()
  | .spend args => (spendCredits order args).bind fun _ => .done ()

theorem engineCall_safe {ι : Type} {i : ι} {h : History ι Db Write} (call : EngineCall) :
    Safe (walletDiscipline ι) i (call.run .createdAt) ∅ [] h fun _ _ _ _ => True := by
  cases call with
  | add args =>
    refine Safe.bind (addCredits_safe (fun _ => .inl rfl) ?_) fun _ _ _ _ _ => trivial
    intro hp hd hb hc projectId id startedAt _ _ _ _ _ hr hpos _ _ found hfound
    have hsame := hr _ _ (Set.mem_singleton _)
    refine .inr ⟨_, _, rfl, rfl, hpos.ne', ?_, hfound⟩
    simp only [AddCreditsArgs.entry, CreditLedgerEntry.row, found, balance, findLatestBalance]
    rw [hsame]
  | spend args =>
    refine Safe.bind (spendCredits_safe (fun _ => .inl rfl) ?_) fun _ _ _ _ _ => trivial
    intro hp hb hc projectId id startedAt _ _ _ hr hpos _ found hfound
    have hsame := hr _ _ (Set.mem_singleton _)
    refine .inr ⟨_, _, rfl, rfl, (neg_neg_of_pos hpos).ne, ?_, sub_nonneg.2 hfound⟩
    simp only [SpendCreditsArgs.entry, CreditLedgerEntry.row, found, balance, findLatestBalance]
    rw [hsame, sub_eq_add_neg]

def engineWorld {ι : Type} (s : Db) (t : ℤ) (calls : ι → EngineCall) :
    World ι Db LockKey Write String :=
  .init s t fun i => (calls i).run .createdAt

theorem conserved_iff_commits_in_order {ι : Type} [DecidableEq ι] (calls : ι → EngineCall)
    (s : Db) (t : ℤ) (evs : List (Event ι String))
    (hs : ∀ sub cur, WalletConserved s sub cur) :
    (∀ h ∈ (engineWorld s t calls).visited evs, ∀ sub cur, WalletConserved h.db sub cur) ↔
      ∀ c ∈ (engineWorld s t calls).commits evs, CommitsInOrder c.writes c.before.db := by
  have hsafe : (engineWorld s t calls).Safe (walletDiscipline ι) :=
    .init hs fun i => engineCall_safe (calls i)
  refine hsafe.visited_iff (P := fun h => ∀ sub cur, WalletConserved h.db sub cur)
    (fun h hinv => hinv) ?_
  rintro i held ws h (rfl | ⟨found, row, rfl, -, hamount, hbal, hpos⟩) hinv hP
  · simp [walletDiscipline, CommitsInOrder]
  · intro found' row' hmem
    obtain ⟨rfl, rfl⟩ : found = found' ∧ row = row' := by simpa [eq_comm] using hmem
    exact (conserved_insert_iff found (hinv _ _) hamount hbal hpos).1 (hP _ _)

theorem conserved_of_creditLedger_eq_nil {s : Db} (h : s.creditLedger = []) (sub cur : String) :
    WalletConserved s sub cur := by
  simp [WalletConserved, walletSum, balance, findLatestBalance, walletRows, h, LedgerOrder.newest]

def lateDb : Db where
  subscribers := ⟨[("s1", { projectId := "p1", rovenueId := "r1" })], by decide⟩

def lateCalls : Fin 2 → EngineCall
  | 0 => .add { subscriberId := "s1", currencyId := "gold", amount := 5 }
  | 1 => .add { subscriberId := "s1", currencyId := "gold", amount := 10 }

def callEvents (i : Fin 2) (id : String) : List (Event (Fin 2) String) :=
  [.run i, .run i, .run i, .run i, .draw i id, .run i, .run i]

def lateEvents : List (Event (Fin 2) String) :=
  [.run 0, .tick 1, .run 1] ++ callEvents 1 "b" ++ callEvents 0 "a"

theorem late_commit_hides_credits :
    let h := ((engineWorld lateDb 0 lateCalls).runAll lateEvents).hist
    findLatestBalance .createdAt "s1" "gold" h.db = some 10 ∧ walletSum h.db "s1" "gold" = 15 ∧
      ¬∀ h ∈ (engineWorld lateDb 0 lateCalls).visited lateEvents,
        ∀ sub cur, WalletConserved h.db sub cur := by
  refine ⟨by decide, by decide, fun h => ?_⟩
  have hlast := h _ (World.last_mem_visited _ _) "s1" "gold"
  exact absurd hlast (by decide)

theorem conserved_iff_commits_in_order_late :
    (∀ h ∈ (engineWorld lateDb 0 lateCalls).visited lateEvents,
        ∀ sub cur, WalletConserved h.db sub cur) ↔
      ∀ c ∈ (engineWorld lateDb 0 lateCalls).commits lateEvents,
        CommitsInOrder c.writes c.before.db :=
  conserved_iff_commits_in_order lateCalls lateDb 0 lateEvents
    (conserved_of_creditLedger_eq_nil rfl)

end Rovenue
