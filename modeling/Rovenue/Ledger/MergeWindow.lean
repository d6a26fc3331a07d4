import Rovenue.Ledger.MergeConservation

/-! A merge between its locks and its commit. Where nobody else writes to the wallets of its
project meanwhile, each of its rows continues the wallet that it is appended to, and the source is
left with nothing. -/

namespace Rovenue
open Txn

/-- Reads in this order take the last row committed to a wallet. -/
def LedgerOrder.Agrees (order : LedgerOrder) (s : Db) : Prop :=
  ∀ sub cur, balance order s sub cur = balance .committed s sub cur

def Write.MarksMerged (id : String) : Write → Prop
  | .updateSubscriber id' set => id' = id ∧ set.mergedInto.isSome
  | _ => False

instance (id : String) : (w : Write) → Decidable (w.MarksMerged id)
  | .updateSubscriber .. => inferInstanceAs (Decidable (_ ∧ _))
  | .insertCreditLedger .. | .insertSubscriber .. | .insertPurchase .. | .updatePurchase ..
  | .insertAccess .. | .updateAccess .. => isFalse fun h => h

/-- Rows of a merge into `target`, computed from the balances that their wallets have in `s`. -/
structure Queued (s₀ s : Db) (projectId target : String) (ws : List Write) : Prop where
  transfers : Transfers s₀ ws
  continues : Continues s ws
  rows : ∀ found row, .insertCreditLedger found row ∈ ws → row.projectId = projectId ∧
    0 ≤ row.balance ∧ (0 < row.amount → row.subscriberId = target)

/-- With `rest` of the source's balances still to move. -/
structure Carrying (s₀ s : Db) (projectId source target : String) (rest : List (String × ℤ))
    (ws : List Write) : Prop extends Queued s₀ s projectId target ws where
  unmoved : ∀ found row, .insertCreditLedger found row ∈ ws → row.currencyId ∉ rest.map Prod.fst
  ahead : ∀ e ∈ rest, balance .committed (applyAll s ws) source e.1 = e.2
  behind : source ≠ target → ∀ cur, cur ∉ rest.map Prod.fst →
    balance .committed (applyAll s ws) source cur ≤ 0
  unmarked : ∀ w ∈ ws, ∀ id, ¬w.MarksMerged id

structure Handed (s₀ s : Db) (projectId source target : String) (ws : List Write) : Prop
    extends Queued s₀ s projectId target ws where
  emptied : source ≠ target → ∀ cur, balance .committed (applyAll s ws) source cur ≤ 0
  marks : ∀ w ∈ ws, ∀ id, w.MarksMerged id → id = source
  dies : ∀ id set, .updateSubscriber id set ∈ ws → set.mergedInto.isSome = true →
    set.deletedAt.isSome = true

section Queue
variable {s₀ s s' : Db} {ws vs : List Write} {projectId x y : String} {rest : List (String × ℤ)}

theorem continues_append :
    Continues s (ws ++ vs) ↔ Continues s ws ∧ Continues (applyAll s ws) vs := by
  induction ws generalizing s with
  | nil => exact ⟨fun h => ⟨trivial, h⟩, fun h => h.2⟩
  | cons w ws ih =>
    show ContinuesAt s w ∧ Continues (s.write w) (ws ++ vs) ↔ _
    rw [ih, ← and_assoc]
    rfl

theorem continues_of_not_onLedger (h : ∀ w ∈ ws, ¬w.OnLedger) : Continues s ws := by
  induction ws generalizing s with
  | nil => trivial
  | cons w ws ih =>
    refine ⟨?_, ih fun v hv => h v (List.mem_cons_of_mem w hv)⟩
    cases w with
    | insertCreditLedger found row => exact absurd trivial (h _ (List.mem_cons_self ..))
    | _ => trivial

theorem Continues.congr (hws : Continues s ws) (h : ∀ found row,
      .insertCreditLedger found row ∈ ws →
        walletRows s' row.subscriberId row.currencyId =
          walletRows s row.subscriberId row.currencyId) : Continues s' ws := by
  induction ws generalizing s s' with
  | nil => trivial
  | cons w ws ih =>
    refine ⟨?_, ih hws.2 fun found row hrow => ?_⟩
    · cases w with
      | insertCreditLedger found row =>
        have hsame := h found row (List.mem_cons_self ..)
        exact hws.1.trans (balance_of_walletRows hsame .committed).symm
      | _ => trivial
    · exact walletRows_applyAll_congr (h found row (List.mem_cons_of_mem w hrow)) [w]

theorem Transfers.project (h : Transfers s₀ ws) {found : ℤ} {row : CreditLedgerRow}
    (hrow : .insertCreditLedger found row ∈ ws) :
    findSubscriberProjectId row.subscriberId s₀ = some row.projectId := (h.1.1 _ hrow).2

def WalletsKept (s₀ : Db) (projectId : String) (s s' : Db) : Prop :=
  ∀ sub, findSubscriberProjectId sub s₀ = some projectId → ∀ cur,
    walletRows s' sub cur = walletRows s sub cur

theorem WalletsKept.balance (h : WalletsKept s₀ projectId s s') {sub : String}
    (hsub : findSubscriberProjectId sub s₀ = some projectId) (ws : List Write) (cur : String) :
    balance .committed (applyAll s' ws) sub cur = balance .committed (applyAll s ws) sub cur :=
  balance_of_walletRows (walletRows_applyAll_congr (h sub hsub cur) ws) .committed

theorem Queued.kept (h : Queued s₀ s projectId y ws) (hkept : WalletsKept s₀ projectId s s') :
    Queued s₀ s' projectId y ws where
  transfers := h.transfers
  continues := h.continues.congr fun found row hrow => by
    refine hkept _ ?_ _
    rw [h.transfers.project hrow, (h.rows found row hrow).1]
  rows := h.rows

theorem Carrying.kept (h : Carrying s₀ s projectId x y rest ws)
    (hx : findSubscriberProjectId x s₀ = some projectId) (hkept : WalletsKept s₀ projectId s s') :
    Carrying s₀ s' projectId x y rest ws where
  toQueued := h.toQueued.kept hkept
  unmoved := h.unmoved
  ahead e he := (hkept.balance hx ws e.1).trans (h.ahead e he)
  behind hne cur hcur := (hkept.balance hx ws cur).le.trans (h.behind hne cur hcur)
  unmarked := h.unmarked

theorem Handed.kept (h : Handed s₀ s projectId x y ws)
    (hx : findSubscriberProjectId x s₀ = some projectId) (hkept : WalletsKept s₀ projectId s s') :
    Handed s₀ s' projectId x y ws where
  toQueued := h.toQueued.kept hkept
  emptied hne cur := (hkept.balance hx ws cur).le.trans (h.emptied hne cur)
  marks := h.marks
  dies := h.dies

theorem Carrying.skip {cur : String} {amount : ℤ}
    (h : Carrying s₀ s projectId x y ((cur, amount) :: rest) ws) (hle : amount ≤ 0) :
    Carrying s₀ s projectId x y rest ws where
  toQueued := h.toQueued
  unmoved found row hrow hmem := h.unmoved found row hrow (List.mem_cons_of_mem _ hmem)
  ahead e he := h.ahead e (List.mem_cons_of_mem _ he)
  behind hne cur' hcur' := by
    by_cases hsame : cur' = cur
    · subst hsame
      exact (h.ahead (cur', amount) (List.mem_cons_self ..)).le.trans hle
    · refine h.behind hne cur' fun hmem => ?_
      exact (List.mem_cons.1 hmem).elim hsame hcur'
  unmarked := h.unmarked

theorem transfers_pass (source target : MergeParty) (cur id id' : String)
    {amount : ℤ} (toBal startedAt : ℤ)
    (hsource : findSubscriberProjectId source.id s₀ = some projectId)
    (htarget : findSubscriberProjectId target.id s₀ = some projectId) (hpos : 0 < amount) :
    Transfers s₀
      ([.insertCreditLedger amount
          ((transferOut projectId source target cur amount).row id startedAt)] ++
        [.insertCreditLedger toBal
          ((transferIn projectId source target cur amount toBal).row id' startedAt)]) := by
  refine ⟨⟨?_, fun p cur' => ?_⟩, ?_⟩
  · simp [CarriesForward, transferOut, transferIn, CreditLedgerEntry.row, hsource, htarget]
  · simp only [amountsIn, List.map_append, List.map_cons, List.map_nil, List.sum_append,
      List.sum_cons, List.sum_nil, Write.amountIn, transferOut, transferIn, CreditLedgerEntry.row]
    split_ifs <;> omega
  · simp [Write.IsTransfer, transferOut, transferIn, CreditLedgerEntry.row, hpos]

theorem mem_twoRows {found amount toBal : ℤ} {row out inn : CreditLedgerRow}
    (hmem : Write.insertCreditLedger found row ∈
      ws ++ [.insertCreditLedger amount out] ++ [.insertCreditLedger toBal inn]) :
    .insertCreditLedger found row ∈ ws ∨ row = out ∨ row = inn := by
  simp only [List.mem_append, List.mem_singleton, Write.insertCreditLedger.injEq, or_assoc] at hmem
  exact hmem.imp_right (Or.imp And.right And.right)

theorem source_balance_pass (s : Db) (ws : List Write) (projectId : String)
    (source target : MergeParty) (cur id id' : String) (amount toBal startedAt : ℤ)
    (cur' : String) :
    balance .committed (applyAll s (ws ++ [.insertCreditLedger amount
        ((transferOut projectId source target cur amount).row id startedAt)] ++
      [.insertCreditLedger toBal
        ((transferIn projectId source target cur amount toBal).row id' startedAt)]))
        source.id cur' =
      if cur' = cur then if target.id = source.id then toBal + amount else 0
      else balance .committed (applyAll s ws) source.id cur' := by
  simp only [applyAll_append, applyAll_cons, applyAll_nil, apply_eq, committed_balance_insert]
  simp only [transferOut, transferIn, CreditLedgerEntry.row]
  by_cases hcur : cur' = cur <;> by_cases hsame : target.id = source.id <;>
    simp [hcur, hsame, eq_comm (a := cur)]

theorem Carrying.pass {source target : MergeParty} {cur id : String} {amount toBal startedAt : ℤ}
    (h : Carrying s₀ s projectId source.id target.id ((cur, amount) :: rest) ws) (id' : String)
    (hsource : findSubscriberProjectId source.id s₀ = some projectId)
    (htarget : findSubscriberProjectId target.id s₀ = some projectId)
    (hnodup : cur ∉ rest.map Prod.fst) (hpos : 0 < amount) (harrives : 0 ≤ toBal + amount)
    (hread : toBal = balance .committed (applyAll s (ws ++ [.insertCreditLedger amount
      ((transferOut projectId source target cur amount).row id startedAt)])) target.id cur) :
    Carrying s₀ s projectId source.id target.id rest
      (ws ++ [.insertCreditLedger amount
          ((transferOut projectId source target cur amount).row id startedAt)] ++
        [.insertCreditLedger toBal
          ((transferIn projectId source target cur amount toBal).row id' startedAt)]) := by
  have htransfers : Transfers s₀ _ := h.transfers.append
    (transfers_pass source target cur id id' toBal startedAt hsource htarget hpos)
  have hcontinues : Continues s (ws ++ [.insertCreditLedger amount
      ((transferOut projectId source target cur amount).row id startedAt)] ++
      [.insertCreditLedger toBal
        ((transferIn projectId source target cur amount toBal).row id' startedAt)]) := by
    rw [continues_append, continues_append]
    exact ⟨⟨h.continues, (h.ahead _ (List.mem_cons_self ..)).symm, trivial⟩, hread, trivial⟩
  rw [← List.append_assoc] at htransfers
  have hafter := source_balance_pass s ws projectId source target cur id id' amount toBal startedAt
  generalize hout : (transferOut projectId source target cur amount).row id startedAt = out at *
  generalize hin : (transferIn projectId source target cur amount toBal).row id' startedAt = inn
    at *
  refine ⟨⟨htransfers, hcontinues, ?_⟩, ?_, ?_, ?_, ?_⟩
  · intro found row hmem
    obtain hold | rfl | rfl := mem_twoRows hmem
    · exact h.rows found row hold
    · rw [← hout]
      exact ⟨rfl, le_rfl, fun hlt => absurd (neg_pos.1 hlt) hpos.not_gt⟩
    · rw [← hin]
      exact ⟨rfl, harrives, fun _ => rfl⟩
  · intro found row hmem
    obtain hold | rfl | rfl := mem_twoRows hmem
    · exact fun hcur => h.unmoved found row hold (List.mem_cons_of_mem _ hcur)
    · rwa [← hout]
    · rwa [← hin]
  · intro e he
    have hne : e.1 ≠ cur := fun hsame => hnodup (hsame ▸ List.mem_map_of_mem he)
    rw [hafter, if_neg hne]
    exact h.ahead e (List.mem_cons_of_mem _ he)
  · intro hne cur' hcur'
    rw [hafter]
    split_ifs with hsame hself
    · exact absurd hself.symm hne
    · exact le_rfl
    · refine h.behind hne cur' fun hmem => ?_
      exact (List.mem_cons.1 hmem).elim hsame hcur'
  · intro w hw id₀ hmarks
    rw [List.mem_append, List.mem_append, List.mem_singleton, List.mem_singleton] at hw
    obtain (hw | rfl) | rfl := hw
    · exact h.unmarked w hw id₀ hmarks
    · exact hmarks
    · exact hmarks

end Queue

def Write.Labels : Write → Prop
  | .updateSubscriber _ set => set.mergedInto = none ∧ set.deletedAt = none
  | _ => False

/-- What a discipline lets a merge count on, from its locks `keys` on, and what it accepts of it.
`Parties` is what is known of the source and the target. -/
structure AllowsMerges {ι : Type} (D : Discipline ι Db LockKey Write) (order : LedgerOrder)
    (s₀ : Db) (i : ι) (projectId : String) (keys : List LockKey)
    (Parties : String → String → Db → Prop) : Prop where
  projects : ∀ {h}, D.inv h →
    ∀ id, findSubscriberProjectId id h.db = findSubscriberProjectId id s₀
  agrees : ∀ {h}, D.inv h → order.Agrees h.db
  wallets : ∀ {held h h'}, (∀ k ∈ keys, k ∈ held) → D.rely i held h h' →
    WalletsKept s₀ projectId h.db h'.db
  parties : ∀ {held h h' x y}, (∀ k ∈ keys, k ∈ held) → D.rely i held h h' →
    Parties x y h.db → Parties x y h'.db
  apart : ∀ {x y s}, Parties x y s → order = .committed ∨ x ≠ y
  access : ∀ {held ws h}, (∀ w ∈ ws, w.OnAccess) → D.law i held ws h
  label : ∀ {held ws h}, (∀ k ∈ keys, k ∈ held) → (∀ w ∈ ws, w.Labels) → D.law i held ws h
  hands : ∀ {held ws h x y}, (∀ k ∈ keys, k ∈ held) → Parties x y h.db →
    Handed s₀ h.db projectId x y ws → D.law i held ws h

section Merges
variable {ι : Type} {D : Discipline ι Db LockKey Write} {order : LedgerOrder} {s₀ : Db} {i : ι}
  {projectId : String} {keys : List LockKey} {Parties : String → String → Db → Prop}
  {held : Set LockKey} {pend : List Write} {h : History ι Db Write}
  {startedAt : ℤ} {source target : MergeParty}

theorem Carrying.read {s : Db} {cur : String} {amount : ℤ} {rest : List (String × ℤ)}
    (id : String) (startedAt : ℤ)
    (hs : Carrying s₀ s projectId source.id target.id ((cur, amount) :: rest) pend)
    (hagrees : order.Agrees s) (hapart : order = .committed ∨ source.id ≠ target.id) :
    balance order (applyAll s (pend ++ [.insertCreditLedger amount
        ((transferOut projectId source target cur amount).row id startedAt)])) target.id cur =
      balance .committed (applyAll s (pend ++ [.insertCreditLedger amount
        ((transferOut projectId source target cur amount).row id startedAt)])) target.id cur := by
  obtain rfl | hne := hapart
  · rfl
  have hrows : walletRows (applyAll s (pend ++ [.insertCreditLedger amount
      ((transferOut projectId source target cur amount).row id startedAt)])) target.id cur =
      walletRows s target.id cur := by
    refine walletRows_applyAll_of_ne (fun found row hrow hwallet => ?_) s
    obtain hold | hnew := List.mem_append.1 hrow
    · refine hs.unmoved found row hold ?_
      rw [hwallet.2]
      exact List.mem_cons_self ..
    · obtain ⟨-, rfl⟩ := Write.insertCreditLedger.inj (List.mem_singleton.1 hnew)
      exact hne hwallet.1
  rw [balance_of_walletRows hrows, balance_of_walletRows hrows]
  exact hagrees target.id cur

theorem transferBalances_safe
    (hm : AllowsMerges D order s₀ i projectId keys Parties)
    (hsource : findSubscriberProjectId source.id s₀ = some projectId)
    (htarget : findSubscriberProjectId target.id s₀ = some projectId)
    (balances : List (String × ℤ)) (hnodup : (balances.map Prod.fst).Nodup)
    (hkeys : ∀ k ∈ keys, k ∈ held) (hparties : Parties source.id target.id h.db)
    (hpend : Carrying s₀ h.db projectId source.id target.id balances pend) :
    Safe D i (transferBalances order startedAt projectId source target balances) held pend h
      fun _ held pend h => (∀ k ∈ keys, k ∈ held) ∧ Parties source.id target.id h.db ∧
        Carrying s₀ h.db projectId source.id target.id [] pend := by
  induction balances generalizing held pend h with
  | nil => exact ⟨hkeys, hparties, hpend⟩
  | cons entry rest ih =>
    obtain ⟨cur, amount⟩ := entry
    obtain ⟨hcur, hrest⟩ := List.nodup_cons.1 hnodup
    unfold transferBalances
    by_cases hle : amount ≤ 0
    · rw [if_pos hle]
      exact ih hrest hkeys hparties (hpend.skip hle)
    rw [if_neg hle]
    have hpos : 0 < amount := not_le.1 hle
    refine Safe.bind_iff.2 (insertCreditLedger_safe fun id h₁ _ _ _ _ hr₁ => ?_)
    refine Safe.bind_iff.2 (Safe.query fun h₂ hi₂ hr₂ => ?_)
    refine Safe.bind_iff.2 (insertCreditLedger_safe fun id' h₃ _ _ harrives _ hr₃ => ?_)
    have hr₁₂ := D.rely_trans hr₁ hr₂
    have hkept := hpend.kept hsource (hm.wallets hkeys hr₁₂)
    have hparties₂ := hm.parties hkeys hr₁₂ hparties
    have hread := hkept.read id startedAt (hm.agrees hi₂) (hm.apart hparties₂)
    have hpass := (hkept.pass id' hsource htarget hcur hpos harrives hread).kept hsource
      (hm.wallets hkeys hr₃)
    exact (ih hrest hkeys (hm.parties hkeys hr₃ hparties₂) hpass).bind
      fun _ _ _ _ hend => hend

theorem carrying_start {s : Db} {x y : String} {ws : List Write} (hplain : ∀ w ∈ ws, w.Plain)
    (hunmarked : ∀ w ∈ ws, ∀ id, ¬w.MarksMerged id) (hagrees : order.Agrees s) :
    Carrying s₀ s projectId x y (findAllBalances order x (applyAll s ws)) ws := by
  have hnone : ∀ found row, .insertCreditLedger found row ∉ ws :=
    fun found row hrow => hplain _ hrow
  have hrows : ∀ cur, walletRows (applyAll s ws) x cur = walletRows s x cur :=
    fun cur => walletRows_applyAll_of_ne (fun found row hrow => absurd hrow (hnone found row)) s
  refine ⟨⟨transfers_of_plain hplain, ?_, ?_⟩, ?_, ?_, ?_, hunmarked⟩
  · exact continues_of_not_onLedger fun w hw => (hplain w hw).not_onLedger
  · exact fun found row hrow => absurd hrow (hnone found row)
  · exact fun found row hrow => absurd hrow (hnone found row)
  · intro e he
    obtain ⟨cur, -, rfl⟩ := List.mem_map.1 he
    show _ = balance order (applyAll s ws) x cur
    rw [balance_of_walletRows (hrows cur), balance_of_walletRows (hrows cur)]
    exact (hagrees x cur).symm
  · intro _ cur hcur
    rw [mem_findAllBalances, not_not] at hcur
    rw [balance, findLatestBalance, hcur]
    exact le_rfl

theorem Carrying.marked {s : Db} {x y : String} {ws : List Write} {deletedAt : ℤ}
    (h : Carrying s₀ s projectId x y [] ws) :
    Handed s₀ s projectId x y
      (ws ++ [.updateSubscriber x { deletedAt := some deletedAt, mergedInto := some y }]) := by
  have hrow : ∀ found row, Write.insertCreditLedger found row ∈ ws ++
      [.updateSubscriber x { deletedAt := some deletedAt, mergedInto := some y }] →
      .insertCreditLedger found row ∈ ws := by
    intro found row hmem
    simpa using hmem
  refine ⟨⟨h.transfers.append (transfers_of_plain ?_), ?_, ?_⟩, ?_, ?_, ?_⟩
  · intro w hw
    obtain rfl := List.mem_singleton.1 hw
    trivial
  · exact continues_append.2 ⟨h.continues, trivial, trivial⟩
  · exact fun found row hmem => h.rows found row (hrow found row hmem)
  · intro hne cur
    rw [applyAll_append]
    exact h.behind hne cur List.not_mem_nil
  · intro w hw id hmarks
    obtain hw | hw := List.mem_append.1 hw
    · exact absurd hmarks (h.unmarked w hw id)
    · obtain rfl := List.mem_singleton.1 hw
      exact hmarks.1.symm
  · intro id set hw hmarks
    obtain hw | hw := List.mem_append.1 hw
    · exact absurd ⟨rfl, hmarks⟩ (h.unmarked _ hw id)
    · obtain ⟨-, rfl⟩ := Write.updateSubscriber.inj (List.mem_singleton.1 hw)
      rfl

theorem Handed.labelled {s : Db} {x y : String} {ws : List Write}
    (h : Handed s₀ s projectId x y ws) (id : String) {set : SubscriberPatch}
    (hset : set.mergedInto = none) :
    Handed s₀ s projectId x y (ws ++ [.updateSubscriber id set]) := by
  have hrow : ∀ found row, Write.insertCreditLedger found row ∈ ws ++
      [.updateSubscriber id set] → .insertCreditLedger found row ∈ ws := by
    intro found row hmem
    simpa using hmem
  refine ⟨⟨h.transfers.append (transfers_of_plain ?_), ?_, ?_⟩, ?_, ?_, ?_⟩
  · intro w hw
    obtain rfl := List.mem_singleton.1 hw
    trivial
  · exact continues_append.2 ⟨h.continues, trivial, trivial⟩
  · exact fun found row hmem => h.rows found row (hrow found row hmem)
  · intro hne cur
    rw [applyAll_append]
    exact h.emptied hne cur
  · intro w hw id' hmarks
    obtain hw | hw := List.mem_append.1 hw
    · exact h.marks w hw id' hmarks
    · obtain rfl := List.mem_singleton.1 hw
      rw [Write.MarksMerged, hset] at hmarks
      cases hmarks.2
  · intro id' set' hw hmarks
    obtain hw | hw := List.mem_append.1 hw
    · exact h.dies id' set' hw hmarks
    · obtain ⟨-, rfl⟩ := Write.updateSubscriber.inj (List.mem_singleton.1 hw)
      rw [hset] at hmarks
      cases hmarks

theorem party_project {id : String} (hm : AllowsMerges D order s₀ i projectId keys Parties)
    (hi : D.inv h)
    (hparty : ¬(findSubscriberById id (applyAll h.db [])).all (fun row =>
      decide (row.2.projectId ≠ projectId)) = true) :
    findSubscriberProjectId id s₀ = some projectId := by
  -- the project check of `reassignAllAssets`, told of the initial table
  rw [← hm.projects hi, findSubscriberProjectId]
  rw [findSubscriberById] at hparty
  cases hrow : h.db.subscribers.get? id with
  | none => simp [hrow] at hparty
  | some row => simpa [hrow] using hparty

theorem reassignAllAssets_safe (source target : MergeParty)
    (hm : AllowsMerges D order s₀ i projectId keys Parties)
    (hkeys : ∀ k ∈ keys, k ∈ held) (hparties : Parties source.id target.id h.db) :
    Safe D i (reassignAllAssets order startedAt projectId source target) held [] h
      fun _ held pend h => (∀ k ∈ keys, k ∈ held) ∧ Parties source.id target.id h.db ∧
        findSubscriberProjectId source.id s₀ = some projectId ∧
          Handed s₀ h.db projectId source.id target.id pend := by
  unfold reassignAllAssets
  refine Safe.bind_iff.2 (Safe.query fun h₁ hi₁ hr₁ => ?_)
  refine Safe.bind_iff.2 (Safe.query fun h₂ hi₂ hr₂ => ?_)
  split_ifs with hfrom hto
  · trivial
  · trivial
  have hsource := party_project hm hi₁ hfrom
  have htarget := party_project hm hi₂ hto
  refine Safe.bind_iff.2 (Safe.exec fun h₃ _ hr₃ => ?_)
  refine Safe.bind_iff.2 (Safe.exec fun h₄ _ hr₄ => ?_)
  rw [List.nil_append]
  generalize hpend : (purchasesOf source.id (applyAll h₃.db [])).map _ ++ _ = pend
  have hwrites : ∀ w ∈ pend, w.Plain ∧ ∀ id, ¬w.MarksMerged id := by
    intro w hw
    rw [← hpend] at hw
    obtain hw | hw := List.mem_append.1 hw <;> obtain ⟨key, -, rfl⟩ := List.mem_map.1 hw
    · exact ⟨⟨target.id, rfl⟩, fun _ hmarks => hmarks⟩
    · exact ⟨trivial, fun _ hmarks => hmarks⟩
  refine Safe.bind_iff.2 (Safe.query fun h₅ hi₅ hr₅ => ?_)
  have hparties₃ := hm.parties hkeys (D.rely_trans (D.rely_trans hr₁ hr₂) hr₃) hparties
  have hparties₄ := hm.parties (fun k hk => .inr (hkeys k hk)) hr₄ hparties₃
  have hparties₅ := hm.parties (fun k hk => .inr (.inr (hkeys k hk))) hr₅ hparties₄
  refine (transferBalances_safe hm hsource htarget _ (nodup_findAllBalances _ source.id order)
    (fun k hk => .inr (.inr (hkeys k hk))) hparties₅
    (carrying_start (fun w hw => (hwrites w hw).1) (fun w hw => (hwrites w hw).2)
      (hm.agrees hi₅))).bind fun moved held pend h hend => ?_
  obtain ⟨hkeys, hparties, hcarried⟩ := hend
  refine Safe.bind_iff.2 (Safe.now fun deletedAt => ?_)
  refine Safe.bind_iff.2 (Safe.exec fun h₆ _ hr₆ => ?_)
  exact ⟨fun k hk => .inr (hkeys k hk), hm.parties hkeys hr₆ hparties, hsource,
    (hcarried.kept hsource (hm.wallets hkeys hr₆)).marked⟩

theorem lockPair_safe {a b : String} :
    Safe D i (lockPair a b) held pend h fun _ held pend' _ =>
      (∀ k ∈ [LockKey.advisory a, .advisory b], k ∈ held) ∧ pend' = pend := by
  refine Safe.bind_iff.2 (Safe.acquire fun h₁ _ _ => Safe.acquire fun h₂ _ _ => ⟨?_, rfl⟩)
  intro k hk
  split_ifs
  · obtain rfl | rfl := List.mem_pair.1 hk
    · exact .inr (.inl rfl)
    · exact .inl rfl
  · obtain rfl | rfl := List.mem_pair.1 hk
    · exact .inl rfl
    · exact .inr (.inl rfl)

theorem syncAccess_safe (subscriberId : String)
    (haccess : ∀ {held ws h}, (∀ w ∈ ws, w.OnAccess) → D.law i held ws h) :
    Safe D i (syncAccess subscriberId) ∅ [] h fun _ _ _ _ => True := by
  refine (Safe.of_each (F := fun ws => ∀ w ∈ ws, w.OnAccess) (by simp) (fun hws hvs w hw => ?_)
    haccess (syncAccess_each subscriberId) (by simp)).mono fun _ _ _ _ _ => trivial
  exact (List.mem_append.1 hw).elim (hws w) (hvs w)

def transferKeys (projectId fromAppUserId toAppUserId : String) : List LockKey :=
  [.advisory (projectId ++ ":" ++ fromAppUserId), .advisory (projectId ++ ":" ++ toAppUserId)]

def bindKeys (projectId rovenueId appUserId : String) : List LockKey :=
  [.advisory (projectId ++ ":" ++ appUserId), .advisory (projectId ++ ":rov:" ++ rovenueId)]

theorem AllowsMerges.commits (hm : AllowsMerges D order s₀ i projectId keys Parties)
    {x y : String} (hkeys : ∀ k ∈ keys, k ∈ held) (hparties : Parties x y h.db)
    (hx : findSubscriberProjectId x s₀ = some projectId)
    (hend : Handed s₀ h.db projectId x y pend) {h' : History ι Db Write}
    (hr : D.rely i held h h') : D.law i held pend h' :=
  hm.hands hkeys (hm.parties hkeys hr hparties) (hend.kept hx (hm.wallets hkeys hr))

theorem transferSubscriber_safe {a b : String}
    (hm : AllowsMerges D order s₀ i projectId (transferKeys projectId a b) Parties)
    (hfound : ∀ {held h₁ h₂ source target}, (∀ k ∈ transferKeys projectId a b, k ∈ held) →
      D.inv h₁ → D.rely i held h₁ h₂ → D.inv h₂ →
      findSubscriberByAppUserId projectId a h₁.db = some source → source.2.deletedAt = none →
      findSubscriberByAppUserId projectId b h₂.db = some target → target.2.deletedAt = none →
      a ≠ b → Parties source.1 target.1 h₂.db) :
    Safe D i (transferSubscriber order projectId a b) ∅ [] h fun _ _ _ _ => True := by
  unfold transferSubscriber
  split_ifs with hsame
  · trivial
  refine Safe.bind (Q := Idle) ?_ fun result held pend h hidle => ?_
  swap
  · obtain ⟨rfl, rfl⟩ := hidle
    exact (syncAccess_safe _ hm.access).bind fun _ _ _ _ _ => trivial
  refine Safe.transaction fun startedAt => ?_
  refine Safe.bind lockPair_safe fun _ held pend h hlocked => ?_
  obtain ⟨hkeys, rfl⟩ := hlocked
  refine Safe.bind_iff.2 (Safe.query fun h₁ hi₁ _ => ?_)
  cases hsource : findSubscriberByAppUserId projectId a (applyAll h₁.db []) with
  | none => trivial
  | some source =>
    dsimp only
    split_ifs with halive
    · trivial
    refine Safe.bind_iff.2 (Safe.query fun h₂ hi₂ hr₂ => ?_)
    cases htarget : findSubscriberByAppUserId projectId b (applyAll h₂.db []) with
    | none => trivial
    | some target =>
      dsimp only
      split_ifs with halive'
      · trivial
      have hparties := hfound hkeys hi₁ hr₂ hi₂ hsource (by simpa using halive) htarget
        (by simpa using halive') hsame
      refine (reassignAllAssets_safe ⟨source.1, a⟩ ⟨target.1, b⟩ hm hkeys hparties).bind fun moved held pend h hend h' _ hr => ?_
      exact ⟨hm.commits hend.1 hend.2.1 hend.2.2.1 hend.2.2.2 hr, fun _ => ⟨rfl, rfl⟩⟩

def Present (s : Db) (id : String) : Prop :=
  ∃ row, s.subscribers.get? id = some row ∧ row.deletedAt = none

theorem followMergedInto_safe (hops : ℕ) (cursor : SubscriberRow)
    (hcursor : h.db.subscribers.get? cursor.1 = some cursor.2) :
    Safe D i (followMergedInto hops cursor) held [] h fun found held' pend h =>
      held' = held ∧ pend = [] ∧ ∀ row ∈ found, Present h.db row.1 := by
  induction hops generalizing cursor h with
  | zero =>
    refine ⟨rfl, rfl, fun row hrow => ?_⟩
    split_ifs at hrow with hdeleted
    · cases hrow
    · obtain rfl := Option.mem_some.1 hrow
      exact ⟨_, hcursor, by simpa using hdeleted⟩
  | succ hops ih =>
    unfold followMergedInto
    split
    next target _ _ =>
      refine Safe.bind_iff.2 (Safe.query fun h₁ _ _ => ?_)
      cases hget : h₁.db.subscribers.get? target with
      | none =>
        rw [findSubscriberById, show (applyAll h₁.db []).subscribers.get? target = none from hget]
        exact ⟨rfl, rfl, nofun⟩
      | some row =>
        rw [findSubscriberById,
          show (applyAll h₁.db []).subscribers.get? target = some row from hget]
        exact ih (target, row) hget
    next halive =>
      refine ⟨rfl, rfl, fun row hrow => ?_⟩
      obtain rfl := Option.mem_some.1 hrow
      exact ⟨_, hcursor, halive⟩
    next => exact ⟨rfl, rfl, nofun⟩

theorem bindSelf_safe {rovenueId : String} :
    Safe D i (bindSelf projectId rovenueId) held [] h fun self held' pend h =>
      held' = held ∧ pend = [] ∧ Present h.db self.1 := by
  unfold bindSelf
  refine Safe.bind_iff.2 (Safe.query fun h₁ _ _ => ?_)
  cases hself : findSubscriberByRovenueId projectId rovenueId (applyAll h₁.db []) with
  | none => trivial
  | some self =>
    dsimp only
    split_ifs with hdeleted
    swap
    · exact ⟨rfl, rfl, _, findSubscriberByRovenueId_some hself, by simpa using hdeleted⟩
    refine Safe.bind_iff.2 (Safe.bind_iff.2 (Safe.query fun h₂ _ _ => ?_))
    cases hrow : findSubscriberByRovenueId projectId rovenueId (applyAll h₂.db []) with
    | none => trivial
    | some row =>
      have hget : h₂.db.subscribers.get? row.1 = some row.2 := findSubscriberByRovenueId_some hrow
      dsimp only
      split_ifs with halive
      · exact ⟨rfl, rfl, _, hget, by simpa using halive⟩
      · refine (followMergedInto_safe 5 row hget).mono fun found held' pend h hfound => ?_
        obtain ⟨rfl, rfl, hpresent⟩ := hfound
        cases found with
        | none => trivial
        | some canonical => exact ⟨rfl, rfl, hpresent canonical rfl⟩

theorem bindAppUserId_safe {rovenueId appUserId : String}
    (hm : AllowsMerges D order s₀ i projectId (bindKeys projectId rovenueId appUserId) Parties)
    (hfound : ∀ {held h₁ h₂ other x}, (∀ k ∈ bindKeys projectId rovenueId appUserId, k ∈ held) →
      Present h₁.db x → D.rely i held h₁ h₂ → D.inv h₂ →
      findSubscriberByAppUserId projectId appUserId h₂.db = some other →
      other.2.deletedAt = none → other.1 ≠ x → Parties other.1 x h₂.db) :
    Safe D i (bindAppUserId order projectId rovenueId appUserId) ∅ [] h
      fun _ _ _ _ => True := by
  unfold bindAppUserId
  refine Safe.bind (Q := Idle) ?_ fun result held pend h hidle => ?_
  swap
  · obtain ⟨rfl, rfl⟩ := hidle
    split_ifs
    · exact (syncAccess_safe _ hm.access).bind fun _ _ _ _ _ => trivial
    · trivial
  refine Safe.transaction fun startedAt => ?_
  refine Safe.bind lockPair_safe fun _ held pend h hlocked => ?_
  obtain ⟨hkeys, rfl⟩ := hlocked
  -- the transaction that only labels the row
  have hlabels : ∀ {id : String} {r : BindResult} {h : History ι Db Write},
      Safe D i (Prog.now.bind fun identifiedAt =>
        (setAppUserId id appUserId identifiedAt).bind fun _ => .done r) held [] h
        fun r held pend h => ∀ h', D.inv h' → D.rely i held h h' →
          D.law i held pend h' ∧ (D.cond i pend h' → Idle r (∅ : Set LockKey) [] (h'.commit i pend)) := by
    intro id r h
    refine Safe.bind_iff.2 (Safe.now fun identifiedAt => ?_)
    refine Safe.bind_iff.2 (Safe.exec fun h₁ _ _ h' _ _ => ⟨?_, fun _ => ⟨rfl, rfl⟩⟩)
    refine hm.label (fun k hk => .inr (hkeys k hk)) fun w hw => ?_
    obtain rfl := List.mem_singleton.1 hw
    exact ⟨rfl, rfl⟩
  refine Safe.bind bindSelf_safe fun self held' pend h₁ hself => ?_
  obtain ⟨rfl, rfl, hpresent⟩ := hself
  split_ifs
  · exact hlabels
  · exact fun _ _ _ => ⟨hm.label hkeys (by simp), fun _ => ⟨rfl, rfl⟩⟩
  refine Safe.bind_iff.2 (Safe.query fun h₂ hi₂ hr₂ => ?_)
  dsimp only
  cases hother : (findSubscriberByAppUserId projectId appUserId (applyAll h₂.db [])).filter
      fun row => row.2.deletedAt.isNone && decide (row.1 ≠ self.1) with
  | none => exact hlabels
  | some other =>
    obtain ⟨hget, hholder⟩ := Option.filter_eq_some_iff.1 hother
    simp only [Bool.and_eq_true, Option.isNone_iff_eq_none, decide_eq_true_eq] at hholder
    have hparties := hfound hkeys hpresent hr₂ hi₂ hget hholder.1 hholder.2
    refine (reassignAllAssets_safe ⟨other.1, appUserId⟩ ⟨self.1, rovenueId⟩ hm hkeys hparties).bind fun moved held pend h hend => ?_
    obtain ⟨hkeys, hparties, hsource, hhanded⟩ := hend
    refine Safe.bind_iff.2 (Safe.now fun identifiedAt => ?_)
    refine Safe.bind_iff.2 (Safe.exec fun h₃ _ hr₃ h' _ hr => ⟨?_, fun _ => ⟨rfl, rfl⟩⟩)
    exact hm.commits (fun k hk => .inr (hkeys k hk)) (hm.parties hkeys hr₃ hparties) hsource
      ((hhanded.kept hsource (hm.wallets hkeys hr₃)).labelled self.1 rfl) hr

end Merges
end Rovenue
