import Rovenue.Ledger.SubscriberTransfer
import Rovenue.Ledger.WalletConservation

/-! What one merge, run alone, does to the database: the rows it hands on, and the row it
leaves behind. -/

namespace Rovenue
open Txn

structure Footing where
  projectId : String
  rovenueId : String
  dead : Bool
  mergedInto : Option String
deriving DecidableEq

def Subscriber.footing (r : Subscriber) : Footing :=
  ⟨r.projectId, r.rovenueId, r.deletedAt.isSome, r.mergedInto⟩

def Footing.mergedAway (r : Footing) (y : String) : Footing :=
  { r with dead := true, mergedInto := some y }

def footingOf (s : Db) (id : String) : Option Footing :=
  (s.subscribers.get? id).map Subscriber.footing

def purchaseOwner (s : Db) (key : PurchaseKey) : Option String :=
  (s.purchases.get? key).map Purchase.subscriberId

def accessOwner (s : Db) (id : String) : Option String :=
  (s.subscriberAccess.get? id).map SubscriberAccess.subscriberId

def handOn (x y o : String) : String := if o = x then y else o

/-- No row changes hands; new access rows are `y`'s. -/
structure Kept (y : String) (s s' : Db) : Prop where
  footing : ∀ id, footingOf s' id = footingOf s id
  purchases : ∀ key, purchaseOwner s' key = purchaseOwner s key
  access : ∀ id o, accessOwner s id = some o → accessOwner s' id = some o
  fresh : ∀ id o, accessOwner s id = none → accessOwner s' id = some o → o = y
  ledger : s'.creditLedger = s.creditLedger

/-- `x` is merged into `y`. The balances follow where the ledger's newest rows are the
transaction's own. -/
structure Merged (startedAt : ℤ) (s s' : Db) (x y : String) : Prop where
  ne : x ≠ y
  source : ∃ r, footingOf s x = some r ∧ r.dead = false
  target : ∃ r, footingOf s y = some r ∧ r.dead = false
  footing : ∀ id, footingOf s' id =
    if id = x then (footingOf s x).map (·.mergedAway y) else footingOf s id
  purchases : ∀ key, purchaseOwner s' key = (purchaseOwner s key).map (handOn x y)
  access : ∀ id o, accessOwner s id = some o → accessOwner s' id = some (handOn x y o)
  fresh : ∀ id o, accessOwner s id = none → accessOwner s' id = some o → o = y
  balances : (∀ row ∈ s.creditLedger, row.createdAt < startedAt) → ∀ cur,
    balance .createdAt s' x cur = min (balance .createdAt s x cur) 0 ∧
    balance .createdAt s' y cur =
      balance .createdAt s y cur + max (balance .createdAt s x cur) 0 ∧
    ∀ z, z ≠ x → z ≠ y → balance .createdAt s' z cur = balance .createdAt s z cur

section Kept
variable {s s' s'' : Db} {x y : String} {startedAt : ℤ}

theorem Kept.refl (y : String) (s : Db) : Kept y s s :=
  ⟨fun _ => rfl, fun _ => rfl, fun _ _ => id, fun _ _ hnone hsome => by simp [hnone] at hsome, rfl⟩

theorem Kept.trans (h : Kept y s s') (h' : Kept y s' s'') : Kept y s s'' where
  footing id := (h'.footing id).trans (h.footing id)
  purchases key := (h'.purchases key).trans (h.purchases key)
  access id o ho := h'.access id o (h.access id o ho)
  fresh id o hnone hsome := by
    rcases hmid : accessOwner s' id with _ | o'
    · exact h'.fresh id o hmid hsome
    · have hsame := h'.access id o' hmid
      obtain rfl := Option.some.inj (hsame.symm.trans hsome)
      exact h.fresh id _ hnone hmid
  ledger := h'.ledger.trans h.ledger

theorem Merged.trans_kept (h : Merged startedAt s s' x y) (h' : Kept y s' s'') :
    Merged startedAt s s'' x y where
  ne := h.ne
  source := h.source
  target := h.target
  footing id := (h'.footing id).trans (h.footing id)
  purchases key := (h'.purchases key).trans (h.purchases key)
  access id o ho := h'.access id _ (h.access id o ho)
  fresh id o hnone hsome := by
    rcases hmid : accessOwner s' id with _ | o'
    · exact h'.fresh id o hmid hsome
    · have hsame := h'.access id o' hmid
      obtain rfl := Option.some.inj (hsame.symm.trans hsome)
      exact h.fresh id _ hnone hmid
  balances hnew cur := by
    have hbalance := fun sub => balance_of_creditLedger_eq h'.ledger .createdAt sub cur
    simp only [hbalance]
    exact h.balances hnew cur

theorem kept_updateSubscriber {id : String} {set : SubscriberPatch} (hdead : set.deletedAt = none)
    (hmerged : set.mergedInto = none) : Kept y s (s.write (.updateSubscriber id set)) where
  footing id' := by
    simp only [footingOf, Db.write, Table.get?_modify]
    split_ifs
    · rw [Option.map_map]
      refine congrArg (fun g => Option.map g _) (funext fun r => ?_)
      simp [Subscriber.footing, SubscriberPatch.apply, hdead, hmerged]
    · rfl
  purchases _ := rfl
  access _ _ ho := ho
  fresh _ _ hnone hsome := absurd (hnone.symm.trans hsome) (Option.some_ne_none _).symm
  ledger := rfl

end Kept

def Write.Reconciles (y : String) : Write → Prop
  -- new access rows of `y`, and updates that leave the owner
  | .insertAccess _ row => row.subscriberId = y
  | .updateAccess _ set => set.subscriberId = none
  | _ => False

theorem Write.Reconciles.kept {y : String} {w : Write} (h : w.Reconciles y) (s : Db) :
    Kept y s (s.write w) := by
  have hothers : ∀ t : Table String SubscriberAccess,
      (∀ id, (t.get? id).map SubscriberAccess.subscriberId = accessOwner s id ∨
        accessOwner s id = none ∧ (t.get? id).map SubscriberAccess.subscriberId = some y) →
      Kept y s { s with subscriberAccess := t } := by
    intro t ht
    refine ⟨fun _ => rfl, fun _ => rfl, fun id o ho => ?_, fun id o hnone hsome => ?_, rfl⟩
    · obtain hsame | ⟨hnone, -⟩ := ht id
      · exact hsame.trans ho
      · rw [hnone] at ho
        cases ho
    · obtain hsame | ⟨-, hnew⟩ := ht id
      · rw [← hsame] at hnone
        exact absurd (hnone.symm.trans hsome) (Option.some_ne_none _).symm
      · exact Option.some.inj (hsome.symm.trans hnew)
  cases w with
  | insertAccess id row =>
    refine hothers _ fun id' => ?_
    rw [Table.get?_insert]
    split_ifs with hid
    · subst hid
      rcases hr : s.subscriberAccess.get? id' with _ | r
      · exact .inr ⟨by rw [accessOwner, hr]; rfl, congrArg some h⟩
      · exact .inl (by rw [accessOwner, hr]; rfl)
    · exact .inl rfl
  | updateAccess id set =>
    have hset : set.subscriberId = none := h
    refine hothers _ fun id' => .inl ?_
    rw [Table.get?_modify]
    split_ifs
    · rw [Option.map_map]
      refine congrArg (fun g => Option.map g _) (funext fun r => ?_)
      simp [AccessPatch.apply, hset]
    · rfl
  | _ => exact h.elim

theorem syncAccess_reconciles (subscriberId : String) :
    (syncAccess subscriberId).Each fun _ ws => ∀ w ∈ ws, w.Reconciles subscriberId := by
  have hnil : ∀ _ : Db, ∀ w ∈ ([] : List Write), w.Reconciles subscriberId := by simp
  have hupdate : ∀ (id : String) (isActive : Bool) (expiresDate : Option (Option ℤ)),
      (updateAccess id { isActive := some isActive, expiresDate := expiresDate }).Each
        fun _ ws => ∀ w ∈ ws, w.Reconciles subscriberId :=
    fun id isActive expiresDate => Prog.each_exec fun _ => by simp [Write.Reconciles]
  refine Prog.Each.transaction fun _ => (Prog.each_acquire hnil _).bind fun _ =>
    (Prog.each_query hnil _).bind fun purchases now => (Prog.each_query hnil _).bind fun current => ?_
  refine (Prog.each_forEach _ fun record _ => ?_).bind fun _ =>
    Prog.each_forEach _ fun entry _ => ?_
  · unfold deactivateStale
    split_ifs
    · exact hupdate _ _ _
    · trivial
  · unfold repairAccess
    cases sourceRecord current entry.1 entry.2.purchaseId with
    | none => exact fun _ => Prog.each_exec fun _ => by simp [Write.Reconciles]
    | some existing =>
      dsimp only
      split_ifs
      · exact hupdate _ _ _
      · trivial

theorem syncAccess_kept {subscriberId : String} {c c' : Session Db Write String} {u : Unit}
    (h : (syncAccess subscriberId).Returns c u c') : Kept subscriberId c.view c'.view :=
  Prog.Each.returns (.refl _) .trans (fun s _ hws => applyAll_induct (.refl _) .trans
    (fun w hw s => (hws w hw).kept s) s) (syncAccess_reconciles subscriberId) h

theorem mem_purchasesOf {s : Db} {x : String} {key : PurchaseKey} :
    key ∈ purchasesOf x s ↔ purchaseOwner s key = some x := by
  simp only [purchasesOf, List.mem_map, List.mem_filter, decide_eq_true_eq, purchaseOwner,
    Option.map_eq_some_iff]
  constructor
  · rintro ⟨e, ⟨he, ho⟩, rfl⟩
    exact ⟨e.2, s.purchases.mem_entries.1 he, ho⟩
  · rintro ⟨r, hr, ho⟩
    exact ⟨(key, r), ⟨s.purchases.mem_entries.2 hr, ho⟩, rfl⟩

theorem mem_accessRowsOf {s : Db} {x id : String} :
    id ∈ accessRowsOf x s ↔ accessOwner s id = some x := by
  simp only [accessRowsOf, List.mem_map, List.mem_filter, decide_eq_true_eq, accessOwner,
    Option.map_eq_some_iff]
  constructor
  · rintro ⟨e, ⟨he, ho⟩, rfl⟩
    exact ⟨e.2, s.subscriberAccess.mem_entries.1 he, ho⟩
  · rintro ⟨r, hr, ho⟩
    exact ⟨(id, r), ⟨s.subscriberAccess.mem_entries.2 hr, ho⟩, rfl⟩

theorem applyAll_updatePurchases (s : Db) (keys : List PurchaseKey) (g : StatusGuard)
    (p : PurchasePatch) : applyAll s (keys.map fun key => Write.updatePurchase key g p) =
      { s with purchases := keys.foldl (fun t k => t.modify k (g.patch p)) s.purchases } := by
  induction keys generalizing s with
  | nil => rfl
  | cons key keys ih =>
    rw [List.map_cons, applyAll_cons, ih]
    rfl

theorem applyAll_updateAccess (s : Db) (ids : List String) (p : AccessPatch) :
    applyAll s (ids.map fun id => Write.updateAccess id p) =
      { s with subscriberAccess := ids.foldl (fun t k => t.modify k p.apply) s.subscriberAccess } := by
  induction ids generalizing s with
  | nil => rfl
  | cons id ids ih =>
    rw [List.map_cons, applyAll_cons, ih]
    rfl

theorem purchaseOwner_reassign (s : Db) (x y : String) (key : PurchaseKey) :
    purchaseOwner (applyAll s ((purchasesOf x s).map fun key =>
      Write.updatePurchase key .unguarded { subscriberId := some y })) key =
      (purchaseOwner s key).map (handOn x y) := by
  have hidem : ∀ r : Purchase,
      StatusGuard.unguarded.patch { subscriberId := some y }
        (StatusGuard.unguarded.patch { subscriberId := some y } r) =
      StatusGuard.unguarded.patch { subscriberId := some y } r := fun _ => rfl
  rw [applyAll_updatePurchases, purchaseOwner, Table.get?_foldl_modify _ hidem]
  rcases hr : s.purchases.get? key with _ | r
  · simp [purchaseOwner, hr]
  · have howner : purchaseOwner s key = some r.subscriberId := by rw [purchaseOwner, hr]; rfl
    simp only [mem_purchasesOf, howner, Option.some_inj]
    split_ifs with hx
    · simp [StatusGuard.patch, PurchasePatch.apply, handOn, hx]
    · simp [handOn, hx]

theorem accessOwner_reassign (s : Db) (x y id : String) :
    accessOwner (applyAll s ((accessRowsOf x s).map fun id =>
      Write.updateAccess id { subscriberId := some y })) id =
      (accessOwner s id).map (handOn x y) := by
  have hidem : ∀ r : SubscriberAccess,
      AccessPatch.apply { subscriberId := some y } (AccessPatch.apply { subscriberId := some y } r) =
      AccessPatch.apply { subscriberId := some y } r := fun _ => rfl
  rw [applyAll_updateAccess, accessOwner, Table.get?_foldl_modify _ hidem]
  rcases hr : s.subscriberAccess.get? id with _ | r
  · simp [accessOwner, hr]
  · have howner : accessOwner s id = some r.subscriberId := by rw [accessOwner, hr]; rfl
    simp only [mem_accessRowsOf, howner, Option.some_inj]
    split_ifs with hx
    · simp [AccessPatch.apply, handOn, hx]
    · simp [handOn, hx]

def Older (startedAt : ℤ) (s : Db) (sub cur : String) : Prop :=
  ∀ row ∈ walletRows s sub cur, row.createdAt < startedAt

theorem insert_otherWallet (s : Db) {found : ℤ} {row : CreditLedgerRow} {sub cur : String}
    (h : ¬(row.subscriberId = sub ∧ row.currencyId = cur)) :
    walletRows (s.write (.insertCreditLedger found row)) sub cur = walletRows s sub cur := by
  rw [walletRows_insert, if_neg h]

theorem balance_insert_newest {s : Db} {found : ℤ} {row : CreditLedgerRow}
    (h : Older row.createdAt s row.subscriberId row.currencyId) (sub cur : String) :
    balance .createdAt (s.write (.insertCreditLedger found row)) sub cur =
      if row.subscriberId = sub ∧ row.currencyId = cur then row.balance
      else balance .createdAt s sub cur := by
  split_ifs with hwallet
  · obtain ⟨rfl, rfl⟩ := hwallet
    rw [balance_insert, if_pos fun r hr => .inl (h r hr)]
  · rw [balance, findLatestBalance, insert_otherWallet s hwallet]
    rfl

theorem insertCreditLedger_returns {startedAt found : ℤ} {entry : CreditLedgerEntry}
    {c c' : Session Db Write String} {row : CreditLedgerRow}
    (h : (insertCreditLedger startedAt found entry).Returns c row c') :
    ∃ id, row = entry.row id startedAt ∧ c'.view = c.view.write (.insertCreditLedger found row) := by
  unfold insertCreditLedger at h
  split_ifs at h
  · exact absurd h Prog.returns_throw
  · simp only [Prog.bind_eq, Prog.returns_bind, Prog.returns_fresh, Prog.returns_exec] at h
    obtain ⟨id, c₁, ⟨-, rfl⟩, rfl, rfl⟩ := h
    exact ⟨id, rfl, rfl⟩
  · exact absurd h Prog.returns_throw

section Balances
variable {startedAt : ℤ} {projectId : String} {source target : MergeParty}
  {c c' : Session Db Write String} {moved : ℤ}

theorem transferBalances_ledger {order : LedgerOrder} {balances : List (String × ℤ)}
    (h : (transferBalances order startedAt projectId source target balances).Returns c moved c') :
    ∃ ledger, c'.view = { c.view with creditLedger := ledger } := by
  induction balances generalizing c moved with
  | nil =>
    obtain ⟨-, rfl⟩ := Prog.returns_done.1 h
    exact ⟨_, rfl⟩
  | cons entry rest ih =>
    unfold transferBalances at h
    split_ifs at h
    · exact ih h
    · simp only [Prog.bind_eq, Prog.returns_bind, Prog.returns_query, Prog.pure_eq,
        Prog.returns_done] at h
      obtain ⟨out, c₁, hout, toBal, c₂, ⟨-, rfl⟩, ins, c₃, hins, rest', c₄, hrest, -, rfl⟩ := h
      obtain ⟨-, -, hview⟩ := insertCreditLedger_returns hout
      obtain ⟨-, -, hview'⟩ := insertCreditLedger_returns hins
      obtain ⟨ledger, hledger⟩ := ih hrest
      refine ⟨ledger, ?_⟩
      rw [hledger, hview', hview]
      rfl

section TwoRows
variable {s s₁ s₂ : Db} {currencyId outId inId : String} {amount toBal found found' : ℤ}

theorem balance_twoRows (hne : source.id ≠ target.id)
    (hamount : amount = balance .createdAt s source.id currencyId)
    (hsource : Older startedAt s source.id currencyId)
    (htarget : Older startedAt s target.id currencyId)
    (hout : s₁ = s.write (.insertCreditLedger found
      ((transferOut projectId source target currencyId amount).row outId startedAt)))
    (htoBal : balance .createdAt s₁ target.id currencyId = toBal)
    (hin : s₂ = s₁.write (.insertCreditLedger found'
      ((transferIn projectId source target currencyId amount toBal).row inId startedAt)))
    (sub cur : String) :
    balance .createdAt s₂ sub cur =
      if cur = currencyId then
        if sub = source.id then 0
        else if sub = target.id then
          balance .createdAt s target.id cur + balance .createdAt s source.id cur
        else balance .createdAt s sub cur
      else balance .createdAt s sub cur := by
  have hfirst : ∀ sub cur, balance .createdAt s₁ sub cur =
      if source.id = sub ∧ currencyId = cur then 0 else balance .createdAt s sub cur := by
    intro sub cur
    rw [hout, balance_insert_newest hsource]
    rfl
  have htarget' : Older startedAt s₁ target.id currencyId := by
    rw [Older, hout, insert_otherWallet _ fun h => hne h.1]
    exact htarget
  have hto : toBal = balance .createdAt s target.id currencyId := by
    rw [← htoBal, hfirst, if_neg fun h => hne h.1]
  rw [hin, balance_insert_newest htarget', hfirst]
  simp only [transferIn, CreditLedgerEntry.row, hto, hamount]
  by_cases hcur : cur = currencyId
  · subst hcur
    by_cases hs : sub = source.id
    · subst hs
      simp [Ne.symm hne]
    · by_cases ht : sub = target.id
      · subst ht
        simp [hs]
      · simp [hs, ht, Ne.symm hs, Ne.symm ht]
  · simp [hcur, Ne.symm hcur]

theorem walletRows_twoRows (hout : s₁ = s.write (.insertCreditLedger found
      ((transferOut projectId source target currencyId amount).row outId startedAt)))
    (hin : s₂ = s₁.write (.insertCreditLedger found'
      ((transferIn projectId source target currencyId amount toBal).row inId startedAt)))
    (sub : String) {cur : String} (hcur : currencyId ≠ cur) :
    walletRows s₂ sub cur = walletRows s sub cur := by
  rw [hin, insert_otherWallet _ fun h => hcur h.2, hout, insert_otherWallet _ fun h => hcur h.2]

end TwoRows

theorem transferBalances_balance (hne : source.id ≠ target.id) {balances : List (String × ℤ)}
    (hnodup : (balances.map Prod.fst).Nodup)
    (hread : ∀ e ∈ balances, e.2 = balance .createdAt c.view source.id e.1)
    (holder : ∀ e ∈ balances, Older startedAt c.view source.id e.1 ∧
      Older startedAt c.view target.id e.1)
    (h : (transferBalances .createdAt startedAt projectId source target balances).Returns c moved
      c') (sub cur : String) :
    balance .createdAt c'.view sub cur =
      if cur ∈ balances.map Prod.fst ∧ 0 < balance .createdAt c.view source.id cur then
        if sub = source.id then 0
        else if sub = target.id then
          balance .createdAt c.view target.id cur + balance .createdAt c.view source.id cur
        else balance .createdAt c.view sub cur
      else balance .createdAt c.view sub cur := by
  induction balances generalizing c moved with
  | nil =>
    obtain ⟨-, rfl⟩ := Prog.returns_done.1 h
    simp
  | cons entry rest ih =>
    obtain ⟨hhead, hrest⟩ := List.nodup_cons.1 (List.map_cons .. ▸ hnodup)
    obtain ⟨currencyId, amount⟩ := entry
    have hamount : amount = balance .createdAt c.view source.id currencyId :=
      hread _ (List.mem_cons_self ..)
    obtain ⟨hsource, htarget⟩ := holder _ (List.mem_cons_self ..)
    have hmem : cur ≠ currencyId →
        (cur ∈ ((currencyId, amount) :: rest).map Prod.fst ↔ cur ∈ rest.map Prod.fst) := by
      intro hcur
      rw [List.map_cons, List.mem_cons, or_iff_right hcur]
    unfold transferBalances at h
    split_ifs at h with hle
    · rw [ih hrest (fun e he => hread e (List.mem_cons_of_mem _ he))
        (fun e he => holder e (List.mem_cons_of_mem _ he)) h]
      by_cases hcur : cur = currencyId
      · subst hcur
        have hnot : ¬0 < balance .createdAt c.view source.id cur := by
          have hle' : amount ≤ 0 := hle
          omega
        simp only [hnot, and_false, if_false]
      · simp only [hmem hcur]
    · simp only [Prog.bind_eq, Prog.returns_bind, Prog.returns_query, Prog.pure_eq,
        Prog.returns_done] at h
      obtain ⟨out, c₁, hout, toBal, c₂, ⟨htoBal, rfl⟩, ins, c₃, hins, rest', c₄, hloop, -, rfl⟩ := h
      obtain ⟨outId, rfl, hview⟩ := insertCreditLedger_returns hout
      obtain ⟨inId, rfl, hview'⟩ := insertCreditLedger_returns hins
      have hbalance := balance_twoRows hne hamount hsource htarget hview htoBal hview'
      have hother : ∀ sub, ∀ e ∈ rest, walletRows c₃.view sub e.1 = walletRows c.view sub e.1 := by
        intro sub e he
        have hecur : currencyId ≠ e.1 := fun h => hhead (List.mem_map.2 ⟨e, he, h.symm⟩)
        exact walletRows_twoRows hview hview' sub hecur
      have hreadRest : ∀ e ∈ rest, e.2 = balance .createdAt c₃.view source.id e.1 := by
        intro e he
        rw [balance, findLatestBalance, hother source.id e he]
        exact hread e (List.mem_cons_of_mem _ he)
      have holderRest : ∀ e ∈ rest, Older startedAt c₃.view source.id e.1 ∧
          Older startedAt c₃.view target.id e.1 := by
        intro e he
        rw [Older, Older, hother source.id e he, hother target.id e he]
        exact holder e (List.mem_cons_of_mem _ he)
      rw [ih hrest hreadRest holderRest hloop]
      simp only [hbalance]
      by_cases hcur : cur = currencyId
      · subst hcur
        have hpos : 0 < balance .createdAt c.view source.id cur := by
          rw [← hamount]
          omega
        have hnotin : cur ∉ rest.map Prod.fst := hhead
        simp [hnotin, hpos]
      · simp only [hmem hcur, hcur, if_false]

theorem transferBalances_all (hne : source.id ≠ target.id)
    (hnew : ∀ row ∈ c.view.creditLedger, row.createdAt < startedAt)
    (h : (transferBalances .createdAt startedAt projectId source target
      (findAllBalances .createdAt source.id c.view)).Returns c moved c') (cur : String) :
    balance .createdAt c'.view source.id cur = min (balance .createdAt c.view source.id cur) 0 ∧
    balance .createdAt c'.view target.id cur =
      balance .createdAt c.view target.id cur + max (balance .createdAt c.view source.id cur) 0 ∧
    ∀ z, z ≠ source.id → z ≠ target.id →
      balance .createdAt c'.view z cur = balance .createdAt c.view z cur := by
  have holder : ∀ sub cur, Older startedAt c.view sub cur :=
    fun sub cur row hrow => hnew row (List.mem_of_mem_filter hrow)
  have hread : ∀ e ∈ findAllBalances .createdAt source.id c.view,
      e.2 = balance .createdAt c.view source.id e.1 := by
    intro e he
    obtain ⟨cur, -, rfl⟩ := List.mem_map.1 he
    rfl
  have hloop := transferBalances_balance hne (nodup_findAllBalances ..) hread
    (fun e _ => ⟨holder _ _, holder _ _⟩) h
  -- a wallet without rows reads as nothing, so the loop misses no positive balance
  have hempty : 0 < balance .createdAt c.view source.id cur →
      cur ∈ (findAllBalances .createdAt source.id c.view).map Prod.fst := by
    intro hpos
    rw [mem_findAllBalances]
    intro hnil
    rw [balance, findLatestBalance, hnil] at hpos
    exact absurd hpos (lt_irrefl 0)
  simp only [hloop]
  by_cases hpos : 0 < balance .createdAt c.view source.id cur
  · have hcond := And.intro (hempty hpos) hpos
    simp only [if_pos hcond, if_true, if_neg (Ne.symm hne)]
    refine ⟨by omega, by omega, fun z hzx hzy => ?_⟩
    rw [if_neg hzx, if_neg hzy]
  · simp only [hpos, and_false, if_false]
    exact ⟨by omega, by omega, fun _ _ _ => trivial⟩

end Balances

def Live (s : Db) (id : String) : Prop := ∃ r, footingOf s id = some r ∧ r.dead = false

theorem live_of_get {s : Db} {row : SubscriberRow} (hrow : s.subscribers.get? row.1 = some row.2)
    (hlive : row.2.deletedAt = none) : Live s row.1 :=
  ⟨row.2.footing, by rw [footingOf, hrow]; rfl, by simp [Subscriber.footing, hlive]⟩

theorem footingOf_softDelete (s : Db) (x y : String) (deletedAt : ℤ) (id : String) :
    footingOf (s.write (.updateSubscriber x
      { deletedAt := some deletedAt, mergedInto := some y })) id =
      if id = x then (footingOf s x).map (·.mergedAway y) else footingOf s id := by
  simp only [footingOf, Db.write, Table.get?_modify]
  split_ifs with hid
  · subst hid
    rw [Option.map_map, Option.map_map]
    rfl
  · rfl

section Merge
variable {startedAt : ℤ} {projectId : String} {source target : MergeParty}
  {c c' : Session Db Write String} {moved : ℤ}

theorem reassignPurchases_returns {x y : String} {u : Unit}
    (h : (reassignPurchases x y).Returns c u c') :
    (∃ t, c'.view = { c.view with purchases := t }) ∧
      ∀ key, purchaseOwner c'.view key = (purchaseOwner c.view key).map (handOn x y) := by
  obtain ⟨-, rfl⟩ := Prog.returns_exec.1 h
  exact ⟨⟨_, applyAll_updatePurchases ..⟩, purchaseOwner_reassign c.view x y⟩

theorem reassignSubscriberAccess_returns {x y : String} {u : Unit}
    (h : (reassignSubscriberAccess x y).Returns c u c') :
    (∃ t, c'.view = { c.view with subscriberAccess := t }) ∧
      ∀ id, accessOwner c'.view id = (accessOwner c.view id).map (handOn x y) := by
  obtain ⟨-, rfl⟩ := Prog.returns_exec.1 h
  exact ⟨⟨_, applyAll_updateAccess ..⟩, accessOwner_reassign c.view x y⟩

theorem softDeleteSubscriberAsMerged_returns {x y : String} {deletedAt : ℤ} {u : Unit}
    (h : (softDeleteSubscriberAsMerged x y deletedAt).Returns c u c') :
    (∃ t, c'.view = { c.view with subscribers := t }) ∧
      ∀ id, footingOf c'.view id =
        if id = x then (footingOf c.view x).map (·.mergedAway y) else footingOf c.view id := by
  obtain ⟨-, rfl⟩ := Prog.returns_exec.1 h
  exact ⟨⟨_, rfl⟩, footingOf_softDelete c.view x y deletedAt⟩

theorem reassignAllAssets_merged (hne : source.id ≠ target.id) (hsource : Live c.view source.id)
    (htarget : Live c.view target.id)
    (h : (reassignAllAssets .createdAt startedAt projectId source target).Returns c moved c') :
    Merged startedAt c.view c'.view source.id target.id := by
  unfold reassignAllAssets at h
  simp only [Prog.bind_eq, Prog.returns_bind, Prog.returns_query] at h
  obtain ⟨fromRow, c₁, ⟨-, rfl⟩, toRow, c₂, ⟨-, rfl⟩, h⟩ := h
  split_ifs at h
  · exact absurd h Prog.returns_throw
  · exact absurd h Prog.returns_throw
  simp only [Prog.returns_bind, Prog.returns_query, Prog.returns_now, Prog.pure_eq,
    Prog.returns_done] at h
  obtain ⟨_, c₃, hpurchases, _, c₄, haccess, balances, c₅, ⟨rfl, rfl⟩, credits, c₆, hloop,
    deletedAt, c₇, ⟨-, rfl⟩, _, c₈, hdelete, -, rfl⟩ := h
  obtain ⟨⟨purchases, hview₃⟩, howner₃⟩ := reassignPurchases_returns hpurchases
  obtain ⟨⟨access, hview₄⟩, howner₄⟩ := reassignSubscriberAccess_returns haccess
  obtain ⟨ledger, hview₆⟩ := transferBalances_ledger hloop
  obtain ⟨⟨subscribers, hview₈⟩, hfooting⟩ := softDeleteSubscriberAsMerged_returns hdelete
  rw [Session.tick_view] at hview₈ hfooting
  have hledger₄ : c₄.view.creditLedger = c.view.creditLedger := by rw [hview₄, hview₃]
  constructor
  · exact hne
  · exact hsource
  · exact htarget
  · intro id
    have hsame : ∀ id, footingOf c₆.view id = footingOf c.view id := by
      intro id
      rw [hview₆, hview₄, hview₃]
      rfl
    rw [hfooting, hsame, hsame]
  · intro key
    have hsame : purchaseOwner c₈.view key = purchaseOwner c₃.view key := by
      rw [hview₈, hview₆, hview₄]
      rfl
    rw [hsame, howner₃]
  · intro id o ho
    have hsame : accessOwner c₈.view id = accessOwner c₄.view id := by
      rw [hview₈, hview₆]
      rfl
    have hbefore : accessOwner c₃.view id = accessOwner c.view id := by
      rw [hview₃]
      rfl
    rw [hsame, howner₄, hbefore, ho]
    rfl
  · intro id o hnone hsome
    have hsame : accessOwner c₈.view id = accessOwner c₄.view id := by
      rw [hview₈, hview₆]
      rfl
    have hbefore : accessOwner c₃.view id = accessOwner c.view id := by
      rw [hview₃]
      rfl
    rw [hsame, howner₄, hbefore, hnone] at hsome
    cases hsome
  · intro hnew cur
    have hnew₄ : ∀ row ∈ c₄.view.creditLedger, row.createdAt < startedAt := by
      rw [hledger₄]
      exact hnew
    have hbefore : ∀ sub, balance .createdAt c₄.view sub cur = balance .createdAt c.view sub cur :=
      fun sub => balance_of_creditLedger_eq hledger₄ .createdAt sub cur
    have hafter : ∀ sub, balance .createdAt c₈.view sub cur = balance .createdAt c₆.view sub cur :=
      fun sub => balance_of_creditLedger_eq (by rw [hview₈]) .createdAt sub cur
    simp only [hafter, ← hbefore]
    exact transferBalances_all hne hnew₄ hloop cur

end Merge

section Services
variable {projectId : String} {c c' : Session Db Write String}

theorem lockPair_returns {a b : String} {u : Unit} (h : (lockPair a b).Returns c u c') : c = c' := by
  simp only [lockPair, Prog.bind_eq, Prog.returns_bind, Prog.returns_acquire] at h
  obtain ⟨_, _, rfl, rfl⟩ := h
  rfl

theorem syncAccess_after {subscriberId : String} {α : Type} {a a' : α}
    (h : ((syncAccess subscriberId).bind fun _ => (.done a : Service α)).Returns c a' c') :
    Kept subscriberId c.view c'.view := by
  obtain ⟨_, c₁, hsync, hdone⟩ := Prog.returns_bind.1 h
  obtain ⟨-, rfl⟩ := Prog.returns_done.1 hdone
  exact syncAccess_kept hsync

theorem transferSubscriber_merged {fromAppUserId toAppUserId : String} {result : TransferResult}
    (h : (transferSubscriber .createdAt projectId fromAppUserId toAppUserId).Returns c result c') :
    ∃ x y, Merged (c.clock 0) c.view c'.view x y := by
  unfold transferSubscriber at h
  split_ifs at h with hsame
  · exact absurd h Prog.returns_throw
  simp only [Prog.bind_eq, Prog.pure_eq, Prog.returns_bind] at h
  obtain ⟨result', c₁, htransfer, hsync⟩ := h
  have hkept := syncAccess_after (Prog.returns_bind.2 hsync)
  unfold transferTransaction at htransfer
  simp only [Prog.returns_transaction, Prog.bind_eq, Prog.returns_bind] at htransfer
  obtain ⟨_, c₂, hlock, found, c₃, hquery, htransfer⟩ := htransfer
  obtain rfl := lockPair_returns hlock
  obtain ⟨hfound, rfl⟩ := Prog.returns_query.1 hquery
  rcases found with _ | source
  · exact absurd htransfer Prog.returns_throw
  obtain ⟨hsource, hsourceLabel⟩ := findSubscriberByAppUserId_some hfound
  dsimp only at htransfer
  split_ifs at htransfer with hdead
  · exact absurd htransfer Prog.returns_throw
  obtain ⟨found, c₄, hquery', htransfer⟩ := Prog.returns_bind.1 htransfer
  obtain ⟨hfound', rfl⟩ := Prog.returns_query.1 hquery'
  rcases found with _ | target
  · exact absurd htransfer Prog.returns_throw
  obtain ⟨htarget, htargetLabel⟩ := findSubscriberByAppUserId_some hfound'
  dsimp only at htransfer
  split_ifs at htransfer with hdead'
  · exact absurd htransfer Prog.returns_throw
  obtain ⟨credits, c₅, hmerge, hdone⟩ := Prog.returns_bind.1 htransfer
  obtain ⟨rfl, rfl⟩ := Prog.returns_done.1 hdone
  have hne : source.1 ≠ target.1 := by
    intro heq
    rw [heq, htarget] at hsource
    rw [← Option.some.inj hsource, htargetLabel] at hsourceLabel
    exact hsame (Option.some.inj hsourceLabel).symm
  have hsourceLive := live_of_get hsource (by simpa using hdead)
  have htargetLive := live_of_get htarget (by simpa using hdead')
  have hmerged := reassignAllAssets_merged (by exact hne) (by exact hsourceLive)
    (by exact htargetLive) hmerge
  exact ⟨source.1, target.1, hmerged.trans_kept hkept⟩

theorem followMergedInto_live {hops : ℕ} {cursor : SubscriberRow} {found : Option SubscriberRow}
    (hcursor : c.view.subscribers.get? cursor.1 = some cursor.2)
    (h : (followMergedInto hops cursor).Returns c found c') :
    c = c' ∧ ∀ row ∈ found, c.view.subscribers.get? row.1 = some row.2 ∧ row.2.deletedAt = none := by
  induction hops generalizing cursor with
  | zero =>
    obtain ⟨rfl, rfl⟩ := Prog.returns_done.1 h
    refine ⟨rfl, fun row hrow => ?_⟩
    split_ifs at hrow with hdead
    · cases hrow
    · obtain rfl := Option.some.inj hrow
      exact ⟨hcursor, by simpa using hdead⟩
  | succ hops ih =>
    unfold followMergedInto at h
    split at h
    · next target hdead hmerged =>
      simp only [Prog.bind_eq, Prog.returns_bind] at h
      obtain ⟨next, c₁, hquery, h⟩ := h
      obtain ⟨hnext, rfl⟩ := Prog.returns_query.1 hquery
      rcases next with _ | next
      · obtain ⟨rfl, rfl⟩ := Prog.returns_done.1 h
        exact ⟨rfl, by simp⟩
      · obtain ⟨r, hr, rfl⟩ := Option.map_eq_some_iff.1 hnext
        exact ih hr h
    · next hlive =>
      obtain ⟨rfl, rfl⟩ := Prog.returns_done.1 h
      refine ⟨rfl, fun row hrow => ?_⟩
      obtain rfl := Option.some.inj hrow
      exact ⟨hcursor, hlive⟩
    · obtain ⟨rfl, rfl⟩ := Prog.returns_done.1 h
      exact ⟨rfl, by simp⟩

theorem bindSelf_returns {rovenueId : String} {self : SubscriberRow}
    (h : (bindSelf projectId rovenueId).Returns c self c') :
    c = c' ∧ c.view.subscribers.get? self.1 = some self.2 ∧ self.2.deletedAt = none := by
  unfold bindSelf at h
  simp only [Prog.bind_eq, Prog.returns_bind] at h
  obtain ⟨found, c₁, hquery, h⟩ := h
  obtain ⟨hfound, rfl⟩ := Prog.returns_query.1 hquery
  rcases found with _ | row
  · exact absurd h Prog.returns_throw
  dsimp only at h
  split_ifs at h with hdead
  · obtain ⟨canonical, c₂, hresolve, h⟩ := Prog.returns_bind.1 h
    simp only [resolveSubscriberByRovenueId, Prog.bind_eq, Prog.returns_bind] at hresolve
    obtain ⟨byRovenue, c₃, hquery', hresolve⟩ := hresolve
    obtain ⟨hby, rfl⟩ := Prog.returns_query.1 hquery'
    obtain rfl := hfound.symm.trans hby
    have halive : ¬row.2.deletedAt.isNone = true := by
      rw [Option.isNone_iff_eq_none]
      rintro hnone
      simp [hnone] at hdead
    dsimp only at hresolve
    rw [if_neg halive] at hresolve
    obtain ⟨rfl, hlive⟩ := followMergedInto_live (findSubscriberByRovenueId_some hfound) hresolve
    rcases canonical with _ | canonical
    · exact absurd h Prog.returns_throw
    · obtain ⟨rfl, rfl⟩ := Prog.returns_done.1 h
      exact ⟨rfl, hlive _ rfl⟩
  · obtain ⟨rfl, rfl⟩ := Prog.returns_done.1 h
    exact ⟨rfl, findSubscriberByRovenueId_some hfound, by simpa using hdead⟩

theorem setAppUserId_returns {y id appUserId : String} {α : Type} {a a' : α}
    (h : (Prog.now.bind fun identifiedAt => (setAppUserId id appUserId identifiedAt).bind
      fun _ => (.done a : Service α)).Returns c a' c') : a = a' ∧ Kept y c.view c'.view := by
  simp only [setAppUserId, updateSubscriber, Prog.returns_bind, Prog.returns_now,
    Prog.returns_exec, Prog.returns_done] at h
  obtain ⟨identifiedAt, c₁, ⟨-, rfl⟩, _, c₂, ⟨-, rfl⟩, rfl, rfl⟩ := h
  exact ⟨rfl, kept_updateSubscriber rfl rfl⟩

theorem bindAppUserId_merged {rovenueId appUserId : String} {result : BindResult}
    (h : (bindAppUserId .createdAt projectId rovenueId appUserId).Returns c result c') :
    (∃ y, Live c.view y ∧ Kept y c.view c'.view) ∨
      ∃ x y, Merged (c.clock 0) c.view c'.view x y := by
  unfold bindAppUserId at h
  simp only [Prog.bind_eq, Prog.pure_eq, Prog.returns_bind] at h
  obtain ⟨result', c₁, hbind, hafter⟩ := h
  have hkept : Kept result'.subscriberId c₁.view c'.view := by
    split_ifs at hafter
    · exact syncAccess_after hafter
    · obtain ⟨-, rfl⟩ := Prog.returns_done.1 hafter
      exact .refl _ _
  have hstep : Live c.view result'.subscriberId ∧ Kept result'.subscriberId c.view c₁.view ∨
      ∃ x, Merged (c.clock 0) c.view c₁.view x result'.subscriberId := by
    unfold bindTransaction at hbind
    simp only [Prog.returns_transaction, Prog.bind_eq, Prog.returns_bind] at hbind
    obtain ⟨_, c₂, hlock, self, c₃, hself, hbind⟩ := hbind
    obtain rfl := lockPair_returns hlock
    obtain ⟨rfl, hself, hlive⟩ := bindSelf_returns hself
    have hself' := live_of_get hself hlive
    simp only [Prog.pure_eq] at hbind
    split_ifs at hbind
    · obtain ⟨rfl, hset⟩ := setAppUserId_returns (y := self.1) hbind
      exact .inl ⟨hself', hset⟩
    · obtain ⟨rfl, rfl⟩ := Prog.returns_done.1 hbind
      exact .inl ⟨hself', .refl _ _⟩
    · obtain ⟨other, c₄, hquery, hbind⟩ := Prog.returns_bind.1 hbind
      obtain ⟨hother, rfl⟩ := Prog.returns_query.1 hquery
      rcases hholder : other.filter fun row => row.2.deletedAt.isNone && decide (row.1 ≠ self.1)
        with _ | holder
      · rw [hholder] at hbind
        obtain ⟨rfl, hset⟩ := setAppUserId_returns (y := self.1) hbind
        exact .inl ⟨hself', hset⟩
      · rw [hholder] at hbind
        obtain ⟨hsome, hholds⟩ := Option.filter_eq_some_iff.1 hholder
        obtain ⟨hholderRow, -⟩ := findSubscriberByAppUserId_some (hother.trans hsome)
        simp only [Bool.and_eq_true, Option.isNone_iff_eq_none, decide_eq_true_eq] at hholds
        obtain ⟨credits, c₅, hmerge, hset⟩ := Prog.returns_bind.1 hbind
        have hholderLive := live_of_get hholderRow hholds.1
        have hmerged := reassignAllAssets_merged (by exact hholds.2) (by exact hholderLive)
          (by exact hself') hmerge
        obtain ⟨rfl, hkept'⟩ := setAppUserId_returns (y := self.1) hset
        exact .inr ⟨_, hmerged.trans_kept hkept'⟩
  rcases hstep with ⟨hlive, hsame⟩ | ⟨x, hmerged⟩
  · exact .inl ⟨_, hlive, hsame.trans hkept⟩
  · exact .inr ⟨x, _, hmerged.trans_kept hkept⟩

end Services

end Rovenue
