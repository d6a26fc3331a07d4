import Rovenue.Ledger.CreditLedger
import Rovenue.Subscribers
import Rovenue.Txn.Guarantee

/-! The credit engine: every call is one transaction under the wallet's
advisory lock. -/

namespace Rovenue
open Txn

structure AddCreditsArgs where
  subscriberId : String
  currencyId : String
  amount : ℤ
  type : CreditLedgerType := .purchase
  referenceType : Option String := none
  referenceId : Option String := none
  description : Option String := none
  dedupeOnReference : Bool := false

structure SpendCreditsArgs where
  subscriberId : String
  currencyId : String
  amount : ℤ
  referenceType : Option String := none
  referenceId : Option String := none
  description : Option String := none
  dedupeOnReference : Bool := false

def truthy (o : Option String) : Bool := o.any (· ≠ "")

def AddCreditsArgs.dedupes (args : AddCreditsArgs) : Bool :=
  args.dedupeOnReference && truthy args.referenceId && truthy args.referenceType

def SpendCreditsArgs.dedupes (args : SpendCreditsArgs) : Bool :=
  args.dedupeOnReference && truthy args.referenceId

def AddCreditsArgs.existing (args : AddCreditsArgs) (s : Db) : Option CreditLedgerRow :=
  if args.dedupes then
    (walletRows s args.subscriberId args.currencyId).find? fun r =>
      r.referenceType = args.referenceType ∧ r.referenceId = args.referenceId
  else none

def SpendCreditsArgs.existing (args : SpendCreditsArgs) (s : Db) : Option CreditLedgerRow :=
  if args.dedupes then
    (walletRows s args.subscriberId args.currencyId).find? fun r =>
      r.type = .spend ∧ r.referenceId = args.referenceId
  else none

def AddCreditsArgs.entry (args : AddCreditsArgs) (projectId : String) (last : ℤ) :
    CreditLedgerEntry where
  projectId := projectId
  subscriberId := args.subscriberId
  currencyId := args.currencyId
  type := args.type
  amount := args.amount
  balance := last + args.amount
  referenceType := args.referenceType
  referenceId := args.referenceId
  description := args.description

def SpendCreditsArgs.entry (args : SpendCreditsArgs) (projectId : String) (last : ℤ) :
    CreditLedgerEntry where
  projectId := projectId
  subscriberId := args.subscriberId
  currencyId := args.currencyId
  type := .spend
  amount := -args.amount
  balance := last - args.amount
  referenceType := args.referenceType
  referenceId := args.referenceId
  description := args.description

def getBalance (order : LedgerOrder) (subscriberId currencyId : String) : Service ℤ :=
  Prog.query fun s => balance order s subscriberId currencyId

def addCredits (order : LedgerOrder) (args : AddCreditsArgs) : Service CreditLedgerRow :=
  if args.amount ≤ 0 then
    Prog.throw "addCredits: amount must be a positive integer"
  else Prog.transaction fun startedAt => do
    Prog.acquire (walletKey args.subscriberId args.currencyId)
    let subscriber ← Prog.query (findSubscriberProjectId args.subscriberId)
    match subscriber with
    | none => Prog.throw ("Subscriber " ++ args.subscriberId ++ " not found")
    | some projectId =>
      let existing ← Prog.query args.existing
      match existing with
      | some row => pure row
      | none =>
        let last ← Prog.query fun s => balance order s args.subscriberId args.currencyId
        insertCreditLedger startedAt last (args.entry projectId last)

def spendCredits (order : LedgerOrder) (args : SpendCreditsArgs) : Service CreditLedgerRow :=
  if args.amount ≤ 0 then
    Prog.throw "spendCredits: amount must be a positive integer"
  else Prog.transaction fun startedAt => do
    Prog.acquire (walletKey args.subscriberId args.currencyId)
    let subscriber ← Prog.query (findSubscriberProjectId args.subscriberId)
    match subscriber with
    | none => Prog.throw ("Subscriber " ++ args.subscriberId ++ " not found")
    | some projectId =>
      let existing ← Prog.query args.existing
      match existing with
      | some row => pure row
      | none =>
        let last ← Prog.query fun s => balance order s args.subscriberId args.currencyId
        if last < args.amount then Prog.throw "Insufficient credits"
        else insertCreditLedger startedAt last (args.entry projectId last)

structure RefundCreditsArgs where
  subscriberId : String
  currencyId : String
  amount : ℤ
  referenceId : String
  referenceType : Option String := none
  description : Option String := none

def refundCredits (order : LedgerOrder) (args : RefundCreditsArgs) : Service CreditLedgerRow :=
  addCredits order
    { subscriberId := args.subscriberId
      currencyId := args.currencyId
      amount := args.amount
      type := .refund
      referenceType := some (args.referenceType.getD "refund")
      referenceId := some args.referenceId
      description := args.description
      dedupeOnReference := true }

section Safe
variable {ι : Type} {D : Discipline ι Db LockKey Write} {i : ι} {order : LedgerOrder}
  {h : History ι Db Write}

theorem insertCreditLedger_safe {startedAt found : ℤ} {entry : CreditLedgerEntry}
    {held : Set LockKey} {pend : List Write}
    {Q : CreditLedgerRow → Set LockKey → List Write → History ι Db Write → Prop}
    (hQ : ∀ id h', int4 entry.amount → int4 entry.balance → 0 ≤ entry.balance → D.inv h' →
      D.rely i held h h' → Q (entry.row id startedAt) held
        (pend ++ [.insertCreditLedger found (entry.row id startedAt)]) h') :
    Safe D i (insertCreditLedger startedAt found entry) held pend h Q := by
  unfold insertCreditLedger
  split_ifs with hint hneg
  · trivial
  · intro id
    refine Safe.exec fun h' hi hr => ?_
    simpa using hQ id h' hint.1 hint.2 (not_lt.1 hneg) hi hr
  · trivial

theorem addCredits_safe_of {args : AddCreditsArgs}
    {Q : CreditLedgerRow → Set LockKey → List Write → History ι Db Write → Prop}
    (hexisting : ∀ hd hc row, D.inv hd →
      D.rely i {walletKey args.subscriberId args.currencyId} hd hc →
      args.existing hd.db = some row →
      D.law i {walletKey args.subscriberId args.currencyId} [] hc ∧
        (D.cond i [] hc → Q row ∅ [] (hc.commit i [])))
    (hrow : ∀ hp hd hb hc projectId id startedAt, D.inv hp → D.inv hd → D.inv hb →
      D.rely i {walletKey args.subscriberId args.currencyId} hp hd →
      D.rely i {walletKey args.subscriberId args.currencyId} hd hb →
      D.rely i {walletKey args.subscriberId args.currencyId} hb hc →
      0 < args.amount → findSubscriberProjectId args.subscriberId hp.db = some projectId →
      args.existing hd.db = none →
      let found := balance order hb.db args.subscriberId args.currencyId
      let row := (args.entry projectId found).row id startedAt
      0 ≤ found + args.amount →
      D.law i {walletKey args.subscriberId args.currencyId} [.insertCreditLedger found row] hc ∧
        (D.cond i [.insertCreditLedger found row] hc →
          Q row ∅ [] (hc.commit i [.insertCreditLedger found row]))) :
    Safe D i (addCredits order args) ∅ [] h Q := by
  unfold addCredits
  split_ifs with hpos
  · trivial
  rw [not_le] at hpos
  refine Safe.transaction fun startedAt => ?_
  refine Safe.bind_iff.2 (Safe.acquire fun hl _ _ => ?_)
  rw [insert_empty_eq]
  refine Safe.bind_iff.2 (Safe.query fun hp hpi _ => ?_)
  cases hproj : findSubscriberProjectId args.subscriberId (applyAll hp.db []) with
  | none => trivial
  | some projectId =>
    refine Safe.bind_iff.2 (Safe.query fun hd hdi hr₁ => ?_)
    cases hex : args.existing (applyAll hd.db []) with
    | some row => exact fun hc _ hr => hexisting hd hc row hdi hr hex
    | none =>
      refine Safe.bind_iff.2 (Safe.query fun hb hbi hr₂ => ?_)
      refine insertCreditLedger_safe fun id hw _ _ hbal hwi hr₃ hc hci hr₄ => ?_
      exact hrow hp hd hb hc projectId id startedAt hpi hdi hbi hr₁ hr₂
        (D.rely_trans hr₃ hr₄) hpos hproj hex hbal

theorem addCredits_safe {args : AddCreditsArgs}
    (hnone : ∀ hc, D.law i {walletKey args.subscriberId args.currencyId} [] hc)
    (hrow : ∀ hp hd hb hc projectId id startedAt, D.inv hp → D.inv hd → D.inv hb →
      D.rely i {walletKey args.subscriberId args.currencyId} hp hd →
      D.rely i {walletKey args.subscriberId args.currencyId} hd hb →
      D.rely i {walletKey args.subscriberId args.currencyId} hb hc →
      0 < args.amount → findSubscriberProjectId args.subscriberId hp.db = some projectId →
      args.existing hd.db = none →
      let found := balance order hb.db args.subscriberId args.currencyId
      0 ≤ found + args.amount →
      D.law i {walletKey args.subscriberId args.currencyId}
        [.insertCreditLedger found ((args.entry projectId found).row id startedAt)] hc) :
    Safe D i (addCredits order args) ∅ [] h Idle := by
  refine addCredits_safe_of (fun _ hc _ _ _ _ => ⟨hnone hc, fun _ => ⟨rfl, rfl⟩⟩) ?_
  intro hp hd hb hc projectId id startedAt hpi hdi hbi hr₁ hr₂ hr₃ hpos hproj hex found row hbal
  exact ⟨hrow hp hd hb hc projectId id startedAt hpi hdi hbi hr₁ hr₂ hr₃ hpos hproj hex hbal,
    fun _ => ⟨rfl, rfl⟩⟩

theorem spendCredits_safe {args : SpendCreditsArgs}
    (hnone : ∀ hc, D.law i {walletKey args.subscriberId args.currencyId} [] hc)
    (hrow : ∀ hp hb hc projectId id startedAt, D.inv hp → D.inv hb →
      D.rely i {walletKey args.subscriberId args.currencyId} hp hb →
      D.rely i {walletKey args.subscriberId args.currencyId} hb hc →
      0 < args.amount → findSubscriberProjectId args.subscriberId hp.db = some projectId →
      let found := balance order hb.db args.subscriberId args.currencyId
      args.amount ≤ found →
      D.law i {walletKey args.subscriberId args.currencyId}
        [.insertCreditLedger found ((args.entry projectId found).row id startedAt)] hc) :
    Safe D i (spendCredits order args) ∅ [] h Idle := by
  unfold spendCredits
  split_ifs with hpos
  · trivial
  rw [not_le] at hpos
  refine Safe.transaction fun startedAt => ?_
  refine Safe.bind_iff.2 (Safe.acquire fun hl _ _ => ?_)
  rw [insert_empty_eq]
  refine Safe.bind_iff.2 (Safe.query fun hp hpi _ => ?_)
  cases hproj : findSubscriberProjectId args.subscriberId (applyAll hp.db []) with
  | none => trivial
  | some projectId =>
    refine Safe.bind_iff.2 (Safe.query fun hd hdi hr₁ => ?_)
    cases hex : args.existing (applyAll hd.db []) with
    | some row => exact fun hc _ _ => ⟨hnone hc, fun _ => ⟨rfl, rfl⟩⟩
    | none =>
      refine Safe.bind_iff.2 (Safe.query fun hb hbi hr₂ => ?_)
      split_ifs with hlow
      · trivial
      · refine insertCreditLedger_safe fun id hw _ _ _ hwi hr₃ hc hci hr₄ =>
          ⟨?_, fun _ => ⟨rfl, rfl⟩⟩
        exact hrow hp hb hc projectId id startedAt hpi hbi (D.rely_trans hr₁ hr₂)
          (D.rely_trans hr₃ hr₄) hpos hproj (not_lt.1 hlow)

end Safe
end Rovenue
