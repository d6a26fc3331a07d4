import Rovenue.Ledger.CreditEngine
import Rovenue.Access.AccessEngine

/-! Merging one subscriber into another: by two account labels
(`transferSubscriber`) or by binding a label to a device (`bindAppUserId`). -/

namespace Rovenue
open Txn

structure MergeParty where
  id : String
  label : String

def transferOut (projectId : String) (source target : MergeParty) (currencyId : String)
    (amount : ℤ) : CreditLedgerEntry where
  projectId := projectId
  subscriberId := source.id
  currencyId := currencyId
  type := .transferOut
  amount := -amount
  balance := 0
  referenceType := some "transfer"
  referenceId := some target.id
  description := some ("Credits transferred to " ++ target.label)

def transferIn (projectId : String) (source target : MergeParty) (currencyId : String)
    (amount toBal : ℤ) : CreditLedgerEntry where
  projectId := projectId
  subscriberId := target.id
  currencyId := currencyId
  type := .transferIn
  amount := amount
  balance := toBal + amount
  referenceType := some "transfer"
  referenceId := some source.id
  description := some ("Credits received from " ++ source.label)

def transferBalances (order : LedgerOrder) (startedAt : ℤ) (projectId : String)
    (source target : MergeParty) : List (String × ℤ) → Service ℤ
  | [] => pure 0
  | (currencyId, amount) :: rest =>
    if amount ≤ 0 then transferBalances order startedAt projectId source target rest
    else do
      let _ ← insertCreditLedger startedAt amount
        (transferOut projectId source target currencyId amount)
      let toBal ← Prog.query fun s => balance order s target.id currencyId
      let _ ← insertCreditLedger startedAt toBal
        (transferIn projectId source target currencyId amount toBal)
      let moved ← transferBalances order startedAt projectId source target rest
      pure (amount + moved)

def reassignAllAssets (order : LedgerOrder) (startedAt : ℤ) (projectId : String)
    (source target : MergeParty) : Service ℤ := do
  let fromRow ← Prog.query (findSubscriberById source.id)
  let toRow ← Prog.query (findSubscriberById target.id)
  if fromRow.all (·.2.projectId ≠ projectId) then
    Prog.throw ("reassignAllAssets: source " ++ source.id ++ " (" ++ source.label ++
      ") is not in project " ++ projectId)
  else if toRow.all (·.2.projectId ≠ projectId) then
    Prog.throw ("reassignAllAssets: target " ++ target.id ++ " (" ++ target.label ++
      ") is not in project " ++ projectId)
  else do
    reassignPurchases source.id target.id
    reassignSubscriberAccess source.id target.id
    let fromBalances ← Prog.query (findAllBalances order source.id)
    let creditsTransferred ←
      transferBalances order startedAt projectId source target fromBalances
    let deletedAt ← Prog.now
    softDeleteSubscriberAsMerged source.id target.id deletedAt
    pure creditsTransferred

def lockPair (a b : String) : Service Unit :=
  let keys := if a ≤ b then (a, b) else (b, a)
  do
    Prog.acquire (.advisory keys.1)
    Prog.acquire (.advisory keys.2)

structure TransferResult where
  fromSubscriberId : String
  toSubscriberId : String
  creditsTransferred : ℤ

def transferTransaction (order : LedgerOrder) (projectId fromAppUserId toAppUserId : String) :
    Service TransferResult :=
  Prog.transaction fun startedAt => do
    lockPair (projectId ++ ":" ++ fromAppUserId) (projectId ++ ":" ++ toAppUserId)
    let source ← Prog.query (findSubscriberByAppUserId projectId fromAppUserId)
    match source with
    | none => Prog.throw ("Source subscriber '" ++ fromAppUserId ++ "' not found")
    | some source =>
      if source.2.deletedAt.isSome then
        Prog.throw ("Source subscriber '" ++ fromAppUserId ++ "' has already been transferred")
      else do
        let target ← Prog.query (findSubscriberByAppUserId projectId toAppUserId)
        match target with
        | none => Prog.throw ("Target subscriber '" ++ toAppUserId ++ "' not found")
        | some target =>
          if target.2.deletedAt.isSome then
            Prog.throw
              ("Target subscriber '" ++ toAppUserId ++ "' has already been transferred")
          else do
            let creditsTransferred ← reassignAllAssets order startedAt projectId
              ⟨source.1, fromAppUserId⟩ ⟨target.1, toAppUserId⟩
            pure ⟨source.1, target.1, creditsTransferred⟩

def transferSubscriber (order : LedgerOrder) (projectId fromAppUserId toAppUserId : String) :
    Service TransferResult :=
  if fromAppUserId = toAppUserId then
    Prog.throw "Cannot transfer a subscriber to the same account"
  else do
    let result ← transferTransaction order projectId fromAppUserId toAppUserId
    syncAccess result.toSubscriberId
    pure result

structure BindResult where
  subscriberId : String
  appUserId : String
  transferred : Bool

def bindSelf (projectId rovenueId : String) : Service SubscriberRow := do
  let self ← Prog.query (findSubscriberByRovenueId projectId rovenueId)
  match self with
  | none => Prog.throw ("Device subscriber '" ++ rovenueId ++ "' not found")
  | some self =>
    if self.2.deletedAt.isSome then do
      let canonical ← resolveSubscriberByRovenueId projectId rovenueId
      match canonical with
      | none =>
        Prog.throw
          ("Device subscriber '" ++ rovenueId ++ "' has been merged and cannot be resolved")
      | some canonical => pure canonical
    else pure self

def bindTransaction (order : LedgerOrder) (projectId rovenueId appUserId : String) :
    Service BindResult :=
  Prog.transaction fun startedAt => do
    lockPair (projectId ++ ":" ++ appUserId) (projectId ++ ":rov:" ++ rovenueId)
    let self ← bindSelf projectId rovenueId
    if self.2.appUserId = some appUserId then
      if self.2.identifiedAt.isNone then do
        let identifiedAt ← Prog.now
        setAppUserId self.1 appUserId identifiedAt
        pure ⟨self.1, appUserId, false⟩
      else pure ⟨self.1, appUserId, false⟩
    else do
      let other ← Prog.query (findSubscriberByAppUserId projectId appUserId)
      let holder := other.filter fun row => row.2.deletedAt.isNone && row.1 ≠ self.1
      match holder with
      | some other => do
        let _ ← reassignAllAssets order startedAt projectId ⟨other.1, appUserId⟩
          ⟨self.1, rovenueId⟩
        let identifiedAt ← Prog.now
        setAppUserId self.1 appUserId identifiedAt
        pure ⟨self.1, appUserId, true⟩
      | none => do
        let identifiedAt ← Prog.now
        setAppUserId self.1 appUserId identifiedAt
        pure ⟨self.1, appUserId, false⟩

def bindAppUserId (order : LedgerOrder) (projectId rovenueId appUserId : String) :
    Service BindResult := do
  let result ← bindTransaction order projectId rovenueId appUserId
  if result.transferred then do
    syncAccess result.subscriberId
    pure result
  else pure result

def Write.Plain : Write → Prop
  -- what a merge writes outside the ledger: no new subscriber, no new purchase, and of a purchase
  -- only its owner
  | .insertCreditLedger .. | .insertSubscriber .. | .insertPurchase .. => False
  | .updatePurchase _ _ set => ∃ toId, set = { subscriberId := some toId }
  | _ => True

theorem Write.OnAccess.plain {w : Write} (h : w.OnAccess) : w.Plain := by
  cases w <;> first | exact h.elim | trivial

theorem plain_nil : ∀ _ : Db, ∀ w ∈ ([] : List Write), w.Plain := by simp

theorem updateSubscriber_plain (id : String) (set : SubscriberPatch) :
    (updateSubscriber id set).Each fun _ ws => ∀ w ∈ ws, w.Plain :=
  Prog.each_exec fun _ => by simp [Write.Plain]

theorem reassignPurchases_plain (fromId toId : String) :
    (reassignPurchases fromId toId).Each fun _ ws => ∀ w ∈ ws, w.Plain :=
  Prog.each_exec fun _ w hw => by
    obtain ⟨key, -, rfl⟩ := List.mem_map.1 hw
    exact ⟨toId, rfl⟩

theorem reassignSubscriberAccess_plain (fromId toId : String) :
    (reassignSubscriberAccess fromId toId).Each fun _ ws => ∀ w ∈ ws, w.Plain :=
  Prog.each_exec fun _ w hw => by
    obtain ⟨id, -, rfl⟩ := List.mem_map.1 hw
    trivial

theorem lockPair_plain (a b : String) :
    (lockPair a b).Each fun _ ws => ∀ w ∈ ws, w.Plain :=
  (Prog.each_acquire plain_nil _).bind fun _ => Prog.each_acquire plain_nil _

theorem followMergedInto_plain (hops : ℕ) (cursor : SubscriberRow) :
    (followMergedInto hops cursor).Each fun _ ws => ∀ w ∈ ws, w.Plain := by
  induction hops generalizing cursor with
  | zero => trivial
  | succ hops ih =>
    unfold followMergedInto
    split
    · refine (Prog.each_query plain_nil _).bind fun next => ?_
      cases next with
      | none => trivial
      | some cursor => exact ih cursor
    · trivial
    · trivial

theorem resolveSubscriberByRovenueId_plain (projectId rovenueId : String) :
    (resolveSubscriberByRovenueId projectId rovenueId).Each fun _ ws => ∀ w ∈ ws, w.Plain := by
  refine (Prog.each_query plain_nil _).bind fun row => ?_
  cases row with
  | none => trivial
  | some row =>
    dsimp only
    split_ifs
    · trivial
    · exact followMergedInto_plain 5 row

theorem bindSelf_plain (projectId rovenueId : String) :
    (bindSelf projectId rovenueId).Each fun _ ws => ∀ w ∈ ws, w.Plain := by
  refine (Prog.each_query plain_nil _).bind fun self => ?_
  cases self with
  | none => trivial
  | some self =>
    dsimp only
    split_ifs
    · refine (resolveSubscriberByRovenueId_plain _ _).bind fun canonical => ?_
      cases canonical <;> trivial
    · trivial

theorem syncAccess_plain (subscriberId : String) :
    (syncAccess subscriberId).Each fun _ ws => ∀ w ∈ ws, w.Plain :=
  (syncAccess_each subscriberId).mono fun _ _ h w hw => (h w hw).plain

def Write.OfMerge (w : Write) : Prop :=
  w.Plain ∨ ∃ found row, w = .insertCreditLedger found row ∧ row.referenceType = some "transfer"

theorem ofMerge_nil : ∀ _ : Db, ∀ w ∈ ([] : List Write), w.OfMerge := by simp

theorem each_ofMerge {α : Type} {p : Service α} (hp : p.Each fun _ ws => ∀ w ∈ ws, w.Plain) :
    p.Each fun _ ws => ∀ w ∈ ws, w.OfMerge := hp.mono fun _ _ h w hw => .inl (h w hw)

theorem insertCreditLedger_ofMerge {startedAt found : ℤ} {entry : CreditLedgerEntry}
    (h : entry.referenceType = some "transfer") :
    (insertCreditLedger startedAt found entry).Each fun _ ws => ∀ w ∈ ws, w.OfMerge := by
  unfold insertCreditLedger
  split_ifs
  · trivial
  · refine fun id => Prog.each_exec fun _ w hw => ?_
    exact .inr ⟨_, _, List.mem_singleton.1 hw, h⟩
  · trivial

theorem transferBalances_ofMerge (order : LedgerOrder) (startedAt : ℤ) (projectId : String)
    (source target : MergeParty) (balances : List (String × ℤ)) :
    (transferBalances order startedAt projectId source target balances).Each
      fun _ ws => ∀ w ∈ ws, w.OfMerge := by
  induction balances with
  | nil => trivial
  | cons entry rest ih =>
    unfold transferBalances
    by_cases hle : entry.2 ≤ 0
    · rw [if_pos hle]
      exact ih
    · rw [if_neg hle]
      exact (insertCreditLedger_ofMerge rfl).bind fun _ =>
        (Prog.each_query ofMerge_nil _).bind fun _ =>
          (insertCreditLedger_ofMerge rfl).bind fun _ => ih.bind fun _ => trivial

theorem reassignAllAssets_ofMerge (order : LedgerOrder) (startedAt : ℤ) (projectId : String)
    (source target : MergeParty) :
    (reassignAllAssets order startedAt projectId source target).Each
      fun _ ws => ∀ w ∈ ws, w.OfMerge := by
  refine (Prog.each_query ofMerge_nil _).bind fun fromRow =>
    (Prog.each_query ofMerge_nil _).bind fun toRow => ?_
  split_ifs
  · trivial
  · trivial
  · refine (each_ofMerge (reassignPurchases_plain _ _)).bind fun _ =>
      (each_ofMerge (reassignSubscriberAccess_plain _ _)).bind fun _ =>
        (Prog.each_query ofMerge_nil _).bind fun balances =>
          (transferBalances_ofMerge _ _ _ _ _ _).bind fun moved => fun deletedAt => ?_
    exact (each_ofMerge (updateSubscriber_plain _ _)).bind fun _ => trivial

theorem transferSubscriber_ofMerge (order : LedgerOrder) (projectId a b : String) :
    (transferSubscriber order projectId a b).Each fun _ ws => ∀ w ∈ ws, w.OfMerge := by
  unfold transferSubscriber
  split_ifs
  · trivial
  refine Prog.Each.bind (Prog.Each.transaction fun startedAt => ?_) fun result =>
    (each_ofMerge (syncAccess_plain _)).bind fun _ => trivial
  refine (each_ofMerge (lockPair_plain _ _)).bind fun _ =>
    (Prog.each_query ofMerge_nil _).bind fun source => ?_
  cases source with
  | none => trivial
  | some source =>
    dsimp only
    split_ifs
    · trivial
    refine (Prog.each_query ofMerge_nil _).bind fun target => ?_
    cases target with
    | none => trivial
    | some target =>
      dsimp only
      split_ifs
      · trivial
      · exact (reassignAllAssets_ofMerge _ _ _ _ _).bind fun _ => trivial

theorem bindAppUserId_ofMerge (order : LedgerOrder) (projectId rovenueId appUserId : String) :
    (bindAppUserId order projectId rovenueId appUserId).Each
      fun _ ws => ∀ w ∈ ws, w.OfMerge := by
  have setAppUserId_each : ∀ (id : String) (r : BindResult),
      (Prog.now.bind fun identifiedAt => (setAppUserId id appUserId identifiedAt).bind
        fun _ => (.done r : Service BindResult)).Each fun _ ws => ∀ w ∈ ws, w.OfMerge :=
    fun id r _ => (each_ofMerge (updateSubscriber_plain _ _)).bind fun _ => trivial
  refine Prog.Each.bind (Prog.Each.transaction fun startedAt => ?_) fun result => ?_
  · refine (each_ofMerge (lockPair_plain _ _)).bind fun _ =>
      (each_ofMerge (bindSelf_plain _ _)).bind fun self => ?_
    split_ifs
    · exact setAppUserId_each _ _
    · trivial
    · refine (Prog.each_query ofMerge_nil _).bind fun other => ?_
      dsimp only
      cases other.filter fun row => row.2.deletedAt.isNone && decide (row.1 ≠ self.1) with
      | none => exact setAppUserId_each _ _
      | some other => exact (reassignAllAssets_ofMerge _ _ _ _ _).bind fun _ =>
          setAppUserId_each _ _
  · split_ifs
    · exact (each_ofMerge (syncAccess_plain _)).bind fun _ => trivial
    · trivial

end Rovenue
