import Rovenue.Schema

/-! Subscriber lookups and the bulk moves a merge makes. -/

namespace Rovenue
open Txn

abbrev SubscriberRow := String × Subscriber

def findSubscriberById (id : String) (s : Db) : Option SubscriberRow :=
  (s.subscribers.get? id).map (id, ·)

def findSubscriberProjectId (id : String) (s : Db) : Option String :=
  (s.subscribers.get? id).map Subscriber.projectId

def findSubscriberByAppUserId (projectId appUserId : String) (s : Db) : Option SubscriberRow :=
  s.subscribers.entries.find? fun e => e.2.projectId = projectId ∧ e.2.appUserId = some appUserId

def findSubscriberByRovenueId (projectId rovenueId : String) (s : Db) : Option SubscriberRow :=
  s.subscribers.entries.find? fun e => e.2.projectId = projectId ∧ e.2.rovenueId = rovenueId

theorem findSubscriberByAppUserId_some {s : Db} {projectId appUserId : String} {row : SubscriberRow}
    (h : findSubscriberByAppUserId projectId appUserId s = some row) :
    s.subscribers.get? row.1 = some row.2 ∧ row.2.appUserId = some appUserId := by
  have hrow := List.find?_some h
  simp only [decide_eq_true_eq] at hrow
  exact ⟨s.subscribers.mem_entries.1 (List.mem_of_find?_eq_some h), hrow.2⟩

theorem findSubscriberByRovenueId_some {s : Db} {projectId rovenueId : String} {row : SubscriberRow}
    (h : findSubscriberByRovenueId projectId rovenueId s = some row) :
    s.subscribers.get? row.1 = some row.2 :=
  s.subscribers.mem_entries.1 (List.mem_of_find?_eq_some h)

def followMergedInto : ℕ → SubscriberRow → Service (Option SubscriberRow)
  | 0, cursor => pure (if cursor.2.deletedAt.isSome then none else some cursor)
  | hops + 1, cursor =>
    match cursor.2.deletedAt, cursor.2.mergedInto with
    | some _, some target => do
      let next ← Prog.query (findSubscriberById target)
      match next with
      | none => pure none
      | some cursor => followMergedInto hops cursor
    | none, _ => pure (some cursor)
    | some _, none => pure none

def resolveSubscriberByRovenueId (projectId rovenueId : String) :
    Service (Option SubscriberRow) := do
  -- outside a transaction each read is its own statement; `pure none` is also what a dead end gives
  let byRovenue ← Prog.query (findSubscriberByRovenueId projectId rovenueId)
  match byRovenue with
  | none => pure none
  | some row => if row.2.deletedAt.isNone then pure (some row) else followMergedInto 5 row

def purchasesOf (subscriberId : String) (s : Db) : List PurchaseKey :=
  (s.purchases.entries.filter fun e => e.2.subscriberId = subscriberId).map Prod.fst

def accessRowsOf (subscriberId : String) (s : Db) : List String :=
  (s.subscriberAccess.entries.filter fun e => e.2.subscriberId = subscriberId).map Prod.fst

def reassignPurchases (fromId toId : String) : Service Unit :=
  Prog.exec (fun s => (purchasesOf fromId s).map .purchase)
    (fun s => (purchasesOf fromId s).map fun key =>
      .updatePurchase key .unguarded { subscriberId := some toId })
    fun _ => ()

def reassignSubscriberAccess (fromId toId : String) : Service Unit :=
  Prog.exec (fun s => (accessRowsOf fromId s).map .access)
    (fun s => (accessRowsOf fromId s).map fun id =>
      .updateAccess id { subscriberId := some toId })
    fun _ => ()

def updateSubscriber (id : String) (set : SubscriberPatch) : Service Unit :=
  Prog.exec (fun _ => [.subscriber id]) (fun _ => [.updateSubscriber id set]) fun _ => ()

def softDeleteSubscriberAsMerged (id mergedInto : String) (deletedAt : ℤ) : Service Unit :=
  updateSubscriber id { deletedAt := some deletedAt, mergedInto := some mergedInto }

def setAppUserId (id appUserId : String) (identifiedAt : ℤ) : Service Unit :=
  updateSubscriber id { appUserId := some appUserId, identifiedAt := some identifiedAt }

end Rovenue
