import Rovenue.Purchases.Repository
import Rovenue.Access.Sync

/-! The sweep of scheduled actions, one due action a transaction. An action that throws rolls
back alone and is marked as failed. -/

namespace Rovenue
open Txn

inductive ScheduledActionStatus where
  | pending | executed | failed | canceled
  deriving DecidableEq, Repr

/-- A row of `scheduled_subscription_actions`; `revokeImmediately` is its payload. -/
structure ScheduledAction where
  purchaseId : String
  status : ScheduledActionStatus := .pending
  dueAt : ℤ
  revokeImmediately : Bool
  executedAt : Option ℤ := none
  error : Option String := none
  deriving DecidableEq

structure ScheduledDb where
  db : Db
  scheduledActions : Table String ScheduledAction

abbrev CancelAtPeriodEnd := String → String → Except String Unit

def findPurchaseById (id : String) (s : Db) : Option PurchaseRecord :=
  s.purchases.entries.find? fun e => e.2.id = id

def executeAction (cancel : CancelAtPeriodEnd) (action : ScheduledAction) : Service Unit := do
  let found ← Prog.query (findPurchaseById action.purchaseId)
  match found with
  | none => Prog.throw ("executeAction: purchase " ++ action.purchaseId ++ " not found")
  | some (key, purchase) => do
    let now ← Prog.now
    match key.store with
    | .manual =>
      if action.revokeImmediately then do
        updatePurchaseRow key .unguarded
          { status := some .expired
            expiresDate := some (some now)
            autoRenewStatus := some (some false)
            cancellationDate := some (some now) }
        revokeAccessByPurchaseId purchase.id
      else
        updatePurchaseRow key .unguarded
          { autoRenewStatus := some (some false), cancellationDate := some (some now) }
    | .stripe =>
      match cancel purchase.projectId purchase.originalTransactionId with
      | .error msg => Prog.throw msg
      | .ok () =>
        updatePurchaseRow key .unguarded
          { autoRenewStatus := some (some false), cancellationDate := some (some now) }
    -- an intent marker: the store's webhook decides
    | .appStore | .playStore =>
      updatePurchaseRow key .unguarded { cancellationDate := some (some now) }

def claimDueBatch (now : ℤ) (s : ScheduledDb) : Option (String × ScheduledAction) :=
  -- `FOR UPDATE SKIP LOCKED`, one row: the due action that has waited longest
  ((s.scheduledActions.entries.filter fun e => e.2.status = .pending && e.2.dueAt ≤ now).insertionSort
    fun a b => a.2.dueAt ≤ b.2.dueAt).head?

inductive SweepOutcome where
  | drained | executed | failed
  deriving DecidableEq, Repr

def runScheduledAction (cancel : CancelAtPeriodEnd) (claimedAt finishedAt : ℤ) (clock : ℕ → ℤ)
    (ids : ℕ → String) (s : ScheduledDb) : ScheduledDb × SweepOutcome :=
  match claimDueBatch claimedAt s with
  | none => (s, .drained)
  | some (id, action) =>
    match (executeAction cancel action).eval (.start s.db clock ids) with
    | .ok (_, c) =>
      ({ db := c.view
         scheduledActions := s.scheduledActions.modify id fun row =>
           { row with status := .executed, executedAt := some finishedAt } }, .executed)
    | .error msg =>
      ({ s with
         scheduledActions := s.scheduledActions.modify id fun row =>
           { row with status := .failed, executedAt := some finishedAt, error := some msg } },
        .failed)

def revokeImmediatelyPatch (now : ℤ) : PurchasePatch where
  status := some .expired
  expiresDate := some (some now)
  autoRenewStatus := some (some false)
  cancellationDate := some (some now)

theorem executeAction_revoke {cancel : CancelAtPeriodEnd} {action : ScheduledAction}
    {key : PurchaseKey} {purchase : Purchase} {c : Session Db Write String}
    (hfound : findPurchaseById action.purchaseId c.view = some (key, purchase))
    (hstore : key.store = .manual) (hrevoke : action.revokeImmediately = true) :
    (executeAction cancel action).Returns c ()
      ((c.tick.write [.updatePurchase key .unguarded (revokeImmediatelyPatch (c.clock 0))]).write
        (revokeWrites purchase.id (applyAll c.view
          [.updatePurchase key .unguarded (revokeImmediatelyPatch (c.clock 0))]))) := by
  simp only [executeAction, Prog.bind_eq, Prog.returns_bind, Prog.returns_query]
  refine ⟨_, _, ⟨rfl, rfl⟩, ?_⟩
  simp only [hfound, Prog.returns_bind, Prog.returns_now]
  refine ⟨_, _, ⟨rfl, rfl⟩, ?_⟩
  simp only [hstore, hrevoke, if_true, updatePurchaseRow, revokeAccessByPurchaseId, revokeAccess,
    Prog.returns_bind, Prog.returns_exec]
  exact ⟨(), _, ⟨trivial, rfl⟩, trivial, rfl⟩

end Rovenue
