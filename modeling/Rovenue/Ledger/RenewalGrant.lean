import Rovenue.Ledger.MergeWindow
import Rovenue.Ledger.PurchaseCredits
import Rovenue.Revenue.RevenueEvents

/-! The renewal-grant job: credits for a revenue event, under the subscriber id that the event's
message was written with. -/

namespace Rovenue
open Txn
open Rovenue.Revenue (RevenueEventType)

/-- A job as `toRenewalGrantJob` parses it. -/
structure RenewalGrantJob where
  revenueEventId : String
  projectId : String
  subscriberId : String
  productId : String
  type : RevenueEventType
  named : revenueEventId ≠ ""
  deriving DecidableEq

def renewalGrantEventTypes : List RevenueEventType := [.renewal, .trialConversion, .reactivation]

def findProductById (projectId id : String) (s : Db) : Option Product :=
  (s.products.get? id).filter fun product => product.projectId = projectId

inductive RenewalGrantOutcome where
  | granted | skipped
  deriving DecidableEq

def RenewalGrantJob.grantArgs (job : RenewalGrantJob) (product : Product) :
    GrantProductCurrenciesArgs where
  subscriberId := job.subscriberId
  productId := job.productId
  referenceId := job.revenueEventId
  productIdentifier := product.identifier
  trigger := .renewal

def runRenewalGrant (order : LedgerOrder) (job : RenewalGrantJob) : Service RenewalGrantOutcome :=
  if job.type ∉ renewalGrantEventTypes then pure .skipped
  else do
    let product ← Prog.query (findProductById job.projectId job.productId)
    match product with
    | none => pure .skipped
    | some product => do
      grantProductCurrencies order (job.grantArgs product)
      pure .granted

inductive RenewalCall where
  | grant (job : RenewalGrantJob)
  | transfer (projectId fromAppUserId toAppUserId : String)
  | bind (projectId rovenueId appUserId : String)

def RenewalCall.run (order : LedgerOrder) : RenewalCall → Service Unit
  | .grant job => (runRenewalGrant order job).bind fun _ => .done ()
  | .transfer p a b => (transferSubscriber order p a b).bind fun _ => .done ()
  | .bind p r a => (bindAppUserId order p r a).bind fun _ => .done ()

def renewalWorld {ι : Type} (s : Db) (t : ℤ) (calls : ι → RenewalCall) :
    World ι Db LockKey Write String := .init s t fun i => (calls i).run .createdAt

def MergedAway (s : Db) (id : String) : Prop :=
  (s.subscribers.get? id).any fun r => r.mergedInto.isSome

def liveCredits (s : Db) (projectId currencyId : String) : ℤ :=
  (s.subscribers.entries.map fun e =>
    if e.2.projectId = projectId ∧ e.2.mergedInto.isNone then balance .createdAt s e.1 currencyId
    else 0).sum

def renewalAmount (s : Db) (job : RenewalGrantJob) (currencyId : String) : ℤ :=
  if job.type ∈ renewalGrantEventTypes ∧
      (findProductById job.projectId job.productId s).isSome = true then
    match s.productCurrencyGrants.get? (job.productId, currencyId) with
    | some grant =>
      if grantTriggerMatches grant.grantOn .renewal ∧ 0 < grant.amount then grant.amount else 0
    | none => 0
  else 0

def renewalsOwed (s : Db) (events : Finset RenewalGrantJob)
    (projectId currencyId : String) : ℤ :=
  -- what a project's events pay in a currency, by the configuration in `s`
  ∑ job ∈ events, if findSubscriberProjectId job.subscriberId s = some projectId then
    renewalAmount s job currencyId else 0

/-- Each event's credits are held once, and by the living. -/
def RenewalsPaid (s₀ : Db) (events : Finset RenewalGrantJob) (s : Db) : Prop :=
  (∀ projectId currencyId,
    liveCredits s projectId currencyId = renewalsOwed s₀ events projectId currencyId) ∧
  ∀ id, MergedAway s id → ∀ currencyId, balance .createdAt s id currencyId = 0

def SortsLast (s : Db) : Write → Prop
  | .insertCreditLedger _ row =>
    ∀ r ∈ walletRows s row.subscriberId row.currencyId, r.Precedes row
  | _ => True

def InOrder (s : Db) : List Write → Prop
  | [] => True
  | w :: ws => SortsLast s w ∧ InOrder (s.write w) ws

namespace RenewalCall

def merges : RenewalCall → Bool
  | .grant _ => false
  | .transfer .. | .bind .. => true

def lockKeys (s : Db) : RenewalCall → List LockKey
  -- the advisory keys that its ledger transactions take before they read: a merge's both keys, a
  -- job's one for each currency
  | .grant job => (listProductGrantsForTrigger job.productId .renewal s).map fun entry =>
    walletKey job.subscriberId entry.1
  | .transfer projectId fromAppUserId toAppUserId =>
    transferKeys projectId fromAppUserId toAppUserId
  | .bind projectId rovenueId appUserId => bindKeys projectId rovenueId appUserId

def projectId (s : Db) : RenewalCall → Option String
  | .grant job => findSubscriberProjectId job.subscriberId s
  | .transfer projectId _ _ | .bind projectId _ _ => some projectId

def Inside (s : Db) (held : LockKey → Prop) : RenewalCall → Prop
  | .grant job => ∃ k ∈ lockKeys s (.grant job), held k
  | .transfer p a b => ∀ k ∈ lockKeys s (.transfer p a b), held k
  | .bind p r a => ∀ k ∈ lockKeys s (.bind p r a), held k

def Contend (s : Db) (a b : RenewalCall) : Prop :=
  if a.merges = true ∧ b.merges = true then ∀ k ∈ a.lockKeys s, k ∉ b.lockKeys s
  else (a.merges = true ∨ b.merges = true) ∧ a.projectId s = b.projectId s

def PaysTheLiving (s : Db) (ws : List Write) : RenewalCall → Prop
  | .grant job => ws ≠ [] → ¬MergedAway s job.subscriberId
  | .transfer .. | .bind .. => True

end RenewalCall

/-- A commit keeps the order of its wallets, pays no subscriber that is merged away, and finds
nobody inside who contends with it. -/
structure InTurn {ι : Type} (s₀ : Db) (calls : ι → RenewalCall)
    (w : World ι Db LockKey Write String) (e : Event ι String) : Prop where
  ordered : ∀ c ∈ w.commitOf e, InOrder c.before.db c.writes
  living : ∀ c ∈ w.commitOf e, (calls c.client).PaysTheLiving c.before.db c.writes
  apart : ∀ c ∈ w.commitOf e, (calls c.client).Inside s₀ (w.holder · = some c.client) →
    ∀ j ≠ c.client, (calls j).Inside s₀ (w.holder · = some j) →
      ¬(calls c.client).Contend s₀ (calls j)

section Decidable

instance (s : Db) (id : String) : Decidable (MergedAway s id) :=
  inferInstanceAs (Decidable (_ = true))

instance (s : Db) : (w : Write) → Decidable (SortsLast s w)
  | .insertCreditLedger .. => inferInstanceAs (Decidable (∀ r ∈ _, _))
  | .updateSubscriber .. | .insertSubscriber .. | .insertPurchase .. | .updatePurchase ..
  | .insertAccess .. | .updateAccess .. => isTrue trivial

instance decidableInOrder : (s : Db) → (ws : List Write) → Decidable (InOrder s ws)
  | _, [] => isTrue trivial
  | s, w :: ws =>
    have := decidableInOrder (s.write w) ws
    inferInstanceAs (Decidable (_ ∧ _))

instance (s : Db) (held : LockKey → Prop) [DecidablePred held] :
    (call : RenewalCall) → Decidable (call.Inside s held)
  | .grant _ => inferInstanceAs (Decidable (∃ k ∈ _, _))
  | .transfer .. | .bind .. => inferInstanceAs (Decidable (∀ k ∈ _, _))

instance (s : Db) (a b : RenewalCall) : Decidable (a.Contend s b) :=
  inferInstanceAs (Decidable (if a.merges = true ∧ b.merges = true then
    ∀ k ∈ a.lockKeys s, k ∉ b.lockKeys s
  else (a.merges = true ∨ b.merges = true) ∧ a.projectId s = b.projectId s))

instance (s : Db) (ws : List Write) : (call : RenewalCall) → Decidable (call.PaysTheLiving s ws)
  | .grant _ => inferInstanceAs (Decidable (_ → _))
  | .transfer .. | .bind .. => isTrue trivial

instance {ι : Type} [DecidableEq ι] [Fintype ι] (s₀ : Db) (calls : ι → RenewalCall)
    (w : World ι Db LockKey Write String) (e : Event ι String) :
    Decidable (InTurn s₀ calls w e) :=
  decidable_of_iff ((∀ c ∈ w.commitOf e, InOrder c.before.db c.writes) ∧
      (∀ c ∈ w.commitOf e, (calls c.client).PaysTheLiving c.before.db c.writes) ∧
      ∀ c ∈ w.commitOf e, (calls c.client).Inside s₀ (w.holder · = some c.client) →
        ∀ j ≠ c.client, (calls j).Inside s₀ (w.holder · = some j) →
          ¬(calls c.client).Contend s₀ (calls j))
    ⟨fun h => ⟨h.1, h.2.1, h.2.2⟩, fun h => ⟨h.1, h.2, h.3⟩⟩

end Decidable

end Rovenue
