import Rovenue.Google.OrderRevenue

/-! A plan change that Google makes with a new purchase token. Each notification and each receipt
verification for it saves the token's row and then retires the row it replaces; what announces
the change is an outbox row. -/

namespace Rovenue.Google
open Threads

structure Replacement where
  projectId : String
  purchaseToken : String
  supersededToken : String
  productId : String
  deriving DecidableEq

def Replacement.supersedes (r : Replacement) : Bool :=
  r.supersededToken ≠ "" && r.supersededToken ≠ r.purchaseToken

/-- `subscription.product_changed` of phase effective, with no direction stated. -/
structure ProductChanged where
  projectId : String
  subscriberId : String
  purchaseId : String
  previousProductId : String
  productId : String
  timestamp : ℤ
  deriving DecidableEq

def emitProductChanged (change : ProductChanged) : List ProductChanged :=
  if change.previousProductId = change.productId then [] else [change]

structure PlanState where
  row : Option Purchase
  locked : Bool := false
  old : Option Purchase
  outbox : List ProductChanged := []
  deriving DecidableEq

inductive PlanStage where
  | waiting
  | fetched (answer : SubscriptionAnswer)
  -- in the transaction, past the guard's read
  | opened (found : OrderLookups) (w : OrderWrite) (seen : Option Purchase)
  | saved (found : OrderLookups) (purchaseId : String) (eventTime : ℤ)
  -- with the row of the linked token as it was found
  | superseding (found : OrderLookups) (purchaseId : String) (eventTime : ℤ) (old : Purchase)
  | finished
  | refused (msg : String)
  | lost

structure PlanCall where
  path : OrderPath
  stage : PlanStage := .waiting

inductive PlanEvent where
  | fetch (answer : SubscriptionAnswer)
  | openTx (subscriberId : String) (announced : Option String) (readAt eventTime : ℤ)
  | save (startedAt insertedAt updatedAt : ℤ) (id : String)
  | findOld
  | retire (now : ℤ)
  -- an error, a lost connection or a restart
  | abandon

def OrderPath.isNotification : OrderPath → Bool
  | .notification .. => true
  | .receipt _ => false

namespace OrderWrite

def eventTime : OrderWrite → ℤ
  | .notification w => w.eventTime
  | .receipt w => w.eventTime

def productId : OrderWrite → String
  | .notification w => w.productId
  | .receipt w => w.productId

def announces (projectId purchaseId : String) (seen : Option Purchase) :
    OrderWrite → List ProductChanged
  | .notification w =>
    if w.guard.admits seen then
      (seen.toList.map fun previous =>
        { projectId := projectId
          subscriberId := w.subscriberId
          purchaseId := purchaseId
          previousProductId := previous.productId
          productId := w.productId
          timestamp := w.eventTime }).flatMap emitProductChanged
    else []
  | .receipt _ => []

end OrderWrite

def retirePatch (now : ℤ) : PurchasePatch where
  status := some .expired
  expiresDate := some (some now)
  autoRenewStatus := some (some false)
  lastStoreEventAt := some (some now)

namespace Replacement
variable (r : Replacement)

def retireGuard (now : ℤ) : GuardStatusWriteArgs where
  key := googleKey r.supersededToken
  toStatus := .expired
  eventTime := some now

def change (found : OrderLookups) (purchaseId : String) (old : Purchase) (eventTime : ℤ) :
    ProductChanged where
  projectId := r.projectId
  subscriberId := found.subscriberId
  purchaseId := purchaseId
  previousProductId := old.productId
  productId := r.productId
  timestamp := eventTime

def retire (s : PlanState) (path : OrderPath) (found : OrderLookups) (purchaseId : String)
    (eventTime : ℤ) (old : Purchase) (now : ℤ) : PlanState :=
  -- The transaction of `expireSupersededGooglePurchase`. A notification passes `onSuperseded`, a
  -- verification does not; either way only a row that was not EXPIRED yet counts as retired.
  if (r.retireGuard now).admits s.old then
    { s with
      old := s.old.map (StatusGuard.caseTerminal.patch (retirePatch now))
      outbox := s.outbox ++
        if path.isNotification ∧ (s.old.map Purchase.status) ≠ some .expired then
          emitProductChanged (r.change found purchaseId old eventTime)
        else [] }
  else s

end Replacement

def PlanCall.go (t : PlanCall) (stage : PlanStage) : PlanCall := { t with stage := stage }

def planStep (r : Replacement) (s : PlanState) (t : PlanCall) (e : PlanEvent) :
    PlanState × PlanCall :=
  match t.stage, e with
  | .waiting, .fetch answer =>
    match t.path.refusal answer with
    | some msg => (s, t.go (.refused msg))
    | none => (s, t.go (.fetched { answer with linkedPurchaseToken := some r.supersededToken }))
  | .fetched answer, .openTx subscriberId announced readAt eventTime =>
    let found : OrderLookups := ⟨subscriberId, r.productId, announced, readAt⟩
    let w := t.path.write r.projectId r.purchaseToken answer found eventTime
    match s.row with
    | none => (s, t.go (.opened found w none))
    | some row =>
      if s.locked then (s, t)
      else ({ s with locked := true }, t.go (.opened found w (some row)))
  | .opened found w seen, .save startedAt insertedAt updatedAt id =>
    -- the upsert waits for a row that another transaction has locked
    if seen.isSome || !s.locked then
      let row := w.upserted seen startedAt insertedAt updatedAt id s.row
      ({ s with
          row := some row
          locked := false
          outbox := s.outbox ++ w.announces r.projectId row.id seen },
        t.go (.saved found row.id w.eventTime))
    else (s, t)
  | .saved found purchaseId eventTime, .findOld =>
    if r.supersedes then
      match s.old.filter fun old => old.projectId = r.projectId with
      | none => (s, t.go .finished)
      | some old => (s, t.go (.superseding found purchaseId eventTime old))
    else (s, t.go .finished)
  | .superseding found purchaseId eventTime old, .retire now =>
    (r.retire s t.path found purchaseId eventTime old now, t.go .finished)
  | .opened _ _ seen, .abandon => ({ s with locked := s.locked && !seen.isSome }, t.go .lost)
  | .waiting, .abandon | .fetched _, .abandon | .saved .., .abandon | .superseding .., .abandon =>
    (s, t.go .lost)
  | _, _ => (s, t)

def planSystem (r : Replacement) : System PlanState PlanCall PlanEvent Empty where
  step := planStep r
  env _ d := nomatch d
  reset _ d := nomatch d

abbrev PlanWorld (ι : Type) := World ι PlanState PlanCall

def planStart {ι : Type} (row : Option Purchase) (old : Purchase) (path : ι → OrderPath) :
    PlanWorld ι := ⟨{ row := row, old := some old }, fun i => { path := path i }⟩

def announcements (r : Replacement) (old : Purchase) (s : PlanState) : List ProductChanged :=
  s.outbox.filter fun e => e.previousProductId = old.productId ∧ e.productId = r.productId

def PlanState.retired (s : PlanState) : Bool := s.old.any fun row => row.status = .expired

/-- The announcement is there from the commit that retires the old row on, and only once. -/
def AnnouncedWithRetirement (r : Replacement) (old : Purchase) (s : PlanState) : Prop :=
  (announcements r old s).length = if s.retired then 1 else 0

def retiring {ι : Type} (w : PlanWorld ι) : Event ι PlanEvent Empty → Option (PlanCall × ℤ)
  | .act i (.retire now) =>
    match (w.task i).stage with
    | .superseding .. => some (w.task i, now)
    | _ => none
  | _ => none

/-- A verification retires the old row. -/
def Silent {ι : Type} (r : Replacement) (w : PlanWorld ι) (ev : Event ι PlanEvent Empty) : Prop :=
  ∃ x ∈ retiring w ev, x.1.path.isNotification = false ∧ w.shared.retired = false ∧
    (r.retireGuard x.2).admits w.shared.old = true

/-- A notification comes to the old row with a clock not behind the row's last store event. -/
def InTime {ι : Type} (w : PlanWorld ι) (ev : Event ι PlanEvent Empty) : Prop :=
  ∃ x ∈ retiring w ev, x.1.path.isNotification = true ∧
    w.shared.old.any (staleFor (some x.2)) = false

instance {ι : Type} (r : Replacement) (w : PlanWorld ι) (ev : Event ι PlanEvent Empty) :
    Decidable (Silent r w ev) := inferInstanceAs (Decidable (∃ x ∈ retiring w ev, _))

instance {ι : Type} (w : PlanWorld ι) (ev : Event ι PlanEvent Empty) : Decidable (InTime w ev) :=
  inferInstanceAs (Decidable (∃ x ∈ retiring w ev, _))

end Rovenue.Google
