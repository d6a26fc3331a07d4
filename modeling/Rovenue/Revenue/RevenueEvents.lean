import Rovenue.Schema
import Rovenue.Threads.System

/-! `createRevenueEvent`, statement by statement, against the retention of `revenue_events`.
The dedupe table has no retention of its own. -/

namespace Rovenue.Revenue
open Threads
open Txn (Table)

inductive RevenueEventType where
  | initial | renewal | trialConversion | cancellation | refund | reactivation | creditPurchase
  | nonRenewingPurchase
  deriving DecidableEq, Repr

def revenueDedupeKind : RevenueEventType → String
  | .initial | .renewal | .trialConversion | .creditPurchase | .nonRenewingPurchase => "purchase"
  | .reactivation => "reactivation"
  | .refund => "refund"
  | .cancellation => "cancel"

/-- `metadata` is opaque; instants are whole milliseconds. -/
structure CreateRevenueEventInput (M : Type) where
  projectId : String
  subscriberId : String
  purchaseId : String
  productId : String
  type : RevenueEventType
  amount : String
  currency : String
  amountUsd : String
  store : Store
  eventDate : ℤ
  dedupeKey : Option String := none
  metadata : Option M := none
  country : Option String := none

/-- A row of `revenue_events`. -/
structure RevenueEvent where
  id : ℕ
  projectId : String
  subscriberId : String
  purchaseId : String
  productId : String
  type : RevenueEventType
  amount : String
  currency : String
  amountUsd : String
  store : Store
  eventDate : ℤ
  dedupeKey : Option String
  deriving DecidableEq

structure RevenuePayload (M : Type) where
  revenueEventId : ℕ
  projectId : String
  subscriberId : String
  purchaseId : String
  productId : String
  type : RevenueEventType
  store : Store
  amount : String
  amountUsd : String
  currency : String
  eventDate : ℤ
  country : Option String
  metadata : Option M

structure OutboxRow (M : Type) where
  aggregateType : String
  aggregateId : ℕ
  eventType : String
  payload : RevenuePayload M

structure Recorded where
  row : RevenueEvent
  dropped : Bool := false

/-- `(projectId, dedupeKey)`, the primary key of `revenue_event_dedupe`. -/
abbrev DedupeKey := String × String

/-- The store. `claims` are the dedupe rows of the open transactions, and `nextId` stands for
the identifiers `createId` has not drawn yet. -/
structure RevenueDb (M : Type) where
  purchases : Table String (Option String) := .empty
  revenueEventDedupe : Table DedupeKey ℕ := .empty
  claims : DedupeKey → Option ℕ := fun _ => none
  revenueEvents : List Recorded := []
  outbox : List (OutboxRow M) := []
  nextId : ℕ := 0

variable {M : Type}

def appleFamilySharedOwnershipType : String := "FAMILY_SHARED"

def dedupeKeyOf (projectId : String) (dedupeKey : Option String) : Option DedupeKey :=
  (dedupeKey.filter (· ≠ "")).map fun key => (projectId, key)

def CreateRevenueEventInput.key (input : CreateRevenueEventInput M) : Option DedupeKey :=
  dedupeKeyOf input.projectId input.dedupeKey

def RevenueEvent.key (row : RevenueEvent) : Option DedupeKey :=
  dedupeKeyOf row.projectId row.dedupeKey

namespace RevenueDb

def familyShared (s : RevenueDb M) (purchaseId : String) : Bool :=
  s.purchases.get? purchaseId = some (some appleFamilySharedOwnershipType)

def findRevenueEventById (s : RevenueDb M) (id : ℕ) : Option RevenueEvent :=
  ((s.revenueEvents.filter fun r => !r.dropped).map Recorded.row).find? fun row => row.id = id

def recorded (s : RevenueDb M) : List RevenueEvent := s.revenueEvents.map Recorded.row

def rowsFor (s : RevenueDb M) (key : DedupeKey) : List RevenueEvent :=
  s.recorded.filter fun row => row.key = some key

def outboxFor (s : RevenueDb M) (key : DedupeKey) : List (OutboxRow M) :=
  s.outbox.filter fun o => o.aggregateId ∈ (s.rowsFor key).map RevenueEvent.id

end RevenueDb

inductive Stage (M : Type) where
  | waiting
  | claiming (id : ℕ)
  | conflict
  | found (id : ℕ)
  | claimed (id : ℕ)
  | inserted (row : RevenueEvent)
  | emitted (row : RevenueEvent) (message : OutboxRow M)
  | returned (row : Option RevenueEvent)
  | threw (msg : String)
  | lost

structure Call (M : Type) where
  input : CreateRevenueEventInput M
  stage : Stage M := .waiting

def Call.go (t : Call M) (stage : Stage M) : Call M := { t with stage := stage }

@[simp] theorem Call.go_stage (t : Call M) (stage : Stage M) : (t.go stage).stage = stage := rfl

def dedupeConflict : String :=
  "createRevenueEvent: dedupe conflict but no existing revenue event"

section Rows
variable (input : CreateRevenueEventInput M) (row : RevenueEvent)

def revenueRow (id : ℕ) : RevenueEvent where
  id := id
  projectId := input.projectId
  subscriberId := input.subscriberId
  purchaseId := input.purchaseId
  productId := input.productId
  type := input.type
  amount := input.amount
  currency := input.currency
  amountUsd := input.amountUsd
  store := input.store
  eventDate := input.eventDate
  dedupeKey := input.dedupeKey

def revenueMessage : OutboxRow M where
  aggregateType := "REVENUE_EVENT"
  aggregateId := row.id
  eventType := "revenue.event.recorded"
  payload :=
    { revenueEventId := row.id
      projectId := row.projectId
      subscriberId := row.subscriberId
      purchaseId := row.purchaseId
      productId := row.productId
      type := row.type
      store := row.store
      amount := row.amount
      amountUsd := row.amountUsd
      currency := row.currency
      eventDate := row.eventDate
      country := input.country.filter (· ≠ "")
      metadata := input.metadata }

end Rows

def Stage.over : Stage M → Bool
  | .returned _ | .threw _ | .lost => true
  | _ => false

def Stage.drawn : Stage M → Option ℕ
  | .claiming id | .claimed id => some id
  | .inserted row | .emitted row _ => some row.id
  | _ => none

def Stage.holds : Stage M → Bool
  | .claimed _ | .inserted _ | .emitted .. => true
  | _ => false

def RevenueDb.release (s : RevenueDb M) (key : Option DedupeKey) : RevenueDb M :=
  { s with claims := fun k => if key = some k then none else s.claims k }

def RevenueDb.commit (s : RevenueDb M) (key : Option DedupeKey) (row : RevenueEvent)
    (message : OutboxRow M) : RevenueDb M :=
  { s.release key with
    revenueEventDedupe := key.elim s.revenueEventDedupe fun k => s.revenueEventDedupe.insert k row.id
    revenueEvents := s.revenueEvents ++ [{ row := row }]
    outbox := s.outbox ++ [message] }

def createRevenueEvent (s : RevenueDb M) (t : Call M) (fault : Bool) : RevenueDb M × Call M :=
  if t.stage.over then (s, t)
  else if fault then ((if t.stage.holds then s.release t.input.key else s), t.go .lost)
  else match t.stage with
  | .waiting =>
    if s.familyShared t.input.purchaseId then (s, t.go (.returned none))
    else ({ s with nextId := s.nextId + 1 }, t.go (.claiming s.nextId))
  | .claiming id =>
    match t.input.key with
    | none => (s, t.go (.claimed id))
    | some key =>
      if (s.revenueEventDedupe.get? key).isSome then (s, t.go .conflict)
      -- the insert waits for the transaction that has the key
      else if (s.claims key).isSome then (s, t)
      else ({ s with claims := Function.update s.claims key (some id) }, t.go (.claimed id))
  | .conflict =>
    match t.input.key.bind s.revenueEventDedupe.get? with
    | some id => (s, t.go (.found id))
    | none => (s, t.go (.threw dedupeConflict))
  | .found id =>
    match s.findRevenueEventById id with
    | some row => (s, t.go (.returned (some row)))
    | none => (s, t.go (.threw dedupeConflict))
  | .claimed id => (s, t.go (.inserted (revenueRow t.input id)))
  | .inserted row => (s, t.go (.emitted row (revenueMessage t.input row)))
  | .emitted row message => (s.commit t.input.key row message, t.go (.returned (some row)))
  | .returned _ | .threw _ | .lost => (s, t)

inductive Outside where
  | setOwnership (purchaseId : String) (ownershipType : Option String)
  | dropPartition (start stop : ℤ)

def RevenueDb.outside (s : RevenueDb M) : Outside → RevenueDb M
  | .setOwnership purchaseId ownershipType =>
    { s with purchases := s.purchases.set purchaseId ownershipType }
  | .dropPartition start stop =>
    { s with
      revenueEvents := s.revenueEvents.map fun r =>
        { r with dropped := r.dropped || decide (start ≤ r.row.eventDate ∧ r.row.eventDate < stop) } }

def revenueWrites : System (RevenueDb M) (Call M) Bool Outside where
  step := createRevenueEvent
  env := RevenueDb.outside
  reset t _ := t

end Rovenue.Revenue
