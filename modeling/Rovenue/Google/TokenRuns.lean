import Rovenue.Google.GoogleWebhook
import Rovenue.Purchases.StatusPlan
import Rovenue.Threads.System

/-! The runs of `processSubscriptionNotification` for one purchase token, between which
Google's own state moves. A run fetches, looks things up, reads the clock, then takes its
transaction: the fetches, the clock readings and the row's lock come in orders of their own. -/

namespace Rovenue.Google
open Txn (Session Prog)
open Threads

structure Observation where
  status : PurchaseStatus
  committed : Bool := false
  deriving DecidableEq

structure TokenState where
  now : ℤ
  -- Google's answer for the token
  live : GoogleSubscriptionPurchaseV2
  row : Option Purchase
  locked : Bool := false
  -- number of fetches so far; nothing in the code reads it
  fetches : ℕ := 0
  latest : Option Observation := none

inductive TokenRun where
  | idle
  | fetched (n : ℕ) (ctx : SubscriptionCtx) (purchase : GoogleSubscriptionPurchaseV2)
  | stamped (n : ℕ) (w : SubscriptionWrite)
  -- in the transaction, past the guard's read
  | opened (n : ℕ) (w : SubscriptionWrite) (seen : Option Purchase)
  | committed

inductive TokenEvent where
  | fetch (type : GoogleSubscriptionNotificationType) (subscriptionId : String)
  -- the lookups' answers; the event time is the clock's
  | stamp (subscriberId productId : String) (announced : Option String) (readAt : ℤ)
  | openTx
  | save (startedAt insertedAt updatedAt : ℤ) (id : String)
  -- an error, a lost connection or a restart
  | abandon

inductive TokenEnv where
  | tick (n : ℕ)
  | google (purchase : GoogleSubscriptionPurchaseV2)

def SubscriptionWrite.of (ctx : SubscriptionCtx) (purchase : GoogleSubscriptionPurchaseV2)
    (subscriberId productId : String) (announced : Option String) (readAt eventTime : ℤ) :
    SubscriptionWrite where
  ctx := ctx
  purchase := purchase
  subscriberId := subscriberId
  productId := productId
  pending := pendingPlanChangeFields productId announced none (purchase.lineItem.bind (·.expiryTime))
  startTime := purchase.startTime.getD readAt
  eventTime := eventTime

def SubscriptionWrite.upserted (w : SubscriptionWrite) (seen : Option Purchase)
    (startedAt insertedAt updatedAt : ℤ) (id : String) : Option Purchase → Purchase
  -- the row the upsert leaves, where the guard read `seen`
  | none => { w.create insertedAt startedAt with id := id }
  | some row => StatusGuard.caseTerminal.patch (w.update (w.guard.result seen) updatedAt) row

namespace TokenRun

def holdsLock : TokenRun → Bool
  | .opened _ _ seen => seen.isSome
  | _ => false

def observed : TokenRun → Option (ℕ × PurchaseStatus)
  | .fetched n ctx purchase =>
    some (n, mapStatus purchase.subscriptionState ctx.notification.notificationType)
  | .stamped n w | .opened n w _ => some (n, w.status)
  | _ => none

end TokenRun

def TokenState.save (s : TokenState) (n : ℕ) (row : Purchase) : TokenState :=
  -- the upsert and its commit are one step: no statement of another run tells them apart, as the
  -- row stays locked from the one to the other
  { s with
    row := some row
    locked := false
    latest := if n = s.fetches then s.latest.map fun o => { o with committed := true }
      else s.latest }

def TokenState.admitsSave (s : TokenState) (seen : Option Purchase) : Bool :=
  seen.isSome || !s.locked

def tokenStep (projectId purchaseToken : String) (s : TokenState) :
    TokenRun → TokenEvent → TokenState × TokenRun
  | .idle, .fetch type subscriptionId =>
    ({ s with
      fetches := s.fetches + 1
      latest := some ⟨mapStatus s.live.subscriptionState type, false⟩ },
      .fetched (s.fetches + 1) ⟨projectId, ⟨type, purchaseToken, subscriptionId⟩⟩ s.live)
  | .fetched n ctx purchase, .stamp subscriberId productId announced readAt =>
    (s, .stamped n (.of ctx purchase subscriberId productId announced readAt s.now))
  | .stamped n w, .openTx =>
    match s.row with
    | none => (s, .opened n w none)
    | some row =>
      if s.locked then (s, .stamped n w) else ({ s with locked := true }, .opened n w (some row))
  | .opened n w seen, .save startedAt insertedAt updatedAt id =>
    if s.admitsSave seen then
      (s.save n (w.upserted seen startedAt insertedAt updatedAt id s.row), .committed)
    else (s, .opened n w seen)
  | .committed, _ => (s, .committed)
  | t, .abandon => ({ s with locked := s.locked && !t.holdsLock }, .idle)
  | t, _ => (s, t)

def tokenEnv (s : TokenState) : TokenEnv → TokenState
  | .tick n => { s with now := s.now + n }
  | .google purchase =>
    if validateTransition (mapSubscriptionStateToStatus s.live.subscriptionState)
        (mapSubscriptionStateToStatus purchase.subscriptionState) then
      { s with live := purchase }
    else s

def tokenSystem (projectId purchaseToken : String) :
    System TokenState TokenRun TokenEvent TokenEnv where
  step := tokenStep projectId purchaseToken
  env := tokenEnv
  reset t _ := t

abbrev TokenWorld (ι : Type) := World ι TokenState TokenRun

def tokenStart {ι : Type} (now : ℤ) (live : GoogleSubscriptionPurchaseV2) (row : Option Purchase) :
    TokenWorld ι := ⟨{ now := now, live := live, row := row }, fun _ => .idle⟩

section Transaction
variable {c c' : Session Db Write String}

theorem returns_writeSubscription {w : SubscriptionWrite} {row : Purchase} {applied : Bool}
    (h : (writeSubscription w).Returns c (row, applied) c') :
    ∃ startedAt insertedAt updatedAt id,
      w.upserted (c.view.purchases.get? w.ctx.key) startedAt insertedAt updatedAt id
        (c.view.purchases.get? w.ctx.key) = row ∧
      c'.view.purchases.get? w.ctx.key = some row := by
  obtain ⟨decided, c₁, hguard, h⟩ := Prog.returns_bind.1 (Prog.returns_transaction.1 h)
  obtain ⟨hdecided, rfl⟩ := returns_guardStatusWrite.1 hguard
  obtain ⟨insertedAt, c₂, hinserted, h⟩ := Prog.returns_bind.1 h
  obtain ⟨-, rfl⟩ := Prog.returns_now.1 hinserted
  obtain ⟨updatedAt, c₃, hupdated, h⟩ := Prog.returns_bind.1 h
  obtain ⟨-, rfl⟩ := Prog.returns_now.1 hupdated
  obtain ⟨row', c₄, hupsert, h⟩ := Prog.returns_bind.1 h
  obtain ⟨hpair, rfl⟩ := Prog.returns_done.1 h
  obtain ⟨rfl, -⟩ := Prod.mk.inj hpair
  obtain ⟨id, hrow, hget⟩ := returns_upsertPurchase hupsert
  refine ⟨c.clock 0, insertedAt, updatedAt, id, ?_, hget⟩
  rw [← hrow, ← hdecided, upsertedRow]
  have hview : c.tick.tick.tick.view = c.view := rfl
  have hkey : w.guard.key = w.ctx.key := rfl
  rw [hview, hkey, Session.tick_view]
  cases c.view.purchases.get? w.ctx.key <;> rfl

variable {ι : Type} [DecidableEq ι]

/-- What the handler's transaction leaves on its own, the last two steps of a run leave. -/
theorem tokenRun_writeSubscription {projectId purchaseToken : String} {world : TokenWorld ι} {i : ι}
    {n : ℕ} {w : SubscriptionWrite} {row : Purchase} {applied : Bool}
    (h : (writeSubscription w).Returns c (row, applied) c')
    (htask : world.task i = .stamped n w) (hfree : world.shared.locked = false)
    (hrow : world.shared.row = c.view.purchases.get? w.ctx.key) :
    ∃ startedAt insertedAt updatedAt id,
      ((tokenSystem projectId purchaseToken).runAll world [.act i .openTx,
        .act i (.save startedAt insertedAt updatedAt id)]).shared.row =
          c'.view.purchases.get? w.ctx.key := by
  obtain ⟨startedAt, insertedAt, updatedAt, id, hupserted, hget⟩ := returns_writeSubscription h
  refine ⟨startedAt, insertedAt, updatedAt, id, ?_⟩
  rw [hget, ← hupserted, ← hrow]
  have hstep : ∀ s t e, (tokenSystem projectId purchaseToken).step s t e =
      tokenStep projectId purchaseToken s t e := fun _ _ _ => rfl
  cases hseen : world.shared.row with
  | none => simp [System.next, hstep, tokenStep, htask, hseen, hfree, TokenState.admitsSave,
      TokenState.save]
  | some r => simp [System.next, hstep, tokenStep, htask, hseen, hfree, TokenState.admitsSave,
      TokenState.save]

end Transaction

end Rovenue.Google
