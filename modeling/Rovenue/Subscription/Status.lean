import Rovenue.Schema

/-! What each status means, one row a status, and the lists derived from the rows. -/

namespace Rovenue

structure StatusSemantics where
  grantsAccess : Bool
  isLive : Bool
  isTerminal : Bool
  sweepable : Bool
  reconcilable : Bool
  involuntary : Bool
  deriving DecidableEq, Repr

namespace PurchaseStatus

def all : List PurchaseStatus :=
  [.trial, .active, .expired, .refunded, .revoked, .paused, .gracePeriod, .billingIssue]

theorem mem_all (s : PurchaseStatus) : s ∈ all := by cases s <;> decide

instance : Fintype PurchaseStatus := ⟨⟨all, by decide⟩, mem_all⟩

def semantics : PurchaseStatus → StatusSemantics
  | .trial => ⟨true, true, false, true, true, false⟩
  | .active => ⟨true, true, false, true, true, false⟩
  | .gracePeriod => ⟨true, true, false, true, true, true⟩
  | .paused => ⟨false, false, false, true, true, false⟩
  | .billingIssue => ⟨false, true, false, false, true, true⟩
  | .expired => ⟨false, false, false, false, false, false⟩
  | .refunded => ⟨false, false, true, false, false, false⟩
  | .revoked => ⟨false, false, true, false, false, false⟩

def grantsAccess (s : PurchaseStatus) : Bool := s.semantics.grantsAccess

def isTerminal (s : PurchaseStatus) : Bool := s.semantics.isTerminal

end PurchaseStatus

open PurchaseStatus

def statusesWhere (p : StatusSemantics → Bool) : List PurchaseStatus :=
  all.filter fun s => p s.semantics

def accessGrantingStatuses : List PurchaseStatus := statusesWhere (·.grantsAccess)
def liveStatuses : List PurchaseStatus := statusesWhere (·.isLive)
def expirySweepStatuses : List PurchaseStatus := statusesWhere (·.sweepable)
def reconcilableStatuses : List PurchaseStatus := statusesWhere (·.reconcilable)
def terminalStatuses : List PurchaseStatus := statusesWhere (·.isTerminal)
def billingIssueAgeingStatuses : List PurchaseStatus :=
  statusesWhere fun s => s.involuntary && !s.sweepable

@[simp] theorem mem_statusesWhere {p : StatusSemantics → Bool} {s : PurchaseStatus} :
    s ∈ statusesWhere p ↔ p s.semantics = true := by simp [statusesWhere, mem_all]

theorem mem_repoTerminalStatuses {s : PurchaseStatus} :
    s ∈ repoTerminalStatuses ↔ s.isTerminal = true := by cases s <;> decide

end Rovenue

/-! The transition machine. -/

namespace Rovenue

def transitions : PurchaseStatus → List PurchaseStatus
  | .trial => [.trial, .active, .expired, .revoked, .refunded, .billingIssue]
  | .active =>
    [.active, .trial, .gracePeriod, .expired, .refunded, .revoked, .paused, .billingIssue]
  | .gracePeriod => [.gracePeriod, .active, .expired, .refunded, .revoked, .billingIssue]
  | .billingIssue => [.billingIssue, .active, .expired, .refunded, .revoked]
  | .paused => [.paused, .active, .expired, .revoked]
  | .expired => [.expired, .active, .trial]
  | .refunded => [.refunded]
  | .revoked => [.revoked]

def validateTransition (a b : PurchaseStatus) : Bool := b ∈ transitions a

structure TransitionDecision where
  apply : Bool
  fromStatus : Option PurchaseStatus
  toStatus : PurchaseStatus
  deriving DecidableEq

def decideTransition (fromStatus : Option PurchaseStatus) (toStatus : PurchaseStatus) :
    TransitionDecision where
  apply := match fromStatus with
    | none => true
    | some s => validateTransition s toStatus
  fromStatus := fromStatus
  toStatus := toStatus

def billingIssueStamp (fromStatus : Option PurchaseStatus) (toStatus : PurchaseStatus) (now : ℤ) :
    Option (Option ℤ) :=
  -- the `billingIssueDetectedAt` column of a status write: `none` leaves it alone
  if toStatus = .billingIssue then
    if fromStatus = some .billingIssue then none else some (some now)
  else if fromStatus = some .billingIssue ∧ toStatus.grantsAccess then some none
  else none

@[simp] theorem validateTransition_self (s : PurchaseStatus) : validateTransition s s = true := by
  cases s <;> decide

theorem validateTransition_terminal {a b : PurchaseStatus} (ha : a.isTerminal = true)
    (h : validateTransition a b = true) : b = a := by
  revert a b; decide

end Rovenue
