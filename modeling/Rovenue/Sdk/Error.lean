import Rovenue.Txn.Table

/-! The SDK's errors, and what an HTTP status means to its retry loop and its queues. -/

namespace Rovenue.Sdk

inductive ErrorKind where
  | networkUnavailable | timeout | rateLimited | serverError
  | invalidApiKey | forbidden | notFound | invalidRequest | conflict | invalidArgument
  | insufficientCredits | funnelTokenNotFound | funnelTokenExpired | funnelTokenAlreadyClaimed
  | purchaseCanceled | productNotAvailable | alreadyOwned | paymentDeclined
  | storeServiceUnavailable | ineligible | receiptInvalid | storeProblem
  | storage | internal
deriving DecidableEq

def ErrorKind.isRetryable : ErrorKind → Bool
  | .networkUnavailable | .timeout | .rateLimited | .serverError
  | .storeServiceUnavailable => true
  | _ => false

structure RovenueError where
  kind : ErrorKind
  httpStatus : Option ℕ
  retryable : Bool
deriving DecidableEq

namespace RovenueError

def ofKind (kind : ErrorKind) : RovenueError := ⟨kind, none, kind.isRetryable⟩

def http (kind : ErrorKind) (status : ℕ) : RovenueError := ⟨kind, some status, kind.isRetryable⟩

def isPoison (e : RovenueError) : Bool :=
  !e.retryable && (e.httpStatus = some 400 || e.httpStatus = some 422)

end RovenueError

def errorKindOfStatus (status : ℕ) : ErrorKind :=
  if status = 401 then .invalidApiKey
  else if status = 402 then .insufficientCredits
  else if status = 403 then .forbidden
  else if status = 404 then .notFound
  else if status = 409 then .conflict
  else if status = 422 ∨ status = 400 then .invalidRequest
  else if status = 429 then .rateLimited
  else if 405 ≤ status ∧ status ≤ 499 then .invalidRequest
  else if 500 ≤ status ∧ status ≤ 599 then .serverError
  else .internal

def errorFromStatus (status : ℕ) : RovenueError := .http (errorKindOfStatus status) status

end Rovenue.Sdk
