import Rovenue.Sdk.Error
import Rovenue.Threads.System

/-! Who the SDK speaks for: the device id and the app's own id for the user. -/

namespace Rovenue.Sdk

structure User where
  rovenueId : String
  appUserId : Option String
deriving DecidableEq

structure IdentityRow where
  rovenueId : String
  appUserId : Option String
  synced : Bool
deriving DecidableEq

def isWhitespace (c : Char) : Bool :=
  (0x09 ≤ c.toNat && c.toNat ≤ 0x0D) || c.toNat = 0x20 || c.toNat = 0x85 || c.toNat = 0xA0 ||
    c.toNat = 0x1680 || (0x2000 ≤ c.toNat && c.toNat ≤ 0x200A) || c.toNat = 0x2028 ||
    c.toNat = 0x2029 || c.toNat = 0x202F || c.toNat = 0x205F || c.toNat = 0x3000

def isBlank (s : String) : Bool := s.toList.all isWhitespace

namespace User

/-- The namespace of the local caches; the wire knows the `rovenueId` only. -/
def currentUserScope (u : User) : String := u.appUserId.getD u.rovenueId

def setAppUserId (u : User) (appUserId : String) : User × Bool :=
  -- the critical section of `set_app_user_id`, and whether the id changed
  if u.appUserId = some appUserId then (u, false)
  else ({ u with appUserId := some appUserId }, true)

def logOut (newRovenueId : String) : User := ⟨newRovenueId, none⟩

end User
end Rovenue.Sdk

/-! `identify`, `log_out` and the reconciler over one in-memory user and one row on
disk, section by section. -/

namespace Rovenue.Sdk
open Threads

/-- The manager saves a row before it is used, so `load` always finds one. -/
structure IdentityState where
  cached : User
  disk : IdentityRow
  -- the pairs of rovenue id and app user id that `POST /v1/identify` accepted; no column
  posted : List (String × String)

/-- Where a call stands. `before` is the user that `set_app_user_id` replaced in memory. -/
inductive IdentityCall where
  | idle
  | saving (before : User) (rovenueId appUserId : String)
  | readingId (appUserId : String)
  | posting (rovenueId appUserId : String)
  | marking (rovenueId appUserId : String)
  | markSaving (rovenueId : String) (row : IdentityRow)
  | swapping (row : IdentityRow)

inductive IdentityEvent where
  | identify (appUserId : String)
  | logOut (newRovenueId : String) (saved : Bool)
  | reconcile (loaded : Bool)
  | save (ok : Bool)
  | readId
  | reply (ok : Bool)
  | load (ok : Bool)
  | swap

namespace IdentityState

def setAppUserId (s : IdentityState) (appUserId : String) : IdentityState × IdentityCall :=
  -- the critical section of `set_app_user_id`, which also reads the rovenue id
  if isBlank appUserId then (s, .idle)
  else
    let (u, changed) := s.cached.setAppUserId appUserId
    if changed then ({ s with cached := u }, .saving s.cached u.rovenueId appUserId) else (s, .idle)

def markSynced (s : IdentityState) (rovenueId forAppUserId : String) : IdentityCall :=
  if !s.disk.synced ∧ s.disk.appUserId = some forAppUserId then
    .markSaving rovenueId { s.disk with synced := true }
  else .idle

def pendingAppUserId (s : IdentityState) : Option String :=
  if s.disk.synced then none else s.disk.appUserId

def step (s : IdentityState) : IdentityCall → IdentityEvent → IdentityState × IdentityCall
  | .idle, .identify appUserId => s.setAppUserId appUserId
  | .idle, .logOut newRovenueId saved =>
    let row : IdentityRow := ⟨newRovenueId, none, true⟩
    if saved then ({ s with disk := row }, .swapping row) else (s, .idle)
  | .idle, .reconcile loaded =>
    (s, if loaded then s.pendingAppUserId.elim .idle .readingId else .idle)
  | .saving _ rovenueId appUserId, .save ok =>
    if ok then ({ s with disk := ⟨rovenueId, some appUserId, false⟩ }, .readingId appUserId)
    else (s, .idle)
  | .readingId appUserId, .readId => (s, .posting s.cached.rovenueId appUserId)
  | .posting rovenueId appUserId, .reply ok =>
    if ok then
      ({ s with posted := s.posted ++ [(rovenueId, appUserId)] }, .marking rovenueId appUserId)
    else (s, .idle)
  | .marking rovenueId appUserId, .load ok =>
    (s, if ok then s.markSynced rovenueId appUserId else .idle)
  | .markSaving _ row, .save ok => (if ok then { s with disk := row } else s, .idle)
  | .swapping row, .swap => ({ s with cached := ⟨row.rovenueId, none⟩ }, .idle)
  | t, _ => (s, t)

end IdentityState

def identitySystem : System IdentityState IdentityCall IdentityEvent Empty where
  step := IdentityState.step
  env s _ := s
  reset t _ := t

end Rovenue.Sdk
