import Rovenue.Sdk.IdentityManager

/-! The SDK's entitlement reader: rows cached under the user's scope, one ETag
for the resource, and the server that answers conditional requests. -/

namespace Rovenue.Sdk
open Txn

structure EntitlementWire where
  isActive : Bool
  expiresDate : Option String
  store : String
  productIdentifier : String
deriving DecidableEq

abbrev EntitlementMap := Table String EntitlementWire

/-- The columns `list_all` reads. -/
structure EntitlementRow where
  isActive : Bool
  productIdentifier : String
  store : String
  expiresIso : Option String
deriving DecidableEq

structure Entitlement where
  id : String
  isActive : Bool
  productIdentifier : String
  store : String
  expiresIso : Option String
deriving DecidableEq

def EntitlementWire.toRow (w : EntitlementWire) : EntitlementRow where
  isActive := w.isActive
  productIdentifier := w.productIdentifier
  store := w.store
  expiresIso := w.expiresDate

def mapToRows (m : EntitlementMap) : List (String × EntitlementRow) :=
  m.entries.map fun e => (e.1, e.2.toRow)

def rowToEntitlement (id : String) (r : EntitlementRow) : Entitlement where
  id := id
  isActive := r.isActive
  productIdentifier := r.productIdentifier
  store := r.store
  expiresIso := r.expiresIso

abbrev EntitlementRows := Table (String × String) EntitlementRow

/-- `INSERT … ON CONFLICT DO UPDATE`, row by row in one transaction. -/
def upsertMany (scope : String) (rows : List (String × EntitlementRow)) (t : EntitlementRows) :
    EntitlementRows := rows.foldl (fun t r => t.set (scope, r.1) r.2) t

def listRows (scope : String) (t : EntitlementRows) : List (String × EntitlementRow) :=
  (t.entries.filter fun e => e.1.1 = scope).map fun e => (e.1.2, e.2)

inductive Response where
  | notModified
  | ok (entitlements : EntitlementMap) (etag : String)

def respond (etagOf : EntitlementMap → String) (held : EntitlementMap)
    (ifNoneMatch : Option String) : Response :=
  -- 304 exactly when `If-None-Match` is the ETag of what the server holds now
  if ifNoneMatch = some (etagOf held) then .notModified else .ok held (etagOf held)

structure EntitlementReader where
  user : User
  rows : EntitlementRows
  etag : Option String

/-- The step of a `refresh` that fails, if one does. -/
inductive RefreshFault where
  | readEtag | request (e : RovenueError) | upsert | writeEtag
deriving DecidableEq

namespace EntitlementReader

def listAll (r : EntitlementReader) : List Entitlement :=
  (listRows r.user.currentUserScope r.rows).map fun e => rowToEntitlement e.1 e.2

def refresh (server : String → Option String → Response) (fault : Option RefreshFault)
    (r : EntitlementReader) : EntitlementReader × Except RovenueError Unit :=
  -- `server` is asked for the wire identity, the rows go under the cache scope
  let scope := r.user.currentUserScope
  let wireId := r.user.rovenueId
  match fault with
  | some .readEtag => (r, .error (.ofKind .storage))
  | some (.request e) => (r, .error e)
  | _ =>
    match server wireId r.etag with
    | .notModified => (r, .ok ())
    | .ok entitlements etag =>
      if fault = some .upsert then (r, .error (.ofKind .storage))
      else
        let rows := upsertMany scope (mapToRows entitlements) r.rows
        if fault = some .writeEtag then
          ({ r with rows := rows }, .error (.ofKind .storage))
        else ({ r with rows := rows, etag := some etag }, .ok ())

def hydrate (scope : String) (m : EntitlementMap) (saved : Bool) (r : EntitlementReader) :
    EntitlementReader :=
  if saved then { r with rows := upsertMany scope (mapToRows m) r.rows } else r

def identify (appUserId : String) (r : EntitlementReader) : EntitlementReader :=
  if isBlank appUserId then r else { r with user := (r.user.setAppUserId appUserId).1 }

def logOut (newRovenueId : String) (saved : Bool) (r : EntitlementReader) : EntitlementReader :=
  if saved then { r with user := User.logOut newRovenueId } else r

end EntitlementReader

inductive ReaderCall where
  | identify (appUserId : String)
  | logOut (newRovenueId : String) (saved : Bool)
  | refresh (held : String → EntitlementMap) (fault : Option RefreshFault)
  | hydrate (scope : String) (m : EntitlementMap) (saved : Bool)

section Runs
variable (etagOf : EntitlementMap → String)

def EntitlementReader.call (r : EntitlementReader) : ReaderCall → EntitlementReader
  | .identify appUserId => r.identify appUserId
  | .logOut newRovenueId saved => r.logOut newRovenueId saved
  | .refresh held fault => (r.refresh (fun wireId => respond etagOf (held wireId)) fault).1
  | .hydrate scope m saved => r.hydrate scope m saved

def EntitlementReader.run (r : EntitlementReader) :
    List ReaderCall → List (EntitlementReader × ReaderCall)
  | [] => []
  | c :: cs => (r, c) :: EntitlementReader.run (r.call etagOf c) cs

end Runs
end Rovenue.Sdk
