import Rovenue.Txn.Program
import Rovenue.Txn.Table

/-! Paywall assets: the rows, the quota reservations and the bucket the bytes live in. Time is
part of the store, so that what the clock says and what is committed are read together. -/

namespace Rovenue.Assets
open Txn

inductive AssetKind where
  | image | video | lottie
  deriving DecidableEq, Repr

def ASSET_ORPHAN_GRACE_HOURS : ℤ := 6

def MS_PER_HOUR : ℤ := 60 * 60 * 1000

def graceMs : ℤ := ASSET_ORPHAN_GRACE_HOURS * MS_PER_HOUR

def AssetKind.fileExtension : AssetKind → String
  | .image => "webp"
  | .video => "mp4"
  | .lottie => "json"

def buildStorageKey (projectId assetId : String) (kind : AssetKind) : String :=
  projectId ++ "/" ++ assetId ++ "." ++ kind.fileExtension

structure PaywallAsset where
  projectId : String
  kind : AssetKind
  name : String
  storageKey : String
  contentHash : String
  byteSize : ℕ
  deletedAt : Option ℤ := none
  deriving DecidableEq

def PaywallAsset.live (row : PaywallAsset) : Bool := row.deletedAt.isNone

structure PaywallAssetReservation where
  projectId : String
  bytes : ℕ
  createdAt : ℤ
  deriving DecidableEq

structure BillingSubscription where
  tier : String
  cycle : String
  state : String
  deriving DecidableEq

structure Billing where
  quotasUnlimited : Bool := false
  -- keyed by project
  subscriptions : Table String BillingSubscription := .empty
  -- `asset_storage_bytes_limit`, keyed by `(tier, cycle)`
  tierLimits : Table (String × String) (Option ℤ) := .empty

structure AssetDb where
  now : ℤ := 0
  billing : Billing := {}
  assets : Table String PaywallAsset := .empty
  reservations : Table String PaywallAssetReservation := .empty
  -- the bucket: each object's `LastModified`
  bucket : Table String ℤ := .empty

inductive Write where
  | advance (n : ℕ)
  | insertReservation (id : String) (row : PaywallAssetReservation)
  | deleteReservation (id : String)
  -- the sweep's `DELETE`, which looks at the row again once it has its lock
  | expireReservation (id : String) (cutoff : ℤ)
  | insertAsset (id : String) (row : PaywallAsset)
  | softDelete (id : String) (deletedAt : ℤ)
  | putObject (key : String) (lastModified : ℤ)
  | deleteObject (key : String)
  deriving DecidableEq

def PaywallAsset.tombstone (deletedAt : ℤ) (row : PaywallAsset) : PaywallAsset :=
  { row with deletedAt := some (row.deletedAt.getD deletedAt) }

@[simp] theorem PaywallAsset.tombstone_live (t : ℤ) (row : PaywallAsset) :
    (row.tombstone t).live = false := rfl

@[simp] theorem PaywallAsset.tombstone_storageKey (t : ℤ) (row : PaywallAsset) :
    (row.tombstone t).storageKey = row.storageKey := rfl

def expireReservation (cutoff : ℤ) (t : Table String PaywallAssetReservation) (id : String) :
    Table String PaywallAssetReservation :=
  if (t.get? id).any fun row => row.createdAt < cutoff then t.erase id else t

def AssetDb.write (s : AssetDb) : Write → AssetDb
  | .advance n => { s with now := s.now + n }
  | .insertReservation id row => { s with reservations := s.reservations.insert id row }
  | .deleteReservation id => { s with reservations := s.reservations.erase id }
  | .expireReservation id cutoff =>
    { s with reservations := expireReservation cutoff s.reservations id }
  | .insertAsset id row => { s with assets := s.assets.insert id row }
  | .softDelete id t => { s with assets := s.assets.modify id (PaywallAsset.tombstone t) }
  | .putObject key t => { s with bucket := s.bucket.set key t }
  | .deleteObject key => { s with bucket := s.bucket.erase key }

instance : Database AssetDb Write := ⟨AssetDb.write⟩

/-- What a statement waits for: the quota's advisory lock, or an entry of the partial unique index
on the live rows' content hashes. -/
inductive LockKey where
  | quota (projectId : String)
  | hash (projectId contentHash : String)
  deriving DecidableEq

abbrev AssetService := Prog AssetDb LockKey Write String

def ASSET_STORAGE_TIER_LIMIT_BYTES : List (String × Option ℤ) :=
  [("free", some (250 * 1024 * 1024)), ("indie", some (5 * 1024 * 1024 * 1024)),
    ("studio", some (50 * 1024 * 1024 * 1024)), ("enterprise", none)]

def assetStorageFallbackLimitBytes (tier : String) : Option ℤ :=
  (ASSET_STORAGE_TIER_LIMIT_BYTES.lookup tier).getD (some (250 * 1024 * 1024))

def resolveLimitBytes (tier : String) : Option ℤ → Option ℤ
  | none => assetStorageFallbackLimitBytes tier
  | some bytes => if bytes < 0 then none else some bytes

def FALLBACK_TIER : String := "free"

def FALLBACK_CYCLE : String := "monthly"

def freeTierLimitBytes (b : Billing) : Option ℤ :=
  resolveLimitBytes FALLBACK_TIER ((b.tierLimits.get? (FALLBACK_TIER, FALLBACK_CYCLE)).getD none)

def tierLimitBytes (b : Billing) (projectId : String) : Option ℤ :=
  if b.quotasUnlimited then none
  else
    -- the join finds a row only where the subscription is not deleted and its tier has limits
    match (b.subscriptions.get? projectId).filter fun sub => sub.state ≠ "deleted" with
    | none => freeTierLimitBytes b
    | some sub =>
      match b.tierLimits.get? (sub.tier, sub.cycle) with
      | none => freeTierLimitBytes b
      | some limit => resolveLimitBytes sub.tier limit

def usedBytes (s : AssetDb) (projectId : String) : ℕ :=
  s.assets.total fun _ row => if row.projectId = projectId ∧ row.live then row.byteSize else 0

def reservedBytes (s : AssetDb) (projectId : String) : ℕ :=
  s.reservations.total fun _ row => if row.projectId = projectId then row.bytes else 0

def chargedBytes (s : AssetDb) (projectId : String) : ℕ :=
  usedBytes s projectId + reservedBytes s projectId

def UNLIMITED_RESERVATION : String := "unlimited"

def reserveStorage (id projectId : String) (bytes : ℕ) : AssetService (Option String) := do
  let limit ← Prog.query fun s => tierLimitBytes s.billing projectId
  match limit with
  | none => pure (some UNLIMITED_RESERVATION)
  | some limit => Prog.transaction fun _ => do
    let createdAt ← Prog.query AssetDb.now
    Prog.acquire (.quota projectId)
    Prog.exec (fun _ => [])
      (fun s => if chargedBytes s projectId + bytes ≤ limit then
        [.insertReservation id ⟨projectId, bytes, createdAt⟩] else [])
      fun s => if chargedBytes s projectId + bytes ≤ limit then some id else none

def releaseReservation (id : String) : AssetService Unit :=
  if id = UNLIMITED_RESERVATION then pure ()
  else Prog.exec (fun _ => []) (fun _ => [.deleteReservation id]) fun _ => ()

def findAssetById (projectId id : String) (s : AssetDb) : Option PaywallAsset :=
  (s.assets.get? id).filter fun row => row.projectId = projectId ∧ row.live

def liveByHash (projectId contentHash : String) (e : String × PaywallAsset) : Bool :=
  e.2.projectId = projectId ∧ e.2.contentHash = contentHash ∧ e.2.live

def findLiveAssetByHash (projectId contentHash : String) (s : AssetDb) :
    Option (String × PaywallAsset) :=
  s.assets.entries.find? (liveByHash projectId contentHash)

def createAsset (id : String) (row : PaywallAsset) : AssetService Bool :=
  Prog.exec (fun _ => [.hash row.projectId row.contentHash])
    (fun s => if (findLiveAssetByHash row.projectId row.contentHash s).isSome then []
      else [.insertAsset id row])
    fun s => (findLiveAssetByHash row.projectId row.contentHash s).isNone

def softDeleteAsset (projectId id : String) : AssetService Unit := do
  let deletedAt ← Prog.query AssetDb.now
  Prog.exec
    (fun s => (findAssetById projectId id s).toList.map fun row =>
      .hash row.projectId row.contentHash)
    (fun s => (findAssetById projectId id s).toList.map fun _ => .softDelete id deletedAt)
    fun _ => ()

def putObject (key : String) : AssetService Unit :=
  (Prog.exec (fun _ => []) (fun s => [.putObject key s.now]) fun _ => ()).autocommit

def deleteObject (key : String) : AssetService Unit :=
  (Prog.exec (fun _ => []) (fun _ => [.deleteObject key]) fun _ => ()).autocommit

inductive Outcome where
  | done | failed | unseen
  deriving DecidableEq, Repr

def attempt (o : Outcome) (p : AssetService Unit) : AssetService Bool :=
  match o with
  | .failed => pure false
  | .done => p.bind fun _ => pure true
  | .unseen => p.bind fun _ => pure false

end Rovenue.Assets
