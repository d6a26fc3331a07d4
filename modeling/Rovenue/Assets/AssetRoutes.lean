import Rovenue.Assets.AssetStore

/-! The calls on the asset store: the three upload paths, the delete route and the orphan sweep.
What the outside answers comes with the call. -/

namespace Rovenue.Assets
open Txn

inductive Response where
  | ok (status : ℕ) (assetId : String)
  | fail (status : ℕ) (code message : String)
  deriving DecidableEq

def ASSET_NAME_MAX_LENGTH : ℕ := 120

def allowedNameChar (c : Char) : Bool :=
  ('A' ≤ c ∧ c ≤ 'Z') ∨ ('a' ≤ c ∧ c ≤ 'z') ∨ ('0' ≤ c ∧ c ≤ '9') ∨
    c = ' ' ∨ c = '.' ∨ c = '_' ∨ c = '-'

def sequentialPeriods : List Char → Bool
  | '.' :: '.' :: _ => true
  | _ :: cs => sequentialPeriods cs
  | [] => false

def isValidAssetName (name : String) : Bool :=
  let cs := name.toList
  cs ≠ [] ∧ cs.length ≤ ASSET_NAME_MAX_LENGTH ∧ cs.all allowedNameChar ∧ cs.head? ≠ some '.' ∧
    !sequentialPeriods cs

structure Content where
  contentHash : String
  byteSize : ℕ

structure Upload where
  kind : AssetKind
  projectId : String
  name : String
  assetId : String
  reservationId : String
  -- `assertProjectCapability` lets the caller through
  permitted : Bool := true
  storageConfigured : Bool := true
  -- what `detectAssetKind` makes of the bytes
  detected : Option AssetKind
  -- the stored bytes, or why an image could not be normalised
  content : Except String Content
  -- `Content-Length` where it is present, positive and not overridden by `Transfer-Encoding`
  declaredBytes : Option ℕ := none
  put : Outcome := .done
  rowTx : Outcome := .done
  release : Outcome := .done
  delete : Outcome := .done

namespace Upload
variable (u : Upload)

def storageKey : String := buildStorageKey u.projectId u.assetId u.kind

def row (c : Content) : PaywallAsset where
  projectId := u.projectId
  kind := u.kind
  name := u.name
  storageKey := u.storageKey
  contentHash := c.contentHash
  byteSize := c.byteSize

def quotaExhausted : Response := .fail 402 "ASSET_QUOTA_EXCEEDED" "Storage quota exhausted"

def unsupported : Response :=
  .fail 400 "ASSET_FORMAT_UNSUPPORTED" <| match u.kind with
    | .image => "Bytes do not look like a image"
    | .video => "Bytes do not look like a video"
    | .lottie => "Bytes do not look like a lottie"

def releaseReservationOrLog (reservationId : String) : AssetService Unit := do
  let _released ← attempt u.release (releaseReservation reservationId).autocommit
  pure ()

def putObjectOrReleaseReservation (reservationId : String) : AssetService (Option Response) := do
  let stored ← attempt u.put (putObject u.storageKey)
  if stored then pure none
  else do
    u.releaseReservationOrLog reservationId
    pure (some (.fail 503 "ASSET_STORAGE_UNAVAILABLE" "Asset storage is unreachable"))

def insertRow (c : Content) (reservationId : String) : AssetService Bool :=
  Prog.transaction fun _ => do
    let created ← createAsset u.assetId (u.row c)
    if created then do
      releaseReservation reservationId
      pure true
    -- a unique violation rolls back a transaction that has written nothing yet
    else pure false

def commitAssetRow (c : Content) (reservationId : String) : AssetService Response :=
  if u.rowTx = .failed then do
    u.releaseReservationOrLog reservationId
    Prog.throw "asset row transaction failed"
  else do
    let created ← u.insertRow c reservationId
    if created then
      if u.rowTx = .done then pure (.ok 201 u.assetId)
      else do
        u.releaseReservationOrLog reservationId
        Prog.throw "connection lost while committing"
    else do
      let existing ← Prog.query (findLiveAssetByHash u.projectId c.contentHash)
      u.releaseReservationOrLog reservationId
      let _deleted ← attempt u.delete (deleteObject u.storageKey)
      match existing with
      | some e => pure (.ok 200 e.1)
      | none => Prog.throw "paywall_assets_project_hash_key"

def reserveAndStore (c : Content) : AssetService Response := do
  let existing ← Prog.query (findLiveAssetByHash u.projectId c.contentHash)
  match existing with
  | some e => pure (.ok 200 e.1)
  | none => do
    let reserved ← reserveStorage u.reservationId u.projectId c.byteSize
    match reserved with
    | none => pure quotaExhausted
    | some reservationId => do
      let putFailure ← u.putObjectOrReleaseReservation reservationId
      match putFailure with
      | some response => pure response
      | none => u.commitAssetRow c reservationId

def handleBuffered : AssetService Response :=
  -- `handleBuffered` and `handleBufferedVideo`: only an image can fail to be processed
  if u.detected ≠ some u.kind then pure u.unsupported
  else match u.content with
    | .error message => pure (.fail 400 "ASSET_PROCESSING_FAILED" message)
    | .ok c => u.reserveAndStore c

def streamVideo (declaredBytes : ℕ) (c : Content) : AssetService Response := do
  let reserved ← reserveStorage u.reservationId u.projectId declaredBytes
  match reserved with
  | none => pure quotaExhausted
  | some reservationId =>
    if u.detected ≠ some .video then do
      (releaseReservation reservationId).autocommit
      pure u.unsupported
    else do
      let putFailure ← u.putObjectOrReleaseReservation reservationId
      match putFailure with
      | some response => pure response
      | none => do
        -- the hash of a stream is known only now, so the dedup check runs after the put
        let existing ← Prog.query (findLiveAssetByHash u.projectId c.contentHash)
        match existing with
        | some e => do
          (releaseReservation reservationId).autocommit
          let _deleted ← attempt u.delete (deleteObject u.storageKey)
          pure (.ok 200 e.1)
        | none => u.commitAssetRow c reservationId

def handleStreamedVideo : AssetService Response :=
  match u.declaredBytes, u.content with
  | some declaredBytes, .ok c => u.streamVideo declaredBytes c
  | _, _ => u.handleBuffered

def processAssetUpload : AssetService Response :=
  if !isValidAssetName u.name then pure (.fail 400 "ASSET_INVALID_NAME" "Invalid asset name")
  else if !u.permitted then Prog.throw "assets:write"
  else if !u.storageConfigured then
    pure (.fail 503 "ASSET_STORAGE_UNAVAILABLE" "Asset storage is not configured")
  else do
    let limit ← Prog.query fun s => tierLimitBytes s.billing u.projectId
    let used ← Prog.query fun s => usedBytes s u.projectId
    if limit.any fun limitBytes : ℤ => limitBytes ≤ (used : ℤ) then pure quotaExhausted
    else match u.kind with
      | .video => u.handleStreamedVideo
      | _ => u.handleBuffered

end Upload

structure Deletion where
  projectId : String
  assetId : String
  force : Bool := false
  permitted : Bool := true
  -- the paywalls `findReferencingPaywalls` finds, by id and name
  referencing : List (String × String) := []
  rowTx : Outcome := .done
  delete : Outcome := .done

def inUseMessage (referencing : List (String × String)) : String :=
  let refs := ", ".intercalate (referencing.map fun p => "\"" ++ p.2 ++ "\" (" ++ p.1 ++ ")")
  "Asset is referenced by " ++ toString referencing.length ++ " paywall(s): " ++ refs ++
    ". Re-run with force=true to delete it anyway."

def Deletion.run (d : Deletion) : AssetService Response :=
  if !d.permitted then Prog.throw "assets:write"
  else do
    let found ← Prog.query (findAssetById d.projectId d.assetId)
    match found with
    | none => pure (.fail 404 "NOT_FOUND" "Asset not found")
    | some asset =>
      if !d.force && d.referencing ≠ [] then
        pure (.fail 409 "ASSET_IN_USE" (inUseMessage d.referencing))
      else do
        -- row first, object second
        let tombstoned ← attempt d.rowTx
          (Prog.transaction fun _ => softDeleteAsset d.projectId d.assetId)
        if !tombstoned then Prog.throw "asset row transaction failed"
        else do
          let _deleted ← attempt d.delete (deleteObject asset.storageKey)
          pure (.ok 200 d.assetId)

/-- One sweep: where the listing's pages end, and the keys whose `HEAD` comes back not found. -/
structure Sweep where
  pageEnds : List String := []
  unseen : String → Bool := fun _ => false

def liveKeys (s : AssetDb) : List String :=
  (s.assets.entries.filter fun e => e.2.live).map fun e => e.2.storageKey

def keysAfter (after : Option String) (s : AssetDb) : List String :=
  (s.bucket.entries.map Prod.fst).filter fun key => after.all fun token => token < key

def listAllKeys : Option String → List String → AssetService (List String)
  | after, [] => Prog.query (keysAfter after)
  | after, token :: tokens => do
    let page ← Prog.query fun s => (keysAfter after s).filter fun key => !(token < key)
    let rest ← listAllKeys (some token) tokens
    pure (page ++ rest)

def getObjectLastModified (unseen : String → Bool) (key : String) : AssetService (Option ℤ) :=
  Prog.query fun s => if unseen key then none else s.bucket.get? key

def sweepKeys (unseen : String → Bool) (cutoff : ℤ) (live : List String) :
    List String → ℕ → AssetService ℕ
  | [], reclaimed => pure reclaimed
  | key :: keys, reclaimed =>
    if key ∈ live then sweepKeys unseen cutoff live keys reclaimed
    else do
      let lastModified ← getObjectLastModified unseen key
      match lastModified with
      -- an age that could not be confirmed is no reason to delete
      | none => sweepKeys unseen cutoff live keys reclaimed
      | some t =>
        if cutoff < t then sweepKeys unseen cutoff live keys reclaimed
        else do
          deleteObject key
          sweepKeys unseen cutoff live keys (reclaimed + 1)

def staleReservations (cutoff : ℤ) (s : AssetDb) : List String :=
  (s.reservations.entries.filter fun e => e.2.createdAt < cutoff).map Prod.fst

def sweepReservations (cutoff : ℤ) : AssetService Unit :=
  (Prog.exec (fun _ => []) (fun s => (staleReservations cutoff s).map (.expireReservation · cutoff))
    fun _ => ()).autocommit

def sweepOrphanedAssets (w : Sweep) : AssetService ℕ := do
  let now ← Prog.query AssetDb.now
  let cutoff := now - graceMs
  let live ← Prog.query liveKeys
  let keys ← listAllKeys none w.pageEnds
  let reclaimed ← sweepKeys w.unseen cutoff live keys 0
  sweepReservations cutoff
  pure reclaimed

inductive Call where
  | upload (u : Upload)
  | delete (d : Deletion)
  | sweep (w : Sweep)
  | clock (elapses : List ℕ)

def elapse (n : ℕ) : AssetService Unit :=
  (Prog.exec (fun _ => []) (fun _ => [.advance n]) fun _ => ()).autocommit

def Call.run : Call → AssetService Unit
  | .upload u => u.processAssetUpload.bind fun _ => pure ()
  | .delete d => d.run.bind fun _ => pure ()
  | .sweep w => (sweepOrphanedAssets w).bind fun _ => pure ()
  | .clock elapses => Prog.forEach elapses elapse

end Rovenue.Assets
