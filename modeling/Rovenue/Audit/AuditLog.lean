import Rovenue.Audit.AuditChain
import Rovenue.Calendar.Gregorian
import Rovenue.Txn.Machine

/-! The audit log: each row chained to the one before it under the project's lock, the walk that
checks a chain, and the retention run that carries the oldest rows out of the table into a bundle. -/

namespace Rovenue.Audit
open Txn
open Js (Json JsValue)

structure AuditEntry where
  projectId : String
  userId : Option String
  action : String
  resource : String
  resourceId : String
  before : JsValue := .undefined
  after : JsValue := .undefined
  ipAddress : Option String := none
  userAgent : Option String := none

structure AuditLog where
  id : String
  projectId : String
  userId : Option String
  action : String
  resource : String
  resourceId : String
  before : Json
  after : Json
  ipAddress : Option String
  userAgent : Option String
  prevHash : Option String
  rowHash : Option String
  createdAt : ℤ

/-- What an `INSERT` of a row is given. -/
structure AuditLogValues where
  id : String
  entry : AuditEntry
  prevHash : Option String
  rowHash : String
  createdAt : ℤ

structure Jsonb where
  store : Json → Json
  keeps : ∀ j, j.Distinct → (store j).sorted = j.sorted

structure Server where
  sha : Sha256
  jsonb : Jsonb
  storageConfigured : Bool := true

/-- A process's own clock, and an id that `createId` has not given before. -/
structure Drawn where
  id : String
  now : ℤ

def orNull : JsValue → JsValue
  | .undefined => .null
  | v => v

def snapshotColumn (jsonb : Jsonb) (v : JsValue) : Json :=
  match orNull v with
  | .null => .null
  | v => jsonb.store v.toJson

def AuditLogValues.row (jsonb : Jsonb) (v : AuditLogValues) : AuditLog where
  id := v.id
  projectId := v.entry.projectId
  userId := v.entry.userId
  action := v.entry.action
  resource := v.entry.resource
  resourceId := v.entry.resourceId
  before := snapshotColumn jsonb v.entry.before
  after := snapshotColumn jsonb v.entry.after
  ipAddress := v.entry.ipAddress
  userAgent := v.entry.userAgent
  prevHash := v.prevHash
  rowHash := some v.rowHash
  createdAt := v.createdAt

def toISOString (ms : ℤ) : String := String.ofList (Calendar.momentText ms)

def buildCanonicalPayload (entry : AuditEntry) (createdAt : ℤ) (prevHash : Option String) :
    AuditChainPayload where
  projectId := entry.projectId
  userId := entry.userId
  action := entry.action
  resource := entry.resource
  resourceId := entry.resourceId
  before := orNull entry.before
  after := orNull entry.after
  ipAddress := entry.ipAddress
  userAgent := entry.userAgent
  createdAt := toISOString createdAt
  prevHash := prevHash

/-- The table in the order of its inserts, each row as it was given, and the bucket of the
checkpoint bundles. -/
structure AuditDb where
  logs : List AuditLogValues := []
  bundles : Table String AuditProofBundle := Table.empty

inductive Write where
  | insertAuditLog (row : AuditLogValues)
  | deleteAuditLogs (projectId : String) (ids : List String)
  | putObject (key : String) (bundle : AuditProofBundle)

def AuditDb.write (s : AuditDb) : Write → AuditDb
  | .insertAuditLog row => { s with logs := s.logs ++ [row] }
  | .deleteAuditLogs projectId ids =>
    { s with logs := s.logs.filter fun r => !(r.entry.projectId = projectId && r.id ∈ ids) }
  | .putObject key bundle => { s with bundles := s.bundles.set key bundle }

instance : Database AuditDb Write := ⟨AuditDb.write⟩

/-- The rows as a read has them. -/
def AuditDb.rows (jsonb : Jsonb) (s : AuditDb) : List AuditLog := s.logs.map (·.row jsonb)

def ChainOrder (a b : AuditLog) : Prop :=
  a.createdAt < b.createdAt ∨ a.createdAt = b.createdAt ∧ a.id ≤ b.id

instance (a b : AuditLog) : Decidable (ChainOrder a b) := inferInstanceAs (Decidable (_ ∨ _))

def findProjectChain (jsonb : Jsonb) (projectId : String) (s : AuditDb) : List AuditLog :=
  ((s.rows jsonb).filter fun r => r.projectId = projectId).insertionSort ChainOrder

def latestRow (jsonb : Jsonb) (projectId : String) (s : AuditDb) : Option AuditLog :=
  (((s.rows jsonb).filter fun r => r.projectId = projectId && r.rowHash.isSome).insertionSort
    ChainOrder).getLast?

def proofRow (r : AuditLog) : AuditProofBundleEntry where
  id := r.id
  projectId := r.projectId
  userId := r.userId
  action := r.action
  resource := r.resource
  resourceId := r.resourceId
  before := r.before
  after := r.after
  ipAddress := r.ipAddress
  userAgent := r.userAgent
  createdAt := toISOString r.createdAt
  prevHash := r.prevHash
  rowHash := r.rowHash

def inRange («from» «to» : Option ℤ) (r : AuditLog) : Bool :=
  «from».all (fun t => decide (t ≤ r.createdAt)) && «to».all fun t => decide (r.createdAt ≤ t)

def listAuditProofRows (jsonb : Jsonb) (projectId : String) («from» «to» : Option ℤ) (limit : ℕ)
    (s : AuditDb) : List AuditProofBundleEntry :=
  ((((s.rows jsonb).filter fun r => r.projectId = projectId && inRange «from» «to» r).insertionSort
    ChainOrder).take limit).map proofRow

def proofRoute (jsonb : Jsonb) (newDate : String → ℤ) (projectId exportedAt : String)
    («from» «to» : Option String) (s : AuditDb) : AuditProofBundle :=
  -- The bundle that the proof route answers with: its range is the query's own texts. `newDate` is
  -- `new Date` on a text that the query's schema lets through.
  assembleAuditProofBundle projectId exportedAt
    (listAuditProofRows jsonb projectId («from».map newDate) («to».map newDate)
      AUDIT_PROOF_MAX_ENTRIES s)
    «from» «to» AUDIT_PROOF_MAX_ENTRIES

inductive ChainErrorKind where
  | badHash
  | brokenLink
  | missingHash
  deriving DecidableEq

structure ChainVerificationError where
  rowId : String
  createdAt : ℤ
  kind : ChainErrorKind
  expected : Option String := none
  actual : Option (Option String) := none
  deriving DecidableEq

structure ChainVerificationResult where
  projectId : String
  rowCount : ℕ
  firstVerifiedAt : Option ℤ
  lastVerifiedAt : Option ℤ
  errors : List ChainVerificationError

def AuditLog.entry (r : AuditLog) : AuditEntry where
  projectId := r.projectId
  userId := r.userId
  action := r.action
  resource := r.resource
  resourceId := r.resourceId
  before := .ofJson r.before
  after := .ofJson r.after
  ipAddress := r.ipAddress
  userAgent := r.userAgent

def recompute (sha : Sha256) (r : AuditLog) : String :=
  hashAuditRow sha (buildCanonicalPayload r.entry r.createdAt r.prevHash).toValue

def missingHash (r : AuditLog) : ChainVerificationError := ⟨r.id, r.createdAt, .missingHash, none, none⟩

def brokenLink (expected : Option String) (r : AuditLog) : ChainVerificationError :=
  ⟨r.id, r.createdAt, .brokenLink, expected, some r.prevHash⟩

def badHash (sha : Sha256) (r : AuditLog) : ChainVerificationError :=
  ⟨r.id, r.createdAt, .badHash, some (recompute sha r), some r.rowHash⟩

def walkChain (sha : Sha256) (expectedPrevHash : Option String) :
    List AuditLog → List ChainVerificationError
  | [] => []
  | r :: rows =>
    if r.rowHash.getD "" = "" then missingHash r :: walkChain sha none rows
    else
      (if r.prevHash ≠ expectedPrevHash then [brokenLink expectedPrevHash r] else []) ++
        (if some (recompute sha r) ≠ r.rowHash then [badHash sha r] else []) ++
          walkChain sha r.rowHash rows

def verifyAuditChain (S : Server) (projectId : String) (s : AuditDb) : ChainVerificationResult :=
  let rows := findProjectChain S.jsonb projectId s
  { projectId := projectId
    rowCount := rows.length
    firstVerifiedAt := rows.head?.map (·.createdAt)
    lastVerifiedAt := rows.getLast?.map (·.createdAt)
    errors := walkChain S.sha none rows }

abbrev AuditService (α : Type) := Prog AuditDb String Write Drawn α

def redacted : String := "[REDACTED]"

def isText (s : String) : JsValue → Bool
  | .str t => t = s
  | _ => false

def isRedacted : JsValue → Bool
  | .obj fields => fields.all fun f => isText redacted f.2
  | _ => true

def redactCredentials : JsValue → JsValue
  | .obj fields => .obj (fields.map fun f => (f.1, .str redacted))
  | _ => .null

theorem redactCredentials_isRedacted (v : JsValue) : isRedacted (redactCredentials v) = true := by
  cases v <;> simp [redactCredentials, isRedacted, isText, redacted]

def stampAfter (tip : Option AuditLog) (now : ℤ) : ℤ :=
  -- the `createdAt` of a row that follows the tip: never at or before it
  tip.elim now fun t => max now (t.createdAt + 1)

def chainedRow (sha : Sha256) (entry : AuditEntry) (tip : Option AuditLog) (drawn : Drawn) :
    AuditLogValues :=
  let prevHash := tip.bind (·.rowHash)
  let createdAt := stampAfter tip drawn.now
  { id := drawn.id
    entry := entry
    prevHash := prevHash
    rowHash := hashAuditRow sha (buildCanonicalPayload entry createdAt prevHash).toValue
    createdAt := createdAt }

def lockKey (projectId : String) : String := "audit:" ++ projectId

def writeChained (S : Server) (entry : AuditEntry) : AuditService Unit := do
  Prog.acquire (lockKey entry.projectId)
  let tip ← Prog.query (latestRow S.jsonb entry.projectId)
  let drawn ← Prog.fresh
  Prog.exec (fun _ => []) (fun _ => [.insertAuditLog (chainedRow S.sha entry tip drawn)]) fun _ => ()

def audit (S : Server) (entry : AuditEntry) : AuditService Unit :=
  if entry.resource = "credential" ∧ ¬(isRedacted entry.before ∧ isRedacted entry.after) then
    Prog.throw "credential audit entries must pass redacted snapshots"
  else writeChained S entry

def AUDIT_CHECKPOINT_STORAGE_PREFIX : String := "audit-checkpoints"

def buildAuditCheckpointStorageKey (projectId checkpointId : String) : String :=
  AUDIT_CHECKPOINT_STORAGE_PREFIX ++ "/" ++ projectId ++ "/" ++ checkpointId ++ ".json"

def CHECKPOINT_DELETE_BATCH_SIZE : ℕ := 1000

def deleteBatches (ids : List String) : List (List String) :=
  (List.range ((ids.length + CHECKPOINT_DELETE_BATCH_SIZE - 1) / CHECKPOINT_DELETE_BATCH_SIZE)).map
    fun i => (ids.drop (i * CHECKPOINT_DELETE_BATCH_SIZE)).take CHECKPOINT_DELETE_BATCH_SIZE

def deleteAuditLogRowsByIds (projectId : String) : List (List String) → ℕ → AuditService ℕ
  -- one `DELETE … RETURNING` a batch, each committed on its own
  | [], deleted => pure deleted
  | batch :: batches, deleted => do
    let rows ← Prog.autocommit (Prog.exec (fun _ => [])
      (fun _ => [.deleteAuditLogs projectId batch])
      fun s => (s.logs.filter fun r => r.entry.projectId = projectId && r.id ∈ batch).length)
    deleteAuditLogRowsByIds projectId batches (deleted + rows)

inductive AuditCheckpointSkipReason where
  | storageNotConfigured
  | nothingToCheckpoint
  deriving DecidableEq

inductive CheckpointTruncateOutcome where
  | skipped (reason : AuditCheckpointSkipReason)
  | checkpointed (deleted : ℕ) (checkpointId bundleKey lastDeletedRowId : String)
      (lastDeletedRowHash : Option String) (truncated : Bool)

def checkpointEntry (projectId checkpointId bundleKey : String) (cutoff : ℤ) (deleted : ℕ)
    (last : AuditProofBundleEntry) (truncated : Bool) : AuditEntry where
  projectId := projectId
  userId := some "system"
  action := "retention.audit_checkpointed"
  resource := "retention_checkpoint"
  resourceId := checkpointId
  before := .null
  after := .obj [("table", .str "audit_logs"), ("cutoff", .str (toISOString cutoff)),
    ("deletedCount", .num (.ofNat deleted)), ("lastDeletedRowId", .str last.id),
    ("lastDeletedRowHash", .ofJson (textOrNull last.rowHash)), ("bundleKey", .str bundleKey),
    ("truncated", .bool truncated)]

def checkpointAndTruncate (S : Server) (projectId : String) (cutoff : ℤ) :
    AuditService CheckpointTruncateOutcome :=
  if !S.storageConfigured then pure (.skipped .storageNotConfigured)
  else do
    let entries ← Prog.autocommit
      (Prog.query (listAuditProofRows S.jsonb projectId none (some cutoff) AUDIT_PROOF_MAX_ENTRIES))
    match entries.getLast? with
    | none => pure (.skipped .nothingToCheckpoint)
    | some lastEntry =>
      let drawn ← Prog.fresh
      let bundle := assembleAuditProofBundle projectId (toISOString drawn.now) entries none
        (some (toISOString cutoff)) AUDIT_PROOF_MAX_ENTRIES
      let bundleKey := buildAuditCheckpointStorageKey projectId drawn.id
      -- nothing is deleted unless the bundle is stored
      Prog.autocommit (Prog.exec (fun _ => []) (fun _ => [.putObject bundleKey bundle]) fun _ => ())
      let deleted ← deleteAuditLogRowsByIds projectId (deleteBatches (entries.map (·.id))) 0
      Prog.transaction fun _ => audit S
        (checkpointEntry projectId drawn.id bundleKey cutoff deleted lastEntry bundle.truncated)
      pure (.checkpointed deleted drawn.id bundleKey lastEntry.id lastEntry.rowHash
        bundle.truncated)

inductive Call where
  -- `audit(entry)`, in a transaction of its own
  | audit (entry : AuditEntry)
  -- `audit(entry, tx)` for each of the entries, in a transaction that the caller may roll back
  | auditWithin (entries : List AuditEntry) (commits : Bool)
  | checkpointAndTruncate (projectId : String) (cutoff : ℤ)

def Call.run (S : Server) : Call → AuditService Unit
  | .audit entry => Prog.transaction fun _ => Audit.audit S entry
  | .auditWithin entries commits => Prog.transaction fun _ => do
    Prog.forEach entries (Audit.audit S)
    if commits then pure () else Prog.throw "rolled back"
  | .checkpointAndTruncate projectId cutoff => do
    let _ ← Audit.checkpointAndTruncate S projectId cutoff
    pure ()

/-- The entries a call may write are values of the script. -/
def Call.Distinct : Call → Prop
  | .audit entry => entry.before.Distinct ∧ entry.after.Distinct
  | .auditWithin entries _ => ∀ entry ∈ entries, entry.before.Distinct ∧ entry.after.Distinct
  | .checkpointAndTruncate _ _ => True

end Rovenue.Audit
